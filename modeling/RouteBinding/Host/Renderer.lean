import RouteBinding.Text.Split

/-!
# Marked-up texts on a terminal

For a reader at a terminal texts are marked up: a name in brackets sets what follows in a style, and the
name behind a slash in brackets ends that. How a text then looks is up to a library of the terminal, and so
is which texts it refuses, like one that ends a style that was not begun. Of the library it is known only
that it shows a text without brackets, also with the first part of it set in a style.
-/

namespace RouteBinding

/-- A style that a message, or the head of it, is set in. -/
inductive TextStyle
  | green
  | yellow
  | boldRed
  | dim
deriving DecidableEq, Inhabited

namespace TextStyle

/-- The name of a style in markup. -/
def name : TextStyle → String
  | green => "green"
  | yellow => "yellow"
  | boldRed => "bold red"
  | dim => "dim"

/-- A text set in a style. -/
def around (style : TextStyle) (text : String) : String :=
  "[" ++ style.name ++ "]" ++ text ++ "[/" ++ style.name ++ "]"

end TextStyle

/-- A library that shows marked-up texts on a terminal: messages, tables with a title and columns, and
data. The parts of a table are marked up as well, data is not. -/
structure Renderer where
  message? : (markup : String) → Option String
  table? : (title : String) → (columns : List String) → (rows : List (List String)) → Option String
  data : (text : String) → String
  shows_plain : ∀ text, '[' ∉ text.toList → (message? text).isSome
  shows_styled : ∀ style text rest, '[' ∉ String.toList text → '[' ∉ String.toList rest →
    (message? (TextStyle.around style text ++ rest)).isSome

/-! ## A library that leaves the styles out -/

namespace Markup

/-- Whether a tag may begin with a character. -/
def beginsTag (c : Char) : Bool :=
  ('a' ≤ c && c ≤ 'z') || c = '#' || c = '/' || c = '@'

/-- The tag behind an opening bracket. -/
def tag? (rest : List Char) : Option (List Char) :=
  let tag := rest.takeWhile fun c => c ≠ '[' && c ≠ ']'
  if tag.head?.any beginsTag && (rest.drop tag.length).head? = some ']' then some tag else none

/-- The styles that are begun behind a tag, the last one first; `none` for a tag that ends a style that is
not begun. -/
def behind? (begun : List (List Char)) : (tag : List Char) → Option (List (List Char))
  | ['/'] => if begun.isEmpty then none else some begun.tail
  | '/' :: name => if begun.contains name then some (begun.erase name) else none
  | tag => some (tag.takeWhile (· ≠ '=') :: begun)

/-- Takes the tags out of a text. A backslash in front of a bracket makes the bracket a part of the text.
The first `passed` characters are left out. -/
def untag (begun : List (List Char)) (passed : Nat) : List Char → Option (List Char)
  | [] => some []
  | c :: rest =>
    if passed ≠ 0 then untag begun (passed - 1) rest
    else if c = '\\' && rest.head? = some '[' then (untag begun 1 rest).map ('[' :: ·)
    else if c = '[' then
      match tag? rest with
      | some tag => (behind? begun tag).bind fun begun => untag begun (tag.length + 1) rest
      | none => (untag begun 0 rest).map (c :: ·)
    else (untag begun 0 rest).map (c :: ·)

/-- A text without its tags. -/
def plain? (markup : String) : Option String :=
  (untag [] 0 markup.toList).map String.ofList

variable {begun : List (List Char)} {passed : Nat} {cs rest : List Char}

/-- The characters of a tag are passed over. -/
theorem untag_append (begun : List (List Char)) (tag rest : List Char) :
    untag begun tag.length (tag ++ rest) = untag begun 0 rest := by
  induction tag with
  | nil => rfl
  | cons c tag ih => simpa [untag] using ih

/-- A text without opening brackets has no tags that could be refused. -/
theorem isSome_untag (h : '[' ∉ cs) : (untag begun passed cs).isSome := by
  induction cs generalizing passed with
  | nil => rfl
  | cons c rest ih =>
    have hc : c ≠ '[' := (List.ne_of_not_mem_cons h).symm
    have hrest : '[' ∉ rest := List.not_mem_of_not_mem_cons h
    have hhead : rest.head? ≠ some '[' := fun heq => hrest (List.mem_of_head? heq)
    have ih (passed : Nat) : (untag begun passed rest).isSome := ih hrest
    rw [untag]
    split <;> simp [hhead, ih]

/-- A tag that begins or ends a style is read behind its opening bracket. -/
theorem untag_tag {tag : List Char} {begun' : List (List Char)} (htag : tag? (tag ++ ']' :: rest) = some tag)
    (hbehind : behind? begun tag = some begun') :
    untag begun 0 ('[' :: (tag ++ ']' :: rest)) = untag begun' 0 rest := by
  have hpassed : untag begun' (tag.length + 1) (tag ++ ']' :: rest) = untag begun' 0 rest := by
    have happend := untag_append begun' (tag ++ [']']) rest
    rwa [List.length_append, List.append_assoc] at happend
  simp [untag, htag, hbehind, hpassed]

/-- Behind a text without brackets a style that was begun may be ended. -/
theorem isSome_untag_end {tag : List Char} (htag : tag? (tag ++ ']' :: rest) = some tag)
    (hbehind : behind? begun tag = some []) (hplain : '[' ∉ tag) (hrest : '[' ∉ rest) (hcs : '[' ∉ cs) :
    (untag begun 0 (cs ++ '[' :: (tag ++ ']' :: rest))).isSome := by
  induction cs with
  | nil =>
    rw [List.nil_append, untag_tag htag hbehind]
    exact isSome_untag hrest
  | cons c cs ih =>
    have hc : c ≠ '[' := (List.ne_of_not_mem_cons hcs).symm
    have hrest' : '[' ∉ cs := List.not_mem_of_not_mem_cons hcs
    have ih := ih hrest'
    cases cs with
    | nil =>
      by_cases hslash : c = '\\'
      · -- the backslash makes the bracket a part of the text, and no other one follows
        have hplain' : '[' ∉ tag ++ ']' :: rest := by simp [hplain, hrest]
        simp [untag, hslash, isSome_untag hplain']
      · simpa [untag, hc, hslash] using ih
    | cons d cs =>
      have hd : d ≠ '[' := (List.ne_of_not_mem_cons hrest').symm
      rw [List.cons_append, untag]
      simpa [hc, hd] using ih

end Markup

open Markup in
/-- A library that leaves the styles out: a text is shown without its tags, and the cells of a table stand in
lines. -/
def Renderer.untagging : Renderer where
  message? := plain?
  table? title columns rows := do
    let lines ← (columns :: rows).mapM fun row => row.mapM plain?
    return Text.join "\n" ((← plain? title) :: lines.map (Text.join "  "))
  data text := text
  shows_plain text h := by
    rw [plain?, Option.isSome_map]
    exact isSome_untag h
  shows_styled style text rest htext hrest := by
    have hlist : (style.around text ++ rest).toList =
        '[' :: (style.name.toList ++ ']' ::
          (text.toList ++ '[' :: (('/' :: style.name.toList) ++ ']' :: rest.toList))) := by
      simp [TextStyle.around]
    have hopen : tag? (style.name.toList ++ ']' ::
        (text.toList ++ '[' :: (('/' :: style.name.toList) ++ ']' :: rest.toList))) = some style.name.toList := by
      cases style <;> rfl
    have hclose : tag? (('/' :: style.name.toList) ++ ']' :: rest.toList) = some ('/' :: style.name.toList) := by
      cases style <;> rfl
    have hbegun : behind? [] style.name.toList = some [style.name.toList] := by cases style <;> rfl
    have hended : behind? [style.name.toList] ('/' :: style.name.toList) = some [] := by cases style <;> rfl
    rw [plain?, Option.isSome_map, hlist, untag_tag hopen hbegun]
    exact isSome_untag_end hclose hended (by cases style <;> decide) hrest htext

end RouteBinding
