/-!
# Cutting and joining texts

A text cut at every occurrence of a character gives one more piece than there are occurrences,
and joining the pieces with that character gives the text back.
-/

namespace RouteBinding.Text

/-- The pieces between the occurrences of `sep`; there is always at least one. -/
def splitChars (sep : Char) : List Char → List (List Char)
  | [] => [[]]
  | c :: rest =>
    if c = sep then [] :: splitChars sep rest
    else match splitChars sep rest with
      | [] => [[c]]
      | piece :: pieces => (c :: piece) :: pieces

/-- The pieces of a text between the occurrences of `sep`. -/
def split (sep : Char) (s : String) : List String :=
  (splitChars sep s.toList).map String.ofList

theorem splitChars_ne_nil (sep : Char) (s : List Char) : splitChars sep s ≠ [] := by
  cases s with
  | nil => simp [splitChars]
  | cons c rest =>
    unfold splitChars
    split
    · simp
    · split <;> simp

/-- The pieces joined with a character between each two. -/
def joinChars (sep : Char) : List (List Char) → List Char
  | [] => []
  | [piece] => piece
  | piece :: next :: pieces => piece ++ sep :: joinChars sep (next :: pieces)

/-- Joining the pieces gives the text back. -/
theorem joinChars_splitChars (sep : Char) (s : List Char) :
    joinChars sep (splitChars sep s) = s := by
  induction s with
  | nil => rfl
  | cons c rest ih =>
    unfold splitChars
    split
    · rename_i h
      obtain ⟨piece, pieces, hp⟩ := List.exists_cons_of_ne_nil (splitChars_ne_nil sep rest)
      rw [hp] at ih ⊢
      simp [joinChars, ih, h]
    · split
      · rename_i h
        exact absurd h (splitChars_ne_nil sep rest)
      · rename_i piece pieces h
        rw [h] at ih
        cases pieces with
        | nil => simp_all [joinChars]
        | cons next pieces => simp_all [joinChars]

/-- Texts joined with a separator between each two. -/
def join (sep : String) (pieces : List String) : String :=
  String.intercalate sep pieces

/-- The part of a text from the last occurrence of a character on, without that character. -/
def afterLast? (sep : Char) (s : List Char) : Option (List Char) :=
  if sep ∈ s then (splitChars sep s).getLast? else none

/-- Whether one text is the beginning of another. -/
def startsWith (s head : String) : Bool :=
  head.toList.isPrefixOf s.toList

/-- Whether one text is the end of another. -/
def endsWith (s tail : String) : Bool :=
  tail.toList.isSuffixOf s.toList

/-- What follows `head` in a text that starts with it. -/
def dropHead? (head s : String) : Option String :=
  if startsWith s head then some (String.ofList (s.toList.drop head.length)) else none

/-- Whether one list of characters occurs inside another. -/
def isInfixChars (part : List Char) : List Char → Bool
  | [] => part.isEmpty
  | c :: rest => part.isPrefixOf (c :: rest) || isInfixChars part rest

/-- Whether one text occurs inside another. -/
def contains (s part : String) : Bool :=
  isInfixChars part.toList s.toList

end RouteBinding.Text
