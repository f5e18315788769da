import RouteBinding.Proofs.Data.Graph
import RouteBinding.Proofs.Pointer
import RouteBinding.Proofs.Schema.Reading

/-!
# Pointers that are written

A pointer that is written from keys is read as these keys (`Pointer.keys?_ofKeys`), so it leads to what stands under
the keys, one inside the other, whatever characters they hold. A key is escaped by two replacements one after the
other, `~` before `/`, and a segment is read by two in the opposite order; each time one pass over the text does the
same (`Pointer.toList_escape`, `Pointer.unescapeChars_eq`).

The pointer to a component is read in two ways: by its name, and key by key. Both find the same component schemas
(`Document.find_component_iff`), since a way does not go on from a value that counts as absent.
-/

namespace RouteBinding

/-! ## Replacements -/

namespace Text

/-- A text with another one in the place of every occurrence of a character. -/
def replaceChar (old : Char) (new : List Char) (s : List Char) : List Char :=
  s.flatMap fun c => if c = old then new else [c]

/-- A text with a character in the place of every occurrence of two others next to each other. -/
def replacePair (first second new : Char) : List Char → List Char
  | [] => []
  | [c] => [c]
  | c :: next :: rest =>
    if c = first ∧ next = second then new :: replacePair first second new rest
    else c :: replacePair first second new (next :: rest)

variable {first second new c : Char} {rest : List Char}

theorem replacePair_pair :
    replacePair first second new (first :: second :: rest) = new :: replacePair first second new rest := by
  rw [replacePair, if_pos ⟨rfl, rfl⟩]

/-- A character stays where no pair begins with it. -/
theorem replacePair_cons (h : ∀ rest', c = first → rest ≠ second :: rest') :
    replacePair first second new (c :: rest) = c :: replacePair first second new rest := by
  cases rest with
  | nil => rfl
  | cons next rest =>
    rw [replacePair, if_neg]
    intro hpair
    exact h rest hpair.1 (by rw [hpair.2])

theorem dropHead?_append (head s : String) : dropHead? head (head ++ s) = some s := by
  have hstarts : startsWith (head ++ s) head = true := by
    rw [startsWith, String.toList_append]
    exact List.isPrefixOf_iff_prefix.2 (List.prefix_append _ _)
  rw [dropHead?, if_pos hstarts, String.toList_append, ← String.length_toList, List.drop_left, String.ofList_toList]

theorem eq_append_of_dropHead? {head s tail : String} (h : dropHead? head s = some tail) : s = head ++ tail := by
  unfold dropHead? at h
  split_ifs at h with hstarts
  cases h
  obtain ⟨tail, htail⟩ := List.isPrefixOf_iff_prefix.1 hstarts
  apply String.toList_injective
  rw [String.toList_append, String.toList_ofList, ← htail, ← String.length_toList, List.drop_left]

end Text

namespace Pointer

/-! ## Keys -/

/-- A key is escaped by two replacements, the one of `~` before the one of `/`. -/
theorem toList_escape (key : String) :
    (escape key).toList = Text.replaceChar '/' ['~', '1'] (Text.replaceChar '~' ['~', '0'] key.toList) := by
  rw [escape, String.toList_ofList, Text.replaceChar, Text.replaceChar, List.flatMap_assoc]
  congr 1
  funext c
  unfold escapeChar
  by_cases htilde : c = '~'
  · simp [htilde]
  · by_cases hslash : c = '/'
    · simp [hslash]
    · simp [htilde, hslash]

/-- A segment is read by two replacements, the one of `~1` before the one of `~0`. -/
theorem unescapeChars_eq (s : List Char) :
    unescapeChars s = Text.replacePair '~' '0' '~' (Text.replacePair '~' '1' '/' s) := by
  -- along the cases of the reading: a pair of either kind, any other character, the end
  induction s using unescapeChars.induct with
  | case1 rest ih =>
    rw [unescapeChars, ih, Text.replacePair_pair, Text.replacePair_cons]
    intro _ h
    exact absurd h (by decide)
  | case2 rest ih =>
    have hzero : Text.replacePair '~' '1' '/' ('0' :: rest) = '0' :: Text.replacePair '~' '1' '/' rest := by
      apply Text.replacePair_cons
      intro _ h
      exact absurd h (by decide)
    have htilde : Text.replacePair '~' '1' '/' ('~' :: '0' :: rest) =
        '~' :: '0' :: Text.replacePair '~' '1' '/' rest := by
      rw [Text.replacePair_cons, hzero]
      intro _ _ h
      exact absurd (List.cons.inj h).1 (by decide)
    rw [unescapeChars, ih, htilde, Text.replacePair_pair]
  | case3 c rest hone hzero ih =>
    rw [unescapeChars.eq_3 _ _ hone hzero, ih, Text.replacePair_cons fun rest' hc hrest => hone rest' hc hrest,
      Text.replacePair_cons]
    -- the first replacement makes no `0` where the text before had none
    intro rest' hc hrest'
    cases rest with
    | nil => cases hrest'
    | cons next rest =>
      have hnext : next ≠ '0' := fun h => hzero rest hc (by rw [h])
      by_cases hpair : ∃ rest'', next = '~' ∧ rest = '1' :: rest''
      · obtain ⟨rest'', rfl, rfl⟩ := hpair
        rw [Text.replacePair_pair] at hrest'
        exact absurd (List.cons.inj hrest').1 (by decide)
      · rw [Text.replacePair_cons fun rest'' hnext hrest => hpair ⟨rest'', hnext, hrest⟩] at hrest'
        exact hnext (List.cons.inj hrest').1
  | case4 => rfl

/-- The pointer with the given keys. -/
def ofKeys (keys : List String) : String :=
  root ++ Text.join "/" (keys.map escape)

/-- A pointer that is written from keys is read as these. -/
theorem keys?_ofKeys {keys : List String} (h : keys ≠ []) : keys? (ofKeys keys) = some keys := by
  have hsplit : Text.splitChars '/' (Text.join "/" (keys.map escape)).toList =
      (keys.map escape).map String.toList := by
    rw [Text.toList_join_slash]
    apply Text.splitChars_joinChars
    · simpa using h
    · rw [List.forall_mem_map, List.forall_mem_map]
      exact fun key _ => slash_notMem_escape key
  rw [keys?, ofKeys, Text.dropHead?_append, Option.map_some, Text.split, hsplit, List.map_map, List.map_map,
    List.map_map]
  congr 1
  conv_rhs => rw [← List.map_id keys]
  apply List.map_congr_left
  intro key _
  simp [unescape_escape]

theorem escape_ne_empty {name : String} (h : name ≠ "") : escape name ≠ "" := by
  intro hempty
  apply h
  rw [← unescape_escape name, hempty]
  rfl

theorem componentName?_component {name : String} (h : name ≠ "") :
    componentName? (component name) = some name := by
  have hslash := slash_notMem_escape name
  rw [componentName?, component, Text.dropHead?_append]
  simp [escape_ne_empty h, hslash, unescape_escape]

/-- A pointer that names a component has three keys. -/
theorem keys?_of_componentName? {ref name : String} (h : componentName? ref = some name) :
    keys? ref = some ["components", "schemas", name] := by
  unfold componentName? at h
  simp only [Option.bind_eq_bind, Option.bind_eq_some_iff] at h
  obtain ⟨rest, hrest, h⟩ := h
  split_ifs at h with hname
  cases h
  have hslash : '/' ∉ rest.toList := by
    intro hmem
    exact hname (by simp [hmem])
  have hbase : keys? "#/components/schemas" = some ["components", "schemas"] := by decide
  have hchild : ref = child "#/components/schemas" rest := by
    rw [Text.eq_append_of_dropHead? hrest]
    rfl
  rw [hchild, keys?_child hbase hslash]
  rfl

end Pointer

/-! ## Ways through mappings -/

namespace Graph

variable {g : Graph} {v w : Value} {key next : String} {rest : List String} {entries : List (Scalar × Value)}

/-- The value under keys, each of them in the mapping that stands under those before it. -/
def lookup? (g : Graph) (v : Value) : List String → Option Value
  | [] => some v
  | key :: rest => do
    let entries ← g.entries? v
    let inner ← valueAt? key entries
    g.lookup? inner rest

theorem walk_of_lookup? {keys : List String} (h : g.lookup? v keys = some w) : g.walk v keys = .ok w := by
  induction keys generalizing v with
  | nil =>
    cases h
    rfl
  | cons key rest ih =>
    simp only [lookup?, Option.bind_eq_bind, Option.bind_eq_some_iff] at h
    obtain ⟨entries, hentries, inner, hinner, hrest⟩ := h
    rw [walk, Resolver.step_of_entries? hentries hinner]
    exact ih hrest

theorem step_eq_ok_iff (hv : g.entries? v = some entries) : g.step v key = .ok w ↔ valueAt? key entries = some w := by
  obtain ⟨id, hshape⟩ := entries?_eq_some_iff.1 hv
  rw [step, hshape]
  dsimp only
  cases valueAt? key entries <;> simp

theorem walk_singleton : g.walk v [key] = g.step v key := by
  rw [walk]
  cases g.step v key <;> rfl

theorem walk_cons_eq_ok : g.walk v (key :: rest) = .ok w ↔ ∃ u, g.step v key = .ok u ∧ g.walk u rest = .ok w := by
  rw [walk]
  cases g.step v key <;> simp

/-- No step leads on from a value that counts as absent. -/
theorem isTruthy_of_step (h : g.step v key = .ok w) : g.isTruthy v = true := by
  rw [isTruthy]
  unfold step at h
  cases hshape : g.shape v with
  | scalar s => rw [hshape] at h; cases h
  | set members => rw [hshape] at h; cases h
  | pair id first second => rfl
  | list id items =>
    cases items with
    | cons item items => rfl
    | nil =>
      have hnone : (Text.readInt? key).bind (itemAt? []) = none := by
        cases Text.readInt? key <;> simp [itemAt?]
      rw [hshape] at h
      simp only [hnone] at h
      cases h
  | mapping id entries =>
    cases entries with
    | cons e entries => rfl
    | nil => rw [hshape] at h; cases h

/-- A way that goes on after a key leads through a value that counts as present. -/
theorem walk_through (hv : g.entries? v = some entries) : g.walk v (key :: next :: rest) = .ok w ↔
    ∃ u, (valueAt? key entries).filter g.isTruthy = some u ∧ g.walk u (next :: rest) = .ok w := by
  rw [walk_cons_eq_ok]
  apply exists_congr
  intro u
  rw [step_eq_ok_iff hv, Option.filter_eq_some_iff]
  constructor
  · intro h
    obtain ⟨inner, hstep, -⟩ := walk_cons_eq_ok.1 h.2
    exact ⟨⟨h.1, isTruthy_of_step hstep⟩, h.2⟩
  · intro h
    exact ⟨h.1.1, h.2⟩

end Graph

/-! ## Pointers that lead to values -/

namespace Document

variable {d : Document} {r : Resolver} {ref name : String} {v : Value}

/-- A pointer that names a component leads to that component and nowhere else. -/
theorem find_component_iff (hr : Resolver.ofDocument d = .ok r) (hname : Pointer.componentName? ref = some name) :
    d.find ref = .ok v ↔ valueAt? name r.schemas = some v := by
  have hfind : d.find ref = .ok v ↔ d.graph.walk d.root ["components", "schemas", name] = .ok v := by
    rw [find_eq_ok_iff, Pointer.keys?_of_componentName? hname]
    simp
  rw [hfind]
  unfold Resolver.ofDocument at hr
  split at hr
  · rename_i top htop
    rw [Graph.walk_through htop]
    dsimp only at hr
    split at hr
    · rename_i habsent
      cases hr
      simp [habsent, valueAt?]
    · rename_i components hcomponents
      rw [hcomponents]
      split at hr
      · rename_i inner hinner
        simp only [Option.some.injEq, exists_eq_left', Graph.walk_through hinner]
        split at hr
        · rename_i habsent
          cases hr
          simp [habsent, valueAt?]
        · rename_i schemas hschemas
          simp only [hschemas, Option.some.injEq, exists_eq_left', Graph.walk_singleton]
          split at hr
          · rename_i entries hentries
            cases hr
            exact Graph.step_eq_ok_iff hentries
          · cases hr
      · cases hr
  · cases hr

/-- Pointers lead to what they were written for: one that is written from keys to the value that nested mappings hold
under the keys, and one that names a component to that component, if there is one. The name is read back from the
pointer to a component. -/
theorem find_written (d : Document) :
    (∀ keys v, keys ≠ [] → d.graph.lookup? d.root keys = some v → d.find (Pointer.ofKeys keys) = .ok v) ∧
    (∀ name, name ≠ "" → Pointer.componentName? (Pointer.component name) = some name) ∧
    ∀ r, Resolver.ofDocument d = .ok r → ∀ ref name, Pointer.componentName? ref = some name →
      ((∃ v, d.find ref = .ok v) ↔ r.declares name) ∧
        ∀ v, d.find ref = .ok v ↔ valueAt? name r.schemas = some v := by
  refine ⟨?keys, fun name => Pointer.componentName?_component, ?components⟩
  case keys =>
    intro keys v hne hlookup
    exact find_eq_ok_iff.2 ⟨keys, Pointer.keys?_ofKeys hne, Graph.walk_of_lookup? hlookup⟩
  case components =>
    intro r hr ref name hname
    have hfind (v : Value) : d.find ref = .ok v ↔ valueAt? name r.schemas = some v := find_component_iff hr hname
    refine ⟨?_, hfind⟩
    rw [exists_congr hfind, Resolver.declares, Option.isSome_iff_exists]

/-- A document with keys that hold slashes, tildes and what stands for them in a pointer. -/
def oddKeysDocument : Document :=
  Document.ofTree (.mapping
    [(.text "components", .mapping [(.text "schemas", .mapping
      [(.text "a/~1", .mapping [(.text "type", .scalar (.text "string"))])])]),
     (.text "~01", .mapping [(.text "", .mapping [(.text "~/", .scalar (.text "found"))])])])

/-- The keys of `oddKeysDocument` lead to what they name, one after the other and as the name of a component. -/
theorem find_written_oddKeysDocument :
    oddKeysDocument.find "#/~001//~0~1" = .ok (.scalar (.text "found")) ∧
      Pointer.componentName? (Pointer.component "a/~1") = some "a/~1" ∧
      (∃ v, oddKeysDocument.find "#/components/schemas/a~1~01" = .ok v) := by
  obtain ⟨hkeys, hnames, hcomponents⟩ := find_written oddKeysDocument
  have hr : Resolver.ofDocument oddKeysDocument =
      .ok ⟨oddKeysDocument, [(.text "a/~1", .container 0)]⟩ := rfl
  have hname : Pointer.componentName? "#/components/schemas/a~1~01" = some "a/~1" := by decide
  exact ⟨hkeys ["~01", "", "~/"] _ (List.cons_ne_nil _ _) rfl, hnames "a/~1" (by decide),
    (hcomponents _ hr _ _ hname).1.2 (by decide)⟩

end Document

end RouteBinding
