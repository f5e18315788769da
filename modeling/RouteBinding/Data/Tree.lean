import RouteBinding.Data.Scalar

/-!
# Trees of data

Data that is built from scalars by lists and mappings. A mapping keeps its entries in the order in
which their keys first came; a later entry with the same key replaces the value only.
-/

namespace RouteBinding

/-- A scalar, a list or a mapping. -/
inductive Tree
  | scalar (value : Scalar)
  | list (items : List Tree)
  | mapping (entries : List (Scalar × Tree))
deriving Inhabited

/-- Puts a value under a key: in the place of the entry with the same key, which keeps its key, or
else at the end. -/
def putEntry {α : Type} (key : Scalar) (value : α) : List (Scalar × α) → List (Scalar × α)
  | [] => [(key, value)]
  | (k, v) :: rest =>
    if k.sameKey key then (k, value) :: rest else (k, v) :: putEntry key value rest

/-- The value under a text key. -/
def valueAt? {α : Type} (key : String) : List (Scalar × α) → Option α
  | [] => none
  | (k, v) :: rest => if k = .text key then some v else valueAt? key rest

/-- A list of entries in which every key stands once. -/
def mergeEntries {α : Type} (entries : List (Scalar × α)) : List (Scalar × α) :=
  entries.foldl (fun merged e => putEntry e.1 e.2 merged) []

namespace Tree

/-- The tree of no value. -/
def null : Tree := scalar .null

/-- The tree of a text. -/
def text (s : String) : Tree := scalar (.text s)

/-- The tree of a truth value. -/
def bool (b : Bool) : Tree := scalar (.bool b)

/-- A mapping with texts as keys. -/
def record (fields : List (String × Tree)) : Tree :=
  mapping (fields.map fun f => (.text f.1, f.2))

/-- The value under a text key of a mapping. -/
def get? (key : String) : Tree → Option Tree
  | mapping entries => valueAt? key entries
  | _ => none

/-- The text of a tree that is one. -/
def text? : Tree → Option String
  | scalar (.text s) => some s
  | _ => none

end Tree

end RouteBinding
