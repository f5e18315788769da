import RouteBinding.Config.Reader

/-!
# Changing one setting

A setting is named by its keys with dots between them. A text becomes a truth value where one stands
now, and stays a text anywhere else.
-/

namespace RouteBinding

/-- Why a setting is not changed. -/
inductive EditFault
  | noSection
  | noLeaf
  | invalid (problems : List ConfigProblem)
deriving DecidableEq, Inhabited

namespace Config

/-- The words that turn a setting on; every other word turns it off. -/
def onWords : List String := ["true", "1", "yes", "on"]

/-- The value that a text stands for in the place of an old value. -/
def coerce (old : Scalar) (value : String) : Scalar :=
  match old with
  | .bool _ => .bool (onWords.contains (Text.lower value))
  | _ => .text value

/-- Puts a value in the place of the leaf that the keys lead to, and gives what was put there. -/
def setLeaf (value : String) : List String → Tree → Except EditFault (Tree × Scalar)
  | [], _ => .error .noLeaf
  | [key], t =>
    match t, t.get? key with
    | .mapping entries, some (.scalar old) =>
      let new := coerce old value
      .ok (.mapping (putEntry (.text key) (.scalar new) entries), new)
    | _, _ => .error .noLeaf
  | key :: next :: keys, t =>
    match t, t.get? key with
    | .mapping entries, some (.mapping inner) => do
      let (changed, new) ← setLeaf value (next :: keys) (.mapping inner)
      return (.mapping (putEntry (.text key) changed entries), new)
    | _, _ => .error .noSection

/-- The configuration with one setting changed, and the new value. -/
def set (c : Config) (keys : List String) (value : String) : Except EditFault (Config × Scalar) := do
  let (t, new) ← setLeaf value keys c.tree
  match Config.ofTree t with
  | .ok changed => return (changed, new)
  | .error problems => throw (.invalid problems)

end Config

end RouteBinding
