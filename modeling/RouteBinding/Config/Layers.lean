import RouteBinding.Config.Reader

/-!
# Layers of configuration

The configuration in force is made of layers: the user's own, the project's, the environment and the
command line, each laid over those before it. Where both hold a mapping the layers are merged key by
key; anywhere else the upper value stands alone.
-/

namespace RouteBinding

mutual

/-- The value that stands where an upper value is laid over a lower one. -/
def overlayValue (lower : Option Tree) : Tree → Tree
  | .mapping entries =>
    match lower with
    | some (.mapping base) => .mapping (overlay base entries)
    | _ => .mapping entries
  | upper => upper

/-- Lays entries over those of a mapping. -/
def overlay (base : List (Scalar × Tree)) : List (Scalar × Tree) → List (Scalar × Tree)
  | [] => base
  | (key, upper) :: rest =>
    let lower := (base.find? fun e => e.1.sameKey key).map (·.2)
    overlay (putEntry key (overlayValue lower upper) base) rest

end

/-- Single settings that stand above the files: those that are given. -/
structure Settings where
  bodySlot : Option String
  failOnWarnings : Option Bool
  format : Option String
deriving DecidableEq, Inhabited

namespace Settings

/-- No settings. -/
def none : Settings := ⟨.none, .none, .none⟩

/-- The settings that hold when some are laid over others. -/
def laidOver (upper lower : Settings) : Settings :=
  ⟨upper.bodySlot.or lower.bodySlot, upper.failOnWarnings.or lower.failOnWarnings,
    upper.format.or lower.format⟩

/-- The settings as a layer. The section of the compiler is always there. -/
def entries (s : Settings) : List (Scalar × Tree) :=
  let slot := s.bodySlot.toList.map fun slot => ("body_slot", Tree.text slot)
  let fail := s.failOnWarnings.toList.map fun b => ("fail_on_warnings", Tree.bool b)
  let output := s.format.toList.map fun name => (Scalar.text "output", Tree.record [("format", .text name)])
  (.text "compiler", Tree.record (slot ++ fail)) :: output

end Settings

/-- The layers below the command line and above the defaults. -/
structure Layers where
  user : Config
  project : Option (List (Scalar × Tree))
  environment : Settings
  command : Settings

namespace Layers

/-- All layers as one mapping. -/
def merged (l : Layers) : Tree :=
  let user := l.user.tree
  let files := overlayValue (some user) (.mapping (l.project.getD []))
  overlayValue (some files) (.mapping (l.command.laidOver l.environment).entries)

/-- The configuration in force. -/
def resolve (l : Layers) : Except (List ConfigProblem) Config :=
  Config.ofTree l.merged

end Layers

end RouteBinding
