import RouteBinding.Data.Tree

/-!
# Configuration

The settings of the checker: how routes are bound, and how data is written.
-/

namespace RouteBinding

/-- How routes are bound: the field that is kept for the request body, whether operations without a
route are reported, and whether a warning fails a check. -/
structure CompilerConfig where
  bodySlot : String
  warnUnbound : Bool
  failOnWarnings : Bool
deriving DecidableEq, Inhabited

/-- How data is written: the name of a format. -/
structure OutputConfig where
  format : String
deriving DecidableEq, Inhabited

/-- All settings. -/
structure Config where
  compiler : CompilerConfig
  output : OutputConfig
deriving DecidableEq, Inhabited

/-- The settings that hold where nothing is set. -/
def CompilerConfig.default : CompilerConfig := ⟨"body", true, false⟩

/-- The settings that hold where nothing is set. -/
def OutputConfig.default : OutputConfig := ⟨"auto"⟩

/-- The settings that hold where nothing is set. -/
def Config.default : Config := ⟨.default, .default⟩

/-- The settings as data. -/
def CompilerConfig.tree (c : CompilerConfig) : Tree :=
  .record [("body_slot", .text c.bodySlot), ("warn_unbound_operations", .bool c.warnUnbound),
    ("fail_on_warnings", .bool c.failOnWarnings)]

/-- The settings as data. -/
def OutputConfig.tree (c : OutputConfig) : Tree :=
  .record [("format", .text c.format)]

/-- The settings as data. -/
def Config.tree (c : Config) : Tree :=
  .record [("compiler", c.compiler.tree), ("output", c.output.tree)]

end RouteBinding
