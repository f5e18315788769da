import RouteBinding.Schema.Node

/-!
# The type model

Types are references: a scalar, an array of a type, or the name of a definition. A definition is an
alias, an object or a union, and refers to other definitions by name, so that recursive schemas
need no infinite nesting. A model keeps its definitions in the order in which they were made, each
under its own name.
-/

namespace RouteBinding

/-- A use of a type. -/
inductive TypeRef
  | primitive (kind : Primitive)
  | array (item : TypeRef)
  | named (name : String)
deriving DecidableEq, Inhabited

/-- A property of an object type. -/
structure Field where
  name : String
  type : TypeRef
  optional : Bool
deriving DecidableEq, Inhabited

/-- A branch of a union type. -/
structure Variant where
  name : String
  type : TypeRef
deriving DecidableEq, Inhabited

/-- A named type. -/
inductive TypeDef
  | alias (name : String) (target : TypeRef)
  | object (name : String) (fields : List Field)
  | union (name : String) (variants : List Variant)
deriving DecidableEq, Inhabited

/-- The name of a definition. -/
def TypeDef.name : TypeDef → String
  | .alias name _ => name
  | .object name _ => name
  | .union name _ => name

/-- The field of an object definition with a name. -/
def TypeDef.field? (name : String) : TypeDef → Option Field
  | object _ fields => fields.find? (·.name = name)
  | _ => none

/-- The names of the branches of a union definition, in order. -/
def TypeDef.variantNames? : TypeDef → Option (List String)
  | union _ variants => some (variants.map (·.name))
  | _ => none

/-- A type as a short text. -/
def TypeRef.describe : TypeRef → String
  | primitive kind => kind.name
  | array item => "list[" ++ item.describe ++ "]"
  | named name => name

/-- The named types of a document, in the order in which they were made. -/
structure TypeModel where
  definitions : List (String × TypeDef)
deriving DecidableEq, Inhabited

namespace TypeModel

/-- The model without definitions. -/
def empty : TypeModel := ⟨[]⟩

/-- The definition with a name. -/
def get? (m : TypeModel) (name : String) : Option TypeDef :=
  m.definitions.lookup name

/-- The names of the definitions, in order. -/
def names (m : TypeModel) : List String :=
  m.definitions.map (·.1)

/-- The count of definitions. -/
def size (m : TypeModel) : Nat :=
  m.definitions.length

/-- Whether a name is defined. -/
def contains (m : TypeModel) (name : String) : Bool :=
  (m.get? name).isSome

/-- Puts a definition under its name: in the place of an earlier one with that name, or else at
the end. -/
def put (m : TypeModel) (d : TypeDef) : TypeModel :=
  if m.contains d.name then
    ⟨m.definitions.map fun e => if e.1 = d.name then (e.1, d) else e⟩
  else ⟨m.definitions ++ [(d.name, d)]⟩

/-- The model of a list of definitions. -/
def ofList (ds : List TypeDef) : TypeModel :=
  ds.foldl put empty

/-- Follows aliases from a type. `seen` holds the names passed, each of which is defined and met
once, so that `fuel`, the count of definitions, is never used up while an alias remains. -/
def unaliasFrom (m : TypeModel) : (fuel : Nat) → (seen : List String) → TypeRef → TypeRef
  | fuel + 1, seen, .named name =>
    if seen.contains name then .named name
    else
      match m.get? name with
      | some (.alias _ target) => m.unaliasFrom fuel (name :: seen) target
      | _ => .named name
  | _, _, ref => ref

/-- The first type that is no alias on the way from a type through the targets of aliases. In a
loop of aliases it is the name at which the loop closes. -/
def unalias (m : TypeModel) (ref : TypeRef) : TypeRef :=
  m.unaliasFrom m.size [] ref

end TypeModel

end RouteBinding
