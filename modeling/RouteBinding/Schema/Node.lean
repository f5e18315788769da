/-!
# Schema nodes

The form of one schema of a document in which every reference that is not to a component has been
followed. A reference to a component stays a name, so that schemas may refer to each other and to
themselves. Each node has a serial number: two nodes are the same node when their numbers are
equal, and a copy under another component name has a number of its own.
-/

namespace RouteBinding

/-- The scalar types of a schema. -/
inductive Primitive
  | string
  | integer
  | number
  | boolean
deriving DecidableEq, Inhabited

namespace Primitive

/-- The name of a scalar type. -/
def name : Primitive → String
  | string => "string"
  | integer => "integer"
  | number => "number"
  | boolean => "boolean"

/-- The scalar type with a name. -/
def ofName? (s : String) : Option Primitive :=
  [string, integer, number, boolean].find? fun p => p.name = s

end Primitive

/-- What every schema node has: its number, the place it was read from, the title it declares and
the component it is. -/
structure NodeInfo where
  serial : Nat
  pointer : String
  title : Option String
  component : Option String
deriving DecidableEq, Inhabited

/-- A schema without references except by component name. -/
inductive SchemaNode
  | primitive (info : NodeInfo) (kind : Primitive)
  | reference (info : NodeInfo) (target : String)
  | array (info : NodeInfo) (item : SchemaNode)
  | object (info : NodeInfo) (properties : List (String × SchemaNode)) (required : List String)
  | oneOf (info : NodeInfo) (variants : List SchemaNode)
deriving Inhabited

namespace SchemaNode

/-- What a node has in common with all others. -/
def info : SchemaNode → NodeInfo
  | primitive info _ => info
  | reference info _ => info
  | array info _ => info
  | object info _ _ => info
  | oneOf info _ => info

/-- The node with another common part. -/
def withInfo (info : NodeInfo) : SchemaNode → SchemaNode
  | primitive _ kind => primitive info kind
  | reference _ target => reference info target
  | array _ item => array info item
  | object _ properties required => object info properties required
  | oneOf _ variants => oneOf info variants

/-- The component that a node refers to by name. -/
def target? : SchemaNode → Option String
  | reference _ target => some target
  | _ => none

end SchemaNode

end RouteBinding
