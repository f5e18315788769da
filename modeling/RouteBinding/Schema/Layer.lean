import RouteBinding.Pointer
import RouteBinding.Schema.Node

/-!
# One layer of a schema

What one schema says by itself. The schemas inside it are left open: in a document they are values, and
in a node they are nodes. A reference that is not to a component is a layer of its own, with what the
reference leads to inside it; a reference to a component has nothing inside.
-/

namespace RouteBinding

/-- What one schema says, around the schemas inside it. The names of required properties are missing
where the document does not give them as a list of texts. -/
inductive Layer (α : Type)
  | component (name : String)
  | inlined (reference : String) (target : α)
  | oneOf (branches : List α)
  | array (item : α)
  | object (properties : List (String × α)) (required : Option (List String))
  | primitive (kind : Primitive)
deriving Inhabited

/-- A value of a document and the pointer at which it was met. -/
structure Site where
  value : Value
  pointer : String
deriving DecidableEq, Inhabited

namespace Layer

variable {α β : Type}

/-- The schemas inside a layer, in order. -/
def inner : Layer α → List α
  | component _ => []
  | inlined _ target => [target]
  | oneOf branches => branches
  | array item => [item]
  | object properties _ => properties.map (·.2)
  | primitive _ => []

/-- The layer with another thing in the place of every schema inside it. -/
def map (f : α → β) : Layer α → Layer β
  | component name => component name
  | inlined reference target => inlined reference (f target)
  | oneOf branches => oneOf (branches.map f)
  | array item => array (f item)
  | object properties required => object (properties.map fun p => (p.1, f p.2)) required
  | primitive kind => primitive kind

/-- Takes a step for every schema inside a layer, in order. -/
def traverse {m : Type → Type} [Monad m] (f : α → m β) : Layer α → m (Layer β)
  | component name => return component name
  | inlined reference target => return inlined reference (← f target)
  | oneOf branches => return oneOf (← branches.mapM f)
  | array item => return array (← f item)
  | object properties required => do
    let properties ← properties.mapM fun p => return (p.1, ← f p.2)
    return object properties required
  | primitive kind => return primitive kind

/-- The layer of a schema at a pointer, with the pointers at which the schemas inside it are met. What a
reference leads to is met at the reference. -/
def located (pointer : String) : Layer Value → Layer Site
  | component name => component name
  | inlined reference target => inlined reference ⟨target, reference⟩
  | oneOf branches => oneOf (branches.zipIdx.map fun b => ⟨b.1, s!"{pointer}/oneOf/{b.2}"⟩)
  | array item => array ⟨item, pointer ++ "/items"⟩
  | object properties required =>
    object (properties.map fun p => (p.1, ⟨p.2, pointer ++ "/properties/" ++ Pointer.escape p.1⟩))
      required
  | primitive kind => primitive kind

/-- Whether nothing is missing from a layer: an object gives the names of its required properties. -/
def isComplete : Layer α → Bool
  | object _ none => false
  | _ => true

end Layer

end RouteBinding
