import RouteBinding.Operation.Data
import RouteBinding.Route.Binding

/-!
# Contracts as data

The form in which binding contracts are written for other programs.
-/

namespace RouteBinding

/-- A parameter and its field as data. -/
def ParameterBinding.tree (b : ParameterBinding) : Tree :=
  let p := b.parameter
  .record [("name", .text p.name), ("field_name", .text b.field),
    ("location", .text p.location.name), ("required", .bool p.required), ("type", p.type.tree),
    ("style", .text p.style.name), ("explode", .bool p.explode)]

/-- The body and its field as data. -/
def BodyBinding.tree (b : BodyBinding) : Tree :=
  .record [("slot", .text b.slot), ("required", .bool b.contract.required),
    ("contract", b.contract.tree)]

/-- A contract as data. -/
def BindingContract.tree (c : BindingContract) : Tree :=
  .record [("operation", c.operation.tree), ("handler_identity", .text c.handler),
    ("parameter_bindings", .list (c.parameters.map ParameterBinding.tree)),
    ("body_binding", (c.body.map BodyBinding.tree).getD .null)]

end RouteBinding
