import RouteBinding.Data.Tree
import RouteBinding.Model.Basic
import RouteBinding.Operation.Basic

/-!
# Types and operations as data

The form in which types, and the operations that mention them, are written for other programs.
-/

namespace RouteBinding

/-! ## Types -/

/-- A type as data. -/
def TypeRef.tree : TypeRef → Tree
  | primitive kind => .record [("kind", .text "primitive"), ("primitive", .text kind.name)]
  | array item => .record [("kind", .text "array"), ("item", item.tree)]
  | named name => .record [("kind", .text "named"), ("name", .text name)]

/-- A field as data. -/
def Field.tree (f : Field) : Tree :=
  .record [("name", .text f.name), ("type", f.type.tree), ("optional", .bool f.optional)]

/-- A branch of a union as data. -/
def Variant.tree (v : Variant) : Tree :=
  .record [("name", .text v.name), ("type", v.type.tree)]

/-- A definition as data. -/
def TypeDef.tree : TypeDef → Tree
  | .alias name target =>
    .record [("kind", .text "alias"), ("name", .text name), ("target", target.tree)]
  | .object name fields =>
    .record [("kind", .text "object"), ("name", .text name),
      ("fields", .list (fields.map Field.tree))]
  | .union name variants =>
    .record [("kind", .text "union"), ("name", .text name),
      ("variants", .list (variants.map Variant.tree))]

/-- A model as data: its definitions by name. -/
def TypeModel.tree (m : TypeModel) : Tree :=
  .record (m.definitions.map fun d => (d.1, d.2.tree))

/-! ## Operations -/

/-- The tree of a text that may be missing. -/
def Tree.textOrNull (s : Option String) : Tree :=
  (s.map Tree.text).getD .null

/-- A parameter as data. -/
def Parameter.tree (p : Parameter) : Tree :=
  .record [("name", .text p.name), ("location", .text p.location.name),
    ("required", .bool p.required), ("type", p.type.tree), ("style", .text p.style.name),
    ("explode", .bool p.explode), ("description", .textOrNull p.description)]

/-- An entry of a body as data. -/
def BodyEntry.tree (e : BodyEntry) : Tree :=
  .record [("content_type", .text e.contentType), ("codec", .text e.codec.name),
    ("type", (e.type.map TypeRef.tree).getD .null)]

/-- A body as data. -/
def BodyContract.tree (b : BodyContract) : Tree :=
  .record [("required", .bool b.required),
    ("entries", .record (b.entries.map fun e => (e.1, e.2.tree)))]

/-- An operation as data. -/
def Operation.tree (op : Operation) : Tree :=
  .record [("method", .text op.method.name), ("path", .text op.path), ("name", .text op.name),
    ("operation_id", .textOrNull op.operationId), ("summary", .textOrNull op.summary),
    ("parameters", .list (op.parameters.map Parameter.tree)),
    ("body", (op.body.map BodyContract.tree).getD .null),
    ("response_types", .record (op.responses.map fun r => (r.1, r.2.tree)))]

end RouteBinding
