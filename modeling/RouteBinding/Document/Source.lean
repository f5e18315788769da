import RouteBinding.Document.Address
import RouteBinding.Document.Content
import RouteBinding.MediaType
import RouteBinding.Route.Table
import RouteBinding.Text.Charset

/-!
# Sources

A source is standard input, written `-`, an address on the web, or the path of a file. What a source
says about its content, the type of an answer or the suffix of a file, picks the format. The type of an
answer may also name the charset of its text. An API description names the version of its format.
-/

namespace RouteBinding

open Text (startsWith)

namespace DataFormat

/-- The format that a type of content names. -/
def ofContentType? (contentType : String) : Option DataFormat :=
  let name := Text.lower contentType
  if Text.contains name "json" then some .json
  else if Text.contains name "yaml" || Text.contains name "yml" then some .yaml
  else none

/-- The format that the suffix of a path names. -/
def ofPath? (path : String) : Option DataFormat :=
  [(".json", DataFormat.json), (".yaml", .yaml), (".yml", .yaml)].lookup
    (Text.lower (Path.suffix path))

end DataFormat

namespace Document

/-- Reads all of standard input, which is empty afterwards. -/
def fromInput : Action Document := do
  let h ← get
  set { h with input := "" }
  if Text.isBlankText h.input then Action.fail (.document .noInput)
  Action.ofExcept id (ofText none h.input)

/-- The text of an answer, in the charset that its type names, or else in UTF-8. -/
def answerText? (contentType : Option String) (body : List UInt8) : Option String :=
  let charset := (contentType.bind MediaType.charset?).bind Text.Charset.ofName?
  (charset.getD (.utf8 false)).decode? body

/-- Asks for an address. -/
def fromAddress (purpose : Purpose) (address : String) : Action Document := do
  if !Address.isWellFormed address then Action.fail (.breakdown .badAddress)
  match (← get).fetch address with
  | .failure reason => Action.fail (.document (.fetchFailed purpose address reason))
  | .answer status contentType body =>
    if status < 200 || 300 ≤ status then
      Action.fail (.document (.badStatus purpose address status))
    match answerText? contentType body with
    | none => Action.fail (.breakdown .unreadableText)
    | some text =>
      Action.ofExcept id (ofText (contentType.bind DataFormat.ofContentType?) text)

/-- Reads a file. -/
def fromFile (purpose : Purpose) (path : String) : Action Document := do
  let h ← get
  if !(← Action.ofExcept .breakdown (h.isFile path)) then
    Action.fail (.document (.fileNotFound purpose path))
  match h.readText? path with
  | none => Action.fail (.breakdown .unreadableText)
  | some content =>
    if Text.isBlankText content then Action.fail (.document (.fileEmpty purpose path))
    Action.ofExcept id (ofText (DataFormat.ofPath? path) content)

/-- Whether a source is an address on the web. -/
def isAddress (source : String) : Bool :=
  startsWith source "http://" || startsWith source "https://"

/-- The document of a source. -/
def fromSource (purpose : Purpose) (source : String) : Action Document :=
  if source = "-" then fromInput
  else if isAddress source then fromAddress purpose source
  else fromFile purpose source

/-- The API description of a source, which is a mapping. -/
def loadSpec (source : String) : Action Document := do
  let d ← fromSource .spec source
  match d.graph.shape d.root with
  | .mapping .. => return d
  | .scalar .null => Action.fail (.document (.notObject "empty document"))
  | _ => Action.fail (.document (.notObject (d.graph.typeName d.root)))

/-- The version of the format that a description names. Every one that starts with `3.` is accepted. -/
def version (d : Document) : Except Failure String := do
  let some entries := d.graph.entries? d.root | throw (.breakdown .documentNotMapping)
  match valueAt? "swagger" entries, valueAt? "openapi" entries with
  | some found, _ => throw (.document (.swagger (← spelled .breakdown (d.graph.display? found))))
  | none, none | none, some (.scalar .null) => throw (.document .noVersion)
  | none, some found =>
    let version ← spelled .breakdown (d.graph.display? found)
    if Text.startsWith version "3." then return version
    else throw (.document (.badVersion version))

/-- The routes of a source. -/
def loadRoutes (source : String) : Action (List Route) := do
  match RouteTable.read (← fromSource .routes source) with
  | .ok routes => return routes
  | .error (.refused e) => Action.fail (.route e)
  | .error (.breakdown b) => Action.fail (.breakdown b)

end Document

end RouteBinding
