import RouteBinding.Failure
import RouteBinding.Json.Reader
import RouteBinding.Yaml.Reader

/-!
# From a text to a document

A text is read as JSON first, and as YAML if it is no JSON. A text that is known to be in one of
the two formats is read in that format only.
-/

namespace RouteBinding

/-- A format of documents. -/
inductive DataFormat
  | json
  | yaml
deriving DecidableEq, Inhabited

namespace Document

/-- The document of a YAML text. `triedJson` says whether the text was found to be no JSON. -/
def ofYaml (triedJson : Bool) (content : String) : Except Failure Document :=
  match Yaml.read content with
  | .ok d => .ok d
  | .error .malformed => .error (.document (.unreadable triedJson))
  | .error .noSuchValue => .error (.breakdown .invalidValue)
  | .error (.unknownWord word) => .error (.breakdown (.unknownWord word))

/-- The document of a text, whose format may be known. -/
def ofText (format : Option DataFormat) (content : String) : Except Failure Document :=
  if format = some .yaml then ofYaml false content
  else
    match Json.read content with
    | .ok t => .ok (Document.ofTree t)
    | .error .tooManyDigits => .error (.breakdown .numberTooLong)
    | .error .malformed =>
      if format = some .json then .error (.document .invalidJson) else ofYaml true content

end Document

end RouteBinding
