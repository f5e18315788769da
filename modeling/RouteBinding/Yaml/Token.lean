import RouteBinding.Yaml.Cursor

/-!
# Tokens

The parts that a YAML text is made of. Where blocks begin and end, and where a mapping has its keys,
is seen from columns; in the list of tokens all of it is explicit.
-/

namespace RouteBinding.Yaml

/-- An instruction in front of a document. -/
inductive Directive
  | version (major : Nat)
  | tag (handle start : String)
  | other
deriving DecidableEq, Inhabited

/-- A part of a text. A tag without a handle is written out in full. -/
inductive Token
  | directive (d : Directive)
  | documentStart
  | documentEnd
  | blockSequenceStart
  | blockMappingStart
  | blockEnd
  | flowSequenceStart
  | flowSequenceEnd
  | flowMappingStart
  | flowMappingEnd
  | blockItem
  | flowItem
  | key
  | value
  | alias (name : String)
  | anchor (name : String)
  | tag (handle : Option String) (suffix : String)
  | scalar (text : String) (isPlain : Bool)
  | streamEnd
deriving DecidableEq, Inhabited

/-- The tokens of a text as far as they can be told, and what is wrong behind them, if anything is. A text
is read no further than its tokens are asked for; so what is wrong in it counts only where none of the
tokens in front is refused. -/
structure TokenStream where
  tokens : List Token
  fault : Option ReadError
deriving DecidableEq, Inhabited

end RouteBinding.Yaml
