import RouteBinding.Text.Blank
import RouteBinding.Text.LetterCase
import RouteBinding.Text.Split

/-!
# Media types

A content type names a media type, perhaps with parameters after a semicolon. Two content types
that differ only in case, blanks and parameters are the same media type. The media type decides
how a request body is decoded; of the parameters, the charset says how a text is written as bytes.
-/

namespace RouteBinding

/-- How a request body is decoded. -/
inductive Codec
  | json
  | form
  | multipart
  | text
  | bytes
deriving DecidableEq, Inhabited

namespace Codec

/-- The name of a codec. -/
def name : Codec → String
  | json => "json"
  | form => "form"
  | multipart => "multipart"
  | text => "text"
  | bytes => "bytes"

/-- Whether a body of this codec must have a schema. -/
def needsSchema (c : Codec) : Bool :=
  c = json || c = form

end Codec

namespace MediaType

/-- The media type of a content type: what stands before the first semicolon, trimmed and in lower
case. -/
def normalize (contentType : String) : String :=
  Text.lower (Text.trim (String.ofList (contentType.toList.takeWhile (· ≠ ';'))))

/-- The media type that stands for every media type. -/
def any : String := "*/*"

/-- The pattern for all media types with the same first part. -/
def family (mediaType : String) : String :=
  String.ofList (mediaType.toList.takeWhile (· ≠ '/')) ++ "/*"

/-- The codec of a content type. -/
def codec (contentType : String) : Codec :=
  let media := normalize contentType
  if media = "application/json" || Text.endsWith media "+json" then .json
  else if media = "application/x-www-form-urlencoded" then .form
  else if media = "multipart/form-data" then .multipart
  else if Text.startsWith media "text/" then .text
  else .bytes

/-- A content type with blanks for the semicolons that stand inside quotes. -/
def hideQuoted : (inQuotes : Bool) → List Char → List Char
  | _, [] => []
  | inQuotes, '\\' :: '"' :: rest => '\\' :: '"' :: hideQuoted inQuotes rest
  | inQuotes, c :: rest =>
    (if c = ';' && inQuotes then ' ' else c) :: hideQuoted (if c = '"' then !inQuotes else inQuotes) rest

/-- The charset that a content type names. -/
def charset? (contentType : String) : Option String := do
  let found ← (Text.splitChars ';' (hideQuoted false contentType.toList)).find? fun part =>
    Text.lower (Text.trim (String.ofList (part.takeWhile (· ≠ '=')))) = "charset"
  let value := (found.dropWhile (· ≠ '=')).drop 1
  if value.all (·.toNat < 0x80) then some (String.ofList value) else none

end MediaType

end RouteBinding
