import RouteBinding.Text.Charset.Table
import RouteBinding.Text.Charset.Units
import RouteBinding.Text.LetterCase
import RouteBinding.Text.Split

/-!
# Charsets

The ways in which a text is written as bytes, by name. In a name only letters and digits count, in any
case, and where others stand between them. Where bytes stand for no character, U+FFFD takes their place.
-/

namespace RouteBinding.Text

/-- A way in which a text is written as bytes. In UTF-8 a mark may stand in front of the text; in
UTF-16 and UTF-32 it must, unless the order of the bytes is known. Some codings that have names like
charsets give no text at all. -/
inductive Charset
  | ascii
  | latin
  | table (t : ByteTable)
  | utf7
  | utf8 (skipsMark : Bool)
  | utf16 (order : Option ByteOrder)
  | utf32 (order : Option ByteOrder)
  | textless
deriving DecidableEq, Inhabited

namespace Charset

/-! ## Names -/

/-- The charsets without a table, with their names. -/
def named : List (Charset × List String) :=
  [(.ascii, ["ascii", "646", "ansi_x3_4_1968", "cp367", "csascii", "ibm367", "iso646_us", "iso_ir_6",
      "us", "us_ascii"]),
   (.latin, ["latin_1", "8859", "cp819", "csisolatin1", "ibm819", "iso8859", "iso8859_1",
      "iso_8859_1", "iso_8859_1_1987", "iso_ir_100", "l1", "latin", "latin1"]),
   (.utf7, ["utf_7", "u7", "unicode_1_1_utf_7", "utf7"]),
   (.utf8 false, ["utf_8", "cp65001", "u8", "utf", "utf8", "utf8_ucs2", "utf8_ucs4"]),
   (.utf8 true, ["utf_8_sig"]),
   (.utf16 none, ["utf_16", "u16", "utf16"]),
   (.utf16 (some .little), ["utf_16_le", "unicodelittleunmarked", "utf_16le"]),
   (.utf16 (some .big), ["utf_16_be", "unicodebigunmarked", "utf_16be"]),
   (.utf32 none, ["utf_32", "u32", "utf32"]),
   (.utf32 (some .little), ["utf_32_le", "utf_32le"]),
   (.utf32 (some .big), ["utf_32_be", "utf_32be"]),
   (.textless, ["base64_codec", "base64", "base_64", "bz2_codec", "bz2", "hex_codec", "hex", "idna",
      "quopri_codec", "quopri", "quoted_printable", "quotedprintable", "rot_13", "rot13", "undefined",
      "uu_codec", "uu", "zlib_codec", "zip", "zlib"])]

/-- A name with its letters in lower case and a single underscore for whatever stands between letters and
digits. -/
def tidyName (name : String) : String :=
  join "_" ((runs (fun c => !isAsciiAlnum c) name.toList).map fun part => lower (String.ofList part))

/-- The charset with a name. -/
def ofName? (name : String) : Option Charset :=
  let name := tidyName name
  let all := named ++ byteTables.map fun t => (table t, t.names)
  (all.find? fun c => c.2.contains name).map (·.1)

/-! ## Decoding -/

/-- A text whose bytes stand for one character each. -/
def ofBytes (charOf : Nat → Char) (bytes : List UInt8) : String :=
  String.ofList (bytes.map fun b => if b.toNat < 0x80 then Char.ofNat b.toNat else charOf b.toNat)

/-- A text in units of `width` bytes whose order a mark in front tells. A text without a mark that has a
whole unit cannot be read. -/
def ofMarked? (width : Nat) (chars : ByteOrder → List UInt8 → List Char) (bytes : List UInt8) :
    Option String :=
  if bytes.length < width then some (String.ofList (chars .little bytes))
  else
    let order := [ByteOrder.little, .big].find? fun order => order.unit (bytes.take width) = 0xFEFF
    order.map fun order => String.ofList (chars order (bytes.drop width))

/-- The bytes of the mark in front of a text in UTF-8. -/
def mark : List UInt8 := [0xEF, 0xBB, 0xBF]

/-- The text that bytes stand for; nothing at all stands for the empty text in every charset. -/
def decode? (charset : Charset) (bytes : List UInt8) : Option String :=
  if bytes.isEmpty then some ""
  else
    match charset with
    | ascii => some (ofBytes (fun _ => replacement) bytes)
    | latin => some (ofBytes Char.ofNat bytes)
    | table t => some (ofBytes t.charOf bytes)
    | utf7 => some (String.ofList (utf7Chars .outside bytes))
    | utf8 skipsMark =>
      let bytes := if skipsMark && mark.isPrefixOf bytes then bytes.drop mark.length else bytes
      some (String.ofList (utf8Chars bytes.length bytes))
    | utf16 none => ofMarked? 2 utf16Chars bytes
    | utf16 (some order) => some (String.ofList (utf16Chars order bytes))
    | utf32 none => ofMarked? 4 utf32Chars bytes
    | utf32 (some order) => some (String.ofList (utf32Chars order bytes))
    | textless => none

end Charset

end RouteBinding.Text
