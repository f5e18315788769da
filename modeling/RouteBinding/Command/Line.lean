import RouteBinding.Text.Split

/-!
# Command lines

A command line is a list of items. An item that begins with a dash and is longer than it is an option;
every other one is a word, and so is everything behind `--`. A long option carries its value behind an
equals sign or in the next item. A group of short options is written behind one dash; the first of them
that takes a value takes the rest of the item, or the next one. Each item is taken as a value whatever it
looks like.
-/

namespace RouteBinding.Command

/-- An option of a command: its key, its spellings and whether it takes a value. -/
structure OptionForm where
  key : String
  spellings : List String
  takesValue : Bool
deriving DecidableEq, Inhabited

/-- An option that takes a value. -/
def OptionForm.value (key : String) (spellings : List String) : OptionForm :=
  ⟨key, spellings, true⟩

/-- An option that takes none. -/
def OptionForm.flag (key : String) (spellings : List String) : OptionForm :=
  ⟨key, spellings, false⟩

/-- What a command line holds: the options by their keys, each with its value if it takes one, and the
words, both in order. -/
structure Arguments where
  options : List (String × Option String)
  words : List String
deriving DecidableEq, Inhabited

namespace Arguments

/-- A command line without items. -/
def empty : Arguments := ⟨[], []⟩

/-- Puts options in front. -/
def addOptions (options : List (String × Option String)) (a : Arguments) : Arguments :=
  { a with options := options ++ a.options }

/-- Puts a word in front. -/
def addWord (word : String) (a : Arguments) : Arguments :=
  { a with words := word :: a.words }

/-- The first of some keys that an option is given by. -/
def firstOf? (a : Arguments) (keys : List String) : Option String :=
  (a.options.map (·.1)).find? keys.contains

/-- The last of some keys that an option is given by. -/
def lastOf? (a : Arguments) (keys : List String) : Option String :=
  (a.options.map (·.1)).reverse.find? keys.contains

/-- Whether an option is given. -/
def has (a : Arguments) (key : String) : Bool :=
  (a.lastOf? [key]).isSome

/-- The value of an option; where it is given several times, the last one. -/
def value? (a : Arguments) (key : String) : Option String :=
  (a.options.reverse.lookup key).join

end Arguments

/-- What one item says: options, and the key of an option whose value is the next item. -/
structure Item where
  options : List (String × Option String)
  pending : Option String
deriving DecidableEq, Inhabited

/-- The option with a spelling. -/
def formOf? (forms : List OptionForm) (spelling : String) : Option OptionForm :=
  forms.find? fun f => f.spellings.contains spelling

/-- Reads the letters of a group of short options. -/
def readLetters (forms : List OptionForm) : List Char → Option Item
  | [] => some ⟨[], none⟩
  | c :: rest => do
    let form ← formOf? forms (String.ofList ['-', c])
    if form.takesValue then
      if rest.isEmpty then some ⟨[], some form.key⟩
      else some ⟨[(form.key, some (String.ofList rest))], none⟩
    else
      let others ← readLetters forms rest
      some { others with options := (form.key, none) :: others.options }

/-- Reads a long option. -/
def readLong (forms : List OptionForm) (item : List Char) : Option Item := do
  let form ← formOf? forms (String.ofList (item.takeWhile (· ≠ '=')))
  match item.dropWhile (· ≠ '=') with
  | [] => some (if form.takesValue then ⟨[], some form.key⟩ else ⟨[(form.key, none)], none⟩)
  | _ :: value =>
    if form.takesValue then some ⟨[(form.key, some (String.ofList value))], none⟩ else none

/-- Reads an item that is an option. -/
def readOption (forms : List OptionForm) (item : String) : Option Item :=
  match item.toList with
  | '-' :: '-' :: _ => readLong forms item.toList
  | '-' :: letters => readLetters forms letters
  | _ => none

/-- Whether an item is an option. -/
def isOption (item : String) : Bool :=
  Text.startsWith item "-" && item ≠ "-"

/-- Reads a command line; `none` if it is refused. If it is not `mixed`, everything behind the first word
is a word. -/
def Arguments.read (forms : List OptionForm) (mixed : Bool) : List String → Option Arguments
  | [] => some .empty
  | item :: rest =>
    if item = "--" then some ⟨[], rest⟩
    else if isOption item then
      match readOption forms item with
      | none => none
      | some ⟨options, none⟩ => (read forms mixed rest).map (·.addOptions options)
      | some ⟨options, some key⟩ =>
        match rest with
        | [] => none
        | value :: rest =>
          (read forms mixed rest).map (·.addOptions (options ++ [(key, some value)]))
    else if mixed then (read forms mixed rest).map (·.addWord item)
    else some ⟨[], item :: rest⟩

end RouteBinding.Command
