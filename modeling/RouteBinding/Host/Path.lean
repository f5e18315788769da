import RouteBinding.Text.Split

/-!
# Paths of files

A path is a text of names with slashes between them, absolute if it starts with a slash. Its tidy
form has no empty names and no single dots.
-/

namespace RouteBinding.Path

open Text (split join startsWith)

/-- Whether a path starts at the root. -/
def isAbsolute (path : String) : Bool :=
  startsWith path "/"

/-- The names of a path, without empty names and single dots. -/
def names (path : String) : List String :=
  (split '/' path).filter fun name => name ≠ "" && name ≠ "."

/-- The slashes that stand for the root at the beginning of a path: two that are not followed by a third
one are kept, any other number counts as one. -/
def root (path : String) : String :=
  if !isAbsolute path then ""
  else if startsWith path "//" && !startsWith path "///" then "//"
  else "/"

/-- A path written from its root and its names. -/
def ofNames (root : String) (names : List String) : String :=
  if root = "" && names.isEmpty then "." else root ++ join "/" names

/-- The tidy form of a path. -/
def tidy (path : String) : String :=
  ofNames (root path) (names path)

/-- One path seen from another: an absolute path stands alone. -/
def append (base path : String) : String :=
  if isAbsolute path then tidy path else ofNames (root base) (names base ++ names path)

/-- The last name of a path. -/
def fileName (path : String) : String :=
  (names path).getLast?.getD ""

/-- The part of a path's last name from its last dot on; empty if that dot is its first or its last
character. -/
def suffix (path : String) : String :=
  let name := (fileName path).toList
  match Text.afterLast? '.' name with
  | some tail =>
    if tail.isEmpty || tail.length + 1 = name.length then "" else String.ofList ('.' :: tail)
  | none => ""

/-- The way of names that leads from the root to a path, seen from a directory. -/
def way (directory path : String) : List String :=
  if isAbsolute path then names path else names directory ++ names path

/-- The names of the places that a way of names touches, from a place on. -/
def stations (place : List String) : List String → List (List String)
  | [] => [place]
  | name :: rest =>
    place :: stations (if name = ".." then place.dropLast else place ++ [name]) rest

/-- The most bytes that a path may have. -/
def mostBytes : Nat := 4095

/-- Whether a path can be written down at all: no path holds the character zero. -/
def isWritable (path : String) : Bool :=
  !path.toList.contains (Char.ofNat 0)

end RouteBinding.Path
