/-!
# Trees of files

What the commands know of the files of their host. A file or a directory is named by the names from
the root to it; a directory stands wherever something stands below it. A way through the tree is followed
name by name, and two dots lead one level up; every name but the last must lead to a directory.
-/

namespace RouteBinding

/-- The names from the root to a file or a directory. -/
abbrev Place := List String

/-- What stands at a place. -/
inductive FileEntry
  | file (content : ByteArray)
  | directory
deriving Inhabited

/-- Whether a directory stands here. -/
def FileEntry.isDirectory : FileEntry → Bool
  | file _ => false
  | directory => true

/-- What stands where. -/
structure FileTree where
  entries : List (Place × FileEntry)
deriving Inhabited

/-- Why a way leads nowhere. -/
inductive Obstacle
  | noDirectory
  | fileInTheWay
  | nameTooLong
deriving DecidableEq, Inhabited

/-- The most bytes that a name may have. -/
def mostBytesInName : Nat := 255

namespace FileTree

/-- The tree of nothing but the root. -/
def empty : FileTree := ⟨[]⟩

/-- The content of the file at a place. -/
def read? (t : FileTree) (place : Place) : Option ByteArray :=
  match t.entries.lookup place with
  | some (.file content) => some content
  | _ => none

/-- Whether a file stands at a place. -/
def isFile (t : FileTree) (place : Place) : Bool :=
  (t.read? place).isSome

/-- Whether a directory stands at a place. -/
def isDirectory (t : FileTree) (place : Place) : Bool :=
  place.isEmpty || t.entries.any fun e =>
    if e.1 = place then e.2.isDirectory else place.isPrefixOf e.1

/-- Puts something at a place. -/
def put (t : FileTree) (place : Place) (entry : FileEntry) : FileTree :=
  ⟨(place, entry) :: t.entries.filter (·.1 ≠ place)⟩

/-- The place behind one more name. -/
def enter (place : Place) (name : String) : Except Obstacle Place :=
  if name = ".." then .ok place.dropLast
  else if mostBytesInName < name.utf8ByteSize then .error .nameTooLong
  else .ok (place ++ [name])

/-- The place that a way of names leads to from another one. Something need not stand there. -/
def follow (t : FileTree) (place : Place) : List String → Except Obstacle Place
  | [] => .ok place
  | name :: rest =>
    if t.isFile place then .error .fileInTheWay
    else if !t.isDirectory place then .error .noDirectory
    else
      match enter place name with
      | .ok next => t.follow next rest
      | .error e => .error e

/-- Makes every directory on a way of names that is not there yet, and gives the place of the last. -/
def makeWay (t : FileTree) (place : Place) : List String → Except Obstacle (FileTree × Place)
  | [] =>
    if t.isFile place then .error .fileInTheWay
    else if t.isDirectory place then .ok (t, place)
    else .ok (t.put place .directory, place)
  | name :: rest =>
    if t.isFile place then .error .fileInTheWay
    else
      match enter place name with
      | .ok next =>
        (if t.isDirectory place then t else t.put place .directory).makeWay next rest
      | .error e => .error e

/-- Writes a file, unless a directory stands in its place. -/
def write? (t : FileTree) (place : Place) (content : ByteArray) : Option FileTree :=
  if t.isDirectory place then none else some (t.put place (.file content))

end FileTree

end RouteBinding
