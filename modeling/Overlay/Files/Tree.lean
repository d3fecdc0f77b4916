import Overlay.Files
import Overlay.Text.Pieces

/-!
# Trees of files

Paths are followed through directories name by name. An empty name and `.` stay in place,
`..` goes to the parent, and the root is its own parent. Nothing can be followed from a
file, not even a name that would stay in place.

Every directory and file is known by its names from the root on, so following a path needs no
more than the names passed so far.
-/

namespace Overlay.Files

/-- Directories and files by their names from the root on. The root itself and every directory
on the way to one that is listed exist too. -/
structure Tree where
  directories : List (List String)
  files : List (List String × List UInt8)

/-- What a path leads to. -/
inductive Place where
  | directory (names : List String)
  | file (bytes : List UInt8)
deriving DecidableEq, Repr

namespace Tree

/-- The most bytes that a name may have. -/
def longestName : Nat := 255

/-- The most bytes that a path may have. -/
def longestPath : Nat := 4095

/-- Whether there is a directory. -/
def isDirectory (t : Tree) (names : List String) : Bool :=
  t.directories.any fun d ↦ names.isPrefixOf d

/-- What the names lead to from the root on. -/
def find (t : Tree) (names : List String) : Except FileError Place :=
  match t.files.lookup names with
  | some bytes => .ok (.file bytes)
  | .none => if t.isDirectory names then .ok (.directory names) else .error .notFound

/-- Follows one name. -/
def step (t : Tree) (place : Place) (name : String) : Except FileError Place :=
  match place with
  | .file _ => .error .notDirectory
  | .directory names =>
    if name = "" ∨ name = "." then .ok (.directory names)
    else if name = ".." then .ok (.directory names.dropLast)
    else if longestName < name.utf8ByteSize then .error .nameTooLong
    else t.find (names ++ [name])

/-- Follows names one after another. -/
def walk (t : Tree) : Place → List String → Except FileError Place
  | place, [] => .ok place
  | place, name :: rest =>
    match t.step place name with
    | .error e => .error e
    | .ok place => t.walk place rest

/-- The names on a path. -/
def names (path : String) : List String := (Text.pieces '/' path.toList).map String.ofList

/-- What reading a path gives. A path that does not begin at the root begins at the directory
`base`. -/
def read (t : Tree) (base : List String) (path : String) : Except FileError (List UInt8) :=
  if '\x00' ∈ path.toList then .error .nullCharacter
  else if path = "" then .error .notFound
  else if longestPath < path.utf8ByteSize then .error .nameTooLong
  else
    let start := if path.startsWith "/" then [] else base
    match t.walk (.directory start) (names path) with
    | .error e => .error e
    | .ok (.directory _) => .error .isDirectory
    | .ok (.file bytes) => .ok bytes

/-- The directories that any system has. -/
def standard : List (List String) :=
  [["bin"], ["dev"], ["etc"], ["home", "node"], ["lib"], ["opt"], ["proc"], ["root"], ["run"],
    ["sbin"], ["sys"], ["tmp"], ["usr", "bin"], ["usr", "lib"], ["usr", "local"], ["usr", "share"],
    ["var", "lib"], ["var", "log"], ["var", "tmp"]]

end Tree

/-- The files of one temporary directory, which a path names by `label`, on a system with the
standard directories and the empty device. -/
def mounted (label : String) (files : List (String × List UInt8)) : Files :=
  let root := ["tmp", label]
  let tree : Tree :=
    ⟨root :: Tree.standard,
      (["dev", "null"], []) :: files.map fun (name, bytes) ↦ (root ++ [name], bytes)⟩
  ⟨fun path ↦ tree.read ["home", "node"] (path.replace label ("/tmp/" ++ label))⟩

end Overlay.Files
