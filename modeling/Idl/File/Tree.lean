/-
This file models a file system as far as compiling files goes: folders and files below one
top, a working folder among them, and paths that lead to them. A path is followed name by
name, from the top if a slash comes first and from the working folder otherwise, and every
name but the last has to lead to a folder. Writing changes or adds one file and leaves
everything else alone. Where a path leads may also be left to a file system of its own.
-/

import Idl.File.Access
import Idl.Text.Pieces

namespace Idl

/-- The way from the top to a file or a folder, name by name. -/
abbrev Location := List String

/-- The folders and the files below one top, and the folder that is worked in. -/
structure FileTree where
  working : Location
  folders : List Location
  files : List (Location × ByteArray)

namespace FileTree

/-- There is nothing but a working folder. -/
def empty : FileTree := ⟨["work"], [], []⟩

/-- There is a folder at a location. The working folder is one, and so are those on the way to
it. -/
def isFolder (tree : FileTree) (location : Location) : Bool :=
  location.isPrefixOf tree.working || tree.folders.contains location

/-- The bytes of the file at a location. -/
def content? (tree : FileTree) (location : Location) : Option ByteArray :=
  tree.files.lookup location

/-! ### Following paths -/

/-- The names of a path, without the empty ones that repeated slashes make. -/
def pathNames (path : String) : List String :=
  ((Text.pieces '/' path.toList).filter fun piece => !piece.isEmpty).map String.ofList

/-- The folder that the names of a path are followed from. -/
def start (tree : FileTree) (path : String) : Location :=
  if path.toList.head? == some '/' then [] else tree.working

/-- The longest name in bytes. -/
def nameLimit : Nat := 255

/-- The longest path in bytes. -/
def pathLimit : Nat := 4095

/-- The folder that is reached from another by following names that all lead to folders. Two dots
lead one step up, and from the top nowhere else. -/
def enter (tree : FileTree) (folder : Location) : List String → Except FileFault Location
  | [] => .ok folder
  | name :: rest =>
    if name == "." then tree.enter folder rest
    else if name == ".." then tree.enter folder.dropLast rest
    else if nameLimit < name.utf8ByteSize then .error .nameTooLong
    else if tree.isFolder (folder ++ [name]) then tree.enter (folder ++ [name]) rest
    else if (tree.content? (folder ++ [name])).isSome then .error .notDirectory
    else .error .notFound

/-- Where a path leads. -/
inductive Target where
  | folder (location : Location)
  | file (location : Location) (bytes : ByteArray)
  /-- There is nothing there, but there could be a file. -/
  | vacant (location : Location)

/-- Where the last name of a path leads from the folder that the other names lead to. A slash
behind it asks for a folder, which a file that is to be written never is. -/
def resolve (tree : FileTree) (writing slash : Bool) (folder : Location) (name : String) :
    Except FileFault Target :=
  if name == "." || name == ".." then (tree.enter folder [name]).map Target.folder
  else if writing && slash then .error .isDirectory
  else if nameLimit < name.utf8ByteSize then .error .nameTooLong
  else if tree.isFolder (folder ++ [name]) then .ok (.folder (folder ++ [name]))
  else
    match tree.content? (folder ++ [name]) with
    | some bytes => if slash then .error .notDirectory else .ok (.file (folder ++ [name]) bytes)
    | none => if slash then .error .notFound else .ok (.vacant (folder ++ [name]))

/-- Where a path leads. Slashes alone lead to the top, and the empty path leads nowhere. -/
def locate (tree : FileTree) (writing : Bool) (path : String) : Except FileFault Target :=
  if path.toList.contains '\x00' then .error .nullByte
  else if pathLimit < path.utf8ByteSize then .error .nameTooLong
  else
    match (pathNames path).getLast? with
    | none => if path == "" then .error .notFound else .ok (.folder [])
    | some name =>
      match tree.enter (tree.start path) (pathNames path).dropLast with
      | .error fault => .error fault
      | .ok folder => tree.resolve writing (path.toList.getLast? == some '/') folder name

/-! ### Looking and writing -/

/-- The size at which a folder is seen. -/
def folderSize : Nat := 4096

/-- What is seen at a path. -/
def view (tree : FileTree) (path : String) : Except FileFault FileView :=
  match tree.locate false path with
  | .error fault => .error fault
  | .ok (.folder _) => .ok ⟨folderSize, .error .isDirectory⟩
  | .ok (.file _ bytes) => .ok ⟨bytes.size, .ok bytes⟩
  | .ok (.vacant _) => .error .notFound

/-- The tree with the bytes of one file replaced, or with a new file. -/
def put (tree : FileTree) (location : Location) (bytes : ByteArray) : FileTree :=
  { tree with
    files :=
      if (tree.content? location).isSome then
        tree.files.map fun file => if file.1 == location then (location, bytes) else file
      else tree.files ++ [(location, bytes)] }

/-- Where a text is written that is written to a target: not to a folder. -/
def Target.destination : Target → Except FileFault Location
  | .folder _ => .error .isDirectory
  | .file location _ => .ok location
  | .vacant location => .ok location

/-- Where a text is written at a path, or why it is not written. -/
def destination (tree : FileTree) (path : String) : Except FileFault Location :=
  (tree.locate true path).bind Target.destination

end FileTree

/-! ### File systems -/

/-- A file system that keeps a tree of files. What it shows at a path and where it writes a text
are for it to say: a path may lead through a link, and reading or writing may be refused for want
of permission or of room. -/
structure FileSystem where
  shown : FileTree → String → Except FileFault FileView
  destination : FileTree → String → Except FileFault Location

namespace FileSystem

/-- How a file system is reached. -/
def access (system : FileSystem) : FileAccess (StateM FileTree) where
  view := fun path tree => (system.shown tree path, tree)
  write := fun path text tree =>
    match system.destination tree path with
    | .error fault => (.error fault, tree)
    | .ok location => (.ok (), tree.put location text.toUTF8)

/-- The file system that goes by the names of a path, shows all there is and writes what can be
written. -/
def plain : FileSystem := ⟨FileTree.view, FileTree.destination⟩

end FileSystem

namespace FileTree

/-- The tree as the file system of a program. -/
def access : FileAccess (StateM FileTree) := FileSystem.plain.access

/-! ### Setting a tree up -/

/-- The tree with a folder at a location. -/
def addFolder (tree : FileTree) (location : Location) : FileTree :=
  if tree.isFolder location then tree else { tree with folders := tree.folders ++ [location] }

/-- The folder that is reached from another by following names, and the tree with every folder on
the way, made where there was none. -/
def makeWay (tree : FileTree) (folder : Location) : List String → Location × FileTree
  | [] => (folder, tree)
  | name :: rest =>
    if name == "." then tree.makeWay folder rest
    else if name == ".." then tree.makeWay folder.dropLast rest
    else (tree.addFolder (folder ++ [name])).makeWay (folder ++ [name]) rest

/-- The tree with the folder that a path leads to, and every folder on the way. -/
def placeFolder (tree : FileTree) (path : String) : FileTree :=
  (tree.makeWay (tree.start path) (pathNames path)).2

/-- The tree with a file where a path leads, and every folder on the way. -/
def placeFile (tree : FileTree) (path : String) (bytes : ByteArray) : FileTree :=
  match (pathNames path).getLast? with
  | none => tree
  | some name =>
    let way := tree.makeWay (tree.start path) (pathNames path).dropLast
    way.2.put (way.1 ++ [name]) bytes

/-! ### What has changed -/

/-- The files below the working folder that are new, or hold other bytes than before, each with the
way that leads to it from there. -/
def changes (before after : FileTree) : List (Location × ByteArray) :=
  (after.files.filter fun file => before.content? file.1 != some file.2).filterMap fun file =>
    (before.working.isPrefixOf? file.1).map fun inside => (inside, file.2)

end FileTree

end Idl
