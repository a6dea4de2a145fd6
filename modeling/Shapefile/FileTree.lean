import Shapefile.Fault
import Shapefile.OpenFile

/-! Trees of files, and the opening of files by path.

A path is followed name by name, from the root if it begins with a slash and from the working
directory if not. Empty names and `.` stay where they are, and `..` goes up, but not from the
root. -/

namespace Shapefile

inductive Node where
  | file (contents : Bytes)
  | directory
deriving DecidableEq, Repr

/-- The files and directories below the root, each with the names that lead to it, and the working
directory. -/
structure FileTree where
  nodes : List (List String × Node)
  /-- The names that lead to the working directory. -/
  home : List String
deriving DecidableEq, Repr

namespace FileTree

def empty : FileTree := ⟨[], []⟩

/-- The most bytes that a name has. -/
def nameLimit : Nat := 255

/-- A path has fewer bytes than this. -/
def pathLimit : Nat := 4096

/-- The names that lead from the root to a node, `..` not among them. -/
abbrev Place := List String

/-- The place that a name stands for in a directory. -/
def child (here : Place) (name : String) : Except PathFault Place :=
  if name = "" ∨ name = "." then .ok here
  else if name = ".." then .ok here.dropLast
  else if nameLimit < name.utf8ByteSize then .error .nameTooLong
  else .ok (here ++ [name])

/-- Refuses a path that is empty or too long. -/
def checkPath (path : String) : Except PathFault Unit :=
  if path = "" then .error .missing
  else if pathLimit ≤ path.utf8ByteSize then .error .nameTooLong
  else .ok ()

/-- The names between the slashes of a path. -/
def names (path : String) : List String := path.splitToList (· == '/')

/-- Where a path begins. -/
def origin (t : FileTree) (path : String) : Place := if path.startsWith "/" then [] else t.home

/-- The node at a place. The working directory and what is above it are directories. -/
def node? (t : FileTree) (place : Place) : Option Node :=
  if place.isPrefixOf t.home then some .directory else t.nodes.lookup place

/-- Follows names from a directory to a node. Only the last of them may lead to a file. -/
def follow (t : FileTree) : Place → List String → Except PathFault Place
  | here, [] => .ok here
  | here, name :: names => do
    let next ← child here name
    match t.node? next with
    | none => .error .missing
    | some .directory => t.follow next names
    | some (.file _) => if names = [] then .ok next else .error .notDirectory

/-- The place of the node that a path leads to. -/
def locate (t : FileTree) (path : String) : Except PathFault Place := do
  checkPath path
  t.follow (t.origin path) (names path)

/-- Opens the file at a path. -/
def open? (t : FileTree) (path : String) : Except PathFault OpenFile := do
  let place ← t.locate path
  match t.node? place with
  | some (.file contents) => .ok (.init place contents)
  | _ => .error .isDirectory

end FileTree
end Shapefile
