import Shapefile.FileTree

/-! Changes of a tree of files. A file is written below the directories of its path, which are made
one after the other where they are missing; those that were made remain if a later one cannot be
made. Only files can be removed. -/

namespace Shapefile.FileTree

/-- Changes of a tree, which may fail when part of them is done. -/
abbrev Change := EStateM Fault FileTree Unit

/-- The names of a path, each with the part of the path that ends with it. -/
def stages (before : String) : List String → List (String × String)
  | [] => []
  | name :: names =>
    let path := before ++ name
    if name = "" then stages (path ++ "/") names
    else (name, path) :: stages (path ++ "/") names

/-- The names that lead to the directory of a file. -/
def stagesBefore (path : String) : List (String × String) :=
  stages "" (names path).dropLast

/-- The names that lead to a directory. The slashes at the end belong to the last of them. -/
def stagesTo (path : String) : List (String × String) :=
  let all := stages "" (names path)
  match all.getLast? with
  | none => []
  | some (name, _) => all.dropLast ++ [(name, path)]

/-- The place that a name stands for at a place, which has to be a directory. -/
def enter (t : FileTree) (here : Place) (name path : String) : Except Fault Place :=
  if path.contains '\x00' then .error .nulInPath
  else Except.mapError (.changeFailed path) do
    checkPath path
    match t.node? here with
    | some (.file _) => throw .notDirectory
    | _ => child here name

/-- Sets the node that the names lead to. -/
def insert (t : FileTree) (names : List String) (node : Node) : FileTree :=
  { t with nodes := (names, node) :: t.nodes.filter (·.1 != names) }

/-- Makes the directories that are missing on a way, and gives the place where it ends. -/
def makeDirectories : Place → List (String × String) → EStateM Fault FileTree Place
  | here, [] => pure here
  | here, (name, path) :: rest => fun t =>
    match t.enter here name path with
    | .error fault => .error fault t
    | .ok next =>
      match t.node? next with
      | none => makeDirectories next rest (t.insert next .directory)
      | some (.file _) =>
        if rest.isEmpty then .error (.changeFailed path .fileExists) t
        else makeDirectories next rest t
      | some .directory => makeDirectories next rest t

/-- Writes a file, over the one that is there if there is one. -/
def writeFile (path : String) (contents : Bytes) : Change := do
  let here ← makeDirectories ((← get).origin path) (stagesBefore path)
  fun t =>
    match t.enter here ((names path).getLastD "") path with
    | .error fault => .error fault t
    | .ok place =>
      match t.node? place with
      | some .directory => .error (.changeFailed path .isDirectory) t
      | _ => .ok () (t.insert place (.file contents))

/-- Makes the directory that a path leads to. -/
def makeDirectory (path : String) : Change :=
  if path = "" then throw (.changeFailed path .missing)
  else do discard (makeDirectories ((← get).origin path) (stagesTo path))

/-- Writes a file or makes a directory. -/
def write (path : String) : Node → Change
  | .file contents => writeFile path contents
  | .directory => makeDirectory path

/-- Removes a file. -/
def remove (path : String) : Change := fun t =>
  if path.contains '\x00' then .error .nulInPath t
  else
    match t.locate path with
    | .error cause => .error (.changeFailed path cause) t
    | .ok place =>
      match t.node? place with
      | some (.file _) => .ok () { t with nodes := t.nodes.filter (·.1 != place) }
      | _ => .error (.changeFailed path .isDirectory) t

/-- An open file as it is after a change of the tree that it is from. -/
def refresh (t : FileTree) (f : OpenFile) : OpenFile :=
  match f.names.bind t.node? with
  | some (.file contents) => f.overwritten contents
  | _ => f.removed

end Shapefile.FileTree
