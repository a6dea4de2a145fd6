import Shapefile.FileTree.Change
import Shapefile.Reading.Basic
import Shapefile.Session.Basic

/-! The workspace of a session: the files it can open and those it has open, the streams of the
user, the iterators that were made and the log. The files may change while they are read. -/

namespace Shapefile

/-- An iterator over the shapes of a shapefile. While it is `fresh` nothing has been opened. -/
inductive Session.Iterator where
  | fresh (path : String)
  | suspended (shp : Handle) (reading : Reading)
  | finished
deriving DecidableEq, Repr

/-- A session and all around it. The memo is for the consumers' own use. -/
structure Workspace (σ χ : Type) where
  tree : FileTree
  /-- The files opened so far, or nothing in the place of one that was closed. -/
  files : List (Option OpenFile)
  /-- The streams of the user. -/
  streams : List σ
  session : Session
  /-- All iterators made so far, each known by its place in the list. -/
  iterators : List Session.Iterator
  /-- The lines of the log, the latest first. -/
  log : List Entry
  memo : χ

namespace Workspace

variable {σ χ : Type}

def init (tree : FileTree) (streams : List σ) (memo : χ) : Workspace σ χ :=
  ⟨tree, [], streams, .init, [], [], memo⟩

/-- Computations in a workspace. -/
abbrev Action (σ χ : Type) := EStateM Fault (Workspace σ χ)

/-- Code that is handed each shape, and answers whether it wants more. It may use the workspace. -/
abbrev Consumer (σ χ : Type) := Shape → Action σ χ Bool

def updateSession (f : Session → Session) (w : Workspace σ χ) : Workspace σ χ :=
  { w with session := f w.session }

def note (entry : Entry) (w : Workspace σ χ) : Workspace σ χ := { w with log := entry :: w.log }

def withMemo {ψ : Type} (memo : ψ) (w : Workspace σ χ) : Workspace σ ψ := { w with memo }

/-- Closes the files that the session opened, and forgets what it read from. Streams of the user
stay as they are. -/
def release (w : Workspace σ χ) : Workspace σ χ :=
  { w with
    files := w.session.owned.foldl (fun files place => files.set place none) w.files
    session := { w.session with shp := none, shx := none, owned := [] } }

def close : Action σ χ Unit := fun w => .ok () w.release

/-- Closes the session's files after a computation, whatever comes of it. -/
def within {α : Type} (body : Action σ χ α) : Action σ χ α := fun w =>
  match body w with
  | .ok a w => .ok a w.release
  | .error f w => .error f w.release

/-- A computation that begins a parse: it starts with the outcome of the parse before forgotten. A
fault that it ends with is kept, and the session's files are closed whatever comes of it. -/
def parsing {α : Type} (body : Action σ χ α) : Action σ χ α :=
  within fun w =>
    match body (w.updateSession .forget) with
    | .ok a w => .ok a w
    | .error f w => .error f (w.updateSession (.record f))

section Source
variable [Source σ]

/-- Reads from an open file or a stream of the user. -/
def feed : Handle → Feed (Workspace σ χ)
  | .file place => fun n w =>
    match w.files[place]? with
    | some (some file) =>
      let (data, file) := file.read n
      .ok data { w with files := w.files.set place (some file) }
    | _ => .error .closedFile w
  | .stream place => fun n w =>
    match w.streams[place]? with
    | some stream =>
      match Source.read n stream with
      | .ok data stream => .ok data { w with streams := w.streams.set place stream }
      | .error f stream => .error f { w with streams := w.streams.set place stream }
    | none => .error .closedFile w

def link (handle : Handle) : Link (Workspace σ χ) := ⟨feed handle, note⟩

end Source

/-- Takes a file into the session that was opened by a path. -/
def addFile (path : String) (file : OpenFile) (w : Workspace σ χ) : Handle × Workspace σ χ :=
  let place := w.files.length
  (.file place,
    { w with
      files := w.files ++ [some file]
      session.owned := w.session.owned ++ [place]
      log := .opened path :: w.log })

/-- Opens a file of the shapefile, by its extension in lower case or else in upper case. If there
is neither, the fault tells about the first. -/
def openConstituent (file : Constituent) : Action σ χ Handle := fun w =>
  let name := w.session.basePath
  let path := name ++ "." ++ file.extension
  let upperPath := name ++ "." ++ file.upperExtension
  if path.contains '\x00' then .error .nulInPath w
  else
    match w.tree.open? path with
    | .ok file =>
      let (handle, w) := w.addFile path file
      .ok handle w
    | .error cause =>
      match w.tree.open? upperPath with
      | .ok file =>
        let (handle, w) := w.addFile upperPath file
        .ok handle w
      | .error _ => .error (.openFailed path cause) w

/-- Changes the tree. The files that are open follow the change. -/
def changeTree (change : FileTree.Change) : Action σ χ Unit := fun w =>
  let follow (tree : FileTree) : Workspace σ χ :=
    { w with tree, files := w.files.map (·.map tree.refresh) }
  match change w.tree with
  | .ok _ tree => .ok () (follow tree)
  | .error f tree => .error f (follow tree)

end Workspace
end Shapefile
