import Shapefile.Text.Quoted

/-! What can go wrong: the causes of failure, the kind that each belongs to, and its message.

Kinds form a tree. A failure of the kind `shapefile`, or of a kind below it, is a problem of the
files that are read and ends a reading as failed. -/

namespace Shapefile

/-- How far a reading of records has come. -/
inductive Phase where
  | ready | reading | done | failed
deriving DecidableEq, Repr

def Phase.name : Phase → String
  | ready => "ready"
  | reading => "reading"
  | done => "done"
  | failed => "failed"

inductive FaultKind where
  | shapefile | read | format | wrongMagic | invalidFileType | lengthBelowHeader | recordOverrun
  | decode | invalidRecordType | undecodableRecordType
  | geoJson
  | system | missingFile | isDirectory | notDirectory | fileExists
  | value | memory | endOfInput | runtime | key
deriving DecidableEq, Repr

namespace FaultKind

/-- The kind that a kind is a case of. -/
def parent? : FaultKind → Option FaultKind
  | read | format | decode => some shapefile
  | wrongMagic | invalidFileType | lengthBelowHeader | recordOverrun => some format
  | invalidRecordType | undecodableRecordType => some decode
  | missingFile | isDirectory | notDirectory | fileExists => some system
  | _ => none

/-- A kind and the kinds that it is a case of, from the narrowest to the widest. -/
def ancestors (k : FaultKind) : List FaultKind :=
  match k.parent? with
  | none => [k]
  | some p =>
    match p.parent? with
    | none => [k, p]
    | some g => [k, p, g]

/-- Whoever deals with faults of the kind `wide` deals with those of the kind `k` too. -/
def isA (k wide : FaultKind) : Bool := k.ancestors.contains wide

end FaultKind

/-- Why a path is refused. -/
inductive PathFault where
  | missing | isDirectory | notDirectory | nameTooLong
  /-- There is a file where a directory is to be made. -/
  | fileExists
deriving DecidableEq, Repr

namespace PathFault

def kind : PathFault → FaultKind
  | missing => .missingFile
  | isDirectory => .isDirectory
  | notDirectory => .notDirectory
  | nameTooLong => .system
  | fileExists => .fileExists

/-- The number that the system has for it. -/
def number : PathFault → Nat
  | missing => 2
  | fileExists => 17
  | notDirectory => 20
  | isDirectory => 21
  | nameTooLong => 36

def message : PathFault → String
  | missing => "No such file or directory"
  | isDirectory => "Is a directory"
  | notDirectory => "Not a directory"
  | nameTooLong => "File name too long"
  | fileExists => "File exists"

end PathFault

/-- The two files of a shapefile that are read: the records, and the index to them. -/
inductive Constituent where
  | shp | shx
deriving DecidableEq, Repr

namespace Constituent

def extension : Constituent → String
  | shp => "shp"
  | shx => "shx"

def upperExtension : Constituent → String
  | shp => "SHP"
  | shx => "SHX"

end Constituent

/-- A failure, by its cause. -/
inductive Fault where
  /-- The records were asked for again. -/
  | alreadyRead (phase : Phase)
  /-- There is no file or stream to read from. -/
  | noConstituent (file : Constituent)
  | openFailed (path : String) (cause : PathFault)
  /-- The source of bytes failed. -/
  | readFailed (count : Int) (cause : Fault)
  /-- The source of bytes answered with another number of bytes than it was asked for. -/
  | wrongCount (count : Int) (got : Nat)
  | wrongMagic (fileCode : Int)
  | invalidFileType (typeCode : Int)
  | lengthBelowHeader (length : Int) (least : Int)
  /-- A record declares a length that is negative or longer than what is left. -/
  | recordOverrun (number : Int) (declared : Int) (left : Int)
  | invalidRecordType (typeCode : Int) (recordNumber : Option Int)
  | undecodableRecordType (typeCode : Int) (name : String) (recordNumber : Option Int)
  /-- A record could not be decoded, for a reason told in `text`. -/
  | decode (text : String) (typeCode : Int) (recordNumber : Option Int)
  | noGeoJson (typeName : String)
  | noWellKnownText (typeName : String)
  /-- A name was asked for that no shape type has. -/
  | noSuchType (typeCode : Int)
  /-- A file was read after it had been closed. -/
  | closedFile
  /-- A path has a NUL character. -/
  | nulInPath
  /-- The tree of files could not be changed at a path. -/
  | changeFailed (path : String) (cause : PathFault)
  /-- A failure of a source of bytes or of a consumer of shapes, known by kind and text only. -/
  | outside (kind : FaultKind) (text : String)
deriving DecidableEq, Repr

namespace Fault

def kind : Fault → FaultKind
  | alreadyRead _ | noConstituent _ => .shapefile
  | openFailed .. | readFailed .. | wrongCount .. => .read
  | wrongMagic _ => .wrongMagic
  | invalidFileType _ => .invalidFileType
  | lengthBelowHeader .. => .lengthBelowHeader
  | recordOverrun .. => .recordOverrun
  | invalidRecordType .. => .invalidRecordType
  | undecodableRecordType .. => .undecodableRecordType
  | decode .. => .decode
  | noGeoJson _ | noWellKnownText _ => .geoJson
  | noSuchType _ => .key
  | closedFile | nulInPath => .value
  | changeFailed _ cause => cause.kind
  | outside kind _ => kind

/-- The fault is a problem of the files that are read. -/
def isShapefile (f : Fault) : Bool := f.kind.isA .shapefile

/-- The memory ran out. -/
def isMemory (f : Fault) : Bool := f.kind.isA .memory

/-- The system that the bytes come from failed. -/
def isSystem (f : Fault) : Bool := f.kind.isA .system

/-- The eight lowest hexadecimal digits of a number. -/
def hexWord (n : Int) : String := String.ofList (Text.hexDigits 8 (n % 0x100000000).toNat)

/-- A record number in a message. -/
def numberText : Option Int → String
  | none => "None"
  | some n => toString n

def message : Fault → String
  | alreadyRead phase =>
    s!"Records can only be read once. Record stream is {phase.name}."
  | noConstituent file => s!"Session requires a .{file.extension} file (none was opened)"
  | openFailed path cause => s!"Error opening {path}: {cause.message}"
  | readFailed count cause => s!"Error reading {count} bytes: {cause.message}"
  | wrongCount count got => s!"Error reading {count} bytes: Only read {got}"
  | wrongMagic fileCode => s!"Header magic number {hexWord fileCode} is invalid"
  | invalidFileType typeCode => s!"Header Type {typeCode} is invalid"
  | lengthBelowHeader length least =>
    s!"Size in header {length} cannot be less than header size {least}"
  | recordOverrun number declared left =>
    s!"Record {number} content length {declared} does not fit in the {left} bytes left in the file"
  | invalidRecordType typeCode recordNumber =>
    s!"Shape type {typeCode} in record {numberText recordNumber} is not valid"
  | undecodableRecordType typeCode name recordNumber =>
    s!"Shape type {typeCode} ({name}) in record {numberText recordNumber} is not supported"
  | decode text _ _ => text
  | noGeoJson typeName => s!"Shape type \"{typeName}\" cannot be represented as GeoJSON."
  | noWellKnownText typeName => s!"Shape type \"{typeName}\" cannot be represented as WKT."
  | noSuchType typeCode => toString typeCode
  | closedFile => "read of closed file"
  | nulInPath => "embedded null byte"
  | changeFailed path cause => s!"[Errno {cause.number}] {cause.message}: {Text.quoted path}"
  | outside _ text => text

/-- The kind of the failure that led to this one. -/
def causeKind? : Fault → Option FaultKind
  | openFailed _ cause => some cause.kind
  | readFailed _ cause => some cause.kind
  | _ => none

/-- The record number that a decoding failure carries; the outer option tells whether it does. -/
def recordNumber? : Fault → Option (Option Int)
  | invalidRecordType _ n | undecodableRecordType _ _ n | decode _ _ n => some n
  | _ => none

/-- The shape type code that a failure carries. -/
def typeCode? : Fault → Option Int
  | invalidFileType t | invalidRecordType t _ | undecodableRecordType t _ _ | decode _ t _ => some t
  | _ => none

end Fault
end Shapefile
