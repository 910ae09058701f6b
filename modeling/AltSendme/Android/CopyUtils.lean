import AltSendme.Android.JavaFile
import AltSendme.Numeric.Binary32

/-! Copying what another Android app shares into a cache folder (`CopyUtils.kt`).
What the other app's provider answers is given; a provider that throws while it is
asked for names and sizes ends the copy before its first event and is left out. -/
namespace AltSendme.Android

/-- The message of an exception, if it has one. -/
abbrev Failure := Option String

/-- How a document is read: no stream, a failure before the target is open, or the
sizes of the reads from the stream and the failure that ends them, if one does. -/
inductive Reading where
  | noStream
  | refused (failure : Failure)
  | read (chunks : List Nat) (failure : Option Failure)
  deriving DecidableEq, Repr

/-- A single document: its name and size as `DocumentFile` and as a query of the
provider give them. -/
structure SharedDocument where
  uri : String
  name : Option String
  queriedName : Option String
  lastPathSegment : Option String
  length : Option Int64
  queriedSize : Option Int64
  reading : Reading

/-- A file of a tree. The copy may have been cancelled by the time it is its turn. -/
structure TreeFile where
  uri : String
  length : Int64
  cancelled : Option Failure
  reading : Reading

/-- A document of a tree may have no name, and be neither a file nor a directory. -/
inductive DocumentTree where
  | file (name : Option String) (file : TreeFile)
  | directory (name : Option String) (listFiles : List DocumentTree)
  | other (name : Option String)

structure TreeRoot where
  name : Option String
  isDirectory : Bool
  listFiles : List DocumentTree

inductive SharedUri where
  | document (document : SharedDocument)
  | tree (uri : String) (sourceRoot : Option TreeRoot)

section Names

/-- `Char.isWhitespace` of Kotlin: separators, and controls that act as such. -/
def isWhitespace (c : Char) : Bool :=
  (9 ≤ c.toNat && c.toNat ≤ 13) || (28 ≤ c.toNat && c.toNat ≤ 32) ||
    (0x2000 ≤ c.toNat && c.toNat ≤ 0x200a) ||
    [0xa0, 0x1680, 0x2028, 0x2029, 0x202f, 0x205f, 0x3000].contains c.toNat

def isNotBlank (text : String) : Bool := text.toList.any (!isWhitespace ·)

/-- What follows the last slash, or everything if there is none. -/
def substringAfterLastSlash (text : String) : String :=
  (Files.components text).getLastD ""

def resolveDisplayName (document : SharedDocument) (currentTimeMillis : Nat) : String :=
  match document.name.filter isNotBlank with
  | some name => name
  | none =>
      match document.queriedName.filter isNotBlank with
      | some name => name
      | none =>
          let lastSegment :=
            (document.lastPathSegment.map substringAfterLastSlash).filter isNotBlank
          lastSegment.getD ("shared-file-" ++ toString currentTimeMillis)

def resolveContentLength (document : SharedDocument) : Int64 :=
  match document.length.filter (0 ≤ ·) with
  | some length => length
  | none => document.queriedSize.elim 0 fun size => max size 0

/-- The path of a child. A directory whose own path is empty adds nothing. -/
def childPath (relativePath name : String) : String :=
  if relativePath = "" then name else relativePath ++ "/" ++ name

mutual

/-- The files below a directory, with their paths; documents without a name are skipped. -/
def walkFilesWithPath (relativePath : String) : List DocumentTree → List (TreeFile × String)
  | [] => []
  | child :: rest => walkChild relativePath child ++ walkFilesWithPath relativePath rest

def walkChild (relativePath : String) : DocumentTree → List (TreeFile × String)
  | .file none _ => []
  | .file (some name) file => [(file, childPath relativePath name)]
  | .directory none _ => []
  | .directory (some name) listFiles => walkFilesWithPath (childPath relativePath name) listFiles
  | .other _ => []

end

end Names

section Progress

/-- `cachedPath` is given with the first and the last event. -/
structure CopyProgress where
  copiedBytes : Int64
  totalBytes : Int64
  cachedPath : Option String
  deriving DecidableEq

def CopyProgress.progress (p : CopyProgress) : Float32.Model :=
  if p.totalBytes = 0 then Float32.Model.ofInt64 0
  else Float32.Model.ofInt64 p.copiedBytes / Float32.Model.ofInt64 p.totalBytes

/-- The same number in double precision. -/
def toDouble (f : Float32.Model) : Float.Model :=
  match f.unpack with
  | .finite sign mantissa exponent _ =>
      Float.Model.pack (.round .binary64 sign mantissa exponent)
  | other => Float.Model.pack other

end Progress

section Copies

/-- What a copy does: the events it emits, the files it opens for writing and the
exception it ends with, if it does. -/
structure CopyRun where
  events : List CopyProgress := []
  created : List JavaFile := []
  error : Option Failure := none

def parentError (target : JavaFile) : Failure :=
  some ("Cannot create parent directory for: " ++ target.path)

def streamError (uri : String) : Failure := some ("Cannot open stream for: " ++ uri)

/-- The bytes copied by the reads so far, in a `Long`. -/
def addBytes (copiedBytes : Int64) (bytesRead : Nat) : Int64 := copiedBytes + Int64.ofNat bytesRead

/-- The loop over the reads of a single document: an event after each. -/
def copyReads (totalBytes copiedBytes : Int64) : List Nat → List CopyProgress
  | [] => []
  | bytesRead :: rest =>
      ⟨addBytes copiedBytes bytesRead, totalBytes, none⟩ ::
        copyReads totalBytes (addBytes copiedBytes bytesRead) rest

def copyDocument (document : SharedDocument) (currentTimeMillis : Nat) (destination : JavaFile) :
    CopyRun :=
  let fileName := resolveDisplayName document currentTimeMillis
  let totalBytes := resolveContentLength document
  let target := destination.resolve (.ofPath fileName)
  match target.parentFile with
  | none => { error := some (parentError target) }
  | some _ =>
      let first : CopyProgress := ⟨0, totalBytes, some target.absolutePath⟩
      match document.reading with
      | .noStream => { events := [first], error := some (streamError document.uri) }
      | .refused failure => { events := [first], error := some failure }
      | .read chunks (some failure) =>
          { events := first :: copyReads totalBytes 0 chunks, created := [target],
            error := some failure }
      | .read chunks none =>
          let copiedBytes := chunks.foldl addBytes 0
          let finalTotal := if 0 < totalBytes then totalBytes else copiedBytes
          { events := first :: copyReads totalBytes 0 chunks ++
              [⟨finalTotal, finalTotal, some target.absolutePath⟩],
            created := [target] }

/-- What the loop over the files of a tree keeps. -/
structure TreeCopy where
  copiedBytes : Int64
  lastProgress : Float32.Model
  events : List CopyProgress
  created : List JavaFile

/-- An event follows a read only when a hundredth has been added since the last one. -/
def TreeCopy.read (totalBytes : Int64) (s : TreeCopy) (bytesRead : Nat) : TreeCopy :=
  let copiedBytes := addBytes s.copiedBytes bytesRead
  let progress : CopyProgress := ⟨copiedBytes, totalBytes, none⟩
  if toDouble s.lastProgress + Float.Model.ofScientific 1 (-2) ≤ toDouble progress.progress then
    { s with copiedBytes, lastProgress := progress.progress, events := s.events ++ [progress] }
  else { s with copiedBytes }

/-- The loop over the files, to its end or to the exception that ends it. -/
def copyFiles (targetFolder : JavaFile) (totalBytes : Int64) :
    TreeCopy → List (TreeFile × String) → TreeCopy × Option Failure
  | s, [] => (s, none)
  | s, (file, relativePath) :: rest =>
      let target := targetFolder.resolve (.ofPath relativePath)
      match file.cancelled, target.parentFile, file.reading with
      | some failure, _, _ => (s, some failure)
      | none, none, _ => (s, some (parentError target))
      | none, some _, .noStream => (s, some (streamError file.uri))
      | none, some _, .refused failure => (s, some failure)
      | none, some _, .read chunks failure =>
          let copied := chunks.foldl (TreeCopy.read totalBytes)
            { s with created := s.created ++ [target] }
          match failure with
          | some failure => (copied, some failure)
          | none => copyFiles targetFolder totalBytes copied rest

/-- The sizes the provider declares, in a `Long`. -/
def sumOfLengths (files : List (TreeFile × String)) : Int64 :=
  files.foldl (fun sum file => sum + file.1.length) 0

def copyUriTreeWithProgress (uri : String) (sourceRoot : Option TreeRoot) (destination : JavaFile) :
    CopyRun :=
  match sourceRoot with
  | none => { error := some (some ("Cannot open tree URI: " ++ uri)) }
  | some root =>
      match root.name with
      | none => { error := some (some ("Cannot get file name for " ++ uri)) }
      | some folderName =>
          let targetFolder := destination.resolve (.ofPath folderName)
          if root.isDirectory then
            let allFiles := walkFilesWithPath "" root.listFiles
            let totalBytes := sumOfLengths allFiles
            let first : CopyProgress := ⟨0, totalBytes, some targetFolder.absolutePath⟩
            match copyFiles targetFolder totalBytes
                ⟨0, Float32.Model.ofInt64 0, [first], []⟩ allFiles with
            | (copied, some failure) => ⟨copied.events, copied.created, some failure⟩
            | (copied, none) =>
                ⟨copied.events ++ [⟨totalBytes, totalBytes, some targetFolder.absolutePath⟩],
                  copied.created, none⟩
          else { error := some (some "Source URI is not a directory") }

def copyUri (shared : SharedUri) (currentTimeMillis : Nat) (destination : JavaFile) : CopyRun :=
  match shared with
  | .tree uri sourceRoot => copyUriTreeWithProgress uri sourceRoot destination
  | .document document => copyDocument document currentTimeMillis destination

end Copies

end AltSendme.Android
