import AltSendme.Frontend.Transfer
import AltSendme.Listing.Keyed
import Mathlib.Data.Finset.Basic

/-! The files a browser send reads (`web-file-store.ts`), how picks and drops put them
there (`pickPathsInBrowser`, `processWebDataTransfer`) and how a send collects them
(`web-send-items.ts`). The metadata that goes with a payload is left out: it is built
from the same entries once they are collected. -/
namespace AltSendme.Frontend

/-- A `File` of the browser. -/
structure WebFile where
  name : String
  webkitRelativePath : String
  bytes : List UInt8
  deriving DecidableEq, Repr

/-- The map keeps the order in which its keys came; nothing reads an order of the set. -/
structure WebFileStore where
  filesByPath : List (String × WebFile)
  directoryPaths : Finset String
  deriving DecidableEq

/-- `text.startsWith(beginning)` -/
def startsWith (text beginning : String) : Bool := beginning.toList.isPrefixOf text.toList

def webFilePathKey (file : WebFile) : String :=
  if file.webkitRelativePath = "" then file.name else file.webkitRelativePath

namespace WebFileStore

def empty : WebFileStore := ⟨[], ∅⟩

def registerWebFile (s : WebFileStore) (path : String) (file : WebFile) : WebFileStore :=
  ⟨Keyed.set s.filesByPath path file, s.directoryPaths.erase path⟩

def registerWebDirectory (s : WebFileStore) (path : String) : WebFileStore :=
  ⟨Keyed.erase s.filesByPath path, insert path s.directoryPaths⟩

def getWebFile (s : WebFileStore) (path : String) : Option WebFile := Keyed.get? s.filesByPath path

def isWebDirectory (s : WebFileStore) (path : String) : Bool := path ∈ s.directoryPaths

def listWebFileEntriesUnderPath (s : WebFileStore) (path : String) : List (String × WebFile) :=
  s.filesByPath.filter fun e => e.1 = path ∨ startsWith e.1 (path ++ "/")

end WebFileStore

section Send

inductive WebSendEntryType where
  | file
  | directory
  | collection
  deriving DecidableEq, Repr

structure WebSendPayload where
  names : List String
  bytesList : List (List UInt8)
  entryType : WebSendEntryType
  deriving DecidableEq, Repr

inductive WebSendError where
  | emptyFolder (path : String)
  | fileGone
  | noFilesSelected
  deriving DecidableEq, Repr

def WebSendError.message : WebSendError → String
  | .emptyFolder path =>
      "Folder \"" ++ path ++ "\" has no files to share. Please choose the folder again."
  | .fileGone => "Selected file is no longer available. Please choose the file again."
  | .noFilesSelected => "No files selected"

namespace WebFileStore

def webSendEntryType (s : WebFileStore) (paths : List String) : WebSendEntryType :=
  match paths with
  | _ :: _ :: _ => .collection
  | [path] => if s.isWebDirectory path then .directory else .file
  | [] => .file

/-- What the loop of `collectWebSendPayload` adds for one path. -/
def webSendEntries (s : WebFileStore) (path : String) :
    Except WebSendError (List (String × WebFile)) :=
  if s.isWebDirectory path then
    let entries := s.listWebFileEntriesUnderPath path
    if entries.isEmpty then .error (.emptyFolder path) else .ok entries
  else
    match s.getWebFile path with
    | none => .error .fileGone
    | some file => .ok [(path, file)]

def collectWebSendPayload (s : WebFileStore) (paths : List String) :
    Except WebSendError WebSendPayload := do
  let entries := (← paths.mapM s.webSendEntries).flatten
  if entries.isEmpty then
    .error .noFilesSelected
  else
    .ok {
      names := entries.map (·.1)
      bytesList := entries.map (·.2.bytes)
      entryType := s.webSendEntryType paths }

end WebFileStore

end Send

section Pick

/-- A `Set` of strings that is turned into an array: the first of equal ones stays. -/
def distinct (texts : List String) : List String :=
  texts.foldl (fun kept text => if kept.contains text then kept else kept ++ [text]) []

/-- The browser's file dialog, once it reports `files`; one path of several is chosen
unless `multiple` is set. -/
def pickPathsInBrowser (s : WebFileStore) (directory multiple : Bool) (files : List WebFile) :
    WebFileStore × Option (List String) :=
  let chosen (paths : List String) : Option (List String) :=
    if multiple then some paths else paths.head?.map ([·])
  if files.isEmpty then (s, none)
  else
    let registered := files.foldl (fun s file => s.registerWebFile (webFilePathKey file) file) s
    if directory then
      let roots := files.map fun file => (segments (webFilePathKey file)).headD ""
      let folders := distinct (roots.filter (· ≠ ""))
      (folders.foldl WebFileStore.registerWebDirectory registered, chosen folders)
    else (registered, chosen (files.map webFilePathKey))

end Pick

section Drop

inductive FileSystemEntry where
  | file (name : String) (file : WebFile)
  | directory (name : String) (children : List FileSystemEntry)

def FileSystemEntry.name : FileSystemEntry → String
  | .file name _ => name
  | .directory name _ => name

def entryPath (basePath name : String) : String :=
  if basePath = "" then name else basePath ++ "/" ++ name

mutual

/-- The files of an entry, each under its path from `basePath`. -/
def readEntryRecursively : FileSystemEntry → String → List (String × WebFile)
  | .file name file, basePath => [(entryPath basePath name, file)]
  | .directory name children, basePath => readEntries children (entryPath basePath name)

def readEntries : List FileSystemEntry → String → List (String × WebFile)
  | [], _ => []
  | child :: children, dirPath => readEntryRecursively child dirPath ++ readEntries children dirPath

end

/-- An item as it answers when the loop gets to it. -/
inductive DataTransferItem where
  | other
  | file (entry : Option FileSystemEntry) (asFile : Option WebFile)

structure DataTransfer where
  items : List DataTransferItem
  files : List WebFile

structure WebDropResult where
  paths : List String
  pathType : Option PathType
  deriving DecidableEq, Repr

/-- The loop variables of `processWebDataTransfer`. -/
structure DropProgress where
  store : WebFileStore
  topLevelPaths : List String
  hasDirectory : Bool
  hasFile : Bool

def DropProgress.addFile (p : DropProgress) (file : WebFile) : DropProgress :=
  { p with
    store := p.store.registerWebFile (webFilePathKey file) file
    topLevelPaths := p.topLevelPaths ++ [webFilePathKey file]
    hasFile := true }

def DropProgress.add (p : DropProgress) : DataTransferItem → DropProgress
  | .other => p
  | .file none none => p
  | .file none (some file) => p.addFile file
  | .file (some (.directory folderName children)) _ =>
      let nested := readEntryRecursively (.directory folderName children) ""
      { p with
        store := nested.foldl (fun s e => s.registerWebFile e.1 e.2)
          (p.store.registerWebDirectory folderName)
        topLevelPaths := p.topLevelPaths ++ [folderName]
        hasDirectory := true }
  | .file (some (.file _ file)) _ => p.addFile file

def registerPlainFiles (s : WebFileStore) (files : List WebFile) : WebFileStore × List String :=
  (files.foldl (fun s file => s.registerWebFile (webFilePathKey file) file) s,
    files.map webFilePathKey)

def resolvePathType (paths : List String) (hasDirectory hasFile : Bool) : Option PathType :=
  if paths.length ≠ 1 then if hasDirectory && !hasFile then some .directory else none
  else if hasDirectory && !hasFile then some .directory
  else if hasFile && !hasDirectory then some .file
  else none

def processWebDataTransfer (s : WebFileStore) (dataTransfer : DataTransfer) :
    WebFileStore × WebDropResult :=
  match dataTransfer.items with
  | [] =>
      let (s, paths) := registerPlainFiles s dataTransfer.files
      (s, ⟨paths, if paths.length = 1 then some .file else none⟩)
  | items =>
      let p := items.foldl DropProgress.add ⟨s, [], false, false⟩
      (p.store, ⟨p.topLevelPaths, resolvePathType p.topLevelPaths p.hasDirectory p.hasFile⟩)

end Drop
end AltSendme.Frontend
