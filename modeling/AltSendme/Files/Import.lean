import AltSendme.Files.Names
import Mathlib.Data.List.Sort
import Mathlib.Data.UInt

/-! Import: the native `import_paths` over what it finds on the file system, and
the browser's `import_named_bytes_collection`. A blob stands for the bytes of a
file: the store gives it a hash and a size. -/
namespace AltSendme.Files

/-- An `OsStr` that is UTF-8, or bytes that are not. -/
inductive OsName where
  | utf8 (text : String)
  | other (bytes : List UInt8)
  deriving DecidableEq, Repr

/-- What the system accepts as the name of an entry. -/
def OsName.IsFileName : OsName → Prop
  | .utf8 text => text ≠ "" ∧ '/' ∉ text.toList ∧ '\x00' ∉ text.toList ∧ text ≠ "." ∧ text ≠ ".."
  | .other _ => True

instance : (name : OsName) → Decidable name.IsFileName
  | .utf8 _ => inferInstanceAs (Decidable (_ ∧ _))
  | .other _ => .isTrue trivial

/-- The name of a file or directory that is there. -/
abbrev FileName := { name : OsName // name.IsFileName }

structure Blob (Hash : Type) where
  hash : Hash
  size : UInt64
  deriving DecidableEq, Repr

/-- What stands at a path. A file whose bytes the store cannot read has no blob;
`special` is neither file nor directory, and `inaccessible` an entry that the
walk reports as an error. -/
inductive FileTree (Hash : Type) where
  | file (blob : Option (Blob Hash))
  | dir (entries : List (FileName × FileTree Hash))
  | special
  | inaccessible

/-- `Component` of a path. -/
inductive Component where
  | rootDir
  | normal (name : OsName)
  | other
  deriving DecidableEq, Repr

inductive ImportError where
  | invalidCharacterInPath
  | invalidPathComponent (component : Component)
  | neitherFileNorDirectory
  | errorImporting (name : String)
  | noValidFiles
  | noFilesToImport
  deriving DecidableEq, Repr

/-- What one component adds to the parts of a path text. -/
def Component.toParts (mustBeRelative : Bool) : Component → Except ImportError Path
  | .normal (.utf8 x) =>
      if '/' ∉ x.toList ∧ '\\' ∉ x.toList then .ok [x]
      else .error (.invalidPathComponent (.normal (.utf8 x)))
  | .normal (.other _) => .error .invalidCharacterInPath
  | .rootDir => if mustBeRelative then .error (.invalidPathComponent .rootDir) else .ok []
  | .other => .error (.invalidPathComponent .other)

/-- `canonicalized_path_to_string` -/
def canonicalizedPathToString (path : List Component) (mustBeRelative : Bool) :
    Except ImportError String := do
  let parts ← path.mapM (Component.toParts mustBeRelative)
  return (if .rootDir ∈ path then "/" else "") ++ joinSlash parts.flatten

mutual

/-- The regular files below a directory, as `WalkDir` meets them; `rel` is the
path walked so far. Links are not followed. -/
def FileTree.walk {Hash : Type} (rel : List FileName) :
    FileTree Hash → List (List FileName × Option (Blob Hash))
  | .file blob => [(rel, blob)]
  | .dir entries => walkEntries rel entries
  | .special | .inaccessible => []

def walkEntries {Hash : Type} (rel : List FileName) :
    List (FileName × FileTree Hash) → List (List FileName × Option (Blob Hash))
  | [] => []
  | (name, tree) :: rest => tree.walk (rel ++ [name]) ++ walkEntries rel rest

end

/-- An input path: its last component, unless it ends otherwise, and what it
leads to. -/
structure InputPath (Hash : Type) where
  fileName : Option FileName
  found : FileTree Hash

section
variable {Hash : Type}

/-- The name an input's files are imported under. -/
def InputPath.stem (path : InputPath Hash) : String :=
  match path.fileName with
  | some ⟨.utf8 text, _⟩ => text
  | _ => "item"

/-- `collect_path_files` -/
def collectPathFiles (found : FileTree Hash) (rootName : String) :
    Except ImportError (List (String × Option (Blob Hash))) :=
  let root := Component.normal (.utf8 rootName)
  match found with
  | .file blob => do
      let rel ← canonicalizedPathToString [root] true
      return [(rel, blob)]
  | .dir entries => (walkEntries [] entries).mapM fun (rel, blob) => do
      let safe ← canonicalizedPathToString (root :: rel.map fun name => .normal name.val) true
      return (safe, blob)
  | .special | .inaccessible => .error .neitherFileNorDirectory

/-- `db.add_path_with_opts` for every file of one input. -/
def addFiles (files : List (String × Option (Blob Hash))) :
    Except ImportError (List (String × Blob Hash)) :=
  files.mapM fun (name, found) => match found with
    | some blob => .ok (name, blob)
    | none => .error (.errorImporting name)

/-- The order in which `buffered_unordered` yields the files of each input. -/
structure Arrival (Hash : Type) where
  order : Nat → List (String × Blob Hash) → List (String × Blob Hash)
  perm : ∀ input files, (order input files).Perm files

/-- The files arrive in the order in which they were found. -/
def Arrival.found : Arrival Hash := ⟨fun _ files => files, fun _ files => .refl files⟩

/-- The counts of `name_seen`; a name that is not in the map has count 0. -/
abbrev NameSeen := String → Nat

/-- `dedup_name`, the same in the native and the browser crate. -/
def dedupName (name : String) (seen : NameSeen) : String × NameSeen :=
  let count := seen name
  if count = 0 then (name, Function.update seen name 1)
  else (numbered name (count + 1), Function.update seen name (count + 1))

/-- The entries under their final names, and the names seen so far. -/
structure Imported (Hash : Type) where
  entries : List (String × Blob Hash)
  seen : NameSeen

def Imported.empty : Imported Hash := ⟨[], fun _ => 0⟩

def Imported.push (acc : Imported Hash) (file : String × Blob Hash) : Imported Hash :=
  let (finalName, seen) := dedupName file.1 acc.seen
  ⟨acc.entries ++ [(finalName, file.2)], seen⟩

/-- One round of the loop over the input paths. -/
def importPath (arrival : Arrival Hash) (acc : Imported Hash)
    (path : InputPath Hash × Nat) : Except ImportError (Imported Hash) := do
  let files ← collectPathFiles path.1.found path.1.stem
  let added ← addFiles files
  return (arrival.order path.2 added).foldl Imported.push acc

/-- `total_size` -/
def totalSize (entries : List (String × Blob Hash)) : UInt64 :=
  (entries.map fun entry => entry.2.size).sum

/-- `entries.sort_by(|a, b| a.0.cmp(&b.0))` -/
def sortEntries (entries : List (String × Blob Hash)) : List (String × Blob Hash) :=
  entries.insertionSort fun a b => a.1 ≤ b.1

/-- The names and hashes of a collection. -/
abbrev Collection (Hash : Type) := List (String × Hash)

def collect (entries : List (String × Blob Hash)) : UInt64 × Collection Hash :=
  (totalSize entries, entries.map fun entry => (entry.1, entry.2.hash))

/-- `import_paths` -/
def importPaths (arrival : Arrival Hash) (paths : List (InputPath Hash)) :
    Except ImportError (UInt64 × Collection Hash) := do
  let imported ← paths.zipIdx.foldlM (importPath arrival) .empty
  let entries := sortEntries imported.entries
  if entries.isEmpty then .error .noValidFiles else return collect entries

/-- `import_named_bytes_collection`; adding bytes can fail too. -/
def importNamedBytesCollection (items : List (String × Option (Blob Hash))) :
    Except ImportError (UInt64 × Collection Hash) := do
  let added ← addFiles items
  let entries := sortEntries (added.foldl Imported.push .empty).entries
  if entries.isEmpty then .error .noFilesToImport else return collect entries

end

end AltSendme.Files
