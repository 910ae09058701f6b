import AltSendme.Files.Names

/-! Export of a collection into a directory. A path is the list of its
components from the root of the file system, which has no links and is changed
by nobody else. Whether a directory can be made and a blob be written is up to
the run. -/
namespace AltSendme.Files

inductive Entry (Content : Type) where
  | file (content : Content)
  | dir
  deriving DecidableEq, Repr

def Entry.isFile {Content : Type} : Entry Content → Bool
  | .file _ => true
  | .dir => false

/-- What stands at each path. -/
abbrev FileSystem (Content : Type) := Path → Option (Entry Content)

inductive ExportError where
  | badName (message : String)
  | tooManyConflicts (path : Path)
  | failedCreatingParent (parent : Path)
  | errorExporting (name : String)
  deriving DecidableEq, Repr

structure ExportConflict where
  original : String
  resolved : String
  deriving DecidableEq, Repr

/-- The split of `file_stem` and `extension` at the last dot. A name without a
dot, one whose only dot comes first, and `..` have no extension. -/
def splitExtension (fileName : String) : String × Option String :=
  let chars := fileName.toList.reverse
  let after := (chars.takeWhile (· ≠ '.')).reverse
  let before := ((chars.dropWhile (· ≠ '.')).drop 1).reverse
  if '.' ∉ fileName.toList ∨ before = [] ∨ fileName = ".." then (fileName, none)
  else (String.ofList before, some (String.ofList after))

/-- `candidate_name` -/
def candidateName (fileName : String) (index : Nat) : String :=
  match splitExtension fileName with
  | (stem, some ext) => numbered stem index ++ "." ++ ext
  | (_, none) => numbered fileName index

section
variable {Content : Type}

/-- The indices `1..10_000`, tried in turn; `left` of them remain. -/
def findCandidate (fs : FileSystem Content) (parent : Path) (fileName : String) :
    (left index : Nat) → Option Path
  | 0, _ => none
  | left + 1, index =>
      let candidate := parent ++ [candidateName fileName index]
      if (fs candidate).isSome then findCandidate fs parent fileName left (index + 1)
      else some candidate

/-- `resolve_conflict_path`. An export path always has a parent and a file name. -/
def resolveConflictPath (fs : FileSystem Content) (path : Path) : Except ExportError Path :=
  match findCandidate fs path.dropLast (path.getLast?.getD "") 9999 1 with
  | some candidate => .ok candidate
  | none => .error (.tooManyConflicts path)

/-- Make the first `made` prefixes of a path, from the root, that are missing. -/
def makeDirs (fs : FileSystem Content) (path : Path) (made : Nat) : FileSystem Content :=
  fun p => if fs p = none ∧ p <+: path ∧ p.length < made then some .dir else fs p

/-- `create_dir_all`: it fails on a file among the prefixes. -/
def createDirAll (fs : FileSystem Content) (path : Path) : Option (FileSystem Content) :=
  if path.inits.any fun p => (fs p).any Entry.isFile then none
  else some (makeDirs fs path (path.length + 1))

/-- How the system calls for one file end. -/
inductive Outcome (Content : Type) where
  | done
  /-- `create_dir_all` fails after it made some directories. -/
  | mkdirFails (made : Nat)
  /-- The copy fails and leaves nothing or a part of the content. -/
  | exportFails (left : Option Content)

/-- `targets` are the paths handed to `export_with_opts` so far. -/
structure Export (Content : Type) where
  fs : FileSystem Content
  targets : List Path
  conflicts : List ExportConflict

/-- A run of the loop: what it left, and the error that ended it, if any. -/
abbrev ExportResult (Content : Type) := Export Content × Option ExportError

/-- The target of one file, and the conflict it meets. -/
def chooseTarget (display : Path → String) (fs : FileSystem Content) (desired : Path) :
    Except ExportError (Path × List ExportConflict) :=
  if (fs desired).isSome then do
    let resolved ← resolveConflictPath fs desired
    return (resolved, [⟨display desired, display resolved⟩])
  else return (desired, [])

/-- Make the parent and copy the blob. -/
def writeTarget (s : Export Content) (name : String) (content : Content) (target : Path) :
    Outcome Content → ExportResult Content
  | .mkdirFails made =>
      ({ s with fs := makeDirs s.fs target.dropLast made },
        some (.failedCreatingParent target.dropLast))
  | .done =>
      match createDirAll s.fs target.dropLast with
      | none => (s, some (.failedCreatingParent target.dropLast))
      | some fs =>
          ({ s with fs := Function.update fs target (some (.file content))
                    targets := s.targets ++ [target] }, none)
  | .exportFails left =>
      match createDirAll s.fs target.dropLast with
      | none => (s, some (.failedCreatingParent target.dropLast))
      | some fs =>
          ({ s with fs := Function.update fs target (left.map .file)
                    targets := s.targets ++ [target] }, some (.errorExporting name))

/-- One round of the loop. -/
def exportFile (display : Path → String) (outputDir : Path) (s : Export Content)
    (file : String × Content) (outcome : Outcome Content) : ExportResult Content :=
  match getExportPath outputDir file.1 with
  | .error message => (s, some (.badName message))
  | .ok desired =>
      match chooseTarget display s.fs desired with
      | .error e => (s, some e)
      | .ok (target, conflict) =>
          writeTarget { s with conflicts := s.conflicts ++ conflict } file.1 file.2 target outcome

/-- `export_to_directory`, file by file until one fails. `display` is
`to_string_lossy`, and `outcomes` says how the system calls of each file end. -/
def exportFiles (display : Path → String) (outputDir : Path) (outcomes : Nat → Outcome Content) :
    Export Content → List (String × Content) → ExportResult Content
  | s, [] => (s, none)
  | s, file :: rest =>
      match exportFile display outputDir s file (outcomes 0) with
      | (s', some e) => (s', some e)
      | (s', none) => exportFiles display outputDir (fun i => outcomes (i + 1)) s' rest

def exportToDirectory (display : Path → String) (outcomes : Nat → Outcome Content)
    (fs : FileSystem Content) (outputDir : Path) (collection : List (String × Content)) :
    ExportResult Content :=
  exportFiles display outputDir outcomes ⟨fs, [], []⟩ collection

end

end AltSendme.Files
