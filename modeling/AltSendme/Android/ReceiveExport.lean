import AltSendme.Android.CopyUtils
import AltSendme.Android.DocumentProvider
import AltSendme.Files.ConflictNames
import AltSendme.Files.LosslessTransfer
import AltSendme.Native.IdentityStore

/-! The end of a receive on Android. The files are received into a staging directory
of their own (`commands.rs`), copied from there into the document tree that the user
picked (`ExportUtils.kt`), and the staging directory is removed only after that. -/
namespace AltSendme.Android
open Files

/-- A file that `walkTopDown` finds, by its path below the staging directory. -/
structure StagedFile where
  relative : Path
  bytes : List UInt8
  deriving DecidableEq, Repr

/-- A file whose path is blank is passed over. -/
def StagedFile.exported (file : StagedFile) : Bool := isNotBlank (joinSlash file.relative)

/-- The staging directory by the time of the export, and what a walk of it finds. -/
structure StagingDir where
  absolutePath : String
  isDirectory : Bool
  files : List StagedFile

inductive ExportFault where
  | io (message : String)
  /-- The document was made, and its stream cannot be opened or throws. -/
  | stream
  deriving DecidableEq, Repr

/-- The provider by now, the documents made for the files, and the conflicts so far. -/
structure TreeExport (State Doc : Type) where
  state : State
  targets : List Doc
  conflicts : List ExportConflict

structure ExportToTreeResult where
  exportedCount : Nat
  conflicts : List ExportConflict

section
variable {State Doc : Type} (provider : DocumentProvider State Doc)

def ensureDirectory (s : State) (parent : Doc) (name : String) : State × Except ExportFault Doc :=
  match provider.findFile s parent name with
  | some existing =>
      if provider.isDirectory s existing then (s, .ok existing)
      else (s, .error (.io ("Path component exists as a file: " ++ name)))
  | none =>
      match provider.createDirectory s parent name with
      | (made, some directory) => (made, .ok directory)
      | (made, none) => (made, .error (.io ("Failed to create directory: " ++ name)))

/-- The loop over the directories of a file. -/
def ensureDirectories (s : State) (parent : Doc) : List String → State × Except ExportFault Doc
  | [] => (s, .ok parent)
  | name :: rest =>
      match ensureDirectory provider s parent name with
      | (made, .error e) => (made, .error e)
      | (made, .ok directory) => ensureDirectories made directory rest

/-- What is reported of a file whose name was taken. -/
def exportConflict (relative : Path) (resolved : Option String) : List ExportConflict :=
  resolved.toList.map fun name => ⟨joinSlash relative, joinSlash (relative.dropLast ++ [name])⟩

/-- A document of its own for a file, and the copy into it. -/
def copyStagedFile (treeUri : String) (s : TreeExport State Doc) (parent : Doc)
    (file : StagedFile) : TreeExport State Doc × Option ExportFault :=
  match Files.Android.resolveConflictName
      (fun name => (provider.findFile s.state parent name).isSome)
      (file.relative.getLast?.getD "") with
  | .error message => (s, some (.io message))
  | .ok (targetName, resolvedRelative) =>
      let conflicts := s.conflicts ++ exportConflict file.relative resolvedRelative
      match provider.createFile s.state parent "application/octet-stream" targetName with
      | (made, none) =>
          (⟨made, s.targets, conflicts⟩,
            some (.io ("Failed to create file '" ++ targetName ++ "' under " ++ treeUri)))
      | (made, some created) =>
          match provider.write made created file.bytes with
          | (written, true) => (⟨written, s.targets ++ [created], conflicts⟩, none)
          | (written, false) => (⟨written, s.targets ++ [created], conflicts⟩, some .stream)

/-- The body of the loop. -/
def exportStagedFile (treeUri : String) (root : Doc) (s : TreeExport State Doc)
    (file : StagedFile) : TreeExport State Doc × Option ExportFault :=
  match ensureDirectories provider s.state root file.relative.dropLast with
  | (made, .error e) => ({ s with state := made }, some e)
  | (made, .ok parent) => copyStagedFile provider treeUri { s with state := made } parent file

def exportDirectoryToTree (treeUri : String) (sourceDir : StagingDir) (s : State) :
    TreeExport State Doc × Except ExportFault ExportToTreeResult :=
  let start : TreeExport State Doc := ⟨s, [], []⟩
  if !sourceDir.isDirectory then
    (start, .error (.io ("Source directory does not exist: " ++ sourceDir.absolutePath)))
  else
    match provider.fromTreeUri s treeUri with
    | none => (start, .error (.io ("Cannot open tree URI: " ++ treeUri)))
    | some root =>
        if !provider.canWrite s root then
          (start, .error (.io ("Tree URI is not writable: " ++ treeUri)))
        else
          let files := sourceDir.files.filter StagedFile.exported
          match placeAll (fun _ => exportStagedFile provider treeUri root) start files with
          | (done, some e) => (done, .error e)
          | (done, none) => (done, .ok ⟨files.length, done.conflicts⟩)

/-- What a receive leaves: in the tree, in the staging directory, and the reason of
the event `receive-download-fallback`. -/
structure Finalized (State Doc : Type) where
  tree : TreeExport State Doc
  staged : List StagedFile
  fallback : Option String

/-- `tree_uri` without the blanks around it, if anything is left of it. -/
def pickedTreeUri (treeUri : Option String) : Option String :=
  (treeUri.map trim).filter (· ≠ "")

/-- `remains` tells what a removal of the staging directory leaves of it. -/
def finalizeAndroidReceive (treeUri : Option String) (stagingDir : StagingDir) (s : State)
    (remains : StagedFile → Bool) : Finalized State Doc :=
  match pickedTreeUri treeUri with
  | none => ⟨⟨s, [], []⟩, stagingDir.files, some "private"⟩
  | some uri =>
      match exportDirectoryToTree provider uri stagingDir s with
      | (done, .ok _) => ⟨done, stagingDir.files.filter remains, none⟩
      | (done, .error _) => ⟨done, stagingDir.files, some "saf"⟩

end

section Naming
variable {found : String → Bool} {fileName : String} {chosen : String × Option String}

/-- A name is chosen only after a look found it free. -/
theorem findName_eq_ok {left index : Nat}
    (h : Files.Android.findName found fileName left index = .ok chosen) :
    found chosen.1 = false ∧ chosen.2 = some chosen.1 := by
  induction left generalizing index with
  | zero => cases h
  | succ left ih =>
      rw [Files.Android.findName] at h
      cases hThere : found (Files.Android.candidate fileName index) with
      | true =>
          rw [hThere] at h
          exact ih h
      | false =>
          rw [hThere] at h
          obtain rfl := Except.ok.inj h
          exact ⟨hThere, rfl⟩

/-- The name that is chosen was not found, and it is the one asked for or is reported. -/
theorem resolveConflictName_eq_ok
    (h : Files.Android.resolveConflictName found fileName = .ok chosen) :
    chosen.2 = if chosen.1 = fileName then none else some chosen.1 := by
  rw [Files.Android.resolveConflictName] at h
  cases hThere : found fileName with
  | false =>
      rw [hThere, if_pos (by rfl)] at h
      obtain rfl := Except.ok.inj h
      rw [if_pos rfl]
  | true =>
      rw [hThere, if_neg (by simp)] at h
      obtain ⟨hFree, hReport⟩ := findName_eq_ok h
      rw [hReport, if_neg]
      intro hSame
      rw [hSame, hThere] at hFree
      cases hFree

end Naming

section Rounds
variable {State Doc : Type} {provider : DocumentProvider State Doc} {s : State}
variable {root parent : Doc} {path : Path}

/-- A directory is found under its name, or it is made. -/
theorem ensureDirectory_spec (hLawful : provider.Lawful) (hParent : provider.At s root path parent)
    (name : String) :
    provider.Adds root s (ensureDirectory provider s parent name).1 ∧
      ∀ directory, (ensureDirectory provider s parent name).2 = .ok directory → ∃ given,
        (provider.KeepsNames → given = name) ∧
          provider.At (ensureDirectory provider s parent name).1 root (path ++ [given])
            directory := by
  rw [ensureDirectory]
  cases hFound : provider.findFile s parent name with
  | some existing =>
      dsimp only
      cases provider.isDirectory s existing with
      | false => exact ⟨.refl _ _ _, fun directory h => (by cases h)⟩
      | true =>
          refine ⟨.refl _ _ _, fun directory h => ⟨name, fun _ => rfl, ?_⟩⟩
          obtain ⟨entry, hThere⟩ := hLawful.found s parent name existing hFound
          obtain rfl : existing = directory := Except.ok.inj h
          exact .child hParent hThere
  | none =>
      have hAdds := hLawful.createDirectory_adds s parent name
      dsimp only
      cases hCreate : provider.createDirectory s parent name with
      | mk made created =>
          rw [hCreate] at hAdds
          refine ⟨by cases created <;> exact hAdds.adds hParent, fun directory h => ?_⟩
          cases created with
          | none => cases h
          | some new =>
              obtain rfl : new = directory := Except.ok.inj h
              obtain ⟨given, hThere⟩ := hLawful.createDirectory_made s parent name new
                (by rw [hCreate])
              have hNamed (hKeeps : provider.KeepsNames) : given = name :=
                hKeeps.directory s parent name new _ (by rw [hCreate]) hThere
              rw [hCreate] at hThere
              exact ⟨given, hNamed, .child (hParent.mono hAdds.kept) hThere⟩

/-- The directories of a file, found or made, each below the one before. -/
theorem ensureDirectories_spec (hLawful : provider.Lawful)
    (hParent : provider.At s root path parent) (names : List String) :
    provider.Adds root s (ensureDirectories provider s parent names).1 ∧
      ∀ directory, (ensureDirectories provider s parent names).2 = .ok directory → ∃ way,
        way.length = names.length ∧ (provider.KeepsNames → way = names) ∧
          provider.At (ensureDirectories provider s parent names).1 root (path ++ way)
            directory := by
  induction names generalizing s parent path with
  | nil =>
      refine ⟨.refl _ _ _, fun directory h => ⟨[], rfl, fun _ => rfl, ?_⟩⟩
      obtain rfl : parent = directory := Except.ok.inj h
      rwa [List.append_nil]
  | cons name rest ih =>
      obtain ⟨hAdds, hReached⟩ := ensureDirectory_spec hLawful hParent name
      rw [ensureDirectories]
      cases hOne : ensureDirectory provider s parent name with
      | mk made reached =>
          rw [hOne] at hAdds hReached
          cases reached with
          | error e => exact ⟨hAdds, fun directory h => (by cases h)⟩
          | ok below =>
              obtain ⟨given, hNamed, hBelow⟩ := hReached below rfl
              obtain ⟨hMore, hEnd⟩ := ih hBelow
              refine ⟨hAdds.trans hMore, fun directory h => ?_⟩
              obtain ⟨way, hLength, hWay, hAt⟩ := hEnd directory h
              refine ⟨given :: way, by simp [hLength], fun hKeeps => ?_, ?_⟩
              · rw [hNamed hKeeps, hWay hKeeps]
              · rwa [List.append_assoc, List.singleton_append] at hAt

/-- A file in the tree: the name that was asked for it, and its document. -/
structure PlacedDocument (Doc : Type) where
  file : StagedFile
  asked : String
  target : Doc

/-- The conflict that is reported of a file: that of the name it was to have. -/
def PlacedDocument.conflict (placed : PlacedDocument Doc) : List ExportConflict :=
  if placed.asked = placed.file.relative.getLast?.getD "" then []
  else [⟨joinSlash placed.file.relative,
    joinSlash (placed.file.relative.dropLast ++ [placed.asked])⟩]

/-- The file is in the tree with its content, as deep as it was staged; under the path
that was meant for it, if the provider keeps names. -/
structure StoredInTree (provider : DocumentProvider State Doc) (s : State) (root : Doc)
    (placed : PlacedDocument Doc) : Prop where
  content : ∃ parent name,
    provider.documents s placed.target = some ⟨parent, name, .file placed.file.bytes⟩
  deep : ∃ path, path.length = placed.file.relative.length ∧
    provider.At s root path placed.target
  named : provider.KeepsNames →
    provider.At s root (placed.file.relative.dropLast ++ [placed.asked]) placed.target

/-- Documents that stay keep what is stored in the tree. -/
theorem StoredInTree.mono {s' : State} {placed : PlacedDocument Doc}
    (h : StoredInTree provider s root placed)
    (hKept : ∀ d doc, provider.documents s d = some doc → provider.documents s' d = some doc) :
    StoredInTree provider s' root placed := by
  obtain ⟨parent, name, hContent⟩ := h.content
  obtain ⟨path, hLength, hAt⟩ := h.deep
  exact
    { content := ⟨parent, name, hKept _ _ hContent⟩
      deep := ⟨path, hLength, hAt.mono hKept⟩
      named := fun hKeeps => (h.named hKeeps).mono hKept }

/-- How a round of the loop ends. -/
structure TreeRound (provider : DocumentProvider State Doc) (root : Doc)
    (s : TreeExport State Doc) (file : StagedFile)
    (result : TreeExport State Doc × Option ExportFault) : Prop where
  adds : provider.Adds root s.state result.1.state
  targets : result.1.targets = s.targets ∨ ∃ target, provider.documents s.state target = none ∧
    provider.documents result.1.state target ≠ none ∧ result.1.targets = s.targets ++ [target]
  stored : result.2 = none → ∃ placed : PlacedDocument Doc, placed.file = file ∧
    result.1.targets = s.targets ++ [placed.target] ∧
      result.1.conflicts = s.conflicts ++ placed.conflict ∧
        StoredInTree provider result.1.state root placed

/-- What a round does in the directory that it reached, it does as a whole. -/
theorem TreeRound.after {s : TreeExport State Doc} {made : State} {file : StagedFile}
    {result : TreeExport State Doc × Option ExportFault}
    (hAdds : provider.Adds root s.state made)
    (hRound : TreeRound provider root { s with state := made } file result) :
    TreeRound provider root s file result := by
  refine ⟨hAdds.trans hRound.adds, ?_, hRound.stored⟩
  rcases hRound.targets with hSame | ⟨target, hNone, hSome, hMore⟩
  · exact Or.inl hSame
  · refine Or.inr ⟨target, ?_, hSome, hMore⟩
    cases hBefore : provider.documents s.state target with
    | none => rfl
    | some doc =>
        have hStill : provider.documents made target = some doc := hAdds.kept target doc hBefore
        have hGone : provider.documents made target = none := hNone
        rw [hStill] at hGone
        cases hGone

/-- A round that fails without a document for its file. -/
theorem TreeRound.failed {s : TreeExport State Doc} {made : State} {file : StagedFile}
    (hAdds : provider.Adds root s.state made) (conflicts : List ExportConflict)
    (fault : ExportFault) :
    TreeRound provider root s file (⟨made, s.targets, conflicts⟩, some fault) :=
  ⟨hAdds, Or.inl rfl, fun hNone => (by cases hNone)⟩

/-- A conflict is reported exactly where another name was chosen. -/
theorem exportConflict_eq {file : StagedFile} {chosen : String × Option String} {target : Doc}
    (hReport : chosen.2 =
      if chosen.1 = file.relative.getLast?.getD "" then none else some chosen.1) :
    exportConflict file.relative chosen.2 =
      (PlacedDocument.mk file chosen.1 target).conflict := by
  rw [exportConflict, hReport, PlacedDocument.conflict]
  by_cases hSame : chosen.1 = file.relative.getLast?.getD ""
  · rw [if_pos hSame, if_pos hSame]
    rfl
  · rw [if_neg hSame, if_neg hSame]
    rfl

/-- A document with the content of the file, in the directory that its path leads to. -/
theorem StoredInTree.of_written {s' : State} {file : StagedFile} {asked given : String}
    {target : Doc} (hSome : file.relative ≠ [])
    (hLength : path.length = file.relative.dropLast.length)
    (hNamed : provider.KeepsNames → path = file.relative.dropLast)
    (hGiven : provider.KeepsNames → given = asked) (hParent : provider.At s' root path parent)
    (hWritten : provider.documents s' target = some ⟨some parent, given, .file file.bytes⟩) :
    StoredInTree provider s' root ⟨file, asked, target⟩ := by
  have hAt : provider.At s' root (path ++ [given]) target := .child hParent hWritten
  refine ⟨⟨some parent, given, hWritten⟩, ⟨path ++ [given], ?_, hAt⟩, fun hKeeps => ?_⟩
  · have hPositive := List.length_pos_iff.mpr hSome
    rw [List.length_append, hLength, List.length_dropLast, List.length_singleton]
    exact Nat.sub_add_cancel hPositive
  · rw [hNamed hKeeps, hGiven hKeeps] at hAt
    exact hAt

/-- The copy, once the directory of the file is reached by `path`. -/
theorem copyStagedFile_round (hLawful : provider.Lawful) (treeUri : String)
    {s : TreeExport State Doc} {file : StagedFile} (hSome : file.relative ≠ [])
    (hLength : path.length = file.relative.dropLast.length)
    (hNamed : provider.KeepsNames → path = file.relative.dropLast)
    (hParent : provider.At s.state root path parent) :
    TreeRound provider root s file (copyStagedFile provider treeUri s parent file) := by
  rw [copyStagedFile]
  cases hChosen : Files.Android.resolveConflictName
      (fun name => (provider.findFile s.state parent name).isSome)
      (file.relative.getLast?.getD "") with
  | error message => exact .failed (.refl _ _ _) _ _
  | ok chosen =>
      have hReport := resolveConflictName_eq_ok hChosen
      have hAdds := hLawful.createFile_adds s.state parent "application/octet-stream" chosen.1
      dsimp only
      cases hCreate : provider.createFile s.state parent "application/octet-stream" chosen.1 with
      | mk made created =>
          rw [hCreate] at hAdds
          cases created with
          | none => exact .failed (hAdds.adds hParent) _ _
          | some target =>
              obtain ⟨hNew, given, hEmpty⟩ := hLawful.createFile_made s.state parent
                "application/octet-stream" chosen.1 target (by rw [hCreate])
              have hGiven (hKeeps : provider.KeepsNames) : given = chosen.1 :=
                hKeeps.file s.state parent _ chosen.1 target _ (by rw [hCreate]) hEmpty
              rw [hCreate] at hEmpty
              have hWrites := hLawful.write_new hAdds hNew hEmpty file.bytes
              obtain ⟨content, hWritten, hContent⟩ :=
                hLawful.write_file made target _ given file.bytes hEmpty
              dsimp only
              cases hWrite : provider.write made target file.bytes with
              | mk written done =>
                  rw [hWrite] at hWrites hWritten hContent
                  have hTarget : provider.documents written target ≠ none := by simp [hWritten]
                  cases done with
                  | false =>
                      exact ⟨hWrites.adds hParent, Or.inr ⟨target, hNew, hTarget, rfl⟩,
                        fun hNone => (by cases hNone)⟩
                  | true =>
                      rw [hContent rfl] at hWritten
                      have hStored := StoredInTree.of_written hSome hLength hNamed hGiven
                        (hParent.mono hWrites.kept) hWritten
                      refine ⟨hWrites.adds hParent, Or.inr ⟨target, hNew, hTarget, rfl⟩,
                        fun _ => ⟨⟨file, chosen.1, target⟩, rfl, rfl, ?_, hStored⟩⟩
                      dsimp only
                      rw [exportConflict_eq hReport]

/-- One staged file: whatever the provider answers, the round is safe, and done it is
placed. -/
theorem exportStagedFile_round (hLawful : provider.Lawful) (treeUri : String)
    {s : TreeExport State Doc} {file : StagedFile} (hSome : file.relative ≠ []) :
    TreeRound provider root s file (exportStagedFile provider treeUri root s file) := by
  obtain ⟨hAdds, hReached⟩ := @ensureDirectories_spec _ _ provider s.state root root [] hLawful
    .root file.relative.dropLast
  rw [exportStagedFile]
  cases hRun : ensureDirectories provider s.state root file.relative.dropLast with
  | mk made reached =>
      rw [hRun] at hAdds hReached
      cases reached with
      | error e => exact .failed hAdds _ _
      | ok parent =>
          obtain ⟨way, hLength, hNamed, hAt⟩ := hReached parent rfl
          rw [List.nil_append] at hAt
          exact .after hAdds (copyStagedFile_round hLawful treeUri hSome hLength hNamed hAt)

/-- What holds of every run of the loop, also of one that an error ended: the documents
made for the files are new, and nothing else than the tree grew. -/
structure TreeSafe (provider : DocumentProvider State Doc) (root : Doc) (start : State)
    (s : TreeExport State Doc) : Prop where
  adds : provider.Adds root start s.state
  nodup : s.targets.Nodup
  new : ∀ t ∈ s.targets, provider.documents start t = none ∧ provider.documents s.state t ≠ none

/-- The files are in the tree, and the conflicts are theirs. -/
structure TreePlaced (provider : DocumentProvider State Doc) (root : Doc)
    (s : TreeExport State Doc) (files : List StagedFile) (placed : List (PlacedDocument Doc)) :
    Prop where
  files : placed.map PlacedDocument.file = files
  targets : placed.map PlacedDocument.target = s.targets
  conflicts : s.conflicts = placed.flatMap PlacedDocument.conflict
  stored : ∀ p ∈ placed, StoredInTree provider s.state root p

/-- One more round keeps the export safe. -/
theorem TreeSafe.round {start : State} {s : TreeExport State Doc} {file : StagedFile}
    {result : TreeExport State Doc × Option ExportFault} (h : TreeSafe provider root start s)
    (hRound : TreeRound provider root s file result) : TreeSafe provider root start result.1 := by
  have hOld (t : Doc) (ht : t ∈ s.targets) :
      provider.documents start t = none ∧ provider.documents result.1.state t ≠ none := by
    obtain ⟨hNone, hThere⟩ := h.new t ht
    obtain ⟨doc, hDoc⟩ := Option.ne_none_iff_exists'.mp hThere
    exact ⟨hNone, by simp [hRound.adds.kept t doc hDoc]⟩
  rcases hRound.targets with hSame | ⟨target, hNone, hThere, hMore⟩
  · refine ⟨h.adds.trans hRound.adds, ?_, ?_⟩
    · rw [hSame]
      exact h.nodup
    · rw [hSame]
      exact hOld
  · refine ⟨h.adds.trans hRound.adds, ?_, ?_⟩
    · rw [hMore, ← List.concat_eq_append, List.nodup_concat]
      exact ⟨fun hMem => (h.new target hMem).2 hNone, h.nodup⟩
    · rw [hMore]
      intro t ht
      rcases List.mem_append.mp ht with hBefore | hLast
      · exact hOld t hBefore
      · rw [List.mem_singleton.mp hLast]
        refine ⟨?_, hThere⟩
        cases hStart : provider.documents start target with
        | none => rfl
        | some doc =>
            rw [h.adds.kept target doc hStart] at hNone
            cases hNone

/-- One more round that is done places one more file. -/
theorem TreePlaced.round {s : TreeExport State Doc} {before : List StagedFile} {file : StagedFile}
    {result : TreeExport State Doc × Option ExportFault}
    (h : ∃ placed, TreePlaced provider root s before placed)
    (hRound : TreeRound provider root s file result) (hDone : result.2 = none) :
    ∃ placed, TreePlaced provider root result.1 (before ++ [file]) placed := by
  obtain ⟨placed, hPlaced⟩ := h
  obtain ⟨one, hFile, hTargets, hConflicts, hStored⟩ := hRound.stored hDone
  refine ⟨placed ++ [one], ?_, ?_, ?_, fun p hp => ?_⟩
  · rw [List.map_append, hPlaced.files, ← hFile]
    rfl
  · rw [List.map_append, hPlaced.targets, hTargets]
    rfl
  · rw [hConflicts, hPlaced.conflicts, List.flatMap_append]
    simp
  · rcases List.mem_append.mp hp with hBefore | hLast
    · exact (hPlaced.stored p hBefore).mono hRound.adds.kept
    · rw [List.mem_singleton.mp hLast]
      exact hStored

/-- The loop over the files, whichever way it ends. -/
theorem placeAll_tree (hLawful : provider.Lawful) (treeUri : String) (start : State)
    {files : List StagedFile} (hSome : ∀ file ∈ files, file.relative ≠ []) :
    let run := placeAll (fun _ => exportStagedFile provider treeUri root) ⟨start, [], []⟩ files
    TreeSafe provider root start run.1 ∧
      (run.2 = none → ∃ placed, TreePlaced provider root run.1 files placed) := by
  refine ⟨?_, fun hDone => ?_⟩
  · have hStart : TreeSafe provider root start ⟨start, [], []⟩ :=
      ⟨.refl _ _ _, List.nodup_nil, fun t ht => (by cases ht)⟩
    exact @placeAll_related (TreeExport State Doc) _ _ _
      (fun s s' => TreeSafe provider root start s → TreeSafe provider root start s')
      (fun _ h => h) (fun _ _ _ h h' hs => h' (h hs)) files ⟨start, [], []⟩
      (fun _ s file hFile hs => hs.round (exportStagedFile_round hLawful treeUri (hSome file hFile)))
      hStart
  · have hNone : ∃ placed, TreePlaced provider root ⟨start, [], []⟩ [] placed :=
      ⟨[], rfl, rfl, rfl, fun p hp => (by cases hp)⟩
    exact @placeAll_done (TreeExport State Doc) _ _ _
      (fun s done => ∃ placed, TreePlaced provider root s done placed) [] files ⟨start, [], []⟩
      hNone (fun _ s before file hFile hs hOne =>
        TreePlaced.round hs (exportStagedFile_round hLawful treeUri (hSome file hFile)) hOne) hDone

end Rounds

section Receive

/-- The files that a walk of the staging directory finds. -/
structure Walked (device : FileSystem (List UInt8)) (staging : Path) (staged : List StagedFile) :
    Prop where
  nodup : (staged.map StagedFile.relative).Nodup
  mem_iff : ∀ file : StagedFile, file ∈ staged ↔
    file.relative ≠ [] ∧ device (staging ++ file.relative) = some (.file file.bytes)

/-- The content of the file that stands at a path. -/
def contentAt : Option (Entry (List UInt8)) → Option (List UInt8)
  | some (.file bytes) => some bytes
  | _ => none

section Staging
variable {display : Path → String} {device : FileSystem (List UInt8)} {staging : Path}
variable {outcomes : Nat → Outcome (List UInt8)} {collection : List (String × List UInt8)}
variable {staged : List StagedFile}

/-- What was received into an empty staging directory is what the walk finds. -/
theorem Walked.perm_targets (hTree : IsTree device)
    (hEmpty : ∀ rel, rel ≠ [] → device (staging ++ rel) = none)
    (hDone : (exportToDirectory display outcomes device staging collection).2 = none)
    (hWalk : Walked (exportToDirectory display outcomes device staging collection).1.fs staging
      staged) :
    (staged.map fun file => staging ++ file.relative).Perm
      (exportToDirectory display outcomes device staging collection).1.targets := by
  have hFiles := exported_files_iff hTree hEmpty hDone
  obtain ⟨hSafe, -⟩ := (exported_nil display staging device).exportFiles outcomes collection
  refine (List.perm_ext_iff_of_nodup ?_ hSafe.nodup).mpr fun target => ?_
  · have hBelow := hWalk.nodup.map (f := (staging ++ ·))
      fun _ _ hSame => List.append_cancel_left hSame
    rwa [List.map_map] at hBelow
  · rw [List.mem_map]
    constructor
    · rintro ⟨file, hFile, rfl⟩
      obtain ⟨hRel, hThere⟩ := (hWalk.mem_iff file).mp hFile
      exact (hFiles file.relative).mp ⟨hRel, file.bytes, hThere⟩
    · intro hMem
      obtain ⟨⟨rel, hRel, hParts, rfl⟩, -⟩ := hSafe.below _ hMem
      obtain ⟨-, content, hThere⟩ := (hFiles rel).mpr hMem
      exact ⟨⟨rel, content⟩, (hWalk.mem_iff ⟨rel, content⟩).mpr ⟨hRel, hThere⟩, rfl⟩

/-- The walk of the staging directory finds exactly what was sent. -/
theorem Walked.perm_sent (hTree : IsTree device)
    (hEmpty : ∀ rel, rel ≠ [] → device (staging ++ rel) = none)
    (hDone : (exportToDirectory display outcomes device staging collection).2 = none)
    (hWalk : Walked (exportToDirectory display outcomes device staging collection).1.fs staging
      staged) : (staged.map StagedFile.bytes).Perm (collection.map Prod.snd) := by
  have hHeld := @Holds.exportFiles _ display staging ⟨device, [], []⟩ [] collection
    (.nil : Holds device [] ([] : List (String × List UInt8))) outcomes hDone
  have hWritten : (exportToDirectory display outcomes device staging collection).1.targets.map
      (exportToDirectory display outcomes device staging collection).1.fs = _ := hHeld.map_eq
  have hContents := (hWalk.perm_targets hTree hEmpty hDone).map
    (exportToDirectory display outcomes device staging collection).1.fs
  rw [List.map_map, hWritten, List.nil_append] at hContents
  have hStaged : staged.map ((exportToDirectory display outcomes device staging collection).1.fs ∘
      fun file => staging ++ file.relative) =
        staged.map fun file => some (Entry.file file.bytes) := by
    apply List.map_congr_left
    intro file hFile
    exact ((hWalk.mem_iff file).mp hFile).2
  rw [hStaged] at hContents
  have hBytes := hContents.filterMap contentAt
  simpa [List.filterMap_map, Function.comp_def, List.filterMap_eq_map, contentAt] using hBytes

end Staging

/-- The root of the tree that the user picked, by the address kept of it. -/
def PickedRoot {State Doc : Type} (provider : DocumentProvider State Doc) (start : State)
    (treeUri : Option String) (root : Doc) : Prop :=
  ∃ uri, pickedTreeUri treeUri = some uri ∧ provider.fromTreeUri start uri = some root

section Finalizing
variable {State Doc : Type} {provider : DocumentProvider State Doc}

/-- The export either touches nothing and fails, or it is a run of the loop. -/
theorem exportDirectoryToTree_spec (hLawful : provider.Lawful) (treeUri : String)
    (start : State) {sourceDir : StagingDir} (hSome : ∀ file ∈ sourceDir.files, file.relative ≠ []) :
    let (done, result) := exportDirectoryToTree provider treeUri sourceDir start
    (done = ⟨start, [], []⟩ ∧ ∀ exported, result ≠ .ok exported) ∨
      ∃ root, provider.fromTreeUri start treeUri = some root ∧
        TreeSafe provider root start done ∧ ∀ exported, result = .ok exported →
          ∃ placed, TreePlaced provider root done (sourceDir.files.filter StagedFile.exported)
            placed := by
  unfold exportDirectoryToTree
  cases sourceDir.isDirectory with
  | false => exact Or.inl ⟨rfl, fun exported h => (by cases h)⟩
  | true =>
  cases hRoot : provider.fromTreeUri start treeUri with
  | none => exact Or.inl ⟨rfl, fun exported h => (by cases h)⟩
  | some root =>
  cases hWrites : provider.canWrite start root with
  | false =>
      simp only [Bool.not_true, Bool.false_eq_true, if_false, hWrites]
      exact Or.inl ⟨rfl, fun exported h => (by cases h)⟩
  | true =>
  have hRun := @placeAll_tree _ _ provider root hLawful treeUri start
    (sourceDir.files.filter StagedFile.exported)
    fun file hFile => hSome file (List.mem_of_mem_filter hFile)
  simp only [Bool.not_true, Bool.false_eq_true, if_false, hWrites]
  cases hPlaced : placeAll (fun _ => exportStagedFile provider treeUri root) ⟨start, [], []⟩
      (sourceDir.files.filter StagedFile.exported) with
  | mk done error =>
      rw [hPlaced] at hRun
      obtain ⟨hSafe, hEnd⟩ := hRun
      refine Or.inr ⟨root, rfl, ?_⟩
      cases error with
      | some e => exact ⟨hSafe, fun exported h => (by cases h)⟩
      | none => exact ⟨hSafe, fun exported _ => hEnd rfl⟩

/-- Either nothing is touched and everything is still staged, or the loop has run, and what
it did not place is still staged. -/
theorem finalizeAndroidReceive_cases (hLawful : provider.Lawful) {stagingDir : StagingDir}
    (hSome : ∀ file ∈ stagingDir.files, file.relative ≠ []) (treeUri : Option String)
    (start : State) (remains : StagedFile → Bool) :
    let final := finalizeAndroidReceive provider treeUri stagingDir start remains
    (final.tree = ⟨start, [], []⟩ ∧ final.staged = stagingDir.files ∧ final.fallback ≠ none) ∨
      ∃ root, PickedRoot provider start treeUri root ∧ TreeSafe provider root start final.tree ∧
        (final.staged = stagingDir.files ∧ final.fallback ≠ none ∨
          final.fallback = none ∧ ∃ placed, TreePlaced provider root final.tree
            (stagingDir.files.filter StagedFile.exported) placed) := by
  rw [finalizeAndroidReceive]
  cases hUri : pickedTreeUri treeUri with
  | none => exact Or.inl ⟨rfl, rfl, by simp⟩
  | some uri =>
      have hExport := exportDirectoryToTree_spec hLawful uri start hSome
      dsimp only
      cases hRun : exportDirectoryToTree provider uri stagingDir start with
      | mk done result =>
          rw [hRun] at hExport
          rcases hExport with ⟨rfl, hFailed⟩ | ⟨root, hRoot, hSafe, hPlaced⟩
          · cases result with
            | ok exported => exact absurd rfl (hFailed exported)
            | error e => exact Or.inl ⟨rfl, rfl, by simp⟩
          · refine Or.inr ⟨root, ⟨uri, hUri, hRoot⟩, ?_⟩
            cases result with
            | error e => exact ⟨hSafe, Or.inl ⟨rfl, by simp⟩⟩
            | ok exported => exact ⟨hSafe, Or.inr ⟨rfl, hPlaced exported rfl⟩⟩

/-- No file of a receive on Android is lost, and no document of the provider is touched.
What was sent is what is staged; whatever the provider has more than before is below the
picked root; and in the end the whole staging directory is still there and an event says
so, or every staged file whose path is not blank is in the tree with its content, each as
a document of its own that was not there before, and the conflicts are those of the files
that another name was asked for. -/
theorem android_receive_loses_nothing (hLawful : provider.Lawful) (display : Path → String)
    {device : FileSystem (List UInt8)} {staging : Path} {outcomes : Nat → Outcome (List UInt8)}
    {collection : List (String × List UInt8)} {stagingDir : StagingDir} (hTree : IsTree device)
    (hEmpty : ∀ rel, rel ≠ [] → device (staging ++ rel) = none)
    (hDone : (exportToDirectory display outcomes device staging collection).2 = none)
    (hWalk : Walked (exportToDirectory display outcomes device staging collection).1.fs staging
      stagingDir.files)
    (treeUri : Option String) (start : State) (remains : StagedFile → Bool) :
    let final := finalizeAndroidReceive provider treeUri stagingDir start remains
    (stagingDir.files.map StagedFile.bytes).Perm (collection.map Prod.snd) ∧
    (∀ d doc, provider.documents start d = some doc →
      provider.documents final.tree.state d = some doc) ∧
    (∀ d, provider.documents final.tree.state d ≠ provider.documents start d →
      ∃ root path, PickedRoot provider start treeUri root ∧ path ≠ [] ∧
        provider.At final.tree.state root path d) ∧
    final.tree.targets.Nodup ∧ (∀ t ∈ final.tree.targets, provider.documents start t = none) ∧
    (final.staged = stagingDir.files ∧ final.fallback ≠ none ∨
      final.fallback = none ∧ ∃ root placed, PickedRoot provider start treeUri root ∧
        TreePlaced provider root final.tree (stagingDir.files.filter StagedFile.exported)
          placed) := by
  intro final
  refine ⟨hWalk.perm_sent hTree hEmpty hDone, ?_⟩
  have hSome : ∀ file ∈ stagingDir.files, file.relative ≠ [] := fun file hFile =>
    ((hWalk.mem_iff file).mp hFile).1
  rcases finalizeAndroidReceive_cases hLawful hSome treeUri start remains with
    ⟨hState, hStaged⟩ | ⟨root, hPicked, hSafe, hEnd⟩
  · have hSame : final.tree = ⟨start, [], []⟩ := hState
    rw [hSame]
    exact ⟨fun _ _ h => h, fun _ h => absurd rfl h, List.nodup_nil, fun t ht => (by cases ht),
      Or.inl hStaged⟩
  · refine ⟨hSafe.adds.kept, fun d hChanged => ?_, hSafe.nodup, fun t ht => (hSafe.new t ht).1, ?_⟩
    · obtain ⟨path, hPath, hAt⟩ := hSafe.adds.changed hChanged
      exact ⟨root, path, hPicked, hPath, hAt⟩
    · rcases hEnd with hStaged | ⟨hNone, placed, hFiles⟩
      · exact Or.inl hStaged
      · exact Or.inr ⟨hNone, root, placed, hPicked, hFiles⟩

end Finalizing

end Receive

section

/-- A picked tree in which a name is taken. -/
private def takenTree : List (Document Nat) :=
  [⟨none, "d", .dir⟩, ⟨some 0, "a", .file [7]⟩]

private def stagedTwo : List StagedFile := [⟨["a"], [1]⟩, ⟨["q?"], [2]⟩]

private theorem walked_stagedTwo :
    Walked (exportToDirectory joinSlash (fun _ => .done)
      (fun _ => none : FileSystem (List UInt8)) ["s"] [("a", [1]), ("q?", [2])]).1.fs ["s"]
      stagedTwo := by
  have hTree : IsTree (fun _ => none : FileSystem (List UInt8)) := fun _ _ _ h => (by cases h)
  have hDone : (exportToDirectory joinSlash (fun _ => .done)
      (fun _ => none : FileSystem (List UInt8)) ["s"] [("a", [1]), ("q?", [2])]).2 = none := by
    decide
  refine ⟨by decide, fun file => ⟨fun h => ?_, fun h => ?_⟩⟩
  · rcases List.mem_pair.mp h with rfl | rfl
    · decide
    · decide
  · obtain ⟨hRel, hThere⟩ := h
    have hTarget := (exported_files_iff hTree (fun _ _ => rfl) hDone file.relative).mp
      ⟨hRel, file.bytes, hThere⟩
    obtain ⟨relative, bytes⟩ := file
    have hOnly : ["s"] ++ relative ∈ [["s", "a"], ["s", "q?"]] := hTarget
    have hEither : relative = ["a"] ∨ relative = ["q?"] := by simpa using hOnly
    rcases hEither with rfl | rfl
    · have hBytes : some (Entry.file [1]) = some (Entry.file bytes) := hThere
      obtain rfl : [1] = bytes := by simpa using hBytes
      exact List.mem_cons_self
    · have hBytes : some (Entry.file [2]) = some (Entry.file bytes) := hThere
      obtain rfl : [2] = bytes := by simpa using hBytes
      exact List.mem_cons_of_mem _ List.mem_cons_self

/-- The first name is taken, and the provider has another one for the second; only the
first is a conflict. -/
theorem android_receive_loses_nothing_renamed :
    let final := finalizeAndroidReceive (DocumentProvider.listed "content://d")
      (some " content://d ") ⟨"/s", true, stagedTwo⟩ takenTree (fun _ => false)
    final.tree.state = takenTree ++
        [⟨some 0, "a (1)", .file [1]⟩, ⟨some 0, "q_", .file [2]⟩] ∧
      final.tree.targets.Nodup ∧ final.tree.conflicts = [⟨"a", "a (1)"⟩] ∧ final.staged = [] := by
  have hTree : IsTree (fun _ => none : FileSystem (List UInt8)) := fun _ _ _ h => (by cases h)
  have hReceived := @android_receive_loses_nothing _ _ (DocumentProvider.listed "content://d")
    (DocumentProvider.listed_lawful "content://d") joinSlash _ _ _ _ ⟨"/s", true, stagedTwo⟩ hTree
    (fun _ _ => rfl) (by decide) walked_stagedTwo (some " content://d ") takenTree (fun _ => false)
  exact ⟨by decide +kernel, hReceived.2.2.2.1, by decide +kernel, by decide +kernel⟩

end

end AltSendme.Android
