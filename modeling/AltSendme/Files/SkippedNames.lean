import AltSendme.Files.ImportTiming

/-! Files whose names `canonicalized_path_to_string` refuses. The walk of a
directory skips what it cannot read, and the first name it cannot take ends the
whole import. -/
namespace AltSendme.Files
open Listing (sortByKey)

section
variable {Hash : Type}

/-- What a file below a directory would be collected as. -/
def collectedName (rootName : String) (rel : List FileName) : Except ImportError String :=
  canonicalizedPathToString
    (.normal (.utf8 rootName) :: rel.map fun name => .normal name.val) true

/-- The path of a file below an input is one that names a file of a collection. -/
def InputPath.Names (path : InputPath Hash) (rel : List FileName) : Prop :=
  (collectedName path.stem rel).isOk = true

instance (path : InputPath Hash) (rel : List FileName) : Decidable (path.Names rel) :=
  inferInstanceAs (Decidable (_ = true))

/-- The file under its name, if it has one and its bytes can be read. -/
def namedFile (rootName : String) (found : List FileName × Option (Blob Hash)) :
    Option (String × Blob Hash) :=
  match collectedName rootName found.1 with
  | .ok name => found.2.map fun blob => (name, blob)
  | .error _ => none

/-- The files of a directory, those without an acceptable name skipped. -/
def InputPath.namedFiles (path : InputPath Hash) : List (String × Blob Hash) :=
  (path.found.walk []).filterMap (namedFile path.stem)

/-- The import of this input holds its named files and no others. -/
def SkipsUnnamed (arrival : Arrival Hash) (path : InputPath Hash) : Prop :=
  ∃ total collection, importPaths arrival [path] = .ok (total, collection) ∧
    collection.Perm (path.namedFiles.map (Prod.map id Blob.hash))

variable {path : InputPath Hash} {entries : List (FileName × FileTree Hash)}

theorem collectPathFiles_dir (hFound : path.found = .dir entries) :
    collectPathFiles path.found path.stem = (path.found.walk []).mapM fun found =>
      (collectedName path.stem found.1).map fun safe => (safe, found.2) := by
  rw [hFound, collectPathFiles, FileTree.walk]
  refine congrArg (fun f => (walkEntries [] entries).mapM f) (funext fun found => ?_)
  change (collectedName path.stem found.1 >>= _) = _
  cases collectedName path.stem found.1 <;> rfl

/-- A directory imports when it can name each of its files, all of them read. -/
theorem imports_of_named (hFound : path.found = .dir entries)
    (hRead : ∀ found ∈ path.found.walk [], found.2.isSome = true)
    (hNamed : ∀ found ∈ path.found.walk [], path.Names found.1) :
    path.Imports ∧ path.added = path.namedFiles := by
  have hEach : ∀ found ∈ path.found.walk [], ∃ name blob,
      collectedName path.stem found.1 = .ok name ∧ found.2 = some blob := by
    intro found hMem
    obtain ⟨blob, hBlob⟩ := Option.isSome_iff_exists.mp (hRead found hMem)
    have hName := hNamed found hMem
    rw [InputPath.Names] at hName
    cases hText : collectedName path.stem found.1 with
    | error e =>
        rw [hText] at hName
        cases hName
    | ok name => exact ⟨name, blob, rfl, hBlob⟩
  obtain ⟨files, hFiles, hAdded⟩ : ∃ files, ((path.found.walk []).mapM fun found =>
      (collectedName path.stem found.1).map fun safe => (safe, found.2)) = .ok files ∧
        addFiles files = .ok path.namedFiles := by
    rw [InputPath.namedFiles]
    generalize path.found.walk [] = walked at hEach
    induction walked with
    | nil => exact ⟨[], rfl, rfl⟩
    | cons found rest ih =>
        rw [List.forall_mem_cons] at hEach
        obtain ⟨name, blob, hName, hBlob⟩ := hEach.1
        obtain ⟨files, hFiles, hAdded⟩ := ih hEach.2
        have hHead : namedFile path.stem found = some (name, blob) := by
          rw [namedFile, hName, hBlob]
          rfl
        refine ⟨(name, found.2) :: files, ?_, ?_⟩
        · rw [List.mapM_cons, hName, hFiles]
          rfl
        · rw [addFiles, List.mapM_cons, hBlob, ← addFiles, hAdded, List.filterMap_cons_some hHead]
          rfl
  apply InputPath.imports_of_eq_ok
  rw [collectPathFiles_dir hFound, hFiles]
  exact hAdded

/-- A successful `mapM` has a result for each element of the list. -/
theorem ok_of_mem_mapM {ε α β : Type} {f : α → Except ε β} {xs : List α} {ys : List β}
    (h : xs.mapM f = .ok ys) {x : α} (hx : x ∈ xs) : ∃ y, f x = .ok y := by
  have hEach := forall₂_of_mapM h
  clear h
  induction hEach with
  | nil => cases hx
  | cons hOne _ ih =>
      rcases List.mem_cons.mp hx with rfl | hRest
      · exact ⟨_, hOne⟩
      · exact ih hRest

theorem InputPath.Imports.named (h : path.Imports) (hFound : path.found = .dir entries) :
    ∀ found ∈ path.found.walk [], path.Names found.1 := by
  obtain ⟨files, hFiles, -⟩ := h.collects
  rw [collectPathFiles_dir hFound] at hFiles
  intro found hMem
  obtain ⟨file, hOne⟩ := ok_of_mem_mapM hFiles hMem
  rw [InputPath.Names]
  cases hText : collectedName path.stem found.1 with
  | error e =>
      rw [hText] at hOne
      cases hOne
  | ok name => rfl

/-- The import of a readable directory with at least one named file holds just
the named files exactly when there are no others to skip. -/
theorem import_skips_iff (arrival : Arrival Hash) (hFound : path.found = .dir entries)
    (hDistinct : path.Distinct) (hRead : ∀ found ∈ path.found.walk [], found.2.isSome = true)
    (hSome : path.namedFiles ≠ []) :
    SkipsUnnamed arrival path ↔ ∀ found ∈ path.found.walk [], path.Names found.1 := by
  constructor
  · rintro ⟨total, collection, hImport, -⟩
    obtain ⟨hImports, -⟩ := importPaths_eq_ok_iff.mp hImport
    exact (hImports path List.mem_cons_self).named hFound
  · intro hNamed
    obtain ⟨hImports, hAdded⟩ := imports_of_named hFound hRead hNamed
    have hOne : [path].flatMap InputPath.added = path.namedFiles := by
      rw [List.flatMap_singleton, hAdded]
    have hOnly : ∀ other ∈ [path], other.Imports := by
      intro other hOther
      rwa [List.mem_singleton.mp hOther]
    refine ⟨_, _, importPaths_eq_ok_iff.mpr ⟨hOnly, hOne ▸ hSome, rfl⟩, ?_⟩
    have hArrived : ((arrived arrival 0 [path]).map (Prod.map id Blob.hash)).Perm
        (path.namedFiles.map (Prod.map id Blob.hash)) :=
      (hOne ▸ arrived_perm arrival 0 [path]).map _
    have hNames : (((arrived arrival 0 [path]).map (Prod.map id Blob.hash)).map Prod.fst).Nodup := by
      rw [(hArrived.map Prod.fst).nodup_iff, List.map_map, ← hAdded]
      exact hImports.names_nodup hDistinct
    have hSort : (sortByKey (numberFrom [] ((arrived arrival 0 [path]).map
        (Prod.map id Blob.hash)))).Perm _ := List.perm_insertionSort _ _
    refine hSort.trans ?_
    have hKept : (fun file : String × Hash =>
        (nthName file.1 (([] : List String).count file.1), file.2)) = id := rfl
    rw [numberFrom_of_nodup hNames, hKept, List.map_id]
    exact hArrived

end

section
private def walked : Arrival Nat := .found

private def entry (text : String) (h : OsName.IsFileName (.utf8 text)) (hash : Nat) :
    FileName × FileTree Nat :=
  (⟨.utf8 text, h⟩, .file (some ⟨hash, 5⟩))

private def testdir (entries : List (FileName × FileTree Nat)) : InputPath Nat :=
  ⟨some ⟨.utf8 "testdir", by decide⟩, .dir entries⟩

private def good : FileName × FileTree Nat := entry "good.txt" (by decide) 1

private def bad : FileName × FileTree Nat := entry "bad\\file.txt" (by decide) 2

theorem import_skips_iff_good : SkipsUnnamed walked (testdir [good]) :=
  (import_skips_iff walked rfl (by decide) (by decide) (by decide)).mpr (by decide)

/-- One backslash in the name of one file, and nothing is imported. -/
theorem import_fails_on_backslash :
    (testdir [good, bad]).Distinct ∧
      (testdir [good, bad]).namedFiles = [("testdir/good.txt", ⟨1, 5⟩)] ∧
      importPaths walked [testdir [good, bad]] = .error
        (.invalidPathComponent (.normal (.utf8 "bad\\file.txt"))) ∧
      ¬SkipsUnnamed walked (testdir [good, bad]) := by
  have hFails : importPaths walked [testdir [good, bad]] = .error
      (.invalidPathComponent (.normal (.utf8 "bad\\file.txt"))) := by decide
  refine ⟨by decide, by decide, hFails, ?_⟩
  rintro ⟨total, collection, hImport, -⟩
  rw [hFails] at hImport
  cases hImport

end

end AltSendme.Files
