import AltSendme.Files.PlacedFiles
import AltSendme.Files.SharedTrees

/-! A transfer into any directory. Names may be numbered by the import and again
by the export, and files may stand where others were meant to go; as long as the
export returns no error, each file that was sent is somewhere of its own. -/
namespace AltSendme.Files
open Listing (sortByKey)

section
variable {Content : Type} {display : Path → String} {outputDir : Path}

theorem writeTarget_ends {s : Export Content} {name : String} {content : Content} {target : Path}
    {outcome : Outcome Content} (h : (writeTarget s name content target outcome).2 = none) :
    (writeTarget s name content target outcome).1.targets = s.targets ++ [target] ∧
      (writeTarget s name content target outcome).1.fs target = some (.file content) := by
  cases outcome with
  | mkdirFails made => cases h
  | done =>
      simp only [writeTarget] at h ⊢
      cases hDirs : createDirAll s.fs target.dropLast with
      | none =>
          rw [hDirs] at h
          cases h
      | some made => exact ⟨rfl, Function.update_self _ _ _⟩
  | exportFails left =>
      simp only [writeTarget] at h
      cases hDirs : createDirAll s.fs target.dropLast with
      | none =>
          rw [hDirs] at h
          cases h
      | some made =>
          rw [hDirs] at h
          cases h

/-- A round that ends without an error. -/
theorem exportFile_ends {s : Export Content} {file : String × Content} {outcome : Outcome Content}
    (h : (exportFile display outputDir s file outcome).2 = none) :
    ∃ target, (exportFile display outputDir s file outcome).1.targets = s.targets ++ [target] ∧
      (exportFile display outputDir s file outcome).1.fs target = some (.file file.2) := by
  rw [exportFile] at h ⊢
  cases hPath : getExportPath outputDir file.1 with
  | error message =>
      rw [hPath] at h
      cases h
  | ok desired =>
      rw [hPath] at h
      dsimp only at h ⊢
      cases hChoice : chooseTarget display s.fs desired with
      | error e =>
          rw [hChoice] at h
          cases h
      | ok choice =>
          rw [hChoice] at h
          exact ⟨choice.1, writeTarget_ends h⟩

/-- What was written stays. -/
theorem Holds.exportFile {s : Export Content} {done : List (String × Content)}
    (hHeld : Holds s.fs s.targets done) {file : String × Content} {outcome : Outcome Content}
    (h : (Files.exportFile display outputDir s file outcome).2 = none) :
    Holds (Files.exportFile display outputDir s file outcome).1.fs
      (Files.exportFile display outputDir s file outcome).1.targets (done ++ [file]) := by
  obtain ⟨target, hTargets, hWritten⟩ := exportFile_ends h
  rw [hTargets]
  refine List.rel_append (hHeld.imp fun target old hOld => ?_) (.cons hWritten .nil)
  exact exportFile_kept hOld file outcome

theorem Holds.exportFiles {s : Export Content} {done rest : List (String × Content)}
    (hHeld : Holds s.fs s.targets done) {outcomes : Nat → Outcome Content}
    (h : (Files.exportFiles display outputDir outcomes s rest).2 = none) :
    Holds (Files.exportFiles display outputDir outcomes s rest).1.fs
      (Files.exportFiles display outputDir outcomes s rest).1.targets (done ++ rest) := by
  induction rest generalizing s done outcomes with
  | nil => simpa [Files.exportFiles] using hHeld
  | cons file rest ih =>
      rw [Files.exportFiles] at h ⊢
      cases hOne : Files.exportFile display outputDir s file (outcomes 0) with
      | mk next error =>
          rw [hOne] at h
          cases error with
          | some e => cases h
          | none =>
              have hNext := @Holds.exportFile _ display outputDir s done hHeld file (outcomes 0)
              rw [hOne] at hNext
              simpa using ih (hNext rfl) h

/-- Above everything that is there stands a directory, so nothing stands below a file. -/
def IsTree (fs : FileSystem Content) : Prop :=
  ∀ p q : Path, q ≠ [] → (fs (p ++ q)).isSome = true → fs p = some .dir

theorem IsTree.write {fs made : FileSystem Content} (hTree : IsTree fs) {target : Path}
    (hDirs : createDirAll fs target.dropLast = some made) (hFree : fs target = none)
    (hTarget : target ≠ []) (content : Content) :
    IsTree (Function.update made target (some (.file content))) := by
  have hMade : ∀ p, p <+: target.dropLast → made p = some .dir := by
    intro p hp
    rw [createDirAll] at hDirs
    split at hDirs
    · cases hDirs
    · next hNoFile =>
        obtain rfl := Option.some.inj hDirs
        unfold makeDirs
        cases hEntry : fs p with
        | none => rw [if_pos ⟨rfl, hp, Nat.lt_succ_of_le hp.length_le⟩]
        | some entry =>
            rw [if_neg (fun h => (by cases h.1))]
            cases entry with
            | dir => rfl
            | file old =>
                refine absurd (List.any_eq_true.mpr ⟨p, (List.mem_inits _ _).mpr hp, ?_⟩) hNoFile
                rw [hEntry]
                rfl
  have hThere : ∀ p, (made p).isSome = true → (fs p).isSome = true ∨ p <+: target.dropLast := by
    intro p hSome
    rw [createDirAll_eq_some hDirs] at hSome
    exact (makeDirs_isSome fs target.dropLast p).mp hSome
  have hKept : ∀ p, fs p = some .dir → made p = some .dir := by
    intro p hDir
    rw [createDirAll_eq_some hDirs, makeDirs, if_neg (by rw [hDir]; simp), hDir]
  intro p q hq hSome
  have hOther : p ≠ target := by
    rintro rfl
    rw [Function.update_of_ne (by simpa using hq)] at hSome
    rcases hThere _ hSome with hOld | hAbove
    · rw [hTree p q hq hOld] at hFree
      cases hFree
    · have hLength := hAbove.length_le
      have hPos := List.length_pos_iff.mpr hTarget
      rw [List.length_append, List.length_dropLast] at hLength
      omega
  rw [Function.update_of_ne hOther]
  by_cases hHere : p ++ q = target
  · refine hMade p ?_
    rw [← hHere, List.dropLast_append_of_ne_nil hq]
    exact List.prefix_append p _
  · rw [Function.update_of_ne hHere] at hSome
    rcases hThere _ hSome with hOld | hAbove
    · exact hKept p (hTree p q hq hOld)
    · exact hMade p ((List.prefix_append p q).trans hAbove)

theorem IsTree.exportFile {s : Export Content} (hTree : IsTree s.fs) {file : String × Content}
    {outcome : Outcome Content}
    (h : (Files.exportFile display outputDir s file outcome).2 = none) :
    IsTree (Files.exportFile display outputDir s file outcome).1.fs := by
  rw [Files.exportFile] at h ⊢
  cases hPath : getExportPath outputDir file.1 with
  | error message =>
      rw [hPath] at h
      cases h
  | ok desired =>
      rw [hPath] at h
      dsimp only at h ⊢
      cases hChoice : chooseTarget display s.fs desired with
      | error e =>
          rw [hChoice] at h
          cases h
      | ok choice =>
          obtain ⟨target, conflict⟩ := choice
          obtain ⟨hValid, rfl⟩ := getExportPath_eq_ok.mp hPath
          obtain ⟨hFree, -, hTarget⟩ := chooseTarget_eq_ok hChoice
          obtain ⟨rel, hRel, -, rfl⟩ := strictlyBelow_of_choice hValid hTarget
          rw [hChoice] at h
          dsimp only at h ⊢
          cases outcome with
          | mkdirFails made => cases h
          | exportFails left =>
              simp only [writeTarget] at h
              split at h
              · cases h
              · cases h
          | done =>
              simp only [writeTarget] at h ⊢
              cases hDirs : createDirAll s.fs (outputDir ++ rel).dropLast with
              | none =>
                  rw [hDirs] at h
                  cases h
              | some made => exact hTree.write hDirs hFree (by simp [hRel]) file.2

theorem IsTree.exportFiles {s : Export Content} (hTree : IsTree s.fs)
    {outcomes : Nat → Outcome Content} {files : List (String × Content)}
    (h : (Files.exportFiles display outputDir outcomes s files).2 = none) :
    IsTree (Files.exportFiles display outputDir outcomes s files).1.fs := by
  induction files generalizing s outcomes with
  | nil => exact hTree
  | cons file rest ih =>
      rw [Files.exportFiles] at h ⊢
      cases hOne : Files.exportFile display outputDir s file (outcomes 0) with
      | mk next error =>
          rw [hOne] at h
          cases error with
          | some e => cases h
          | none =>
              have hNext := @IsTree.exportFile _ display outputDir s hTree file (outcomes 0)
              rw [hOne] at hNext
              exact ih (hNext rfl) h

/-- What an export put into an empty directory is all that is there. -/
theorem exported_files_iff {fs : FileSystem Content} (hTree : IsTree fs)
    (hEmpty : ∀ rel, rel ≠ [] → fs (outputDir ++ rel) = none) {outcomes : Nat → Outcome Content}
    {collection : List (String × Content)}
    (h : (exportToDirectory display outcomes fs outputDir collection).2 = none) (rel : Path) :
    (rel ≠ [] ∧ ∃ content,
      (exportToDirectory display outcomes fs outputDir collection).1.fs (outputDir ++ rel) =
        some (.file content)) ↔
      outputDir ++ rel ∈ (exportToDirectory display outcomes fs outputDir collection).1.targets := by
  obtain ⟨hSafe, hExported⟩ :=
    (exported_nil display outputDir fs).exportFiles outcomes collection
  have hDone := hExported h
  have hHeld := @Holds.exportFiles _ display outputDir ⟨fs, [], []⟩ [] collection
    (.nil : Holds fs [] ([] : List (String × Content))) outcomes h
  constructor
  · rintro ⟨hRel, content, hFile⟩
    rcases (hDone.there _).mp (Option.isSome_of_eq_some hFile) with hOld | ⟨t, ht, hAbove⟩
    · rw [hEmpty rel hRel] at hOld
      cases hOld
    · obtain ⟨below, rfl⟩ := hAbove
      cases below with
      | nil => rwa [List.append_nil] at ht
      | cons part below =>
          have hFinal := @IsTree.exportFiles _ display outputDir ⟨fs, [], []⟩ hTree outcomes
            collection h
          obtain ⟨file, -, hTarget⟩ := hHeld.of_mem ht
          have hDir := hFinal (outputDir ++ rel) (part :: below) (List.cons_ne_nil _ _)
            (Option.isSome_of_eq_some hTarget)
          cases hDir.symm.trans hFile
  · intro ht
    obtain ⟨⟨below, hBelow, -, hSame⟩, -⟩ := hSafe.below _ ht
    obtain rfl := List.append_cancel_left hSame
    obtain ⟨file, -, hTarget⟩ := hHeld.of_mem ht
    exact ⟨hBelow, file.2, hTarget⟩

end

section
variable {Hash : Type}

theorem InputPath.Imports.blobs {path : InputPath Hash} (h : path.Imports) :
    (path.found.walk []).map Prod.snd = path.added.map fun file => some file.2 := by
  rw [← List.forall₂_eq_eq_eq, List.forall₂_map_left_iff, List.forall₂_map_right_iff]
  exact h.addedAs.imp fun _ _ hOne => hOne.1

/-- The hashes of a collection are those of the files that were found. -/
theorem hashes_perm {arrival : Arrival Hash} {paths : List (InputPath Hash)} {size : UInt64}
    {collection : Collection Hash} (hImport : importPaths arrival paths = .ok (size, collection)) :
    (collection.map fun entry => some entry.2).Perm
      (paths.flatMap fun path => (path.found.walk []).map fun found => found.2.map Blob.hash) := by
  obtain ⟨hImports, -, hBuilt⟩ := importPaths_eq_ok_iff.mp hImport
  obtain ⟨-, rfl⟩ := Prod.mk.inj hBuilt
  have hFound : (paths.flatMap fun path => (path.found.walk []).map fun found =>
      found.2.map Blob.hash) =
        (paths.flatMap InputPath.added).map fun file => some file.2.hash := by
    rw [List.map_flatMap]
    refine List.flatMap_congr fun path hPath => ?_
    have hBlobs := congrArg (List.map (Option.map Blob.hash)) (hImports path hPath).blobs
    rw [List.map_map, List.map_map] at hBlobs
    exact hBlobs
  have hSorted : (sortByKey (numberFrom [] ((arrived arrival 0 paths).map
      (Prod.map id Blob.hash)))).Perm _ := List.perm_insertionSort _ _
  have hValues := hSorted.map Prod.snd
  rw [values_numberFrom, List.map_map] at hValues
  rw [hFound]
  have hSome := (hValues.trans ((arrived_perm arrival 0 paths).map _)).map some
  rw [List.map_map, List.map_map] at hSome
  exact hSome

/-- Every file that was sent is at a target of its own, where nothing was. -/
theorem transfer_loses_nothing {Content : Type} (display : Path → String) (fetch : Hash → Content)
    {arrival : Arrival Hash} {paths : List (InputPath Hash)} {size : UInt64}
    {collection : Collection Hash} (hImport : importPaths arrival paths = .ok (size, collection))
    (outcomes : Nat → Outcome Content) (fs : FileSystem Content) (outputDir : Path) :
    let (final, error) := exportToDirectory display outcomes fs outputDir
      (collection.map (Prod.map id fetch))
    error = none →
      (final.targets.map final.fs).Perm (paths.flatMap fun path =>
        (path.found.walk []).map fun found =>
          found.2.map fun blob => .file (fetch blob.hash)) ∧
        final.targets.Nodup ∧ ∀ target ∈ final.targets, fs target = none := by
  intro hNone
  obtain ⟨hSafe, -⟩ := (exported_nil display outputDir fs).exportFiles outcomes
    (collection.map (Prod.map id fetch))
  have hHeld : Holds fs [] ([] : List (String × Content)) := .nil
  have hFinal := @Holds.exportFiles _ display outputDir ⟨fs, [], []⟩ [] _ hHeld outcomes hNone
  refine ⟨?_, hSafe.nodup, fun target hTarget => (hSafe.below target hTarget).2⟩
  have hPerm := (hashes_perm hImport).map (Option.map fun hash => Entry.file (fetch hash))
  rw [List.map_map, List.map_flatMap] at hPerm
  have hWritten := hFinal.map_eq
  rw [List.nil_append, List.map_map] at hWritten
  show (List.map _ _).Perm _
  rw [hWritten]
  simpa only [List.map_map, Function.comp_def, Option.map_map, Option.map_some,
    Prod.map_snd] using hPerm

end

section

private theorem isFileName_twice : OsName.IsFileName (.utf8 "a") := by decide

private def twice : InputPath Nat :=
  ⟨some ⟨.utf8 "a", isFileName_twice⟩, .file (some ⟨1, 10⟩)⟩

private def takenOut : FileSystem Nat := fun p =>
  if p = ["out"] then some .dir else if p = ["out", "a"] then some (.file 7) else none

/-- Two files of one name, and another under that name at the receiver. -/
theorem transfer_loses_nothing_twice :
    let (final, _) := exportToDirectory joinSlash (fun _ => .done) takenOut ["out"]
      [("a", 1), ("a (2)", 1)]
    final.targets = [["out", "a (1)"], ["out", "a (2)"]] ∧
      (final.targets.map final.fs).Perm [some (.file 1), some (.file 1)] := by
  have hImport : importPaths Arrival.found [twice, twice] =
      .ok (20, [("a", 1), ("a (2)", 1)]) := by decide
  have hLost := transfer_loses_nothing joinSlash id hImport (fun _ => .done) takenOut ["out"]
    (by decide)
  exact ⟨by decide, hLost.1⟩

end

end AltSendme.Files
