import AltSendme.Files.ExportSafety

/-! Collections with a name that `get_export_path` rejects. Names are checked in
the loop that exports, so the files before the first rejected name are on disk
when the error is returned. -/
namespace AltSendme.Files

section
variable {Content : Type}

/-- `create_dir_all` cannot pass a file. -/
def Blocked (fs : FileSystem Content) (path : Path) : Prop :=
  ∃ p, p <+: path ∧ (fs p).any Entry.isFile = true

/-- The directory and those above it are there. -/
def Complete (fs : FileSystem Content) (path : Path) (made : Nat) : Prop :=
  ∀ p, p <+: path → p.length < made → (fs p).isSome = true

/-- The system calls for a file at `target` fail and leave nothing behind. -/
def LeavesNothing (fs : FileSystem Content) (target : Path) : Outcome Content → Prop
  | .done => Blocked fs target.dropLast
  | .mkdirFails made => Complete fs target.dropLast made
  | .exportFails left => Blocked fs target.dropLast ∨
      (left = none ∧ Complete fs target.dropLast target.length)

/-- The round of one file ends before anything was made or written: its name is
rejected, or it has too many conflicts, or its system calls fail at once. -/
def FailsAtOnce (display : Path → String) (fs : FileSystem Content) (outputDir : Path)
    (file : String × Content) (outcome : Outcome Content) : Prop :=
  match getExportPath outputDir file.1 with
  | .error _ => True
  | .ok desired =>
      match chooseTarget display fs desired with
      | .error _ => True
      | .ok (target, _) => LeavesNothing fs target outcome

/-- The export returns an error and the file system is as it was. -/
def Untouched (display : Path → String) (outcomes : Nat → Outcome Content)
    (fs : FileSystem Content) (outputDir : Path) (collection : List (String × Content)) : Prop :=
  (exportToDirectory display outcomes fs outputDir collection).2 ≠ none ∧
    (exportToDirectory display outcomes fs outputDir collection).1.fs = fs

theorem createDirAll_eq_none {fs : FileSystem Content} {path : Path} :
    createDirAll fs path = none ↔ Blocked fs path := by
  rw [createDirAll, Blocked]
  split
  · next h => simpa using h
  · next h => simpa using h

theorem makeDirs_eq_self {fs : FileSystem Content} {path : Path} {made : Nat} :
    makeDirs fs path made = fs ↔ Complete fs path made := by
  constructor
  · intro h p hPrefix hLength
    by_contra hNone
    have hMade : makeDirs fs path made p = some .dir :=
      if_pos ⟨by simpa using hNone, hPrefix, hLength⟩
    rw [h] at hMade
    simp [hMade] at hNone
  · intro h
    funext p
    rw [makeDirs, if_neg]
    rintro ⟨hNone, hPrefix, hLength⟩
    have hThere := h p hPrefix hLength
    rw [hNone] at hThere
    cases hThere

variable {display : Path → String} {outputDir : Path} {s : Export Content} {p : Path}
  {content : Content}

theorem file_of_createDirAll {fs made : FileSystem Content} {dir : Path}
    (hDirs : createDirAll fs dir = some made) (h : fs p = some (.file content)) :
    made p = some (.file content) := by
  obtain rfl := createDirAll_eq_some hDirs
  exact makeDirs_file h _ _

/-- A write at a free path keeps every file. -/
theorem writeTarget_kept {target : Path} (hFree : s.fs target = none)
    (h : s.fs p = some (.file content)) (name : String) (new : Content)
    (outcome : Outcome Content) :
    (writeTarget s name new target outcome).1.fs p = some (.file content) := by
  have hOther : p ≠ target := by
    rintro rfl
    rw [hFree] at h
    cases h
  cases outcome with
  | mkdirFails made => exact makeDirs_file h _ _
  | done =>
      simp only [writeTarget]
      cases hDirs : createDirAll s.fs target.dropLast with
      | none => exact h
      | some made => exact (Function.update_of_ne hOther _ _).trans (file_of_createDirAll hDirs h)
  | exportFails left =>
      simp only [writeTarget]
      cases hDirs : createDirAll s.fs target.dropLast with
      | none => exact h
      | some made => exact (Function.update_of_ne hOther _ _).trans (file_of_createDirAll hDirs h)

theorem exportFile_kept (h : s.fs p = some (.file content)) (file : String × Content)
    (outcome : Outcome Content) :
    (exportFile display outputDir s file outcome).1.fs p = some (.file content) := by
  rw [exportFile]
  split
  · exact h
  · split
    · exact h
    · next hChoice =>
        exact @writeTarget_kept _ { s with conflicts := s.conflicts ++ _ } p content _
          (chooseTarget_eq_ok hChoice).1 h _ _ _

theorem exportFiles_kept (h : s.fs p = some (.file content)) (outcomes : Nat → Outcome Content)
    (files : List (String × Content)) :
    (exportFiles display outputDir outcomes s files).1.fs p = some (.file content) := by
  induction files generalizing s outcomes with
  | nil => exact h
  | cons file rest ih =>
      have hOne := @exportFile_kept _ display outputDir _ _ _ h file (outcomes 0)
      rw [exportFiles]
      split
      · next hEq =>
          rw [hEq] at hOne
          exact hOne
      · next hEq =>
          rw [hEq] at hOne
          exact ih hOne _

/-- No export gets past a rejected name. -/
theorem exportFiles_rejected {files : List (String × Content)}
    (h : ∃ file ∈ files, ∃ message, getExportPath outputDir file.1 = .error message)
    (outcomes : Nat → Outcome Content) :
    (exportFiles display outputDir outcomes s files).2 ≠ none := by
  induction files generalizing s outcomes with
  | nil =>
      obtain ⟨file, hMem, _⟩ := h
      cases hMem
  | cons file rest ih =>
      rw [exportFiles]
      split
      · simp
      · next hEq =>
          obtain ⟨bad, hMem, message, hBad⟩ := h
          rcases List.mem_cons.mp hMem with rfl | hRest
          · rw [exportFile, hBad] at hEq
            cases hEq
          · exact ih ⟨bad, hRest, message, hBad⟩ _

/-- A round that ends without an error has put the file where nothing was. -/
theorem exportFile_done {file : String × Content} {outcome : Outcome Content}
    (h : (exportFile display outputDir s file outcome).2 = none) :
    ∃ target, s.fs target = none ∧
      (exportFile display outputDir s file outcome).1.fs target = some (.file file.2) := by
  rw [exportFile] at h ⊢
  split at h
  · cases h
  · split at h
    · cases h
    · next target conflict hChoice =>
        refine ⟨target, (chooseTarget_eq_ok hChoice).1, ?_⟩
        cases outcome with
        | mkdirFails made => cases h
        | done =>
            simp only [writeTarget] at h ⊢
            cases hDirs : createDirAll s.fs target.dropLast with
            | none => simp [hDirs] at h
            | some made => simp
        | exportFails left =>
            simp only [writeTarget] at h
            cases hDirs : createDirAll s.fs target.dropLast with
            | none => simp [hDirs] at h
            | some made => simp [hDirs] at h

/-- How a write ends that fails at once, and one that does not. -/
theorem writeTarget_untouched_iff {target : Path} (hFree : s.fs target = none)
    (hTarget : target ≠ []) (name : String) (new : Content) (outcome : Outcome Content) :
    ((writeTarget s name new target outcome).2 ≠ none ∧
        (writeTarget s name new target outcome).1.fs = s.fs) ↔
      LeavesNothing s.fs target outcome := by
  cases outcome with
  | mkdirFails made => simp [writeTarget, LeavesNothing, makeDirs_eq_self]
  | done =>
      simp only [writeTarget, LeavesNothing, ← createDirAll_eq_none]
      cases hDirs : createDirAll s.fs target.dropLast with
      | none => simp
      | some made => simp
  | exportFails left =>
      simp only [writeTarget, LeavesNothing, ← createDirAll_eq_none]
      cases hDirs : createDirAll s.fs target.dropLast with
      | none => simp
      | some made =>
          obtain rfl := createDirAll_eq_some hDirs
          simp only [reduceCtorEq, not_false_eq_true, ne_eq, true_and, false_or]
          have hLength : target.dropLast.length + 1 = target.length := by
            rw [List.length_dropLast]
            exact Nat.sub_add_cancel (List.length_pos_iff.mpr hTarget)
          have hNew : makeDirs s.fs target.dropLast target.length target = none := by
            rw [makeDirs, if_neg, hFree]
            exact fun h => absurd h.2.2 (lt_irrefl _)
          rw [hLength, ← makeDirs_eq_self]
          constructor
          · intro h
            have hLeft : left = none := by simpa [hFree] using congrFun h target
            rw [hLeft, Option.map_none, ← hNew, Function.update_eq_self] at h
            exact ⟨hLeft, h⟩
          · rintro ⟨rfl, h⟩
            rw [Option.map_none, ← hNew, Function.update_eq_self, h]

/-- One round, seen from outside. -/
theorem exportFile_untouched_iff (file : String × Content) (outcome : Outcome Content) :
    ((exportFile display outputDir s file outcome).2 ≠ none ∧
        (exportFile display outputDir s file outcome).1.fs = s.fs) ↔
      FailsAtOnce display s.fs outputDir file outcome := by
  rw [exportFile, FailsAtOnce]
  cases hPath : getExportPath outputDir file.1 with
  | error message => simp
  | ok desired =>
      dsimp only
      cases hChoice : chooseTarget display s.fs desired with
      | error e => simp
      | ok choice =>
          obtain ⟨target, conflict⟩ := choice
          obtain ⟨hValid, rfl⟩ := getExportPath_eq_ok.mp hPath
          obtain ⟨hFree, -, hPlace⟩ := chooseTarget_eq_ok hChoice
          have hTarget : target ≠ [] := by
            obtain ⟨rel, hRel, -, rfl⟩ := strictlyBelow_of_choice hValid hPlace
            simp [hRel]
          exact @writeTarget_untouched_iff _ { s with conflicts := s.conflicts ++ conflict } _
            hFree hTarget file.1 file.2 outcome

/-- A collection with a rejected name leaves everything as it was exactly when
the round of its first file fails at once. -/
theorem rejected_collection_untouched_iff (display : Path → String)
    (outcomes : Nat → Outcome Content) (fs : FileSystem Content) (outputDir : Path)
    (file : String × Content) (rest : List (String × Content))
    (hRejected : ∃ bad ∈ file :: rest, ∃ message, getExportPath outputDir bad.1 = .error message) :
    Untouched display outcomes fs outputDir (file :: rest) ↔
      FailsAtOnce display fs outputDir file (outcomes 0) := by
  have hError := @exportFiles_rejected _ display outputDir ⟨fs, [], []⟩ _ hRejected outcomes
  have hRound := @exportFile_untouched_iff _ display outputDir ⟨fs, [], []⟩ file (outcomes 0)
  rw [← hRound, Untouched, exportToDirectory]
  rw [exportFiles] at hError ⊢
  cases hOne : exportFile display outputDir ⟨fs, [], []⟩ file (outcomes 0) with
  | mk s' error =>
      cases error with
      | some e => simp
      | none =>
          have hDone := @exportFile_done _ display outputDir ⟨fs, [], []⟩ file (outcomes 0)
          rw [hOne] at hDone
          obtain ⟨target, hFree, hThere⟩ := hDone rfl
          refine ⟨fun h => absurd h.2 ?_, fun h => absurd rfl h.1⟩
          intro hSame
          have hKept := @exportFiles_kept _ display outputDir s' _ _ hThere
            (fun i => outcomes (i + 1)) rest
          dsimp only at hSame hFree
          rw [hSame, hFree] at hKept
          cases hKept

end

section
private def onlyOut : FileSystem Nat := fun p => if p = [] ∨ p = ["out"] then some .dir else none

private theorem colon_rejected : getExportPath ["out"] "b:c" = .error "contains colon" := by decide

theorem rejected_collection_untouched_iff_first :
    Untouched joinSlash (fun _ => .done) onlyOut ["out"] [("b:c", 2), ("a", 1)] := by
  refine (rejected_collection_untouched_iff joinSlash (fun _ => .done) onlyOut ["out"] _ _
    ⟨("b:c", 2), by simp, _, colon_rejected⟩).mpr ?_
  rw [FailsAtOnce, colon_rejected]
  trivial

/-- The file before the rejected name stays, and a retry numbers it. -/
theorem rejected_collection_leaves_file :
    (∃ message, getExportPath ["out"] "b:c" = .error message) ∧
      (let (final, error) := exportToDirectory joinSlash (fun _ => .done) onlyOut ["out"]
        [("a", 1), ("b:c", 2)]
      error = some (.badName "contains colon") ∧ final.fs ["out", "a"] = some (.file 1) ∧
        (exportToDirectory joinSlash (fun _ => .done) final.fs ["out"]
          [("a", 1), ("b:c", 2)]).1.targets = [["out", "a (1)"]]) ∧
      ¬Untouched joinSlash (fun _ => .done) onlyOut ["out"] [("a", 1), ("b:c", 2)] := by
  refine ⟨⟨_, colon_rejected⟩, by decide, fun h => ?_⟩
  have hSame := congrFun h.2 ["out", "a"]
  revert hSame
  decide

end

end AltSendme.Files
