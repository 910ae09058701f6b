import AltSendme.Files.Export
import Mathlib.Data.List.Nodup

/-! An export writes only below its directory and only where nothing was. Every
step adds to the file system and removes nothing, so a path that is free when a
file is placed was free from the start. -/
namespace AltSendme.Files

/-- Below the directory by components that name files. -/
def StrictlyBelow (outputDir target : Path) : Prop :=
  ∃ rel : Path, rel ≠ [] ∧ (∀ part ∈ rel, IsPathComponent part) ∧ target = outputDir ++ rel

section
variable {Content : Type}

/-- A path that an export into `fs` finds taken after it has written `earlier`:
something was there, or it is one of those targets or a directory above one. -/
def Taken (fs : FileSystem Content) (earlier : List Path) (requested : Path) : Prop :=
  (fs requested).isSome ∨ ∃ t ∈ earlier, requested <+: t

instance (fs : FileSystem Content) (earlier : List Path) (requested : Path) :
    Decidable (Taken fs earlier requested) := inferInstanceAs (Decidable (_ ∨ _))

/-- The conflicts of files that were requested and placed at these paths. -/
def expectedConflicts (display : Path → String) (fs : FileSystem Content) :
    List Path → List (Path × Path) → List ExportConflict
  | _, [] => []
  | earlier, (requested, used) :: rest =>
      (if Taken fs earlier requested then [⟨display requested, display used⟩] else []) ++
        expectedConflicts display fs (earlier ++ [used]) rest

/-- The path each file of a collection asks for. -/
def requestedPaths (outputDir : Path) (collection : List (String × Content)) : List Path :=
  collection.map fun file => outputDir ++ components file.1

theorem expectedConflicts_concat (display : Path → String) (fs : FileSystem Content)
    (requested used : Path) (earlier : List Path) (placed : List (Path × Path)) :
    expectedConflicts display fs earlier (placed ++ [(requested, used)]) =
      expectedConflicts display fs earlier placed ++
        if Taken fs (earlier ++ placed.map Prod.snd) requested then
          [⟨display requested, display used⟩] else [] := by
  induction placed generalizing earlier with
  | nil => simp [expectedConflicts]
  | cons pair placed ih =>
      obtain ⟨first, place⟩ := pair
      rw [List.cons_append, expectedConflicts, expectedConflicts, ih, List.append_assoc]
      simp

theorem makeDirs_isSome (fs : FileSystem Content) (path p : Path) :
    (makeDirs fs path (path.length + 1) p).isSome ↔ (fs p).isSome ∨ p <+: path := by
  rw [makeDirs]
  by_cases hPrefix : p <+: path
  · have hLength := hPrefix.length_le
    cases hEntry : fs p with
    | none => simp [hPrefix, Nat.lt_succ_of_le hLength]
    | some entry => simp
  · simp [hPrefix]

theorem makeDirs_file {fs : FileSystem Content} {p : Path} {content : Content}
    (h : fs p = some (.file content)) (path : Path) (made : Nat) :
    makeDirs fs path made p = some (.file content) := by
  simp [makeDirs, h]

theorem createDirAll_eq_some {fs fs' : FileSystem Content} {path : Path}
    (h : createDirAll fs path = some fs') : fs' = makeDirs fs path (path.length + 1) := by
  rw [createDirAll] at h
  split at h
  · cases h
  · exact (Option.some.inj h).symm

theorem findCandidate_eq_some {fs : FileSystem Content} {parent candidate : Path}
    {fileName : String} {left index : Nat}
    (h : findCandidate fs parent fileName left index = some candidate) :
    fs candidate = none ∧ ∃ i, candidate = parent ++ [candidateName fileName i] := by
  induction left generalizing index with
  | zero => cases h
  | succ left ih =>
      rw [findCandidate] at h
      split at h
      · exact ih h
      · next hFree =>
          obtain rfl := Option.some.inj h
          exact ⟨by simpa using hFree, index, rfl⟩

/-- The characters around the last dot are those of the name. -/
theorem splitExtension_mem {fileName ext : String} (h : (splitExtension fileName).2 = some ext)
    {c : Char} (hc : c ∈ (splitExtension fileName).1.toList ∨ c ∈ ext.toList) :
    c ∈ fileName.toList := by
  rw [splitExtension] at h hc
  split at h
  · cases h
  · next hDot =>
      rw [if_neg hDot] at hc
      obtain rfl := Option.some.inj h
      simp only [String.toList_ofList, List.mem_reverse] at hc
      rcases hc with hBefore | hAfter
      · exact List.mem_reverse.mp ((List.dropWhile_sublist _).mem ((List.drop_sublist _ _).mem hBefore))
      · exact List.mem_reverse.mp ((List.takeWhile_sublist _).mem hAfter)

/-- A candidate has the characters of the name, a number and a blank. -/
theorem candidateName_mem {fileName : String} {index : Nat} {c : Char}
    (h : c ∈ (candidateName fileName index).toList) :
    c ∈ fileName.toList ∨ c ∈ [' ', '(', ')', '.'] ∨ c ∈ Nat.toDigits 10 index := by
  rw [candidateName] at h
  split at h
  · next stem ext hSplit =>
      have hExt : (splitExtension fileName).2 = some ext := by rw [hSplit]
      have hOld (hc : c ∈ stem.toList ∨ c ∈ ext.toList) : c ∈ fileName.toList :=
        splitExtension_mem hExt (by rwa [hSplit])
      simp only [String.toList_append, toList_numbered, List.mem_append, List.mem_cons] at h
      rcases h with ((hStem | rfl | rfl | hDigit | hParen | hNil) | hDot) | hEnd
      · exact Or.inl (hOld (Or.inl hStem))
      · simp
      · simp
      · exact Or.inr (Or.inr hDigit)
      · simp [hParen]
      · cases hNil
      · have hc : c = '.' := by simpa using hDot
        simp [hc]
      · exact Or.inl (hOld (Or.inr hEnd))
  · simp only [toList_numbered, List.mem_append, List.mem_cons] at h
    rcases h with hName | rfl | rfl | hDigit | hParen | hNil
    · exact Or.inl hName
    · simp
    · simp
    · exact Or.inr (Or.inr hDigit)
    · simp [hParen]
    · cases hNil

theorem candidateName_paren (fileName : String) (index : Nat) :
    '(' ∈ (candidateName fileName index).toList := by
  rw [candidateName]
  split
  · simp [toList_numbered]
  · simp [toList_numbered]

/-- A candidate is a file name when the requested name is. -/
theorem IsPathComponent.candidateName {fileName : String} (h : IsPathComponent fileName)
    (index : Nat) : IsPathComponent (candidateName fileName index) := by
  have hParen := candidateName_paren fileName index
  have hAway (c : Char) (hName : c ∉ fileName.toList) (hDigit : c.isDigit = false)
      (hOther : c ∉ [' ', '(', ')', '.']) : c ∉ (Files.candidateName fileName index).toList := by
    intro hMem
    rcases candidateName_mem hMem with hOld | hNew | hCount
    · exact hName hOld
    · exact hOther hNew
    · exact not_isDigit_mem_toDigits hDigit index hCount
  refine ⟨?_, hAway _ h.noSlash (by decide) (by decide),
    hAway _ h.noBackslash (by decide) (by decide), hAway _ h.noColon (by decide) (by decide),
    ?_, ?_, hAway _ h.noNull (by decide) (by decide)⟩
  · intro hEq
    rw [hEq] at hParen
    exact absurd hParen (by decide)
  · intro hEq
    rw [hEq] at hParen
    exact absurd hParen (by decide)
  · intro hEq
    rw [hEq] at hParen
    exact absurd hParen (by decide)

/-- The target of a file: free, and the path asked for unless that was taken. -/
theorem chooseTarget_eq_ok {display : Path → String} {fs : FileSystem Content}
    {desired target : Path} {conflict : List ExportConflict}
    (h : chooseTarget display fs desired = .ok (target, conflict)) :
    fs target = none ∧
      (conflict = if (fs desired).isSome then [⟨display desired, display target⟩] else []) ∧
      (target = desired ∨
        ∃ i, target = desired.dropLast ++ [candidateName (desired.getLast?.getD "") i]) := by
  rw [chooseTarget] at h
  split at h
  · next hTaken =>
      cases hResolved : resolveConflictPath fs desired with
      | error e => simp [hResolved, bind, Except.bind] at h
      | ok resolved =>
          simp only [hResolved, bind, Except.bind, pure, Except.pure, Except.ok.injEq,
            Prod.mk.injEq] at h
          obtain ⟨rfl, rfl⟩ := h
          rw [resolveConflictPath] at hResolved
          split at hResolved
          · next candidate hFound =>
              obtain rfl := Except.ok.inj hResolved
              obtain ⟨hFree, hName⟩ := findCandidate_eq_some hFound
              exact ⟨hFree, by rw [if_pos hTaken], Or.inr hName⟩
          · cases hResolved
  · next hFree =>
      simp only [pure, Except.pure, Except.ok.injEq, Prod.mk.injEq] at h
      obtain ⟨rfl, rfl⟩ := h
      exact ⟨by simpa using hFree, by rw [if_neg hFree], Or.inl rfl⟩

theorem strictlyBelow_of_choice {outputDir target : Path} {name : String}
    (hValid : ∀ part ∈ components name, IsPathComponent part)
    (h : target = outputDir ++ components name ∨ ∃ i, target =
      (outputDir ++ components name).dropLast ++
        [candidateName ((outputDir ++ components name).getLast?.getD "") i]) :
    StrictlyBelow outputDir target := by
  obtain ⟨init, last, hEq⟩ := exists_components_eq name
  rcases h with rfl | ⟨i, rfl⟩
  · exact ⟨components name, components_ne_nil name, hValid, rfl⟩
  · rw [hEq] at hValid
    refine ⟨init ++ [candidateName last i], by simp, fun part hPart => ?_, ?_⟩
    · rcases List.mem_append.mp hPart with hInit | hLast
      · exact hValid part (List.mem_append_left _ hInit)
      · rw [List.mem_singleton.mp hLast]
        exact (hValid last (by simp)).candidateName i
    · rw [hEq, ← List.append_assoc, List.dropLast_concat, List.getLast?_concat, Option.getD_some,
        List.append_assoc]

/-- What holds of every run of the loop, also of one that an error ended. -/
structure Safe (outputDir : Path) (fs : FileSystem Content) (s : Export Content) : Prop where
  below : ∀ t ∈ s.targets, StrictlyBelow outputDir t ∧ fs t = none
  nodup : s.targets.Nodup
  kept : ∀ p content, fs p = some (.file content) → s.fs p = some (.file content)

/-- What also holds after the files `done`, when each has been written. -/
structure Exported (display : Path → String) (outputDir : Path) (fs : FileSystem Content)
    (done : List (String × Content)) (s : Export Content) : Prop where
  safe : Safe outputDir fs s
  there : ∀ p, (s.fs p).isSome ↔ Taken fs s.targets p
  length : s.targets.length = done.length
  conflicts : s.conflicts =
    expectedConflicts display fs [] ((requestedPaths outputDir done).zip s.targets)

section
variable {display : Path → String} {outputDir : Path} {fs : FileSystem Content}
  {done : List (String × Content)} {s : Export Content}

/-- A free path was free from the start and is no target. -/
theorem Exported.free (h : Exported display outputDir fs done s) {target : Path}
    (hFree : s.fs target = none) : fs target = none ∧ target ∉ s.targets := by
  have hNot : ¬Taken fs s.targets target := by
    rw [← h.there target, hFree]
    nofun
  refine ⟨?_, fun hMem => hNot (Or.inr ⟨target, hMem, List.prefix_rfl⟩)⟩
  by_contra hSome
  exact hNot (Or.inl (Option.isSome_iff_ne_none.mpr hSome))

/-- Another target at a free path, whatever was written there. -/
theorem Exported.write (h : Exported display outputDir fs done s) {target : Path}
    (hBelow : StrictlyBelow outputDir target) (hFree : s.fs target = none)
    {conflicts : List ExportConflict} (entry : Option (Entry Content)) (made : Nat) :
    Safe outputDir fs
      { fs := Function.update (makeDirs s.fs target.dropLast made) target entry
        targets := s.targets ++ [target], conflicts := conflicts } := by
  obtain ⟨hStart, hNew⟩ := h.free hFree
  refine ⟨fun t ht => ?_, ?_, fun p content hFile => ?_⟩
  · rcases List.mem_append.mp ht with hOld | hLast
    · exact h.safe.below t hOld
    · rw [List.mem_singleton.mp hLast]
      exact ⟨hBelow, hStart⟩
  · rw [← List.concat_eq_append, List.nodup_concat]
    exact ⟨hNew, h.safe.nodup⟩
  · have hKept := h.safe.kept p content hFile
    have hOther : p ≠ target := by
      rintro rfl
      rw [hFree] at hKept
      cases hKept
    dsimp only
    rw [Function.update_of_ne hOther]
    exact makeDirs_file hKept _ _

theorem prefix_dropLast_or_eq {p target : Path} (hTarget : target ≠ []) :
    p <+: target ↔ p <+: target.dropLast ∨ p = target := by
  conv_lhs => rw [← List.dropLast_append_getLast hTarget]
  rw [List.prefix_concat_iff, List.dropLast_append_getLast hTarget, or_comm]

/-- One more file has been written. -/
theorem Exported.wrote (h : Exported display outputDir fs done s) {name : String}
    {content : Content} {target : Path} (hBelow : StrictlyBelow outputDir target)
    (hFree : s.fs target = none) {conflict : List ExportConflict}
    (hConflict : conflict =
      if (s.fs (outputDir ++ components name)).isSome then
        [⟨display (outputDir ++ components name), display target⟩] else []) :
    Exported display outputDir fs (done ++ [(name, content)])
      { fs := Function.update (makeDirs s.fs target.dropLast (target.dropLast.length + 1)) target
          (some (.file content))
        targets := s.targets ++ [target], conflicts := s.conflicts ++ conflict } := by
  have hTarget : target ≠ [] := by
    obtain ⟨rel, hRel, _, rfl⟩ := hBelow
    simp [hRel]
  refine ⟨h.write hBelow hFree _ _, fun p => ?_, ?_, ?_⟩
  · have hStep : ((Function.update (makeDirs s.fs target.dropLast (target.dropLast.length + 1))
        target (some (.file content))) p).isSome ↔ (s.fs p).isSome ∨ p <+: target := by
      rw [prefix_dropLast_or_eq hTarget]
      by_cases hp : p = target
      · subst hp
        simp
      · rw [Function.update_of_ne hp, makeDirs_isSome]
        simp [hp]
    rw [hStep, h.there p]
    simp only [Taken, List.mem_append, List.mem_singleton, or_and_right, exists_or, exists_eq_left,
      or_assoc]
  · simp [h.length]
  · have hLength : (requestedPaths outputDir done).length = s.targets.length := by
      simp [requestedPaths, h.length]
    have hTaken : (s.fs (outputDir ++ components name)).isSome ↔
        Taken fs s.targets (outputDir ++ components name) := h.there _
    have hRequested : requestedPaths outputDir (done ++ [(name, content)]) =
        requestedPaths outputDir done ++ [outputDir ++ components name] := by
      simp [requestedPaths]
    rw [hRequested, List.zip_append hLength, List.zip_cons_cons, List.zip_nil_left,
      expectedConflicts_concat, List.nil_append, List.map_snd_zip hLength.ge]
    simp only [hConflict, h.conflicts, hTaken]

/-- One round of the loop. -/
theorem Exported.exportFile (h : Exported display outputDir fs done s) (file : String × Content)
    (outcome : Outcome Content) :
    Safe outputDir fs (exportFile display outputDir s file outcome).1 ∧
      ((Files.exportFile display outputDir s file outcome).2 = none →
        Exported display outputDir fs (done ++ [file])
          (Files.exportFile display outputDir s file outcome).1) := by
  rw [Files.exportFile]
  cases hPath : getExportPath outputDir file.1 with
  | error message => exact ⟨h.safe, nofun⟩
  | ok desired =>
      obtain ⟨hValid, rfl⟩ := getExportPath_eq_ok.mp hPath
      dsimp only
      cases hChoice : chooseTarget display s.fs (outputDir ++ components file.1) with
      | error e => exact ⟨h.safe, nofun⟩
      | ok choice =>
          obtain ⟨target, conflict⟩ := choice
          obtain ⟨hFree, hConflict, hTarget⟩ := chooseTarget_eq_ok hChoice
          have hBelow := strictlyBelow_of_choice hValid hTarget
          cases outcome with
          | mkdirFails made =>
              refine ⟨⟨h.safe.below, h.safe.nodup, fun p content hFile => ?_⟩, nofun⟩
              exact makeDirs_file (h.safe.kept p content hFile) _ _
          | done =>
              simp only [writeTarget]
              cases hDirs : createDirAll s.fs target.dropLast with
              | none => exact ⟨⟨h.safe.below, h.safe.nodup, h.safe.kept⟩, nofun⟩
              | some made =>
                  obtain rfl := createDirAll_eq_some hDirs
                  exact ⟨h.write hBelow hFree _ _, fun _ => h.wrote hBelow hFree hConflict⟩
          | exportFails left =>
              simp only [writeTarget]
              cases hDirs : createDirAll s.fs target.dropLast with
              | none => exact ⟨⟨h.safe.below, h.safe.nodup, h.safe.kept⟩, nofun⟩
              | some made =>
                  obtain rfl := createDirAll_eq_some hDirs
                  exact ⟨h.write hBelow hFree _ _, nofun⟩

/-- The whole loop, from any point that a run without an error reaches. -/
theorem Exported.exportFiles (h : Exported display outputDir fs done s)
    (outcomes : Nat → Outcome Content) (rest : List (String × Content)) :
    Safe outputDir fs (exportFiles display outputDir outcomes s rest).1 ∧
      ((Files.exportFiles display outputDir outcomes s rest).2 = none →
        Exported display outputDir fs (done ++ rest)
          (Files.exportFiles display outputDir outcomes s rest).1) := by
  induction rest generalizing done s outcomes with
  | nil => simpa [Files.exportFiles] using ⟨h.safe, h⟩
  | cons file rest ih =>
      obtain ⟨hSafe, hNext⟩ := h.exportFile file (outcomes 0)
      rw [Files.exportFiles]
      cases hOne : Files.exportFile display outputDir s file (outcomes 0) with
      | mk s' error =>
          rw [hOne] at hSafe hNext
          cases error with
          | some e => exact ⟨hSafe, nofun⟩
          | none => simpa using ih (hNext rfl) fun i => outcomes (i + 1)

theorem exported_nil (display : Path → String) (outputDir : Path) (fs : FileSystem Content) :
    Exported display outputDir fs [] ⟨fs, [], []⟩ := by
  refine ⟨⟨nofun, List.nodup_nil, fun _ _ h => h⟩, fun p => ?_, rfl, rfl⟩
  simp [Taken]

end

/-- Every target is new, below the directory and another one than those before;
every file that was there keeps its content; and the conflicts returned are
those of the files whose requested path was taken. -/
theorem export_never_overwrites (display : Path → String) (outcomes : Nat → Outcome Content)
    (fs : FileSystem Content) (outputDir : Path) (collection : List (String × Content)) :
    let (final, error) := exportToDirectory display outcomes fs outputDir collection
    (∀ t ∈ final.targets, StrictlyBelow outputDir t ∧ fs t = none) ∧
      final.targets.Nodup ∧
      (∀ p content, fs p = some (.file content) → final.fs p = some (.file content)) ∧
      (error = none → final.targets.length = collection.length ∧
        final.conflicts = expectedConflicts display fs []
          ((requestedPaths outputDir collection).zip final.targets)) := by
  obtain ⟨hSafe, hExported⟩ :=
    (exported_nil display outputDir fs).exportFiles outcomes collection
  refine ⟨hSafe.below, hSafe.nodup, hSafe.kept, fun hNone => ?_⟩
  have hDone := hExported hNone
  exact ⟨hDone.length, hDone.conflicts⟩

/-- A path chosen for one file is the one that a later file asks for. -/
example : (exportToDirectory joinSlash (fun _ => .done) (fun _ => none) ["out"]
    [("a", 1), ("a", 2), ("a (1)", 3)]).1.targets =
      [["out", "a"], ["out", "a (1)"], ["out", "a (1) (1)"]] := by
  decide

end

end AltSendme.Files
