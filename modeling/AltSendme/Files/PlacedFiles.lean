import AltSendme.Files.ExportSafety
import Mathlib.Data.List.Forall2

/-! Files put one after the other below a directory that may hold others: through
handles that enter or make one directory at a time, each file at a free path. What is
chosen as the path of a file is the receiver's affair. The loop is that of any receiver
that stops at the first file it cannot save, whatever it saves into. -/
namespace AltSendme.Files

section
variable {Content Name : Type}

/-- How the calls for one file end. -/
inductive PlaceOutcome (Content : Type) where
  | done
  /-- A directory cannot be entered or made after this many were. -/
  | directoryFails (entered : Nat)
  | createFails
  /-- The writer fails and leaves this of the content. -/
  | writeFails (left : Content)

/-- Enter one directory after the other and make those that are missing; a file of
that name is an error. -/
def enterDirectories (fs : FileSystem Content) (current : Path) :
    List String → FileSystem Content × Option Path
  | [] => (fs, some current)
  | part :: rest =>
      match fs (current ++ [part]) with
      | some (.file _) => (fs, none)
      | some .dir => enterDirectories fs (current ++ [part]) rest
      | none =>
          enterDirectories (Function.update fs (current ++ [part]) (some .dir))
            (current ++ [part]) rest

/-- Each target holds the content of its file. -/
def Holds (fs : FileSystem Content) (targets : List Path) (files : List (Name × Content)) :
    Prop :=
  List.Forall₂ (fun target file => fs target = some (.file file.2)) targets files

/-- Files stay where every entry stays. -/
theorem Holds.mono {left right : FileSystem Content} {targets : List Path}
    {files : List (Name × Content)} (h : Holds left targets files)
    (hKept : ∀ p entry, left p = some entry → right p = some entry) : Holds right targets files :=
  h.imp fun target _ hFile => hKept target _ hFile

theorem Holds.map_eq {fs : FileSystem Content} {targets : List Path}
    {files : List (Name × Content)} (h : Holds fs targets files) :
    targets.map fs = files.map fun file => some (.file file.2) := by
  rw [← List.forall₂_eq_eq_eq, List.forall₂_map_left_iff, List.forall₂_map_right_iff]
  exact h

theorem Holds.of_mem {fs : FileSystem Content} {targets : List Path}
    {files : List (Name × Content)} (h : Holds fs targets files) {t : Path} (ht : t ∈ targets) :
    ∃ file ∈ files, fs t = some (.file file.2) := by
  have hSome : fs t ∈ files.map fun file => some (.file file.2) := by
    rw [← h.map_eq]
    exact List.mem_map_of_mem ht
  obtain ⟨file, hFile, hEq⟩ := List.mem_map.mp hSome
  exact ⟨file, hFile, hEq.symm⟩

end

section Entering
variable {Content : Type} {fs : FileSystem Content} {current : Path} {parts : List String}
variable {p : Path}

/-- Entering directories leaves every entry as it is. -/
theorem enterDirectories_kept {entry : Entry Content} (h : fs p = some entry) :
    (enterDirectories fs current parts).1 p = some entry := by
  induction parts generalizing fs current with
  | nil => exact h
  | cons part rest ih =>
      rw [enterDirectories]
      split
      · exact h
      · exact ih h
      · next hFree =>
          refine ih ?_
          rw [Function.update_of_ne, h]
          rintro rfl
          rw [hFree] at h
          cases h

/-- Only directories on the way are made. -/
theorem enterDirectories_changed (h : (enterDirectories fs current parts).1 p ≠ fs p) :
    ∃ way, way ≠ [] ∧ way <+: parts ∧ p = current ++ way := by
  induction parts generalizing fs current with
  | nil => exact absurd rfl h
  | cons part rest ih =>
      have hRest {made : FileSystem Content}
          (hMade : (enterDirectories made (current ++ [part]) rest).1 p ≠ made p) :
          ∃ way, way ≠ [] ∧ way <+: part :: rest ∧ p = current ++ way := by
        obtain ⟨way, -, hWay, rfl⟩ := ih hMade
        exact ⟨part :: way, List.cons_ne_nil _ _, List.cons_prefix_cons.mpr ⟨rfl, hWay⟩, by simp⟩
      rw [enterDirectories] at h
      split at h
      · exact absurd rfl h
      · exact hRest h
      · by_cases hHere : p = current ++ [part]
        · exact ⟨[part], by simp, by simp, hHere⟩
        · refine @hRest (Function.update fs (current ++ [part]) (some .dir)) ?_
          rwa [Function.update_of_ne hHere]

/-- A directory that is entered is the one that was asked for. -/
theorem enterDirectories_some {path : Path}
    (h : (enterDirectories fs current parts).2 = some path) : path = current ++ parts := by
  induction parts generalizing fs current with
  | nil => simpa [enterDirectories] using h.symm
  | cons part rest ih =>
      rw [enterDirectories] at h
      split at h
      · cases h
      · simpa using ih h
      · simpa using ih h

end Entering

section Placing
variable {Content Fault : Type} {root : Path} {fs : FileSystem Content} {s : Export Content}
variable {report : Path → Path → List ExportConflict}

/-- What holds of every run of such a loop, also of one that an error ended. -/
structure PlacedSafely (root : Path) (fs : FileSystem Content) (s : Export Content) : Prop where
  written : ∀ t ∈ s.targets, fs t = none ∧ ∃ content, s.fs t = some (.file content)
  nodup : s.targets.Nodup
  kept : ∀ p entry, fs p = some entry → s.fs p = some entry
  changed : ∀ p, s.fs p ≠ fs p → StrictlyBelow root p

/-- How a round of the loop ends. `report` is what is reported of a file by the path
it asked for and the path it got. -/
structure PlaceRound (report : Path → Path → List ExportConflict) (root : Path)
    (fs : FileSystem Content) (s : Export Content) (file : Path × Content)
    (result : Export Content × Option Fault) : Prop where
  safe : PlacedSafely root fs result.1
  kept : ∀ p entry, s.fs p = some entry → result.1.fs p = some entry
  placed : result.2 = none → ∃ used, result.1.targets = s.targets ++ [used] ∧
    result.1.fs used = some (.file file.2) ∧
      result.1.conflicts = s.conflicts ++ report file.1 used
  failed : result.2 ≠ none →
    result.1.conflicts = s.conflicts ∧ ∃ more, result.1.targets = s.targets ++ more

/-- The files `placed` are there, each at a path of its own; the conflicts are
theirs. An error may have left one more target. -/
structure PlacedFiles (report : Path → Path → List ExportConflict)
    (placed : List (Path × Content)) (s : Export Content) : Prop where
  length : placed.length ≤ s.targets.length
  holds : Holds s.fs (s.targets.take placed.length) placed
  conflicts : s.conflicts =
    ((placed.map Prod.fst).zip (s.targets.take placed.length)).flatMap fun pair =>
      report pair.1 pair.2

theorem placedSafely_nil (root : Path) (fs : FileSystem Content) :
    PlacedSafely root fs ⟨fs, [], []⟩ :=
  ⟨by simp, List.nodup_nil, fun _ _ h => h, fun _ h => absurd rfl h⟩

theorem placedFiles_nil (report : Path → Path → List ExportConflict) (fs : FileSystem Content) :
    PlacedFiles report [] ⟨fs, [], []⟩ :=
  ⟨Nat.le_refl 0, .nil, rfl⟩

/-- Directories on the way to a file change nothing that was there. -/
theorem PlacedSafely.enter (h : PlacedSafely root fs s) {parts : List String}
    (hParts : ∀ part ∈ parts, IsPathComponent part) :
    PlacedSafely root fs { s with fs := (enterDirectories s.fs root parts).1 } := by
  refine ⟨fun t ht => ?_, h.nodup, fun p entry hEntry => ?_, fun p hChanged => ?_⟩
  · obtain ⟨hNew, content, hFile⟩ := h.written t ht
    exact ⟨hNew, content, enterDirectories_kept hFile⟩
  · exact enterDirectories_kept (h.kept p entry hEntry)
  · by_cases hMade : (enterDirectories s.fs root parts).1 p = s.fs p
    · exact h.changed p (hMade ▸ hChanged)
    · obtain ⟨way, hWay, hPrefix, rfl⟩ := enterDirectories_changed hMade
      exact ⟨way, hWay, fun part hPart => hParts part (hPrefix.subset hPart), rfl⟩

/-- A file at a free path below the directory. -/
theorem PlacedSafely.write (h : PlacedSafely root fs s) {target : Path}
    (hBelow : StrictlyBelow root target) (hFree : s.fs target = none) (content : Content)
    (conflicts : List ExportConflict) :
    PlacedSafely root fs
      { fs := Function.update s.fs target (some (.file content))
        targets := s.targets ++ [target], conflicts := conflicts } := by
  have hNone : fs target = none := by
    cases hEntry : fs target with
    | none => rfl
    | some entry =>
        rw [h.kept target entry hEntry] at hFree
        cases hFree
  have hOther {p : Path} (hSome : s.fs p ≠ none) : p ≠ target := fun hEq => hSome (hEq ▸ hFree)
  refine ⟨fun t ht => ?_, ?_, fun p entry hEntry => ?_, fun p hChanged => ?_⟩
  · rcases List.mem_append.mp ht with hOld | hLast
    · obtain ⟨hNew, old, hFile⟩ := h.written t hOld
      refine ⟨hNew, old, ?_⟩
      dsimp only
      rwa [Function.update_of_ne (hOther (by simp [hFile]))]
    · rw [List.mem_singleton.mp hLast]
      exact ⟨hNone, content, Function.update_self _ _ _⟩
  · rw [← List.concat_eq_append, List.nodup_concat]
    refine ⟨fun hMem => ?_, h.nodup⟩
    obtain ⟨-, old, hFile⟩ := h.written target hMem
    rw [hFree] at hFile
    cases hFile
  · have hKept := h.kept p entry hEntry
    dsimp only
    rwa [Function.update_of_ne (hOther (by simp [hKept]))]
  · by_cases hp : p = target
    · rw [hp]
      exact hBelow
    · dsimp only at hChanged
      rw [Function.update_of_ne hp] at hChanged
      exact h.changed p hChanged

/-- A file of valid components lies below the root. -/
theorem strictlyBelow_file {dirs : List String} {fileName : String}
    (hDirs : ∀ part ∈ dirs, IsPathComponent part) (hName : IsPathComponent fileName) :
    StrictlyBelow root (root ++ dirs ++ [fileName]) := by
  refine ⟨dirs ++ [fileName], by simp, fun part hPart => ?_, by simp⟩
  rcases List.mem_append.mp hPart with hDir | hLast
  · exact hDirs part hDir
  · rw [List.mem_singleton.mp hLast]
    exact hName

/-- A round that fails before it made a document. -/
theorem PlaceRound.nothing (h : PlacedSafely root fs s) (file : Path × Content) (fault : Fault) :
    PlaceRound report root fs s file (s, some fault) :=
  ⟨h, fun _ _ hEntry => hEntry, fun hNone => (by cases hNone),
    fun _ => ⟨rfl, [], (List.append_nil _).symm⟩⟩

/-- A round that fails on the way to the directory of its file. -/
theorem PlaceRound.entered (h : PlacedSafely root fs s) {parts : List String}
    (hParts : ∀ part ∈ parts, IsPathComponent part) (file : Path × Content) (fault : Fault) :
    PlaceRound report root fs s file
      ({ s with fs := (enterDirectories s.fs root parts).1 }, some fault) :=
  ⟨h.enter hParts, fun _ _ hEntry => enterDirectories_kept hEntry, fun hNone => (by cases hNone),
    fun _ => ⟨rfl, [], (List.append_nil _).symm⟩⟩

/-- What a round does in the directory that it entered, it does as a whole. -/
theorem PlaceRound.after_enter {parts : List String} {file : Path × Content}
    {result : Export Content × Option Fault}
    (hRound : PlaceRound report root fs { s with fs := (enterDirectories s.fs root parts).1 } file
      result) : PlaceRound report root fs s file result :=
  ⟨hRound.safe, fun p entry hEntry => hRound.kept p entry (enterDirectories_kept hEntry),
    hRound.placed, hRound.failed⟩

/-- A free path keeps what stands elsewhere. -/
theorem update_kept {target : Path} (hFree : s.fs target = none) (content : Content) {p : Path}
    {entry : Entry Content} (hEntry : s.fs p = some entry) :
    Function.update s.fs target (some (.file content)) p = some entry := by
  rw [Function.update_of_ne, hEntry]
  rintro rfl
  rw [hFree] at hEntry
  cases hEntry

/-- A round that wrote its file. -/
theorem PlaceRound.wrote (h : PlacedSafely root fs s) {requested target : Path}
    (hBelow : StrictlyBelow root target) (hFree : s.fs target = none) (content : Content)
    {conflict : List ExportConflict} (hReport : conflict = report requested target) :
    PlaceRound report root fs s (requested, content)
      ({ fs := Function.update s.fs target (some (.file content))
         targets := s.targets ++ [target], conflicts := s.conflicts ++ conflict },
        (none : Option Fault)) :=
  ⟨h.write hBelow hFree content _, fun _ _ hEntry => update_kept hFree content hEntry,
    fun _ => ⟨target, rfl, Function.update_self _ _ _, by rw [hReport]⟩,
    fun hSome => absurd rfl hSome⟩

/-- A round whose writer failed leaves what it wrote. -/
theorem PlaceRound.cut (h : PlacedSafely root fs s) (file : Path × Content) {target : Path}
    (hBelow : StrictlyBelow root target) (hFree : s.fs target = none) (left : Content)
    (fault : Fault) :
    PlaceRound report root fs s file
      ({ s with fs := Function.update s.fs target (some (.file left))
                targets := s.targets ++ [target] }, some fault) :=
  ⟨h.write hBelow hFree left _, fun _ _ hEntry => update_kept hFree left hEntry,
    fun hNone => (by cases hNone), fun _ => ⟨rfl, _, rfl⟩⟩

variable {placed : List (Path × Content)} {file : Path × Content}
variable {result : Export Content × Option Fault}

/-- A round that fails takes nothing from the files placed before it. -/
theorem PlacedFiles.failed (h : PlacedFiles report placed s)
    (hRound : PlaceRound report root fs s file result) (hError : result.2 ≠ none) :
    PlacedFiles report placed result.1 := by
  obtain ⟨hConflicts, more, hTargets⟩ := hRound.failed hError
  refine ⟨?_, ?_, ?_⟩
  · rw [hTargets, List.length_append]
    exact Nat.le_add_right_of_le h.length
  · rw [hTargets, List.take_append_of_le_length h.length]
    exact Holds.mono h.holds hRound.kept
  · rw [hConflicts, h.conflicts, hTargets, List.take_append_of_le_length h.length]

/-- A round that is done places one more file. -/
theorem PlacedFiles.one_more (h : PlacedFiles report placed s)
    (hAll : s.targets.length = placed.length) (hRound : PlaceRound report root fs s file result)
    (hDone : result.2 = none) :
    PlacedFiles report (placed ++ [file]) result.1 ∧
      result.1.targets.length = (placed ++ [file]).length := by
  obtain ⟨used, hTargets, hFile, hConflicts⟩ := hRound.placed hDone
  have hLength : result.1.targets.length = (placed ++ [file]).length := by
    rw [hTargets, List.length_append, List.length_append, hAll]
    rfl
  have hBefore := h.holds
  have hReported := h.conflicts
  rw [← hAll, List.take_length] at hBefore hReported
  refine ⟨⟨hLength.ge, ?_, ?_⟩, hLength⟩
  · rw [← hLength, List.take_length, hTargets]
    exact List.rel_append (Holds.mono hBefore hRound.kept) (.cons hFile .nil)
  · have hZip : (placed.map Prod.fst).length = s.targets.length := by
      rw [List.length_map, hAll]
    rw [hConflicts, hReported, ← hLength, List.take_length, hTargets, List.map_append,
      List.zip_append hZip, List.flatMap_append]
    simp

end Placing

section Loop
variable {State Content Item Fault : Type}

/-- One file after the other, until one fails; `place` is told the number of the round. -/
def placeAll (place : Nat → State → Item → State × Option Fault) :
    State → List Item → State × Option Fault
  | s, [] => (s, none)
  | s, item :: rest =>
      match place 0 s item with
      | (s', some e) => (s', some e)
      | (s', none) => placeAll (fun i => place (i + 1)) s' rest

/-- What no round breaks, the loop does not break. -/
theorem placeAll_related {place : Nat → State → Item → State × Option Fault}
    {R : State → State → Prop} (hRefl : ∀ s, R s s) (hTrans : ∀ s t u, R s t → R t u → R s u)
    {items : List Item} {s : State}
    (hRounds : ∀ i s item, item ∈ items → R s (place i s item).1) :
    R s (placeAll place s items).1 := by
  induction items generalizing s place with
  | nil => exact hRefl s
  | cons item rest ih =>
      have hFirst := hRounds 0 s item List.mem_cons_self
      rw [placeAll]
      split
      · next hOne =>
          rw [hOne] at hFirst
          exact hFirst
      · next hOne =>
          rw [hOne] at hFirst
          exact hTrans _ _ _ hFirst (ih fun i s other hOther =>
            hRounds (i + 1) s other (List.mem_cons_of_mem item hOther))

/-- What every round that succeeds adds, a loop without an error has for all files. -/
theorem placeAll_done {place : Nat → State → Item → State × Option Fault}
    {P : State → List Item → Prop} {before items : List Item} {s : State} (hStart : P s before)
    (hRounds : ∀ i s before item, item ∈ items → P s before → (place i s item).2 = none →
      P (place i s item).1 (before ++ [item]))
    (hDone : (placeAll place s items).2 = none) :
    P (placeAll place s items).1 (before ++ items) := by
  induction items generalizing s place before with
  | nil => rwa [List.append_nil]
  | cons item rest ih =>
      rw [placeAll] at hDone ⊢
      cases hOne : place 0 s item with
      | mk next error =>
          rw [hOne] at hDone
          cases error with
          | some e => cases hDone
          | none =>
              have hNext := hRounds 0 s before item List.mem_cons_self hStart (by rw [hOne])
              rw [hOne] at hNext
              have hRest := ih hNext (fun i s before other hOther =>
                hRounds (i + 1) s before other (List.mem_cons_of_mem item hOther)) hDone
              rwa [List.append_assoc, List.singleton_append] at hRest

variable {place : Nat → Export Content → Item → Export Content × Option Fault}
variable {report : Path → Path → List ExportConflict} {asks : Item → Path × Content}
variable {root : Path} {fs : FileSystem Content} {s : Export Content}

/-- The loop, from any point that it reaches without an error. -/
theorem placeAll_run {before rest : List Item}
    (hRounds : ∀ (i : Nat) (s : Export Content) (item : Item), PlacedSafely root fs s →
      item ∈ rest → PlaceRound report root fs s (asks item) (place i s item))
    (hSafe : PlacedSafely root fs s) (hPlaced : PlacedFiles report (before.map asks) s)
    (hAll : s.targets.length = (before.map asks).length) :
    let (final, error) := placeAll place s rest
    PlacedSafely root fs final ∧ ∃ more left, rest = more ++ left ∧ (error = none ↔ left = []) ∧
      PlacedFiles report ((before ++ more).map asks) final ∧
      (error = none → final.targets.length = ((before ++ more).map asks).length) := by
  induction rest generalizing s before place with
  | nil => exact ⟨hSafe, [], [], rfl, by simp, by simpa using hPlaced, fun _ => by simpa using hAll⟩
  | cons item rest ih =>
      have hRound := hRounds 0 s item hSafe List.mem_cons_self
      rw [placeAll]
      cases hOne : place 0 s item with
      | mk next error =>
          rw [hOne] at hRound
          cases error with
          | some e =>
              refine ⟨hRound.safe, [], item :: rest, rfl, by simp, ?_, fun hNone => (by cases hNone)⟩
              rw [List.append_nil]
              exact hPlaced.failed hRound (by simp)
          | none =>
              obtain ⟨hNext, hLength⟩ := hPlaced.one_more hAll hRound rfl
              have hSame : before.map asks ++ [asks item] = (before ++ [item]).map asks := by
                rw [List.map_append]
                rfl
              rw [hSame] at hNext hLength
              obtain ⟨hEnd, more, left, rfl, hError, hFinal⟩ :=
                @ih (fun i => place (i + 1)) next (before ++ [item])
                  (fun i s other hs hOther =>
                    hRounds (i + 1) s other hs (List.mem_cons_of_mem item hOther))
                  hRound.safe hNext hLength
              refine ⟨hEnd, item :: more, left, rfl, hError, ?_⟩
              rwa [List.append_assoc, List.singleton_append] at hFinal

/-- The loop as a whole. -/
theorem placeAll_spec {items : List Item}
    (hRounds : ∀ (i : Nat) (s : Export Content) (item : Item), PlacedSafely root fs s →
      item ∈ items → PlaceRound report root fs s (asks item) (place i s item)) :
    let (final, error) := placeAll place ⟨fs, [], []⟩ items
    PlacedSafely root fs final ∧ ∃ more left, items = more ++ left ∧ (error = none ↔ left = []) ∧
      PlacedFiles report (more.map asks) final ∧
      (error = none → final.targets.length = (more.map asks).length) :=
  @placeAll_run Content Item Fault place report asks root fs ⟨fs, [], []⟩ [] items
    hRounds (placedSafely_nil root fs) (placedFiles_nil report fs) rfl

end Loop

end AltSendme.Files
