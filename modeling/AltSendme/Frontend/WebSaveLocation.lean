import AltSendme.Files.ConflictNames
import AltSendme.Files.LosslessTransfer
import AltSendme.Frontend.WebZip

/-! Where the browser puts what it has received (`web-save-location.ts`): file by
file into the directory that the user picked, or else as one download. The calls of
a handle may fail at any point, and a look at a name that fails is taken for a free
name; nobody else writes to the directory meanwhile. -/
namespace AltSendme.Frontend
open Files

structure ReceivedWebFile where
  name : String
  bytes : List UInt8

inductive SaveError where
  | error (message : String)
  /-- A `DOMException` of a handle. -/
  | dom
  deriving DecidableEq, Repr

/-- What the browser answers in the round of one file: at which names it can look, and
how the other calls end. No name is looked at twice in a round. -/
structure SaveOutcome where
  looks : String → Bool
  place : PlaceOutcome (List UInt8)

abbrev WebFileSystem := FileSystem (List UInt8)

/-- The files written, and the conflicts so far. -/
abbrev WebSave := Export (List UInt8)

/-- `normalized.split('/').pop()` -/
def basename (path : String) : String :=
  (components (normalizedPath path)).getLast?.getD path

/-- The parts of a path that are not empty. -/
def relativeParts (relativePath : String) : List String :=
  (components (normalizedPath relativePath)).filter (· ≠ "")

/-- `getDirectoryHandle(part, { create: true })` for one part after the other. -/
def getDirectoryForRelativePath (fs : WebFileSystem) (root : Path) (relativePath : String)
    (outcome : SaveOutcome) : WebFileSystem × Except SaveError (Path × String) :=
  match (relativeParts relativePath).getLast? with
  | none => (fs, .error (.error "Invalid relative path"))
  | some fileName =>
      let dirs := (relativeParts relativePath).dropLast
      match outcome.place with
      | .directoryFails entered => ((enterDirectories fs root (dirs.take entered)).1, .error .dom)
      | _ =>
          match enterDirectories fs root dirs with
          | (made, none) => (made, .error .dom)
          | (made, some dirHandle) => (made, .ok (dirHandle, fileName))

/-- A directory under the file's name is an error of `getFileHandle`; a file that the
browser could not look at is opened, and written anew. -/
def writeBytesToDirectory (s : WebSave) (dirHandle : Path) (fileName : String)
    (bytes : List UInt8) (outcome : SaveOutcome) : WebSave × Option SaveError :=
  match Browser.resolveWritableFileName s.fs dirHandle outcome.looks fileName with
  | .error message => (s, some (.error message))
  | .ok resolved =>
      let target := dirHandle ++ [resolved.fileName]
      match s.fs target, outcome.place with
      | some .dir, _ | _, .createFails | _, .directoryFails _ => (s, some .dom)
      | _, .writeFails left =>
          ({ s with fs := Function.update s.fs target (some (.file left))
                    targets := s.targets ++ [target] }, some .dom)
      | _, .done =>
          ({ fs := Function.update s.fs target (some (.file bytes))
             targets := s.targets ++ [target]
             conflicts := s.conflicts ++ resolved.conflict.toList }, none)

/-- One round of the loop. -/
def saveFile (root : Path) (s : WebSave) (file : ReceivedWebFile) (outcome : SaveOutcome) :
    WebSave × Option SaveError :=
  match getDirectoryForRelativePath s.fs root (normalizedPath file.name) outcome with
  | (made, .error e) => ({ s with fs := made }, some e)
  | (made, .ok (dirHandle, fileName)) =>
      writeBytesToDirectory { s with fs := made } dirHandle fileName file.bytes outcome

def writeCollectionToDirectory (root : Path) (outcomes : Nat → SaveOutcome) :
    WebSave → List ReceivedWebFile → WebSave × Option SaveError
  | s, [] => (s, none)
  | s, file :: rest =>
      match saveFile root s file (outcomes 0) with
      | (s', some e) => (s', some e)
      | (s', none) => writeCollectionToDirectory root (fun i => outcomes (i + 1)) s' rest

def deriveZipDownloadName (paths : List String) : String :=
  let roots := (paths.map fun path => topLevel (normalizedPath path)).filter (· ≠ "")
  match roots.dedup with
  | [root] => root ++ ".zip"
  | _ => "download.zip"

structure WriteCollectionResult where
  savedToDirectory : Bool
  zippedDownload : Bool
  conflicts : List ExportConflict
  deriving DecidableEq, Repr

/-- What saving did: to the directory, and as a download of the browser. -/
structure WebSaved where
  save : WebSave
  downloads : List (String × List UInt8)
  result : Except SaveError WriteCollectionResult

/-- `isSimpleSingleFile`, and the file. -/
def simpleSingleFile : List ReceivedWebFile → Option ReceivedWebFile
  | [file] => if '/' ∉ file.name.toList ∧ '\\' ∉ file.name.toList then some file else none
  | _ => none

def directoryResult (save : WebSave) : Option SaveError → Except SaveError WriteCollectionResult
  | none => .ok ⟨true, false, save.conflicts⟩
  | some e => .error e

/-- Into the directory that was picked. -/
def saveToDirectory (root : Path) (outcomes : Nat → SaveOutcome) (fs : WebFileSystem)
    (files : List ReceivedWebFile) : WebSaved :=
  let (save, error) := match simpleSingleFile files with
    | some file =>
        writeBytesToDirectory ⟨fs, [], []⟩ root (basename file.name) file.bytes (outcomes 0)
    | none => writeCollectionToDirectory root outcomes ⟨fs, [], []⟩ files
  ⟨save, [], directoryResult save error⟩

/-- As a download: one file as it is, more as an archive. -/
def saveAsDownload (fs : WebFileSystem) (files : List ReceivedWebFile) : WebSaved :=
  match simpleSingleFile files with
  | some file => ⟨⟨fs, [], []⟩, [(basename file.name, file.bytes)], .ok ⟨false, false, []⟩⟩
  | none =>
      match createStoreOnlyZip (files.map fun file => ⟨file.name, file.bytes⟩) with
      | .error message => ⟨⟨fs, [], []⟩, [], .error (.error message)⟩
      | .ok archive =>
          ⟨⟨fs, [], []⟩, [(deriveZipDownloadName (files.map ReceivedWebFile.name), archive)],
            .ok ⟨false, true, []⟩⟩

/-- `writeReceivedCollection`. `cachedDirHandle` is the directory picked before, and
whether the user allows to write there; asking fails with a `DOMException`. -/
def writeReceivedCollection (cachedDirHandle : Option (Path × Option Bool))
    (outcomes : Nat → SaveOutcome) (fs : WebFileSystem) (files : List ReceivedWebFile) : WebSaved :=
  if files.isEmpty then ⟨⟨fs, [], []⟩, [], .error (.error "No files to save")⟩
  else
    match cachedDirHandle with
    | some (_, none) => ⟨⟨fs, [], []⟩, [], .error .dom⟩
    | some (root, some true) => saveToDirectory root outcomes fs files
    | some (_, some false) | none => saveAsDownload fs files

section Resolving
variable {fs : WebFileSystem} {dirHandle : Path} {looks : String → Bool} {fileName : String}

/-- The name that is written: not that of a file that was seen, and the one asked for
or a numbered one, which is then a conflict. -/
theorem findWritable_eq_ok {resolved : Browser.WritableFileName} {left index : Nat}
    {candidate : String} (hCandidate : candidate = fileName ∨
      ∃ i, candidate = Browser.resolveConflictName fileName i)
    (h : Browser.findWritable fs dirHandle looks fileName left index candidate = .ok resolved) :
    Browser.fileExists fs dirHandle looks resolved.fileName = false ∧
      (resolved.fileName = fileName ∨
        ∃ i, resolved.fileName = Browser.resolveConflictName fileName i) ∧
      resolved.conflict =
        if resolved.fileName = fileName then none else some ⟨fileName, resolved.fileName⟩ := by
  induction left generalizing index candidate with
  | zero => cases h
  | succ left ih =>
      rw [Browser.findWritable] at h
      cases hThere : Browser.fileExists fs dirHandle looks candidate with
      | true =>
          simp only [hThere, Bool.not_true, Bool.false_eq_true, if_false] at h
          exact ih (Or.inr ⟨index, rfl⟩) h
      | false =>
          simp only [hThere, Bool.not_false, if_true] at h
          by_cases hSame : candidate = fileName
          · rw [if_pos hSame, Except.ok.injEq] at h
            rw [← h]
            exact ⟨hThere, hCandidate, by rw [if_pos hSame]⟩
          · rw [if_neg hSame, Except.ok.injEq] at h
            rw [← h]
            exact ⟨hThere, hCandidate, by rw [if_neg hSame]⟩

/-- A name is chosen only after a look found it free. -/
theorem resolveWritableFileName_eq_ok {resolved : Browser.WritableFileName}
    (hName : IsPathComponent fileName)
    (h : Browser.resolveWritableFileName fs dirHandle looks fileName = .ok resolved) :
    Browser.fileExists fs dirHandle looks resolved.fileName = false ∧
      IsPathComponent resolved.fileName ∧
      resolved.conflict =
        if resolved.fileName = fileName then none else some ⟨fileName, resolved.fileName⟩ := by
  obtain ⟨hFree, hChoice, hConflict⟩ := findWritable_eq_ok (Or.inl rfl) h
  refine ⟨hFree, ?_, hConflict⟩
  rcases hChoice with hSame | ⟨i, hNumbered⟩
  · rw [hSame]
    exact hName
  · rw [hNumbered, browser_resolveConflictName_eq hName.notParent]
    exact hName.candidateName i

end Resolving

section Names
variable {name : String}

/-- A valid name is normalized already. -/
theorem normalizedPath_of_valid (h : ∀ part ∈ components name, IsPathComponent part) :
    normalizedPath name = name := by
  have hNone : '\\' ∉ name.toList := by
    rw [← joinSlash_components name, mem_joinSlash (by decide)]
    rintro ⟨part, hPart, hMem⟩
    exact (h part hPart).noBackslash hMem
  have hSame : ∀ c ∈ name.toList, (if c = '\\' then '/' else c) = c := by
    intro c hc
    exact if_neg fun hEq : c = '\\' => hNone (hEq ▸ hc)
  rw [← String.toList_inj, normalizedPath, String.toList_map, List.map_congr_left hSame,
    List.map_id']

/-- The parts of a valid name are its components. -/
theorem relativeParts_of_valid (h : ∀ part ∈ components name, IsPathComponent part) :
    relativeParts (normalizedPath name) = components name := by
  rw [normalizedPath_of_valid h, relativeParts, normalizedPath_of_valid h, List.filter_eq_self]
  intro part hPart
  simpa using (h part hPart).nonempty

end Names

section Saving
variable {root : Path} {fs : WebFileSystem} {s : WebSave}

/-- The path that a file asks for. -/
def requestedPath (root : Path) (file : ReceivedWebFile) : Path := root ++ components file.name

/-- The conflict that is reported of a file: the last components of its two paths. -/
def webConflict (requested used : Path) : List ExportConflict :=
  if used = requested then [] else [⟨requested.getLast?.getD "", used.getLast?.getD ""⟩]

/-- What a file asks for. -/
def webAsks (root : Path) (file : ReceivedWebFile) : Path × List UInt8 :=
  (requestedPath root file, file.bytes)

/-- From one file system to another nothing changes outside the root and no directory
does, and of the files only those at a path that could not be looked at. -/
structure KeptUnlessUnseen (root : Path) (unseen : Path → Prop) (fs fs' : WebFileSystem) :
    Prop where
  directory : ∀ p, fs p = some .dir → fs' p = some .dir
  file : ∀ p content, fs p = some (.file content) → fs' p ≠ some (.file content) → unseen p
  below : ∀ p, fs' p ≠ fs p → StrictlyBelow root p

namespace KeptUnlessUnseen
variable {unseen : Path → Prop} {fs' fs'' : WebFileSystem}

theorem refl (root : Path) (unseen : Path → Prop) (fs : WebFileSystem) :
    KeptUnlessUnseen root unseen fs fs :=
  ⟨fun _ h => h, fun _ _ h hChanged => absurd h hChanged, fun _ h => absurd rfl h⟩

/-- What two steps keep one after the other they keep together. -/
theorem trans (h : KeptUnlessUnseen root unseen fs fs')
    (h' : KeptUnlessUnseen root unseen fs' fs'') : KeptUnlessUnseen root unseen fs fs'' := by
  refine ⟨fun p hDir => h'.directory p (h.directory p hDir), fun p content hFile hChanged => ?_,
    fun p hChanged => ?_⟩
  · by_cases hStill : fs' p = some (.file content)
    · exact h'.file p content hStill hChanged
    · exact h.file p content hFile hStill
  · by_cases hStill : fs' p = fs p
    · rw [← hStill] at hChanged
      exact h'.below p hChanged
    · exact h.below p hStill

/-- Directories on the way take the place of nothing. -/
theorem enter {parts : List String} (hParts : ∀ part ∈ parts, IsPathComponent part) :
    KeptUnlessUnseen root unseen fs (enterDirectories fs root parts).1 := by
  refine ⟨fun p hDir => enterDirectories_kept hDir, fun p content hFile hChanged => ?_,
    fun p hChanged => ?_⟩
  · exact absurd (enterDirectories_kept hFile) hChanged
  · obtain ⟨way, hWay, hPrefix, rfl⟩ := enterDirectories_changed hChanged
    exact ⟨way, hWay, fun part hPart => hParts part (hPrefix.subset hPart), rfl⟩

/-- A file is written where nothing was seen. -/
theorem write {target : Path} (hBelow : StrictlyBelow root target) (hNotDir : fs target ≠ some .dir)
    (hUnseen : ∀ old, fs target = some (.file old) → unseen target) (content : List UInt8) :
    KeptUnlessUnseen root unseen fs (Function.update fs target (some (.file content))) := by
  refine ⟨fun p hDir => ?_, fun p old hFile hChanged => ?_, fun p hChanged => ?_⟩
  · rw [Function.update_of_ne, hDir]
    rintro rfl
    exact hNotDir hDir
  · by_cases hp : p = target
    · subst hp
      exact hUnseen old hFile
    · rw [Function.update_of_ne hp] at hChanged
      exact absurd hFile hChanged
  · by_cases hp : p = target
    · rw [hp]
      exact hBelow
    · rw [Function.update_of_ne hp] at hChanged
      exact absurd rfl hChanged

end KeptUnlessUnseen

section OneFile
variable {dirs : List String} {fileName : String} {file : ReceivedWebFile}

/-- Writing one file into a directory below the root, with every look answered. -/
theorem writeBytesToDirectory_round (h : PlacedSafely root fs s)
    (hDirs : ∀ part ∈ dirs, IsPathComponent part) (hName : IsPathComponent fileName)
    (bytes : List UInt8) {outcome : SaveOutcome} (hLooks : ∀ name, outcome.looks name = true) :
    PlaceRound webConflict root fs s (root ++ dirs ++ [fileName], bytes)
      (writeBytesToDirectory s (root ++ dirs) fileName bytes outcome) := by
  rw [writeBytesToDirectory]
  cases hResolved : Browser.resolveWritableFileName s.fs (root ++ dirs) outcome.looks fileName with
  | error message => exact .nothing h _ _
  | ok resolved =>
      obtain ⟨hNotFile, hComponent, hConflict⟩ := resolveWritableFileName_eq_ok hName hResolved
      have hBelow := @strictlyBelow_file root _ _ hDirs hComponent
      dsimp only
      cases hTarget : s.fs (root ++ dirs ++ [resolved.fileName]) with
      | some entry =>
          cases entry with
          | dir => exact .nothing h _ _
          | file content =>
              rw [Browser.fileExists, hTarget, hLooks] at hNotFile
              cases hNotFile
      | none =>
          cases outcome.place with
          | createFails | directoryFails entered => exact .nothing h _ _
          | writeFails left => exact .cut h _ hBelow hTarget left _
          | done =>
              refine .wrote h hBelow hTarget bytes ?_
              rw [hConflict, webConflict]
              by_cases hSame : resolved.fileName = fileName
              · simp [hSame]
              · simp [hSame]

/-- A round either fails on the way, or it writes into the directory of its file. -/
theorem saveFile_cases (hParts : components file.name = dirs ++ [fileName])
    (hName : ∀ part ∈ components file.name, IsPathComponent part) (outcome : SaveOutcome) :
    (∃ way, way <+: dirs ∧ saveFile root s file outcome =
      ({ s with fs := (enterDirectories s.fs root way).1 }, some .dom)) ∨
    saveFile root s file outcome =
      writeBytesToDirectory { s with fs := (enterDirectories s.fs root dirs).1 } (root ++ dirs)
        fileName file.bytes outcome := by
  have hLast : (relativeParts (normalizedPath file.name)).getLast? = some fileName := by
    rw [relativeParts_of_valid hName, hParts, List.getLast?_concat]
  have hFirst : (relativeParts (normalizedPath file.name)).dropLast = dirs := by
    rw [relativeParts_of_valid hName, hParts, List.dropLast_concat]
  rw [saveFile, getDirectoryForRelativePath, hLast]
  simp only [hFirst]
  cases hPlace : outcome.place with
  | directoryFails entered => exact Or.inl ⟨dirs.take entered, List.take_prefix _ _, rfl⟩
  | done | createFails | writeFails left =>
      cases hDir : enterDirectories s.fs root dirs with
      | mk made place =>
          cases place with
          | none => exact Or.inl ⟨dirs, List.prefix_rfl, by rw [hDir]⟩
          | some dirHandle =>
              obtain rfl : dirHandle = root ++ dirs := enterDirectories_some (by rw [hDir])
              exact Or.inr rfl

/-- One round of the loop, with every look answered. -/
theorem saveFile_round (h : PlacedSafely root fs s)
    (hName : ∀ part ∈ components file.name, IsPathComponent part) {outcome : SaveOutcome}
    (hLooks : ∀ name, outcome.looks name = true) :
    PlaceRound webConflict root fs s (webAsks root file) (saveFile root s file outcome) := by
  obtain ⟨dirs, fileName, hParts⟩ := exists_components_eq file.name
  have hDirs : ∀ part ∈ dirs, IsPathComponent part := fun part hPart =>
    hName part (hParts ▸ List.mem_append_left _ hPart)
  rcases @saveFile_cases root s dirs fileName file hParts hName outcome with
    ⟨way, hWay, hRound⟩ | hRound
  · rw [hRound]
    exact .entered h (fun part hPart => hDirs part (hWay.subset hPart)) _ _
  · have hAsks : webAsks root file = (root ++ dirs ++ [fileName], file.bytes) := by
      rw [webAsks, requestedPath, hParts, List.append_assoc]
    rw [hRound, hAsks]
    exact (writeBytesToDirectory_round (h.enter hDirs) hDirs (hName fileName (by simp [hParts]))
      file.bytes hLooks).after_enter

end OneFile

/-- Writing a collection is placing its files one by one. -/
theorem writeCollectionToDirectory_eq (outcomes : Nat → SaveOutcome)
    (files : List ReceivedWebFile) :
    writeCollectionToDirectory root outcomes s files =
      placeAll (fun i s file => saveFile root s file (outcomes i)) s files := by
  induction files generalizing s outcomes with
  | nil => rfl
  | cons file rest ih =>
      rw [writeCollectionToDirectory, placeAll]
      split
      · next hOne => rw [hOne]
      · next hOne =>
          rw [hOne]
          exact ih _

/-- The files saved are in the directory, and the conflicts are theirs. -/
abbrev SavedFiles (root : Path) (saved : List ReceivedWebFile) (s : WebSave) : Prop :=
  PlacedFiles webConflict (saved.map (webAsks root)) s

theorem simpleSingleFile_eq_some {files : List ReceivedWebFile} {file : ReceivedWebFile}
    (h : simpleSingleFile files = some file)
    (hNames : ∀ file ∈ files, ∀ part ∈ components file.name, IsPathComponent part) :
    files = [file] ∧ components file.name = [file.name] ∧ basename file.name = file.name := by
  rw [simpleSingleFile.eq_def] at h
  split at h
  · next only =>
      split at h
      · next hSimple =>
          cases h
          have hParts := components_of_noSlash hSimple.1
          have hName := hNames file List.mem_cons_self
          refine ⟨rfl, hParts, ?_⟩
          rw [basename, normalizedPath_of_valid hName, hParts]
          rfl
      · cases h
  · cases h

/-- A single file is saved as the loop would save it. -/
theorem PlaceRound.single {file : ReceivedWebFile} {result : WebSave × Option SaveError}
    (hRound : PlaceRound webConflict root fs ⟨fs, [], []⟩ (webAsks root file) result) :
    ∃ more left, [file] = more ++ left ∧ (result.2 = none ↔ left = []) ∧
      SavedFiles root more result.1 ∧ (result.2 = none → result.1.targets.length = more.length) := by
  cases hError : result.2 with
  | none =>
      have hSaved := (placedFiles_nil webConflict fs).one_more rfl hRound hError
      exact ⟨[file], [], rfl, by simp, hSaved.1, fun _ => hSaved.2⟩
  | some e =>
      have hFailed := (placedFiles_nil webConflict fs).failed hRound (by simp [hError])
      exact ⟨[], [file], rfl, by simp, hFailed, fun hNone => (by cases hNone)⟩

/-- A save into a directory that succeeds reports every file as saved there. -/
theorem saveToDirectory_result {outcomes : Nat → SaveOutcome} {files : List ReceivedWebFile}
    {result : WriteCollectionResult}
    (h : (saveToDirectory root outcomes fs files).result = .ok result) :
    result = ⟨true, false, (saveToDirectory root outcomes fs files).save.conflicts⟩ := by
  rw [saveToDirectory] at h ⊢
  generalize (match simpleSingleFile files with
    | some file =>
        writeBytesToDirectory ⟨fs, [], []⟩ root (basename file.name) file.bytes (outcomes 0)
    | none => writeCollectionToDirectory root outcomes ⟨fs, [], []⟩ files) = run at h ⊢
  obtain ⟨save, error⟩ := run
  cases error with
  | none => exact (Except.ok.inj h).symm
  | some e => cases h

/-- Every look is answered with what is there. -/
def LooksAnswered (outcomes : Nat → SaveOutcome) : Prop :=
  ∀ i name, (outcomes i).looks name = true

/-- Saving into the directory, whichever way it goes otherwise. -/
theorem saveToDirectory_spec (root : Path) {outcomes : Nat → SaveOutcome}
    (hLooks : LooksAnswered outcomes) (fs : WebFileSystem) {files : List ReceivedWebFile}
    (hNames : ∀ file ∈ files, ∀ part ∈ components file.name, IsPathComponent part) :
    let saved := saveToDirectory root outcomes fs files
    PlacedSafely root fs saved.save ∧ ∃ more left, files = more ++ left ∧
      (left = [] ↔ ∃ result, saved.result = .ok result) ∧ SavedFiles root more saved.save ∧
      (left = [] → saved.save.targets.length = more.length) := by
  have hResult (save : WebSave) (error : Option SaveError) :
      error = none ↔ ∃ result, directoryResult save error = .ok result := by
    cases error <;> simp [directoryResult]
  rw [saveToDirectory]
  cases hSimple : simpleSingleFile files with
  | some file =>
      obtain ⟨rfl, hParts, hBase⟩ := simpleSingleFile_eq_some hSimple hNames
      have hComponent : IsPathComponent file.name :=
        hNames file List.mem_cons_self file.name (by simp [hParts])
      have hRound := @writeBytesToDirectory_round root fs _ [] file.name
        (placedSafely_nil root fs) (by simp) hComponent file.bytes (outcomes 0) (hLooks 0)
      rw [List.append_nil] at hRound
      have hAsks : webAsks root file = (root ++ [file.name], file.bytes) := by
        rw [webAsks, requestedPath, hParts]
      rw [← hAsks] at hRound
      obtain ⟨more, left, hFiles, hLeft, hSaved, hLength⟩ := PlaceRound.single hRound
      dsimp only
      rw [hBase]
      exact ⟨hRound.safe, more, left, hFiles, hLeft.symm.trans (hResult _ _), hSaved,
        fun hNil => hLength (hLeft.mpr hNil)⟩
  | none =>
      obtain ⟨hSafe, more, left, hFiles, hLeft, hSaved, hLength⟩ :=
        @placeAll_spec _ _ _ (fun i s file => saveFile root s file (outcomes i)) webConflict
          (webAsks root) root fs files
          fun i s file hs hFile => saveFile_round hs (hNames file hFile) (hLooks i)
      rw [writeCollectionToDirectory_eq]
      rw [List.length_map] at hLength
      exact ⟨hSafe, more, left, hFiles, hLeft.symm.trans (hResult _ _), hSaved,
        fun hNil => hLength (hLeft.mpr hNil)⟩

end Saving

section

end

end AltSendme.Frontend
