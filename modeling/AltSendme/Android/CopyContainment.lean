import AltSendme.Android.CopyUtils

/-! Where the files of a copy end up. The names come from the other app's provider,
and nothing is taken out of them on the way to a path. -/
namespace AltSendme.Android
open Files (Path components)

/-- The files of a list that are opened: those up to the first that fails. -/
def openedFiles (targetFolder : JavaFile) : List (TreeFile × String) → List String
  | [] => []
  | (file, relativePath) :: rest =>
      if file.cancelled = none ∧
          (targetFolder.resolve (.ofPath relativePath)).parentFile ≠ none then
        match file.reading with
        | .noStream => []
        | .refused _ => []
        | .read _ (some _) => [relativePath]
        | .read _ none => relativePath :: openedFiles targetFolder rest
      else []

/-- The names files are opened under, each as one path from the destination. -/
def openedNames (shared : SharedUri) (currentTimeMillis : Nat) (destination : JavaFile) :
    List JavaFile :=
  match shared with
  | .document document =>
      let name := JavaFile.ofPath (resolveDisplayName document currentTimeMillis)
      match (destination.resolve name).parentFile, document.reading with
      | some _, .read _ _ => [name]
      | _, _ => []
  | .tree _ (some ⟨some folderName, true, listFiles⟩) =>
      let folder := JavaFile.ofPath folderName
      (openedFiles (destination.resolve folder) (walkFilesWithPath "" listFiles)).map
        fun relativePath => folder.resolve (.ofPath relativePath)
  | .tree _ _ => []

section Created

/-- Two names resolved one after the other are one name resolved. -/
theorem resolve_assoc (base first second : JavaFile) :
    (base.resolve first).resolve second = base.resolve (first.resolve second) := by
  by_cases hSecond : second.isRooted = true
  · simp [JavaFile.resolve, hSecond]
  · by_cases hFirst : first.isRooted = true
    · have hBoth : (⟨first.absolute, first.parts ++ second.parts⟩ : JavaFile).isRooted = true := by
        cases hParts : first.parts <;> simp_all [JavaFile.isRooted]
      simp [JavaFile.resolve, hFirst, hSecond, hBoth]
    · have hBoth : ¬(⟨first.absolute, first.parts ++ second.parts⟩ : JavaFile).isRooted = true := by
        cases hParts : first.parts <;> simp_all [JavaFile.isRooted]
      simp [JavaFile.resolve, hFirst, hSecond, hBoth]

theorem created_read (totalBytes : Int64) (chunks : List Nat) (s : TreeCopy) :
    (chunks.foldl (TreeCopy.read totalBytes) s).created = s.created := by
  induction chunks generalizing s with
  | nil => rfl
  | cons bytesRead rest ih =>
      rw [List.foldl_cons, ih, TreeCopy.read]
      split <;> rfl

theorem created_copyFiles (targetFolder : JavaFile) (totalBytes : Int64) (s : TreeCopy)
    (files : List (TreeFile × String)) :
    (copyFiles targetFolder totalBytes s files).1.created =
      s.created ++ (openedFiles targetFolder files).map
        fun relativePath => targetFolder.resolve (.ofPath relativePath) := by
  induction files generalizing s with
  | nil => simp [copyFiles, openedFiles]
  | cons entry rest ih =>
      obtain ⟨file, relativePath⟩ := entry
      rw [copyFiles, openedFiles]
      cases hCancelled : file.cancelled with
      | some failure => simp
      | none =>
          cases hParent : (targetFolder.resolve (.ofPath relativePath)).parentFile with
          | none => simp
          | some parent =>
              cases hReading : file.reading with
              | noStream => simp
              | refused failure => simp
              | read chunks failure =>
                  cases failure with
                  | some failure => simp [created_read]
                  | none => simp [ih, created_read]

/-- The files a copy creates are the ones it opens under the provider's names. -/
theorem created_copyUri (shared : SharedUri) (currentTimeMillis : Nat) (destination : JavaFile) :
    (copyUri shared currentTimeMillis destination).created =
      (openedNames shared currentTimeMillis destination).map destination.resolve := by
  cases shared with
  | document document =>
      rw [copyUri, copyDocument, openedNames]
      dsimp only
      cases (destination.resolve
          (.ofPath (resolveDisplayName document currentTimeMillis))).parentFile with
      | none => rfl
      | some parent =>
          cases document.reading with
          | noStream => rfl
          | refused failure => rfl
          | read chunks failure => cases failure <;> rfl
  | tree uri sourceRoot =>
      show (copyUriTreeWithProgress uri sourceRoot destination).created = _
      cases sourceRoot with
      | none => rfl
      | some root =>
          obtain ⟨name, isDirectory, listFiles⟩ := root
          cases name with
          | none => rfl
          | some folderName =>
              cases isDirectory with
              | false => rfl
              | true =>
                  have hFiles := created_copyFiles (destination.resolve (.ofPath folderName))
                    (sumOfLengths (walkFilesWithPath "" listFiles))
                    ⟨0, Float32.Model.ofInt64 0, [⟨0, sumOfLengths (walkFilesWithPath "" listFiles),
                      some (destination.resolve (.ofPath folderName)).absolutePath⟩], []⟩
                    (walkFilesWithPath "" listFiles)
                  rw [openedNames, List.map_map]
                  simp only [copyUriTreeWithProgress, if_true, List.nil_append] at hFiles ⊢
                  generalize copyFiles _ _ _ _ = outcome at hFiles ⊢
                  obtain ⟨copied, failure⟩ := outcome
                  cases failure <;>
                    simpa [Function.comp_def, resolve_assoc] using hFiles

/-- Every file of a copy lies below its folder exactly when each name it is opened
under stays below. -/
theorem copied_below_iff (shared : SharedUri) (currentTimeMillis : Nat) (destination : JavaFile) :
    (∀ file ∈ (copyUri shared currentTimeMillis destination).created, file.Below destination) ↔
      ∀ name ∈ openedNames shared currentTimeMillis destination, StaysBelow destination name := by
  rw [created_copyUri]
  simp only [List.forall_mem_map, resolve_below_iff]

end Created

section PlainNames

/-- No part of the name is empty, a dot, two dots or ends in a colon. -/
def Plain (name : String) : Prop :=
  ∀ part ∈ components name, part ≠ "" ∧ part ≠ "." ∧ part ≠ ".." ∧ part.toList.getLast? ≠ some ':'

mutual

/-- Every name below a directory is plain. -/
def PlainTrees : List DocumentTree → Prop
  | [] => True
  | tree :: rest => PlainTree tree ∧ PlainTrees rest

def PlainTree : DocumentTree → Prop
  | .file name _ => ∀ n ∈ name, Plain n
  | .directory name listFiles => (∀ n ∈ name, Plain n) ∧ PlainTrees listFiles
  | .other _ => True

end

theorem components_append_slash (first second : String) :
    components (first ++ "/" ++ second) = components first ++ components second := by
  have hChars : (first ++ "/" ++ second).toList = first.toList ++ '/' :: second.toList := by simp
  rw [components, hChars, List.splitOn_append_cons_self, List.map_append]
  rfl

theorem Plain.childPath {relativePath name : String} (hRel : relativePath = "" ∨ Plain relativePath)
    (hName : Plain name) : Plain (childPath relativePath name) := by
  unfold Android.childPath
  split
  · exact hName
  · next hSome =>
      intro part hPart
      rw [components_append_slash] at hPart
      rcases List.mem_append.mp hPart with hPart | hPart
      · exact (hRel.resolve_left hSome) part hPart
      · exact hName part hPart

mutual

theorem walkFilesWithPath_plain {relativePath : String}
    (hRel : relativePath = "" ∨ Plain relativePath) :
    ∀ trees, PlainTrees trees → ∀ entry ∈ walkFilesWithPath relativePath trees, Plain entry.2
  | [], _, entry, hMem => by simp [walkFilesWithPath] at hMem
  | tree :: rest, hTrees, entry, hMem => by
      rw [walkFilesWithPath] at hMem
      rcases List.mem_append.mp hMem with hMem | hMem
      · exact walkChild_plain hRel tree hTrees.1 entry hMem
      · exact walkFilesWithPath_plain hRel rest hTrees.2 entry hMem

theorem walkChild_plain {relativePath : String}
    (hRel : relativePath = "" ∨ Plain relativePath) :
    ∀ tree, PlainTree tree → ∀ entry ∈ walkChild relativePath tree, Plain entry.2
  | .file none _, _, entry, hMem => by simp [walkChild] at hMem
  | .file (some name) file, hTree, entry, hMem => by
      rw [walkChild, List.mem_singleton] at hMem
      rw [hMem]
      exact Plain.childPath hRel (hTree name rfl)
  | .directory none _, _, entry, hMem => by simp [walkChild] at hMem
  | .directory (some name) listFiles, hTree, entry, hMem => by
      rw [walkChild] at hMem
      exact walkFilesWithPath_plain (Or.inr (Plain.childPath hRel (hTree.1 name rfl))) listFiles
        hTree.2 entry hMem
  | .other _, _, entry, hMem => by simp [walkChild] at hMem

end

/-- A plain path has no root and keeps all its parts. -/
theorem Plain.ofPath {path : String} (h : Plain path) :
    JavaFile.ofPath path = ⟨false, components path⟩ := by
  have hParts : pathParts path = components path :=
    List.filter_eq_self.mpr fun part hPart => by simpa using (h part hPart).1
  have hHead : path.toList.head? ≠ some '/' := by
    intro hHead
    have hEmpty : "" ∈ components path := by
      cases hChars : path.toList with
      | nil => simp [hChars] at hHead
      | cons c rest =>
          obtain rfl : c = '/' := by simpa [hChars] using hHead
          simp [components, hChars, List.splitOn_cons_eq_if_modifyHead]
    exact (h "" hEmpty).1 rfl
  rw [JavaFile.ofPath, hParts]
  simpa using hHead

theorem Plain.isRooted {path : String} (h : Plain path) (more : Path) :
    (⟨false, components path ++ more⟩ : JavaFile).isRooted = false := by
  cases hParts : components path with
  | nil => exact absurd hParts (Files.components_ne_nil path)
  | cons part rest =>
      have hColon := (h part (by simp [hParts])).2.2.2
      simpa [JavaFile.isRooted] using hColon

theorem Plain.staysBelow {path : String} (h : Plain path) (directory : JavaFile) (more : Path)
    (hMore : ∀ part ∈ more, part ≠ "." ∧ part ≠ "..") :
    StaysBelow directory ⟨false, components path ++ more⟩ := by
  refine staysBelow_of_plain (h.isRooted more) (by simp [Files.components_ne_nil]) ?_
  intro part hPart
  rcases List.mem_append.mp hPart with hPart | hPart
  · exact ⟨(h part hPart).2.1, (h part hPart).2.2.1⟩
  · exact hMore part hPart

theorem openedFiles_subset {targetFolder : JavaFile} {files : List (TreeFile × String)}
    {relativePath : String} (h : relativePath ∈ openedFiles targetFolder files) :
    ∃ file, (file, relativePath) ∈ files := by
  induction files with
  | nil => simp [openedFiles] at h
  | cons entry rest ih =>
      obtain ⟨file, path⟩ := entry
      rw [openedFiles] at h
      split at h
      · split at h
        · exact absurd h List.not_mem_nil
        · exact absurd h List.not_mem_nil
        · obtain rfl := List.mem_singleton.mp h
          exact ⟨file, List.mem_cons_self⟩
        · rcases List.mem_cons.mp h with rfl | h
          · exact ⟨file, List.mem_cons_self⟩
          · obtain ⟨other, hMem⟩ := ih h
            exact ⟨other, List.mem_cons_of_mem _ hMem⟩
      · exact absurd h List.not_mem_nil

/-- The names a provider chooses for what it shares. -/
def PlainNames (currentTimeMillis : Nat) : SharedUri → Prop
  | .document document => Plain (resolveDisplayName document currentTimeMillis)
  | .tree _ (some root) => (∀ name ∈ root.name, Plain name) ∧ PlainTrees root.listFiles
  | .tree _ none => True

/-- With plain names throughout, every file of the copy stays below its folder. -/
theorem copied_below_of_plain {shared : SharedUri} {currentTimeMillis : Nat}
    (hNames : PlainNames currentTimeMillis shared) (destination : JavaFile) :
    ∀ file ∈ (copyUri shared currentTimeMillis destination).created, file.Below destination := by
  rw [created_copyUri]
  simp only [List.forall_mem_map, resolve_below_iff]
  intro name hName
  match shared, hNames with
  | .document document, hPlain =>
      have hBelow := Plain.staysBelow hPlain destination [] (by simp)
      rw [List.append_nil, ← Plain.ofPath hPlain] at hBelow
      rw [openedNames] at hName
      split at hName
      · rwa [List.mem_singleton.mp hName]
      · exact absurd hName List.not_mem_nil
  | .tree _ none, _ => exact absurd hName List.not_mem_nil
  | .tree _ (some ⟨none, _, _⟩), _ => exact absurd hName List.not_mem_nil
  | .tree _ (some ⟨some _, false, _⟩), _ => exact absurd hName List.not_mem_nil
  | .tree _ (some ⟨some folderName, true, listFiles⟩), ⟨hFolder, hTrees⟩ =>
      rw [openedNames] at hName
      obtain ⟨relativePath, hOpened, rfl⟩ := List.mem_map.mp hName
      obtain ⟨file, hWalked⟩ := openedFiles_subset hOpened
      have hPlain : Plain folderName := hFolder folderName rfl
      have hRel : Plain relativePath :=
        walkFilesWithPath_plain (Or.inl rfl) listFiles hTrees (file, relativePath) hWalked
      have hRooted := hRel.isRooted []
      rw [List.append_nil] at hRooted
      rw [hPlain.ofPath, hRel.ofPath, JavaFile.resolve, if_neg (by simp [hRooted])]
      exact hPlain.staysBelow destination _ fun part hPart =>
        ⟨(hRel part hPart).2.1, (hRel part hPart).2.2.1⟩

end PlainNames

/-- The folder of one copy. -/
private def cacheFolder : JavaFile := ⟨true, ["cache", "file_cache", "1700000000000"]⟩

/-- A document that says its name is `../evil`. -/
private def climbing : SharedDocument :=
  { uri := "content://other.app/1", name := some "../evil", queriedName := none,
    lastPathSegment := some "1", length := some 1, queriedSize := none,
    reading := .read [1] none }

/-- Its file lands beside the folder. -/
theorem climbing_not_below : ∃ file ∈ (copyUri (.document climbing) 0 cacheFolder).created,
    ¬file.Below cacheFolder := by
  have hCreated : (copyUri (.document climbing) 0 cacheFolder).created =
      [⟨true, ["cache", "file_cache", "1700000000000", "..", "evil"]⟩] := by decide
  rw [hCreated]
  refine ⟨_, List.mem_singleton_self _, ?_⟩
  rintro ⟨rest, -, hEq⟩
  simp [follow, enter, cacheFolder] at hEq

end AltSendme.Android
