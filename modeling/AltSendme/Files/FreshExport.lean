import AltSendme.Files.RejectedNames
import AltSendme.Listing.Keyed

/-! An export onto free ground. Where nothing stands at the paths that the files
of a collection ask for, no file is above them and none of them is in the way of
another, each is put where it was asked for and nothing else changes. -/
namespace AltSendme.Files
open Keyed (keys get?)

section
variable {Content : Type}

/-- The file system with these files in it, and the directories above them. -/
def withFiles (fs : FileSystem Content) (files : List (Path × Content)) : FileSystem Content :=
  fun p =>
    match get? files p with
    | some content => some (.file content)
    | none => if fs p = none ∧ ∃ file ∈ files, p <+: file.1 then some .dir else fs p

/-- A file can be put at this path. -/
structure Clear (fs : FileSystem Content) (path : Path) : Prop where
  free : fs path = none
  notBlocked : ¬Blocked fs path

/-- Neither path is above the other or equal to it. -/
def Apart {Name : Type} (p q : List Name) : Prop := ¬p <+: q ∧ ¬q <+: p

/-- The path that a file asks for, and its content. -/
def asked (outputDir : Path) (file : String × Content) : Path × Content :=
  (outputDir ++ components file.1, file.2)

theorem Apart.symm {Name : Type} {p q : List Name} (h : Apart p q) : Apart q p := ⟨h.2, h.1⟩

theorem apart_append_iff {Name : Type} {root p q : List Name} :
    Apart (root ++ p) (root ++ q) ↔ Apart p q := by
  rw [Apart, Apart, List.prefix_append_right_inj, List.prefix_append_right_inj]

theorem withFiles_nil (fs : FileSystem Content) : withFiles fs [] = fs := by
  funext p
  simp [withFiles, get?]

theorem get?_eq_none_iff {files : List (Path × Content)} {p : Path} :
    get? files p = none ↔ p ∉ keys files := by
  rw [get?, Option.map_eq_none_iff, List.find?_eq_none]
  constructor
  · intro h hMem
    obtain ⟨file, hFile, hKey⟩ := List.mem_map.mp hMem
    exact h file hFile (by simpa using hKey)
  · intro h file hFile hEq
    have hKey : file.1 = p := by simpa using hEq
    exact h (hKey ▸ List.mem_map_of_mem hFile)

/-- One more file at a new path is found there, and all others as before. -/
theorem get?_concat {files : List (Path × Content)} {target : Path} (content : Content)
    (hNew : target ∉ keys files) (p : Path) :
    get? (files ++ [(target, content)]) p =
      if p = target then some content else get? files p := by
  rw [get?, List.find?_append]
  by_cases hp : p = target
  · subst hp
    have hNone : files.find? (fun file => file.1 = p) = none :=
      Option.map_eq_none_iff.mp (get?_eq_none_iff.mpr hNew)
    simp [hNone]
  · have hOther : ¬target = p := fun hEq => hp hEq.symm
    simp [hp, hOther, get?]

/-- Away from the new files only the directories above them are made. -/
theorem withFiles_of_notMem (fs : FileSystem Content) {files : List (Path × Content)} {p : Path}
    (h : p ∉ keys files) : withFiles fs files p =
      if fs p = none ∧ ∃ file ∈ files, p <+: file.1 then some .dir else fs p := by
  rw [withFiles, get?_eq_none_iff.mpr h]

/-- At the place of a new file there is a file. -/
theorem withFiles_of_mem (fs : FileSystem Content) {files : List (Path × Content)} {p : Path}
    (h : p ∈ keys files) : ∃ content, withFiles fs files p = some (.file content) := by
  obtain ⟨content, hGet⟩ := Option.ne_none_iff_exists'.mp (mt get?_eq_none_iff.mp (not_not.mpr h))
  exact ⟨content, by rw [withFiles, hGet]⟩

/-- What is there was there before or lies on the way to a new file. -/
theorem withFiles_isSome {fs : FileSystem Content} {files : List (Path × Content)} {p : Path} :
    (withFiles fs files p).isSome ↔ (fs p).isSome ∨ ∃ file ∈ files, p <+: file.1 := by
  by_cases hKey : p ∈ keys files
  · obtain ⟨content, hFile⟩ := withFiles_of_mem fs hKey
    obtain ⟨file, hMem, hEq⟩ := List.mem_map.mp hKey
    refine iff_of_true (by rw [hFile]; rfl) (Or.inr ⟨file, hMem, ?_⟩)
    rw [hEq]
  · rw [withFiles_of_notMem fs hKey]
    by_cases hAbove : ∃ file ∈ files, p <+: file.1
    · cases hEntry : fs p with
      | none => simp [hAbove]
      | some entry => simp
    · simp [hAbove]

/-- One more file, once the directories above it are made. -/
theorem withFiles_concat {fs : FileSystem Content} {files : List (Path × Content)} {target : Path}
    (content : Content) (hTarget : target ≠ []) (hNew : target ∉ keys files) :
    Function.update (makeDirs (withFiles fs files) target.dropLast (target.dropLast.length + 1))
        target (some (.file content)) =
      withFiles fs (files ++ [(target, content)]) := by
  funext p
  by_cases hp : p = target
  · subst hp
    rw [Function.update_self, withFiles, get?_concat content hNew, if_pos rfl]
  · rw [Function.update_of_ne hp, makeDirs, withFiles, withFiles, get?_concat content hNew, if_neg hp]
    have hPrefix : p <+: target.dropLast ∧ p.length < target.dropLast.length + 1 ↔
        p <+: target := by
      rw [prefix_dropLast_or_eq hTarget]
      constructor
      · exact fun h => Or.inl h.1
      · rintro (h | h)
        · exact ⟨h, Nat.lt_succ_of_le h.length_le⟩
        · exact absurd h hp
    simp only [hPrefix]
    cases hGet : get? files p with
    | some found => simp
    | none =>
        simp only [List.mem_append, List.mem_singleton, or_and_right, exists_or,
          exists_eq_left]
        cases hEntry : fs p with
        | some entry => simp
        | none =>
            by_cases hAbove : ∃ file ∈ files, p <+: file.1
            · simp [hAbove]
            · simp [hAbove]

/-- Every file was there before or is a new one. -/
theorem withFiles_file {fs : FileSystem Content} {files : List (Path × Content)} {p : Path}
    (h : (withFiles fs files p).any Entry.isFile = true) :
    p ∈ keys files ∨ (fs p).any Entry.isFile = true := by
  by_cases hKey : p ∈ keys files
  · exact Or.inl hKey
  · rw [withFiles_of_notMem fs hKey] at h
    split at h
    · cases h
    · exact Or.inr h

/-- At a free place stands exactly the new file's content. -/
theorem withFiles_eq_file {fs : FileSystem Content} {files : List (Path × Content)} {p : Path}
    (hFree : fs p = none) (hKeys : (keys files).Nodup) {content : Content} :
    withFiles fs files p = some (.file content) ↔ (p, content) ∈ files := by
  rw [withFiles, ← Keyed.get?_eq_some_iff hKeys]
  cases hGet : get? files p with
  | some found => simp
  | none =>
      dsimp only
      split <;> simp [hFree]

/-- At a free place stands a directory exactly if a new file lies below it. -/
theorem withFiles_eq_dir {fs : FileSystem Content} {files : List (Path × Content)} {p : Path}
    (hFree : fs p = none) :
    withFiles fs files p = some .dir ↔ p ∉ keys files ∧ ∃ file ∈ files, p <+: file.1 := by
  by_cases hKey : p ∈ keys files
  · obtain ⟨content, hFile⟩ := withFiles_of_mem fs hKey
    simp [hFile, hKey]
  · rw [withFiles_of_notMem fs hKey]
    simp [hFree, hKey]

/-- The files before do not get in the way of one that is apart from them. -/
theorem Clear.withFiles {fs : FileSystem Content} {files : List (Path × Content)} {target : Path}
    (h : Clear fs target) (hApart : ∀ file ∈ files, Apart file.1 target) :
    Clear (withFiles fs files) target := by
  constructor
  · rw [← Option.not_isSome_iff_eq_none, withFiles_isSome, h.free]
    rintro (hSome | ⟨file, hFile, hPrefix⟩)
    · cases hSome
    · exact (hApart file hFile).2 hPrefix
  · rintro ⟨p, hPrefix, hIs⟩
    rcases withFiles_file hIs with hKey | hOld
    · obtain ⟨file, hFile, rfl⟩ := List.mem_map.mp hKey
      exact (hApart file hFile).1 hPrefix
    · exact h.notBlocked ⟨p, hPrefix, hOld⟩

/-- A path on the way into a directory's entry ends above the entry or below it. -/
theorem prefix_or_below {root p rel : Path} {top : String} (h : p <+: root ++ top :: rel) :
    p <+: root ∨ root ++ [top] <+: p := by
  have hTop : root ++ [top] <+: root ++ top :: rel := ⟨rel, by simp⟩
  rcases List.prefix_or_prefix_of_prefix h hTop with hAbove | hBelow
  · rcases List.prefix_concat_iff.mp hAbove with rfl | hRoot
    · exact Or.inr List.prefix_rfl
    · exact Or.inl hRoot
  · exact Or.inr hBelow

/-- Where nothing stands under a name, and no file above it. -/
theorem clear_below {fs : FileSystem Content} {root : Path} {top : String}
    (hFree : ∀ p, root ++ [top] <+: p → fs p = none) (hAbove : ¬Blocked fs root) (rel : Path) :
    Clear fs (root ++ top :: rel) := by
  have hTop : root ++ [top] <+: root ++ top :: rel := ⟨rel, by simp⟩
  refine ⟨hFree _ hTop, ?_⟩
  rintro ⟨p, hPrefix, hIs⟩
  rcases prefix_or_below hPrefix with hRoot | hBelow
  · exact hAbove ⟨p, hRoot, hIs⟩
  · rw [hFree p hBelow] at hIs
    cases hIs

variable {display : Path → String} {outputDir : Path}

/-- One round of the loop. -/
theorem exportFile_fresh {s : Export Content} {file : String × Content}
    (hName : ∀ part ∈ components file.1, IsPathComponent part)
    (hClear : Clear s.fs (asked outputDir file).1) :
    ∃ made, createDirAll s.fs (asked outputDir file).1.dropLast = some made ∧
      exportFile display outputDir s file .done =
        (⟨Function.update made (asked outputDir file).1 (some (.file file.2)),
          s.targets ++ [(asked outputDir file).1], s.conflicts⟩, none) := by
  have hPath : getExportPath outputDir file.1 = .ok (asked outputDir file).1 :=
    getExportPath_eq_ok.mpr ⟨hName, rfl⟩
  have hChoice : chooseTarget display s.fs (asked outputDir file).1 =
      .ok ((asked outputDir file).1, []) := by
    simp [chooseTarget, hClear.free, pure, Except.pure]
  have hDirs : createDirAll s.fs (asked outputDir file).1.dropLast ≠ none := by
    rw [Ne, createDirAll_eq_none]
    rintro ⟨p, hPrefix, hIs⟩
    exact hClear.notBlocked ⟨p, hPrefix.trans (List.dropLast_prefix _), hIs⟩
  obtain ⟨made, hMade⟩ := Option.ne_none_iff_exists'.mp hDirs
  refine ⟨made, hMade, ?_⟩
  simp [exportFile, hPath, hChoice, writeTarget, hMade]

/-- The whole loop, from a point at which the files `done` have been written. -/
theorem exportFiles_fresh {fs : FileSystem Content} {done rest : List (String × Content)}
    (hNames : ∀ file ∈ rest, ∀ part ∈ components file.1, IsPathComponent part)
    (hClear : ∀ file ∈ rest, Clear fs (asked outputDir file).1)
    (hApart : ((done ++ rest).map fun file => (asked outputDir file).1).Pairwise Apart) :
    exportFiles display outputDir (fun _ => .done)
        ⟨withFiles fs (done.map (asked outputDir)), done.map fun file => (asked outputDir file).1, []⟩
        rest =
      (⟨withFiles fs ((done ++ rest).map (asked outputDir)),
        (done ++ rest).map fun file => (asked outputDir file).1, []⟩, none) := by
  induction rest generalizing done with
  | nil => simp [exportFiles]
  | cons file rest ih =>
      obtain ⟨hName, hNames⟩ := List.forall_mem_cons.mp hNames
      obtain ⟨hFirst, hClear⟩ := List.forall_mem_cons.mp hClear
      have hBefore : ∀ old ∈ done.map (asked outputDir), Apart old.1 (asked outputDir file).1 := by
        intro old hOld
        obtain ⟨earlier, hEarlier, rfl⟩ := List.mem_map.mp hOld
        rw [List.map_append] at hApart
        exact (List.pairwise_append.mp hApart).2.2 _ (List.mem_map_of_mem hEarlier) _
          List.mem_cons_self
      have hNew : (asked outputDir file).1 ∉ keys (done.map (asked outputDir)) := by
        intro hMem
        obtain ⟨old, hOld, hEq⟩ := List.mem_map.mp hMem
        exact (hBefore old hOld).1 (by rw [hEq])
      have hTarget : (asked outputDir file).1 ≠ [] := by
        simp [asked, components_ne_nil]
      obtain ⟨made, hMade, hRound⟩ := @exportFile_fresh _ display outputDir
        ⟨withFiles fs (done.map (asked outputDir)),
          done.map fun file => (asked outputDir file).1, []⟩ file hName (hFirst.withFiles hBefore)
      obtain rfl := createDirAll_eq_some hMade
      rw [withFiles_concat _ hTarget hNew] at hRound
      have hDone : done.map (asked outputDir) ++ [((asked outputDir file).1, file.2)] =
          (done ++ [file]).map (asked outputDir) := by
        rw [List.map_append]
        rfl
      have hTargets : (done.map fun file => (asked outputDir file).1) ++
          [(asked outputDir file).1] = (done ++ [file]).map fun file => (asked outputDir file).1 := by
        rw [List.map_append]
        rfl
      rw [exportFiles, hRound, hDone, hTargets]
      have hRest := @ih (done ++ [file]) hNames hClear (by rwa [List.append_assoc])
      rwa [List.append_assoc] at hRest

/-- An export onto free ground. -/
theorem exportToDirectory_fresh {fs : FileSystem Content} {collection : List (String × Content)}
    (hNames : ∀ file ∈ collection, ∀ part ∈ components file.1, IsPathComponent part)
    (hClear : ∀ file ∈ collection, Clear fs (asked outputDir file).1)
    (hApart : (collection.map fun file => components file.1).Pairwise Apart) :
    exportToDirectory display (fun _ => .done) fs outputDir collection =
      (⟨withFiles fs (collection.map (asked outputDir)),
        collection.map fun file => (asked outputDir file).1, []⟩, none) := by
  have hPaths : (collection.map fun file => (asked outputDir file).1).Pairwise Apart := by
    rw [List.pairwise_map] at hApart ⊢
    exact hApart.imp fun h => apart_append_iff.mpr h
  have hRun := @exportFiles_fresh _ display outputDir fs [] collection hNames hClear hPaths
  rwa [List.map_nil, withFiles_nil] at hRun

end

end AltSendme.Files
