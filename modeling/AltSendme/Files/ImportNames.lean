import AltSendme.Files.Import

/-! The names in an imported collection. De-duplication numbers the second and
every later file of one name, so which names a collection holds depends only on
the names collected, not on the order in which their files arrive. -/
namespace AltSendme.Files

/-- The names a collection gets: the collected ones and the numbered ones. -/
def NameTaken (names : List String) (x : String) : Prop :=
  x ∈ names ∨ ∃ n k, 2 ≤ k ∧ k ≤ names.count n ∧ x = numbered n k

/-- No number that de-duplication gives out makes a name that was collected. -/
def NumbersFree (names : List String) : Prop :=
  ∀ n k, 2 ≤ k → k ≤ names.count n → numbered n k ∉ names

/-- One name is a directory on the way to the other. -/
def ProperPrefix (p q : String) : Prop :=
  components p <+: components q ∧ components p ≠ components q

instance (p q : String) : Decidable (ProperPrefix p q) := inferInstanceAs (Decidable (_ ∧ _))

/-- No file of a collection lies below another. -/
def PrefixFree (names : List String) : Prop :=
  ∀ p ∈ names, ∀ q ∈ names, ¬ProperPrefix p q

instance (names : List String) : Decidable (PrefixFree names) :=
  inferInstanceAs (Decidable (∀ _ ∈ _, _))

/-- No name that a file was collected under, or that its number makes, is a
directory in which another file was collected. -/
def DirectoriesFree (names : List String) : Prop :=
  ∀ p, NameTaken names p → ∀ q ∈ names, ¬ProperPrefix p q

section
variable {Hash : Type}

/-- The names under which the files of an input are collected. -/
def InputPath.names (path : InputPath Hash) : List String :=
  match collectPathFiles path.found path.stem with
  | .ok files => files.map Prod.fst
  | .error _ => []

/-- The collected names of all inputs. -/
def importNames (paths : List (InputPath Hash)) : List String := paths.flatMap InputPath.names

/-- Where de-duplication stands after files of these names. -/
structure Imported.Numbers (names : List String) (acc : Imported Hash) : Prop where
  seen : ∀ n, acc.seen n = names.count n
  taken : ∀ x, x ∈ acc.entries.map Prod.fst ↔ NameTaken names x
  nodup : (acc.entries.map Prod.fst).Nodup ↔ NumbersFree names

/-- Which numbered names are taken does not depend on the order. -/
theorem NameTaken.congr {names others : List String} (h : names.Perm others) (x : String) :
    NameTaken names x ↔ NameTaken others x := by
  simp only [NameTaken, h.mem_iff, h.count_eq]

/-- Whether the numbers are free does not depend on the order. -/
theorem NumbersFree.congr {names others : List String} (h : names.Perm others) :
    NumbersFree names ↔ NumbersFree others := by
  simp only [NumbersFree, h.mem_iff, h.count_eq]

theorem le_count_concat_new {names : List String} {n : String} (h : names.count n = 0)
    (m : String) {k : Nat} (hk : 2 ≤ k) :
    k ≤ (names ++ [n]).count m ↔ k ≤ names.count m := by
  by_cases hm : m = n
  · subst hm
    simp only [List.count_append, h, List.count_singleton_self]
    omega
  · simp [List.count_append, Ne.symm hm]

/-- A first file of a name keeps it. -/
theorem nameTaken_concat_new {names : List String} {n : String} (h : names.count n = 0)
    (x : String) : NameTaken (names ++ [n]) x ↔ NameTaken names x ∨ x = n := by
  have hCount := @le_count_concat_new names n h
  constructor
  · rintro (hMem | ⟨m, k, hk, hLe, rfl⟩)
    · rcases List.mem_append.mp hMem with hOld | hNew
      · exact Or.inl (Or.inl hOld)
      · exact Or.inr (List.mem_singleton.mp hNew)
    · exact Or.inl (Or.inr ⟨m, k, hk, (hCount m hk).mp hLe, rfl⟩)
  · rintro ((hMem | ⟨m, k, hk, hLe, rfl⟩) | rfl)
    · exact Or.inl (List.mem_append_left _ hMem)
    · exact Or.inr ⟨m, k, hk, (hCount m hk).mpr hLe, rfl⟩
    · exact Or.inl (by simp)

/-- A later file of a name is numbered. -/
theorem nameTaken_concat_old {names : List String} {n : String} (h : names.count n ≠ 0)
    (x : String) :
    NameTaken (names ++ [n]) x ↔ NameTaken names x ∨ x = numbered n (names.count n + 1) := by
  have hThere : n ∈ names := List.count_pos_iff.mp (Nat.pos_of_ne_zero h)
  have hMono (m : String) : names.count m ≤ (names ++ [n]).count m := by
    rw [List.count_append]
    exact Nat.le_add_right _ _
  constructor
  · rintro (hMem | ⟨m, k, hk, hLe, rfl⟩)
    · rcases List.mem_append.mp hMem with hOld | hNew
      · exact Or.inl (Or.inl hOld)
      · exact Or.inl (Or.inl (List.mem_singleton.mp hNew ▸ hThere))
    · by_cases hm : m = n
      · subst hm
        rw [List.count_append, List.count_singleton_self] at hLe
        rcases Nat.lt_or_ge (names.count m) k with hLast | hEarlier
        · exact Or.inr (by rw [show k = names.count m + 1 by omega])
        · exact Or.inl (Or.inr ⟨m, k, hk, hEarlier, rfl⟩)
      · rw [List.count_append, List.count_singleton, if_neg (by simpa using Ne.symm hm)] at hLe
        exact Or.inl (Or.inr ⟨m, k, hk, hLe, rfl⟩)
  · rintro ((hMem | ⟨m, k, hk, hLe, rfl⟩) | rfl)
    · exact Or.inl (List.mem_append_left _ hMem)
    · exact Or.inr ⟨m, k, hk, hLe.trans (hMono m), rfl⟩
    · refine Or.inr ⟨n, names.count n + 1, by omega, ?_, rfl⟩
      rw [List.count_append, List.count_singleton_self]

/-- A new name keeps the numbers free if no numbered name takes it. -/
theorem numbersFree_concat_new {names : List String} {n : String} (h : names.count n = 0) :
    NumbersFree (names ++ [n]) ↔ NumbersFree names ∧ ¬NameTaken names n := by
  have hAway : n ∉ names := List.count_eq_zero.mp h
  have hCount := @le_count_concat_new names n h
  constructor
  · intro hFree
    refine ⟨fun m k hk hLe hMem => ?_, ?_⟩
    · exact hFree m k hk ((hCount m hk).mpr hLe) (List.mem_append_left _ hMem)
    · rintro (hMem | ⟨m, k, hk, hLe, rfl⟩)
      · exact hAway hMem
      · exact hFree m k hk ((hCount m hk).mpr hLe) (by simp)
  · rintro ⟨hFree, hFresh⟩ m k hk hLe hMem
    rw [hCount m hk] at hLe
    rcases List.mem_append.mp hMem with hOld | hNew
    · exact hFree m k hk hLe hOld
    · exact hFresh (Or.inr ⟨m, k, hk, hLe, (List.mem_singleton.mp hNew).symm⟩)

/-- A repeated name keeps the numbers free if its number is not taken. -/
theorem numbersFree_concat_old {names : List String} {n : String} (h : names.count n ≠ 0) :
    NumbersFree (names ++ [n]) ↔
      NumbersFree names ∧ ¬NameTaken names (numbered n (names.count n + 1)) := by
  have hThere : n ∈ names := List.count_pos_iff.mp (Nat.pos_of_ne_zero h)
  have hMem (x : String) : x ∈ names ++ [n] ↔ x ∈ names := by
    rw [List.mem_append, List.mem_singleton]
    exact ⟨fun hx => hx.elim id fun hEq => hEq ▸ hThere, Or.inl⟩
  have hMono (m : String) : names.count m ≤ (names ++ [n]).count m := by
    rw [List.count_append]
    exact Nat.le_add_right _ _
  constructor
  · intro hFree
    refine ⟨fun m k hk hLe hOld => hFree m k hk (hLe.trans (hMono m)) ((hMem _).mpr hOld), ?_⟩
    rintro (hOld | ⟨m, k, hk, hLe, hEq⟩)
    · refine hFree n _ (by omega) ?_ ((hMem _).mpr hOld)
      rw [List.count_append, List.count_singleton_self]
    · obtain ⟨rfl, rfl⟩ := numbered_inj hEq
      omega
  · rintro ⟨hFree, hFresh⟩ m k hk hLe hOld
    rw [hMem] at hOld
    rcases Nat.lt_or_ge (names.count m) k with hLast | hEarlier
    · by_cases hm : m = n
      · subst hm
        rw [List.count_append, List.count_singleton_self] at hLe
        obtain rfl : k = names.count m + 1 := by omega
        exact hFresh (Or.inl hOld)
      · rw [List.count_append, List.count_singleton, if_neg (by simpa using Ne.symm hm)] at hLe
        omega
    · exact hFree m k hk hEarlier hOld

/-- An empty import has numbered nothing. -/
theorem Imported.numbers_empty : (Imported.empty : Imported Hash).Numbers [] where
  seen _ := rfl
  taken x := by simp [Imported.empty, NameTaken]
  nodup := by simp [Imported.empty, NumbersFree]

/-- Pushing a file numbers its name. -/
theorem Imported.Numbers.push {names : List String} {acc : Imported Hash} (h : acc.Numbers names)
    (file : String × Blob Hash) : (acc.push file).Numbers (names ++ [file.1]) := by
  obtain ⟨n, blob⟩ := file
  by_cases hZero : names.count n = 0
  · have hPush : acc.push (n, blob) = ⟨acc.entries ++ [(n, blob)], Function.update acc.seen n 1⟩ := by
      simp [Imported.push, dedupName, h.seen n, hZero]
    rw [hPush]
    refine ⟨fun m => ?_, fun x => ?_, ?_⟩
    · by_cases hm : m = n
      · subst hm
        simp [List.count_append, hZero]
      · simp [Function.update_of_ne hm, h.seen m, List.count_append, Ne.symm hm]
    · rw [nameTaken_concat_new hZero, List.map_append, List.mem_append, h.taken]
      simp
    · rw [numbersFree_concat_new hZero, ← h.nodup, ← h.taken, List.map_append]
      rw [List.map_singleton, ← List.concat_eq_append, List.nodup_concat]
      exact and_comm
  · have hPush : acc.push (n, blob) = ⟨acc.entries ++ [(numbered n (names.count n + 1), blob)],
        Function.update acc.seen n (names.count n + 1)⟩ := by
      simp [Imported.push, dedupName, h.seen n, hZero]
    rw [hPush]
    refine ⟨fun m => ?_, fun x => ?_, ?_⟩
    · by_cases hm : m = n
      · subst hm
        simp [List.count_append]
      · simp [Function.update_of_ne hm, h.seen m, List.count_append, Ne.symm hm]
    · rw [nameTaken_concat_old hZero, List.map_append, List.mem_append, h.taken]
      simp
    · rw [numbersFree_concat_old hZero, ← h.nodup, ← h.taken, List.map_append]
      rw [List.map_singleton, ← List.concat_eq_append, List.nodup_concat]
      exact and_comm

/-- Pushing files numbers their names in order. -/
theorem Imported.Numbers.foldl {names : List String} {acc : Imported Hash} (h : acc.Numbers names)
    (files : List (String × Blob Hash)) :
    (files.foldl Imported.push acc).Numbers (names ++ files.map Prod.fst) := by
  induction files generalizing names acc with
  | nil => simpa using h
  | cons file files ih => simpa using ih (h.push file)

/-- What is numbered does not depend on the order of the names before. -/
theorem Imported.Numbers.congr {names others : List String} {acc : Imported Hash}
    (h : acc.Numbers names) (hPerm : names.Perm others) : acc.Numbers others where
  seen n := (h.seen n).trans (hPerm.count_eq n)
  taken x := (h.taken x).trans (NameTaken.congr hPerm x)
  nodup := h.nodup.trans (NumbersFree.congr hPerm)

/-- A successful `mapM` has a result for each element. -/
theorem forall₂_of_mapM {ε α β : Type} {f : α → Except ε β} {xs : List α} {ys : List β}
    (h : xs.mapM f = .ok ys) : List.Forall₂ (fun x y => f x = .ok y) xs ys := by
  induction xs generalizing ys with
  | nil =>
      cases h
      exact .nil
  | cons x xs ih =>
      rw [List.mapM_cons] at h
      cases hOne : f x with
      | error e => simp [hOne, bind, Except.bind] at h
      | ok y =>
          cases hRest : xs.mapM f with
          | error e => simp [hOne, hRest, bind, Except.bind] at h
          | ok rest =>
              simp only [hOne, hRest, bind, Except.bind, pure, Except.pure, Except.ok.injEq] at h
              subst h
              exact .cons hOne (ih hRest)

/-- Reading the files changes no name. -/
theorem map_fst_of_addFiles {files : List (String × Option (Blob Hash))}
    {added : List (String × Blob Hash)} (h : addFiles files = .ok added) :
    added.map Prod.fst = files.map Prod.fst := by
  have hEach := forall₂_of_mapM h
  clear h
  induction hEach with
  | nil => rfl
  | @cons file entry files added hOne _ ih =>
      obtain ⟨name, found⟩ := file
      cases found with
      | none => cases hOne
      | some blob =>
          cases hOne
          rw [List.map_cons, List.map_cons, ih]

/-- An input path is collected, read, and entered as its files arrive. -/
theorem importPath_steps {arrival : Arrival Hash} {acc acc' : Imported Hash}
    {path : InputPath Hash} {i : Nat} (h : importPath arrival acc (path, i) = .ok acc') :
    ∃ files added, collectPathFiles path.found path.stem = .ok files ∧
      addFiles files = .ok added ∧ acc' = (arrival.order i added).foldl Imported.push acc := by
  rw [importPath] at h
  cases hFiles : collectPathFiles path.found path.stem with
  | error e => simp [hFiles, bind, Except.bind] at h
  | ok files =>
      cases hAdded : addFiles files with
      | error e => simp [hFiles, hAdded, bind, Except.bind] at h
      | ok added =>
          simp only [hFiles, hAdded, bind, Except.bind, pure, Except.pure, Except.ok.injEq] at h
          exact ⟨files, added, rfl, hAdded, h.symm⟩

/-- A path that is imported has pushed its files, in some order. -/
theorem importPath_eq_ok {arrival : Arrival Hash} {acc acc' : Imported Hash}
    {path : InputPath Hash} {i : Nat} (h : importPath arrival acc (path, i) = .ok acc') :
    ∃ added : List (String × Blob Hash),
      (added.map Prod.fst).Perm path.names ∧ acc' = added.foldl Imported.push acc := by
  obtain ⟨files, added, hFiles, hAdded, rfl⟩ := importPath_steps h
  refine ⟨arrival.order i added, ?_, rfl⟩
  rw [InputPath.names, hFiles]
  dsimp only
  rw [← map_fst_of_addFiles hAdded]
  exact (arrival.perm i added).map _

/-- What the loop over the input paths leaves. -/
theorem foldlM_importPath {arrival : Arrival Hash} {paths : List (InputPath Hash)} {i : Nat}
    {names : List String} {acc acc' : Imported Hash} (hAcc : acc.Numbers names)
    (h : (paths.zipIdx i).foldlM (importPath arrival) acc = .ok acc') :
    acc'.Numbers (names ++ importNames paths) := by
  induction paths generalizing names acc i with
  | nil =>
      cases h
      simpa [importNames] using hAcc
  | cons path paths ih =>
      rw [List.zipIdx_cons, List.foldlM_cons] at h
      cases hOne : importPath arrival acc (path, i) with
      | error e => simp [hOne, bind, Except.bind] at h
      | ok next =>
          simp only [hOne, bind, Except.bind] at h
          obtain ⟨added, hPerm, rfl⟩ := importPath_eq_ok hOne
          have hNext := (hAcc.foldl added).congr (hPerm.append_left names)
          have hRest := ih hNext h
          rwa [List.append_assoc] at hRest

/-- The collection's names are those of the entries, sorted. -/
theorem map_fst_collect_perm (entries : List (String × Blob Hash)) :
    ((collect (sortEntries entries)).2.map Prod.fst).Perm (entries.map Prod.fst) := by
  have hSort : (sortEntries entries).Perm entries := List.perm_insertionSort _ entries
  simpa [collect, Function.comp_def] using hSort.map Prod.fst

/-- A list of paths that is imported has pushed the files of all of them. -/
theorem importPaths_eq_ok {arrival : Arrival Hash} {paths : List (InputPath Hash)}
    {total : UInt64} {collection : Collection Hash}
    (h : importPaths arrival paths = .ok (total, collection)) :
    ∃ acc : Imported Hash, acc.Numbers (importNames paths) ∧
      (collection.map Prod.fst).Perm (acc.entries.map Prod.fst) := by
  rw [importPaths] at h
  cases hLoop : paths.zipIdx.foldlM (importPath arrival) Imported.empty with
  | error e => simp [hLoop, bind, Except.bind] at h
  | ok acc =>
      simp only [hLoop, bind, Except.bind, pure, Except.pure] at h
      split at h
      · cases h
      · refine ⟨acc, by simpa using foldlM_importPath Imported.numbers_empty hLoop, ?_⟩
        have hPerm := map_fst_collect_perm acc.entries
        rwa [Except.ok.inj h] at hPerm

/-- Named bytes that are imported have pushed every item. -/
theorem importNamedBytesCollection_eq_ok {items : List (String × Option (Blob Hash))}
    {total : UInt64} {collection : Collection Hash}
    (h : importNamedBytesCollection items = .ok (total, collection)) :
    ∃ acc : Imported Hash, acc.Numbers (items.map Prod.fst) ∧
      (collection.map Prod.fst).Perm (acc.entries.map Prod.fst) := by
  rw [importNamedBytesCollection] at h
  cases hAdded : addFiles items with
  | error e => simp [hAdded, bind, Except.bind] at h
  | ok added =>
      simp only [hAdded, bind, Except.bind, pure, Except.pure] at h
      split at h
      · cases h
      · have hNumbers := Imported.numbers_empty.foldl added
        rw [List.nil_append, map_fst_of_addFiles hAdded] at hNumbers
        refine ⟨_, hNumbers, ?_⟩
        have hPerm := map_fst_collect_perm (added.foldl Imported.push Imported.empty).entries
        rwa [Except.ok.inj h] at hPerm

/-- A collection has no name twice exactly when no number given out made a name
that was collected. -/
theorem imported_names_nodup_iff :
    (∀ (arrival : Arrival Hash) (paths : List (InputPath Hash)) (total : UInt64)
      (collection : Collection Hash), importPaths arrival paths = .ok (total, collection) →
        ((collection.map Prod.fst).Nodup ↔ NumbersFree (importNames paths))) ∧
      ∀ (items : List (String × Option (Blob Hash))) (total : UInt64)
        (collection : Collection Hash),
        importNamedBytesCollection items = .ok (total, collection) →
          ((collection.map Prod.fst).Nodup ↔ NumbersFree (items.map Prod.fst)) := by
  refine ⟨fun arrival paths total collection h => ?_, fun items total collection h => ?_⟩
  · obtain ⟨acc, hNumbers, hPerm⟩ := importPaths_eq_ok h
    exact hPerm.nodup_iff.trans hNumbers.nodup
  · obtain ⟨acc, hNumbers, hPerm⟩ := importNamedBytesCollection_eq_ok h
    exact hPerm.nodup_iff.trans hNumbers.nodup

/-- The number goes to the last component, so the directories are the same. -/
theorem properPrefix_numbered {p n : String} {k : Nat} (h : ProperPrefix p (numbered n k)) :
    ProperPrefix p n := by
  obtain ⟨init, last, hEq⟩ := exists_components_eq n
  obtain ⟨hPrefix, hNe⟩ := h
  rw [components_numbered hEq] at hPrefix hNe
  have hInit : components p <+: init := (List.prefix_concat_iff.mp hPrefix).resolve_left hNe
  rw [ProperPrefix, hEq]
  refine ⟨hInit.trans (List.prefix_append _ _), fun hSame => ?_⟩
  have hLength := hInit.length_le
  rw [hSame, List.length_append, List.length_singleton] at hLength
  omega

/-- A collection is a tree of files exactly when no file took the name of a
directory. -/
theorem imported_names_prefixFree_iff {arrival : Arrival Hash} {paths : List (InputPath Hash)}
    {total : UInt64} {collection : Collection Hash}
    (h : importPaths arrival paths = .ok (total, collection)) :
    PrefixFree (collection.map Prod.fst) ↔ DirectoriesFree (importNames paths) := by
  obtain ⟨acc, hNumbers, hPerm⟩ := importPaths_eq_ok h
  have hTaken (x : String) : x ∈ collection.map Prod.fst ↔ NameTaken (importNames paths) x :=
    hPerm.mem_iff.trans (hNumbers.taken x)
  constructor
  · intro hFree p hp q hq
    exact hFree p ((hTaken p).mpr hp) q ((hTaken q).mpr (Or.inl hq))
  · intro hFree p hp q hq hPrefix
    rcases (hTaken q).mp hq with hMem | ⟨n, k, hk, hLe, rfl⟩
    · exact hFree p ((hTaken p).mp hp) q hMem hPrefix
    · have hThere : n ∈ importNames paths := List.count_pos_iff.mp (by omega)
      exact hFree p ((hTaken p).mp hp) n hThere (properPrefix_numbered hPrefix)

end

section
private def fileName (text : String) (h : OsName.IsFileName (.utf8 text)) : FileName :=
  ⟨.utf8 text, h⟩

/-- A file of ten bytes whose hash is its number. -/
private def blob (hash : Nat) : Blob Nat := ⟨hash, 10⟩

private def inOrder : Arrival Nat := .found

private def fileInput (text : String) (h : OsName.IsFileName (.utf8 text)) (hash : Nat) :
    InputPath Nat :=
  ⟨some (fileName text h), .file (some (blob hash))⟩

/-- Two files named a from different directories. -/
private def twoFiles : List (InputPath Nat) :=
  [fileInput "a" (by decide) 1, fileInput "a" (by decide) 2]

/-- A third file has the name that the second one gets. -/
private def threeFiles : List (InputPath Nat) := twoFiles ++ [fileInput "a (2)" (by decide) 3]

theorem imported_names_nodup_iff_twoFiles :
    importPaths inOrder twoFiles = .ok (20, [("a", 1), ("a (2)", 2)]) ∧
      NumbersFree (importNames twoFiles) := by
  have hImport : importPaths inOrder twoFiles = .ok (20, [("a", 1), ("a (2)", 2)]) := by
    decide
  exact ⟨hImport, (imported_names_nodup_iff.1 inOrder twoFiles _ _ hImport).mp (by decide)⟩

/-- The third file does not get a name of its own, in either import. -/
theorem imported_names_collide :
    importPaths inOrder threeFiles = .ok (30, [("a", 1), ("a (2)", 2), ("a (2)", 3)]) ∧
      importNamedBytesCollection
        [("a", some (blob 1)), ("a", some (blob 2)), ("a (2)", some (blob 3))] =
        .ok (30, [("a", 1), ("a (2)", 2), ("a (2)", 3)]) := by
  decide

/-- A directory a that holds one file f. -/
private def directory : InputPath Nat :=
  ⟨some (fileName "a" (by decide)), .dir [(fileName "f" (by decide), .file (some (blob 4)))]⟩

theorem imported_names_prefixFree_iff_directories :
    importPaths inOrder [directory, directory] = .ok (20, [("a/f", 4), ("a/f (2)", 4)]) ∧
      DirectoriesFree (importNames [directory, directory]) := by
  have hImport : importPaths inOrder [directory, directory] =
      .ok (20, [("a/f", 4), ("a/f (2)", 4)]) := by
    decide
  exact ⟨hImport, (imported_names_prefixFree_iff hImport).mp (by decide)⟩

/-- A file and a directory of one name from different places. -/
theorem imported_names_file_and_directory :
    importPaths inOrder [fileInput "a" (by decide) 1, directory] =
        .ok (20, [("a", 1), ("a/f", 4)]) ∧
      ProperPrefix "a" "a/f" := by
  decide

end

end AltSendme.Files
