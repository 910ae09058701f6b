import AltSendme.Files.GivenPaths
import AltSendme.Listing.Stable

/-! How much of an import depends on the order in which its files arrive. The
files of one input have names of their own, so a file's final name never depends
on the order; only files of one input that end under one name change places. -/
namespace AltSendme.Files
open Listing (valuesOf valuesOf_append valuesOf_cons_self mem_of_mem_valuesOf sortByKey
  sortByKey_map sortByKey_eq_iff)

section
variable {Hash : Type}

/-- A walk meets each path once: no directory has two entries of one name. -/
def InputPath.Distinct (path : InputPath Hash) : Prop :=
  ((path.found.walk []).map Prod.fst).Nodup

instance (path : InputPath Hash) : Decidable path.Distinct :=
  inferInstanceAs (Decidable (List.Nodup _))

/-- The files of an input, once their bytes are in the store. -/
def InputPath.added (path : InputPath Hash) : List (String × Blob Hash) :=
  match collectPathFiles path.found path.stem >>= addFiles with
  | .ok added => added
  | .error _ => []

/-- Nothing of the input stops the import. -/
def InputPath.Imports (path : InputPath Hash) : Prop :=
  (collectPathFiles path.found path.stem >>= addFiles) = .ok path.added

/-- The files of the inputs as they arrive, the first input being number `i`. -/
def arrived (arrival : Arrival Hash) (i : Nat) (paths : List (InputPath Hash)) :
    List (String × Blob Hash) :=
  (paths.zipIdx i).flatMap fun path => arrival.order path.2 path.1.added

theorem InputPath.imports_of_eq_ok {path : InputPath Hash} {added : List (String × Blob Hash)}
    (h : (collectPathFiles path.found path.stem >>= addFiles) = .ok added) :
    path.Imports ∧ path.added = added := by
  have hAdded : path.added = added := by rw [InputPath.added, h]
  exact ⟨h.trans (by rw [hAdded]), hAdded⟩

/-- One path's import collects its files and numbers them in the order they arrive. -/
theorem importPath_eq {arrival : Arrival Hash} {acc : Imported Hash} {path : InputPath Hash}
    {i : Nat} :
    importPath arrival acc (path, i) =
      (collectPathFiles path.found path.stem >>= addFiles).map fun added =>
        (arrival.order i added).foldl Imported.push acc := by
  rw [importPath]
  cases collectPathFiles path.found path.stem with
  | error e => rfl
  | ok files =>
      change (addFiles files >>= _) = (addFiles files).map _
      cases addFiles files <;> rfl

/-- The loop over the inputs succeeds when each of them does. -/
theorem foldlM_importPath_iff {arrival : Arrival Hash} {paths : List (InputPath Hash)} {i : Nat}
    {acc acc' : Imported Hash} :
    (paths.zipIdx i).foldlM (importPath arrival) acc = .ok acc' ↔
      (∀ path ∈ paths, path.Imports) ∧
        acc' = (arrived arrival i paths).foldl Imported.push acc := by
  induction paths generalizing i acc with
  | nil => simp [arrived, pure, Except.pure, eq_comm]
  | cons path paths ih =>
      rw [List.zipIdx_cons, List.foldlM_cons, importPath_eq, List.forall_mem_cons]
      cases hOne : (collectPathFiles path.found path.stem >>= addFiles) with
      | error e =>
          have hNot : ¬path.Imports := by
            rw [InputPath.Imports, hOne]
            nofun
          simp [hNot, bind, Except.bind, Except.map]
      | ok added =>
          obtain ⟨hImports, hAdded⟩ := InputPath.imports_of_eq_ok hOne
          change (paths.zipIdx (i + 1)).foldlM (importPath arrival) _ = .ok acc' ↔ _
          rw [ih, arrived, arrived, List.zipIdx_cons, List.flatMap_cons, List.foldl_append, hAdded]
          simp [hImports]

/-- A path that imports collects its files and adds them all. -/
theorem InputPath.Imports.collects {path : InputPath Hash} (h : path.Imports) :
    ∃ files, collectPathFiles path.found path.stem = .ok files ∧ addFiles files = .ok path.added := by
  rw [InputPath.Imports] at h
  cases hFiles : collectPathFiles path.found path.stem with
  | error e => simp [hFiles, bind, Except.bind] at h
  | ok files => exact ⟨files, rfl, by rwa [hFiles] at h⟩

/-- A path that imports adds the names it was to add. -/
theorem InputPath.Imports.names_eq {path : InputPath Hash} (h : path.Imports) :
    path.added.map Prod.fst = path.names := by
  obtain ⟨files, hFiles, hAdded⟩ := h.collects
  rw [map_fst_of_addFiles hAdded, InputPath.names, hFiles]

/-- The files of an input have names of their own. -/
theorem InputPath.Imports.names_nodup {path : InputPath Hash} (h : path.Imports)
    (hDistinct : path.Distinct) : (path.added.map Prod.fst).Nodup := by
  obtain ⟨files, hFiles, hAdded⟩ := h.collects
  rw [map_fst_of_addFiles hAdded]
  rw [InputPath.Distinct] at hDistinct
  cases hFound : path.found with
  | special | inaccessible =>
      rw [hFound, collectPathFiles] at hFiles
      cases hFiles
  | file blob =>
      obtain ⟨-, hNames, -⟩ := collectPathFiles_eq_ok hFiles
      rw [hNames (by rw [InputPath.isFile, hFound])]
      exact List.nodup_singleton _
  | dir entries =>
      rw [hFound, FileTree.walk] at hDistinct
      rw [hFound, collectPathFiles] at hFiles
      -- a name says which path below the input it was made of
      have hPaths : (walkEntries [] entries).map (fun found => found.1.map Subtype.val) =
          files.map fun file => (components file.1).tail.map OsName.utf8 := by
        rw [← List.forall₂_eq_eq_eq, List.forall₂_map_left_iff, List.forall₂_map_right_iff]
        refine (forall₂_of_mapM hFiles).imp fun found file hOne => ?_
        obtain ⟨-, tail, hTail, hComponents⟩ := collected_under path.stem_noSlash hOne
        rw [hTail, hComponents, List.tail_cons]
      have hApart : ((walkEntries [] entries).map fun found => found.1.map Subtype.val).Nodup := by
        rw [← Function.comp_def, ← List.map_map]
        exact hDistinct.map (List.map_injective_iff.mpr Subtype.val_injective)
      rw [hPaths, ← Function.comp_def (fun name => (components name).tail.map OsName.utf8),
        ← List.map_map] at hApart
      exact hApart.of_map _

/-- Files with names of their own are numbered by the files before them only. -/
theorem numberFrom_of_nodup {β : Type} {before : List String} {files : List (String × β)}
    (h : (files.map Prod.fst).Nodup) :
    numberFrom before files =
      files.map fun file => (nthName file.1 (before.count file.1), file.2) := by
  induction files generalizing before with
  | nil => rfl
  | cons file files ih =>
      rw [List.map_cons, List.nodup_cons] at h
      rw [numberFrom, ih h.2, List.map_cons]
      refine congrArg _ (List.map_congr_left fun other hOther => ?_)
      have hNe : file.1 ≠ other.1 := fun hEq => h.1 (hEq ▸ List.mem_map_of_mem hOther)
      rw [List.count_append, List.count_singleton, if_neg (by simpa using hNe), Nat.add_zero]

/-- Numbering looks only at how often a name came before. -/
theorem numberFrom_congr {β : Type} {before others : List String}
    (h : ∀ name, before.count name = others.count name) (files : List (String × β)) :
    numberFrom before files = numberFrom others files := by
  induction files generalizing before others with
  | nil => rfl
  | cons file files ih =>
      rw [numberFrom, numberFrom, h, ih]
      intro name
      rw [List.count_append, List.count_append, h]

theorem arrived_cons (arrival : Arrival Hash) (i : Nat) (path : InputPath Hash)
    (paths : List (InputPath Hash)) :
    arrived arrival i (path :: paths) =
      arrival.order i path.added ++ arrived arrival (i + 1) paths := by
  rw [arrived, List.zipIdx_cons, List.flatMap_cons]
  rfl

/-- Whatever the order of arrival, every file arrives once. -/
theorem arrived_perm (arrival : Arrival Hash) (i : Nat) (paths : List (InputPath Hash)) :
    (arrived arrival i paths).Perm (paths.flatMap InputPath.added) := by
  induction paths generalizing i with
  | nil => exact .refl []
  | cons path paths ih =>
      rw [arrived_cons, List.flatMap_cons]
      exact (arrival.perm i path.added).append (ih (i + 1))

/-- The total size does not depend on the order. -/
theorem totalSize_congr {left right : List (String × Blob Hash)}
    (h : (left.map Prod.snd).Perm (right.map Prod.snd)) : totalSize left = totalSize right := by
  have hSum := (h.map fun blob => blob.size.toNat).sum_eq
  rw [List.map_map, List.map_map] at hSum
  rw [← UInt64.toNat_inj, totalSize_toNat, totalSize_toNat]
  exact congrArg (· % 2 ^ 64) hSum

/-- What is built of files that arrived in this order. -/
theorem collect_numberFrom (files : List (String × Blob Hash)) :
    collect (sortEntries (numberFrom [] files)) =
      (totalSize files, sortByKey (numberFrom [] (files.map (Prod.map id Blob.hash)))) := by
  have hSort : (sortEntries (numberFrom [] files)).Perm (numberFrom [] files) :=
    List.perm_insertionSort _ _
  have hTotal : totalSize (sortEntries (numberFrom [] files)) = totalSize files := by
    refine totalSize_congr ((hSort.map Prod.snd).trans ?_)
    rw [values_numberFrom]
  rw [collect, hTotal, numberFrom_map, sortByKey_map]
  rfl

/-- When an import succeeds, and what it builds. -/
theorem importPaths_eq_ok_iff {arrival : Arrival Hash} {paths : List (InputPath Hash)}
    {built : UInt64 × Collection Hash} :
    importPaths arrival paths = .ok built ↔
      (∀ path ∈ paths, path.Imports) ∧ paths.flatMap InputPath.added ≠ [] ∧
        built = (totalSize (paths.flatMap InputPath.added),
          sortByKey (numberFrom [] ((arrived arrival 0 paths).map (Prod.map id Blob.hash)))) := by
  have hArrived := arrived_perm arrival 0 paths
  have hTotal : totalSize (arrived arrival 0 paths) = totalSize (paths.flatMap InputPath.added) :=
    totalSize_congr (hArrived.map Prod.snd)
  have hEntries (acc : Imported Hash)
      (hAcc : acc = (arrived arrival 0 paths).foldl Imported.push .empty) :
      acc.entries = numberFrom [] (arrived arrival 0 paths) := by
    rw [hAcc, (@foldl_push_entries Hash [] .empty (fun _ => rfl) _).1]
    rfl
  rw [importPaths]
  cases hLoop : paths.zipIdx.foldlM (importPath arrival) Imported.empty with
  | error e =>
      refine ⟨fun hImport => (by cases hImport), ?_⟩
      rintro ⟨hAll, -⟩
      rw [foldlM_importPath_iff.mpr ⟨hAll, rfl⟩] at hLoop
      cases hLoop
  | ok acc =>
      obtain ⟨hAll, hAcc⟩ := foldlM_importPath_iff.mp hLoop
      simp only [bind, Except.bind, pure, Except.pure, hEntries acc hAcc, collect_numberFrom, hTotal]
      have hEmpty : (sortEntries (numberFrom [] (arrived arrival 0 paths))).isEmpty = true ↔
          paths.flatMap InputPath.added = [] := by
        have hLength : (sortEntries (numberFrom [] (arrived arrival 0 paths))).length =
            (paths.flatMap InputPath.added).length := by
          rw [sortEntries, List.length_insertionSort, length_numberFrom, hArrived.length_eq]
        rw [List.isEmpty_iff, ← List.length_eq_zero_iff, hLength, List.length_eq_zero_iff]
      split
      · next h => simp [hEmpty.mp h]
      · next h =>
          have hSome : paths.flatMap InputPath.added ≠ [] := fun hNil => h (hEmpty.mpr hNil)
          rw [Except.ok.injEq, eq_comm]
          exact ⟨fun hBuilt => ⟨hAll, hSome, hBuilt⟩, fun hRest => hRest.2.2⟩

/-- Files of one input that end under one name have one content. `before` are the
names of the inputs before. -/
def TiesAlike (before : List String) : List (InputPath Hash) → Prop
  | [] => True
  | path :: rest =>
      (∀ left ∈ path.added, ∀ right ∈ path.added,
        nthName left.1 (before.count left.1) = nthName right.1 (before.count right.1) →
          left.2.hash = right.2.hash) ∧
        TiesAlike (before ++ path.names) rest

instance decidableTiesAlike [DecidableEq Hash] (before : List String) :
    (paths : List (InputPath Hash)) → Decidable (TiesAlike before paths)
  | [] => .isTrue trivial
  | path :: rest =>
      haveI := decidableTiesAlike (before ++ path.names) rest
      inferInstanceAs (Decidable (_ ∧ TiesAlike (before ++ path.names) rest))

/-- The entries of the inputs from number `i` on, by their final names. -/
def finalEntries (before : List String) (arrival : Arrival Hash) (i : Nat)
    (paths : List (InputPath Hash)) : List (String × Hash) :=
  numberFrom before ((arrived arrival i paths).map (Prod.map id Blob.hash))

/-- The entries of one input in the order in which its files arrived. -/
def blockEntries (before : List String) (files : List (String × Blob Hash)) :
    List (String × Hash) :=
  files.map fun file => (nthName file.1 (before.count file.1), file.2.hash)

/-- The final entries of a path with distinct names come before those of the paths behind
it. -/
theorem finalEntries_cons {before : List String} {arrival : Arrival Hash} {i : Nat}
    {path : InputPath Hash} {paths : List (InputPath Hash)} (hImports : path.Imports)
    (hDistinct : path.Distinct) :
    finalEntries before arrival i (path :: paths) =
      blockEntries before (arrival.order i path.added) ++
        finalEntries (before ++ path.names) arrival (i + 1) paths := by
  have hPerm := arrival.perm i path.added
  have hNames : ((arrival.order i path.added).map Prod.fst).Nodup :=
    (hPerm.map Prod.fst).nodup_iff.mpr (hImports.names_nodup hDistinct)
  have hHashed : ((arrival.order i path.added).map (Prod.map id Blob.hash)).map Prod.fst =
      (arrival.order i path.added).map Prod.fst := by
    rw [List.map_map]
    rfl
  rw [finalEntries, arrived_cons, List.map_append, numberFrom_append,
    numberFrom_of_nodup (by rwa [hHashed]), List.map_map]
  refine congrArg _ (numberFrom_congr (fun name => ?_) _)
  rw [hHashed, List.count_append, List.count_append, ← hImports.names_eq,
    (hPerm.map Prod.fst).count_eq]

/-- A list of equal values has one order. -/
theorem eq_of_perm_of_alike {α : Type} {left right : List α} (hPerm : left.Perm right)
    (hAlike : ∀ a ∈ right, ∀ b ∈ right, a = b) : left = right := by
  cases right with
  | nil => exact hPerm.eq_nil
  | cons a rest =>
      have hSame : a :: rest = List.replicate (rest.length + 1) a :=
        List.eq_replicate_of_mem fun b hb => hAlike b hb a List.mem_cons_self
      rw [hSame] at hPerm ⊢
      exact List.perm_replicate.mp hPerm

/-- Every hash under a final name is that of a file numbered so. -/
theorem mem_valuesOf_blockEntries {before : List String} {files : List (String × Blob Hash)}
    {name : String} {hash : Hash} (h : hash ∈ valuesOf name (blockEntries before files)) :
    ∃ file ∈ files, nthName file.1 (before.count file.1) = name ∧ file.2.hash = hash := by
  obtain ⟨file, hFile, hEq⟩ := List.mem_map.mp (mem_of_mem_valuesOf h)
  exact ⟨file, hFile, (Prod.mk.inj hEq).1, (Prod.mk.inj hEq).2⟩

/-- Files of one content under each name stay in place. -/
theorem valuesOf_blockEntries_perm {before : List String} {left right : List (String × Blob Hash)}
    (hPerm : left.Perm right)
    (hAlike : ∀ f ∈ right, ∀ g ∈ right,
      nthName f.1 (before.count f.1) = nthName g.1 (before.count g.1) → f.2.hash = g.2.hash)
    (name : String) :
    valuesOf name (blockEntries before left) = valuesOf name (blockEntries before right) := by
  have hValues : (valuesOf name (blockEntries before left)).Perm
      (valuesOf name (blockEntries before right)) :=
    ((hPerm.map _).filter _).map _
  refine eq_of_perm_of_alike hValues fun a ha b hb => ?_
  obtain ⟨f, hf, hName, rfl⟩ := mem_valuesOf_blockEntries ha
  obtain ⟨g, hg, hOther, rfl⟩ := mem_valuesOf_blockEntries hb
  exact hAlike f hf g hg (hName.trans hOther.symm)

/-- With the same content under each name, no order of arrival shows. -/
theorem valuesOf_finalEntries {paths : List (InputPath Hash)} (hImports : ∀ path ∈ paths, path.Imports)
    (hDistinct : ∀ path ∈ paths, path.Distinct) {before : List String} (h : TiesAlike before paths)
    (left right : Arrival Hash) (i : Nat) (name : String) :
    valuesOf name (finalEntries before left i paths) =
      valuesOf name (finalEntries before right i paths) := by
  induction paths generalizing before i with
  | nil => rfl
  | cons path paths ih =>
      rw [List.forall_mem_cons] at hImports hDistinct
      rw [finalEntries_cons hImports.1 hDistinct.1, finalEntries_cons hImports.1 hDistinct.1,
        valuesOf_append, valuesOf_append, ih hImports.2 hDistinct.2 h.2,
        valuesOf_blockEntries_perm (left.perm i path.added) h.1,
        valuesOf_blockEntries_perm (right.perm i path.added) h.1]

/-- The order of arrival of every input but one. -/
def Arrival.except (arrival other : Arrival Hash) (i : Nat) : Arrival Hash where
  order := Function.update arrival.order i (other.order i)
  perm := by
    intro input files
    by_cases h : input = i
    · subst h
      rw [Function.update_self]
      exact other.perm input files
    · rw [Function.update_of_ne h]
      exact arrival.perm input files

theorem Arrival.except_self (arrival other : Arrival Hash) (i : Nat) :
    (arrival.except other i).order i = other.order i := Function.update_self ..

theorem Arrival.except_order (arrival other : Arrival Hash) {i : Nat} :
    ∀ j, i + 1 ≤ j → (arrival.except other i).order j = arrival.order j := by
  intro j hj
  exact Function.update_of_ne (by omega) ..

/-- One file comes before all others, which come as they were found. -/
def Arrival.leading [DecidableEq Hash] (file : String × Blob Hash) : Arrival Hash where
  order _ files := if file ∈ files then file :: files.erase file else files
  perm := by
    intro input files
    split
    · next h => exact (List.perm_cons_erase h).symm
    · exact .refl files

/-- The file chosen to lead arrives first. -/
theorem Arrival.leading_order [DecidableEq Hash] {file : String × Blob Hash}
    {files : List (String × Blob Hash)} (h : file ∈ files) (input : Nat) :
    (Arrival.leading file).order input files = file :: files.erase file := if_pos h

/-- The final entries look only at the orders of the paths that are left. -/
theorem finalEntries_congr {before : List String} {left right : Arrival Hash} {i : Nat}
    (h : ∀ j, i ≤ j → left.order j = right.order j) (paths : List (InputPath Hash)) :
    finalEntries before left i paths = finalEntries before right i paths := by
  have hArrived : arrived left i paths = arrived right i paths := by
    induction paths generalizing i with
    | nil => rfl
    | cons path paths ih =>
        rw [arrived_cons, arrived_cons, h i le_rfl, ih fun j hj => h j (by omega)]
  rw [finalEntries, hArrived, finalEntries]

/-- Where two files end under one name, each of them can come first. -/
theorem tiesAlike_of_valuesOf [DecidableEq Hash] {paths : List (InputPath Hash)}
    (hImports : ∀ path ∈ paths, path.Imports) (hDistinct : ∀ path ∈ paths, path.Distinct)
    {before : List String} (i : Nat)
    (h : ∀ (left right : Arrival Hash) (name : String),
      valuesOf name (finalEntries before left i paths) =
        valuesOf name (finalEntries before right i paths)) : TiesAlike before paths := by
  induction paths generalizing before i with
  | nil => trivial
  | cons path paths ih =>
      rw [List.forall_mem_cons] at hImports hDistinct
      have hCons (arrival : Arrival Hash) :=
        @finalEntries_cons _ before arrival i path paths hImports.1 hDistinct.1
      -- arrivals that differ at this input only, and arrivals that agree on it
      have hHere (left right : Arrival Hash) (name : String) :
          valuesOf name (blockEntries before (left.order i path.added)) =
            valuesOf name (blockEntries before (right.order i path.added)) := by
        have hSame := h left (left.except right i) name
        have hRest := @finalEntries_congr _ (before ++ path.names) _ _ (i + 1)
          (left.except_order right) paths
        rw [hCons, hCons, valuesOf_append, valuesOf_append, hRest, List.append_cancel_right_eq,
          Arrival.except_self] at hSame
        exact hSame
      refine ⟨fun f hf g hg hName => ?_, ih hImports.2 hDistinct.2 (i + 1) fun left right name => ?_⟩
      · have hLeads := hHere (.leading f) (.leading g) (nthName f.1 (before.count f.1))
        rw [Arrival.leading_order hf, Arrival.leading_order hg, blockEntries, blockEntries,
          List.map_cons, List.map_cons, valuesOf_cons_self, hName, valuesOf_cons_self] at hLeads
        exact (List.cons.inj hLeads).1
      · have hSame := h left (right.except left i) name
        have hRest := @finalEntries_congr _ (before ++ path.names) _ _ (i + 1)
          (right.except_order left) paths
        rw [hCons, hCons, valuesOf_append, valuesOf_append, Arrival.except_self,
          List.append_cancel_left_eq] at hSame
        rw [hSame, hRest]

/-- An import that succeeds builds the same whatever the order of arrival exactly
when the files of one input that end under one name have one content. -/
theorem import_timing_free_iff [DecidableEq Hash] {arrival : Arrival Hash}
    {paths : List (InputPath Hash)} {built : UInt64 × Collection Hash}
    (hDistinct : ∀ path ∈ paths, path.Distinct) (h : importPaths arrival paths = .ok built) :
    (∀ other : Arrival Hash, importPaths other paths = .ok built) ↔ TiesAlike [] paths := by
  obtain ⟨hImports, hSome, hBuilt⟩ := importPaths_eq_ok_iff.mp h
  have hSame (other : Arrival Hash) : importPaths other paths = .ok built ↔
      ∀ name, valuesOf name (finalEntries [] other 0 paths) =
        valuesOf name (finalEntries [] arrival 0 paths) := by
    rw [importPaths_eq_ok_iff, ← sortByKey_eq_iff, hBuilt, Prod.mk.injEq]
    exact ⟨fun hOther => hOther.2.2.2.symm, fun hEq => ⟨hImports, hSome, rfl, hEq.symm⟩⟩
  simp only [hSame]
  constructor
  · intro hAll
    exact tiesAlike_of_valuesOf hImports hDistinct 0 fun left right name =>
      (hAll left name).trans (hAll right name).symm
  · intro hTies other name
    exact valuesOf_finalEntries hImports hDistinct hTies other arrival 0 name

end

section
private def asFound : Arrival Nat := .found

private def lastFirst : Arrival Nat :=
  ⟨fun _ files => files.reverse, fun _ files => List.reverse_perm files⟩

private def named (text : String) (h : OsName.IsFileName (.utf8 text)) (hash : Nat) :
    FileName × FileTree Nat :=
  (⟨.utf8 text, h⟩, .file (some ⟨hash, 10⟩))

/-- A directory named d. -/
private def directoryOf (entries : List (FileName × FileTree Nat)) : InputPath Nat :=
  ⟨some ⟨.utf8 "d", by decide⟩, .dir entries⟩

private theorem isFileName_f : OsName.IsFileName (.utf8 "f") := by decide

/-- The second directory brings another f. -/
private def apart : List (InputPath Nat) :=
  [directoryOf [named "f" isFileName_f 1],
    directoryOf [named "f" isFileName_f 2, named "g" (by decide) 3]]

/-- The second directory brings another f, and a file named as this f will be. -/
private def tied : List (InputPath Nat) :=
  [directoryOf [named "f" isFileName_f 1],
    directoryOf [named "f" isFileName_f 2, named "f (2)" (by decide) 3]]

theorem import_timing_free_iff_apart :
    importPaths lastFirst apart = .ok (30, [("d/f", 1), ("d/f (2)", 2), ("d/g", 3)]) := by
  have hImport : importPaths asFound apart =
      .ok (30, [("d/f", 1), ("d/f (2)", 2), ("d/g", 3)]) := by decide
  exact (import_timing_free_iff (by decide) hImport).mpr (by decide) lastFirst

/-- Whichever file arrives first of the two that end under one name is listed first. -/
theorem import_timing_shows :
    (∀ path ∈ tied, path.Distinct) ∧
      importPaths asFound tied = .ok (30, [("d/f", 1), ("d/f (2)", 2), ("d/f (2)", 3)]) ∧
      importPaths lastFirst tied = .ok (30, [("d/f", 1), ("d/f (2)", 3), ("d/f (2)", 2)]) := by
  decide

end

end AltSendme.Files
