import AltSendme.Files.FreshExport
import AltSendme.Files.ImportTiming

/-! What is shared arrives. A collection that was imported from some paths and
exported onto free ground leaves the sender's files below the sender's names; on
any ground, an export that returns no error has put every file somewhere. -/
namespace AltSendme.Files
open Keyed (keys get?)
open Listing (sortByKey)

section
variable {Hash : Type}

mutual

/-- No directory of the tree has two entries of one name. -/
def FileTree.Proper : FileTree Hash → Prop
  | .dir entries => (keys entries).Nodup ∧ ProperEntries entries
  | .file _ | .special | .inaccessible => True

def ProperEntries : List (FileName × FileTree Hash) → Prop
  | [] => True
  | (_, tree) :: rest => tree.Proper ∧ ProperEntries rest

end

/-- What stands below a tree. -/
def FileTree.lookup (tree : FileTree Hash) (place : Place) : Option (FileTree Hash) :=
  place.foldlM (fun tree name => tree.child name) tree

theorem ProperEntries.of_mem {entries : List (FileName × FileTree Hash)} (h : ProperEntries entries)
    {name : FileName} {tree : FileTree Hash} (hMem : (name, tree) ∈ entries) : tree.Proper := by
  induction entries with
  | nil => cases hMem
  | cons entry rest ih =>
      obtain ⟨first, found⟩ := entry
      rcases List.mem_cons.mp hMem with hHere | hRest
      · cases hHere
        exact h.1
      · exact ih h.2 hRest

/-- A path is looked up one component at a time. -/
theorem FileTree.lookup_cons (tree : FileTree Hash) (name : FileName) (tail : Place) :
    tree.lookup (name :: tail) = (tree.child name).bind fun child => child.lookup tail := by
  rw [lookup, List.foldlM_cons]
  rfl

/-- Looking a path up is looking its end up in what its beginning leads to. -/
theorem Volume.lookup_append (v : Volume Hash) (place rel : Place) :
    v.lookup (place ++ rel) = (v.lookup place).bind fun tree => tree.lookup rel := by
  rw [lookup, List.foldlM_append]
  rfl

/-- In a proper tree a child is an entry of its directory. -/
theorem FileTree.Proper.child {tree child : FileTree Hash} (h : tree.Proper) {name : FileName} :
    tree.child name = some child ↔ ∃ entries, tree = .dir entries ∧ (name, child) ∈ entries := by
  cases tree with
  | dir entries =>
      rw [FileTree.Proper] at h
      have hGet := @Keyed.get?_eq_some_iff _ _ _ entries name child h.1
      rw [FileTree.child]
      simpa [get?] using hGet
  | file blob => simp [FileTree.child]
  | special => simp [FileTree.child]
  | inaccessible => simp [FileTree.child]

/-- Whatever is found in a proper tree is proper. -/
theorem FileTree.Proper.lookup {tree found : FileTree Hash} (h : tree.Proper) {place : Place}
    (hFound : tree.lookup place = some found) : found.Proper := by
  induction place generalizing tree with
  | nil =>
      cases hFound
      exact h
  | cons name tail ih =>
      rw [FileTree.lookup_cons] at hFound
      obtain ⟨child, hChild, hTail⟩ := Option.bind_eq_some_iff.mp hFound
      obtain ⟨entries, rfl, hMem⟩ := h.child.mp hChild
      exact ih (h.2.of_mem hMem) hTail

mutual

/-- A walk meets exactly the files of the tree. -/
theorem FileTree.mem_walk_iff {rel : Place} {blob : Option (Blob Hash)} :
    ∀ {acc : Place} {tree : FileTree Hash}, tree.Proper →
      ((rel, blob) ∈ tree.walk acc ↔
        ∃ names, rel = acc ++ names ∧ tree.lookup names = some (.file blob))
  | acc, .file found, _ => by
      rw [FileTree.walk, List.mem_singleton, Prod.mk.injEq]
      constructor
      · rintro ⟨rfl, rfl⟩
        exact ⟨[], by simp, rfl⟩
      · rintro ⟨names, rfl, hFound⟩
        cases names with
        | nil =>
            cases hFound
            exact ⟨by simp, rfl⟩
        | cons name tail => cases hFound
  | acc, .dir entries, h => by
      have hEntries := @mem_walkEntries_iff rel blob acc entries h.2
      rw [FileTree.walk, hEntries]
      constructor
      · rintro ⟨name, tail, tree, rfl, hMem, hTail⟩
        refine ⟨name :: tail, rfl, ?_⟩
        rw [FileTree.lookup_cons, h.child.mpr ⟨entries, rfl, hMem⟩]
        exact hTail
      · rintro ⟨names, rfl, hFound⟩
        cases names with
        | nil => cases hFound
        | cons name tail =>
            rw [FileTree.lookup_cons] at hFound
            obtain ⟨child, hChild, hTail⟩ := Option.bind_eq_some_iff.mp hFound
            obtain ⟨others, hEq, hMem⟩ := h.child.mp hChild
            cases hEq
            exact ⟨name, tail, child, rfl, hMem, hTail⟩
  | acc, .special, _ => by
      rw [FileTree.walk]
      constructor
      · intro hMem
        cases hMem
      · rintro ⟨names, rfl, hFound⟩
        cases names with
        | nil => cases hFound
        | cons name tail => cases hFound
  | acc, .inaccessible, _ => by
      rw [FileTree.walk]
      constructor
      · intro hMem
        cases hMem
      · rintro ⟨names, rfl, hFound⟩
        cases names with
        | nil => cases hFound
        | cons name tail => cases hFound

/-- The walk of a directory finds exactly what the walks of its entries find, each below its
name. -/
theorem mem_walkEntries_iff {rel : Place} {blob : Option (Blob Hash)} :
    ∀ {acc : Place} {entries : List (FileName × FileTree Hash)}, ProperEntries entries →
      ((rel, blob) ∈ walkEntries acc entries ↔ ∃ name tail tree, rel = acc ++ name :: tail ∧
        (name, tree) ∈ entries ∧ tree.lookup tail = some (.file blob))
  | acc, [], _ => by simp [walkEntries]
  | acc, (name, tree) :: rest, h => by
      rw [walkEntries, List.mem_append, FileTree.mem_walk_iff h.1, mem_walkEntries_iff h.2]
      constructor
      · rintro (⟨names, rfl, hFound⟩ | ⟨other, tail, found, rfl, hMem, hFound⟩)
        · exact ⟨name, names, tree, by simp, List.mem_cons_self, hFound⟩
        · exact ⟨other, tail, found, rfl, List.mem_cons_of_mem _ hMem, hFound⟩
      · rintro ⟨other, tail, found, rfl, hMem, hFound⟩
        rcases List.mem_cons.mp hMem with hHere | hRest
        · cases hHere
          exact Or.inl ⟨tail, by simp, hFound⟩
        · exact Or.inr ⟨other, tail, found, rfl, hRest, hFound⟩

end

/-- Paths that begin differently are apart. -/
theorem apart_cons_of_ne {α : Type} {a b : α} (h : a ≠ b) (p q : List α) :
    Apart (a :: p) (b :: q) :=
  ⟨fun hPrefix => h (List.cons_prefix_cons.mp hPrefix).1,
    fun hPrefix => h (List.cons_prefix_cons.mp hPrefix).1.symm⟩

mutual

/-- No file of a tree is in the way of another. -/
theorem FileTree.Proper.walk_apart : ∀ {acc : Place} {tree : FileTree Hash}, tree.Proper →
    ((tree.walk acc).map Prod.fst).Pairwise Apart
  | _, .file _, _ => List.pairwise_singleton _ _
  | _, .dir _, h => walkEntries_apart h.1 h.2
  | _, .special, _ | _, .inaccessible, _ => List.Pairwise.nil

/-- No two paths that a walk finds lie on each other. -/
theorem walkEntries_apart : ∀ {acc : Place} {entries : List (FileName × FileTree Hash)},
    (keys entries).Nodup → ProperEntries entries →
      ((walkEntries acc entries).map Prod.fst).Pairwise Apart
  | _, [], _, _ => List.Pairwise.nil
  | acc, (name, tree) :: rest, hNodup, hProper => by
      obtain ⟨hNew, hRest⟩ := List.nodup_cons.mp hNodup
      rw [walkEntries, List.map_append, List.pairwise_append]
      refine ⟨FileTree.Proper.walk_apart hProper.1, walkEntries_apart hRest hProper.2, ?_⟩
      intro left hLeft right hRight
      obtain ⟨⟨_, blob⟩, hMem, rfl⟩ := List.mem_map.mp hLeft
      obtain ⟨⟨_, other⟩, hOther, rfl⟩ := List.mem_map.mp hRight
      obtain ⟨names, rfl, -⟩ := (FileTree.mem_walk_iff hProper.1).mp hMem
      obtain ⟨second, tail, found, rfl, hFound, -⟩ := (mem_walkEntries_iff hProper.2).mp hOther
      have hNe : name ≠ second := by
        rintro rfl
        exact hNew (Keyed.mem_keys.mpr ⟨found, hFound⟩)
      dsimp only
      rw [List.append_assoc, apart_append_iff]
      exact apart_cons_of_ne hNe names tail

end

/-- A file as the walk meets it, and as the import names it. -/
def AddedAs (stem : String) (found : Place × Option (Blob Hash)) (file : String × Blob Hash) :
    Prop :=
  found.2 = some file.2 ∧
    ∃ tail : Path, found.1.map Subtype.val = tail.map .utf8 ∧ components file.1 = stem :: tail

/-- An import adds every file of the walk, in its order, below the stem. -/
theorem InputPath.Imports.addedAs {path : InputPath Hash} (h : path.Imports) :
    List.Forall₂ (AddedAs path.stem) (path.found.walk []) path.added := by
  obtain ⟨files, hFiles, hAdded⟩ := h.collects
  obtain rfl := addFiles_eq_ok hAdded
  cases hFound : path.found with
  | special | inaccessible =>
      rw [hFound, collectPathFiles] at hFiles
      cases hFiles
  | file blob =>
      rw [hFound, collectPathFiles] at hFiles
      cases hText : canonicalizedPathToString [.normal (.utf8 path.stem)] true with
      | error e => simp [hText, bind, Except.bind] at hFiles
      | ok text =>
          simp only [hText, bind, Except.bind, pure, Except.pure, Except.ok.injEq] at hFiles
          obtain ⟨tail, hTail, -, hComponents⟩ := @canonicalized_under _ _ [] path.stem_noSlash hText
          obtain ⟨file, hAdd⟩ : ∃ file, path.added = [file] :=
            List.length_eq_one_iff.mp (by simpa using (congrArg List.length hFiles).symm)
          rw [hAdd] at hFiles ⊢
          obtain ⟨rfl, rfl⟩ : text = file.1 ∧ blob = some file.2 := by simpa [Prod.map] using hFiles
          exact .cons ⟨rfl, tail, hTail, hComponents⟩ .nil
  | dir entries =>
      rw [hFound, collectPathFiles] at hFiles
      have hEach := forall₂_of_mapM hFiles
      rw [List.forall₂_map_right_iff] at hEach
      refine hEach.imp fun found file hOne => ?_
      obtain ⟨hBlob, hTail⟩ := collected_under path.stem_noSlash hOne
      exact ⟨hBlob.symm, hTail⟩

/-- Files apart in the tree get names apart from each other. -/
theorem AddedAs.apart {stem : String} {left right : Place × Option (Blob Hash)}
    {first second : String × Blob Hash} (hLeft : AddedAs stem left first)
    (hRight : AddedAs stem right second) (h : Apart left.1 right.1) :
    Apart (components first.1) (components second.1) := by
  obtain ⟨-, p, hp, hFirst⟩ := hLeft
  obtain ⟨-, q, hq, hSecond⟩ := hRight
  have hUp {p q : Path} {left right : Place} (hp : left.map Subtype.val = p.map OsName.utf8)
      (hq : right.map Subtype.val = q.map OsName.utf8) (hPrefix : p <+: q) : left <+: right := by
    have hMapped := hPrefix.map OsName.utf8
    rw [← hp, ← hq] at hMapped
    exact (List.prefix_map_iff_of_injective Subtype.val_injective).mp hMapped
  rw [hFirst, hSecond]
  constructor
  · exact fun hPrefix => h.1 (hUp hp hq (List.cons_prefix_cons.mp hPrefix).2)
  · exact fun hPrefix => h.2 (hUp hq hp (List.cons_prefix_cons.mp hPrefix).2)

omit Hash in
theorem exists_left_of_forall₂ {α β : Type} {R : α → β → Prop} {xs : List α} {ys : List β}
    (h : List.Forall₂ R xs ys) {y : β} (hy : y ∈ ys) : ∃ x ∈ xs, R x y := by
  induction h with
  | nil => cases hy
  | @cons a b xs ys hHead _ ih =>
      rcases List.mem_cons.mp hy with rfl | hRest
      · exact ⟨a, List.mem_cons_self, hHead⟩
      · obtain ⟨x, hx, hR⟩ := ih hRest
        exact ⟨x, List.mem_cons_of_mem _ hx, hR⟩

omit Hash in
theorem pairwise_of_forall₂ {α β : Type} {R : α → β → Prop} {S : α → α → Prop}
    {T : β → β → Prop} {xs : List α} {ys : List β} (h : List.Forall₂ R xs ys)
    (hPairs : xs.Pairwise S) (hStep : ∀ a b c d, R a c → R b d → S a b → T c d) :
    ys.Pairwise T := by
  induction h with
  | nil => exact List.Pairwise.nil
  | @cons a c xs ys hHead hTail ih =>
      obtain ⟨hFirst, hRest⟩ := List.pairwise_cons.mp hPairs
      refine List.pairwise_cons.mpr ⟨fun d hd => ?_, ih hRest⟩
      obtain ⟨b, hb, hR⟩ := exists_left_of_forall₂ hTail hd
      exact hStep a b c d hHead hR (hFirst b hb)

/-- No file of an input is in the way of another. -/
theorem InputPath.Imports.apart {path : InputPath Hash} (h : path.Imports)
    (hProper : path.found.Proper) :
    (path.added.map fun file => components file.1).Pairwise Apart := by
  have hWalk := @FileTree.Proper.walk_apart _ [] _ hProper
  rw [List.pairwise_map] at hWalk ⊢
  exact pairwise_of_forall₂ h.addedAs hWalk fun _ _ _ _ hLeft hRight => hLeft.apart hRight

/-- Nor is a file of one input in the way of another's, with distinct names. -/
theorem added_apart {paths : List (InputPath Hash)} (hImports : ∀ path ∈ paths, path.Imports)
    (hProper : ∀ path ∈ paths, path.found.Proper) (hStems : (paths.map InputPath.stem).Nodup) :
    ((paths.flatMap InputPath.added).map fun file => components file.1).Pairwise Apart := by
  rw [List.map_flatMap, List.pairwise_flatMap]
  refine ⟨fun path hPath => (hImports path hPath).apart (hProper path hPath), ?_⟩
  have hNe := List.pairwise_map.mp hStems
  refine hNe.imp_of_mem fun {left right} hLeft hRight hStem p hp q hq => ?_
  obtain ⟨first, hFirst, rfl⟩ := List.mem_map.mp hp
  obtain ⟨second, hSecond, rfl⟩ := List.mem_map.mp hq
  obtain ⟨found, -, -, tail, -, hName⟩ :=
    exists_left_of_forall₂ (hImports left hLeft).addedAs hFirst
  obtain ⟨other, -, -, rest, -, hOther⟩ :=
    exists_left_of_forall₂ (hImports right hRight).addedAs hSecond
  rw [hName, hOther]
  exact apart_cons_of_ne hStem tail rest

/-- A collection whose files are in nobody's way is its files, by their own names. -/
theorem imported_perm {arrival : Arrival Hash} {paths : List (InputPath Hash)} {size : UInt64}
    {collection : Collection Hash} (hImport : importPaths arrival paths = .ok (size, collection))
    (hApart : ((paths.flatMap InputPath.added).map fun file => components file.1).Pairwise Apart) :
    collection.Perm ((paths.flatMap InputPath.added).map (Prod.map id Blob.hash)) := by
  obtain ⟨-, -, hBuilt⟩ := importPaths_eq_ok_iff.mp hImport
  obtain ⟨-, rfl⟩ := Prod.mk.inj hBuilt
  have hArrived := (arrived_perm arrival 0 paths).map (Prod.map id Blob.hash)
  have hNames : (((arrived arrival 0 paths).map (Prod.map id Blob.hash)).map Prod.fst).Nodup := by
    rw [(hArrived.map Prod.fst).nodup_iff, List.map_map, List.nodup_iff_pairwise_ne,
      List.pairwise_map]
    rw [List.pairwise_map] at hApart
    refine hApart.imp fun {left right} h hEq => h.1 ?_
    rw [show left.1 = right.1 from hEq]
  have hKept : (fun file : String × Hash =>
      (nthName file.1 (([] : List String).count file.1), file.2)) = id := rfl
  rw [numberFrom_of_nodup hNames, hKept, List.map_id]
  exact (List.perm_insertionSort _ _).trans hArrived

/-- A regular file of the sender below a shared path. -/
def Shares (v : Volume Hash) (place : Place) (rel : Path) (blob : Blob Hash) : Prop :=
  ∃ names : Place, names.map Subtype.val = rel.map .utf8 ∧
    v.lookup (place ++ names) = some (.file (some blob))

/-- A path that is imported is on the volume. -/
theorem Volume.lookup_of_imports {v : Volume Hash} {place : Place}
    (hImports : (v.input place).Imports) : v.lookup place = some (v.found place) := by
  obtain ⟨files, hFiles, -⟩ := hImports.collects
  cases hFound : v.lookup place with
  | none =>
      have hNothing : (v.input place).found = .special := by
        rw [Volume.input, Volume.found, hFound]
        rfl
      rw [hNothing, collectPathFiles] at hFiles
      cases hFiles
  | some tree => rw [Volume.found, hFound, Option.getD_some]

/-- What a path of a proper volume leads to is proper. -/
theorem Volume.proper_found {v : Volume Hash} (hProper : v.root.Proper) (place : Place) :
    (v.found place).Proper := by
  rw [Volume.found]
  cases hFound : v.lookup place with
  | none => trivial
  | some tree => exact FileTree.Proper.lookup hProper hFound

/-- The files below a shared path are those that its import brings. -/
theorem shares_iff {v : Volume Hash} (hProper : v.root.Proper) {place : Place}
    (hImports : (v.input place).Imports) {rel : Path} {blob : Blob Hash} :
    Shares v place rel blob ↔ ∃ file ∈ (v.input place).added,
      components file.1 = (v.input place).stem :: rel ∧ file.2 = blob := by
  have hWalk (names : Place) : v.lookup (place ++ names) = some (.file (some blob)) ↔
      (names, some blob) ∈ (v.input place).found.walk [] := by
    have hMem := @FileTree.mem_walk_iff _ names (some blob) [] _ (v.proper_found hProper place)
    rw [Volume.lookup_append, Volume.lookup_of_imports hImports, Option.bind_some]
    refine Iff.trans ?_ hMem.symm
    simp
  simp only [Shares, hWalk]
  constructor
  · rintro ⟨names, hRel, hMem⟩
    obtain ⟨file, hFile, hBlob, tail, hTail, hName⟩ :=
      exists_left_of_forall₂ hImports.addedAs.flip hMem
    have hSame : tail = rel := by
      refine List.map_injective_iff.mpr (fun p q h => ?_) (hTail.symm.trans hRel)
      exact OsName.utf8.inj h
    exact ⟨file, hFile, hSame ▸ hName, (Option.some.inj hBlob).symm⟩
  · rintro ⟨file, hFile, hName, rfl⟩
    obtain ⟨⟨names, found⟩, hMem, hBlob, tail, hTail, hComponents⟩ :=
      exists_left_of_forall₂ hImports.addedAs hFile
    rw [hName, List.cons.injEq] at hComponents
    obtain ⟨-, rfl⟩ := hComponents
    obtain rfl : found = some file.2 := hBlob
    exact ⟨names, hTail, hMem⟩

/-- Nothing is below a regular file. -/
theorem Shares.eq_nil {v : Volume Hash} {place : Place} {rel more : Path} {blob other : Blob Hash}
    (h : Shares v place rel blob) (hMore : Shares v place (rel ++ more) other) : more = [] := by
  obtain ⟨names, hNames, hFound⟩ := h
  obtain ⟨longer, hLonger, hOther⟩ := hMore
  rw [List.map_append, List.map_eq_append_iff] at hLonger
  obtain ⟨first, rest, rfl, hFirst, hRest⟩ := hLonger
  have hSame : first = names :=
    List.map_injective_iff.mpr Subtype.val_injective (hFirst.trans hNames.symm)
  rw [hSame, ← List.append_assoc, Volume.lookup_append, hFound, Option.bind_some] at hOther
  cases rest with
  | nil => exact List.map_eq_nil_iff.mp hRest.symm
  | cons name tail => cases hOther

/-- What stands at `top` is the sender's path: its files with their content, and
the directories that lead to them. -/
def CopyOf {Content : Type} (v : Volume Hash) (fetch : Hash → Content) (place : Place)
    (fs : FileSystem Content) (top : Path) : Prop :=
  ∀ rel : Path,
    (∀ content, fs (top ++ rel) = some (.file content) ↔
      ∃ blob, Shares v place rel blob ∧ fetch blob.hash = content) ∧
    (fs (top ++ rel) = some .dir ↔ ∃ more ≠ [], ∃ blob, Shares v place (rel ++ more) blob)

section
variable {Content : Type} {arrival : Arrival Hash} {v : Volume Hash} {places : List Place}
  {size : UInt64} {collection : Collection Hash}

/-- Where the files of a share are asked for, and what they hold. -/
def delivered (fetch : Hash → Content) (outputDir : Path) (collection : Collection Hash) :
    List (Path × Content) :=
  (collection.map (Prod.map id fetch)).map (asked outputDir)

/-- In an import that succeeds every path was imported. -/
theorem imports_of_mem (hImport : importPaths arrival (places.map v.input) = .ok (size, collection))
    {place : Place} (hPlace : place ∈ places) : (v.input place).Imports :=
  (importPaths_eq_ok_iff.mp hImport).1 _ (List.mem_map_of_mem hPlace)

/-- The names of a share of paths with distinct names. -/
theorem share_perm (hProper : v.root.Proper)
    (hImport : importPaths arrival (places.map v.input) = .ok (size, collection))
    (hStems : (places.map fun place => (v.input place).stem).Nodup) :
    collection.Perm (((places.map v.input).flatMap InputPath.added).map (Prod.map id Blob.hash)) ∧
      (collection.map fun file => components file.1).Pairwise Apart := by
  have hTrees : ∀ path ∈ places.map v.input, path.found.Proper := by
    intro path hPath
    obtain ⟨place, -, rfl⟩ := List.mem_map.mp hPath
    exact v.proper_found hProper place
  have hApart := added_apart (importPaths_eq_ok_iff.mp hImport).1 hTrees (by rwa [List.map_map])
  have hPerm := imported_perm hImport hApart
  refine ⟨hPerm, ?_⟩
  rw [(hPerm.map fun file => components file.1).pairwise_iff Apart.symm, List.map_map]
  exact hApart

/-- What is delivered below a directory are the files of the shared trees, each at its
place. -/
theorem mem_delivered {fetch : Hash → Content} {outputDir : Path} (hProper : v.root.Proper)
    (hImport : importPaths arrival (places.map v.input) = .ok (size, collection))
    (hStems : (places.map fun place => (v.input place).stem).Nodup) {p : Path} {content : Content} :
    (p, content) ∈ delivered fetch outputDir collection ↔
      ∃ place ∈ places, ∃ rel blob, Shares v place rel blob ∧
        p = outputDir ++ (v.input place).stem :: rel ∧ content = fetch blob.hash := by
  have hMem (file : String × Hash) : file ∈ collection ↔
      ∃ place ∈ places, ∃ added ∈ (v.input place).added, Prod.map id Blob.hash added = file := by
    rw [(share_perm hProper hImport hStems).1.mem_iff]
    simp only [List.mem_map, List.mem_flatMap]
    constructor
    · rintro ⟨added, ⟨path, ⟨place, hPlace, rfl⟩, hAdded⟩, rfl⟩
      exact ⟨place, hPlace, added, hAdded, rfl⟩
    · rintro ⟨place, hPlace, added, hAdded, rfl⟩
      exact ⟨added, ⟨v.input place, ⟨place, hPlace, rfl⟩, hAdded⟩, rfl⟩
  rw [delivered, List.map_map, List.mem_map]
  constructor
  · rintro ⟨file, hFile, hEq⟩
    obtain ⟨place, hPlace, added, hAdded, rfl⟩ := (hMem file).mp hFile
    obtain ⟨rfl, rfl⟩ := Prod.mk.inj hEq
    have hImports := imports_of_mem hImport hPlace
    obtain ⟨found, -, -, tail, -, hName⟩ := exists_left_of_forall₂ hImports.addedAs hAdded
    exact ⟨place, hPlace, tail, added.2, (shares_iff hProper hImports).mpr ⟨added, hAdded, hName, rfl⟩,
      congrArg (outputDir ++ ·) hName, rfl⟩
  · rintro ⟨place, hPlace, rel, blob, hShares, rfl, rfl⟩
    obtain ⟨added, hAdded, hName, rfl⟩ := (shares_iff hProper (imports_of_mem hImport hPlace)).mp hShares
    refine ⟨Prod.map id Blob.hash added, (hMem _).mpr ⟨place, hPlace, added, hAdded, rfl⟩, ?_⟩
    rw [← hName]
    rfl

/-- Only the files below a shared path are asked for under its name. -/
theorem mem_delivered_at {fetch : Hash → Content} {outputDir : Path} (hProper : v.root.Proper)
    (hImport : importPaths arrival (places.map v.input) = .ok (size, collection))
    (hStems : (places.map fun place => (v.input place).stem).Nodup) {place : Place}
    (hPlace : place ∈ places) {rel : Path} {content : Content} :
    (outputDir ++ (v.input place).stem :: rel, content) ∈ delivered fetch outputDir collection ↔
      ∃ blob, Shares v place rel blob ∧ fetch blob.hash = content := by
  rw [mem_delivered hProper hImport hStems]
  constructor
  · rintro ⟨other, hOther, tail, blob, hShares, hPath, rfl⟩
    obtain ⟨hStem, rfl⟩ := List.cons.inj (List.append_cancel_left hPath)
    obtain rfl := List.inj_on_of_nodup_map hStems hPlace hOther hStem
    exact ⟨blob, hShares, rfl⟩
  · rintro ⟨blob, hShares, rfl⟩
    exact ⟨place, hPlace, rel, blob, hShares, rfl, rfl⟩

/-- No two files are delivered to one place. -/
theorem keys_delivered_nodup {fetch : Hash → Content} {outputDir : Path} (hProper : v.root.Proper)
    (hImport : importPaths arrival (places.map v.input) = .ok (size, collection))
    (hStems : (places.map fun place => (v.input place).stem).Nodup) :
    (keys (delivered fetch outputDir collection)).Nodup := by
  have hApart := (share_perm hProper hImport hStems).2
  rw [List.pairwise_map] at hApart
  rw [keys, delivered, List.map_map, List.map_map, List.nodup_iff_pairwise_ne, List.pairwise_map]
  refine hApart.imp fun {left right} h hEq => h.1 ?_
  have hSame : components left.1 = components right.1 := List.append_cancel_left hEq
  rw [hSame]

/-- The directories that lead to the files of a shared path. -/
theorem exists_delivered_below {fetch : Hash → Content} {outputDir : Path}
    (hProper : v.root.Proper)
    (hImport : importPaths arrival (places.map v.input) = .ok (size, collection))
    (hStems : (places.map fun place => (v.input place).stem).Nodup) {place : Place}
    (hPlace : place ∈ places) {rel : Path} :
    (outputDir ++ (v.input place).stem :: rel ∉ keys (delivered fetch outputDir collection) ∧
        ∃ file ∈ delivered fetch outputDir collection,
          outputDir ++ (v.input place).stem :: rel <+: file.1) ↔
      ∃ more ≠ [], ∃ blob, Shares v place (rel ++ more) blob := by
  constructor
  · rintro ⟨hNot, ⟨p, content⟩, hFile, more, hPath⟩
    have hEq : p = outputDir ++ (v.input place).stem :: (rel ++ more) := by
      simpa using hPath.symm
    rw [hEq, mem_delivered_at hProper hImport hStems hPlace] at hFile
    obtain ⟨blob, hShares, -⟩ := hFile
    refine ⟨more, ?_, blob, hShares⟩
    rintro rfl
    rw [List.append_nil] at hShares
    exact hNot (Keyed.mem_keys.mpr ⟨fetch blob.hash,
      (mem_delivered_at hProper hImport hStems hPlace).mpr ⟨blob, hShares, rfl⟩⟩)
  · rintro ⟨more, hMore, blob, hShares⟩
    constructor
    · intro hKey
      obtain ⟨content, hFile⟩ := Keyed.mem_keys.mp hKey
      obtain ⟨other, hOther, -⟩ := (mem_delivered_at hProper hImport hStems hPlace).mp hFile
      exact hMore (hOther.eq_nil hShares)
    · exact ⟨_, (mem_delivered_at hProper hImport hStems hPlace).mpr ⟨blob, hShares, rfl⟩,
        more, by simp⟩

/-- An export of a share onto free ground. -/
theorem export_share (display : Path → String) (fetch : Hash → Content) (hProper : v.root.Proper)
    (hImport : importPaths arrival (places.map v.input) = .ok (size, collection))
    (hStems : (places.map fun place => (v.input place).stem).Nodup)
    (hColon : ∀ file ∈ collection, ':' ∉ file.1.toList)
    {fs : FileSystem Content} {outputDir : Path}
    (hFree : ∀ place ∈ places, ∀ p, outputDir ++ [(v.input place).stem] <+: p → fs p = none)
    (hAbove : ¬Blocked fs outputDir) :
    ∃ targets, exportToDirectory display (fun _ => .done) fs outputDir
        (collection.map (Prod.map id fetch)) =
      (⟨withFiles fs (delivered fetch outputDir collection), targets, []⟩, none) := by
  obtain ⟨hPerm, hApart⟩ := share_perm hProper hImport hStems
  refine ⟨_, exportToDirectory_fresh ?_ ?_ ?_⟩
  · intro file hFile
    obtain ⟨entry, hEntry, rfl⟩ := List.mem_map.mp hFile
    have hMem := (hPerm.mem_iff.mp hEntry)
    obtain ⟨added, hAdded, hEq⟩ := List.mem_map.mp hMem
    obtain ⟨path, hPath, hFrom⟩ := List.mem_flatMap.mp hAdded
    have hNames := ((importPaths_eq_ok_iff.mp hImport).1 path hPath).names_eq
    have hCollected : Collected entry.1 := by
      have hName : entry.1 ∈ path.added.map Prod.fst := hEq ▸ List.mem_map_of_mem hFrom
      exact collected_of_mem_names (hNames ▸ hName)
    exact Files.exportable_iff.mp (hCollected.exportable_iff.mpr (hColon entry hEntry))
  · intro file hFile
    have hThere : asked outputDir file ∈ delivered fetch outputDir collection :=
      List.mem_map_of_mem hFile
    obtain ⟨place, hPlace, rel, blob, -, hPath, -⟩ := (mem_delivered hProper hImport hStems).mp hThere
    rw [asked, hPath]
    exact clear_below (hFree place hPlace) hAbove rel
  · rw [List.map_map]
    exact hApart

/-- Paths that are given and shared stand below the receiver's directory as they
stand at the sender's, and nothing else there changes. -/
theorem shared_paths_arrive (display : Path → String) (fetch : Hash → Content)
    (hProper : v.root.Proper) {given : List GivenPath}
    (hGiven : canonicalizeInputPaths v given = .ok places)
    (hImport : importPaths arrival (places.map v.input) = .ok (size, collection))
    (hStems : (places.map fun place => (v.input place).stem).Nodup)
    (hColon : ∀ file ∈ collection, ':' ∉ file.1.toList)
    {fs : FileSystem Content} {outputDir : Path}
    (hFree : ∀ place ∈ places, ∀ p, outputDir ++ [(v.input place).stem] <+: p → fs p = none)
    (hAbove : ¬Blocked fs outputDir) :
    let (final, error) := exportToDirectory display (fun _ => .done) fs outputDir
      (collection.map (Prod.map id fetch))
    error = none ∧ final.conflicts = [] ∧
      (∀ path ∈ given, CopyOf v fetch path.canonical final.fs
        (outputDir ++ [(v.input path.canonical).stem])) ∧
      ∀ p, (∀ path ∈ given, ¬outputDir ++ [(v.input path.canonical).stem] <+: p) →
        final.fs p = makeDirs fs outputDir (outputDir.length + 1) p := by
  obtain ⟨targets, hExport⟩ :=
    export_share display fetch hProper hImport hStems hColon hFree hAbove
  rw [hExport]
  obtain ⟨rfl, -⟩ := canonicalizeInputPaths_eq_ok hGiven
  have hPlaces (path : GivenPath) (hPath : path ∈ given) :
      path.canonical ∈ uniq (given.map GivenPath.canonical) := by
    rw [(uniq_perm _).mem_iff, List.mem_dedup]
    exact List.mem_map_of_mem hPath
  have hKeys := @keys_delivered_nodup _ _ _ _ _ _ _ fetch outputDir hProper hImport hStems
  refine ⟨rfl, rfl, fun path hPath rel => ⟨fun content => ?_, ?_⟩, fun p hAway => ?_⟩
  · have hNone := hFree _ (hPlaces path hPath) _ (List.prefix_append _ rel)
    rw [withFiles_eq_file hNone hKeys, List.append_assoc, List.singleton_append]
    exact mem_delivered_at hProper hImport hStems (hPlaces path hPath)
  · have hNone := hFree _ (hPlaces path hPath) _ (List.prefix_append _ rel)
    rw [withFiles_eq_dir hNone, List.append_assoc, List.singleton_append]
    exact exists_delivered_below hProper hImport hStems (hPlaces path hPath)
  · have hBelow {q : Path} (hKey : q ∈ keys (delivered fetch outputDir collection)) :
        ∃ path ∈ given, ∃ rel, q = outputDir ++ (v.input path.canonical).stem :: rel := by
      obtain ⟨content, hFile⟩ := Keyed.mem_keys.mp hKey
      obtain ⟨place, hPlace, rel, -, -, hPath, -⟩ := (mem_delivered hProper hImport hStems).mp hFile
      rw [(uniq_perm _).mem_iff, List.mem_dedup] at hPlace
      obtain ⟨path, hMem, rfl⟩ := List.mem_map.mp hPlace
      exact ⟨path, hMem, rel, hPath⟩
    have hNot : p ∉ keys (delivered fetch outputDir collection) := by
      intro hKey
      obtain ⟨path, hPath, rel, rfl⟩ := hBelow hKey
      exact hAway path hPath ⟨rel, by simp⟩
    have hRoot : (∃ file ∈ delivered fetch outputDir collection, p <+: file.1) ↔
        p <+: outputDir ∧ p.length < outputDir.length + 1 := by
      constructor
      · rintro ⟨file, hFile, hPrefix⟩
        obtain ⟨path, hPath, rel, hEq⟩ := hBelow (List.mem_map_of_mem hFile)
        rcases prefix_or_below (hEq ▸ hPrefix) with hAbove | hUnder
        · exact ⟨hAbove, Nat.lt_succ_of_le hAbove.length_le⟩
        · exact absurd hUnder (hAway path hPath)
      · rintro ⟨hPrefix, -⟩
        have hSome : delivered fetch outputDir collection ≠ [] := by
          intro hNil
          rw [delivered, List.map_eq_nil_iff, List.map_eq_nil_iff] at hNil
          have hPerm := (share_perm hProper hImport hStems).1
          rw [hNil, List.nil_perm, List.map_eq_nil_iff] at hPerm
          exact (importPaths_eq_ok_iff.mp hImport).2.1 hPerm
        obtain ⟨file, hFile⟩ := List.exists_mem_of_ne_nil _ hSome
        obtain ⟨path, hPath, rel, hEq⟩ := hBelow (List.mem_map_of_mem hFile)
        exact ⟨file, hFile, hPrefix.trans (hEq ▸ List.prefix_append _ _)⟩
    show withFiles fs (delivered fetch outputDir collection) p = _
    rw [withFiles_of_notMem fs hNot, makeDirs]
    simp only [hRoot]

end

end

section

private def nameOf (text : String) (h : OsName.IsFileName (.utf8 text)) : FileName := ⟨.utf8 text, h⟩

private def docs : FileName := nameOf "docs" (by decide)

private theorem isFileName_b : OsName.IsFileName (.utf8 "b") := by decide

private def sharing : Volume Nat where
  root := .dir [(docs, .dir [(nameOf "a.txt" (by decide), .file (some ⟨1, 10⟩)),
    (nameOf "sub" (by decide), .dir [(nameOf "b" isFileName_b, .file (some ⟨2, 20⟩))])])]
  unreadLen := fun _ => none

private def givenDocs : GivenPath := ⟨"/docs", some docs, [docs], Or.inr rfl⟩

private def emptyOut : FileSystem Nat := fun p => if p = [] ∨ p = ["out"] then some .dir else none

/-- A directory with a file and a file in a subdirectory. -/
theorem shared_paths_arrive_docs :
    CopyOf sharing id [docs]
      (exportToDirectory joinSlash (fun _ => .done) emptyOut ["out"]
        [("docs/a.txt", 1), ("docs/sub/b", 2)]).1.fs ["out", "docs"] := by
  have hGiven : canonicalizeInputPaths sharing [givenDocs, givenDocs] = .ok [[docs]] := by decide
  have hImport : importPaths Arrival.found ([[docs]].map sharing.input) =
      .ok (30, [("docs/a.txt", 1), ("docs/sub/b", 2)]) := by decide
  have hProper : sharing.root.Proper := by
    simp [sharing, FileTree.Proper, ProperEntries, keys, nameOf]
  have hFree : ∀ place ∈ [[docs]], ∀ p, ["out"] ++ [(sharing.input place).stem] <+: p →
      emptyOut p = none := by
    rintro place hPlace p ⟨rest, rfl⟩
    simp [emptyOut]
  have hAbove : ¬Blocked emptyOut ["out"] := by
    rintro ⟨p, -, hIs⟩
    rw [emptyOut] at hIs
    split at hIs <;> cases hIs
  have hArrive := shared_paths_arrive joinSlash id hProper hGiven hImport (by decide) (by decide)
    hFree hAbove
  exact hArrive.2.2.1 givenDocs List.mem_cons_self

end

end AltSendme.Files
