import AltSendme.Files.ExportableNames
import AltSendme.Files.Numbering
import Mathlib.Data.List.Pairwise

/-! The paths a share is made of: what `canonicalize_input_paths` makes of them,
and what their import leaves at the top of the collection, input by input. -/
namespace AltSendme.Files
open Listing (valuesOf groupSums spread)

/-- A canonical path, from the root down. -/
abbrev Place := List FileName

/-- What a path is compared by. -/
def OsName.bytes : OsName → List UInt8
  | .utf8 text => text.toList.flatMap String.utf8EncodeChar
  | .other bytes => bytes

/-- The order of a `BTreeSet<PathBuf>`. -/
def placeLe (left right : Place) : Bool :=
  left.map (fun name => name.val.bytes) ≤ right.map fun name => name.val.bytes

/-- A file system that does not change. -/
structure Volume (Hash : Type) where
  root : FileTree Hash
  /-- what `metadata` says of a file whose bytes cannot be read -/
  unreadLen : Place → Option UInt64

/-- A path as it was given, on a file system without links. -/
structure GivenPath where
  display : String
  fileName : Option FileName
  canonical : Place
  noLinks : fileName = none ∨ fileName = canonical.getLast?
  deriving DecidableEq

inductive CanonicalizeError where
  | failedToCanonicalizePath (index : Nat)
  | pathDoesNotExist (index : Nat)
  | noValidPathsProvided
  deriving DecidableEq

section
variable {Hash : Type}

def FileTree.child (name : FileName) : FileTree Hash → Option (FileTree Hash)
  | .dir entries => (entries.find? fun entry => entry.1 = name).map Prod.snd
  | _ => none

def Volume.lookup (v : Volume Hash) (place : Place) : Option (FileTree Hash) :=
  place.foldlM (fun tree name => tree.child name) v.root

/-- Where nothing is, a path is neither file nor directory. -/
def Volume.found (v : Volume Hash) (place : Place) : FileTree Hash := (v.lookup place).getD .special

/-- A canonical path as an input of the import. -/
def Volume.input (v : Volume Hash) (place : Place) : InputPath Hash :=
  ⟨place.getLast?, v.found place⟩

def Volume.canonicalize (v : Volume Hash) (path : GivenPath) : Option Place :=
  (v.lookup path.canonical).map fun _ => path.canonical

def canonicalizeInputPath (v : Volume Hash) (path : GivenPath × Nat) :
    Except CanonicalizeError Place :=
  match v.canonicalize path.1 with
  | none => .error (.failedToCanonicalizePath path.2)
  | some c => if (v.lookup c).isSome then .ok c else .error (.pathDoesNotExist path.2)

/-- What a `BTreeSet<PathBuf>` holds after these insertions, in its order. -/
def uniq (places : List Place) : List Place :=
  places.dedup.insertionSort fun left right => placeLe left right

/-- `canonicalize_input_paths` -/
def canonicalizeInputPaths (v : Volume Hash) (paths : List GivenPath) :
    Except CanonicalizeError (List Place) := do
  let found ← paths.zipIdx.mapM (canonicalizeInputPath v)
  let out := uniq found
  if out.isEmpty then .error .noValidPathsProvided else return out

/-- The entries of `import_paths`, before they become a collection. -/
def importEntries (arrival : Arrival Hash) (paths : List (InputPath Hash)) :
    Except ImportError (List (String × Blob Hash)) := do
  let imported ← paths.zipIdx.foldlM (importPath arrival) .empty
  let entries := sortEntries imported.entries
  if entries.isEmpty then .error .noValidFiles else return entries

/-- The first component of an imported name. -/
def topLevel (name : String) : String := (components name).head (components_ne_nil name)

/-- The top-level name of an entry, and the size of its file. -/
def topSize (entry : String × Blob Hash) : String × Nat :=
  (topLevel entry.1, entry.2.size.toNat)

/-- The top-level names of a collection, with the sums of their files' sizes. -/
def topLevels (entries : List (String × Blob Hash)) : List (String × Nat) :=
  groupSums (entries.map topSize)

def InputPath.isFile (path : InputPath Hash) : Bool :=
  match path.found with
  | .file _ => true
  | _ => false

/-- The sizes of the files of an input. -/
def InputPath.sizes (path : InputPath Hash) : List Nat :=
  (path.found.walk []).map fun entry => (entry.2.map fun blob => blob.size.toNat).getD 0

/-- The total wraps. -/
theorem totalSize_toNat (entries : List (String × Blob Hash)) :
    (totalSize entries).toNat = (entries.map fun entry => entry.2.size.toNat).sum % 2 ^ 64 := by
  rw [totalSize]
  induction entries with
  | nil => rfl
  | cons entry entries ih =>
      rw [List.map_cons, List.sum_cons, List.map_cons, List.sum_cons, UInt64.toNat_add, ih]
      omega

/-- An import is its entries, collected. -/
theorem importPaths_eq_collect (arrival : Arrival Hash) (paths : List (InputPath Hash)) :
    importPaths arrival paths = (importEntries arrival paths).map collect := by
  rw [importPaths, importEntries]
  cases paths.zipIdx.foldlM (importPath arrival) Imported.empty with
  | error e => rfl
  | ok imported =>
      simp only [bind, Except.bind]
      split <;> rfl

/-- A path that is accepted becomes its canonical form. -/
theorem canonicalizeInputPath_eq_ok {v : Volume Hash} {path : GivenPath × Nat} {place : Place}
    (h : canonicalizeInputPath v path = .ok place) : place = path.1.canonical := by
  rw [canonicalizeInputPath, Volume.canonicalize] at h
  cases hThere : v.lookup path.1.canonical with
  | none => simp [hThere] at h
  | some tree =>
      simp only [hThere, Option.map_some, Option.isSome_some, if_true, Except.ok.injEq] at h
      exact h.symm

omit Hash in
/-- Sorting and deduplicating keeps exactly the distinct places. -/
theorem uniq_perm (places : List Place) : (uniq places).Perm places.dedup :=
  List.perm_insertionSort _ _

/-- Accepted paths become their canonical forms, sorted and each once. -/
theorem canonicalizeInputPaths_eq_ok {v : Volume Hash} {paths : List GivenPath}
    {places : List Place} (h : canonicalizeInputPaths v paths = .ok places) :
    places = uniq (paths.map GivenPath.canonical) ∧ paths ≠ [] := by
  rw [canonicalizeInputPaths] at h
  cases hEach : paths.zipIdx.mapM (canonicalizeInputPath v) with
  | error e => simp [hEach, bind, Except.bind] at h
  | ok found =>
      simp only [hEach, bind, Except.bind, pure, Except.pure] at h
      split at h
      · cases h
      · next hSome =>
          obtain rfl := Except.ok.inj h
          have hPlaces : paths.zipIdx.map (fun path => path.1.canonical) = found := by
            have hAll := forall₂_of_mapM hEach
            rw [← List.forall₂_eq_eq_eq, List.forall₂_map_left_iff]
            exact hAll.imp fun _ _ hOne => (canonicalizeInputPath_eq_ok hOne).symm
          have hFound : found = paths.map GivenPath.canonical := by
            rw [← hPlaces, ← List.zipIdx_map_fst 0 paths, List.map_map, List.zipIdx_map_fst]
            rfl
          rw [← hFound]
          refine ⟨rfl, ?_⟩
          rintro rfl
          obtain rfl : found = [] := hFound
          exact hSome rfl

/-- A name below a directory at the top. -/
def Below (top name : String) : Prop := ∃ tail ≠ [], components name = top :: tail

theorem components_of_noSlash {name : String} (h : '/' ∉ name.toList) :
    components name = [name] := by
  have hJoin : joinSlash [name] = name := by simp [joinSlash]
  have hParts := @components_joinSlash [name] (List.cons_ne_nil _ _) (by simpa using h)
  rwa [hJoin] at hParts

/-- Numbering a name keeps it below its top-level name. -/
theorem Below.topLevel_nthName {top name : String} (h : Below top name) (earlier : Nat) :
    topLevel (nthName name earlier) = top := by
  obtain ⟨tail, hTail, hName⟩ := h
  cases earlier with
  | zero => simp [topLevel, hName]
  | succ earlier =>
      have hLast : components name = (top :: tail.dropLast) ++ [tail.getLast hTail] := by
        rw [hName, List.cons_append, List.dropLast_append_getLast]
      simp [nthName_succ, topLevel, components_numbered hLast]

/-- The name of a file at the top is its top level, numbered or not. -/
theorem topLevel_nthName {name : String} (h : '/' ∉ name.toList) (earlier : Nat) :
    topLevel (nthName name earlier) = nthName name earlier := by
  have hNoSlash : '/' ∉ (nthName name earlier).toList := by
    cases earlier with
    | zero => exact h
    | succ earlier => exact slash_notMem_numbered h _
  simp [topLevel, components_of_noSlash hNoSlash]

theorem Below.ne_of_noSlash {top name other : String} (h : Below top name)
    (hOther : '/' ∉ other.toList) : name ≠ other := by
  rintro rfl
  obtain ⟨tail, hTail, hName⟩ := h
  rw [components_of_noSlash hOther, List.cons.injEq] at hName
  exact hTail hName.2.symm

/-- A stem is one component. -/
theorem InputPath.stem_noSlash (path : InputPath Hash) : '/' ∉ path.stem.toList :=
  path.stem_isFileName.2.1

mutual

/-- A walk finds nothing outside the tree it walks. -/
theorem FileTree.walk_prefix {rel : List FileName} {found : List FileName × Option (Blob Hash)} :
    ∀ {tree : FileTree Hash}, found ∈ tree.walk rel → rel <+: found.1
  | .file blob, h => by
      rw [FileTree.walk, List.mem_singleton] at h
      rw [h]
  | .dir entries, h => by
      obtain ⟨name, tail, hRel⟩ := @walkEntries_below rel found entries h
      rw [hRel]
      exact List.prefix_append _ _
  | .special, h | .inaccessible, h => nomatch h

/-- What is in a directory has a name below it. -/
theorem walkEntries_below {rel : List FileName} {found : List FileName × Option (Blob Hash)} :
    ∀ {entries : List (FileName × FileTree Hash)}, found ∈ walkEntries rel entries →
      ∃ name tail, found.1 = rel ++ name :: tail
  | [], h => nomatch h
  | (name, tree) :: rest, h => by
      rw [walkEntries, List.mem_append] at h
      rcases h with hHere | hRest
      · obtain ⟨tail, hTail⟩ := FileTree.walk_prefix hHere
        refine ⟨name, tail, ?_⟩
        rw [← hTail, List.append_assoc, List.singleton_append]
      · exact walkEntries_below hRest

end

/-- An input that is there, with every file below it readable. -/
structure Importable (path : InputPath Hash) : Prop where
  leads : path.found ≠ .special ∧ path.found ≠ .inaccessible
  read : ∀ found ∈ path.found.walk [], found.2 ≠ none

/-- What the import of an input brings: the one file under the input's name, or
files below it. -/
structure Collects (path : InputPath Hash) (added : List (String × Blob Hash)) : Prop where
  importable : Importable path
  sizes : (added.map fun entry => entry.2.size.toNat).Perm path.sizes
  file : path.isFile = true → added.map Prod.fst = [path.stem]
  below : path.isFile = false → ∀ name ∈ added.map Prod.fst, Below path.stem name

/-- What a path under a top-level name becomes. -/
theorem canonicalized_under {top text : String} {rel : List FileName} (hTop : '/' ∉ top.toList)
    (h : canonicalizedPathToString
      (.normal (.utf8 top) :: rel.map fun name => .normal name.val) true = .ok text) :
    ∃ tail : Path, rel.map Subtype.val = tail.map .utf8 ∧ text = joinSlash (top :: tail) ∧
      components text = top :: tail := by
  have hNames : Component.normal (.utf8 top) :: (rel.map fun name => .normal name.val) =
      (OsName.utf8 top :: rel.map Subtype.val).map .normal := by
    simp
  rw [hNames] at h
  obtain ⟨parts, hParts, -, rfl⟩ := canonicalizedPathToString_eq_ok h
  cases parts with
  | nil => cases hParts
  | cons first tail =>
      rw [List.map_cons, List.cons.injEq, OsName.utf8.injEq] at hParts
      obtain ⟨rfl, hTail⟩ := hParts
      refine ⟨tail, hTail, rfl, components_joinSlash (List.cons_ne_nil _ _) ?_⟩
      rw [List.forall_mem_cons]
      refine ⟨hTop, fun part hPart => ?_⟩
      have hMem : OsName.utf8 part ∈ rel.map Subtype.val := hTail ▸ List.mem_map_of_mem hPart
      obtain ⟨name, -, hName⟩ := List.mem_map.mp hMem
      have hFile : (OsName.utf8 part).IsFileName := hName ▸ name.property
      exact hFile.2.1

/-- One file of a directory, as it is collected. -/
theorem collected_under {top : String} (hTop : '/' ∉ top.toList)
    {found : List FileName × Option (Blob Hash)} {file : String × Option (Blob Hash)}
    (h : (do
      let safe ← canonicalizedPathToString
        (.normal (.utf8 top) :: found.1.map fun name => .normal name.val) true
      return (safe, found.2)) = Except.ok file) :
    file.2 = found.2 ∧ ∃ tail : Path, found.1.map Subtype.val = tail.map .utf8 ∧
      components file.1 = top :: tail := by
  cases hText : canonicalizedPathToString
      (.normal (.utf8 top) :: found.1.map fun name => .normal name.val) true with
  | error e =>
      rw [hText] at h
      cases h
  | ok text =>
      rw [hText] at h
      cases h
      obtain ⟨tail, hTail, -, hComponents⟩ := canonicalized_under hTop hText
      exact ⟨rfl, tail, hTail, hComponents⟩

/-- The names and the blobs that an input is collected as. -/
theorem collectPathFiles_eq_ok {path : InputPath Hash} {files : List (String × Option (Blob Hash))}
    (h : collectPathFiles path.found path.stem = .ok files) :
    files.map Prod.snd = (path.found.walk []).map Prod.snd ∧
      (path.isFile = true → files.map Prod.fst = [path.stem]) ∧
      (path.isFile = false → ∀ name ∈ files.map Prod.fst, Below path.stem name) := by
  rw [InputPath.isFile]
  cases hFound : path.found with
  | special | inaccessible =>
      rw [hFound, collectPathFiles] at h
      cases h
  | file found =>
      rw [hFound, collectPathFiles] at h
      cases hText : canonicalizedPathToString [.normal (.utf8 path.stem)] true with
      | error e => simp [hText, bind, Except.bind] at h
      | ok text =>
          simp only [hText, bind, Except.bind, pure, Except.pure, Except.ok.injEq] at h
          subst h
          obtain ⟨tail, hTail, rfl, -⟩ := @canonicalized_under _ _ [] path.stem_noSlash hText
          obtain rfl := List.map_eq_nil_iff.mp hTail.symm
          exact ⟨by simp [FileTree.walk], by simp [joinSlash], by simp⟩
  | dir entries =>
      rw [hFound, collectPathFiles] at h
      refine ⟨?_, by simp, fun _ name hName => ?_⟩
      · rw [FileTree.walk, ← List.forall₂_eq_eq_eq, List.forall₂_map_left_iff,
          List.forall₂_map_right_iff]
        exact (forall₂_of_mapM h).flip.imp fun file found hOne =>
          (collected_under path.stem_noSlash hOne).1
      · obtain ⟨file, hFile, rfl⟩ := List.mem_map.mp hName
        obtain ⟨found, hMem, hOne⟩ := exists_of_mem_mapM h hFile
        obtain ⟨-, tail, hTail, hComponents⟩ := collected_under path.stem_noSlash hOne
        refine ⟨tail, ?_, hComponents⟩
        rintro rfl
        obtain ⟨first, rest, hRel⟩ := walkEntries_below hMem
        rw [hRel] at hTail
        cases hTail

/-- Reading the files leaves each its blob. -/
theorem addFiles_eq_ok {files : List (String × Option (Blob Hash))}
    {added : List (String × Blob Hash)} (h : addFiles files = .ok added) :
    files = added.map (Prod.map id some) := by
  rw [← List.forall₂_eq_eq_eq, List.forall₂_map_right_iff]
  refine (forall₂_of_mapM h).imp fun file entry hOne => ?_
  obtain ⟨name, found⟩ := file
  cases found with
  | none => cases hOne
  | some blob =>
      cases hOne
      rfl

/-- A path that is imported collects its files and pushes them one by one. -/
theorem importPath_collects {arrival : Arrival Hash} {acc acc' : Imported Hash}
    {path : InputPath Hash} {i : Nat} (h : importPath arrival acc (path, i) = .ok acc') :
    ∃ added, Collects path added ∧ acc' = added.foldl Imported.push acc := by
  obtain ⟨files, added, hFiles, hAdded, rfl⟩ := importPath_steps h
  obtain ⟨hBlobs, hFile, hBelow⟩ := collectPathFiles_eq_ok hFiles
  have hNames : (arrival.order i added).map Prod.fst |>.Perm (files.map Prod.fst) := by
    rw [← map_fst_of_addFiles hAdded]
    exact (arrival.perm i added).map _
  refine ⟨arrival.order i added, ⟨⟨⟨?_, ?_⟩, fun found hFound => ?_⟩, ?_, fun hIs => ?_,
    fun hIs name hName => ?_⟩, rfl⟩
  · intro hSpecial
    rw [hSpecial, collectPathFiles] at hFiles
    cases hFiles
  · intro hInaccessible
    rw [hInaccessible, collectPathFiles] at hFiles
    cases hFiles
  · have hMem := hBlobs ▸ List.mem_map_of_mem hFound
    rw [addFiles_eq_ok hAdded, List.map_map] at hMem
    obtain ⟨entry, -, hSome⟩ := List.mem_map.mp hMem
    rw [← hSome]
    exact Option.some_ne_none _
  · have hSizes : path.sizes = added.map fun entry => entry.2.size.toNat := by
      have hFound := congrArg
        (List.map fun blob : Option (Blob Hash) =>
          (blob.map fun blob => blob.size.toNat).getD 0) hBlobs
      rw [addFiles_eq_ok hAdded] at hFound
      simpa [InputPath.sizes, Function.comp_def] using hFound.symm
    rw [hSizes]
    exact (arrival.perm i added).map _
  · rw [hFile hIs] at hNames
    exact List.perm_singleton.mp hNames
  · exact hBelow hIs name (hNames.subset hName)

/-- What the loop over the input paths has collected. -/
theorem foldlM_importPath_collects {arrival : Arrival Hash} {paths : List (InputPath Hash)}
    {i : Nat} {acc acc' : Imported Hash}
    (h : (paths.zipIdx i).foldlM (importPath arrival) acc = .ok acc') :
    ∃ lists, List.Forall₂ Collects paths lists ∧ acc' = lists.flatten.foldl Imported.push acc := by
  induction paths generalizing acc i with
  | nil =>
      cases h
      exact ⟨[], .nil, rfl⟩
  | cons path paths ih =>
      rw [List.zipIdx_cons, List.foldlM_cons] at h
      cases hOne : importPath arrival acc (path, i) with
      | error e => simp [hOne, bind, Except.bind] at h
      | ok next =>
          simp only [hOne, bind, Except.bind] at h
          obtain ⟨added, hCollects, rfl⟩ := importPath_collects hOne
          obtain ⟨lists, hLists, rfl⟩ := ih h
          refine ⟨added :: lists, .cons hCollects hLists, ?_⟩
          rw [List.flatten_cons, List.foldl_append]

/-- The names of the files among inputs. -/
def fileStems (paths : List (InputPath Hash)) : List String :=
  (paths.filter InputPath.isFile).map InputPath.stem

/-- The stems of the files come in the order of the paths. -/
theorem fileStems_append (left right : List (InputPath Hash)) :
    fileStems (left ++ right) = fileStems left ++ fileStems right := by
  simp [fileStems]

/-- The top-level name of an input's files: only a file is numbered, and only
files at the top count. -/
def topName (before : List (InputPath Hash)) (path : InputPath Hash) : String :=
  if path.isFile then nthName path.stem ((fileStems before).count path.stem) else path.stem

/-- What each input brings to the top of a collection. -/
def topBlocks (before : List (InputPath Hash)) : List (InputPath Hash) → List (String × List Nat)
  | [] => []
  | path :: rest => (topName before path, path.sizes) :: topBlocks (before ++ [path]) rest

/-- The numbered files of one input, seen from the top. -/
theorem Collects.topSizes {path : InputPath Hash} {added : List (String × Blob Hash)}
    (h : Collects path added) {before : List (InputPath Hash)} {names : List String}
    (hNames : ∀ name : String, '/' ∉ name.toList →
      names.count name = (fileStems before).count name) :
    ((numberFrom names added).map topSize).Perm
      (path.sizes.map fun size => (topName before path, size)) := by
  have hTop : ∀ entry ∈ numberFrom names added, topLevel entry.1 = topName before path := by
    intro entry hEntry
    obtain ⟨name, k, hName, hValue⟩ := mem_numberFrom.mp hEntry
    have hMem : name ∈ added.map Prod.fst := by
      by_contra hNot
      rw [Listing.valuesOf_eq_nil hNot] at hValue
      cases hValue
    rw [← hName, topName]
    cases hIs : path.isFile with
    | true =>
        have hOne := h.file hIs
        rw [hOne, List.mem_singleton] at hMem
        subst hMem
        obtain ⟨entry, rfl⟩ : ∃ entry, added = [entry] :=
          List.length_eq_one_iff.mp (by simpa using congrArg List.length hOne)
        have hFirst : k = 0 := by
          have hSome := (List.getElem?_eq_some_iff.mp hValue).1
          have hLength : (valuesOf path.stem [entry]).length ≤ 1 := by
            rw [Listing.valuesOf, List.length_map]
            exact List.length_filter_le _ _
          omega
        rw [hFirst, Nat.add_zero, topLevel_nthName path.stem_noSlash, if_pos rfl,
          hNames _ path.stem_noSlash]
    | false =>
        rw [if_neg Bool.false_ne_true]
        exact (h.below hIs name hMem).topLevel_nthName _
  have hMap : (numberFrom names added).map topSize =
      (added.map fun entry => entry.2.size.toNat).map fun size => (topName before path, size) :=
    calc (numberFrom names added).map topSize
      _ = (numberFrom names added).map fun entry => (topName before path, entry.2.size.toNat) :=
          List.map_congr_left fun entry hEntry => by rw [topSize, hTop entry hEntry]
      _ = ((numberFrom names added).map Prod.snd).map fun blob =>
            (topName before path, blob.size.toNat) := by rw [List.map_map]; rfl
      _ = _ := by rw [values_numberFrom, List.map_map, List.map_map]; rfl
  rw [hMap]
  exact h.sizes.map _

/-- Only files at the top bring names without a slash. -/
theorem Collects.count {path : InputPath Hash} {added : List (String × Blob Hash)}
    (h : Collects path added) {name : String} (hName : '/' ∉ name.toList) :
    (added.map Prod.fst).count name = (fileStems [path]).count name := by
  cases hIs : path.isFile with
  | true =>
      rw [h.file hIs]
      simp [fileStems, hIs]
  | false =>
      have hNone : name ∉ added.map Prod.fst := fun hMem =>
        (h.below hIs name hMem).ne_of_noSlash hName rfl
      rw [List.count_eq_zero.mpr hNone]
      simp [fileStems, hIs]

/-- The numbered files of all inputs, seen from the top. -/
theorem numberFrom_topBlocks {paths before : List (InputPath Hash)} {names : List String}
    {lists : List (List (String × Blob Hash))} (h : List.Forall₂ Collects paths lists)
    (hNames : ∀ name : String, '/' ∉ name.toList →
      names.count name = (fileStems before).count name) :
    ((numberFrom names lists.flatten).map topSize).Perm (spread (topBlocks before paths)) := by
  induction h generalizing before names with
  | nil => exact .refl _
  | @cons path added paths lists hOne _ ih =>
      rw [List.flatten_cons, numberFrom_append, List.map_append, topBlocks, Listing.spread_cons]
      refine (hOne.topSizes hNames).append (ih fun name hName => ?_)
      rw [List.count_append, fileStems_append, List.count_append, hNames name hName,
        hOne.count hName]

/-- What an import leaves, seen from the top. -/
theorem importEntries_topBlocks {arrival : Arrival Hash} {paths : List (InputPath Hash)}
    {entries : List (String × Blob Hash)} (h : importEntries arrival paths = .ok entries) :
    (entries.map topSize).Perm (spread (topBlocks [] paths)) ∧
      ∀ path ∈ paths, Importable path := by
  rw [importEntries] at h
  cases hLoop : paths.zipIdx.foldlM (importPath arrival) Imported.empty with
  | error e => simp [hLoop, bind, Except.bind] at h
  | ok imported =>
      simp only [hLoop, bind, Except.bind, pure, Except.pure] at h
      split at h
      · cases h
      · obtain rfl := Except.ok.inj h
        obtain ⟨lists, hLists, rfl⟩ := foldlM_importPath_collects hLoop
        have hEntries := (@foldl_push_entries Hash [] .empty (fun _ => rfl) lists.flatten).1
        have hSort : (sortEntries (lists.flatten.foldl Imported.push .empty).entries).Perm
            (numberFrom [] lists.flatten) := by
          rw [hEntries]
          exact List.perm_insertionSort _ _
        have hBoth := hLists.imp fun _ _ hOne => And.intro hOne.importable hOne
        exact ⟨(hSort.map topSize).trans (numberFrom_topBlocks hLists fun _ _ => rfl),
          ((List.forall₂_and_left _ _).mp hBoth).1⟩

/-- The blocks have the sizes of their paths. -/
theorem sizes_topBlocks (before paths : List (InputPath Hash)) :
    (topBlocks before paths).map Prod.snd = paths.map InputPath.sizes := by
  induction paths generalizing before with
  | nil => rfl
  | cons path rest ih => rw [topBlocks, List.map_cons, List.map_cons, ih]

/-- Inputs of one name are both files. -/
def SameKind (left right : InputPath Hash) : Prop :=
  left.stem = right.stem → left.isFile = true ∧ right.isFile = true

instance : Std.Symm (@SameKind Hash) where
  symm _ _ h hStem := (h hStem.symm).symm

/-- The blocks of later paths are named after those of the earlier ones. -/
theorem topBlocks_append (before left right : List (InputPath Hash)) :
    topBlocks before (left ++ right) =
      topBlocks before left ++ topBlocks (before ++ left) right := by
  induction left generalizing before with
  | nil => simp [topBlocks]
  | cons path left ih =>
      rw [List.cons_append, topBlocks, topBlocks, ih, List.cons_append, List.append_assoc,
        List.singleton_append]

/-- The first input of a name has it as its top-level name. -/
theorem stem_mem_topBlocks {paths before : List (InputPath Hash)} {path : InputPath Hash}
    (hMem : path ∈ paths) (hFirst : path.isFile = true → path.stem ∉ fileStems before) :
    path.stem ∈ (topBlocks before paths).map Prod.fst := by
  induction paths generalizing before with
  | nil => cases hMem
  | cons first rest ih =>
      rw [topBlocks, List.map_cons]
      have hTop (hName : path.stem = first.stem)
          (hZero : first.isFile = true → path.stem ∉ fileStems before) :
          path.stem = topName before first := by
        rw [topName]
        split
        · next hIs => rw [← hName, List.count_eq_zero.mpr (hZero hIs), nthName_zero]
        · exact hName
      rcases List.mem_cons.mp hMem with rfl | hRest
      · exact List.mem_cons.mpr (Or.inl (hTop rfl hFirst))
      · by_cases hSame : first.isFile = true ∧ path.isFile = true ∧ path.stem = first.stem
        · exact List.mem_cons.mpr (Or.inl (hTop hSame.2.2 fun _ => hFirst hSame.2.1))
        · refine List.mem_cons_of_mem _ (ih hRest fun hIs hThere => ?_)
          rw [fileStems_append, List.mem_append] at hThere
          rcases hThere with hOld | hNew
          · exact hFirst hIs hOld
          · obtain ⟨other, hOther, hStem⟩ := List.mem_map.mp hNew
            obtain ⟨hOne, hFile⟩ := List.mem_filter.mp hOther
            obtain rfl := List.mem_singleton.mp hOne
            exact hSame ⟨hFile, hIs, hStem.symm⟩

/-- Among paths of one kind the top-level name is numbered by its stem alone. -/
theorem topName_eq_nthName {before : List (InputPath Hash)} {path : InputPath Hash}
    (hSame : ∀ other ∈ before, SameKind other path) :
    topName before path = nthName path.stem ((before.map InputPath.stem).count path.stem) := by
  rw [topName]
  split
  · congr 1
    rw [fileStems, List.count_eq_countP, List.count_eq_countP, List.countP_map, List.countP_map,
      List.countP_filter]
    refine List.countP_congr fun other hOther => ?_
    simp only [Function.comp_apply, beq_iff_eq, Bool.and_eq_true, and_iff_left_iff_imp]
    exact fun hStem => (hSame other hOther hStem).1
  · next hDir =>
      have hNone : path.stem ∉ before.map InputPath.stem := fun hMem => by
        obtain ⟨other, hOther, hStem⟩ := List.mem_map.mp hMem
        exact hDir (hSame other hOther hStem).2
      rw [List.count_eq_zero.mpr hNone, nthName_zero]

/-- Where only files share names, the inputs are numbered as a whole. -/
theorem topBlocks_eq_numberFrom {paths before : List (InputPath Hash)}
    (hSame : (before ++ paths).Pairwise SameKind) :
    (topBlocks before paths).map (fun block => (block.1, block.2.sum)) =
      numberFrom (before.map InputPath.stem)
        (paths.map fun path => (path.stem, path.sizes.sum)) := by
  induction paths generalizing before with
  | nil => rfl
  | cons path rest ih =>
      have hBefore := (List.pairwise_append.mp hSame).2.2
      have hName := topName_eq_nthName fun other hOther =>
        hBefore other hOther path List.mem_cons_self
      have hRest := @ih (before ++ [path]) (by rwa [List.append_assoc])
      rw [List.map_append, List.map_singleton] at hRest
      rw [topBlocks, List.map_cons, List.map_cons, numberFrom, hRest, hName]

/-- Among paths of one kind the blocks are named by numbering the stems. -/
theorem keys_topBlocks {paths : List (InputPath Hash)} (hSame : paths.Pairwise SameKind) :
    (topBlocks [] paths).map Prod.fst =
      (numberFrom [] (paths.map fun path => (path.stem, path.sizes.sum))).map Prod.fst := by
  have hNumbered := congrArg (List.map Prod.fst) (@topBlocks_eq_numberFrom _ paths [] hSame)
  rwa [List.map_map] at hNumbered

/-- Inputs with top-level names of their own share names only among files. -/
theorem sameKind_of_keys_nodup {paths : List (InputPath Hash)}
    (h : ((topBlocks [] paths).map Prod.fst).Nodup) : paths.Pairwise SameKind := by
  induction paths using List.reverseRecOn with
  | nil => exact .nil
  | append_singleton paths path ih =>
      rw [topBlocks_append, List.map_append, List.nil_append, List.nodup_append] at h
      obtain ⟨hPaths, -, hApart⟩ := h
      have hSame := ih hPaths
      refine List.pairwise_append.mpr ⟨hSame, List.pairwise_singleton _ _, ?_⟩
      intro other hOther last hLast hStem
      obtain rfl := List.mem_singleton.mp hLast
      have hThere := @stem_mem_topBlocks _ paths [] other hOther fun _ => List.not_mem_nil
      have hNew : topName paths last ≠ last.stem := fun hTop =>
        hApart _ (hStem ▸ hThere) _ List.mem_cons_self hTop.symm
      rw [topName] at hNew
      split at hNew
      · next hIs =>
          refine ⟨?_, hIs⟩
          have hCount : last.stem ∈ fileStems paths := by
            by_contra hNot
            rw [List.count_eq_zero.mpr hNot] at hNew
            exact hNew rfl
          obtain ⟨file, hFile, hName⟩ := List.mem_map.mp hCount
          obtain ⟨hMem, hFileIs⟩ := List.mem_filter.mp hFile
          by_cases hEq : other = file
          · rw [hEq]
            exact hFileIs
          · exact (hSame.forall hOther hMem hEq (hStem.trans hName.symm)).1
      · exact absurd rfl hNew

/-- When the inputs keep apart at the top of the collection. -/
theorem keys_topBlocks_nodup_iff {paths : List (InputPath Hash)} :
    ((topBlocks [] paths).map Prod.fst).Nodup ↔
      paths.Pairwise SameKind ∧ NumbersFree (paths.map InputPath.stem) := by
  have hKeys (hSame : paths.Pairwise SameKind) :
      ((topBlocks [] paths).map Prod.fst).Nodup ↔ NumbersFree (paths.map InputPath.stem) := by
    rw [keys_topBlocks hSame, keys_numberFrom_nodup_iff, List.map_map]
    rfl
  constructor
  · intro h
    have hSame := sameKind_of_keys_nodup h
    exact ⟨hSame, (hKeys hSame).mp h⟩
  · rintro ⟨hSame, hFree⟩
    exact (hKeys hSame).mpr hFree

end
end AltSendme.Files
