import AltSendme.Files.GivenPaths
import AltSendme.Protocol.Framing
import AltSendme.Protocol.ProvideProgress

/-! The preview of a share, `build_send_metadata`: it names and measures the
given paths on its own, while the import takes the canonical paths and names the
files below them. -/
namespace AltSendme.Desktop.Preview
open Files
open Listing (valuesOf groupSums spread)
open ProvideProgress (saturatingAdd saturatingAdd_toNat)

inductive PreviewError where
  | noPathsProvided
  | failedToReadMetadata (display : String) (below : Place)
  | failedToTraverse (display : String)
  | neitherFileNorDirectory (display : String)
  deriving DecidableEq

/-- What a preview asks of the system besides sizes. -/
structure Host where
  generateThumbnail : GivenPath → Option String
  mimeGuess : GivenPath → String
  toStringLossy : List UInt8 → String

/-- What `WalkDir` yields of a directory: its regular files, and errors. -/
inductive Visit (Hash : Type) where
  | file (rel : List FileName) (blob : Option (Blob Hash))
  | failed
  deriving DecidableEq

section
variable {Hash : Type}

mutual

def visitTree (rel : List FileName) : FileTree Hash → List (Visit Hash)
  | .file blob => [.file rel blob]
  | .dir entries => visitEntries rel entries
  | .special => []
  | .inaccessible => [.failed]

def visitEntries (rel : List FileName) : List (FileName × FileTree Hash) → List (Visit Hash)
  | [] => []
  | (name, tree) :: rest => visitTree (rel ++ [name]) tree ++ visitEntries rel rest

end

/-- `metadata.len()` -/
def fileLen (v : Volume Hash) (path : GivenPath) (rel : List FileName) :
    Option (Blob Hash) → Except PreviewError UInt64
  | some blob => .ok blob.size
  | none => match v.unreadLen (path.canonical ++ rel) with
    | some len => .ok len
    | none => .error (.failedToReadMetadata path.display rel)

def visitLen (v : Volume Hash) (path : GivenPath) : Visit Hash → Except PreviewError UInt64
  | .file rel blob => fileLen v path rel blob
  | .failed => .error (.failedToTraverse path.display)

/-- A loop that adds up sizes as long as none fails. -/
def sumSizes {α : Type} (size : α → Except PreviewError UInt64) (xs : List α) :
    Except PreviewError UInt64 :=
  xs.foldlM (fun total x => do
    let len ← size x
    return saturatingAdd total len) 0

/-- `get_total_size` -/
def getTotalSize (v : Volume Hash) (path : GivenPath) : Except PreviewError UInt64 :=
  match v.found path.canonical with
  | .file blob => fileLen v path [] blob
  | .dir entries => sumSizes (visitLen v path) (visitEntries [] entries)
  | .special | .inaccessible => .error (.neitherFileNorDirectory path.display)

/-- The name of a path in `collect_preview_items`. -/
def previewName (path : GivenPath) : String :=
  match path.fileName with
  | some ⟨.utf8 text, _⟩ => if text ≠ "" then text else "item"
  | _ => "item"

/-- `path.file_name().unwrap_or_default().to_string_lossy()` -/
def lossyName (host : Host) (path : GivenPath) : String :=
  match path.fileName with
  | some ⟨.utf8 text, _⟩ => text
  | some ⟨.other bytes, _⟩ => host.toStringLossy bytes
  | none => ""

def isFile (v : Volume Hash) (path : GivenPath) : Bool := (v.input path.canonical).isFile

def isDir (v : Volume Hash) (path : GivenPath) : Bool :=
  match v.found path.canonical with
  | .dir _ => true
  | _ => false

/-- One round of the loop of `collect_preview_items`. -/
def previewPath (host : Host) (v : Volume Hash) (acc : List FilePreviewItem × NameSeen)
    (path : GivenPath) : Except PreviewError (List FilePreviewItem × NameSeen) := do
  let (finalName, seen) := dedupName (previewName path) acc.2
  let size ← getTotalSize v path
  let mimeType := if isDir v path then "inode/directory" else host.mimeGuess path
  let thumbnail := if isFile v path then host.generateThumbnail path else none
  return (acc.1 ++ [⟨finalName, size, thumbnail, some mimeType⟩], seen)

/-- `collect_preview_items` -/
def collectPreviewItems (host : Host) (v : Volume Hash) (paths : List GivenPath) :
    Except PreviewError (List FilePreviewItem) := do
  let (items, _) ← paths.foldlM (previewPath host v) ([], fun _ => 0)
  return items.insertionSort fun a b => a.fileName ≤ b.fileName

/-- `build_send_metadata` -/
def buildSendMetadata (host : Host) (v : Volume Hash) :
    List GivenPath → Except PreviewError FileMetadata
  | [] => .error .noPathsProvided
  | [path] => do
      let totalSize ← sumSizes (getTotalSize v) [path]
      let mimeType := if isFile v path then host.mimeGuess path else "inode/directory"
      return ⟨lossyName host path, 1, totalSize, host.generateThumbnail path, some mimeType, none⟩
  | first :: rest => do
      let totalSize ← sumSizes (getTotalSize v) (first :: rest)
      let items ← collectPreviewItems host v (first :: rest)
      return ⟨lossyName host first, UInt32.ofNat (first :: rest).length, totalSize,
        items.findSome? FilePreviewItem.thumbnail, some "application/x-iroh-collection", some items⟩

/-- No entry below the path is one that `WalkDir` reports as an error. -/
def Walkable (v : Volume Hash) (path : GivenPath) : Prop :=
  Visit.failed ∉ visitTree [] (v.found path.canonical)

instance [DecidableEq Hash] (v : Volume Hash) (path : GivenPath) : Decidable (Walkable v path) :=
  inferInstanceAs (Decidable (_ ∉ _))

/-- The sum of the sizes of the files below a place. -/
def sizeOf (v : Volume Hash) (place : Place) : Nat := (v.input place).sizes.sum

/-- The name under which the files of a place are imported. -/
def stemOf (v : Volume Hash) (place : Place) : String := (v.input place).stem

/-- The sizes of the given paths, under the names they are previewed by. -/
def givenSizes (v : Volume Hash) (given : List GivenPath) : List (String × Nat) :=
  given.map fun path => (previewName path, sizeOf v path.canonical)

/-- The sizes of the canonical paths, under the names they are imported by. -/
def canonicalSizes (v : Volume Hash) (places : List Place) : List (String × Nat) :=
  places.map fun place => (stemOf v place, sizeOf v place)

/-- The canonical paths of the given ones, in the order of their import. -/
def placesOf (given : List GivenPath) : List Place := uniq (given.map GivenPath.canonical)

/-- The conditions under which every given path is an item of its own at the top
of the collection, under the name and with the size that the preview shows. -/
structure ItemsApart (v : Volume Hash) (given : List GivenPath) : Prop where
  /-- no place is given twice -/
  distinct : (given.map GivenPath.canonical).Nodup
  /-- each path leads to a file -/
  full : ∀ path ∈ given, (v.input path.canonical).sizes ≠ []
  /-- only files share a name -/
  sameKind : given.Pairwise fun left right =>
    SameKind (v.input left.canonical) (v.input right.canonical)
  /-- no number makes a name that is there, in the import or in the preview -/
  numbersFree : NumbersFree (given.map fun path => stemOf v path.canonical)
  previewFree : NumbersFree (given.map previewName)
  /-- no size has to be cut off -/
  fits : ∀ path ∈ given, sizeOf v path.canonical < 2 ^ 64
  /-- paths of one name have their sizes in the order of the canonical paths -/
  sameOrder : ∀ name k size, (valuesOf name (givenSizes v given))[k]? = some size →
    (valuesOf name (canonicalSizes v (placesOf given)))[k]? = some size ∨
      (1 ≤ k ∧ (valuesOf (nthName name k) (canonicalSizes v (placesOf given)))[0]? = some size)

/-- A size as the preview can show it. -/
def cutOff (size : Nat) : Nat := min size (2 ^ 64 - 1)

/-- A sum that is the same whether it saturates or wraps. -/
def SumFits (sum : Nat) : Prop := sum < 2 ^ 64 ∨ sum % 2 ^ 64 = 2 ^ 64 - 1

/-- When the preview of a share describes what is received. -/
def PreviewAgrees (v : Volume Hash) (given : List GivenPath) : Prop :=
  SumFits (given.map fun path => sizeOf v path.canonical).sum ∧
    (1 < given.length → ItemsApart v given)

def shownSize (item : FilePreviewItem) : String × Nat := (item.fileName, item.size.toNat)

/-- The metadata shows the size of the import and, for more than one path, its
top-level names with the sums of their files' sizes. -/
def Describes (metadata : FileMetadata) (paths : Nat) (total : UInt64)
    (entries : List (String × Blob Hash)) : Prop :=
  metadata.size = total ∧ (1 < paths → ∃ items, metadata.items = some items ∧
    (items.map shownSize).Perm (topLevels entries))

def Visit.size : Visit Hash → Nat
  | .file _ (some blob) => blob.size.toNat
  | _ => 0

mutual

/-- A visit that nowhere fails is the walk. -/
theorem visitTree_eq_walk {rel : List FileName} :
    ∀ {tree : FileTree Hash}, Visit.failed ∉ visitTree rel tree →
      visitTree rel tree = (tree.walk rel).map fun found => .file found.1 found.2
  | .file _, _ => rfl
  | .dir _, h => @visitEntries_eq_walk rel _ h
  | .special, _ => rfl
  | .inaccessible, h => absurd List.mem_cons_self h

/-- A visit of entries that nowhere fails is their walk. -/
theorem visitEntries_eq_walk {rel : List FileName} :
    ∀ {entries : List (FileName × FileTree Hash)}, Visit.failed ∉ visitEntries rel entries →
      visitEntries rel entries = (walkEntries rel entries).map fun found => .file found.1 found.2
  | [], _ => rfl
  | (name, tree) :: rest, h => by
      rw [visitEntries, List.mem_append, not_or] at h
      rw [visitEntries, walkEntries, List.map_append, visitTree_eq_walk h.1,
        visitEntries_eq_walk h.2]

end

omit Hash in
/-- A size that fits is not cut off. -/
theorem cutOff_of_lt {size : Nat} (h : size < 2 ^ 64) : cutOff size = size :=
  Nat.min_eq_left (Nat.le_sub_one_of_lt h)

/-- A loop of saturating additions gives the sum, cut off. -/
theorem sumSizes_eq_ok {α : Type} {size : α → Except PreviewError UInt64} {amount : α → Nat}
    {xs : List α}
    (h : ∀ x ∈ xs, ∃ len, size x = .ok len ∧ len.toNat = cutOff (amount x)) :
    ∃ total, sumSizes size xs = .ok total ∧
      total.toNat = cutOff (xs.map amount).sum := by
  have hLoop (start : UInt64) : ∃ total, xs.foldlM (fun total x => do
      let len ← size x
      return saturatingAdd total len) start = .ok total ∧
      total.toNat = cutOff (start.toNat + (xs.map amount).sum) := by
    induction xs generalizing start with
    | nil =>
        exact ⟨start, rfl, (cutOff_of_lt start.toNat_lt).symm⟩
    | cons x xs ih =>
        obtain ⟨len, hLen, hAmount⟩ := h x List.mem_cons_self
        obtain ⟨total, hTotal, hSum⟩ :=
          ih (fun y hy => h y (List.mem_cons_of_mem x hy)) (saturatingAdd start len)
        refine ⟨total, ?_, ?_⟩
        · rw [List.foldlM_cons, hLen]
          exact hTotal
        · rw [hSum, saturatingAdd_toNat, hAmount, List.map_cons, List.sum_cons]
          simp only [cutOff]
          omega
  obtain ⟨total, hTotal, hSum⟩ := hLoop 0
  exact ⟨total, hTotal, by rw [hSum]; simp⟩

/-- `get_total_size` measures what the import collects, cut off. -/
theorem getTotalSize_eq_ok {v : Volume Hash} {path : GivenPath} (hWalkable : Walkable v path)
    (hImportable : Importable (v.input path.canonical)) :
    ∃ len, getTotalSize v path = .ok len ∧
      len.toNat = cutOff (sizeOf v path.canonical) := by
  obtain ⟨hLeads, hRead⟩ := hImportable
  rw [getTotalSize, sizeOf, InputPath.sizes]
  rw [Walkable] at hWalkable
  dsimp only [Volume.input] at hLeads hRead ⊢
  cases hFound : v.found path.canonical with
  | special => exact absurd hFound hLeads.1
  | inaccessible => exact absurd hFound hLeads.2
  | file blob =>
      rw [hFound] at hRead
      cases blob with
      | none => exact absurd rfl (hRead ([], none) List.mem_cons_self)
      | some blob =>
          refine ⟨blob.size, rfl, ?_⟩
          rw [cutOff_of_lt] <;> simp [FileTree.walk, blob.size.toNat_lt]
  | dir entries =>
      rw [hFound] at hRead hWalkable
      have hVisits := @visitEntries_eq_walk _ [] entries hWalkable
      have hSizes : (visitEntries [] entries).map Visit.size =
          ((FileTree.dir entries).walk []).map fun entry =>
            (entry.2.map fun blob => blob.size.toNat).getD 0 := by
        rw [hVisits, List.map_map]
        exact List.map_congr_left fun found _ => by obtain ⟨rel, _ | blob⟩ := found <;> rfl
      rw [← hSizes]
      refine sumSizes_eq_ok fun visit hMem => ?_
      rw [hVisits] at hMem
      obtain ⟨⟨rel, blob⟩, hFile, rfl⟩ := List.mem_map.mp hMem
      cases blob with
      | none => exact absurd rfl (hRead (rel, none) hFile)
      | some blob =>
          exact ⟨blob.size, rfl, (cutOff_of_lt blob.size.toNat_lt).symm⟩

/-- What a preview loop has made of the paths so far. -/
theorem foldlM_previewPath {host : Host} {v : Volume Hash} {paths : List GivenPath}
    {before : List String} {acc : List FilePreviewItem × NameSeen}
    (hSeen : ∀ name, acc.2 name = before.count name)
    (hLens : ∀ path ∈ paths, ∃ len, getTotalSize v path = .ok len ∧
      len.toNat = cutOff (sizeOf v path.canonical)) :
    ∃ items seen, paths.foldlM (previewPath host v) acc = .ok (items, seen) ∧
      items.map shownSize = acc.1.map shownSize ++
        (numberFrom before (givenSizes v paths)).map (Prod.map id cutOff) := by
  induction paths generalizing before acc with
  | nil => exact ⟨acc.1, acc.2, rfl, by simp [givenSizes, numberFrom]⟩
  | cons path paths ih =>
      obtain ⟨len, hLen, hSize⟩ := hLens path List.mem_cons_self
      have hOne : ∃ item : FilePreviewItem, previewPath host v acc path =
            .ok (acc.1 ++ [item], Function.update acc.2 (previewName path)
              (acc.2 (previewName path) + 1)) ∧
          shownSize item = (nthName (previewName path) (before.count (previewName path)),
            cutOff (sizeOf v path.canonical)) := by
        rw [previewPath, dedupName_eq, hLen]
        exact ⟨_, rfl, by rw [shownSize, hSeen, hSize, cutOff]⟩
      obtain ⟨item, hItem, hShown⟩ := hOne
      have hNext (name : String) : Function.update acc.2 (previewName path)
          (acc.2 (previewName path) + 1) name = (before ++ [previewName path]).count name := by
        rw [List.count_append, List.count_singleton]
        by_cases hName : name = previewName path
        · subst hName
          simp [hSeen]
        · simp [Function.update_of_ne hName, hSeen, Ne.symm hName]
      obtain ⟨items, seen, hItems, hSizes⟩ := @ih _ (_, _) hNext
        fun other hOther => hLens other (List.mem_cons_of_mem path hOther)
      refine ⟨items, seen, ?_, ?_⟩
      · rw [List.foldlM_cons, hItem]
        exact hItems
      · rw [hSizes, List.map_append, List.map_singleton, hShown, List.append_assoc,
          List.singleton_append]
        rfl

/-- The items of a preview are the given paths, numbered, each with its size. -/
theorem collectPreviewItems_eq_ok {host : Host} {v : Volume Hash} {paths : List GivenPath}
    (hLens : ∀ path ∈ paths, ∃ len, getTotalSize v path = .ok len ∧
      len.toNat = cutOff (sizeOf v path.canonical)) :
    ∃ items, collectPreviewItems host v paths = .ok items ∧ (items.map shownSize).Perm
      ((numberFrom [] (givenSizes v paths)).map (Prod.map id cutOff)) := by
  obtain ⟨items, seen, hItems, hSizes⟩ :=
    @foldlM_previewPath _ host v paths [] ([], fun _ => 0) (fun _ => rfl) hLens
  refine ⟨items.insertionSort fun a b => a.fileName ≤ b.fileName, ?_, ?_⟩
  · rw [collectPreviewItems, hItems]
    rfl
  · rw [List.map_nil, List.nil_append] at hSizes
    rw [← hSizes]
    exact (List.perm_insertionSort _ items).map shownSize

omit Hash in
/-- The fallback name is no numbered name. -/
theorem item_ne_numbered (name : String) (count : Nat) : "item" ≠ numbered name count := by
  intro h
  have hShape : (numbered name count).toList =
      (name.toList ++ ' ' :: '(' :: Nat.toDigits 10 count) ++ [')'] := by
    simp [toList_numbered]
  have hLast := congrArg List.getLast? hShape
  rw [← h, List.getLast?_concat] at hLast
  revert hLast
  decide

/-- A path is previewed by the name it is imported by, unless it does not end in
one. -/
theorem previewName_eq (v : Volume Hash) (path : GivenPath) :
    previewName path = stemOf v path.canonical ∨ previewName path = "item" := by
  rw [stemOf, Volume.input, InputPath.stem, previewName]
  rcases path.noLinks with hNone | hLast
  · rw [hNone]
    exact Or.inr rfl
  · rw [← hLast]
    left
    rcases path.fileName with _ | ⟨text | bytes, hName⟩
    · rfl
    · exact if_pos hName.1
    · rfl

omit Hash in
/-- The places are the canonical forms of what is given. -/
theorem mem_placesOf {given : List GivenPath} {place : Place} :
    place ∈ placesOf given ↔ ∃ path ∈ given, path.canonical = place := by
  rw [placesOf, (uniq_perm _).mem_iff, List.mem_dedup, List.mem_map]

omit Hash in
/-- There are as many places as distinct canonical forms. -/
theorem length_placesOf (given : List GivenPath) :
    (placesOf given).length = (given.map GivenPath.canonical).dedup.length :=
  (uniq_perm _).length_eq

omit Hash in
/-- Distinct paths keep all their places. -/
theorem placesOf_perm {given : List GivenPath} (hDistinct : (given.map GivenPath.canonical).Nodup) :
    (placesOf given).Perm (given.map GivenPath.canonical) := by
  have hPlaces := uniq_perm (given.map GivenPath.canonical)
  rwa [hDistinct.dedup] at hPlaces

/-- The inputs of the import. -/
def inputsOf (v : Volume Hash) (given : List GivenPath) : List (InputPath Hash) :=
  (placesOf given).map v.input

/-- Distinct paths give all their inputs. -/
theorem inputs_perm {v : Volume Hash} {given : List GivenPath}
    (hDistinct : (given.map GivenPath.canonical).Nodup) :
    (inputsOf v given).Perm (given.map fun path => v.input path.canonical) := by
  have hInputs := (placesOf_perm hDistinct).map v.input
  rwa [List.map_map] at hInputs

/-- When the paths as given are numbered like the canonical ones. -/
theorem numbered_perm_iff {v : Volume Hash} {given : List GivenPath}
    (hDistinct : (given.map GivenPath.canonical).Nodup)
    (hFree : NumbersFree (given.map fun path => stemOf v path.canonical)) :
    (numberFrom [] (givenSizes v given)).Perm
        (numberFrom [] (canonicalSizes v (placesOf given))) ↔
      NumbersFree (given.map previewName) ∧ ∀ name k size,
        (valuesOf name (givenSizes v given))[k]? = some size →
          (valuesOf name (canonicalSizes v (placesOf given)))[k]? = some size ∨
            (1 ≤ k ∧ (valuesOf (nthName name k)
              (canonicalSizes v (placesOf given)))[0]? = some size) := by
  have hPerm := placesOf_perm hDistinct
  generalize placesOf given = places at hPerm ⊢
  have hStems : (canonicalSizes v places).map Prod.fst = places.map (stemOf v) := by
    rw [canonicalSizes, List.map_map]
    rfl
  have hNames : (givenSizes v given).map Prod.fst = given.map previewName := by
    rw [givenSizes, List.map_map]
    rfl
  have hGiven := hPerm.map (stemOf v)
  rw [List.map_map] at hGiven
  have hCanonical : NumbersFree ((canonicalSizes v places).map Prod.fst) := by
    rw [hStems]
    exact (NumbersFree.congr hGiven).mpr hFree
  have hLength : (numberFrom [] (canonicalSizes v places)).length ≤
      (numberFrom [] (givenSizes v given)).length := by
    rw [length_numberFrom, length_numberFrom, canonicalSizes, givenSizes, List.length_map,
      List.length_map, hPerm.length_eq, List.length_map]
  rw [Listing.perm_iff_subset ((keys_numberFrom_nodup_iff _).mpr hCanonical) hLength,
    keys_numberFrom_nodup_iff, hNames, numberFrom_subset_iff hCanonical]
  intro name hMem
  obtain ⟨path, hPath, rfl⟩ := List.mem_map.mp (hNames ▸ hMem)
  rcases previewName_eq v path with hStem | hItem
  · left
    rw [hStem, hStems]
    exact List.mem_map_of_mem (hPerm.mem_iff.mpr (List.mem_map_of_mem hPath))
  · right
    rw [hItem]
    exact item_ne_numbered

/-- Every input holds a file when every given path does. -/
theorem full_iff {v : Volume Hash} {given : List GivenPath} :
    (∀ block ∈ topBlocks [] (inputsOf v given), block.2 ≠ []) ↔
      ∀ path ∈ given, (v.input path.canonical).sizes ≠ [] := by
  have hSizes : (topBlocks [] (inputsOf v given)).map Prod.snd =
      (placesOf given).map fun place => (v.input place).sizes := by
    rw [sizes_topBlocks, inputsOf, List.map_map]
    rfl
  constructor
  · intro hBlocks path hPath
    have hMem : (v.input path.canonical).sizes ∈
        (topBlocks [] (inputsOf v given)).map Prod.snd := by
      rw [hSizes]
      exact List.mem_map.mpr ⟨path.canonical, mem_placesOf.mpr ⟨path, hPath, rfl⟩, rfl⟩
    obtain ⟨block, hBlock, hSame⟩ := List.mem_map.mp hMem
    exact hSame ▸ hBlocks block hBlock
  · intro hPaths block hBlock
    have hMem := List.mem_map_of_mem (f := Prod.snd) hBlock
    rw [hSizes] at hMem
    obtain ⟨place, hPlace, hSame⟩ := List.mem_map.mp hMem
    obtain ⟨path, hPath, rfl⟩ := mem_placesOf.mp hPlace
    exact hSame ▸ hPaths path hPath

/-- Sizes that are shown whole were not cut off. -/
theorem fits_of_perm {v : Volume Hash} {given : List GivenPath}
    (hPerm : ((numberFrom [] (givenSizes v given)).map (Prod.map id cutOff)).Perm
      (numberFrom [] (canonicalSizes v (placesOf given)))) :
    ∀ path ∈ given, sizeOf v path.canonical < 2 ^ 64 := by
  intro path hPath
  have hThere : sizeOf v path.canonical ∈
      (numberFrom [] (canonicalSizes v (placesOf given))).map Prod.snd := by
    rw [values_numberFrom, canonicalSizes, List.map_map]
    exact List.mem_map.mpr ⟨path.canonical, mem_placesOf.mpr ⟨path, hPath, rfl⟩, rfl⟩
  obtain ⟨shown, hShown, hSize⟩ := List.mem_map.mp ((hPerm.map Prod.snd).mem_iff.mpr hThere)
  obtain ⟨entry, -, rfl⟩ := List.mem_map.mp hShown
  have hCut : cutOff entry.2 = sizeOf v path.canonical := hSize
  rw [← hCut, cutOff]
  omega

/-- Sizes that fit stay as they are. -/
theorem map_cutOff {v : Volume Hash} {given : List GivenPath}
    (hFits : ∀ path ∈ given, sizeOf v path.canonical < 2 ^ 64) :
    (numberFrom [] (givenSizes v given)).map (Prod.map id cutOff) =
      numberFrom [] (givenSizes v given) := by
  rw [← numberFrom_map, givenSizes, List.map_map]
  refine congrArg _ (List.map_congr_left fun path hPath => ?_)
  simp only [Function.comp_apply, Prod.map_apply, id_eq, cutOff_of_lt (hFits path hPath)]

/-- When the items of a preview are the top-level names of the import, with their
sizes. -/
theorem shown_perm_iff {v : Volume Hash} {given : List GivenPath} :
    ((numberFrom [] (givenSizes v given)).map (Prod.map id cutOff)).Perm
        (groupSums (spread (topBlocks [] (inputsOf v given)))) ↔
      ItemsApart v given := by
  have hDedup := (List.dedup_sublist (given.map GivenPath.canonical)).length_le
  rw [← length_placesOf, List.length_map] at hDedup
  have hShown : ((numberFrom [] (givenSizes v given)).map (Prod.map id cutOff)).length =
      given.length := by
    rw [List.length_map, length_numberFrom, givenSizes, List.length_map]
  have hLength : (topBlocks [] (inputsOf v given)).length ≤
      ((numberFrom [] (givenSizes v given)).map (Prod.map id cutOff)).length := by
    have hBlocks := congrArg List.length (sizes_topBlocks [] (inputsOf v given))
    rw [List.length_map, List.length_map, inputsOf, List.length_map] at hBlocks
    rw [hShown, inputsOf, hBlocks]
    exact hDedup
  have hNumbered (hSame : (inputsOf v given).Pairwise SameKind) :
      (topBlocks [] (inputsOf v given)).map (fun block => (block.1, block.2.sum)) =
        numberFrom [] (canonicalSizes v (placesOf given)) := by
    rw [@topBlocks_eq_numberFrom _ (inputsOf v given) [] hSame, inputsOf, List.map_map]
    rfl
  have hGiven (hDistinct : (given.map GivenPath.canonical).Nodup) :
      ((inputsOf v given).Pairwise SameKind ↔ given.Pairwise fun left right =>
        SameKind (v.input left.canonical) (v.input right.canonical)) ∧
      (NumbersFree ((inputsOf v given).map InputPath.stem) ↔
        NumbersFree (given.map fun path => stemOf v path.canonical)) := by
    have hInputs := @inputs_perm _ v given hDistinct
    refine ⟨?_, ?_⟩
    · rw [hInputs.pairwise_iff, List.pairwise_map]
      exact fun h => Std.Symm.symm _ _ h
    · have hStems := hInputs.map InputPath.stem
      rw [List.map_map] at hStems
      exact NumbersFree.congr hStems
  rw [Listing.perm_groupSums_spread_iff hLength, keys_topBlocks_nodup_iff, full_iff]
  constructor
  · rintro ⟨⟨hSame, hFree⟩, hFull, hPerm⟩
    rw [hNumbered hSame] at hPerm
    have hDistinct : (given.map GivenPath.canonical).Nodup := by
      have hSameLength := hPerm.length_eq
      rw [hShown, length_numberFrom, canonicalSizes, List.length_map, length_placesOf,
        ← List.length_map (f := GivenPath.canonical)] at hSameLength
      exact List.dedup_eq_self.mp ((List.dedup_sublist _).eq_of_length hSameLength.symm)
    have hFits := fits_of_perm hPerm
    rw [map_cutOff hFits] at hPerm
    have hStems := (hGiven hDistinct).2.mp hFree
    obtain ⟨hPreview, hOrder⟩ := (numbered_perm_iff hDistinct hStems).mp hPerm
    exact ⟨hDistinct, hFull, (hGiven hDistinct).1.mp hSame, hStems, hPreview, hFits, hOrder⟩
  · rintro ⟨hDistinct, hFull, hSame, hFree, hPreview, hFits, hOrder⟩
    have hInputs := (hGiven hDistinct).1.mpr hSame
    refine ⟨⟨hInputs, (hGiven hDistinct).2.mpr hFree⟩, hFull, ?_⟩
    rw [hNumbered hInputs, map_cutOff hFits]
    exact (numbered_perm_iff hDistinct hFree).mpr ⟨hPreview, hOrder⟩

/-- The sizes of a collection's files, by what each input holds. -/
theorem sum_sizes_entries {arrival : Arrival Hash} {paths : List (InputPath Hash)}
    {entries : List (String × Blob Hash)} (h : importEntries arrival paths = .ok entries) :
    (entries.map fun entry => entry.2.size.toNat).sum =
      (paths.map fun path => path.sizes.sum).sum := by
  have hSizes := ((importEntries_topBlocks h).1.map Prod.snd).sum_eq
  rw [List.map_map, Listing.values_spread, List.sum_flatten, sizes_topBlocks,
    List.map_map] at hSizes
  exact hSizes

omit Hash in
/-- The preview's size is the import's exactly if the sum fits. -/
theorem size_eq_total_iff {size total : UInt64} {sum : Nat} (hSize : size.toNat = cutOff sum)
    (hTotal : total.toNat = sum % 2 ^ 64) : size = total ↔ SumFits sum := by
  rw [← UInt64.toNat_inj, hSize, hTotal, cutOff, SumFits]
  omega

/-- The metadata that a share is prepared with. -/
theorem buildSendMetadata_eq_ok {host : Host} {v : Volume Hash} {given : List GivenPath}
    (hGiven : given ≠ [])
    (hLens : ∀ path ∈ given, ∃ len, getTotalSize v path = .ok len ∧
      len.toNat = cutOff (sizeOf v path.canonical)) :
    ∃ metadata, buildSendMetadata host v given = .ok metadata ∧
      metadata.size.toNat = cutOff (given.map fun path => sizeOf v path.canonical).sum ∧
      (1 < given.length → ∃ items, metadata.items = some items ∧ (items.map shownSize).Perm
        ((numberFrom [] (givenSizes v given)).map (Prod.map id cutOff))) := by
  obtain ⟨total, hTotal, hSum⟩ := sumSizes_eq_ok hLens
  cases given with
  | nil => exact absurd rfl hGiven
  | cons first rest =>
      cases rest with
      | nil =>
          rw [buildSendMetadata, hTotal]
          exact ⟨_, rfl, hSum, fun hMany => absurd hMany (by simp)⟩
      | cons second rest =>
          obtain ⟨items, hItems, hShown⟩ := @collectPreviewItems_eq_ok _ host v _ hLens
          rw [buildSendMetadata, hTotal]
          · dsimp only [bind, Except.bind]
            rw [hItems]
            exact ⟨_, rfl, hSum, fun _ => ⟨items, rfl, hShown⟩⟩
          · nofun

/-- The preview of a share describes what is received exactly when the conditions
hold. -/
theorem preview_describes_iff {host : Host} {v : Volume Hash} {given : List GivenPath}
    {places : List Place} {arrival : Arrival Hash} {total : UInt64}
    {collection : Collection Hash} {entries : List (String × Blob Hash)}
    (hWalkable : ∀ path ∈ given, Walkable v path)
    (hPlaces : canonicalizeInputPaths v given = .ok places)
    (hImport : importPaths arrival (places.map v.input) = .ok (total, collection))
    (hEntries : importEntries arrival (places.map v.input) = .ok entries) :
    ∃ metadata, buildSendMetadata host v given = .ok metadata ∧
      (Describes metadata given.length total entries ↔ PreviewAgrees v given) := by
  obtain ⟨rfl, hGiven⟩ := canonicalizeInputPaths_eq_ok hPlaces
  have hTotal : total = totalSize entries := by
    rw [importPaths_eq_collect, hEntries] at hImport
    cases hImport
    rfl
  obtain ⟨hTop, hImportable⟩ := importEntries_topBlocks hEntries
  have hLens : ∀ path ∈ given, ∃ len, getTotalSize v path = .ok len ∧
      len.toNat = cutOff (sizeOf v path.canonical) := fun path hPath =>
    getTotalSize_eq_ok (hWalkable path hPath) (hImportable _ (List.mem_map_of_mem
      (mem_placesOf.mpr ⟨path, hPath, rfl⟩)))
  obtain ⟨metadata, hBuilt, hSize, hItems⟩ := @buildSendMetadata_eq_ok _ host v given hGiven hLens
  refine ⟨metadata, hBuilt, ?_⟩
  have hSum (hDistinct : (given.map GivenPath.canonical).Nodup) :
      metadata.size = total ↔ SumFits (given.map fun path => sizeOf v path.canonical).sum := by
    refine size_eq_total_iff hSize ?_
    have hSame := (inputs_perm (v := v) hDistinct).map fun path => path.sizes.sum
    rw [List.map_map] at hSame
    rw [hTotal, totalSize_toNat, sum_sizes_entries hEntries]
    exact congrArg (· % 2 ^ 64) hSame.sum_eq
  have hShown (hMany : 1 < given.length) : (∃ items, metadata.items = some items ∧
      (items.map shownSize).Perm (topLevels entries)) ↔ ItemsApart v given := by
    obtain ⟨items, hSome, hPerm⟩ := hItems hMany
    have hGroups : (topLevels entries).Perm
        (groupSums (spread (topBlocks [] (inputsOf v given)))) := Listing.groupSums_perm hTop
    rw [← shown_perm_iff]
    constructor
    · rintro ⟨others, hOthers, hTopLevels⟩
      obtain rfl := Option.some.inj (hSome.symm.trans hOthers)
      exact hPerm.symm.trans (hTopLevels.trans hGroups)
    · intro hAll
      exact ⟨items, hSome, hPerm.trans (hAll.trans hGroups.symm)⟩
  rw [Describes, PreviewAgrees]
  by_cases hMany : 1 < given.length
  · rw [imp_iff_right hMany, imp_iff_right hMany, hShown hMany]
    constructor
    · rintro ⟨hEqual, hApart⟩
      exact ⟨(hSum hApart.distinct).mp hEqual, hApart⟩
    · rintro ⟨hFits, hApart⟩
      exact ⟨(hSum hApart.distinct).mpr hFits, hApart⟩
  · have hDistinct : (given.map GivenPath.canonical).Nodup := by
      obtain ⟨path, rfl⟩ := List.length_eq_one_iff.mp
        (Nat.le_antisymm (Nat.le_of_not_lt hMany) (List.length_pos_of_ne_nil hGiven))
      exact List.nodup_singleton _
    rw [hSum hDistinct]
    exact ⟨fun h => ⟨h.1, fun hLess => absurd hLess hMany⟩,
      fun h => ⟨h.1, fun hLess => absurd hLess hMany⟩⟩

end

section Shares

private def named (text : String) (h : OsName.IsFileName (.utf8 text)) : FileName := ⟨.utf8 text, h⟩

private theorem isFileName_notes : OsName.IsFileName (.utf8 "notes") := by decide
private theorem isFileName_a : OsName.IsFileName (.utf8 "a") := by decide

private def photos : FileName := named "photos" (by decide)
private def summer : FileName := named "summer" (by decide)
private def winter : FileName := named "winter" (by decide)
private def notes : FileName := named "notes" isFileName_notes

/-- Two folders of one name, in different places, and a file. -/
private def disk : Volume Nat :=
  ⟨.dir [(summer, .dir [(photos, .dir [(named "a" isFileName_a, .file (some ⟨1, 10⟩))])]),
    (winter, .dir [(photos, .dir [(named "b" (by decide), .file (some ⟨2, 20⟩))])]),
    (notes, .file (some ⟨3, 5⟩))], fun _ => none⟩

private def plainHost : Host := ⟨fun _ => none, fun _ => "text/plain", fun _ => ""⟩

private def asFound : Arrival Nat := .found

private def summerPhotos : GivenPath :=
  ⟨"/summer/photos", some photos, [summer, photos], Or.inr rfl⟩

private def winterPhotos : GivenPath :=
  ⟨"/winter/photos", some photos, [winter, photos], Or.inr rfl⟩

private def givenNotes : GivenPath := ⟨"/notes", some notes, [notes], Or.inr rfl⟩

/-- What is shown of a folder and a file. -/
private def shownNotes : List FilePreviewItem :=
  [⟨"notes", 5, none, some "text/plain"⟩, ⟨"photos", 10, none, some "inode/directory"⟩]

private def importedNotes : List (String × Blob Nat) := [("notes", ⟨3, 5⟩), ("photos/a", ⟨1, 10⟩)]

theorem preview_describes_iff_notes : ∃ metadata,
    buildSendMetadata plainHost disk [summerPhotos, givenNotes] = .ok metadata ∧
      Describes metadata 2 15 importedNotes ∧
      PreviewAgrees disk [summerPhotos, givenNotes] := by
  have hWalkable : ∀ path ∈ [summerPhotos, givenNotes], Walkable disk path := by decide
  have hPlaces : canonicalizeInputPaths disk [summerPhotos, givenNotes] =
      .ok [[notes], [summer, photos]] := by decide
  have hImport : importPaths asFound ([[notes], [summer, photos]].map disk.input) =
      .ok (15, [("notes", 3), ("photos/a", 1)]) := by decide
  have hEntries : importEntries asFound ([[notes], [summer, photos]].map disk.input) =
      .ok importedNotes := by decide
  obtain ⟨metadata, hBuilt, hIff⟩ :=
    @preview_describes_iff _ plainHost _ _ _ _ _ _ _ hWalkable hPlaces hImport hEntries
  have hShown : buildSendMetadata plainHost disk [summerPhotos, givenNotes] =
      .ok ⟨"photos", 2, 15, none, some "application/x-iroh-collection",
        some shownNotes⟩ := by decide
  obtain rfl := Except.ok.inj (hBuilt.symm.trans hShown)
  have hItems : (shownNotes.map shownSize).Perm (topLevels importedNotes) := by decide
  refine ⟨_, hBuilt, ?_, hIff.mp ?_⟩
  · exact ⟨rfl, fun _ => ⟨shownNotes, rfl, hItems⟩⟩
  · exact ⟨rfl, fun _ => ⟨shownNotes, rfl, hItems⟩⟩

/-- Two folders of one name are two items in the preview, and one is received. -/
theorem preview_splits_merged_folders :
    (∀ path ∈ [summerPhotos, winterPhotos], Walkable disk path) ∧
      canonicalizeInputPaths disk [summerPhotos, winterPhotos] =
        .ok [[summer, photos], [winter, photos]] ∧
      importPaths asFound ([[summer, photos], [winter, photos]].map disk.input) =
        .ok (30, [("photos/a", 1), ("photos/b", 2)]) ∧
      importEntries asFound ([[summer, photos], [winter, photos]].map disk.input) =
        .ok [("photos/a", ⟨1, 10⟩), ("photos/b", ⟨2, 20⟩)] ∧
      ∃ metadata, buildSendMetadata plainHost disk [summerPhotos, winterPhotos] = .ok metadata ∧
        metadata.items = some [⟨"photos", 10, none, some "inode/directory"⟩,
          ⟨"photos (2)", 20, none, some "inode/directory"⟩] ∧
        ¬Describes metadata 2 30 [("photos/a", (⟨1, 10⟩ : Blob Nat)), ("photos/b", ⟨2, 20⟩)] := by
  refine ⟨by decide, by decide, by decide, by decide,
    ⟨"photos", 2, 30, none, some "application/x-iroh-collection",
      some [⟨"photos", 10, none, some "inode/directory"⟩,
        ⟨"photos (2)", 20, none, some "inode/directory"⟩]⟩, by decide, rfl, ?_⟩
  rintro ⟨-, hItems⟩
  obtain ⟨items, hSome, hPerm⟩ := hItems (by decide)
  obtain rfl := Option.some.inj hSome
  revert hPerm
  decide

end Shares
end AltSendme.Desktop.Preview
