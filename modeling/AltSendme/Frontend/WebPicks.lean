import AltSendme.Frontend.WebFileStore
import AltSendme.Listing.Separated

/-! Picks and drops as the items that the user chose, and what the store knows of each
item after any number of them. The browser promises that the name of a file or folder
is not empty and has no `/`, and that names differ within a folder. -/
namespace AltSendme.Frontend

section Paths

def IsEntryName (name : String) : Prop := name ≠ "" ∧ '/' ∉ name.toList

instance (name : String) : Decidable (IsEntryName name) :=
  inferInstanceAs (Decidable (name ≠ "" ∧ '/' ∉ name.toList))

/-- `filePath` lives below the folder `path`. -/
def IsUnder (path filePath : String) : Prop := path.toList ++ ['/'] <+: filePath.toList

instance (path filePath : String) : Decidable (IsUnder path filePath) :=
  inferInstanceAs (Decidable (path.toList ++ ['/'] <+: filePath.toList))

/-- `filePath` is `path` or lives below it. -/
def Within (path filePath : String) : Prop := filePath = path ∨ IsUnder path filePath

/-- The code's prefix test is the relation of a folder to what lies in it. -/
theorem startsWith_iff {path filePath : String} :
    startsWith filePath (path ++ "/") = true ↔ IsUnder path filePath := by
  rw [startsWith, List.isPrefixOf_iff_prefix, String.toList_append]
  rfl

/-- A path within another continues it with a separator or not at all. -/
theorem within_iff {path filePath : String} : Within path filePath ↔
    ∃ rest, filePath.toList = path.toList ++ rest ∧ ∀ c ∈ rest.head?, c = '/' := by
  constructor
  · rintro (rfl | ⟨rest, hRest⟩)
    · exact ⟨[], by simp, by simp⟩
    · exact ⟨'/' :: rest, by rw [← hRest]; simp, by simp⟩
  · rintro ⟨rest, hRest, hHead⟩
    cases rest with
    | nil => exact Or.inl (String.toList_inj.mp (by simpa using hRest))
    | cons c rest =>
        obtain rfl := hHead c rfl
        exact Or.inr ⟨rest, by rw [hRest]; simp⟩

/-- A name is not below anything. -/
theorem IsEntryName.not_isUnder {name path : String} (h : IsEntryName name) :
    ¬IsUnder path name :=
  fun hUnder => h.2 (hUnder.subset (by simp))

/-- What lies in a folder is not an entry's name alone. -/
theorem IsUnder.ne {path filePath name : String} (h : IsUnder path filePath)
    (hName : IsEntryName name) : filePath ≠ name := by
  rintro rfl
  exact hName.not_isUnder h

/-- A path is below one folder of a given place at most. -/
theorem within_unique {base name name' filePath : String} (hName : IsEntryName name)
    (hName' : IsEntryName name') (h : Within (base ++ name) filePath)
    (h' : Within (base ++ name') filePath) : name = name' := by
  obtain ⟨rest, hRest, hHead⟩ := within_iff.mp h
  obtain ⟨rest', hRest', hHead'⟩ := within_iff.mp h'
  rw [hRest, String.toList_append, String.toList_append, List.append_assoc,
    List.append_assoc, List.append_cancel_left_eq] at hRest'
  exact String.toList_inj.mp
    (Separated.word_unique hName.2 hName'.2 hHead hHead' hRest')

/-- A path lies under one top-level name at most. -/
theorem isUnder_unique {name name' filePath : String} (hName : IsEntryName name)
    (hName' : IsEntryName name') (h : IsUnder name filePath) (h' : IsUnder name' filePath) :
    name = name' :=
  @within_unique "" name name' filePath hName hName' (Or.inr (by simpa using h))
    (Or.inr (by simpa using h'))

/-- What is within an entry of a folder lies under the folder. -/
theorem Within.isUnder {base name filePath : String}
    (h : Within (base ++ "/" ++ name) filePath) : IsUnder base filePath := by
  obtain ⟨rest, hRest, -⟩ := within_iff.mp h
  exact ⟨name.toList ++ rest, by rw [hRest]; simp⟩

end Paths

/-- A file of a file pick or a file dropped by itself. -/
def WebFile.IsPlain (file : WebFile) : Prop :=
  IsEntryName file.name ∧
    (file.webkitRelativePath = "" ∨ file.webkitRelativePath = file.name)

instance (file : WebFile) : Decidable file.IsPlain :=
  inferInstanceAs (Decidable (_ ∧ _))

/-- A file from the file picker is registered under its name. -/
theorem WebFile.IsPlain.key {file : WebFile} (h : file.IsPlain) :
    webFilePathKey file = file.name := by
  unfold webFilePathKey
  split
  · rfl
  · next hRelative => exact h.2.resolve_left hRelative

mutual

/-- Names as a file system has them. -/
def FileSystemEntry.Valid : FileSystemEntry → Prop
  | .file name _ => IsEntryName name
  | .directory name children =>
      IsEntryName name ∧ (children.map FileSystemEntry.name).Nodup ∧ ValidChildren children

def ValidChildren : List FileSystemEntry → Prop
  | [] => True
  | child :: children => child.Valid ∧ ValidChildren children

end

section Entries
open Keyed

theorem FileSystemEntry.Valid.isEntryName {entry : FileSystemEntry} (h : entry.Valid) :
    IsEntryName entry.name := by
  cases entry with
  | file name file =>
      rw [FileSystemEntry.Valid] at h
      exact h
  | directory name children =>
      rw [FileSystemEntry.Valid] at h
      exact h.1

theorem ValidChildren.valid {children : List FileSystemEntry} (h : ValidChildren children)
    {child : FileSystemEntry} (hChild : child ∈ children) : child.Valid := by
  induction children with
  | nil => exact absurd hChild List.not_mem_nil
  | cons first rest ih =>
      rw [ValidChildren] at h
      rcases List.mem_cons.mp hChild with rfl | hRest
      · exact h.1
      · exact ih h.2 hRest

theorem entryPath_eq {base : String} (hBase : base ≠ "") (name : String) :
    entryPath base name = base ++ "/" ++ name := if_neg hBase

/-- The file that lies in an entry at the end of a path of names. -/
inductive FileSystemEntry.Lies : FileSystemEntry → List String → WebFile → Prop where
  | self (name : String) (file : WebFile) : Lies (.file name file) [name] file
  | child {name : String} {children : List FileSystemEntry} {child : FileSystemEntry}
      {path : List String} {file : WebFile} (hChild : child ∈ children)
      (hLies : Lies child path file) : Lies (.directory name children) (name :: path) file

def pathFrom (base : String) (path : List String) : String :=
  path.foldl (fun base name => base ++ "/" ++ name) base

/-- The path of a file in an entry starts with the entry's name. -/
theorem FileSystemEntry.Lies.head {entry : FileSystemEntry} {path : List String} {file : WebFile}
    (h : entry.Lies path file) : ∃ rest, path = entry.name :: rest := by
  cases h with
  | self => exact ⟨[], rfl⟩
  | child hChild hLies => exact ⟨_, rfl⟩

/-- A joined path stays within its base. -/
theorem within_pathFrom (base : String) (path : List String) : Within base (pathFrom base path) := by
  rw [within_iff]
  induction path generalizing base with
  | nil => exact ⟨[], by simp [pathFrom], by simp⟩
  | cons name rest ih =>
      obtain ⟨tail, hTail, -⟩ := ih (base ++ "/" ++ name)
      refine ⟨'/' :: (name.toList ++ tail), ?_, by simp⟩
      show (pathFrom (base ++ "/" ++ name) rest).toList = _
      rw [hTail]
      simp

mutual

/-- What is read from an entry are the files that lie in it, under their paths. -/
theorem mem_readEntryRecursively (entry : FileSystemEntry) {base : String} (hBase : base ≠ "")
    {k : String} {file : WebFile} : (k, file) ∈ readEntryRecursively entry base ↔
      ∃ path, entry.Lies path file ∧ k = pathFrom base path := by
  cases entry with
  | file name contents =>
      rw [readEntryRecursively, List.mem_singleton, entryPath_eq hBase, Prod.mk.injEq]
      constructor
      · rintro ⟨rfl, rfl⟩
        exact ⟨[name], .self name file, rfl⟩
      · rintro ⟨path, hLies, rfl⟩
        cases hLies with
        | self => exact ⟨rfl, rfl⟩
  | directory name children =>
      rw [readEntryRecursively, entryPath_eq hBase, mem_readEntries children (by simp)]
      constructor
      · rintro ⟨child, hChild, path, hLies, rfl⟩
        exact ⟨name :: path, .child hChild hLies, rfl⟩
      · rintro ⟨path, hLies, rfl⟩
        cases hLies with
        | child hChild hLies => exact ⟨_, hChild, _, hLies, rfl⟩

/-- Reading a directory finds exactly the files that lie in it, each under its path. -/
theorem mem_readEntries (children : List FileSystemEntry) {base : String} (hBase : base ≠ "")
    {k : String} {file : WebFile} : (k, file) ∈ readEntries children base ↔
      ∃ child ∈ children, ∃ path, child.Lies path file ∧ k = pathFrom base path := by
  cases children with
  | nil => simp [readEntries]
  | cons child rest =>
      rw [readEntries, List.mem_append, mem_readEntryRecursively child hBase,
        mem_readEntries rest hBase]
      simp only [List.exists_mem_cons_iff]

end

/-- A file in an entry is that entry or below it. -/
theorem within_of_lies {entry : FileSystemEntry} {path : List String} {file : WebFile}
    (h : entry.Lies path file) (base : String) :
    Within (base ++ "/" ++ entry.name) (pathFrom base path) := by
  obtain ⟨rest, rfl⟩ := h.head
  exact within_pathFrom _ rest

mutual

/-- No path is read twice. -/
theorem nodup_readEntryRecursively (entry : FileSystemEntry) (hValid : entry.Valid)
    {base : String} (hBase : base ≠ "") : (keys (readEntryRecursively entry base)).Nodup := by
  cases entry with
  | file name file =>
      rw [readEntryRecursively]
      exact List.nodup_singleton _
  | directory name children =>
      rw [FileSystemEntry.Valid] at hValid
      rw [readEntryRecursively, entryPath_eq hBase]
      exact nodup_readEntries children hValid.2.1 hValid.2.2 (by simp)

/-- In a valid directory no two files are read under one key. -/
theorem nodup_readEntries (children : List FileSystemEntry)
    (hNames : (children.map FileSystemEntry.name).Nodup) (hValid : ValidChildren children)
    {base : String} (hBase : base ≠ "") : (keys (readEntries children base)).Nodup := by
  cases children with
  | nil => exact List.nodup_nil
  | cons child rest =>
      rw [ValidChildren] at hValid
      obtain ⟨hFresh, hRest⟩ := List.nodup_cons.mp hNames
      rw [readEntries, keys, List.map_append]
      refine List.Nodup.append (nodup_readEntryRecursively child hValid.1 hBase)
        (nodup_readEntries rest hRest hValid.2 hBase) fun k hk hk' => ?_
      obtain ⟨v, hv⟩ := mem_keys.mp hk
      obtain ⟨v', hv'⟩ := mem_keys.mp hk'
      obtain ⟨path, hLies, rfl⟩ := (mem_readEntryRecursively child hBase).mp hv
      obtain ⟨other, hOther, path', hLies', hSame⟩ := (mem_readEntries rest hBase).mp hv'
      have hWithin' := within_of_lies hLies' base
      rw [← hSame] at hWithin'
      have hName := within_unique hValid.1.isEntryName (hValid.2.valid hOther).isEntryName
        (within_of_lies hLies base) hWithin'
      exact hFresh (List.mem_map.mpr ⟨other, hOther, hName.symm⟩)

end

end Entries

/-- One item of a pick or a drop, for the specification: a file, or a folder with
its files under the paths they have from it on. -/
inductive PickedItem where
  | file (path : String) (file : WebFile)
  | folder (path : String) (entries : List (String × WebFile))
  deriving DecidableEq, Repr

namespace PickedItem
open Keyed

def path : PickedItem → String
  | .file path _ => path
  | .folder path _ => path

def entries : PickedItem → List (String × WebFile)
  | .file path contents => [(path, contents)]
  | .folder _ entries => entries

/-- A folder has every known file that is below its path. -/
def Covers : PickedItem → List String → Prop
  | .file _ _, _ => True
  | .folder path entries, known => ∀ k ∈ known, IsUnder path k → k ∈ keys entries

instance decidableCovers : ∀ (item : PickedItem) known, Decidable (item.Covers known)
  | .file _ _, _ => .isTrue trivial
  | .folder path entries, known =>
      inferInstanceAs (Decidable (∀ k ∈ known, IsUnder path k → k ∈ keys entries))

/-- What the browser promises about the names. -/
def Valid : PickedItem → Prop
  | .file path _ => IsEntryName path
  | .folder path entries =>
      IsEntryName path ∧ (∀ e ∈ entries, IsUnder path e.1) ∧ (keys entries).Nodup

theorem Valid.isEntryName {item : PickedItem} (h : item.Valid) : IsEntryName item.path := by
  cases item with
  | file path contents => exact h
  | folder path entries => exact h.1

theorem Valid.nodup {item : PickedItem} (h : item.Valid) : (keys item.entries).Nodup := by
  cases item with
  | file path contents => exact List.nodup_singleton path
  | folder path entries => exact h.2.2

/-- Every file of a picked folder lies under the folder's path. -/
theorem Valid.isUnder {path : String} {entries : List (String × WebFile)}
    (h : (folder path entries).Valid) {k : String} (hk : k ∈ keys entries) : IsUnder path k := by
  obtain ⟨v, hv⟩ := mem_keys.mp hk
  exact h.2.1 (k, v) hv

end PickedItem

namespace WebFileStore
open Keyed

/-- The files of a folder replace nothing outside it. -/
def register (s : WebFileStore) : PickedItem → WebFileStore
  | .file path file => s.registerWebFile path file
  | .folder path entries =>
      entries.foldl (fun s e => s.registerWebFile e.1 e.2) (s.registerWebDirectory path)

theorem register_folder (s : WebFileStore) (path : String) (entries : List (String × WebFile)) :
    s.register (.folder path entries) =
      entries.foldl (fun s e => s.registerWebFile e.1 e.2) (s.registerWebDirectory path) := rfl

def registerAll (s : WebFileStore) (items : List PickedItem) : WebFileStore :=
  items.foldl register s

/-- A path is a file or a folder, and each file is listed once. -/
structure Shaped (s : WebFileStore) : Prop where
  nodup : (keys s.filesByPath).Nodup
  apart : ∀ path ∈ s.directoryPaths, path ∉ keys s.filesByPath

/-- The store says about an item what its pick or drop said. -/
def Matches (s : WebFileStore) : PickedItem → Prop
  | .file path file => path ∉ s.directoryPaths ∧ (path, file) ∈ s.filesByPath
  | .folder path entries =>
      path ∈ s.directoryPaths ∧
        ∀ k v, IsUnder path k → ((k, v) ∈ s.filesByPath ↔ (k, v) ∈ entries)

section Register
variable {s : WebFileStore}

/-- Registering files one by one sets them all and takes their keys off the directories. -/
theorem foldl_registerWebFile (entries : List (String × WebFile)) :
    entries.foldl (fun s e => s.registerWebFile e.1 e.2) s =
      ⟨setAll s.filesByPath entries, s.directoryPaths \ (keys entries).toFinset⟩ := by
  induction entries generalizing s with
  | nil => simp [setAll, keys]
  | cons e rest ih =>
      rw [List.foldl_cons, ih]
      simp only [registerWebFile, setAll, List.foldl_cons, keys, List.map_cons,
        List.toFinset_cons, mk.injEq, true_and]
      ext d
      simp only [Finset.mem_sdiff, Finset.mem_erase, Finset.mem_insert]
      tauto

/-- The folder may as well be registered after its files, as a pick does. -/
theorem register_folder_eq {path : String} {entries : List (String × WebFile)}
    (hPath : path ∉ keys entries) : s.register (.folder path entries) =
      (entries.foldl (fun s e => s.registerWebFile e.1 e.2) s).registerWebDirectory path := by
  induction entries generalizing s with
  | nil => rfl
  | cons e rest ih =>
      have hHead : e.1 ≠ path := fun hSame => hPath (hSame ▸ List.mem_cons_self)
      have hRest : path ∉ keys rest := fun hMem => hPath (List.mem_cons_of_mem e.1 hMem)
      rw [register_folder, List.foldl_cons, List.foldl_cons, ← ih hRest, register_folder]
      congr 1
      simp only [registerWebFile, registerWebDirectory, erase_set_of_ne hHead, mk.injEq, true_and]
      exact Finset.erase_insert_of_ne hHead.symm

/-- Registering a file replaces what was registered under its path and nothing else. -/
theorem mem_files_register_file {path k : String} {file v : WebFile} :
    (k, v) ∈ (s.register (.file path file)).filesByPath ↔
      k = path ∧ v = file ∨ k ≠ path ∧ (k, v) ∈ s.filesByPath := mem_set

/-- Registering a file takes its path off the directories. -/
theorem mem_directories_register_file {path d : String} {file : WebFile} :
    d ∈ (s.register (.file path file)).directoryPaths ↔ d ≠ path ∧ d ∈ s.directoryPaths :=
  Finset.mem_erase

/-- Registering a folder sets its files, drops a file of its own path and keeps the others.
-/
theorem mem_files_register_folder {path k : String} {entries : List (String × WebFile)}
    {v : WebFile} (hNodup : (keys entries).Nodup) :
    (k, v) ∈ (s.register (.folder path entries)).filesByPath ↔
      (k, v) ∈ entries ∨ k ∉ keys entries ∧ k ≠ path ∧ (k, v) ∈ s.filesByPath := by
  rw [register, foldl_registerWebFile]
  show (k, v) ∈ setAll (erase s.filesByPath path) entries ↔ _
  rw [mem_setAll hNodup, mem_erase]

/-- Registering a folder adds its path, unless a file is registered under it. -/
theorem mem_directories_register_folder {path d : String} {entries : List (String × WebFile)} :
    d ∈ (s.register (.folder path entries)).directoryPaths ↔
      (d = path ∨ d ∈ s.directoryPaths) ∧ d ∉ keys entries := by
  rw [register, foldl_registerWebFile]
  show d ∈ insert path s.directoryPaths \ _ ↔ _
  rw [Finset.mem_sdiff, Finset.mem_insert, List.mem_toFinset]

/-- Registering a file keeps the store in shape. -/
theorem Shaped.registerWebFile (h : s.Shaped) (path : String) (file : WebFile) :
    (s.registerWebFile path file).Shaped where
  nodup := nodup_set h.nodup
  apart d hd hMem := by
    obtain ⟨hOther, hOld⟩ := Finset.mem_erase.mp hd
    obtain ⟨v, hv⟩ := mem_keys.mp hMem
    rcases mem_set.mp hv with ⟨hSame, -⟩ | ⟨-, hThere⟩
    · exact hOther hSame
    · exact h.apart d hOld (mem_keys.mpr ⟨v, hThere⟩)

/-- Registering a directory keeps the store in shape. -/
theorem Shaped.registerWebDirectory (h : s.Shaped) (path : String) :
    (s.registerWebDirectory path).Shaped where
  nodup := nodup_erase h.nodup
  apart d hd hMem := by
    obtain ⟨v, hv⟩ := mem_keys.mp hMem
    obtain ⟨hOther, hThere⟩ := mem_erase.mp hv
    rcases Finset.mem_insert.mp hd with hSame | hOld
    · exact hOther hSame
    · exact h.apart d hOld (mem_keys.mpr ⟨v, hThere⟩)

/-- Registering an item keeps the store in shape. -/
theorem Shaped.register (h : s.Shaped) (item : PickedItem) : (s.register item).Shaped := by
  cases item with
  | file path file => exact h.registerWebFile path file
  | folder path entries =>
      rw [register_folder]
      have hStart := h.registerWebDirectory path
      generalize s.registerWebDirectory path = s' at hStart ⊢
      induction entries generalizing s' with
      | nil => exact hStart
      | cons e rest ih => exact ih (s'.registerWebFile e.1 e.2) (hStart.registerWebFile e.1 e.2)

/-- Registering one item says nothing about the others. -/
theorem matches_register_of_ne {item other : PickedItem} (hItem : item.Valid)
    (hOther : other.Valid) (hNe : other.path ≠ item.path) :
    (s.register item).Matches other ↔ s.Matches other := by
  cases item with
  | file path file =>
      cases other with
      | file path' file' =>
          have hNe : path' ≠ path := hNe
          simp only [Matches, mem_directories_register_file, mem_files_register_file]
          simp [hNe]
      | folder path' entries' =>
          have hNe : path' ≠ path := hNe
          simp only [Matches, mem_directories_register_file, mem_files_register_file]
          have hKeys : ∀ k, IsUnder path' k → k ≠ path := fun k hk => hk.ne hItem
          simp only [hNe, ne_eq, not_false_eq_true, true_and]
          refine and_congr_right fun _ => forall_congr' fun k => forall_congr' fun v => ?_
          refine imp_congr_right fun hUnder => ?_
          simp [hKeys k hUnder]
  | folder path entries =>
      have hName : IsEntryName path := hItem.isEntryName
      have hNodup : (keys entries).Nodup := hItem.nodup
      cases other with
      | file path' file' =>
          have hNe : path' ≠ path := hNe
          have hFree : path' ∉ keys entries := fun hMem =>
            hOther.isEntryName.not_isUnder (hItem.isUnder hMem)
          have hNone : (path', file') ∉ entries := fun hMem => hFree (mem_keys.mpr ⟨_, hMem⟩)
          simp only [Matches, mem_directories_register_folder, mem_files_register_folder hNodup]
          simp [hNe, hFree, hNone]
      | folder path' entries' =>
          have hNe : path' ≠ path := hNe
          have hFree : path' ∉ keys entries := fun hMem =>
            hOther.isEntryName.not_isUnder (hItem.isUnder hMem)
          simp only [Matches, mem_directories_register_folder, mem_files_register_folder hNodup]
          simp only [hNe, false_or, hFree, not_false_eq_true, and_true]
          refine and_congr_right fun _ => forall_congr' fun k => forall_congr' fun v => ?_
          refine imp_congr_right fun hUnder => ?_
          have hKey : k ∉ keys entries := fun hMem =>
            hNe (isUnder_unique hOther.isEntryName hName hUnder (hItem.isUnder hMem))
          have hNone : (k, v) ∉ entries := fun hMem => hKey (mem_keys.mpr ⟨v, hMem⟩)
          simp [hKey, hNone, hUnder.ne hName]

/-- After its registration the store says about an item what its pick said, unless it
knew other files below the folder. -/
theorem matches_register_self {item : PickedItem} (hItem : item.Valid) :
    (s.register item).Matches item ↔ item.Covers (keys s.filesByPath) := by
  cases item with
  | file path file =>
      simp only [Matches, mem_directories_register_file, mem_files_register_file]
      simp [PickedItem.Covers]
  | folder path entries =>
      have hName : IsEntryName path := hItem.isEntryName
      have hNodup : (keys entries).Nodup := hItem.nodup
      have hFree : path ∉ keys entries := fun hMem => hName.not_isUnder (hItem.isUnder hMem)
      simp only [Matches, mem_directories_register_folder, mem_files_register_folder hNodup]
      simp only [true_or, hFree, not_false_eq_true, and_self, true_and]
      constructor
      · intro hSame k hk hUnder
        obtain ⟨v, hv⟩ := mem_keys.mp hk
        by_contra hNew
        have hMem := (hSame k v hUnder).mp (Or.inr ⟨hNew, hUnder.ne hName, hv⟩)
        exact hNew (mem_keys.mpr ⟨v, hMem⟩)
      · intro hKnown k v hUnder
        refine ⟨?_, Or.inl⟩
        rintro (hMem | ⟨hNew, -, hv⟩)
        · exact hMem
        · exact absurd (hKnown k (mem_keys.mpr ⟨v, hv⟩) hUnder) hNew

/-- The files known below a folder afterwards are those before and the item's. -/
theorem mem_keys_register {item : PickedItem} (hItem : item.Valid) {path k : String}
    (hUnder : IsUnder path k) :
    k ∈ keys (s.register item).filesByPath ↔ k ∈ keys s.filesByPath ++ keys item.entries := by
  have hNe : k ≠ item.path := hUnder.ne hItem.isEntryName
  have hNodup := hItem.nodup
  rw [List.mem_append]
  cases item with
  | file path' file =>
      have hNe : k ≠ path' := hNe
      simp only [mem_keys, mem_files_register_file, PickedItem.entries]
      simp [hNe]
  | folder path' entries =>
      have hNe : k ≠ path' := hNe
      have hNodup : (keys entries).Nodup := hNodup
      simp only [mem_keys, mem_files_register_folder hNodup, PickedItem.entries]
      constructor
      · rintro ⟨v, hMem | ⟨-, -, hMem⟩⟩
        · exact Or.inr ⟨v, hMem⟩
        · exact Or.inl ⟨v, hMem⟩
      · rintro (⟨v, hMem⟩ | ⟨v, hMem⟩)
        · by_cases hNew : ∃ w, (k, w) ∈ entries
          · obtain ⟨w, hw⟩ := hNew
            exact ⟨w, Or.inl hw⟩
          · exact ⟨v, Or.inr ⟨hNew, hNe, hMem⟩⟩
        · exact ⟨v, Or.inl hMem⟩

/-- What an item's pick said is in the store, perhaps with other files below it. -/
def Holds (s : WebFileStore) (item : PickedItem) : Prop :=
  ∃ full : PickedItem, full.Valid ∧ full.path = item.path ∧ s.Matches full ∧
    item.entries ⊆ full.entries

/-- A valid item is held right after its registration. -/
theorem holds_register_self (hShaped : s.Shaped) {item : PickedItem} (hItem : item.Valid) :
    (s.register item).Holds item := by
  cases item with
  | file path file =>
      exact ⟨_, hItem, rfl, (matches_register_self hItem).mpr trivial, List.Subset.refl _⟩
  | folder path entries =>
      have hName : IsEntryName path := hItem.isEntryName
      have hNodup : (keys entries).Nodup := hItem.nodup
      have hFree : path ∉ keys entries := fun hMem => hName.not_isUnder (hItem.isUnder hMem)
      have hAfter := hShaped.register (.folder path entries)
      refine ⟨.folder path ((s.register (.folder path entries)).filesByPath.filter
        fun e => IsUnder path e.1), ⟨hName, ?_, ?_⟩, rfl, ⟨?_, ?_⟩, ?_⟩
      · intro e he
        simpa using (List.mem_filter.mp he).2
      · exact nodup_filter hAfter.nodup _
      · exact mem_directories_register_folder.mpr ⟨Or.inl rfl, hFree⟩
      · intro k v hUnder
        simp [List.mem_filter, hUnder]
      · rintro ⟨k, v⟩ hMem
        have hMem : (k, v) ∈ entries := hMem
        have hThere : (k, v) ∈ (s.register (.folder path entries)).filesByPath :=
          (mem_files_register_folder hNodup).mpr (Or.inl hMem)
        exact List.mem_filter.mpr ⟨hThere, by simpa using hItem.2.1 (k, v) hMem⟩

end Register

end WebFileStore

section Latest
open Keyed WebFileStore

/-- The most recent pick or drop of a path. -/
def latest (picked : List PickedItem) (path : String) : Option PickedItem :=
  picked.reverse.find? fun item => item.path = path

/-- The later half of the picks decides, where it picks the path at all. -/
theorem latest_append (first second : List PickedItem) (path : String) :
    latest (first ++ second) path = (latest second path).or (latest first path) := by
  rw [latest, List.reverse_append, List.find?_append]
  rfl

theorem latest_cons (item : PickedItem) (rest : List PickedItem) (path : String) :
    latest (item :: rest) path =
      (latest rest path).or (if item.path = path then some item else none) := by
  rw [← List.singleton_append, latest_append]
  by_cases hPath : item.path = path
  · simp [latest, hPath]
  · simp [latest, hPath]

theorem latest_path {picked : List PickedItem} {path : String} {item : PickedItem}
    (h : latest picked path = some item) : item.path = path := by
  simpa using List.find?_some h

theorem latest_mem {picked : List PickedItem} {path : String} {item : PickedItem}
    (h : latest picked path = some item) : item ∈ picked :=
  List.mem_reverse.mp (List.mem_of_find?_eq_some h)

/-- A path has no latest pick exactly if it was never picked. -/
theorem latest_eq_none_iff {picked : List PickedItem} {path : String} :
    latest picked path = none ↔ path ∉ picked.map PickedItem.path := by
  simp [latest]

/-- Each folder covers the files known below it, or the same path comes again. -/
def NothingStale : List String → List PickedItem → Prop
  | _, [] => True
  | known, item :: rest =>
      (item.path ∈ rest.map PickedItem.path ∨ item.Covers known) ∧
        NothingStale (known ++ keys item.entries) rest

instance decidableNothingStale : ∀ known items, Decidable (NothingStale known items)
  | _, [] => .isTrue trivial
  | known, item :: rest =>
      haveI := decidableNothingStale (known ++ keys item.entries) rest
      inferInstanceAs (Decidable ((item.path ∈ rest.map PickedItem.path ∨ item.Covers known) ∧
        NothingStale (known ++ keys item.entries) rest))

/-- Only what is known below a folder matters. -/
theorem nothingStale_congr {known known' : List String} {items : List PickedItem}
    (h : ∀ path k, IsUnder path k → (k ∈ known ↔ k ∈ known')) :
    NothingStale known items ↔ NothingStale known' items := by
  induction items generalizing known known' with
  | nil => exact Iff.rfl
  | cons item rest ih =>
      have hRest : ∀ path k, IsUnder path k →
          (k ∈ known ++ keys item.entries ↔ k ∈ known' ++ keys item.entries) := by
        intro path k hUnder
        rw [List.mem_append, List.mem_append, h path k hUnder]
      refine and_congr (or_congr_right ?_) (ih hRest)
      cases item with
      | file path file => exact Iff.rfl
      | folder path entries =>
          refine forall_congr' fun k => ?_
          constructor
          · exact fun hCovers hk hUnder => hCovers ((h path k hUnder).mpr hk) hUnder
          · exact fun hCovers hk hUnder => hCovers ((h path k hUnder).mp hk) hUnder

variable {s : WebFileStore} {items : List PickedItem}

/-- Registering any items keeps the store in shape. -/
theorem WebFileStore.Shaped.registerAll (h : s.Shaped) (items : List PickedItem) :
    (s.registerAll items).Shaped := by
  induction items generalizing s with
  | nil => exact h
  | cons item rest ih => exact ih (h.register item)

/-- Items of other paths do not change what a path collects. -/
theorem matches_registerAll_of_notMem (hItems : ∀ item ∈ items, item.Valid) {other : PickedItem}
    (hOther : other.Valid) (hNew : other.path ∉ items.map PickedItem.path) :
    (s.registerAll items).Matches other ↔ s.Matches other := by
  induction items generalizing s with
  | nil => exact Iff.rfl
  | cons item rest ih =>
      rw [List.map_cons, List.mem_cons, not_or] at hNew
      have hRest := fun i hi => hItems i (List.mem_cons_of_mem item hi)
      exact (ih hRest hNew.2).trans
        (matches_register_of_ne (hItems item List.mem_cons_self) hOther hNew.1)

/-- The store says of every path what its last item said, just when nothing is stale. -/
theorem nothingStale_iff_matches (hItems : ∀ item ∈ items, item.Valid) :
    NothingStale (keys s.filesByPath) items ↔
      ∀ path item, latest items path = some item → (s.registerAll items).Matches item := by
  induction items generalizing s with
  | nil => exact ⟨fun _ _ _ hNone => (nomatch hNone), fun _ => trivial⟩
  | cons item rest ih =>
      have hItem := hItems item List.mem_cons_self
      have hRest := fun i hi => hItems i (List.mem_cons_of_mem item hi)
      have hKnown : NothingStale (keys s.filesByPath ++ keys item.entries) rest ↔
          NothingStale (keys (s.register item).filesByPath) rest :=
        nothingStale_congr fun _ _ hUnder => (mem_keys_register hItem hUnder).symm
      have hSelf : item.path ∉ rest.map PickedItem.path →
          (((s.register item).registerAll rest).Matches item ↔
            item.Covers (keys s.filesByPath)) := fun hLast =>
        (matches_registerAll_of_notMem hRest hItem hLast).trans (matches_register_self hItem)
      show _ ∧ _ ↔ ∀ path i, latest (item :: rest) path = some i →
        ((s.register item).registerAll rest).Matches i
      rw [hKnown, ih hRest]
      constructor
      · rintro ⟨hHead, hTail⟩ path i hi
        rw [latest_cons] at hi
        cases hLast : latest rest path with
        | some j =>
            rw [hLast, Option.some_or] at hi
            exact hTail path i (hLast.trans hi)
        | none =>
            rw [hLast, Option.none_or] at hi
            split at hi
            · next hPath =>
                obtain rfl := Option.some.inj hi
                have hNew := latest_eq_none_iff.mp hLast
                rw [← hPath] at hNew
                exact (hSelf hNew).mpr (hHead.resolve_left hNew)
            · cases hi
      · intro hAll
        refine ⟨or_iff_not_imp_left.mpr fun hNew => ?_, fun path i hi => ?_⟩
        · refine (hSelf hNew).mp (hAll item.path item ?_)
          rw [latest_cons, latest_eq_none_iff.mpr hNew, Option.none_or, if_pos rfl]
        · refine hAll path i ?_
          rw [latest_cons, hi, Option.some_or]

/-- After any registrations a path holds the item picked under it last. -/
theorem holds_registerAll (hShaped : s.Shaped) (hItems : ∀ item ∈ items, item.Valid)
    {path : String} {item : PickedItem} (hLast : latest items path = some item) :
    (s.registerAll items).Holds item := by
  induction items generalizing s with
  | nil => cases hLast
  | cons first rest ih =>
      have hFirst := hItems first List.mem_cons_self
      have hRest := fun i hi => hItems i (List.mem_cons_of_mem first hi)
      rw [latest_cons] at hLast
      cases hLater : latest rest path with
      | some j =>
          rw [hLater, Option.some_or] at hLast
          exact ih (hShaped.register first) hRest (hLater.trans hLast)
      | none =>
          rw [hLater, Option.none_or] at hLast
          split at hLast
          · next hPath =>
              obtain rfl := Option.some.inj hLast
              obtain ⟨full, hFull, hSame, hMatches, hSubset⟩ := holds_register_self hShaped hFirst
              refine ⟨full, hFull, hSame, ?_, hSubset⟩
              have hNew := latest_eq_none_iff.mp hLater
              rw [← hPath, ← hSame] at hNew
              exact (matches_registerAll_of_notMem hRest hFull hNew).mpr hMatches
          · cases hLast

end Latest
end AltSendme.Frontend
