import AltSendme.Execution.Run
import AltSendme.Frontend.Sender
import AltSendme.Frontend.WebPicks

/-! The selection of the browser build over any sequence of picks, drops and steps of
the sender's view, and what a send collects for it. Picks and drops are taken one after
another; reading what the user dropped succeeds. -/
namespace AltSendme.Frontend
open Execution

section Inputs

/-- What the file dialog reports. -/
structure FilePick where
  files : List WebFile
  plain : ∀ file ∈ files, file.IsPlain

/-- What the folder dialog reports: the files of one folder, by their paths from it on. -/
structure FolderPick where
  root : String
  files : List WebFile
  isEntryName : IsEntryName root
  below : ∀ file ∈ files, IsUnder root file.webkitRelativePath
  nodup : (files.map WebFile.webkitRelativePath).Nodup

def DataTransferItem.Valid : DataTransferItem → Prop
  | .other => True
  | .file none asFile => ∀ dropped ∈ asFile, dropped.IsPlain
  | .file (some (.directory name children)) _ => (FileSystemEntry.directory name children).Valid
  | .file (some (.file _ dropped)) _ => dropped.IsPlain

/-- What a drop carries. -/
structure DroppedData where
  dataTransfer : DataTransfer
  items : ∀ item ∈ dataTransfer.items, item.Valid
  plain : ∀ file ∈ dataTransfer.files, file.IsPlain

def pickedFile (file : WebFile) : PickedItem := .file file.name file

def FilePick.picked (pick : FilePick) : List PickedItem := pick.files.map pickedFile

/-- A folder without files is not reported. -/
def FolderPick.picked (pick : FolderPick) : List PickedItem :=
  if pick.files.isEmpty then []
  else [.folder pick.root (pick.files.map fun file => (file.webkitRelativePath, file))]

def DataTransferItem.picked : DataTransferItem → Option PickedItem
  | .other => none
  | .file none asFile => asFile.map pickedFile
  | .file (some (.directory name children)) _ =>
      some (.folder name (readEntryRecursively (.directory name children) ""))
  | .file (some (.file _ dropped)) _ => some (pickedFile dropped)

def DroppedData.picked (data : DroppedData) : List PickedItem :=
  match data.dataTransfer.items with
  | [] => data.dataTransfer.files.map pickedFile
  | items => items.filterMap DataTransferItem.picked

end Inputs

/-- `picked` is every item picked or dropped so far and is read by the specification alone. -/
structure WebSelection where
  files : WebFileStore
  sender : SenderState
  picked : List PickedItem

inductive WebSelectStep where
  | browseFile (pick : FilePick)
  | browseFolder (pick : FolderPick)
  | drop (data : DroppedData)
  | view (step : SenderStep)

def WebSelectStep.picked : WebSelectStep → List PickedItem
  | .browseFile pick => pick.picked
  | .browseFolder pick => pick.picked
  | .drop data => data.picked
  | .view _ => []

namespace WebSelection

def start : WebSelection := ⟨.empty, .initial, []⟩

def selectedPaths (s : WebSelection) : List String := s.sender.store.selectedPaths

/-- `browseFile` of `useDragDrop.ts`. -/
def browseFile (s : WebSelection) (pick : FilePick) : WebSelection :=
  let (files, selected) := pickPathsInBrowser s.files false true pick.files
  { files := files
    sender := match selected with
      | none => s.sender
      | some paths => s.sender.filesSelect paths (some .file)
    picked := s.picked ++ pick.picked }

/-- `browseFolder`: the dialog answers with one path. -/
def browseFolder (s : WebSelection) (pick : FolderPick) : WebSelection :=
  let (files, selected) := pickPathsInBrowser s.files true false pick.files
  { files := files
    sender := match selected with
      | some (path :: _) => s.sender.filesSelect [path] (some .directory)
      | _ => s.sender
    picked := s.picked ++ pick.picked }

/-- `handleWebDrop` -/
def drop (s : WebSelection) (data : DroppedData) : WebSelection :=
  let (files, result) := processWebDataTransfer s.files data.dataTransfer
  { files := files
    sender := s.sender.filesSelect result.paths result.pathType
    picked := s.picked ++ data.picked }

/-- Paths come into the selection by picks and drops alone. -/
def next (s : WebSelection) : WebSelectStep → Option WebSelection
  | .browseFile pick => some (s.browseFile pick)
  | .browseFolder pick => some (s.browseFolder pick)
  | .drop data => some (s.drop data)
  | .view (.filesSelect _ _) => none
  | .view step => (s.sender.next step).map fun sender => { s with sender := sender }

/-- The specification: the files of the most recent pick or drop of a path. -/
def wanted (s : WebSelection) (path : String) : List (String × WebFile) :=
  ((latest s.picked path).map PickedItem.entries).getD []

/-- The payload for `paths` has exactly the files wanted for each of them, each once.
Where a path has no files there is nothing to send, and the error names it. -/
def Sends (s : WebSelection) (paths : List String) : Prop :=
  match paths.find? fun path => (s.wanted path).isEmpty with
  | some path => s.files.collectWebSendPayload paths = .error (.emptyFolder path)
  | none => paths ≠ [] → ∃ payload, s.files.collectWebSendPayload paths = .ok payload ∧
      payload.names.length = payload.bytesList.length ∧
      (payload.names.zip payload.bytesList).Perm
        ((paths.flatMap s.wanted).map fun e => (e.1, e.2.bytes))

/-- Every folder that the step brings has all files known below its path. -/
def BringsAllKnown (s : WebSelection) (step : WebSelectStep) : Prop :=
  NothingStale (Keyed.keys s.files.filesByPath) step.picked

instance (s : WebSelection) (step : WebSelectStep) : Decidable (s.BringsAllKnown step) :=
  inferInstanceAs (Decidable (NothingStale _ _))

end WebSelection

section Registered
open WebFileStore

theorem pickedFile_valid {file : WebFile} (h : file.IsPlain) : (pickedFile file).Valid := h.1

/-- Registering plain files is registering them as picked items. -/
theorem foldl_registerPlain {files : List WebFile} (hPlain : ∀ file ∈ files, file.IsPlain)
    (s : WebFileStore) :
    files.foldl (fun s file => s.registerWebFile (webFilePathKey file) file) s =
      s.registerAll (files.map pickedFile) := by
  induction files generalizing s with
  | nil => rfl
  | cons file rest ih =>
      have hFile := hPlain file List.mem_cons_self
      rw [List.foldl_cons, ih fun f hf => hPlain f (List.mem_cons_of_mem file hf), hFile.key]
      rfl

theorem map_key_plain {files : List WebFile} (hPlain : ∀ file ∈ files, file.IsPlain) :
    files.map webFilePathKey = (files.map pickedFile).map PickedItem.path := by
  rw [List.map_map]
  exact List.map_congr_left fun file hFile => (hPlain file hFile).key

/-- The file picker yields valid items only. -/
theorem FilePick.picked_valid (pick : FilePick) : ∀ item ∈ pick.picked, item.Valid := by
  intro item hItem
  obtain ⟨file, hFile, rfl⟩ := List.mem_map.mp hItem
  exact pickedFile_valid (pick.plain file hFile)

/-- The file picker registers what was picked and answers with its paths. -/
theorem FilePick.registered (pick : FilePick) (s : WebFileStore) :
    pickPathsInBrowser s false true pick.files = (s.registerAll pick.picked,
      if pick.files.isEmpty then none else some (pick.picked.map PickedItem.path)) := by
  unfold pickPathsInBrowser picked
  cases hNone : pick.files.isEmpty with
  | true =>
      rw [List.isEmpty_iff.mp hNone]
      rfl
  | false =>
      simp only [Bool.false_eq_true, if_false, if_true, foldl_registerPlain pick.plain,
        map_key_plain pick.plain]

/-- A file of the folder picker is registered under its path in the folder. -/
theorem FolderPick.key (pick : FolderPick) {file : WebFile} (hFile : file ∈ pick.files) :
    webFilePathKey file = file.webkitRelativePath := by
  refine if_neg fun hEmpty => ?_
  obtain ⟨rest, hRest⟩ := pick.below file hFile
  rw [hEmpty] at hRest
  simp at hRest

/-- The folder picker yields valid items only. -/
theorem FolderPick.picked_valid (pick : FolderPick) : ∀ item ∈ pick.picked, item.Valid := by
  intro item hItem
  unfold picked at hItem
  split at hItem
  · exact absurd hItem List.not_mem_nil
  · obtain rfl := List.mem_singleton.mp hItem
    refine ⟨pick.isEntryName, ?_, ?_⟩
    · intro e he
      obtain ⟨file, hFile, rfl⟩ := List.mem_map.mp he
      exact pick.below file hFile
    · rw [Keyed.keys, List.map_map]
      exact pick.nodup

/-- The first part of a path below a folder is its name. -/
theorem segments_head {root path : String} (hRoot : IsEntryName root) (h : IsUnder root path) :
    (segments path).headD "" = root := by
  obtain ⟨rest, hRest⟩ := h
  rw [segments, ← hRest, List.append_assoc, List.singleton_append,
    List.splitOn_append_cons_self_of_not_mem hRoot.2]
  simp

/-- Texts that are all the same leave one. -/
theorem distinct_of_forall_eq {texts : List String} {text : String} (hSome : texts ≠ [])
    (h : ∀ t ∈ texts, t = text) : distinct texts = [text] := by
  obtain ⟨first, rest, rfl⟩ := List.exists_cons_of_ne_nil hSome
  obtain rfl := h first List.mem_cons_self
  unfold distinct
  rw [List.foldl_cons]
  show rest.foldl _ [first] = [first]
  have hRest := fun t ht => h t (List.mem_cons_of_mem first ht)
  clear h hSome
  induction rest with
  | nil => rfl
  | cons t rest ih =>
      obtain rfl := hRest t List.mem_cons_self
      rw [List.foldl_cons, if_pos (by simp)]
      exact ih fun u hu => hRest u (List.mem_cons_of_mem t hu)

/-- A picked folder is registered like a dropped one. -/
theorem FolderPick.registered (pick : FolderPick) (s : WebFileStore)
    (hSome : pick.files.isEmpty = false) : pickPathsInBrowser s true false pick.files =
      (s.registerAll pick.picked, some [pick.root]) := by
  have hRoots : distinct ((pick.files.map fun file =>
      (segments (webFilePathKey file)).headD "").filter (· ≠ "")) = [pick.root] := by
    have hRoot : ∀ file ∈ pick.files,
        (segments (webFilePathKey file)).headD "" = pick.root := by
      intro file hFile
      rw [pick.key hFile]
      exact segments_head pick.isEntryName (pick.below file hFile)
    refine distinct_of_forall_eq ?_ fun t ht => ?_
    · obtain ⟨file, hFile⟩ := List.exists_mem_of_ne_nil _ (List.isEmpty_eq_false_iff.mp hSome)
      refine List.ne_nil_of_mem (List.mem_filter.mpr ⟨List.mem_map.mpr ⟨file, hFile, rfl⟩, ?_⟩)
      show decide (_ ≠ "") = true
      rw [hRoot file hFile]
      exact decide_eq_true pick.isEntryName.1
    · obtain ⟨file, hFile, rfl⟩ := List.mem_map.mp (List.mem_filter.mp ht).1
      exact hRoot file hFile
  have hFiles : pick.files.foldl (fun s file => s.registerWebFile (webFilePathKey file) file) s =
      (pick.files.map fun file => (file.webkitRelativePath, file)).foldl
        (fun s e => s.registerWebFile e.1 e.2) s := by
    rw [List.foldl_map]
    refine List.foldl_ext _ _ s fun s file hFile => ?_
    rw [pick.key hFile]
  have hFree : pick.root ∉
      Keyed.keys (pick.files.map fun file => (file.webkitRelativePath, file)) := by
    intro hMem
    obtain ⟨e, he, hRoot⟩ := List.mem_map.mp hMem
    obtain ⟨file, hFile, rfl⟩ := List.mem_map.mp he
    exact (pick.below file hFile).ne pick.isEntryName hRoot
  simp only [pickPathsInBrowser, hSome, Bool.false_eq_true, if_false, if_true, hRoots, hFiles,
    picked, registerAll]
  rw [List.foldl_cons, List.foldl_nil, List.foldl_cons, List.foldl_nil, register_folder_eq hFree]
  rfl

/-- What is dropped as an entry is a valid item. -/
theorem DataTransferItem.picked_valid {item : DataTransferItem} (h : item.Valid) :
    ∀ p ∈ item.picked, p.Valid := by
  intro p hp
  cases item with
  | other => cases hp
  | file entry asFile =>
      cases entry with
      | none =>
          obtain ⟨dropped, hDropped, rfl⟩ := Option.map_eq_some_iff.mp hp
          exact pickedFile_valid (h dropped hDropped)
      | some entry =>
          cases entry with
          | file name dropped =>
              obtain rfl := Option.some.inj hp
              exact pickedFile_valid h
          | directory name children =>
              obtain rfl := Option.some.inj hp
              have hEntry : (FileSystemEntry.directory name children).Valid := h
              have hName : IsEntryName name := hEntry.isEntryName
              rw [FileSystemEntry.Valid] at hEntry
              have hPath : entryPath "" name = name := if_pos rfl
              rw [readEntryRecursively, hPath]
              have hNodup := nodup_readEntries children hEntry.2.1 hEntry.2.2 hName.1
              refine ⟨hName, fun e he => ?_, hNodup⟩
              obtain ⟨child, -, path, hLies, hPath⟩ := (mem_readEntries children hName.1).mp he
              rw [hPath]
              exact (within_of_lies hLies name).isUnder

/-- A drop yields valid items only. -/
theorem DroppedData.picked_valid (data : DroppedData) : ∀ item ∈ data.picked, item.Valid := by
  intro item hItem
  unfold picked at hItem
  split at hItem
  · obtain ⟨file, hFile, rfl⟩ := List.mem_map.mp hItem
    exact pickedFile_valid (data.plain file hFile)
  · obtain ⟨entry, hEntry, hPicked⟩ := List.mem_filterMap.mp hItem
    exact DataTransferItem.picked_valid (data.items entry hEntry) item hPicked

/-- The loop of a drop registers its items and lists their paths. -/
theorem foldl_addItem {items : List DataTransferItem} (hItems : ∀ item ∈ items, item.Valid)
    (p : DropProgress) :
    (items.foldl DropProgress.add p).store =
        p.store.registerAll (items.filterMap DataTransferItem.picked) ∧
      (items.foldl DropProgress.add p).topLevelPaths =
        p.topLevelPaths ++ (items.filterMap DataTransferItem.picked).map PickedItem.path := by
  induction items generalizing p with
  | nil => simp [registerAll]
  | cons item rest ih =>
      have hItem := hItems item List.mem_cons_self
      have hRest := fun i hi => hItems i (List.mem_cons_of_mem item hi)
      obtain ⟨hStore, hPaths⟩ := ih hRest (p.add item)
      have hStep : (p.add item).store = p.store.registerAll item.picked.toList ∧
          (p.add item).topLevelPaths =
            p.topLevelPaths ++ item.picked.toList.map PickedItem.path := by
        cases item with
        | other => simp [DropProgress.add, DataTransferItem.picked, registerAll]
        | file entry asFile =>
            cases entry with
            | none =>
                cases asFile with
                | none => simp [DropProgress.add, DataTransferItem.picked, registerAll]
                | some dropped =>
                    have hPlain : dropped.IsPlain := hItem dropped rfl
                    simp [DropProgress.add, DropProgress.addFile, DataTransferItem.picked,
                      registerAll, register, pickedFile, PickedItem.path, hPlain.key]
            | some entry =>
                cases entry with
                | file name dropped =>
                    have hPlain : dropped.IsPlain := hItem
                    simp [DropProgress.add, DropProgress.addFile, DataTransferItem.picked,
                      registerAll, register, pickedFile, PickedItem.path, hPlain.key]
                | directory name children =>
                    simp [DropProgress.add, DataTransferItem.picked, registerAll, register,
                      PickedItem.path]
      rw [List.foldl_cons, hStore, hPaths, hStep.1, hStep.2]
      have hCons : (item :: rest).filterMap DataTransferItem.picked =
          item.picked.toList ++ rest.filterMap DataTransferItem.picked := by
        cases hPicked : item.picked with
        | none => simp [hPicked]
        | some picked => simp [hPicked]
      rw [hCons, List.map_append, List.append_assoc]
      exact ⟨(List.foldl_append ..).symm, rfl⟩

/-- A drop registers what it carries and answers with its paths. -/
theorem DroppedData.registered (data : DroppedData) (s : WebFileStore) :
    (processWebDataTransfer s data.dataTransfer).1 = s.registerAll data.picked ∧
      (processWebDataTransfer s data.dataTransfer).2.paths =
        data.picked.map PickedItem.path := by
  have hLoop := foldl_addItem data.items ⟨s, [], false, false⟩
  rw [List.nil_append] at hLoop
  cases hList : data.dataTransfer.items with
  | nil =>
      simp only [processWebDataTransfer, picked, hList, registerPlainFiles]
      exact ⟨foldl_registerPlain data.plain s, map_key_plain data.plain⟩
  | cons item rest =>
      rw [hList] at hLoop
      simp only [processWebDataTransfer, picked, hList]
      exact hLoop

end Registered

section Selected

/-- Adding paths removes none. -/
theorem mem_addSelectedPaths {s : SenderStore} {paths : List String} {path : String} :
    path ∈ (s.addSelectedPaths paths).selectedPaths ↔ path ∈ s.selectedPaths ∨ path ∈ paths := by
  show path ∈ paths.foldl _ s.selectedPaths ↔ _
  generalize s.selectedPaths = selected
  induction paths generalizing selected with
  | nil => simp
  | cons first rest ih =>
      rw [List.foldl_cons, ih, List.mem_cons]
      split
      · next hThere =>
          have hMem : first ∈ selected := by simpa using hThere
          constructor
          · rintro (hOld | hRest)
            · exact Or.inl hOld
            · exact Or.inr (Or.inr hRest)
          · rintro (hOld | rfl | hRest)
            · exact Or.inl hOld
            · exact Or.inl hMem
            · exact Or.inr hRest
      · rw [List.mem_append, List.mem_singleton, or_assoc]

/-- A selection adds the given paths and removes none. -/
theorem mem_filesSelect {s : SenderState} {paths : List String} {providedPathType : Option PathType}
    {path : String} : path ∈ (s.filesSelect paths providedPathType).store.selectedPaths ↔
      path ∈ s.store.selectedPaths ∨ path ∈ paths := by
  cases paths with
  | nil => simp [SenderState.filesSelect]
  | cons first rest =>
      have hStore : (s.filesSelect (first :: rest) providedPathType).store.selectedPaths =
          (s.store.addSelectedPaths (first :: rest)).selectedPaths := by
        simp only [SenderState.filesSelect, List.isEmpty_cons, Bool.false_eq_true, if_false]
        split
        · rfl
        · split
          · rfl
          · split <;> rfl
      rw [hStore, mem_addSelectedPaths]

/-- Nothing that was not selected is selected. -/
def Shrinks (s t : SenderState) : Prop := t.store.selectedPaths ⊆ s.store.selectedPaths

section Shrinks
variable {s t : SenderState}

theorem shrinks_of_eq (h : t.store.selectedPaths = s.store.selectedPaths) : Shrinks s t := by
  rw [Shrinks, h]
  exact List.Subset.refl _

theorem shrinks_of_nil (h : t.store.selectedPaths = []) : Shrinks s t := by
  rw [Shrinks, h]
  exact List.nil_subset _

/-- Stopping the share selects nothing new. -/
theorem shrinks_stopSharing (now : Nat) : Shrinks s (s.stopSharing now) := by
  unfold SenderState.stopSharing
  dsimp only
  split
  · exact shrinks_of_nil rfl
  · split <;> exact shrinks_of_eq rfl

/-- Removing a path selects nothing new. -/
theorem shrinks_removeSelectedPath (path : String) : Shrinks s (s.removeSelectedPath path) := by
  have hStore : (s.removeSelectedPath path).store.selectedPaths =
      s.store.selectedPaths.filter (· ≠ path) := by
    unfold SenderState.removeSelectedPath
    dsimp only
    split <;> rfl
  rw [Shrinks, hStore]
  exact List.filter_subset_self _

/-- A failed transfer selects nothing new. -/
theorem shrinks_transferFailed (now : Nat) : Shrinks s (s.transferFailed now) := by
  unfold SenderState.transferFailed
  dsimp only
  split
  · split <;> exact shrinks_of_eq rfl
  · exact shrinks_of_eq rfl

/-- The end of a transfer selects nothing new. -/
theorem shrinks_finishCompleted (storeState : SenderStore) (now : Nat) :
    Shrinks s (s.finishCompleted storeState now) := by
  unfold SenderState.finishCompleted
  dsimp only
  split
  · split <;> exact shrinks_of_eq rfl
  · split <;> exact shrinks_of_eq rfl

/-- The end of stopping selects nothing new. -/
theorem shrinks_finishStop (wasActiveTransfer : Bool) (currentSelectedPath : Option String) :
    Shrinks s (s.finishStop wasActiveTransfer currentSelectedPath) := by
  unfold SenderState.finishStop
  split <;> exact shrinks_of_nil rfl

/-- Going on with a handler never selects a path. -/
theorem shrinks_continueWith {now : Nat} {p : SenderPending} {reply : SenderReply}
    (h : s.continueWith now p reply = some t) : Shrinks s t := by
  unfold SenderState.continueWith at h
  split at h
  case h_3 wasActiveTransfer currentSelectedPath =>
    obtain rfl := Option.some.inj h
    exact shrinks_finishStop wasActiveTransfer currentSelectedPath
  case h_5 storeState =>
    obtain rfl := Option.some.inj h
    exact shrinks_finishCompleted storeState now
  case h_11 => cases h
  all_goals
    obtain rfl := Option.some.inj h
    exact shrinks_of_eq rfl

/-- No other step of the view selects a path. -/
theorem shrinks_next {step : SenderStep} (h : s.next step = some t)
    (hStep : ∀ paths providedPathType, step ≠ .filesSelect paths providedPathType) :
    Shrinks s t := by
  cases step with
  | filesSelect paths providedPathType => exact absurd rfl (hStep paths providedPathType)
  | startSharing =>
      obtain rfl := Option.some.inj h
      unfold SenderState.startSharing
      split <;> exact shrinks_of_eq rfl
  | stopSharing now =>
      obtain rfl := Option.some.inj h
      exact shrinks_stopSharing now
  | clearSelectedPath =>
      obtain rfl := Option.some.inj h
      exact shrinks_of_nil rfl
  | removeSelectedPath path =>
      obtain rfl := Option.some.inj h
      exact shrinks_removeSelectedPath path
  | transferProgress progress =>
      obtain rfl := Option.some.inj h
      unfold SenderState.transferProgress
      split <;> exact shrinks_of_eq rfl
  | transferCompleted =>
      obtain rfl := Option.some.inj h
      unfold SenderState.transferCompleted
      split <;> exact shrinks_of_eq rfl
  | transferFailed now =>
      obtain rfl := Option.some.inj h
      exact shrinks_transferFailed now
  | intervalTick =>
      rw [SenderState.next] at h
      split at h
      · obtain rfl := Option.some.inj h
        exact shrinks_of_eq rfl
      · obtain rfl := Option.some.inj h
        exact shrinks_of_eq rfl
  | resume k now reply =>
      obtain ⟨p, -, hContinue⟩ := Option.bind_eq_some_iff.mp h
      exact @shrinks_continueWith { s with pending := s.pending.eraseIdx k } t now p reply hContinue
  | setBroadcast enabled =>
      obtain rfl := Option.some.inj h
      exact shrinks_of_eq rfl
  | activeConnectionCount count =>
      obtain rfl := Option.some.inj h
      exact shrinks_of_eq rfl
  | transferStarted now =>
      obtain rfl := Option.some.inj h
      exact shrinks_of_eq rfl
  | rendered =>
      obtain rfl := Option.some.inj h
      exact shrinks_of_eq rfl

end Shrinks
end Selected

section Collect
open Keyed WebFileStore
variable {s : WebFileStore}

/-- What the loop adds for an item that the store says the right things about. -/
theorem webSendEntries_of_matches (hShaped : s.Shaped) {item : PickedItem} (hItem : item.Valid)
    (hMatches : s.Matches item) : ∃ entries, entries.Perm item.entries ∧
      s.webSendEntries item.path =
        if entries.isEmpty then .error (.emptyFolder item.path) else .ok entries := by
  cases item with
  | file path file =>
      obtain ⟨hFile, hMem⟩ := hMatches
      have hFound : s.getWebFile path = some file :=
        (get?_eq_some_iff hShaped.nodup).mpr hMem
      refine ⟨[(path, file)], List.Perm.refl _, ?_⟩
      simp [webSendEntries, isWebDirectory, PickedItem.path, hFile, hFound]
  | folder path entries =>
      obtain ⟨hFolder, hSame⟩ := hMatches
      refine ⟨s.listWebFileEntriesUnderPath path, ?_, ?_⟩
      · refine perm_of_mem_iff (nodup_filter hShaped.nodup _) hItem.nodup fun e => ?_
        simp only [listWebFileEntriesUnderPath, List.mem_filter, decide_eq_true_eq, startsWith_iff]
        constructor
        · rintro ⟨hMem, rfl | hUnder⟩
          · exact absurd (mem_keys.mpr ⟨e.2, hMem⟩) (hShaped.apart e.1 hFolder)
          · exact (hSame e.1 e.2 hUnder).mp hMem
        · intro hMem
          have hUnder := hItem.2.1 e hMem
          exact ⟨(hSame e.1 e.2 hUnder).mpr hMem, Or.inr hUnder⟩
      · simp [webSendEntries, isWebDirectory, PickedItem.path, hFolder]

variable {wanted : String → List (String × WebFile)} {paths : List String}

/-- The loop over the paths, when it adds for each the files wanted for it. -/
theorem mapM_webSendEntries (h : ∀ path ∈ paths, ∃ entries, entries.Perm (wanted path) ∧
      s.webSendEntries path =
        if entries.isEmpty then .error (.emptyFolder path) else .ok entries) :
    match paths.find? fun path => (wanted path).isEmpty with
    | some path => paths.mapM s.webSendEntries = .error (.emptyFolder path)
    | none => ∃ lists, paths.mapM s.webSendEntries = .ok lists ∧
        lists.flatten.Perm (paths.flatMap wanted) := by
  induction paths with
  | nil => exact ⟨[], rfl, List.Perm.refl _⟩
  | cons path rest ih =>
      obtain ⟨entries, hPerm, hEntries⟩ := h path List.mem_cons_self
      have hTail := ih fun q hq => h q (List.mem_cons_of_mem path hq)
      rw [List.find?_cons, List.mapM_cons, hEntries]
      have hSame : (wanted path).isEmpty = entries.isEmpty := by
        rw [Bool.eq_iff_iff, List.isEmpty_iff_length_eq_zero, List.isEmpty_iff_length_eq_zero,
          hPerm.length_eq]
      rw [hSame]
      cases hNone : entries.isEmpty with
      | true =>
          simp only [if_true]
          rfl
      | false =>
          cases hFind : rest.find? fun path => (wanted path).isEmpty with
          | some q =>
              rw [hFind] at hTail
              simp only [Bool.false_eq_true, if_false, hTail]
              rfl
          | none =>
              rw [hFind] at hTail
              obtain ⟨lists, hLists, hRest⟩ := hTail
              simp only [Bool.false_eq_true, if_false, hLists]
              refine ⟨entries :: lists, rfl, ?_⟩
              rw [List.flatten_cons, List.flatMap_cons]
              exact hPerm.append hRest

/-- The payload of one path. -/
theorem collectWebSendPayload_singleton {path : String} {entries : List (String × WebFile)}
    (hEntries : s.webSendEntries path = .ok entries) (hSome : entries ≠ []) :
    s.collectWebSendPayload [path] = .ok ⟨entries.map (·.1), entries.map (·.2.bytes),
      s.webSendEntryType [path]⟩ := by
  rw [collectWebSendPayload, List.mapM_cons, hEntries, List.mapM_nil]
  show (if ([entries].flatten).isEmpty then _ else _) = _
  rw [List.flatten_cons, List.flatten_nil, List.append_nil]
  exact if_neg (by simpa using hSome)

/-- Only the members of what was picked matter. -/
theorem matches_of_perm {item full : PickedItem} (hItem : item.Valid) (hFull : full.Valid)
    (hPath : full.path = item.path) (hSame : full.entries.Perm item.entries)
    (hMatches : s.Matches full) : s.Matches item := by
  cases item with
  | file path file =>
      cases full with
      | file path' file' =>
          have hEntry : (path', file') = (path, file) :=
            List.singleton_inj.mp (List.perm_singleton.mp hSame)
          obtain ⟨rfl, rfl⟩ := Prod.mk.inj hEntry
          exact hMatches
      | folder path' entries =>
          have hMem : (path, file) ∈ entries := hSame.mem_iff.mpr List.mem_cons_self
          exact absurd (hFull.2.1 _ hMem) hItem.isEntryName.not_isUnder
  | folder path entries =>
      cases full with
      | file path' file' =>
          have hMem : (path', file') ∈ entries := hSame.mem_iff.mp List.mem_cons_self
          exact absurd (hItem.2.1 _ hMem) hFull.isEntryName.not_isUnder
      | folder path' entries' =>
          obtain rfl : path' = path := hPath
          refine ⟨hMatches.1, fun k v hUnder => ?_⟩
          exact (hMatches.2 k v hUnder).trans hSame.mem_iff

end Collect

namespace WebSelection
open Keyed WebFileStore
variable {s t : WebSelection}

/-- Every selected path was picked, and the store matches its most recent pick. -/
def Current (s : WebSelection) : Prop :=
  ∀ path ∈ s.selectedPaths, ∃ item, latest s.picked path = some item ∧ s.files.Matches item

/-- What every run keeps. -/
structure Recorded (s : WebSelection) : Prop where
  shaped : s.files.Shaped
  valid : ∀ item ∈ s.picked, item.Valid

/-- What a path should send are the entries of its latest pick. -/
theorem wanted_eq {path : String} {item : PickedItem} (h : latest s.picked path = some item) :
    s.wanted path = item.entries := by
  rw [wanted, h]
  rfl

/-- While no path was deleted, every selection sends what it should. -/
theorem Recorded.sends (h : s.Recorded) (hCurrent : s.Current) {paths : List String}
    (hPaths : paths ⊆ s.selectedPaths) : s.Sends paths := by
  have hEach : ∀ path ∈ paths, ∃ entries, entries.Perm (s.wanted path) ∧
      s.files.webSendEntries path =
        if entries.isEmpty then .error (.emptyFolder path) else .ok entries := by
    intro path hPath
    obtain ⟨item, hItem, hMatches⟩ := hCurrent path (hPaths hPath)
    have hEntries := webSendEntries_of_matches h.shaped (h.valid item (latest_mem hItem)) hMatches
    rwa [wanted_eq hItem, ← latest_path hItem]
  have hLoop := mapM_webSendEntries hEach
  unfold Sends
  split at hLoop
  · rw [collectWebSendPayload, hLoop]
    rfl
  · next hNone =>
      intro hSome
      obtain ⟨lists, hLists, hPerm⟩ := hLoop
      obtain ⟨path, hPath⟩ := List.exists_mem_of_ne_nil paths hSome
      have hFilled : lists.flatten ≠ [] := by
        intro hEmpty
        rw [hEmpty] at hPerm
        have hWanted := List.flatMap_eq_nil_iff.mp hPerm.symm.eq_nil path hPath
        have hKept := List.find?_eq_none.mp hNone path hPath
        exact hKept (by rw [hWanted]; rfl)
      refine ⟨⟨lists.flatten.map (·.1), lists.flatten.map (·.2.bytes),
        s.files.webSendEntryType paths⟩, ?_, by rw [List.length_map, List.length_map], ?_⟩
      · rw [collectWebSendPayload, hLists]
        exact if_neg (by simpa using hFilled)
      · rw [List.zip_map']
        exact hPerm.map _

/-- A path that sends what is wanted for it is matched by the store. -/
theorem Recorded.matches_of_sends (h : s.Recorded) {path : String} {item : PickedItem}
    (hItem : latest s.picked path = some item) (hHolds : s.files.Holds item)
    (hSends : s.Sends [path]) : s.files.Matches item := by
  obtain ⟨full, hFull, hPath, hMatches, hSubset⟩ := hHolds
  have hValid := h.valid item (latest_mem hItem)
  obtain ⟨entries, hPerm, hEntries⟩ := webSendEntries_of_matches h.shaped hFull hMatches
  rw [hPath, latest_path hItem] at hEntries
  refine matches_of_perm hValid hFull hPath ?_ hMatches
  have hSubperm := (List.Nodup.of_map _ hValid.nodup).subperm hSubset
  refine (hSubperm.perm_of_length_le (hPerm.length_eq ▸ ?_)).symm
  by_cases hEmpty : entries = []
  · simp [hEmpty]
  · rw [if_neg (by simpa using hEmpty)] at hEntries
    have hPayload := collectWebSendPayload_singleton hEntries hEmpty
    rw [Sends, List.find?_cons, wanted_eq hItem] at hSends
    cases hNone : item.entries.isEmpty with
    | true =>
        simp only [hNone] at hSends
        rw [hPayload] at hSends
        cases hSends
    | false =>
        simp only [hNone, List.find?_nil] at hSends
        obtain ⟨payload, hOk, -, hSent⟩ := hSends (List.cons_ne_nil _ _)
        obtain rfl := Except.ok.inj (hPayload.symm.trans hOk)
        have hLength := hSent.length_eq
        rw [List.zip_map'] at hLength
        simpa [wanted_eq hItem] using hLength.le

/-- Every part of the selection is sent right just when the store is up to date. -/
theorem Recorded.sends_iff (h : s.Recorded)
    (hHolds : ∀ path ∈ s.selectedPaths, ∃ item, latest s.picked path = some item ∧
      s.files.Holds item) :
    (∀ paths ⊆ s.selectedPaths, s.Sends paths) ↔ s.Current := by
  constructor
  · intro hSends path hPath
    obtain ⟨item, hItem, hThere⟩ := hHolds path hPath
    have hOne : [path] ⊆ s.selectedPaths := List.cons_subset.mpr ⟨hPath, List.nil_subset _⟩
    exact ⟨item, hItem, h.matches_of_sends hItem hThere (hSends [path] hOne)⟩
  · exact fun hCurrent _ hPaths => h.sends hCurrent hPaths

/-- What one step does to the store, the picks and the selection. -/
structure Picks (s : WebSelection) (items : List PickedItem) (t : WebSelection) : Prop where
  valid : ∀ item ∈ items, item.Valid
  files : t.files = s.files.registerAll items
  picked : t.picked = s.picked ++ items
  selected : ∀ path ∈ t.selectedPaths, path ∈ s.selectedPaths ∨ path ∈ items.map PickedItem.path
  selects : ∀ path ∈ items.map PickedItem.path, path ∈ t.selectedPaths

/-- Browsing for files only adds the picks. -/
theorem picks_browseFile (pick : FilePick) : Picks s pick.picked (s.browseFile pick) := by
  have hSelected : ∀ path, path ∈ (s.browseFile pick).selectedPaths ↔
      path ∈ s.selectedPaths ∨ path ∈ pick.picked.map PickedItem.path := by
    intro path
    rw [browseFile, pick.registered]
    cases hNone : pick.files.isEmpty with
    | true =>
        rw [FilePick.picked, List.isEmpty_iff.mp hNone]
        simp [selectedPaths]
    | false => exact mem_filesSelect
  constructor
  case valid => exact pick.picked_valid
  case files => rw [browseFile, pick.registered]
  case picked => rfl
  case selected => exact fun path hPath => (hSelected path).mp hPath
  case selects => exact fun path hPath => (hSelected path).mpr (Or.inr hPath)

/-- Browsing for a folder only adds the picks. -/
theorem picks_browseFolder (pick : FolderPick) : Picks s pick.picked (s.browseFolder pick) := by
  cases hNone : pick.files.isEmpty with
  | true =>
      have hItems : pick.picked = [] := if_pos hNone
      have hSame : s.browseFolder pick = { s with picked := s.picked ++ pick.picked } := by
        simp [browseFolder, pickPathsInBrowser, hNone]
      rw [hSame, hItems]
      constructor
      case valid => exact fun item hItem => absurd hItem List.not_mem_nil
      case files => rfl
      case picked => rfl
      case selected => exact fun path hPath => Or.inl hPath
      case selects => exact fun path hPath => absurd hPath List.not_mem_nil
  | false =>
      have hPaths : pick.picked.map PickedItem.path = [pick.root] := by
        simp [FolderPick.picked, hNone, PickedItem.path]
      have hSelected : ∀ path, path ∈ (s.browseFolder pick).selectedPaths ↔
          path ∈ s.selectedPaths ∨ path ∈ pick.picked.map PickedItem.path := by
        intro path
        rw [browseFolder, pick.registered s.files hNone, hPaths]
        exact mem_filesSelect
      constructor
      case valid => exact pick.picked_valid
      case files => rw [browseFolder, pick.registered s.files hNone]
      case picked => rfl
      case selected => exact fun path hPath => (hSelected path).mp hPath
      case selects => exact fun path hPath => (hSelected path).mpr (Or.inr hPath)

/-- A drop only adds its items. -/
theorem picks_drop (data : DroppedData) : Picks s data.picked (s.drop data) := by
  obtain ⟨hFiles, hPaths⟩ := data.registered s.files
  constructor
  case valid => exact data.picked_valid
  case files => exact hFiles
  case picked => rfl
  case selected =>
    intro path hPath
    rw [← hPaths]
    exact mem_filesSelect.mp hPath
  case selects =>
    intro path hPath
    rw [← hPaths] at hPath
    exact mem_filesSelect.mpr (Or.inr hPath)

theorem picks_view {sender : SenderState} (h : Shrinks s.sender sender) :
    Picks s [] { s with sender := sender } where
  valid _ hItem := absurd hItem List.not_mem_nil
  files := rfl
  picked := (List.append_nil s.picked).symm
  selected _ hPath := Or.inl (h hPath)
  selects _ hPath := absurd hPath List.not_mem_nil

/-- A step of the view that selects nothing leaves the picks alone. -/
theorem next_view {step : SenderStep}
    (hStep : ∀ paths providedPathType, step ≠ .filesSelect paths providedPathType) :
    s.next (.view step) = (s.sender.next step).map fun sender => { s with sender := sender } := by
  cases step with
  | filesSelect paths providedPathType => exact absurd rfl (hStep paths providedPathType)
  | _ => rfl

/-- Every step of the selection records its picks and nothing else. -/
theorem picks_next {step : WebSelectStep} (hNext : s.next step = some t) :
    Picks s step.picked t := by
  cases step with
  | browseFile pick =>
      obtain rfl := Option.some.inj hNext
      exact picks_browseFile pick
  | browseFolder pick =>
      obtain rfl := Option.some.inj hNext
      exact picks_browseFolder pick
  | drop data =>
      obtain rfl := Option.some.inj hNext
      exact picks_drop data
  | view step =>
      have hStep : ∀ paths providedPathType, step ≠ .filesSelect paths providedPathType := by
        rintro paths providedPathType rfl
        cases hNext
      rw [next_view hStep] at hNext
      obtain ⟨sender, hSender, rfl⟩ := Option.map_eq_some_iff.mp hNext
      exact picks_view (shrinks_next hSender hStep)

/-- A step keeps the record of all picks. -/
theorem Recorded.next (h : s.Recorded) {items : List PickedItem} (hPicks : Picks s items t) :
    t.Recorded where
  shaped := hPicks.files ▸ h.shaped.registerAll items
  valid item hItem := by
    rw [hPicks.picked] at hItem
    rcases List.mem_append.mp hItem with hOld | hNew
    · exact h.valid item hOld
    · exact hPicks.valid item hNew

/-- A selected path is one that the step brought, or the store is still up to date on it. -/
theorem Picks.latest_selected (h : s.Recorded) (hCurrent : s.Current) {items : List PickedItem}
    (hPicks : Picks s items t) {path : String} (hPath : path ∈ t.selectedPaths) :
    ∃ item, latest t.picked path = some item ∧
      (latest items path = some item ∨ item.Valid ∧ t.files.Matches item) := by
  rw [hPicks.picked, latest_append]
  cases hNew : latest items path with
  | some item => exact ⟨item, rfl, Or.inl rfl⟩
  | none =>
      have hMissing := latest_eq_none_iff.mp hNew
      have hOld := (hPicks.selected path hPath).resolve_right hMissing
      obtain ⟨item, hItem, hMatches⟩ := hCurrent path hOld
      have hValid := h.valid item (latest_mem hItem)
      rw [← latest_path hItem] at hMissing
      refine ⟨item, by rw [Option.none_or, hItem], Or.inr ⟨hValid, ?_⟩⟩
      rw [hPicks.files]
      exact (matches_registerAll_of_notMem hPicks.valid hValid hMissing).mpr hMatches

/-- A step keeps the store up to date just when its folders bring all known files. -/
theorem Picks.current_iff (h : s.Recorded) (hCurrent : s.Current) {items : List PickedItem}
    (hPicks : Picks s items t) :
    NothingStale (keys s.files.filesByPath) items ↔ t.Current := by
  rw [nothingStale_iff_matches hPicks.valid, ← hPicks.files]
  constructor
  · intro hAll path hPath
    obtain ⟨item, hItem, hNew | ⟨-, hMatches⟩⟩ := hPicks.latest_selected h hCurrent hPath
    · exact ⟨item, hItem, hAll path item hNew⟩
    · exact ⟨item, hItem, hMatches⟩
  · intro hAll path item hItem
    have hSelected : path ∈ t.selectedPaths :=
      hPicks.selects path (List.mem_map.mpr ⟨item, latest_mem hItem, latest_path hItem⟩)
    obtain ⟨other, hOther, hMatches⟩ := hAll path hSelected
    rw [hPicks.picked, latest_append, hItem, Option.some_or] at hOther
    exact Option.some.inj hOther ▸ hMatches

/-- What was picked for a selected path is in the store after the step in any case. -/
theorem Picks.holds (h : s.Recorded) (hCurrent : s.Current) {items : List PickedItem}
    (hPicks : Picks s items t) {path : String} (hPath : path ∈ t.selectedPaths) :
    ∃ item, latest t.picked path = some item ∧ t.files.Holds item := by
  obtain ⟨item, hItem, hNew | ⟨hValid, hMatches⟩⟩ := hPicks.latest_selected h hCurrent hPath
  · refine ⟨item, hItem, ?_⟩
    rw [hPicks.files]
    exact holds_registerAll h.shaped hPicks.valid hNew
  · exact ⟨item, hItem, item, hValid, rfl, hMatches, List.Subset.refl _⟩

/-- One step leaves every part of the selection sent right under just that condition. -/
theorem next_iff {step : WebSelectStep} (h : s.Recorded ∧ s.Current)
    (hNext : s.next step = some t) :
    (s.BringsAllKnown step ↔ ∀ paths ⊆ t.selectedPaths, t.Sends paths) ∧
      ((∀ paths ⊆ t.selectedPaths, t.Sends paths) → t.Recorded ∧ t.Current) := by
  obtain ⟨hRecorded, hCurrent⟩ := h
  have hPicks := picks_next hNext
  have hAfter := hRecorded.next hPicks
  have hSends := hAfter.sends_iff fun path hPath => hPicks.holds hRecorded hCurrent hPath
  exact ⟨(hPicks.current_iff hRecorded hCurrent).trans hSends.symm,
    fun hAll => ⟨hAfter, hSends.mp hAll⟩⟩

theorem recorded_start : start.Recorded where
  shaped := ⟨List.nodup_nil, fun _ hPath => absurd hPath (Finset.notMem_empty _)⟩
  valid _ hItem := absurd hItem List.not_mem_nil

theorem current_start : start.Current := fun _ hPath => absurd hPath List.not_mem_nil

end WebSelection

section Runs
open WebSelection

/-- In every state of a run each part of the selection is sent with just the files of
its most recent picks, if and only if every folder picked or dropped brought all the
files that were known below its path. -/
theorem sends_selected_iff {steps : List WebSelectStep} {t : WebSelection}
    (hRun : exec WebSelection.next WebSelection.start steps = some t) :
    Meets WebSelection.next BringsAllKnown WebSelection.start steps ↔
      ∀ first s, first <+: steps → exec WebSelection.next WebSelection.start first = some s →
        ∀ paths ⊆ s.selectedPaths, s.Sends paths := by
  have hAny : Meets WebSelection.next (fun _ _ => True) WebSelection.start steps :=
    Meets.of_forall fun _ _ _ => trivial
  exact @meets_iff_observed _ _ WebSelection.next (fun _ _ => True) BringsAllKnown
    (fun s => s.Recorded ∧ s.Current) (fun s => ∀ paths ⊆ s.selectedPaths, s.Sends paths)
    (fun _ _ _ h _ hNext => next_iff h hNext) _ _ _ hAny hRun ⟨recorded_start, current_start⟩
    (fun _ hPaths => recorded_start.sends current_start hPaths)

private def holidayFile (name : String) (byte : UInt8) : WebFile :=
  ⟨name, "holiday/" ++ name, [byte]⟩

private def holiday : FolderPick where
  root := "holiday"
  files := [holidayFile "a.jpg" 1, holidayFile "b.jpg" 2]
  isEntryName := by decide
  below := by decide
  nodup := by decide

private def notes : FilePick where
  files := [⟨"notes.txt", "", [7]⟩]
  plain := by decide

private def pickedAgain : List WebSelectStep :=
  [.browseFile notes, .browseFolder holiday, .view (.removeSelectedPath "holiday"),
    .browseFolder holiday]

theorem sends_selected_iff_pickedAgain : ∃ t,
    exec WebSelection.next WebSelection.start pickedAgain = some t ∧
      t.selectedPaths = ["notes.txt", "holiday"] ∧ t.Sends ["notes.txt", "holiday"] := by
  have hRun : ∃ t, exec WebSelection.next WebSelection.start pickedAgain = some t ∧
      t.selectedPaths = ["notes.txt", "holiday"] := by decide
  obtain ⟨t, hRun, hPaths⟩ := hRun
  have hMeets : Meets WebSelection.next BringsAllKnown WebSelection.start pickedAgain := by decide
  have hAll := (sends_selected_iff hRun).mp hMeets pickedAgain t (List.prefix_refl _) hRun
  exact ⟨t, hRun, hPaths, hAll _ (hPaths ▸ List.Subset.refl _)⟩

/-- The same folder after `b.jpg` was deleted from it. -/
private def smallerHoliday : FolderPick where
  root := "holiday"
  files := [holidayFile "a.jpg" 1]
  isEntryName := by decide
  below := by decide
  nodup := by decide

private def pickedSmaller : List WebSelectStep :=
  [.browseFolder holiday, .view (.removeSelectedPath "holiday"), .browseFolder smallerHoliday]

theorem pickedSmaller_sends_deleted : ∃ t,
    exec WebSelection.next WebSelection.start pickedSmaller = some t ∧
      t.selectedPaths = ["holiday"] ∧
      (t.wanted "holiday").map Prod.fst = ["holiday/a.jpg"] ∧
      (t.files.collectWebSendPayload ["holiday"]).toOption.map WebSendPayload.names =
        some ["holiday/a.jpg", "holiday/b.jpg"] ∧
      ¬t.Sends t.selectedPaths := by
  have hRun : ∃ t, exec WebSelection.next WebSelection.start pickedSmaller = some t ∧
      t.selectedPaths = ["holiday"] ∧
      (t.wanted "holiday").map Prod.fst = ["holiday/a.jpg"] ∧
      (t.files.collectWebSendPayload ["holiday"]).toOption.map WebSendPayload.names =
        some ["holiday/a.jpg", "holiday/b.jpg"] := by decide
  obtain ⟨t, hRun, hPaths, hWanted, hNames⟩ := hRun
  refine ⟨t, hRun, hPaths, hWanted, hNames, fun hSends => ?_⟩
  have hOne : (t.wanted "holiday").length = 1 := by
    rw [← List.length_map (f := Prod.fst), hWanted]
    rfl
  have hSome : (t.wanted "holiday").isEmpty = false := by
    rw [List.isEmpty_eq_false_iff_exists_mem]
    exact List.exists_mem_of_length_pos (by omega)
  rw [hPaths, Sends, List.find?_cons] at hSends
  simp only [hSome, List.find?_nil] at hSends
  obtain ⟨payload, hOk, hLength, hSent⟩ := hSends (List.cons_ne_nil _ _)
  rw [hOk] at hNames
  have hTwo : payload.names.length = 2 := by
    rw [Option.some.inj hNames]
    rfl
  have hSame := hSent.length_eq
  rw [List.length_zip, ← hLength, List.length_map, List.flatMap_singleton] at hSame
  omega

end Runs
end AltSendme.Frontend
