import AltSendme.Frontend.WebSaveLocation

/-! A transfer from browser to browser: the items of `send_items` become a
collection in the sender's memory, and what `receive_file` gets of it is saved by the
receiver. `fetch` is what the receiver's store has of a hash after the download. -/
namespace AltSendme.Frontend
open Files

section
variable {Hash : Type}

inductive SendItemsError where
  /-- The text that is thrown. -/
  | js (message : String)
  | importing (error : ImportError)
  deriving DecidableEq, Repr

/-- One item of the two arrays: a name that may not be a string, and bytes that may
be `undefined` or `null`. -/
def parseSendItem (item : Option String × Option (List UInt8)) :
    Except SendItemsError (String × List UInt8) :=
  match item.1.filter (· ≠ ""), item.2 with
  | none, _ => .error (.js "each item must have a non-empty name")
  | some _, none => .error (.js "each item must include file bytes")
  | some name, some bytes => .ok (name, bytes)

def parseSendItems (names : List (Option String)) (bytesArray : List (Option (List UInt8))) :
    Except SendItemsError (List (String × List UInt8)) :=
  if names.length ≠ bytesArray.length then
    .error (.js "names and bytes arrays must have the same length")
  else (names.zip bytesArray).mapM parseSendItem

/-- `import_single_file_bytes` -/
def importSingleFileBytes (fileName : String) (added : Option (Blob Hash)) :
    Except ImportError (UInt64 × Collection Hash) :=
  match added with
  | none => .error (.errorImporting "bytes")
  | some blob => .ok (blob.size, [(fileName, blob.hash)])

/-- The choice of `send_items` between its two imports. -/
def importItems (add : List UInt8 → Option (Blob Hash)) (entryType : String)
    (items : List (String × List UInt8)) : Except ImportError (UInt64 × Collection Hash) :=
  match items with
  | [(fileName, bytes)] =>
      if entryType = "file" then importSingleFileBytes fileName (add bytes)
      else importNamedBytesCollection [(fileName, add bytes)]
  | _ => importNamedBytesCollection (items.map (Prod.map id add))

/-- `send_items`, as far as the collection; `add` is the sender's store. -/
def sendItems (add : List UInt8 → Option (Blob Hash)) (names : List (Option String))
    (bytesArray : List (Option (List UInt8))) (entryType : String) :
    Except SendItemsError (UInt64 × Collection Hash) := do
  let items ← parseSendItems names bytesArray
  if items.isEmpty then .error (.js "no files provided")
  else (importItems add entryType items).mapError .importing

/-- One file of `export_collection_bytes`. -/
def exportBytes (fetch : Hash → Option (List UInt8)) (entry : String × Hash) :
    Except String (String × List UInt8) := do
  validateCollectionPath entry.1
  match fetch entry.2 with
  | some bytes => return (entry.1, bytes)
  | none => .error "not found"

def exportCollectionBytes (fetch : Hash → Option (List UInt8)) (collection : Collection Hash) :
    Except String (List (String × List UInt8)) := do
  let files ← collection.mapM (exportBytes fetch)
  if files.isEmpty then .error "collection is empty" else return files

/-- The files of a download, put together again from their names and their bytes. -/
def receivedFiles (fileNames : List String) (bytesList : List (List UInt8)) :
    Except String (List ReceivedWebFile) :=
  if fileNames.length ≠ bytesList.length then .error "Received file payload was incomplete"
  else .ok (List.zipWith ReceivedWebFile.mk fileNames bytesList)

inductive WebReceiveEvent where
  | conflicts (conflicts : List ExportConflict)
  | completed
  deriving DecidableEq, Repr

/-- What a `receive_file` call did: the events that it dispatched and the text that it
returned, if it did not throw. -/
structure WebReceive where
  saved : WebSaved
  events : List WebReceiveEvent
  message : Option String

def savedMessage (files : List ReceivedWebFile) (result : WriteCollectionResult) : String :=
  match files with
  | [file] => "Downloaded " ++ file.name
  | _ =>
      if result.zippedDownload then "Downloaded " ++ toString files.length ++ " files as a ZIP archive"
      else "Downloaded " ++ toString files.length ++ " files"

/-- The `receive_file` command of the browser, once the collection is downloaded. -/
def receiveFile (fetch : Hash → Option (List UInt8)) (cachedDirHandle : Option (Path × Option Bool))
    (outcomes : Nat → SaveOutcome) (fs : WebFileSystem) (collection : Collection Hash) :
    WebReceive :=
  match exportCollectionBytes fetch collection >>= fun files =>
      receivedFiles (files.map Prod.fst) (files.map Prod.snd) with
  | .error message => ⟨⟨⟨fs, [], []⟩, [], .error (.error message)⟩, [], none⟩
  | .ok files =>
      let saved := writeReceivedCollection cachedDirHandle outcomes fs files
      match saved.result with
      | .error _ => ⟨saved, [], none⟩
      | .ok result =>
          ⟨saved, (if result.conflicts.isEmpty then [] else [.conflicts result.conflicts]) ++
            [.completed], some (savedMessage files result)⟩

/-- What the user has when a save is done: the content of the files written, of the
download, or of the members that a reader finds in the archive. -/
def WebSaved.contents (saved : WebSaved) : Option (List (List UInt8)) :=
  match saved.result with
  | .error _ => none
  | .ok result =>
      if result.savedToDirectory then
        saved.save.targets.mapM fun target => match saved.save.fs target with
          | some (.file content) => some content
          | _ => none
      else if result.zippedDownload then
        saved.downloads.head?.bind fun download =>
          (Zip.readArchive download.2).map fun members => members.map Zip.Member.data
      else some (saved.downloads.map Prod.snd)

end

section
variable {Hash : Type} {fetch : Hash → Option (List UInt8)} {collection : Collection Hash}

/-- An entry that is exported has an exportable name and the content of its hash. -/
theorem exportBytes_eq_ok {entry : String × Hash} {file : String × List UInt8}
    (h : exportBytes fetch entry = .ok file) :
    validateCollectionPath entry.1 = .ok () ∧ file.1 = entry.1 ∧ fetch entry.2 = some file.2 := by
  rw [exportBytes] at h
  cases hValid : validateCollectionPath entry.1 with
  | error message => simp [hValid, bind, Except.bind] at h
  | ok =>
      cases hBytes : fetch entry.2 with
      | none => simp [hValid, hBytes, bind, Except.bind] at h
      | some bytes =>
          simp only [hValid, hBytes, bind, Except.bind, pure, Except.pure, Except.ok.injEq] at h
          subst h
          exact ⟨rfl, rfl, rfl⟩

/-- A collection that is exported has only exportable names, and all its contents. -/
theorem exportCollectionBytes_eq_ok {files : List (String × List UInt8)}
    (h : exportCollectionBytes fetch collection = .ok files) :
    (∀ entry ∈ collection, validateCollectionPath entry.1 = .ok ()) ∧
      files.map Prod.fst = collection.map Prod.fst ∧
      files.map (fun file => some file.2) = collection.map fun entry => fetch entry.2 := by
  rw [exportCollectionBytes] at h
  cases hFiles : collection.mapM (exportBytes fetch) with
  | error message => simp [hFiles, bind, Except.bind] at h
  | ok found =>
      simp only [hFiles, bind, Except.bind, pure, Except.pure] at h
      split at h
      · cases h
      · obtain rfl := Except.ok.inj h
        have hEach := (forall₂_of_mapM hFiles).imp fun _ _ hOne => exportBytes_eq_ok hOne
        refine ⟨fun entry hEntry => ?_, ?_, ?_⟩
        · obtain ⟨file, -, hOne⟩ := exists_left_of_forall₂ hEach.flip hEntry
          exact hOne.1
        · rw [← List.forall₂_eq_eq_eq, List.forall₂_map_left_iff, List.forall₂_map_right_iff]
          exact hEach.flip.imp fun _ _ hOne => hOne.2.1
        · rw [← List.forall₂_eq_eq_eq, List.forall₂_map_left_iff, List.forall₂_map_right_iff]
          exact hEach.flip.imp fun _ _ hOne => hOne.2.2.symm

/-- Names and contents sent apart come together again. -/
theorem receivedFiles_unzip (files : List (String × List UInt8)) :
    receivedFiles (files.map Prod.fst) (files.map Prod.snd) =
      .ok (files.map fun file => ⟨file.1, file.2⟩) := by
  have hZip : List.zipWith ReceivedWebFile.mk (files.map Prod.fst) (files.map Prod.snd) =
      files.map fun file => ⟨file.1, file.2⟩ := by
    rw [List.zipWith_map, List.zipWith_self]
  rw [receivedFiles, if_neg (by simp), hZip]

/-- A collection that is not accepted as a whole is not saved at all. -/
theorem receiveFile_of_error {message : String} (h : exportCollectionBytes fetch collection = .error message)
    (cachedDirHandle : Option (Path × Option Bool)) (outcomes : Nat → SaveOutcome)
    (fs : WebFileSystem) :
    receiveFile fetch cachedDirHandle outcomes fs collection =
      ⟨⟨⟨fs, [], []⟩, [], .error (.error message)⟩, [], none⟩ := by
  rw [receiveFile, h]
  rfl

/-- Files that were written read back. -/
theorem mapM_written {save : WebSave} {targets : List Path} {files : List (Path × List UInt8)}
    (h : Holds save.fs targets files) :
    targets.mapM (fun target => match save.fs target with
      | some (.file content) => some content
      | _ => none) = some (files.map Prod.snd) := by
  induction h with
  | nil => rfl
  | @cons target file targets files hHead _ ih =>
      rw [List.mapM_cons, hHead, ih]
      rfl

/-- Where every look is answered, saving into a directory stores every file. -/
theorem contents_saveToDirectory {root : Path} {outcomes : Nat → SaveOutcome} {fs : WebFileSystem}
    {files : List ReceivedWebFile}
    (hLooks : LooksAnswered outcomes)
    (hNames : ∀ file ∈ files, ∀ part ∈ components file.name, IsPathComponent part)
    {result : WriteCollectionResult}
    (hOk : (saveToDirectory root outcomes fs files).result = .ok result) :
    (saveToDirectory root outcomes fs files).contents =
      some (files.map ReceivedWebFile.bytes) := by
  obtain ⟨-, done, left, hFiles, hLeft, hSaved, hLength⟩ :=
    saveToDirectory_spec root hLooks fs hNames
  have hNil := hLeft.mpr ⟨result, hOk⟩
  rw [hNil, List.append_nil] at hFiles
  subst hFiles
  have hHolds := hSaved.holds
  rw [List.length_map, ← hLength hNil, List.take_length] at hHolds
  have hContents := mapM_written hHolds
  rw [List.map_map] at hContents
  rw [WebSaved.contents, hOk, saveToDirectory_result hOk]
  exact hContents

/-- The numbers of the archive's fields have room for what is downloaded in it. -/
structure ArchiveFits (files : List ReceivedWebFile) (saved : WebSaved) : Prop where
  count : files.length ≤ 65535
  names : ∀ file ∈ files, (encode (normalizedPath file.name)).length ≤ 65535
  size : ∀ download ∈ saved.downloads, download.2.length < 2 ^ 32

theorem simpleSingleFile_singleton {files : List ReceivedWebFile} {file : ReceivedWebFile}
    (h : simpleSingleFile files = some file) : files = [file] := by
  rw [simpleSingleFile.eq_def] at h
  split at h
  · split at h
    · cases h
      rfl
    · cases h
  · cases h

/-- What the way of saving that was taken needs: a directory that the browser answers
every look, an archive that it is not too large. -/
structure SaveNeeds (outcomes : Nat → SaveOutcome) (files : List ReceivedWebFile)
    (saved : WebSaved) : Prop where
  looks : ∀ result, saved.result = .ok result → result.savedToDirectory = true →
    LooksAnswered outcomes
  fits : ∀ result, saved.result = .ok result → result.zippedDownload = true →
    ArchiveFits files saved

/-- Saving as a download stores every file, in an archive if its numbers fit. -/
theorem contents_saveAsDownload {outcomes : Nat → SaveOutcome} {fs : WebFileSystem}
    {files : List ReceivedWebFile} (hSome : files ≠ [])
    (hNeeds : SaveNeeds outcomes files (saveAsDownload fs files)) :
    (saveAsDownload fs files).contents = some (files.map ReceivedWebFile.bytes) := by
  cases hSimple : simpleSingleFile files with
  | some file =>
      rw [saveAsDownload, hSimple, simpleSingleFile_singleton hSimple]
      rfl
  | none =>
      have hEntries : (files.map fun file => ZipEntry.mk file.name file.bytes) ≠ [] := by
        simpa using hSome
      have hSaved : saveAsDownload fs files = ⟨⟨fs, [], []⟩,
          [(deriveZipDownloadName (files.map ReceivedWebFile.name), Zip.storeOnly
            ((files.map fun file => ZipEntry.mk file.name file.bytes).map ZipEntry.member))],
          .ok ⟨false, true, []⟩⟩ := by
        rw [saveAsDownload, hSimple]
        simp only [createStoreOnlyZip_eq hEntries]
      have hFits := hNeeds.fits ⟨false, true, []⟩ (by rw [hSaved]) rfl
      have hSize := hFits.size
      rw [hSaved, List.forall_mem_singleton] at hSize
      dsimp only at hSize
      have hMembers : ∀ m ∈ (files.map fun file => ZipEntry.mk file.name file.bytes).map
          ZipEntry.member, m.Fits := by
        intro m hMem
        have hData := Zip.length_data_le hMem
        rw [List.map_map] at hMem
        obtain ⟨file, hFile, rfl⟩ := List.mem_map.mp hMem
        have hName := hFits.names file hFile
        exact
          { name := by show (encode (normalizedPath file.name)).length < _; omega
            data := Nat.lt_of_le_of_lt hData hSize
            checksum := (bitwiseCrc32 file.bytes).isLt }
      have hCount : ((files.map fun file => ZipEntry.mk file.name file.bytes).map
          ZipEntry.member).length < 256 ^ 2 := by
        have := hFits.count
        simp only [List.length_map]
        omega
      have hRead := Zip.readArchive_storeOnly hMembers hCount hSize
      rw [hSaved]
      show (Zip.readArchive (Zip.storeOnly _)).map _ = _
      rw [hRead, Option.map_some, List.map_map, List.map_map]
      rfl

/-- Whatever way it is saved, what was received is there in full. -/
theorem contents_writeReceivedCollection {cachedDirHandle : Option (Path × Option Bool)}
    {outcomes : Nat → SaveOutcome} {fs : WebFileSystem} {files : List ReceivedWebFile}
    (hNames : ∀ file ∈ files, ∀ part ∈ components file.name, IsPathComponent part)
    {result : WriteCollectionResult}
    (hOk : (writeReceivedCollection cachedDirHandle outcomes fs files).result = .ok result)
    (hNeeds : SaveNeeds outcomes files
      (writeReceivedCollection cachedDirHandle outcomes fs files)) :
    (writeReceivedCollection cachedDirHandle outcomes fs files).contents =
      some (files.map ReceivedWebFile.bytes) := by
  have hSome : files ≠ [] := by
    rintro rfl
    cases hOk
  have hNotEmpty : ¬files.isEmpty = true := by simpa using hSome
  rcases cachedDirHandle with _ | ⟨root, _ | _ | _⟩
  · have hSaved : writeReceivedCollection none outcomes fs files = saveAsDownload fs files :=
      if_neg hNotEmpty
    rw [hSaved] at hNeeds ⊢
    exact contents_saveAsDownload hSome hNeeds
  · rw [show writeReceivedCollection (some (root, none)) outcomes fs files =
      ⟨⟨fs, [], []⟩, [], .error .dom⟩ from if_neg hNotEmpty] at hOk
    cases hOk
  · have hSaved : writeReceivedCollection (some (root, some false)) outcomes fs files =
      saveAsDownload fs files := if_neg hNotEmpty
    rw [hSaved] at hNeeds ⊢
    exact contents_saveAsDownload hSome hNeeds
  · have hSaved : writeReceivedCollection (some (root, some true)) outcomes fs files =
      saveToDirectory root outcomes fs files := if_neg hNotEmpty
    rw [hSaved] at hOk hNeeds ⊢
    have hTold := congrArg WriteCollectionResult.savedToDirectory (saveToDirectory_result hOk)
    exact contents_saveToDirectory (hNeeds.looks result hOk hTold) hNames hOk

end

section
variable {Hash : Type} {add : List UInt8 → Option (Blob Hash)} {collection : Collection Hash}
  {size : UInt64}

/-- An item that is accepted has a name and its bytes. -/
theorem parseSendItem_eq_ok {item : Option String × Option (List UInt8)}
    {parsed : String × List UInt8} (h : parseSendItem item = .ok parsed) :
    item = (some parsed.1, some parsed.2) := by
  obtain ⟨name, bytes⟩ := item
  rw [parseSendItem] at h
  dsimp only at h
  cases hName : name.filter (· ≠ "") with
  | none =>
      rw [hName] at h
      cases h
  | some text =>
      rw [hName] at h
      obtain ⟨rfl, -⟩ := Option.filter_eq_some_iff.mp hName
      cases bytes with
      | none => cases h
      | some content =>
          cases h
          rfl

/-- The items are those of the arrays. -/
theorem parseSendItems_eq_ok {names : List (Option String)} {bytesArray : List (Option (List UInt8))}
    {items : List (String × List UInt8)} (h : parseSendItems names bytesArray = .ok items) :
    names = items.map (fun item => some item.1) ∧
      bytesArray = items.map fun item => some item.2 := by
  rw [parseSendItems] at h
  split at h
  · cases h
  · next hLength =>
      have hSame : names.length = bytesArray.length := by simpa using hLength
      have hZip : names.zip bytesArray = items.map fun item => (some item.1, some item.2) := by
        rw [← List.forall₂_eq_eq_eq, List.forall₂_map_right_iff]
        exact (forall₂_of_mapM h).imp fun _ _ hOne => parseSendItem_eq_ok hOne
      have hNames := congrArg (List.map Prod.fst) hZip
      have hBytes := congrArg (List.map Prod.snd) hZip
      rw [List.map_fst_zip hSame.le, List.map_map] at hNames
      rw [List.map_snd_zip hSame.ge, List.map_map] at hBytes
      exact ⟨hNames, hBytes⟩

/-- The collection has the hashes of all items. -/
theorem importNamedBytesCollection_hashes {items : List (String × Option (Blob Hash))}
    (h : importNamedBytesCollection items = .ok (size, collection)) :
    (collection.map fun entry => some entry.2).Perm
      (items.map fun item => item.2.map Blob.hash) := by
  rw [importNamedBytesCollection] at h
  cases hAdded : addFiles items with
  | error e => simp [hAdded, bind, Except.bind] at h
  | ok added =>
      simp only [hAdded, bind, Except.bind, pure, Except.pure] at h
      split at h
      · cases h
      · have hEntries := (@foldl_push_entries Hash [] .empty (fun _ => rfl) added).1
        rw [hEntries] at h
        obtain ⟨-, rfl⟩ := Prod.mk.inj (Except.ok.inj h)
        rw [addFiles_eq_ok hAdded]
        have hSorted : (sortEntries (numberFrom [] added)).Perm (numberFrom [] added) :=
          List.perm_insertionSort _ _
        have hHashes := (hSorted.map Prod.snd).map fun blob => some blob.hash
        rw [values_numberFrom] at hHashes
        simpa [Imported.empty, Function.comp_def] using hHashes

/-- Either import keeps every item, and makes names that an export accepts of names
that it accepts, and only of those. -/
theorem importItems_eq_ok {entryType : String} {items : List (String × List UInt8)}
    (h : importItems add entryType items = .ok (size, collection)) :
    (collection.map fun entry => some entry.2).Perm
        (items.map fun item => (add item.2).map Blob.hash) ∧
      ((∀ entry ∈ collection, Exportable entry.1) ↔ ∀ item ∈ items, Exportable item.1) := by
  have hMany {named : List (String × List UInt8)}
      (hNamed : importNamedBytesCollection (named.map (Prod.map id add)) = .ok (size, collection)) :
      (collection.map fun entry => some entry.2).Perm
          (named.map fun item => (add item.2).map Blob.hash) ∧
        ((∀ entry ∈ collection, Exportable entry.1) ↔ ∀ item ∈ named, Exportable item.1) := by
    obtain ⟨acc, hNumbers, hNames⟩ := importNamedBytesCollection_eq_ok hNamed
    have hHashes := importNamedBytesCollection_hashes hNamed
    rw [List.map_map] at hHashes
    have hTaken := forall_exportable_of_taken fun x => hNames.mem_iff.trans (hNumbers.taken x)
    rw [List.map_map, List.forall_mem_map, List.forall_mem_map] at hTaken
    exact ⟨hHashes, hTaken⟩
  rw [importItems.eq_def] at h
  split at h
  · next fileName bytes =>
      split at h
      · cases hAdd : add bytes with
        | none =>
            rw [hAdd] at h
            cases h
        | some blob =>
            rw [hAdd] at h
            obtain ⟨-, rfl⟩ := Prod.mk.inj (Except.ok.inj h)
            simp [hAdd]
      · exact hMany h
  · exact hMany h

/-- Items that are sent were accepted one by one and imported under their names. -/
theorem sendItems_eq_ok {names : List (Option String)} {bytesArray : List (Option (List UInt8))}
    {entryType : String} (h : sendItems add names bytesArray entryType = .ok (size, collection)) :
    ∃ items, parseSendItems names bytesArray = .ok items ∧
      importItems add entryType items = .ok (size, collection) := by
  rw [sendItems] at h
  cases hItems : parseSendItems names bytesArray with
  | error e => simp [hItems, bind, Except.bind] at h
  | ok items =>
      refine ⟨items, rfl, ?_⟩
      simp only [hItems, bind, Except.bind] at h
      split at h
      · cases h
      · cases hImport : importItems add entryType items with
        | error e => simp [hImport, Except.mapError] at h
        | ok built =>
            rw [hImport] at h
            exact congrArg Except.ok (Except.ok.inj h)

/-- A `receive_file` that returns has everything saved. -/
theorem receiveFile_saved {fetch : Hash → Option (List UInt8)}
    {cachedDirHandle : Option (Path × Option Bool)} {outcomes : Nat → SaveOutcome}
    {fs : WebFileSystem}
    (hDone : (receiveFile fetch cachedDirHandle outcomes fs collection).message ≠ none) :
    ∃ files, exportCollectionBytes fetch collection = .ok files ∧
      .completed ∈ (receiveFile fetch cachedDirHandle outcomes fs collection).events ∧
      (SaveNeeds outcomes (files.map fun file => ⟨file.1, file.2⟩)
          (receiveFile fetch cachedDirHandle outcomes fs collection).saved →
        (receiveFile fetch cachedDirHandle outcomes fs collection).saved.contents =
          some (files.map Prod.snd)) := by
  cases hFiles : exportCollectionBytes fetch collection with
  | error message =>
      rw [receiveFile_of_error hFiles] at hDone
      exact absurd rfl hDone
  | ok files =>
      have hNames : ∀ file ∈ files.map fun file => ReceivedWebFile.mk file.1 file.2,
          ∀ part ∈ components file.name, IsPathComponent part := by
        intro file hFile
        obtain ⟨found, hFound, rfl⟩ := List.mem_map.mp hFile
        obtain ⟨hValid, hSame, -⟩ := exportCollectionBytes_eq_ok hFiles
        have hName : found.1 ∈ collection.map Prod.fst := hSame ▸ List.mem_map_of_mem hFound
        obtain ⟨entry, hEntry, hEq⟩ := List.mem_map.mp hName
        show ∀ part ∈ components found.1, IsPathComponent part
        rw [← hEq]
        exact validateCollectionPath_eq_ok.mp (hValid entry hEntry)
      rw [receiveFile, hFiles] at hDone ⊢
      simp only [bind, Except.bind, receivedFiles_unzip] at hDone ⊢
      refine ⟨files, rfl, ?_⟩
      cases hResult : (writeReceivedCollection cachedDirHandle outcomes fs
          (files.map fun file => ⟨file.1, file.2⟩)).result with
      | error e =>
          rw [hResult] at hDone
          exact absurd rfl hDone
      | ok result =>
          refine ⟨by simp, fun hNeeds => ?_⟩
          have hContents := contents_writeReceivedCollection hNames hResult hNeeds
          rw [List.map_map] at hContents
          exact hContents

/-- What one browser sends another one saves: once `receive_file` returns, the user
has the bytes of every item, into a directory as long as every look there is answered,
and in an archive as long as its fields have room; and unless the name of every item is
one that the export accepts, nothing is saved at all. -/
theorem browser_transfer_saves_all {fetch : Hash → Option (List UInt8)}
    (hStore : ∀ bytes blob, add bytes = some blob → fetch blob.hash = some bytes)
    {names : List (Option String)} {bytesArray : List (Option (List UInt8))} {entryType : String}
    (hSend : sendItems add names bytesArray entryType = .ok (size, collection))
    (cachedDirHandle : Option (Path × Option Bool)) (outcomes : Nat → SaveOutcome)
    (fs : WebFileSystem) :
    let received := receiveFile fetch cachedDirHandle outcomes fs collection
    (received.message ≠ none →
        (∀ files, exportCollectionBytes fetch collection = .ok files →
          SaveNeeds outcomes (files.map fun file => ⟨file.1, file.2⟩) received.saved) →
        ∃ contents, received.saved.contents = some contents ∧
          (contents.map some).Perm bytesArray) ∧
      ((∃ name, some name ∈ names ∧ validateCollectionPath name ≠ .ok ()) →
        received.saved.save = ⟨fs, [], []⟩ ∧ received.saved.downloads = [] ∧
          received.events = []) := by
  obtain ⟨items, hItems, hImport⟩ := sendItems_eq_ok hSend
  obtain ⟨hNames, hBytes⟩ := parseSendItems_eq_ok hItems
  obtain ⟨hHashes, hExportable⟩ := importItems_eq_ok hImport
  have hAccepted (name : String) : Exportable name ↔ validateCollectionPath name = .ok () := by
    rw [Files.exportable_iff, validateCollectionPath_eq_ok]
  refine ⟨fun hDone hNeeds => ?_, ?_⟩
  · obtain ⟨files, hFiles, -, hSaved⟩ := receiveFile_saved hDone
    refine ⟨files.map Prod.snd, hSaved (hNeeds files hFiles), ?_⟩
    obtain ⟨-, -, hContents⟩ := exportCollectionBytes_eq_ok hFiles
    have hFetched := hHashes.map fun hash => hash.bind fetch
    rw [List.map_map, List.map_map] at hFetched
    have hEach : ∀ item ∈ items, ((add item.2).map Blob.hash).bind fetch = some item.2 := by
      intro item hItem
      have hMem := hHashes.mem_iff.mpr (List.mem_map_of_mem hItem)
      obtain ⟨entry, -, hEntry⟩ := List.mem_map.mp hMem
      cases hAdd : add item.2 with
      | none =>
          rw [hAdd] at hEntry
          cases hEntry
      | some blob => exact hStore item.2 blob hAdd
    rw [hBytes, ← List.map_congr_left hEach, List.map_map]
    exact (List.Perm.of_eq hContents).trans hFetched
  · rintro ⟨name, hName, hRefused⟩
    have hNot : ¬∀ entry ∈ collection, validateCollectionPath entry.1 = .ok () := by
      intro hAll
      rw [hNames] at hName
      obtain ⟨item, hItem, hEq⟩ := List.mem_map.mp hName
      have hItemOk := hExportable.mp (fun entry hEntry => (hAccepted _).mpr (hAll entry hEntry))
        item hItem
      rw [← Option.some.inj hEq] at hRefused
      exact hRefused ((hAccepted _).mp hItemOk)
    cases hFiles : exportCollectionBytes fetch collection with
    | ok files => exact absurd (exportCollectionBytes_eq_ok hFiles).1 hNot
    | error message =>
        rw [receiveFile_of_error hFiles]
        exact ⟨rfl, rfl, rfl⟩

end

section

/-- A store that knows bytes by themselves. -/
private def bytesStore (bytes : List UInt8) : Option (Blob (List UInt8)) := some ⟨bytes, 1⟩

private def takenA : WebFileSystem := fun p =>
  if p = ["d"] then some .dir else if p = ["d", "a"] then some (.file [7]) else none

/-- Two items of one name, into a directory that has a file of that name. -/
theorem browser_transfer_saves_all_twice :
    let received := receiveFile some (some (["d"], some true))
      (fun _ => ⟨fun _ => true, .done⟩) takenA [("a", [1]), ("a (2)", [2])]
    ∃ contents, received.saved.contents = some contents ∧
      (contents.map some).Perm [some [1], some [2]] := by
  have hSend : sendItems bytesStore [some "a", some "a"] [some [1], some [2]] "collection" =
      .ok (2, [("a", [1]), ("a (2)", [2])]) := by decide
  have hStore : ∀ bytes blob, bytesStore bytes = some blob →
      some blob.hash = some bytes := by
    intro bytes blob hAdd
    rw [← Option.some.inj hAdd]
  have hSaved := browser_transfer_saves_all hStore hSend (some (["d"], some true))
    (fun _ => ⟨fun _ => true, .done⟩) takenA
  refine hSaved.1 (by decide +kernel) fun files hFiles =>
    ⟨fun _ _ _ _ _ => rfl, fun result hOk hZip => ?_⟩
  obtain rfl : result = ⟨true, false, [⟨"a", "a (1)"⟩]⟩ :=
    Except.ok.inj (hOk.symm.trans (by decide +kernel))
  cases hZip

end

end AltSendme.Frontend
