import AltSendme.Native.IdentityRotation
import Mathlib

/-! `paired-devices.json` as its bytes. `read_file` takes a text that is not a
device list for the empty list, and what an operation writes back then takes
the place of that text. -/
namespace AltSendme

/-- `serde_json` at `PairedDeviceList`, which reads what it has written. -/
structure DeviceListJson where
  fromStr : String → Option (List PairedDevice)
  toStringPretty : List PairedDevice → String
  fromStr_toStringPretty_isSome : ∀ devices, (fromStr (toStringPretty devices)).isSome = true

/-- The file and its temporary, where they exist. -/
structure StoreFiles where
  path : Option ByteArray
  tmp : Option ByteArray
  deriving DecidableEq

/-- What the file system answers to one operation. A write that fails leaves
something of its own in place of the temporary file. -/
structure StoreAnswers where
  opened : Bool
  created : Bool
  wrote : Except (Option ByteArray) Unit
  renamed : Bool

/-- No step of `write_file` fails. -/
def StoreAnswers.Replaces (a : StoreAnswers) : Prop :=
  a.created = true ∧ a.wrote.isOk = true ∧ a.renamed = true

instance (a : StoreAnswers) : Decidable a.Replaces := inferInstanceAs (Decidable (_ ∧ _))

inductive StoreError where
  | read
  | createDir
  | write
  | rename
  | message (text : String)
  deriving DecidableEq, Repr

inductive StoreReply where
  | devices (devices : List PairedDevice)
  | device (device : Option PairedDevice)
  | updated (count : Nat)
  deriving DecidableEq, Repr

/-- The operations of `PairedDeviceStore`, as they are called. -/
inductive StoreRequest where
  | list
  | get (endpointId : String)
  | remember (device : PairedDevice)
  | rename (endpointId displayName : String)
  | forget (endpointId : String)
  | touch (endpointId : String) (lastSeenAt : UInt64)
  | markUnpairedRemotely (endpointId : String)
  | markStaleAfterLocalIdentityRotation
  deriving DecidableEq, Repr

/-- What a call returns once it has written what it writes. -/
def StoreCall.reply (lower : String → String) (file : List PairedDevice) :
    StoreCall → Except StoreError StoreReply
  | .one op =>
      match (op.run lower file).reply with
      | .ok device => .ok (.device device)
      | .error text => .error (.message text)
  | .markStaleAfterLocalIdentityRotation =>
      .ok (.updated (file.countP (·.pairingStatus = .active)))

namespace StoreFiles
variable (json : DeviceListJson) (lower : String → String) (a : StoreAnswers)

/-- A missing file is an empty list, and so is a text that does not parse. -/
def readFile (files : StoreFiles) : Except StoreError (List PairedDevice) :=
  match files.path with
  | none => .ok []
  | some bytes =>
      if a.opened then
        match String.fromUTF8? bytes with
        | none => .error .read
        | some raw => .ok ((json.fromStr raw).getD [])
      else .error .read

def writeFile (files : StoreFiles) (list : List PairedDevice) :
    StoreFiles × Except StoreError Unit :=
  if a.created then
    match a.wrote with
    | .error left => ({ files with tmp := left }, .error .write)
    | .ok () =>
        let bytes := (json.toStringPretty list).toByteArray
        if a.renamed then (⟨some bytes, none⟩, .ok ())
        else ({ files with tmp := some bytes }, .error .rename)
  else (files, .error .createDir)

/-- Read, write where the call writes, and return. -/
def call (files : StoreFiles) (call : StoreCall) : StoreFiles × Except StoreError StoreReply :=
  match files.readFile json a with
  | .error e => (files, .error e)
  | .ok file =>
      match call.written lower file with
      | none => (files, call.reply lower file)
      | some list =>
          match files.writeFile json a list with
          | (files', .error e) => (files', .error e)
          | (files', .ok ()) => (files', call.reply lower file)

/-- One operation. The new name is judged before the file is read. -/
def perform (files : StoreFiles) : StoreRequest → StoreFiles × Except StoreError StoreReply
  | .list =>
      match files.readFile json a with
      | .error e => (files, .error e)
      | .ok file => (files, .ok (.devices file))
  | .get endpointId =>
      match files.readFile json a with
      | .error e => (files, .error e)
      | .ok file => (files, .ok (.device (PairedDeviceStore.get lower file endpointId)))
  | .rename endpointId displayName =>
      match normalizeDisplayName displayName with
      | .error text => (files, .error (.message text))
      | .ok normalized => files.call json lower a (.one (.rename endpointId normalized))
  | .remember device => files.call json lower a (.one (.remember device))
  | .forget endpointId => files.call json lower a (.one (.forget endpointId))
  | .touch endpointId lastSeenAt => files.call json lower a (.one (.touch endpointId lastSeenAt))
  | .markUnpairedRemotely endpointId =>
      files.call json lower a (.one (.markUnpairedRemotely endpointId))
  | .markStaleAfterLocalIdentityRotation =>
      files.call json lower a .markStaleAfterLocalIdentityRotation

end StoreFiles

/-- No device list: not even text, or a text that does not parse. -/
def DeviceListJson.Malformed (json : DeviceListJson) (bytes : ByteArray) : Prop :=
  ∀ raw, String.fromUTF8? bytes = some raw → json.fromStr raw = none

/-- What a request would put in the place of an empty list. -/
def StoreRequest.overEmpty : StoreRequest → Option (List PairedDevice)
  | .remember device => some [device]
  | .forget _ => some []
  | _ => none

section
variable {json : DeviceListJson} {lower : String → String} {a : StoreAnswers} {files : StoreFiles}
  {bytes : ByteArray}

@[simp] theorem fromUTF8?_toByteArray (text : String) : String.fromUTF8? text.toByteArray = some text := by
  rw [String.fromUTF8?, dif_pos text.isValidUTF8]
  rfl

/-- What the store writes parses, so it is never what could not be read. -/
theorem DeviceListJson.Malformed.ne_written (h : json.Malformed bytes)
    (list : List PairedDevice) : (json.toStringPretty list).toByteArray ≠ bytes := by
  rintro rfl
  have hNone := h _ (fromUTF8?_toByteArray _)
  have hSome := json.fromStr_toStringPretty_isSome list
  rw [hNone] at hSome
  cases hSome

namespace StoreFiles

theorem readFile_malformed (hFile : files.path = some bytes) (h : json.Malformed bytes) :
    files.readFile json a =
      if a.opened = true ∧ bytes.IsValidUTF8 then .ok [] else .error .read := by
  simp only [readFile, hFile]
  cases hOpened : a.opened with
  | false => simp
  | true =>
      cases hText : String.fromUTF8? bytes with
      | none =>
          have hInvalid : ¬bytes.IsValidUTF8 := by
            simpa [String.fromUTF8?] using hText
          simp [hInvalid]
      | some raw =>
          have hValid : bytes.IsValidUTF8 := by
            by_contra hInvalid
            simp [String.fromUTF8?, hInvalid] at hText
          simp [hValid, h raw hText]

theorem writeFile_path (list : List PairedDevice) :
    (files.writeFile json a list).1.path =
      if a.Replaces then some (json.toStringPretty list).toByteArray else files.path := by
  obtain ⟨opened, created, wrote, renamed⟩ := a
  cases created <;> cases wrote <;> cases renamed <;>
    simp [writeFile, StoreAnswers.Replaces, Except.isOk, Except.toBool]

/-- A call replaces the file by the list it makes of the one it read. -/
theorem call_path (c : StoreCall) :
    (files.call json lower a c).1.path =
      match files.readFile json a with
      | .error _ => files.path
      | .ok file =>
          match c.written lower file with
          | none => files.path
          | some list =>
              if a.Replaces then some (json.toStringPretty list).toByteArray else files.path := by
  rw [call]
  cases files.readFile json a with
  | error e => rfl
  | ok file =>
      dsimp only
      cases c.written lower file with
      | none => rfl
      | some list =>
          dsimp only
          rw [← writeFile_path]
          rcases files.writeFile json a list with ⟨files', _ | _⟩ <;> rfl

/-- A call on a file that does not parse acts on an empty list. -/
theorem call_path_malformed (hFile : files.path = some bytes) (h : json.Malformed bytes)
    (c : StoreCall) :
    (files.call json lower a c).1.path =
      match c.written lower [] with
      | none => some bytes
      | some list =>
          if a.opened = true ∧ bytes.IsValidUTF8 ∧ a.Replaces then
            some (json.toStringPretty list).toByteArray
          else some bytes := by
  rw [call_path, readFile_malformed hFile h, hFile]
  by_cases hRead : a.opened = true ∧ bytes.IsValidUTF8
  · rw [if_pos hRead]
    simp [hRead]
  · rw [if_neg hRead]
    cases c.written lower [] with
    | none => rfl
    | some list =>
        have hNot : ¬(a.opened = true ∧ bytes.IsValidUTF8 ∧ a.Replaces) :=
          fun hAll => hRead ⟨hAll.1, hAll.2.1⟩
        dsimp only
        rw [if_neg hNot]

/-- Only two operations write a list they made of nothing. -/
theorem perform_path_malformed (hFile : files.path = some bytes) (h : json.Malformed bytes)
    (request : StoreRequest) :
    (files.perform json lower a request).1.path =
      match request.overEmpty with
      | none => some bytes
      | some list =>
          if a.opened = true ∧ bytes.IsValidUTF8 ∧ a.Replaces then
            some (json.toStringPretty list).toByteArray
          else some bytes := by
  cases request with
  | list =>
      rw [perform]
      cases files.readFile json a <;> exact hFile
  | get endpointId =>
      rw [perform]
      cases files.readFile json a <;> exact hFile
  | rename endpointId displayName =>
      rw [perform]
      cases normalizeDisplayName displayName with
      | error text => exact hFile
      | ok normalized => exact call_path_malformed hFile h _
  | remember device => exact call_path_malformed hFile h _
  | forget endpointId => exact call_path_malformed hFile h _
  | touch endpointId lastSeenAt => exact call_path_malformed hFile h _
  | markUnpairedRemotely endpointId => exact call_path_malformed hFile h _
  | markStaleAfterLocalIdentityRotation => exact call_path_malformed hFile h _

end StoreFiles

/-- A file that is no device list stays as it is exactly when the operation is
not one that writes over an empty list, or the text is not read, or a step of
the write fails. -/
theorem unreadable_list_kept_iff (hFile : files.path = some bytes)
    (hMalformed : json.Malformed bytes) (request : StoreRequest) :
    (files.perform json lower a request).1.path = files.path ↔
      ¬(request.overEmpty.isSome = true ∧ a.opened = true ∧ bytes.IsValidUTF8 ∧ a.Replaces) := by
  rw [StoreFiles.perform_path_malformed hFile hMalformed, hFile]
  cases request.overEmpty with
  | none => simp
  | some list =>
      have hLost : some (json.toStringPretty list).toByteArray ≠ some bytes :=
        fun hSame => hMalformed.ne_written list (Option.some.inj hSame)
      dsimp only
      split
      · next hAll => simp [hLost, hAll]
      · next hNot => simpa using hNot

end

section
/-- Its one record has a status this version does not know. -/
private def newerList : String :=
  "\x7b\"devices\":[\x7b\"endpoint_id\":\"a1\",\"display_name\":\"Desk\",\"device_type\":" ++
    "\"desktop\",\"paired_at\":1,\"last_seen_at\":1,\"pairing_status\":\"archived\"\x7d]\x7d"

private def noDevices : String := "\x7b\n  \"devices\": []\n\x7d"

/-- The parser at the two texts that occur below. -/
private def newerJson : DeviceListJson where
  fromStr raw := if raw = newerList then none else some []
  toStringPretty _ := noDevices
  fromStr_toStringPretty_isSome _ := by decide

private def newerFiles : StoreFiles := ⟨some newerList.toByteArray, none⟩

private def allDone : StoreAnswers := ⟨true, true, .ok (), true⟩

private theorem newerList_malformed : newerJson.Malformed newerList.toByteArray := by
  intro raw hRaw
  rw [fromUTF8?_toByteArray, Option.some.injEq] at hRaw
  exact if_pos hRaw.symm

theorem unreadable_list_kept_iff_newerStatus :
    (newerFiles.perform newerJson String.toLowercase allDone (.touch "a1" 5)).1.path =
        newerFiles.path ∧
      (newerFiles.perform newerJson String.toLowercase allDone (.forget "b2")).1.path ≠
        newerFiles.path := by
  refine ⟨(unreadable_list_kept_iff rfl newerList_malformed _).mpr (by decide), ?_⟩
  intro hKept
  refine (unreadable_list_kept_iff rfl newerList_malformed _).mp hKept ?_
  exact ⟨rfl, rfl, newerList.isValidUTF8, by decide⟩

/-- Forgetting a device the file does not name leaves a list without devices. -/
theorem forget_empties_newer_list :
    newerJson.fromStr newerList = none ∧ newerFiles.path = some newerList.toByteArray ∧
      (newerFiles.perform newerJson String.toLowercase allDone (.forget "b2")).2.isOk = true ∧
      (newerFiles.perform newerJson String.toLowercase allDone (.forget "b2")).1.path =
        some noDevices.toByteArray := by
  decide +kernel

end

end AltSendme
