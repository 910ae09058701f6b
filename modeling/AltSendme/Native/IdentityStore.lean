import AltSendme.Protocol.PairingAuth
import AltSendme.Wire.Trimming

/-! The node's secret (`identity_store.rs`): an environment override, the
identity file and the OS keychain. The keychain is another program, so each
access to it may be answered with anything. -/
namespace AltSendme

/-- `iroh::SecretKey`, as its bytes. -/
structure SecretKey where
  toBytes : List UInt8
  length_eq : toBytes.length = 32
  deriving DecidableEq

inductive SecretSource where
  | envVar
  | identityFile
  | keychainMigrated
  | generated
  deriving DecidableEq, Repr

structure SecretLoadOutcome where
  secret : SecretKey
  source : SecretSource
  deriving DecidableEq

/-- Why no secret was loaded. `crashed` is the end of the process: no caller sees it. -/
inductive SecretError where
  | io (context : String)
  | invalidSecretHex
  | secretLength (text : String)
  | keyring (context : String)
  | crashed
  deriving DecidableEq, Repr

/-- `char::is_whitespace` -/
def isWhitespace (c : Char) : Bool :=
  [0x20, 0x85, 0xA0, 0x1680, 0x2028, 0x2029, 0x202F, 0x205F, 0x3000].contains c.toNat ||
    (9 ≤ c.toNat && c.toNat ≤ 13) || (0x2000 ≤ c.toNat && c.toNat ≤ 0x200A)

/-- `str::trim` -/
def trim (text : String) : String :=
  String.ofList ((text.toList.dropWhile isWhitespace).reverse.dropWhile isWhitespace).reverse

theorem trim_eq (text : String) :
    trim text = String.ofList (Trimming.trim isWhitespace text.toList) := rfl

theorem trim_trim (text : String) : trim (trim text) = trim text := by
  rw [trim_eq (trim text), trim_eq text, String.toList_ofList, Trimming.trim_trim]

/-- White space around a text that has none at its own ends. -/
theorem trim_padded {before text after : String}
    (hBefore : ∀ c ∈ before.toList, isWhitespace c = true)
    (hAfter : ∀ c ∈ after.toList, isWhitespace c = true)
    (hFirst : ∀ c ∈ text.toList.head?, isWhitespace c = false)
    (hLast : ∀ c ∈ text.toList.getLast?, isWhitespace c = false) :
    trim (before ++ text ++ after) = text := by
  rw [trim_eq, String.toList_append, String.toList_append, List.append_assoc,
    Trimming.trim_append hBefore hAfter, Trimming.trim_eq_self hFirst hLast, String.ofList_toList]

def parseSecretBytes (bytes : List UInt8) : Except SecretError SecretKey :=
  if h : bytes.length = 32 then .ok ⟨bytes, h⟩
  else
    let got := bytes.length
    .error (.secretLength s!"identity key must be 32 bytes, got {got}")

def parseSecretHex (hex : String) : Except SecretError SecretKey :=
  match HexLower.decode (trim hex) with
  | none => .error .invalidSecretHex
  | some bytes => parseSecretBytes bytes

def secretsEqual (a b : SecretKey) : Bool := a.toBytes == b.toBytes

/-! The keychain entry (`secret_store.rs`). On Android there is none, and no access is made. -/

/-- What `get_password` is answered with. -/
inductive Password where
  | value (hex : String)
  | noEntry
  | failed
  deriving DecidableEq, Repr

structure KeychainLoad where
  entry : Bool
  password : Password
  deriving DecidableEq, Repr

structure KeychainSave where
  entry : Bool
  saved : Bool
  deriving DecidableEq, Repr

def loadSecretHex (android : Bool) (answer : KeychainLoad) : Except SecretError (Option String) :=
  if android then .ok none
  else if answer.entry then
    match answer.password with
    | .value hex => .ok (some hex)
    | .noEntry => .ok none
    | .failed => .error (.keyring "get password")
  else .error (.keyring "keyring entry")

def saveSecretHex (android : Bool) (answer : KeychainSave) : Except SecretError Unit :=
  if android then .ok ()
  else if answer.entry then
    if answer.saved then .ok () else .error (.keyring "failed to save secret to keyring")
  else .error (.keyring "keyring entry")

/-- The answers to the accesses one start makes. -/
structure Keychain where
  load : KeychainLoad
  save : KeychainSave
  deriving DecidableEq, Repr

/-- The data directory, and what reading `identity.key` gives where it exists. -/
structure KeyDisk where
  present : Bool
  identityKey : Option (Except SecretError (List UInt8))
  present_of_isSome : identityKey.isSome = true → present = true

namespace KeyDisk

/-- `create_dir_all`, which does nothing to a directory that is there. -/
def createDirAll (disk : KeyDisk) (created : Bool) : Except SecretError KeyDisk :=
  if disk.present then .ok disk
  else if created then .ok { disk with present := true, present_of_isSome := fun _ => rfl }
  else .error (.io "create")

def replaceKey (disk : KeyDisk) (h : disk.present = true) (secret : SecretKey) : KeyDisk :=
  { disk with identityKey := some (.ok secret.toBytes), present_of_isSome := fun _ => h }

end KeyDisk

/-- How the write to the temporary file and its rename go. Where the process
ends among them, `replaced` says whether the rename was reached. -/
inductive FileWrite where
  | done
  | failed
  | crashed (replaced : Bool)
  deriving DecidableEq, Repr

/-- Everything one call is answered with from outside. -/
structure SecretAnswers where
  created : Bool
  irohSecret : Option String
  keychain : Keychain
  generated : SecretKey
  write : FileWrite
  restricted : Bool
  deriving DecidableEq

/-- A call of `load_or_create_secret`: what it left on disk, what it returned,
and the secret it handed to the keychain. -/
structure SecretLoad where
  disk : KeyDisk
  result : Except SecretError SecretLoadOutcome
  synced : Option String

/-- A file that is not 32 bytes long counts as none. -/
def readIdentityFile (disk : KeyDisk) : Except SecretError (Option SecretKey) :=
  match disk.identityKey with
  | none => .ok none
  | some (.error e) => .error e
  | some (.ok bytes) => .ok (parseSecretBytes bytes).toOption

def readKeychainSecret (android : Bool) (answer : KeychainLoad) :
    Except SecretError (Option SecretKey) :=
  match loadSecretHex android answer with
  | .error e => .error e
  | .ok none => .ok none
  | .ok (some hex) => .ok (parseSecretHex hex).toOption

/-- Whatever comes of it is ignored, as is the entry that is read back after it. -/
def syncKeychainBestEffort (android : Bool) (keychain : Keychain) (secret : SecretKey) :
    Option String :=
  let hex := HexLower.encode secret.toBytes
  match saveSecretHex android keychain.save with
  | .error _ => none
  | .ok () => some hex

/-- After the rename the permissions are set once more. -/
def writeIdentityFile (a : SecretAnswers) (disk : KeyDisk) (secret : SecretKey) :
    KeyDisk × Except SecretError Unit :=
  match disk.createDirAll a.created with
  | .error e => (disk, .error e)
  | .ok made =>
      if h : made.present = true then
        match a.write with
        | .failed => (made, .error (.io "write"))
        | .crashed false => (made, .error .crashed)
        | .crashed true => (made.replaceKey h secret, .error .crashed)
        | .done =>
            (made.replaceKey h secret, if a.restricted then .ok () else .error (.io "permissions"))
      else (made, .error (.io "write"))

/-- Write a new identity and tell the keychain. -/
def storeSecret (android : Bool) (a : SecretAnswers) (disk : KeyDisk) (secret : SecretKey)
    (source : SecretSource) : SecretLoad :=
  match writeIdentityFile a disk secret with
  | (disk, .error e) => ⟨disk, .error e, none⟩
  | (disk, .ok ()) =>
      ⟨disk, .ok ⟨secret, source⟩, syncKeychainBestEffort android a.keychain secret⟩

def loadOrCreateSecret (android : Bool) (a : SecretAnswers) (disk : KeyDisk) : SecretLoad :=
  match disk.createDirAll a.created with
  | .error e => ⟨disk, .error e, none⟩
  | .ok disk =>
      match a.irohSecret with
      | some hex => ⟨disk, (parseSecretHex hex).map fun secret => ⟨secret, .envVar⟩, none⟩
      | none =>
          match readIdentityFile disk with
          | .error e => ⟨disk, .error e, none⟩
          | .ok fileSecret =>
              match readKeychainSecret android a.keychain.load with
              | .error e => ⟨disk, .error e, none⟩
              | .ok keychainSecret =>
                  match fileSecret, keychainSecret with
                  | some file, some keychain =>
                      if secretsEqual file keychain then ⟨disk, .ok ⟨file, .identityFile⟩, none⟩
                      else ⟨disk, .ok ⟨file, .identityFile⟩,
                        syncKeychainBestEffort android a.keychain file⟩
                  | some file, none =>
                      ⟨disk, .ok ⟨file, .identityFile⟩,
                        syncKeychainBestEffort android a.keychain file⟩
                  | none, some keychain => storeSecret android a disk keychain .keychainMigrated
                  | none, none => storeSecret android a disk a.generated .generated

/-- The keychain can be asked at all: an entry that is missing, malformed or
another secret is an answer, an access error is none. -/
def KeychainLoad.Readable (android : Bool) (answer : KeychainLoad) : Prop :=
  android = true ∨ answer.entry = true ∧ answer.password ≠ .failed

instance (android : Bool) (answer : KeychainLoad) : Decidable (answer.Readable android) :=
  inferInstanceAs (Decidable (_ ∨ _))

theorem readKeychainSecret_ok_iff {android : Bool} {answer : KeychainLoad} :
    (∃ secret, readKeychainSecret android answer = .ok secret) ↔ answer.Readable android := by
  unfold readKeychainSecret loadSecretHex KeychainLoad.Readable
  cases android with
  | true => simp
  | false =>
      cases hEntry : answer.entry with
      | false => simp
      | true => cases hPassword : answer.password <;> simp

@[simp] theorem parseSecretBytes_toBytes (secret : SecretKey) :
    parseSecretBytes secret.toBytes = .ok secret := by
  rw [parseSecretBytes, dif_pos secret.length_eq]

/-- With a valid file the call leaves the disk alone, and returns the file's
secret unless the keychain cannot be asked. -/
theorem loadOrCreateSecret_of_file {android : Bool} {a : SecretAnswers} {disk : KeyDisk}
    {secret : SecretKey} (hEnv : a.irohSecret = none)
    (hFile : disk.identityKey = some (.ok secret.toBytes)) :
    (loadOrCreateSecret android a disk).disk = disk ∧
      if a.keychain.load.Readable android then
        (loadOrCreateSecret android a disk).result = .ok ⟨secret, .identityFile⟩
      else ∃ e, (loadOrCreateSecret android a disk).result = .error e := by
  have hPresent : disk.present = true := disk.present_of_isSome (by rw [hFile]; rfl)
  have hMade : disk.createDirAll a.created = .ok disk := by rw [KeyDisk.createDirAll, if_pos hPresent]
  have hRead : readIdentityFile disk = .ok (some secret) := by
    simp [readIdentityFile, hFile, Except.toOption]
  simp only [loadOrCreateSecret, hMade, hEnv, hRead]
  cases hKeychain : readKeychainSecret android a.keychain.load with
  | error e =>
      have hLocked : ¬a.keychain.load.Readable android := by
        rw [← readKeychainSecret_ok_iff, hKeychain]
        rintro ⟨_, h⟩
        cases h
      rw [if_neg hLocked]
      exact ⟨rfl, e, rfl⟩
  | ok keychainSecret =>
      rw [if_pos (readKeychainSecret_ok_iff.mp ⟨_, hKeychain⟩)]
      cases keychainSecret with
      | none => exact ⟨rfl, rfl⟩
      | some keychain =>
          dsimp only
          split <;> exact ⟨rfl, rfl⟩

/-- The calls of successive starts on one directory. -/
def loadSecrets (android : Bool) (disk : KeyDisk) : List SecretAnswers → List SecretLoad
  | [] => []
  | a :: rest =>
      let load := loadOrCreateSecret android a disk
      load :: loadSecrets android load.disk rest

/-- With a valid identity file and no override, every start returns the
file's secret and leaves the file alone exactly when no start meets a keychain
that it cannot access. Whatever the keychains answer, the file stays and no
start returns another secret: the endpoint id never changes. -/
theorem identity_file_is_truth_iff {EndpointId : Type} (publicKey : SecretKey → EndpointId)
    (android : Bool) (disk : KeyDisk) (secret : SecretKey)
    (hFile : disk.identityKey = some (.ok secret.toBytes)) (starts : List SecretAnswers)
    (hEnv : ∀ a ∈ starts, a.irohSecret = none) :
    ((∀ load ∈ loadSecrets android disk starts,
        load.result = .ok ⟨secret, .identityFile⟩ ∧ load.disk = disk) ↔
      ∀ a ∈ starts, a.keychain.load.Readable android) ∧
    ∀ load ∈ loadSecrets android disk starts, load.disk = disk ∧
      ∀ outcome, load.result = .ok outcome → publicKey outcome.secret = publicKey secret := by
  induction starts with
  | nil => simp [loadSecrets]
  | cons a rest ih =>
      obtain ⟨hDisk, hResult⟩ := @loadOrCreateSecret_of_file android _ _ _
        (hEnv a List.mem_cons_self) hFile
      obtain ⟨ihAll, ihSame⟩ := ih fun b hb => hEnv b (List.mem_cons_of_mem a hb)
      simp only [loadSecrets, List.forall_mem_cons, hDisk]
      by_cases hReadable : a.keychain.load.Readable android
      · rw [if_pos hReadable] at hResult
        refine ⟨?_, ⟨trivial, ?_⟩, ihSame⟩
        · rw [ihAll, hResult]
          simp [hReadable]
        · intro outcome hOk
          rw [hResult, Except.ok.injEq] at hOk
          rw [← hOk]
      · rw [if_neg hReadable] at hResult
        obtain ⟨e, hError⟩ := hResult
        refine ⟨?_, ⟨trivial, ?_⟩, ihSame⟩
        · rw [hError]
          simp [hReadable]
        · intro outcome hOk
          rw [hError] at hOk
          cases hOk

/-- 32 bytes that are a secret, and a start on a desktop whose keychain answers `password`. -/
def exampleSecret (b : UInt8) : SecretKey := ⟨List.replicate 32 b, by simp⟩

def startWith (password : Password) : SecretAnswers :=
  ⟨true, none, ⟨⟨true, password⟩, ⟨true, true⟩⟩, exampleSecret 9, .done, true⟩

def keptSecret : KeyDisk := ⟨true, some (.ok (exampleSecret 7).toBytes), fun _ => rfl⟩

/-- Starts that find another secret in the keychain and no entry in it. -/
def otherSecret : List SecretAnswers :=
  [startWith (.value (HexLower.encode (exampleSecret 5).toBytes)), startWith .noEntry]

theorem identity_file_is_truth_iff_otherSecret : ∃ first second,
    loadSecrets false keptSecret otherSecret = [first, second] ∧
      first.result = .ok ⟨exampleSecret 7, .identityFile⟩ ∧
      second.result = .ok ⟨exampleSecret 7, .identityFile⟩ := by
  have hAll := (identity_file_is_truth_iff id false keptSecret (exampleSecret 7) rfl otherSecret
    (by simp [otherSecret, startWith])).1.mpr
    (by simp [otherSecret, startWith, KeychainLoad.Readable])
  refine ⟨_, _, rfl, (hAll _ ?_).1, (hAll _ ?_).1⟩
  · exact List.mem_cons_self
  · exact List.mem_cons_of_mem _ List.mem_cons_self

/-- A locked keychain: the valid file is not used and the start has no secret. -/
theorem identity_file_not_enough :
    ¬∀ (disk : KeyDisk) (secret : SecretKey) (a : SecretAnswers), a.irohSecret = none →
      disk.identityKey = some (.ok secret.toBytes) →
      (loadOrCreateSecret false a disk).result = .ok ⟨secret, .identityFile⟩ ∧
        (loadOrCreateSecret false a disk).disk = disk := by
  intro h
  have hStart := (h keptSecret (exampleSecret 7) (startWith .failed) rfl rfl).1
  have hLocked : (loadOrCreateSecret false (startWith .failed) keptSecret).result =
      .error (.keyring "get password") := by decide
  rw [hLocked] at hStart
  cases hStart

end AltSendme
