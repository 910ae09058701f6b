import AltSendme.Wire.Fields
import Mathlib.Tactic.Ring

/-! ZIP archives whose members are stored without compression. The reader knows
nothing of a writer: it looks for the end record from the back, walks the central
directory and follows each offset to a local header. -/
namespace Zip
open Wire

/-- What the local and the central header of a member both say. -/
structure FileHeader where
  version : Nat
  flags : Nat
  method : Nat
  time : Nat
  date : Nat
  checksum : Nat
  compressedSize : Nat
  size : Nat
  name : List UInt8
  deriving DecidableEq

/-- A member as a reader gets it. -/
structure Member where
  name : List UInt8
  data : List UInt8
  checksum : Nat
  deriving DecidableEq

structure EndRecord where
  count : Nat
  size : Nat
  offset : Nat

def localSignature : Nat := 0x04034b50
def centralSignature : Nat := 0x02014b50
def endSignature : Nat := 0x06054b50

section Reader

/-- The header and what follows its extra field. -/
def localOf : List Nat → List UInt8 → Option (FileHeader × List UInt8)
  | [signature, version, flags, method, time, date, checksum, compressedSize, size, nameLength,
      extraLength], rest =>
      if signature = localSignature ∧ nameLength + extraLength ≤ rest.length then
        some (⟨version, flags, method, time, date, checksum, compressedSize, size,
          rest.take nameLength⟩, rest.drop (nameLength + extraLength))
      else none
  | _, _ => none

def readLocal (bytes : List UInt8) : Option (FileHeader × List UInt8) :=
  (readFields [4, 2, 2, 2, 2, 2, 4, 4, 4, 2, 2] bytes).bind fun r => localOf r.1 r.2

/-- The header, where its local header is, and what follows its comment. -/
def centralOf : List Nat → List UInt8 → Option (FileHeader × Nat × List UInt8)
  | [signature, _madeBy, version, flags, method, time, date, checksum, compressedSize, size,
      nameLength, extraLength, commentLength, disk, _internal, _external, offset], rest =>
      if signature = centralSignature ∧ disk = 0 ∧
          nameLength + extraLength + commentLength ≤ rest.length then
        some (⟨version, flags, method, time, date, checksum, compressedSize, size,
          rest.take nameLength⟩, offset, rest.drop (nameLength + extraLength + commentLength))
      else none
  | _, _ => none

def readCentral (bytes : List UInt8) : Option (FileHeader × Nat × List UInt8) :=
  (readFields [4, 2, 2, 2, 2, 2, 2, 4, 4, 4, 2, 2, 2, 2, 2, 4, 4] bytes).bind fun r =>
    centralOf r.1 r.2

/-- An end record is the last thing in its file apart from its own comment, and
the directory it points to lies before it. -/
def endOf (position : Nat) : List Nat → List UInt8 → Option EndRecord
  | [signature, disk, firstDisk, here, count, size, offset, commentLength], rest =>
      if signature = endSignature ∧ disk = 0 ∧ firstDisk = 0 ∧ here = count ∧
          commentLength = rest.length ∧ offset + size ≤ position then
        some ⟨count, size, offset⟩
      else none
  | _, _ => none

def endRecordAt (archive : List UInt8) (position : Nat) : Option EndRecord :=
  (readFields [4, 2, 2, 2, 2, 4, 4, 2] (archive.drop position)).bind fun r =>
    endOf position r.1 r.2

/-- The end record nearest to the end of the file. -/
def findEndRecord (archive : List UInt8) : Option EndRecord :=
  (List.range (archive.length + 1 - 22)).reverse.findSome? (endRecordAt archive)

/-- The directory holds as many headers as the end record says, and nothing else. -/
def readDirectory : Nat → List UInt8 → Option (List (FileHeader × Nat))
  | 0, bytes => if bytes = [] then some [] else none
  | count + 1, bytes =>
      (readCentral bytes).bind fun r =>
        (readDirectory count r.2.2).map fun more => (r.1, r.2.1) :: more

/-- The member at an offset, if its local header is the one the directory shows and
its data is stored as it is. -/
def readMember (archive : List UInt8) (listed : FileHeader × Nat) : Option Member :=
  (readLocal (archive.drop listed.2)).bind fun r =>
    if r.1 = listed.1 ∧ r.1.method = 0 ∧ r.1.compressedSize = r.1.size ∧
        r.1.size ≤ r.2.length then
      some ⟨r.1.name, r.2.take r.1.size, r.1.checksum⟩
    else none

def readArchive (archive : List UInt8) : Option (List Member) :=
  (findEndRecord archive).bind fun last =>
    (readDirectory last.count ((archive.drop last.offset).take last.size)).bind fun directory =>
      directory.mapM (readMember archive)

end Reader

section Layout

def localFields (h : FileHeader) : List Field :=
  [⟨0, 4, localSignature⟩, ⟨4, 2, h.version⟩, ⟨6, 2, h.flags⟩, ⟨8, 2, h.method⟩,
    ⟨10, 2, h.time⟩, ⟨12, 2, h.date⟩, ⟨14, 4, h.checksum⟩, ⟨18, 4, h.compressedSize⟩,
    ⟨22, 4, h.size⟩, ⟨26, 2, h.name.length⟩, ⟨28, 2, 0⟩]

def centralFields (h : FileHeader) (offset : Nat) : List Field :=
  [⟨0, 4, centralSignature⟩, ⟨4, 2, 20⟩, ⟨6, 2, h.version⟩, ⟨8, 2, h.flags⟩, ⟨10, 2, h.method⟩,
    ⟨12, 2, h.time⟩, ⟨14, 2, h.date⟩, ⟨16, 4, h.checksum⟩, ⟨20, 4, h.compressedSize⟩,
    ⟨24, 4, h.size⟩, ⟨28, 2, h.name.length⟩, ⟨30, 2, 0⟩, ⟨32, 2, 0⟩, ⟨34, 2, 0⟩, ⟨36, 2, 0⟩,
    ⟨38, 4, 0⟩, ⟨42, 4, offset⟩]

def endFields (last : EndRecord) : List Field :=
  [⟨0, 4, endSignature⟩, ⟨4, 2, 0⟩, ⟨6, 2, 0⟩, ⟨8, 2, last.count⟩, ⟨10, 2, last.count⟩,
    ⟨12, 4, last.size⟩, ⟨16, 4, last.offset⟩, ⟨20, 2, 0⟩]

/-- The header of a member that is stored as it is. -/
def storedHeader (m : Member) : FileHeader :=
  ⟨20, 0, 0, 0, 0, m.checksum, m.data.length, m.data.length, m.name⟩

def localRecord (m : Member) : List UInt8 :=
  (localFields (storedHeader m)).flatMap Field.bytes ++ m.name

def centralRecord (m : Member) (offset : Nat) : List UInt8 :=
  (centralFields (storedHeader m) offset).flatMap Field.bytes ++ m.name

def endRecord (last : EndRecord) : List UInt8 := (endFields last).flatMap Field.bytes

def localRecords (members : List Member) : List UInt8 :=
  members.flatMap fun m => localRecord m ++ m.data

/-- The directory of members whose local headers start at `offset`. -/
def centralRecords : Nat → List Member → List UInt8
  | _, [] => []
  | offset, m :: members =>
      centralRecord m offset ++ centralRecords (offset + (localRecord m ++ m.data).length) members

/-- The archive of members that are stored as they are. -/
def storeOnly (members : List Member) : List UInt8 :=
  localRecords members ++ centralRecords 0 members ++
    endRecord ⟨members.length, (centralRecords 0 members).length, (localRecords members).length⟩

end Layout

theorem extent_localFields (h : FileHeader) : extent (localFields h) = 30 := by
  simp [extent, localFields]

theorem extent_centralFields (h : FileHeader) (offset : Nat) :
    extent (centralFields h offset) = 46 := by
  simp [extent, centralFields]

/-- Every number in a member's headers has room in its field. -/
structure Member.Fits (m : Member) : Prop where
  name : m.name.length < 256 ^ 2
  data : m.data.length < 256 ^ 4
  checksum : m.checksum < 256 ^ 4

/-- A local record reads back, whatever comes behind it. -/
theorem readLocal_record {m : Member} (h : m.Fits) (rest : List UInt8) :
    readLocal (localRecord m ++ rest) = some (storedHeader m, rest) := by
  have hFields := readFields_bytes (localFields (storedHeader m)) (m.name ++ rest)
  have hName := Nat.mod_eq_of_lt h.name
  have hData := Nat.mod_eq_of_lt h.data
  have hSum := Nat.mod_eq_of_lt h.checksum
  simp only [localFields, List.map_cons, List.map_nil, storedHeader, hName, hData, hSum]
    at hFields
  rw [readLocal, localRecord, List.append_assoc]
  simp only [localFields, storedHeader, hFields, Option.bind_some]
  simp [localOf, localSignature]

/-- A central record reads back, whatever comes behind it. -/
theorem readCentral_record {m : Member} {offset : Nat} (h : m.Fits) (hOffset : offset < 256 ^ 4)
    (rest : List UInt8) :
    readCentral (centralRecord m offset ++ rest) = some (storedHeader m, offset, rest) := by
  have hFields := readFields_bytes (centralFields (storedHeader m) offset) (m.name ++ rest)
  have hName := Nat.mod_eq_of_lt h.name
  have hData := Nat.mod_eq_of_lt h.data
  have hSum := Nat.mod_eq_of_lt h.checksum
  have hAt := Nat.mod_eq_of_lt hOffset
  simp only [centralFields, List.map_cons, List.map_nil, storedHeader, hName, hData, hSum, hAt]
    at hFields
  rw [readCentral, centralRecord, List.append_assoc]
  simp only [centralFields, storedHeader, hFields, Option.bind_some]
  simp [centralOf, centralSignature]

/-- The end record is read back where it stands at the end of a file. -/
theorem endRecordAt_endRecord {last : EndRecord} {body : List UInt8} (hCount : last.count < 256 ^ 2)
    (hBody : body.length < 256 ^ 4) (hInside : last.offset + last.size ≤ body.length) :
    endRecordAt (body ++ endRecord last) body.length = some last := by
  have hFields := readFields_bytes (endFields last) []
  have hCountMod := Nat.mod_eq_of_lt hCount
  have hSize : last.size % 256 ^ 4 = last.size := Nat.mod_eq_of_lt (by omega)
  have hOffset : last.offset % 256 ^ 4 = last.offset := Nat.mod_eq_of_lt (by omega)
  simp only [endFields, List.map_cons, List.map_nil, hCountMod, hSize, hOffset,
    List.append_nil] at hFields
  rw [endRecordAt, List.drop_left, endRecord]
  simp only [endFields, hFields, Option.bind_some]
  simp [endOf, endSignature, hInside]

theorem length_endRecord (last : EndRecord) : (endRecord last).length = 22 := by
  rw [endRecord, length_flatMap_bytes]
  simp [extent, endFields]

/-- The end record is found behind any body that its numbers fit. -/
theorem findEndRecord_endRecord {last : EndRecord} {body : List UInt8}
    (hCount : last.count < 256 ^ 2) (hBody : body.length < 256 ^ 4)
    (hInside : last.offset + last.size ≤ body.length) :
    findEndRecord (body ++ endRecord last) = some last := by
  have hRange : (body ++ endRecord last).length + 1 - 22 = body.length + 1 := by
    rw [List.length_append, length_endRecord]
    omega
  rw [findEndRecord, hRange, List.range_succ, List.reverse_append, List.reverse_singleton,
    List.singleton_append, List.findSome?_cons, endRecordAt_endRecord hCount hBody hInside]

/-- What the directory of members whose local headers start at `offset` lists. -/
def listing : Nat → List Member → List (FileHeader × Nat)
  | _, [] => []
  | offset, m :: members =>
      (storedHeader m, offset) :: listing (offset + (localRecord m ++ m.data).length) members

theorem localRecords_cons (m : Member) (members : List Member) :
    localRecords (m :: members) = localRecord m ++ m.data ++ localRecords members :=
  List.flatMap_cons

/-- No member is longer than the archive. -/
theorem length_data_le {m : Member} {members : List Member} (h : m ∈ members) :
    m.data.length ≤ (storeOnly members).length := by
  obtain ⟨before, after, rfl⟩ := List.append_of_mem h
  simp only [storeOnly, localRecords, List.flatMap_append, List.flatMap_cons, List.length_append]
  omega

/-- The directory reads back member for member, each at its offset. -/
theorem readDirectory_centralRecords {members : List Member} {offset : Nat}
    (hFits : ∀ m ∈ members, m.Fits)
    (hOffset : offset + (localRecords members).length < 256 ^ 4) :
    readDirectory members.length (centralRecords offset members) =
      some (listing offset members) := by
  induction members generalizing offset with
  | nil => rfl
  | cons m members ih =>
      rw [localRecords_cons, List.length_append, ← Nat.add_assoc] at hOffset
      have hMore := ih (fun m hMem => hFits m (List.mem_cons_of_mem _ hMem)) hOffset
      rw [List.length_cons, centralRecords, readDirectory,
        readCentral_record (hFits m List.mem_cons_self) (by omega), Option.bind_some, hMore]
      rfl

/-- A member reads back at the offset that the directory lists. -/
theorem readMember_listed {m : Member} (h : m.Fits) (before after : List UInt8) :
    readMember (before ++ (localRecord m ++ m.data ++ after)) (storedHeader m, before.length) =
      some m := by
  rw [readMember, List.drop_left, List.append_assoc, readLocal_record h, Option.bind_some]
  simp [storedHeader]

/-- Following every offset of the listing gives the members back. -/
theorem mapM_readMember {members : List Member} (hFits : ∀ m ∈ members, m.Fits)
    (before after : List UInt8) :
    (listing before.length members).mapM
        (readMember (before ++ localRecords members ++ after)) = some members := by
  induction members generalizing before with
  | nil => rfl
  | cons m members ih =>
      have hFirst := readMember_listed (hFits m List.mem_cons_self) before
        (localRecords members ++ after)
      have hMore := ih (fun m hMem => hFits m (List.mem_cons_of_mem _ hMem))
        (before ++ (localRecord m ++ m.data))
      rw [List.length_append] at hMore
      simp only [localRecords_cons, List.append_assoc] at hFirst hMore ⊢
      rw [listing, List.mapM_cons, hFirst, hMore]
      rfl

/-- A store-only archive gives its members back, as far as its numbers have room. -/
theorem readArchive_storeOnly {members : List Member} (hFits : ∀ m ∈ members, m.Fits)
    (hCount : members.length < 256 ^ 2) (hSize : (storeOnly members).length < 256 ^ 4) :
    readArchive (storeOnly members) = some members := by
  rw [storeOnly, List.length_append, List.length_append] at hSize
  have hLast := @findEndRecord_endRecord ⟨members.length, (centralRecords 0 members).length,
      (localRecords members).length⟩ (localRecords members ++ centralRecords 0 members) hCount
    (by rw [List.length_append]; omega) (by rw [List.length_append])
  have hDirectory := @readDirectory_centralRecords members 0 hFits (by omega)
  have hMembers := mapM_readMember hFits []
    (centralRecords 0 members ++ endRecord ⟨members.length, (centralRecords 0 members).length,
      (localRecords members).length⟩)
  rw [readArchive, storeOnly, hLast, Option.bind_some, List.append_assoc, List.drop_left,
    List.take_left, hDirectory, Option.bind_some]
  simpa only [List.nil_append, List.length_nil, List.append_assoc] using hMembers

section Positions

theorem localRecords_append (first second : List Member) :
    localRecords (first ++ second) = localRecords first ++ localRecords second :=
  List.flatMap_append

theorem centralRecords_append (offset : Nat) (first second : List Member) :
    centralRecords offset (first ++ second) =
      centralRecords offset first ++
        centralRecords (offset + (localRecords first).length) second := by
  induction first generalizing offset with
  | nil => simp [centralRecords, localRecords]
  | cons m first ih =>
      rw [List.cons_append, centralRecords, ih, centralRecords, localRecords_cons,
        @List.length_append _ _ (localRecords first), List.append_assoc, Nat.add_assoc]

/-- Any number of the local header of a member, found at its place. -/
theorem numberAt_local {before after : List Member} {m : Member} {field : Field}
    (hField : field ∈ localFields (storedHeader m)) :
    numberAt (storeOnly (before ++ m :: after)) ((localRecords before).length + field.offset)
      field.width = field.value % 256 ^ field.width := by
  have hContiguous : Contiguous 0 (localFields (storedHeader m)) := by
    simp [Contiguous, localFields]
  rw [storeOnly, localRecords_append, localRecords_cons, localRecord]
  simp only [List.append_assoc]
  exact numberAt_field rfl hContiguous hField _

/-- Any number of the header of a member in the central directory. -/
theorem numberAt_central {before after : List Member} {m : Member} {field : Field}
    (hField : field ∈ centralFields (storedHeader m) (localRecords before).length) :
    numberAt (storeOnly (before ++ m :: after))
      ((localRecords (before ++ m :: after)).length + (centralRecords 0 before).length +
        field.offset) field.width = field.value % 256 ^ field.width := by
  have hContiguous :
      Contiguous 0 (centralFields (storedHeader m) (localRecords before).length) := by
    simp [Contiguous, centralFields]
  have hBefore : (localRecords (before ++ m :: after) ++ centralRecords 0 before).length =
      (localRecords (before ++ m :: after)).length + (centralRecords 0 before).length + 0 :=
    List.length_append
  rw [storeOnly, centralRecords_append, centralRecords, centralRecord, Nat.zero_add]
  simp only [List.append_assoc]
  rw [← List.append_assoc (localRecords _)]
  exact numberAt_field hBefore hContiguous hField _

/-- Any number of the end record. -/
theorem numberAt_end {members : List Member} {field : Field}
    (hField : field ∈ endFields ⟨members.length, (centralRecords 0 members).length,
      (localRecords members).length⟩) :
    numberAt (storeOnly members)
      ((localRecords members).length + (centralRecords 0 members).length + field.offset)
      field.width = field.value % 256 ^ field.width := by
  have hContiguous : Contiguous 0 (endFields ⟨members.length, (centralRecords 0 members).length,
      (localRecords members).length⟩) := by
    simp [Contiguous, endFields]
  have hBefore : (localRecords members ++ centralRecords 0 members).length =
      (localRecords members).length + (centralRecords 0 members).length + 0 := List.length_append
  rw [storeOnly, endRecord, ← List.append_nil (List.flatMap _ _)]
  exact numberAt_field hBefore hContiguous hField []

end Positions

end Zip
