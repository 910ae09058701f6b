import AltSendme.Wire.Crc
import AltSendme.Wire.Zip

/-! The archive the browser downloads when it cannot write a directory
(`web-zip.ts`). Its parts are written field by field into zeroed buffers. -/
namespace AltSendme.Frontend
open Wire

structure ZipEntry where
  path : String
  bytes : List UInt8

section Checksum

def crcPolynomial : BitVec 32 := 0xedb88320#32

def crcTableStep (value : BitVec 32) : BitVec 32 :=
  if value &&& 1#32 ≠ 0#32 then crcPolynomial ^^^ (value >>> 1) else value >>> 1

def crcTable : Vector (BitVec 32) 256 :=
  Vector.ofFn fun index => crcTableStep^[8] (BitVec.ofNat 32 index)

def crcByte (crc : BitVec 32) (byte : UInt8) : BitVec 32 :=
  crcTable[((crc ^^^ byte.toBitVec.setWidth 32) &&& 0xff#32).toNat]! ^^^ (crc >>> 8)

def crc32 (bytes : List UInt8) : BitVec 32 :=
  bytes.foldl crcByte 0xffffffff#32 ^^^ 0xffffffff#32

/-- The check as it is defined on single bits, the lowest bit of a byte first. -/
def bitwiseCrc32 (bytes : List UInt8) : BitVec 32 :=
  Crc.checksum crcPolynomial (bytes.flatMap fun byte => Crc.lowBits 8 byte.toBitVec)

/-- The table's step is one shift of the reflected polynomial. -/
theorem crcTableStep_eq (value : BitVec 32) : crcTableStep value = Crc.step crcPolynomial value := by
  have hLow : value &&& 1#32 ≠ 0#32 ↔ value.getLsbD 0 = true := by
    rw [BitVec.and_one_eq_setWidth_ofBool_getLsbD]
    cases value.getLsbD 0 <;> decide
  simp only [crcTableStep, Crc.step, Crc.shiftBit, hLow, Bool.xor_false]

/-- The table holds eight shifts of its index. -/
theorem crcTable_getElem {value : BitVec 32} (h : value.toNat < 256) :
    crcTable[value.toNat]! = (Crc.step crcPolynomial)^[8] value := by
  have hStep : crcTableStep = Crc.step crcPolynomial := funext crcTableStep_eq
  rw [getElem!_pos crcTable value.toNat h, crcTable, Vector.getElem_ofFn, hStep, BitVec.ofNat_toNat,
    BitVec.setWidth_eq]

/-- One table look-up shifts a whole byte in, its lowest bit first. -/
theorem crcByte_eq (crc : BitVec 32) (byte : UInt8) :
    crcByte crc byte =
      (Crc.lowBits 8 byte.toBitVec).foldl (Crc.shiftBit crcPolynomial) crc := by
  have hMask : 0xff#32 = Crc.lowMask 8 := rfl
  have hShort : ((crc ^^^ byte.toBitVec.setWidth 32) &&& 0xff#32).toNat < 256 := by
    rw [BitVec.toNat_and]
    exact lt_of_le_of_lt Nat.and_le_right (by decide)
  have hHigh : byte.toBitVec.setWidth 32 >>> 8 = 0#32 := by
    apply BitVec.eq_of_toNat_eq
    have hByte := byte.toNat_lt
    simp
    omega
  rw [crcByte, crcTable_getElem hShort, hMask, Crc.table_step crcPolynomial crc hHigh,
    Crc.lowBits_setWidth (by decide)]

/-- The table gives what the single bits give. -/
theorem crc32_eq (bytes : List UInt8) : crc32 bytes = bitwiseCrc32 bytes := by
  have hFold (crc : BitVec 32) : bytes.foldl crcByte crc =
      (bytes.flatMap fun byte => Crc.lowBits 8 byte.toBitVec).foldl
        (Crc.shiftBit crcPolynomial) crc := by
    induction bytes generalizing crc with
    | nil => rfl
    | cons byte bytes ih =>
        rw [List.foldl_cons, ih, crcByte_eq, List.flatMap_cons, List.foldl_append]
  rw [crc32, hFold, bitwiseCrc32, Crc.checksum]
  exact BitVec.xor_allOnes

example : bitwiseCrc32 "123456789".toUTF8.toList = 0xcbf43926#32 := by decide +kernel

end Checksum

section Writing

/-- Replacing every backslash by a slash. -/
def normalizedPath (path : String) : String := path.map fun c => if c = '\\' then '/' else c

def encode (text : String) : List UInt8 := text.toUTF8.toList

def writeUint16LE (offset value : Nat) : Field := ⟨offset, 2, value⟩

def writeUint32LE (offset value : Nat) : Field := ⟨offset, 4, value⟩

/-- What a sequence of writes leaves of a buffer. -/
def written (buffer : List UInt8) (writes : List Field) : List UInt8 :=
  writes.foldl writeField buffer

def concatChunks (chunks : List (List UInt8)) : List UInt8 :=
  let total := chunks.foldl (fun sum chunk => sum + chunk.length) 0
  let output := List.replicate total 0
  (chunks.foldl
    (fun filled chunk => (setBytes filled.1 filled.2 chunk, filled.2 + chunk.length))
    (output, 0)).1

def buildLocalFileHeader (nameBytes : List UInt8) (crc size : Nat) : List UInt8 :=
  let header := written (List.replicate (30 + nameBytes.length) 0) [
    writeUint32LE 0 0x04034b50,
    writeUint16LE 4 20,
    writeUint16LE 6 0,
    writeUint16LE 8 0,
    writeUint16LE 10 0,
    writeUint16LE 12 0,
    writeUint32LE 14 crc,
    writeUint32LE 18 size,
    writeUint32LE 22 size,
    writeUint16LE 26 nameBytes.length,
    writeUint16LE 28 0]
  setBytes header 30 nameBytes

def buildCentralDirectoryHeader (nameBytes : List UInt8) (crc size offset : Nat) : List UInt8 :=
  let header := written (List.replicate (46 + nameBytes.length) 0) [
    writeUint32LE 0 0x02014b50,
    writeUint16LE 4 20,
    writeUint16LE 6 20,
    writeUint16LE 8 0,
    writeUint16LE 10 0,
    writeUint16LE 12 0,
    writeUint16LE 14 0,
    writeUint32LE 16 crc,
    writeUint32LE 20 size,
    writeUint32LE 24 size,
    writeUint16LE 28 nameBytes.length,
    writeUint16LE 30 0,
    writeUint16LE 32 0,
    writeUint16LE 34 0,
    writeUint16LE 36 0,
    writeUint32LE 38 0,
    writeUint32LE 42 offset]
  setBytes header 46 nameBytes

def buildEndOfCentralDirectory (entryCount centralSize centralOffset : Nat) : List UInt8 :=
  written (List.replicate 22 0) [
    writeUint32LE 0 0x06054b50,
    writeUint16LE 4 0,
    writeUint16LE 6 0,
    writeUint16LE 8 entryCount,
    writeUint16LE 10 entryCount,
    writeUint32LE 12 centralSize,
    writeUint32LE 16 centralOffset,
    writeUint16LE 20 0]

/-- What the loop over the entries has collected. -/
structure ZipChunks where
  localChunks : List (List UInt8) := []
  centralChunks : List (List UInt8) := []
  offset : Nat := 0

def ZipChunks.add (chunks : ZipChunks) (entry : ZipEntry) : ZipChunks :=
  let nameBytes := encode (normalizedPath entry.path)
  let checksum := (crc32 entry.bytes).toNat
  let size := entry.bytes.length
  let localHeader := buildLocalFileHeader nameBytes checksum size
  { localChunks := chunks.localChunks ++ [localHeader, entry.bytes]
    centralChunks := chunks.centralChunks ++
      [buildCentralDirectoryHeader nameBytes checksum size chunks.offset]
    offset := chunks.offset + (localHeader.length + size) }

def createStoreOnlyZip (entries : List ZipEntry) : Except String (List UInt8) :=
  if entries = [] then .error "ZIP archive requires at least one file"
  else
    let chunks := entries.foldl ZipChunks.add {}
    let centralDirectory := concatChunks chunks.centralChunks
    let endRecord :=
      buildEndOfCentralDirectory entries.length centralDirectory.length chunks.offset
    .ok (concatChunks (chunks.localChunks ++ [centralDirectory, endRecord]))

end Writing

section Records

/-- Copying the chunks one behind the other is concatenating them. -/
theorem concatChunks_eq (chunks : List (List UInt8)) : concatChunks chunks = chunks.flatten := by
  have hTotal (start : Nat) : chunks.foldl (fun sum chunk => sum + chunk.length) start =
      start + chunks.flatten.length := by
    induction chunks generalizing start with
    | nil => rfl
    | cons chunk chunks ih =>
        rw [List.foldl_cons, ih, List.flatten_cons, List.length_append, Nat.add_assoc]
  have hFilled := @foldl_setBytes [] chunks
  rw [concatChunks, hTotal, Nat.zero_add]
  exact hFilled

/-- Writes that follow one another, then a name, in a buffer of just that size. -/
theorem setBytes_written {writes : List Field} (h : Contiguous 0 writes) (name : List UInt8) :
    setBytes (written (List.replicate (extent writes + name.length) 0) writes) (extent writes) name =
      writes.flatMap Field.bytes ++ name := by
  have hWritten : written (List.replicate (extent writes + name.length) 0) writes =
      writes.flatMap Field.bytes ++ List.replicate (name.length + 0) 0 :=
    @foldl_writeField [] writes name.length h
  have hNext := setBytes_next (writes.flatMap Field.bytes) name 0
  rw [length_flatMap_bytes] at hNext
  rw [hWritten, hNext, List.replicate_zero, List.append_nil]

/-- The code's local header is the format's. -/
theorem buildLocalFileHeader_eq (m : Zip.Member) :
    buildLocalFileHeader m.name m.checksum m.data.length = Zip.localRecord m := by
  have hWrites : Contiguous 0 (Zip.localFields (Zip.storedHeader m)) := by
    simp [Contiguous, Zip.localFields]
  rw [Zip.localRecord, ← setBytes_written hWrites, Zip.extent_localFields]
  rfl

/-- The code's central header is the format's. -/
theorem buildCentralDirectoryHeader_eq (m : Zip.Member) (offset : Nat) :
    buildCentralDirectoryHeader m.name m.checksum m.data.length offset =
      Zip.centralRecord m offset := by
  have hWrites : Contiguous 0 (Zip.centralFields (Zip.storedHeader m) offset) := by
    simp [Contiguous, Zip.centralFields]
  rw [Zip.centralRecord, ← setBytes_written hWrites, Zip.extent_centralFields]
  rfl

/-- The code's end record is the format's. -/
theorem buildEndOfCentralDirectory_eq (last : Zip.EndRecord) :
    buildEndOfCentralDirectory last.count last.size last.offset = Zip.endRecord last := by
  have hWrites : Contiguous 0 (Zip.endFields last) := by
    simp [Contiguous, Zip.endFields]
  have hWritten := @foldl_writeField [] (Zip.endFields last) 0 hWrites
  rw [List.replicate_zero, List.append_nil] at hWritten
  exact hWritten

end Records

section Archive

/-- What a reader is to find of an entry. -/
def ZipEntry.member (entry : ZipEntry) : Zip.Member :=
  ⟨encode (normalizedPath entry.path), entry.bytes, (bitwiseCrc32 entry.bytes).toNat⟩

/-- One entry adds its local record, its bytes and its central record at the running offset.
-/
theorem ZipChunks.add_eq (chunks : ZipChunks) (entry : ZipEntry) :
    chunks.add entry =
      { localChunks := chunks.localChunks ++ [Zip.localRecord entry.member, entry.bytes]
        centralChunks := chunks.centralChunks ++
          [Zip.centralRecord entry.member chunks.offset]
        offset := chunks.offset + (Zip.localRecord entry.member ++ entry.bytes).length } := by
  rw [List.length_append, ← buildLocalFileHeader_eq, ← buildCentralDirectoryHeader_eq]
  simp only [ZipChunks.add, ZipEntry.member, crc32_eq]

/-- What the loop adds to what it has collected. -/
theorem foldl_add (entries : List ZipEntry) (chunks : ZipChunks) :
    let collected := entries.foldl ZipChunks.add chunks
    let members := entries.map ZipEntry.member
    collected.localChunks.flatten = chunks.localChunks.flatten ++ Zip.localRecords members ∧
      collected.centralChunks.flatten =
        chunks.centralChunks.flatten ++ Zip.centralRecords chunks.offset members ∧
      collected.offset = chunks.offset + (Zip.localRecords members).length := by
  induction entries generalizing chunks with
  | nil => simp [Zip.localRecords, Zip.centralRecords]
  | cons entry entries ih =>
      obtain ⟨hLocal, hCentral, hOffset⟩ := ih (chunks.add entry)
      have hData : entry.member.data = entry.bytes := rfl
      refine ⟨?_, ?_, ?_⟩
      · rw [List.foldl_cons, hLocal, chunks.add_eq, List.map_cons, Zip.localRecords_cons, hData]
        simp
      · rw [List.foldl_cons, hCentral, chunks.add_eq, List.map_cons, Zip.centralRecords, hData]
        simp
      · rw [List.foldl_cons, hOffset, chunks.add_eq, List.map_cons, Zip.localRecords_cons, hData,
          @List.length_append _ _ (Zip.localRecords _), Nat.add_assoc]

/-- For at least one entry the code writes the format's store-only archive. -/
theorem createStoreOnlyZip_eq {entries : List ZipEntry} (hSome : entries ≠ []) :
    createStoreOnlyZip entries = .ok (Zip.storeOnly (entries.map ZipEntry.member)) := by
  obtain ⟨hLocal, hCentral, hOffset⟩ := foldl_add entries {}
  simp only [List.flatten_nil, List.nil_append, Nat.zero_add] at hLocal hCentral hOffset
  rw [createStoreOnlyZip, if_neg hSome]
  simp only [concatChunks_eq, List.flatten_append, hLocal, hCentral, hOffset]
  rw [← List.length_map ZipEntry.member]
  simp [buildEndOfCentralDirectory_eq ⟨_, _, _⟩, Zip.storeOnly]

/-- An archive that fits the format's numbers gives every entry back: its name, its
bytes and the check of its bytes, the same in both headers. -/
theorem store_only_zip_readable (entries : List ZipEntry) (hSome : entries ≠ [])
    (hCount : entries.length ≤ 65535)
    (hNames : ∀ entry ∈ entries, (encode (normalizedPath entry.path)).length ≤ 65535) :
    ∃ archive, createStoreOnlyZip entries = .ok archive ∧
      (archive.length < 2 ^ 32 → Zip.readArchive archive = some (entries.map fun entry =>
        { name := encode (normalizedPath entry.path)
          data := entry.bytes
          checksum := (bitwiseCrc32 entry.bytes).toNat })) := by
  refine ⟨_, createStoreOnlyZip_eq hSome, ?_⟩
  intro hSize
  have hFits : ∀ m ∈ entries.map ZipEntry.member, m.Fits := by
    intro m hMem
    have hData := Zip.length_data_le hMem
    obtain ⟨entry, hEntry, rfl⟩ := List.mem_map.mp hMem
    have hName := hNames entry hEntry
    exact
      { name := by show (encode (normalizedPath entry.path)).length < _; omega
        data := by omega
        checksum := (bitwiseCrc32 entry.bytes).isLt }
  have hMembers : (entries.map ZipEntry.member).length < 256 ^ 2 := by
    rw [List.length_map]
    omega
  exact Zip.readArchive_storeOnly hFits hMembers hSize

/-- Two files of a directory, one of them empty. -/
def sampleEntries : List ZipEntry :=
  [⟨"docs\\a.txt", [104, 105]⟩, ⟨"docs/\u00e9", []⟩]

theorem store_only_zip_readable_sample :
    ∃ archive, createStoreOnlyZip sampleEntries = .ok archive ∧ archive.length < 2 ^ 32 ∧
      Zip.readArchive archive = some
        (sampleEntries.map fun entry =>
          { name := encode (normalizedPath entry.path)
            data := entry.bytes
            checksum := (bitwiseCrc32 entry.bytes).toNat }) := by
  obtain ⟨archive, hArchive, hRead⟩ := store_only_zip_readable sampleEntries
    (by simp [sampleEntries]) (by decide) (by decide +kernel)
  have hLength : (createStoreOnlyZip sampleEntries).map List.length = .ok 210 := by decide +kernel
  rw [hArchive] at hLength
  have hSmall : archive.length < 2 ^ 32 := by
    rw [Except.ok.inj hLength]
    decide
  exact ⟨archive, hArchive, hSmall, hRead hSmall⟩

end Archive

end AltSendme.Frontend
