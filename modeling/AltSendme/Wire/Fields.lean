import Mathlib.Data.Nat.Init
import Mathlib.Data.List.Basic
import Mathlib.Algebra.Ring.Nat

/-! Records of little-endian fields at fixed offsets. A writer fills a zeroed
buffer field by field; a reader takes the same widths one after another. -/
namespace Wire

/-- The low `width` bytes of `n`, least significant first. -/
def toLeBytes : Nat → Nat → List UInt8
  | 0, _ => []
  | width + 1, n => UInt8.ofNat n :: toLeBytes width (n / 256)

def fromLeBytes : List UInt8 → Nat
  | [] => 0
  | b :: bytes => b.toNat + 256 * fromLeBytes bytes

@[simp] theorem length_toLeBytes (width n : Nat) : (toLeBytes width n).length = width := by
  induction width generalizing n with
  | zero => rfl
  | succ width ih => simp [toLeBytes, ih]

theorem fromLeBytes_toLeBytes (width n : Nat) :
    fromLeBytes (toLeBytes width n) = n % 256 ^ width := by
  induction width generalizing n with
  | zero => simp [toLeBytes, fromLeBytes, Nat.mod_one]
  | succ width ih =>
      have hByte : (UInt8.ofNat n).toNat = n % 256 := UInt8.toNat_ofNat'
      rw [toLeBytes, fromLeBytes, ih, hByte, Nat.pow_succ', Nat.mod_mul]

/-- A number that stands in a record, where it starts and how wide it is. -/
structure Field where
  offset : Nat
  width : Nat
  value : Nat

def Field.bytes (field : Field) : List UInt8 := toLeBytes field.width field.value

@[simp] theorem Field.length_bytes (field : Field) : field.bytes.length = field.width :=
  length_toLeBytes _ _

/-- Overwrite a stretch of a buffer. -/
def setBytes (buffer : List UInt8) (offset : Nat) (bytes : List UInt8) : List UInt8 :=
  buffer.take offset ++ bytes ++ buffer.drop (offset + bytes.length)

def writeField (buffer : List UInt8) (field : Field) : List UInt8 :=
  setBytes buffer field.offset field.bytes

/-- Each field starts where the one before it ends. -/
def Contiguous : Nat → List Field → Prop
  | _, [] => True
  | start, field :: fields => field.offset = start ∧ Contiguous (start + field.width) fields

def extent (fields : List Field) : Nat := (fields.map Field.width).sum

@[simp] theorem length_flatMap_bytes (fields : List Field) :
    (fields.flatMap Field.bytes).length = extent fields := by
  simp [List.length_flatMap, extent]

/-- What is written right after the finished part of a zeroed buffer extends it. -/
theorem setBytes_next (done bytes : List UInt8) (k : Nat) :
    setBytes (done ++ List.replicate (bytes.length + k) 0) done.length bytes =
      done ++ bytes ++ List.replicate k 0 := by
  rw [setBytes, List.take_left, List.drop_append, List.drop_eq_nil_of_le (by omega),
    List.nil_append, List.drop_replicate]
  congr 2
  omega

theorem foldl_writeField {done : List UInt8} {fields : List Field} (k : Nat)
    (h : Contiguous done.length fields) :
    fields.foldl writeField (done ++ List.replicate (extent fields + k) 0) =
      done ++ fields.flatMap Field.bytes ++ List.replicate k 0 := by
  induction fields generalizing done with
  | nil => simp [extent]
  | cons field fields ih =>
      obtain ⟨hOffset, hMore⟩ := h
      have hRoom : extent (field :: fields) + k = field.bytes.length + (extent fields + k) := by
        simp [extent, Nat.add_assoc]
      have hNext : Contiguous (done ++ field.bytes).length fields := by
        simpa using hMore
      rw [List.foldl_cons, writeField, hOffset, hRoom, setBytes_next, ih hNext,
        List.flatMap_cons, List.append_assoc done]

/-- One chunk after another into a zeroed buffer of their total length. -/
theorem foldl_setBytes {done : List UInt8} (chunks : List (List UInt8)) :
    (chunks.foldl (fun buffer chunk => (setBytes buffer.1 buffer.2 chunk, buffer.2 + chunk.length))
        (done ++ List.replicate chunks.flatten.length 0, done.length)).1 =
      done ++ chunks.flatten := by
  induction chunks generalizing done with
  | nil => simp
  | cons chunk chunks ih =>
      rw [List.foldl_cons, List.flatten_cons, List.length_append, setBytes_next,
        ← List.length_append, ih, List.append_assoc]

/-- Fields of the given widths off the front of `bytes`, and what follows them. -/
def readFields : List Nat → List UInt8 → Option (List Nat × List UInt8)
  | [], bytes => some ([], bytes)
  | width :: widths, bytes =>
      if width ≤ bytes.length then
        (readFields widths (bytes.drop width)).map fun r =>
          (fromLeBytes (bytes.take width) :: r.1, r.2)
      else none

theorem readFields_bytes (fields : List Field) (rest : List UInt8) :
    readFields (fields.map Field.width) (fields.flatMap Field.bytes ++ rest) =
      some (fields.map fun field => field.value % 256 ^ field.width, rest) := by
  induction fields with
  | nil => rfl
  | cons field fields ih =>
      have hLength := field.length_bytes
      rw [List.map_cons, readFields, List.flatMap_cons, List.append_assoc, if_pos (by simp),
        List.drop_left' hLength, List.take_left' hLength, ih, Field.bytes, fromLeBytes_toLeBytes]
      rfl

/-- The number in `width` bytes at a position. -/
def numberAt (bytes : List UInt8) (position width : Nat) : Nat :=
  fromLeBytes ((bytes.drop position).take width)

/-- What is found where a field of a record was written. -/
theorem numberAt_field {before : List UInt8} {base start : Nat} {fields : List Field}
    {field : Field} (hBefore : before.length = base + start) (h : Contiguous start fields)
    (hMem : field ∈ fields)
    (rest : List UInt8) :
    numberAt (before ++ (fields.flatMap Field.bytes ++ rest)) (base + field.offset) field.width =
      field.value % 256 ^ field.width := by
  induction fields generalizing before start with
  | nil => exact absurd hMem List.not_mem_nil
  | cons first fields ih =>
      obtain ⟨hOffset, hMore⟩ := h
      rw [List.flatMap_cons, List.append_assoc]
      rcases List.mem_cons.mp hMem with rfl | hMem
      · have hHere : base + field.offset = before.length := by rw [hBefore, hOffset]
        rw [numberAt, hHere, List.drop_left, List.take_left' field.length_bytes, Field.bytes,
          fromLeBytes_toLeBytes]
      · have hNext : (before ++ first.bytes).length = base + (start + first.width) := by
          rw [List.length_append, Field.length_bytes, hBefore, Nat.add_assoc]
        have hFound := ih hNext hMore hMem
        rwa [List.append_assoc] at hFound

end Wire
