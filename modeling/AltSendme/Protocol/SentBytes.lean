import AltSendme.Protocol.RequestLedger
import AltSendme.Execution.Trace

/-! How much of its blobs a request has sent, as its own updates tell, and what
the sender counts of it. Where the blobs come in the order of their indices the
count is exact up to the total; otherwise it can only fall behind. -/
namespace AltSendme.ProvideProgress
open Execution

/-- The blobs that are over, the one that is being sent, and how far that one
was reported. -/
structure Sent where
  done : List Blob
  current : Option Blob
  offset : Nat
  deriving DecidableEq, Repr

/-- The bytes of those blobs whose index `counts`. -/
def blobBytes (counts : UInt64 → Bool) (blobs : List Blob) : Nat :=
  (blobs.map fun blob => if counts blob.1 then blob.2.toNat else 0).sum

namespace Sent

def nothing : Sent := ⟨[], none, 0⟩

def currentSize (s : Sent) : Nat := (s.current.map (·.2.toNat)).getD 0

/-- A blob is over when the next one begins, and it is there to its end when the
request completes. -/
def take (s : Sent) : RequestUpdate → Sent
  | .started index size => ⟨s.done ++ s.current.toList, some (index, size), 0⟩
  | .progress endOffset => { s with offset := max (min endOffset.toNat s.currentSize) s.offset }
  | .completed => { s with offset := s.currentSize }
  | .aborted => s

def bytes (counts : UInt64 → Bool) (s : Sent) : Nat :=
  blobBytes counts s.done + if s.current.any fun blob => counts blob.1 then s.offset else 0

end Sent

def sentBy (us : List RequestUpdate) : Sent := us.foldl Sent.take .nothing

/-- The bytes of those blobs whose index `counts` that a request has sent. -/
def sentBytes (counts : UInt64 → Bool) (us : List RequestUpdate) : Nat := (sentBy us).bytes counts

/-- The blobs that the sender counts. -/
def isCounted (entryType : String) (index : UInt64) : Bool :=
  !Request.isMetadataBlob entryType index

/-- Each blob has a larger index than those before it. -/
def Ordered (us : List RequestUpdate) : Prop := (startedBlobs us).Pairwise fun x y => x.1 < y.1

instance (us : List RequestUpdate) : Decidable (Ordered us) :=
  inferInstanceAs (Decidable (List.Pairwise _ _))

/-- The count that a request's updates come to. -/
def countedBytes (total : UInt64) (entryType : String) (us : List RequestUpdate) : Nat :=
  min (sentBytes (isCounted entryType) us) total.toNat

/-- The bytes of two lists of blobs add up. -/
theorem blobBytes_append (counts : UInt64 → Bool) (xs ys : List Blob) :
    blobBytes counts (xs ++ ys) = blobBytes counts xs + blobBytes counts ys := by
  simp [blobBytes]

@[simp] theorem blobBytes_nil (counts : UInt64 → Bool) : blobBytes counts [] = 0 := rfl

/-- What a stream has sent is what it had sent, with the last update taken in. -/
theorem sentBy_concat (us : List RequestUpdate) (u : RequestUpdate) :
    sentBy (us ++ [u]) = (sentBy us).take u := by
  rw [sentBy, List.foldl_concat, sentBy]

theorem Sent.take_offset_le {s : Sent} (h : s.offset ≤ s.currentSize) (u : RequestUpdate) :
    (s.take u).offset ≤ (s.take u).currentSize := by
  cases u with
  | started index size => exact Nat.zero_le _
  | progress endOffset => exact Nat.max_le.mpr ⟨Nat.min_le_right _ _, h⟩
  | completed => exact Nat.le_refl _
  | aborted => exact h

/-- No stream reports more of a blob than its size. -/
theorem sentBy_offset_le (us : List RequestUpdate) : (sentBy us).offset ≤ (sentBy us).currentSize := by
  induction us using List.reverseRecOn with
  | nil => exact Nat.le_refl _
  | append_singleton us u ih =>
      rw [sentBy_concat]
      exact Sent.take_offset_le ih u

/-- The finished blobs and the current one are those that were started. -/
theorem sentBy_blobs (us : List RequestUpdate) :
    (sentBy us).done ++ (sentBy us).current.toList = startedBlobs us := by
  induction us using List.reverseRecOn with
  | nil => rfl
  | append_singleton us u ih =>
      rw [sentBy_concat, startedBlobs_append, ← ih]
      cases u <;> simp [Sent.take, startedBlobs]

/-- The current blob in full, as it counts when it is over. -/
theorem Sent.current_bytes (counts : UInt64 → Bool) (s : Sent) :
    blobBytes counts s.current.toList =
      if s.current.any fun blob => counts blob.1 then s.currentSize else 0 := by
  rw [currentSize]
  cases s.current with
  | none => rfl
  | some blob => simp [blobBytes]

/-- A new blob adds its predecessor in full. -/
theorem Sent.bytes_started (counts : UInt64 → Bool) (s : Sent) (index size : UInt64) :
    (s.take (.started index size)).bytes counts =
      blobBytes counts s.done + blobBytes counts s.current.toList := by
  rw [bytes, take, blobBytes_append]
  split <;> rfl

/-- More updates, more bytes. -/
theorem Sent.bytes_le_take {s : Sent} (h : s.offset ≤ s.currentSize) (counts : UInt64 → Bool)
    (u : RequestUpdate) : s.bytes counts ≤ (s.take u).bytes counts := by
  have hCurrent := s.current_bytes counts
  cases hCounts : s.current.any fun blob => counts blob.1 with
  | true =>
      rw [hCounts, if_pos rfl] at hCurrent
      cases u with
      | started index size =>
          rw [bytes_started, bytes, hCounts, hCurrent, if_pos rfl]
          omega
      | progress endOffset =>
          simp only [take, bytes, hCounts, if_true]
          omega
      | completed =>
          simp only [take, bytes, hCounts, if_true]
          omega
      | aborted => exact Nat.le_refl _
  | false =>
      cases u with
      | started index size =>
          rw [bytes_started]
          simp [bytes, hCounts]
      | progress endOffset => simp [take, bytes, hCounts]
      | completed => simp [take, bytes, hCounts]
      | aborted => exact Nat.le_refl _

/-- A stream that goes on has sent no less. -/
theorem sentBytes_le_append (counts : UInt64 → Bool) (us vs : List RequestUpdate) :
    sentBytes counts us ≤ sentBytes counts (us ++ vs) := by
  induction vs using List.reverseRecOn with
  | nil => rw [List.append_nil]
  | append_singleton vs v ih =>
      rw [← List.append_assoc, sentBytes, sentBytes, sentBy_concat]
      exact ih.trans (Sent.bytes_le_take (sentBy_offset_le _) counts v)

/-- A stream that goes on has counted no less. -/
theorem countedBytes_le_append (total : UInt64) (entryType : String) (us vs : List RequestUpdate) :
    countedBytes total entryType us ≤ countedBytes total entryType (us ++ vs) := by
  have hLe := sentBytes_le_append (isCounted entryType) us vs
  rw [countedBytes, countedBytes]
  omega

/-- A stream in order was so before too. -/
theorem Ordered.before {us vs : List RequestUpdate} (h : Ordered (us ++ vs)) : Ordered us := by
  rw [Ordered, startedBlobs_append] at h
  exact (List.pairwise_append.mp h).1

theorem done_eq_nil_of_current {us : List RequestUpdate} (h : (sentBy us).current = none) :
    (sentBy us).done = [] := by
  induction us using List.reverseRecOn with
  | nil => rfl
  | append_singleton us u ih =>
      rw [sentBy_concat] at h ⊢
      cases u with
      | started index size => cases h
      | progress endOffset => exact ih h
      | completed => exact ih h
      | aborted => exact ih h

/-- In order, nothing comes before the metadata blob. -/
theorem Ordered.done_eq_nil {entryType : String} {us : List RequestUpdate} {blob : Blob}
    (h : Ordered us) (hCurrent : (sentBy us).current = some blob)
    (hMetadata : Request.isMetadataBlob entryType blob.1 = true) : (sentBy us).done = [] := by
  have hZero : blob.1 = 0 := by
    rw [Request.isMetadataBlob, Bool.and_eq_true] at hMetadata
    exact of_decide_eq_true hMetadata.2
  rw [Ordered, ← sentBy_blobs, hCurrent] at h
  cases hDone : (sentBy us).done with
  | nil => rfl
  | cons first rest =>
      rw [hDone] at h
      have hLess : first.1 < blob.1 := (List.pairwise_cons.mp h).1 blob (by simp)
      rw [hZero, UInt64.lt_iff_toNat_lt] at hLess
      exact absurd hLess (Nat.not_lt_zero _)

section
variable {total : UInt64} {entryType : String} {us : List RequestUpdate} {s : TransferState}
  {now : Nat}

/-- What the state of a request says of the updates entered in it. -/
structure Meter (total : UInt64) (entryType : String) (us : List RequestUpdate)
    (s : TransferState) : Prop where
  totalSize : s.totalSize = total
  size : s.currentBlobSize.toNat = (sentBy us).currentSize
  ignored : ∀ blob, (sentBy us).current = some blob →
    s.ignoreCurrentBlob = Request.isMetadataBlob entryType blob.1
  offset : s.ignoreCurrentBlob = false → s.currentBlobEndOffset.toNat = (sentBy us).offset
  upper : s.accountedPayloadBytes.toNat ≤
    min (blobBytes (isCounted entryType) (sentBy us).done) total.toNat
  exact : Ordered us → s.accountedPayloadBytes.toNat =
    min (blobBytes (isCounted entryType) (sentBy us).done) total.toNat

/-- The first state, made before anything was sent. -/
theorem Meter.init (h : sentBy us = .nothing) (now : Nat) (ignoreCurrentBlob : Bool) :
    Meter total entryType us (.init now total ignoreCurrentBlob) := by
  refine ⟨rfl, ?_, ?_, fun _ => ?_, Nat.zero_le _, fun _ => ?_⟩
  · rw [h]
    rfl
  · rw [h]
    nofun
  · rw [h]
    rfl
  · rw [h]
    exact (Nat.zero_min total.toNat).symm

/-- The current blob so far, as the state has it. -/
theorem Meter.current_sent (h : Meter total entryType us s) :
    (if (sentBy us).current.any fun blob => isCounted entryType blob.1 then (sentBy us).offset
      else 0) = if s.ignoreCurrentBlob then 0 else s.currentBlobEndOffset.toNat := by
  have hLe := sentBy_offset_le us
  have hOffset := h.offset
  cases hCurrent : (sentBy us).current with
  | none =>
      rw [Sent.currentSize, hCurrent] at hLe
      cases hIgnored : s.ignoreCurrentBlob with
      | true => rfl
      | false =>
          have hZero : (sentBy us).offset = 0 := Nat.le_zero.mp hLe
          simp [hOffset hIgnored, hZero]
  | some blob =>
      have hKind := h.ignored blob hCurrent
      cases hIgnored : s.ignoreCurrentBlob with
      | true =>
          rw [hIgnored] at hKind
          simp [isCounted, ← hKind]
      | false =>
          rw [hIgnored] at hKind
          simp [isCounted, ← hKind, hOffset hIgnored]

/-- The current blob in full, as the state has it. -/
theorem Meter.current_full (h : Meter total entryType us s) :
    blobBytes (isCounted entryType) (sentBy us).current.toList =
      if s.ignoreCurrentBlob then 0 else s.currentBlobSize.toNat := by
  have hSize := h.size
  rw [Sent.current_bytes]
  cases hCurrent : (sentBy us).current with
  | none =>
      rw [Sent.currentSize, hCurrent] at hSize
      cases hIgnored : s.ignoreCurrentBlob with
      | true => rfl
      | false => exact hSize.symm
  | some blob =>
      have hKind := h.ignored blob hCurrent
      cases hIgnored : s.ignoreCurrentBlob with
      | true =>
          rw [hIgnored] at hKind
          simp [isCounted, ← hKind]
      | false =>
          rw [hIgnored] at hKind
          simp [isCounted, ← hKind, hSize]

/-- The count shown for a request. -/
theorem Meter.transferred_toNat (h : Meter total entryType us s) :
    s.transferred.toNat = min (s.accountedPayloadBytes.toNat +
      if (sentBy us).current.any fun blob => isCounted entryType blob.1 then (sentBy us).offset
      else 0) total.toNat := by
  have hUpper := h.upper
  rw [h.current_sent, TransferState.transferred]
  cases s.ignoreCurrentBlob with
  | true =>
      simp only [if_true]
      omega
  | false => simp only [Bool.false_eq_true, if_false, saturatingAdd_min_toNat, h.totalSize]

/-- The meter shows at most what was sent. -/
theorem Meter.transferred_le (h : Meter total entryType us s) :
    s.transferred.toNat ≤ countedBytes total entryType us := by
  have hUpper := h.upper
  rw [h.transferred_toNat, countedBytes, sentBytes, Sent.bytes]
  omega

/-- In an orderly stream the meter shows exactly what was sent. -/
theorem Meter.transferred_eq (h : Meter total entryType us s) (hOrdered : Ordered us) :
    s.transferred.toNat = countedBytes total entryType us := by
  have hExact := h.exact hOrdered
  rw [h.transferred_toNat, countedBytes, sentBytes, Sent.bytes]
  omega

/-- The bytes when the current blob is taken as sent in full. -/
theorem Meter.accountBlob_toNat (h : Meter total entryType us s) :
    s.accountBlob.accountedPayloadBytes.toNat =
      min (s.accountedPayloadBytes.toNat +
        blobBytes (isCounted entryType) (sentBy us).current.toList) total.toNat := by
  have hUpper := h.upper
  rw [h.current_full, TransferState.accountBlob]
  cases s.ignoreCurrentBlob with
  | true =>
      simp only [if_true]
      omega
  | false => simp only [Bool.false_eq_true, if_false, saturatingAdd_min_toNat, h.totalSize]

/-- In order, a blob is ignored only when nothing was counted before. -/
theorem Meter.ignored_bytes (h : Meter total entryType us s) (hOrdered : Ordered us)
    (hIgnored : s.ignoreCurrentBlob = true) :
    blobBytes (isCounted entryType) ((sentBy us).done ++ (sentBy us).current.toList) = 0 := by
  have hFull := h.current_full
  rw [hIgnored, if_pos rfl] at hFull
  rw [blobBytes_append, hFull]
  cases hCurrent : (sentBy us).current with
  | none =>
      rw [done_eq_nil_of_current hCurrent]
      rfl
  | some blob =>
      have hKind := (h.ignored blob hCurrent).symm.trans hIgnored
      rw [hOrdered.done_eq_nil hCurrent hKind]
      rfl

/-- The start of a blob keeps the meter. -/
theorem Meter.startBlob (h : Meter total entryType us s) (index size : UInt64) :
    Meter total entryType (us ++ [.started index size])
      (s.startBlob now (Request.isMetadataBlob entryType index) size) := by
  have hFull := h.accountBlob_toNat
  have hUpper := h.upper
  have hSize : s.accountBlob.totalSize = total := by
    rw [← h.totalSize, TransferState.accountBlob]
    split <;> rfl
  have hSent : sentBy (us ++ [.started index size]) =
      ⟨(sentBy us).done ++ (sentBy us).current.toList, some (index, size), 0⟩ := sentBy_concat us _
  refine ⟨?_, ?_, ?_, ?_, ?_, fun hOrdered => ?_⟩
  · simp only [TransferState.startBlob]
    split <;> exact hSize
  · rw [hSent]
    rfl
  · intro blob hCurrent
    rw [hSent] at hCurrent
    obtain rfl := Option.some.inj hCurrent
    rfl
  · intro _
    rw [hSent]
    rfl
  · rw [hSent, blobBytes_append]
    simp only [TransferState.startBlob]
    split
    · exact Nat.zero_le _
    · rw [hFull]
      omega
  · have hExact := h.exact hOrdered.before
    rw [hSent]
    cases hIgnored : s.ignoreCurrentBlob with
    | true =>
        have hNone := h.ignored_bytes hOrdered.before hIgnored
        have hParts := hNone
        rw [blobBytes_append] at hParts
        rw [hNone, Nat.zero_min]
        simp only [TransferState.startBlob]
        split
        · rfl
        · rw [hFull]
          omega
    | false =>
        simp only [TransferState.startBlob, hIgnored, Bool.false_and, Bool.false_eq_true, if_false]
        rw [hFull, blobBytes_append]
        omega

/-- Progress within a blob keeps the meter. -/
theorem Meter.progressBlob (h : Meter total entryType us s) (endOffset : UInt64) :
    Meter total entryType (us ++ [.progress endOffset]) (s.progressBlob endOffset) := by
  have hSent : sentBy (us ++ [.progress endOffset]) = { sentBy us with
      offset := max (min endOffset.toNat (sentBy us).currentSize) (sentBy us).offset } :=
    sentBy_concat us _
  have hBefore (hOrdered : Ordered (us ++ [.progress endOffset])) : Ordered us := hOrdered.before
  rw [TransferState.progressBlob]
  cases hIgnored : s.ignoreCurrentBlob with
  | true =>
      rw [if_pos rfl]
      refine ⟨h.totalSize, ?_, ?_, ?_, ?_, fun hOrdered => ?_⟩
      · rw [hSent]
        exact h.size
      · rw [hSent]
        exact h.ignored
      · rw [hIgnored]
        simp
      · rw [hSent]
        exact h.upper
      · rw [hSent]
        exact h.exact (hBefore hOrdered)
  | false =>
      rw [if_neg Bool.false_ne_true]
      refine ⟨h.totalSize, ?_, ?_, ?_, ?_, fun hOrdered => ?_⟩
      · rw [hSent]
        exact h.size
      · rw [hSent]
        exact hIgnored ▸ h.ignored
      · intro _
        rw [hSent, UInt64.toNat_max, UInt64.toNat_min, h.size, h.offset hIgnored]
      · rw [hSent]
        exact h.upper
      · rw [hSent]
        exact h.exact (hBefore hOrdered)

/-- The bytes by which a request that completes is judged. -/
theorem Meter.completed_le (h : Meter total entryType us s) :
    s.accountBlob.accountedPayloadBytes.toNat ≤
      countedBytes total entryType (us ++ [.completed]) := by
  have hUpper := h.upper
  have hBytes : sentBytes (isCounted entryType) (us ++ [.completed]) =
      blobBytes (isCounted entryType) (sentBy us).done +
        blobBytes (isCounted entryType) (sentBy us).current.toList := by
    rw [sentBytes, sentBy_concat, Sent.current_bytes]
    rfl
  rw [h.accountBlob_toNat, countedBytes, hBytes]
  omega

/-- The bytes by which a request that stops is judged. -/
theorem Meter.accounted_le (h : Meter total entryType us s) :
    s.accountedPayloadBytes.toNat ≤ countedBytes total entryType us := by
  have hUpper := h.upper
  rw [countedBytes, sentBytes, Sent.bytes]
  omega

end

end AltSendme.ProvideProgress
