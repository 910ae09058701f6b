import Mathlib.Data.List.Infix
import Mathlib.Tactic.Ring

/-! Length-prefixed messages on a byte stream: a 32-bit big-endian length and
then that many bytes. A stream may arrive cut into chunks anywhere and may end
anywhere; what a reader returns depends on the bytes alone. -/
namespace Wire

/-- The low `width` bytes of `n`, most significant first. -/
def toBeBytes : Nat → Nat → List UInt8
  | 0, _ => []
  | width + 1, n => UInt8.ofNat (n / 256 ^ width) :: toBeBytes width n

def fromBeBytes (bytes : List UInt8) : Nat :=
  bytes.foldl (fun n b => 256 * n + b.toNat) 0

@[simp] theorem length_toBeBytes (width n : Nat) : (toBeBytes width n).length = width := by
  induction width with
  | zero => rfl
  | succ width ih => simp [toBeBytes, ih]

/-- Reading big-endian digits on goes on from what was read before. -/
theorem foldl_toBeBytes (width n start : Nat) :
    (toBeBytes width n).foldl (fun n b => 256 * n + b.toNat) start =
      start * 256 ^ width + n % 256 ^ width := by
  induction width generalizing start with
  | zero => simp [toBeBytes, Nat.mod_one]
  | succ width ih =>
      rw [toBeBytes, List.foldl_cons, ih, Nat.mod_pow_succ, UInt8.toNat_ofNat', Nat.pow_succ]
      ring

/-- A number that fits its width reads back. -/
theorem fromBeBytes_toBeBytes {width n : Nat} (h : n < 256 ^ width) :
    fromBeBytes (toBeBytes width n) = n := by
  rw [fromBeBytes, foldl_toBeBytes, Nat.mod_eq_of_lt h, Nat.zero_mul, Nat.zero_add]

/-- What is still to arrive, in the pieces it arrives in. -/
structure Incoming where
  chunks : List (List UInt8)
  arrives : [] ∉ chunks

namespace Incoming

def bytes (s : Incoming) : List UInt8 := s.chunks.flatten

/-- All the bytes at once. -/
def whole (bytes : List UInt8) : Incoming :=
  if h : bytes = [] then ⟨[], List.not_mem_nil⟩ else ⟨[bytes], by simpa using Ne.symm h⟩

@[simp] theorem bytes_whole (bytes : List UInt8) : (whole bytes).bytes = bytes := by
  unfold whole
  split
  · next h => rw [h]; rfl
  · simp [Incoming.bytes]

/-- Read from one chunk after another until `n` bytes are there; the rest of
the last chunk stays. -/
def takeChunks : Nat → List (List UInt8) → Option (List UInt8 × List (List UInt8))
  | 0, chunks => some ([], chunks)
  | _ + 1, [] => none
  | n + 1, chunk :: chunks =>
      if n + 1 < chunk.length then some (chunk.take (n + 1), chunk.drop (n + 1) :: chunks)
      else (takeChunks (n + 1 - chunk.length) chunks).map fun r => (chunk ++ r.1, r.2)

/-- What is left after taking bytes has no empty chunk either. -/
theorem takeChunks_arrives {n : Nat} {chunks : List (List UInt8)}
    {r : List UInt8 × List (List UInt8)} (h : takeChunks n chunks = some r)
    (hArrives : [] ∉ chunks) : [] ∉ r.2 := by
  induction chunks generalizing n r with
  | nil =>
      cases n with
      | zero =>
          rw [takeChunks, Option.some.injEq] at h
          exact h ▸ hArrives
      | succ n => cases h
  | cons chunk chunks ih =>
      have hTail : [] ∉ chunks := fun hMem => hArrives (List.mem_cons_of_mem _ hMem)
      cases n with
      | zero =>
          rw [takeChunks, Option.some.injEq] at h
          exact h ▸ hArrives
      | succ n =>
          rw [takeChunks] at h
          split at h
          · next hShort =>
              obtain rfl := Option.some.inj h
              rw [List.mem_cons]
              rintro (hEmpty | hMem)
              · have hAll := List.drop_eq_nil_iff.mp hEmpty.symm
                omega
              · exact hTail hMem
          · obtain ⟨more, hMore, rfl⟩ := Option.map_eq_some_iff.mp h
            have hLeft := ih hMore hTail
            exact hLeft

/-- `AsyncReadExt::read_exact`: `n` bytes, or none when the stream ends first. -/
def readExact (n : Nat) (s : Incoming) : Option (List UInt8 × Incoming) :=
  match h : takeChunks n s.chunks with
  | none => none
  | some (read, rest) => some (read, ⟨rest, takeChunks_arrives h s.arrives⟩)

/-- Taking bytes from chunks is taking them from their concatenation. -/
theorem takeChunks_eq (n : Nat) (chunks : List (List UInt8)) :
    (takeChunks n chunks).map (fun r => (r.1, r.2.flatten)) =
      if n ≤ chunks.flatten.length then some (chunks.flatten.take n, chunks.flatten.drop n)
      else none := by
  induction chunks generalizing n with
  | nil => cases n <;> simp [takeChunks]
  | cons chunk chunks ih =>
      cases n with
      | zero => simp [takeChunks]
      | succ n =>
          rw [takeChunks]
          split
          · next hShort =>
              have hFits : n + 1 ≤ (chunk :: chunks).flatten.length := by
                rw [List.flatten_cons, List.length_append]
                omega
              have hLe : n + 1 ≤ chunk.length := by omega
              rw [if_pos hFits, List.flatten_cons, List.take_append_of_le_length hLe,
                List.drop_append_of_le_length hLe]
              rfl
          · next hLong =>
              rw [Option.map_map]
              have hRest := congrArg (Option.map fun r => (chunk ++ r.1, r.2))
                (ih (n + 1 - chunk.length))
              rw [Option.map_map] at hRest
              refine hRest.trans ?_
              have hTake : (chunk :: chunks).flatten.take (n + 1) =
                  chunk ++ chunks.flatten.take (n + 1 - chunk.length) := by
                rw [List.flatten_cons, List.take_append, List.take_of_length_le (by omega)]
              have hDrop : (chunk :: chunks).flatten.drop (n + 1) =
                  chunks.flatten.drop (n + 1 - chunk.length) := by
                rw [List.flatten_cons, List.drop_append, List.drop_eq_nil_of_le (by omega),
                  List.nil_append]
              rw [hTake, hDrop]
              by_cases hFits : n + 1 - chunk.length ≤ chunks.flatten.length
              · rw [if_pos hFits, if_pos (by rw [List.flatten_cons, List.length_append]; omega)]
                rfl
              · rw [if_neg hFits, if_neg (by rw [List.flatten_cons, List.length_append]; omega)]
                rfl

/-- Reading does not see where the chunks were cut. -/
theorem readExact_map (n : Nat) (s : Incoming) :
    (s.readExact n).map (fun r => (r.1, r.2.bytes)) =
      if n ≤ s.bytes.length then some (s.bytes.take n, s.bytes.drop n) else none := by
  have hEq := takeChunks_eq n s.chunks
  unfold readExact
  split
  · next hNone => rw [hNone] at hEq; exact hEq
  · next read rest hSome => rw [hSome] at hEq; exact hEq

/-- Bytes that are there are read exactly, however they arrived. -/
theorem readExact_append {s : Incoming} {read tail : List UInt8} (h : s.bytes = read ++ tail) :
    ∃ rest, s.readExact read.length = some (read, rest) ∧ rest.bytes = tail := by
  have hEq := readExact_map read.length s
  rw [h, if_pos (by simp), List.take_left, List.drop_left] at hEq
  obtain ⟨⟨bytes, rest⟩, hRead, hPair⟩ := Option.map_eq_some_iff.mp hEq
  obtain ⟨rfl, hRest⟩ := Prod.mk.inj hPair
  exact ⟨rest, hRead, hRest⟩

/-- Too few bytes are not read. -/
theorem readExact_short {s : Incoming} {n : Nat} (h : s.bytes.length < n) :
    s.readExact n = none := by
  have hEq := readExact_map n s
  rw [if_neg (by omega)] at hEq
  exact Option.map_eq_none_iff.mp hEq

/-- What was read is the beginning of what was there. -/
theorem readExact_eq_some {s rest : Incoming} {n : Nat} {read : List UInt8}
    (h : s.readExact n = some (read, rest)) :
    s.bytes = read ++ rest.bytes ∧ read.length = n := by
  have hEq := readExact_map n s
  rw [h] at hEq
  split at hEq
  · next hFits =>
      obtain ⟨hRead, hRest⟩ := Prod.mk.inj (Option.some.inj hEq)
      change read = _ at hRead
      change rest.bytes = _ at hRest
      rw [hRead, hRest, List.take_append_drop, List.length_take]
      exact ⟨rfl, by omega⟩
  · cases hEq

end Incoming

/-- The prefixed message. The cast to `u32` drops what a longer body would need. -/
def frame (body : List UInt8) : List UInt8 := toBeBytes 4 body.length ++ body

/-- How a `write_all` ends: whole, or stopped after some of the bytes. -/
inductive WriteAnswer (Failure : Type) where
  | done
  | stopped (sent : Nat) (why : Failure)
  deriving DecidableEq, Repr

namespace WriteAnswer
variable {Failure Error : Type}

/-- The bytes that left before the write ended. -/
def sent (bytes : List UInt8) : WriteAnswer Failure → List UInt8
  | .done => bytes
  | .stopped sent _ => bytes.take sent

def result (report : Failure → Error) : WriteAnswer Failure → Except Error Unit
  | .done => .ok ()
  | .stopped _ why => .error (report why)

/-- However a write ends, a prefix of its bytes was sent. -/
theorem sent_prefix (bytes : List UInt8) (answer : WriteAnswer Failure) :
    answer.sent bytes <+: bytes := by
  cases answer with
  | done => exact List.prefix_refl _
  | stopped sent why => exact List.take_prefix _ _

end WriteAnswer

/-- Write the length and then the body, unless the length did not get out. -/
def sendFrame {Failure : Type} (body : List UInt8) (length payload : WriteAnswer Failure) :
    List UInt8 :=
  match length with
  | .done => toBeBytes 4 body.length ++ payload.sent body
  | .stopped sent _ => (toBeBytes 4 body.length).take sent

@[simp] theorem sendFrame_done {Failure : Type} (body : List UInt8) :
    @sendFrame Failure body .done .done = frame body := rfl

/-- However the writes of a frame end, a prefix of the frame was sent. -/
theorem sendFrame_prefix {Failure : Type} (body : List UInt8)
    (length payload : WriteAnswer Failure) : sendFrame body length payload <+: frame body := by
  cases length with
  | done => exact (List.prefix_append_right_inj _).mpr (payload.sent_prefix body)
  | stopped sent why => exact (List.take_prefix _ _).trans (List.prefix_append _ _)

inductive FrameError where
  /-- The stream ended inside the length. -/
  | length
  /-- The length is zero or above the reader's bound. -/
  | invalid (len : Nat)
  /-- The stream ended inside the body. -/
  | body
  deriving DecidableEq, Repr

/-- The stream ended before the message did. -/
def FrameError.IsTruncation : FrameError → Prop
  | .length | .body => True
  | .invalid _ => False

def readFrame (max : Nat) (s : Incoming) : Except FrameError (List UInt8 × Incoming) :=
  match s.readExact 4 with
  | none => .error .length
  | some (lenBuf, rest) =>
      let len := fromBeBytes lenBuf
      if 0 < len ∧ len ≤ max then
        match rest.readExact len with
        | none => .error .body
        | some r => .ok r
      else .error (.invalid len)

/-- What is read was there, and reading moves forward. -/
theorem readFrame_ok {max : Nat} {s rest : Incoming} {body : List UInt8}
    (h : readFrame max s = .ok (body, rest)) :
    ∃ lenBuf, lenBuf.length = 4 ∧ body.length = fromBeBytes lenBuf ∧
      s.bytes = lenBuf ++ body ++ rest.bytes := by
  unfold readFrame at h
  split at h
  · cases h
  · next lenBuf mid hLength =>
      obtain ⟨hBytes, hFour⟩ := Incoming.readExact_eq_some hLength
      dsimp only at h
      split at h
      · split at h
        · cases h
        · next r hBody =>
            obtain rfl := Except.ok.inj h
            obtain ⟨hMid, hLen⟩ := Incoming.readExact_eq_some hBody
            exact ⟨lenBuf, hFour, hLen, by rw [hBytes, hMid, List.append_assoc]⟩
      · cases h

/-- A frame takes bytes off what comes in. -/
theorem readFrame_shrinks {max : Nat} {s rest : Incoming} {body : List UInt8}
    (h : readFrame max s = .ok (body, rest)) : rest.bytes.length < s.bytes.length := by
  obtain ⟨lenBuf, hFour, _, hBytes⟩ := readFrame_ok h
  rw [hBytes, List.length_append, List.length_append]
  omega

section
variable {max : Nat} {body : List UInt8} {s : Incoming}

/-- The frame of an admissible body is read back, and nothing after it. -/
theorem readFrame_frame {tail : List UInt8} (hMax : max < 256 ^ 4) (hBody : body ≠ [])
    (hFits : body.length ≤ max) (h : s.bytes = frame body ++ tail) :
    ∃ rest, readFrame max s = .ok (body, rest) ∧ rest.bytes = tail := by
  rw [frame, List.append_assoc] at h
  obtain ⟨mid, hLength, hMid⟩ := Incoming.readExact_append h
  obtain ⟨rest, hRead, hRest⟩ := Incoming.readExact_append hMid
  rw [length_toBeBytes] at hLength
  have hLen : fromBeBytes (toBeBytes 4 body.length) = body.length :=
    fromBeBytes_toBeBytes (by omega)
  have hPos : 0 < body.length := List.length_pos_iff.mpr hBody
  exact ⟨rest, by simp [readFrame, hLength, hLen, hPos, hFits, hRead], hRest⟩

/-- A frame that is cut anywhere is noticed, never misread. -/
theorem readFrame_cut (hMax : max < 256 ^ 4) (hBody : body ≠ []) (hFits : body.length ≤ max)
    (hPrefix : s.bytes <+: frame body) (hCut : s.bytes ≠ frame body) :
    ∃ e, readFrame max s = .error e ∧ e.IsTruncation := by
  obtain ⟨missing, hMissing⟩ := hPrefix
  rcases Nat.lt_or_ge s.bytes.length 4 with hShort | hLong
  · exact ⟨.length, by rw [readFrame, Incoming.readExact_short hShort], trivial⟩
  · obtain ⟨sent, hSent⟩ : ∃ sent, s.bytes = toBeBytes 4 body.length ++ sent := by
      have hTake := congrArg (List.take 4) hMissing
      rw [List.take_append_of_le_length hLong, frame,
        List.take_left' (length_toBeBytes 4 body.length)] at hTake
      exact ⟨s.bytes.drop 4, by rw [← hTake, List.take_append_drop]⟩
    obtain ⟨mid, hLength, hMid⟩ := Incoming.readExact_append hSent
    rw [length_toBeBytes] at hLength
    have hLen : fromBeBytes (toBeBytes 4 body.length) = body.length :=
      fromBeBytes_toBeBytes (by omega)
    have hPos : 0 < body.length := List.length_pos_iff.mpr hBody
    have hBodyCut : mid.bytes.length < body.length := by
      rw [hSent, frame, List.append_assoc] at hMissing
      have hSplit := List.append_cancel_left hMissing
      have hLost : missing ≠ [] := by
        rintro rfl
        rw [List.append_nil] at hSplit
        exact hCut (by rw [hSent, hSplit, frame])
      rw [hMid, ← hSplit, List.length_append]
      have := List.length_pos_iff.mpr hLost
      omega
    refine ⟨.body, ?_, trivial⟩
    simp [readFrame, hLength, hLen, hPos, hFits, Incoming.readExact_short hBodyCut]

end

/-- A reader of one message, which takes at least one byte off the stream. -/
structure Reader (Error Message : Type) where
  read : Incoming → Except Error (Message × Incoming)
  shrinks : ∀ {s rest m}, read s = .ok (m, rest) → rest.bytes.length < s.bytes.length

variable {Error Message : Type}

/-- Read messages until the reader fails. -/
def Reader.readAll (R : Reader Error Message) (s : Incoming) : List Message × Error :=
  match _h : R.read s with
  | .error e => ([], e)
  | .ok (m, rest) => (m :: (R.readAll rest).1, (R.readAll rest).2)
  termination_by s.bytes.length
  decreasing_by all_goals exact R.shrinks _h

/-- A reader that fails ends the messages. -/
theorem Reader.readAll_error {R : Reader Error Message} {s : Incoming} {e : Error}
    (h : R.read s = .error e) : R.readAll s = ([], e) := by
  rw [Reader.readAll]
  split
  · next e' h' =>
      rw [h] at h'
      rw [Except.error.inj h']
  · next m rest h' =>
      rw [h] at h'
      cases h'

/-- A message that was read comes before all that follow. -/
theorem Reader.readAll_ok {R : Reader Error Message} {s rest : Incoming} {m : Message}
    (h : R.read s = .ok (m, rest)) :
    R.readAll s = (m :: (R.readAll rest).1, (R.readAll rest).2) := by
  rw [Reader.readAll]
  split
  · next e h' =>
      rw [h] at h'
      cases h'
  · next m' rest' h' =>
      rw [h] at h'
      obtain ⟨rfl, rfl⟩ := Prod.mk.inj (Except.ok.inj h')
      rfl

/-- The reader finds the end of each message by itself: `Writes m bytes` is
what a writer puts on the stream for `m`, and `Truncated` the errors that
report an early end of stream. -/
structure Reader.Delimits (R : Reader Error Message) (Writes : Message → List UInt8 → Prop)
    (Truncated : Error → Prop) : Prop where
  whole : ∀ {m bytes}, Writes m bytes → ∀ {s tail}, s.bytes = bytes ++ tail →
    ∃ rest, R.read s = .ok (m, rest) ∧ rest.bytes = tail
  cut : ∀ {m bytes}, Writes m bytes → ∀ {s}, s.bytes <+: bytes → s.bytes ≠ bytes →
    ∃ e, R.read s = .error e ∧ Truncated e
  ended : ∀ {s}, s.bytes = [] → ∃ e, R.read s = .error e ∧ Truncated e

namespace Reader.Delimits

/-- A reader delimits for every wider set of endings. -/
theorem mono {R : Reader Error Message} {Writes : Message → List UInt8 → Prop}
    {Truncated Ends : Error → Prop} (h : R.Delimits Writes Truncated)
    (hEnds : ∀ e, Truncated e → Ends e) : R.Delimits Writes Ends where
  whole := h.whole
  cut hWrites _ hPrefix hCut :=
    let ⟨e, hRead, hEnd⟩ := h.cut hWrites hPrefix hCut
    ⟨e, hRead, hEnds e hEnd⟩
  ended hBytes :=
    let ⟨e, hRead, hEnd⟩ := h.ended hBytes
    ⟨e, hRead, hEnds e hEnd⟩

variable {R : Reader Error Message} {Writes : Message → List UInt8 → Prop}
variable {Truncated : Error → Prop}

/-- The messages written one after another are read back, and then the end is reported. -/
theorem readAll_whole (h : R.Delimits Writes Truncated) {written : List (Message × List UInt8)}
    (hWrites : ∀ w ∈ written, Writes w.1 w.2) {s : Incoming}
    (hBytes : s.bytes = (written.map Prod.snd).flatten) :
    ∃ e, R.readAll s = (written.map Prod.fst, e) ∧ Truncated e := by
  induction written generalizing s with
  | nil =>
      obtain ⟨e, hRead, hEnd⟩ := h.ended hBytes
      exact ⟨e, readAll_error hRead, hEnd⟩
  | cons w rest ih =>
      obtain ⟨mid, hRead, hMid⟩ := h.whole (hWrites w List.mem_cons_self) hBytes
      obtain ⟨e, hRest, hEnd⟩ := ih (fun v hv => hWrites v (List.mem_cons_of_mem w hv)) hMid
      exact ⟨e, by rw [readAll_ok hRead, hRest]; rfl, hEnd⟩

/-- A stream of one message reads as that message. -/
theorem readAll_single (h : R.Delimits Writes Truncated) {m : Message} {bytes : List UInt8}
    (hWrites : Writes m bytes) {s : Incoming} (hBytes : s.bytes = bytes) :
    ∃ e, R.readAll s = ([m], e) ∧ Truncated e := by
  have hAll : ∀ w ∈ [(m, bytes)], Writes w.1 w.2 := by
    intro w hw
    rw [List.mem_singleton.mp hw]
    exact hWrites
  exact h.readAll_whole hAll (by simpa using hBytes)

/-- Cut anywhere, the stream gives some of the messages it was to give, from
the first on, and then reports its end. -/
theorem readAll_cut (h : R.Delimits Writes Truncated) {written : List (Message × List UInt8)}
    (hWrites : ∀ w ∈ written, Writes w.1 w.2) {s : Incoming}
    (hPrefix : s.bytes <+: (written.map Prod.snd).flatten)
    (hCut : s.bytes ≠ (written.map Prod.snd).flatten) :
    ∃ read e, R.readAll s = (read, e) ∧ read <+: written.map Prod.fst ∧
      read ≠ written.map Prod.fst ∧ Truncated e := by
  induction written generalizing s with
  | nil => exact absurd (List.prefix_nil.mp hPrefix) hCut
  | cons w rest ih =>
      rw [List.map_cons, List.flatten_cons] at hPrefix hCut
      have hHead := hWrites w List.mem_cons_self
      by_cases hReached : w.2 <+: s.bytes
      · obtain ⟨sent, hSent⟩ := hReached
        rw [← hSent] at hPrefix hCut
        obtain ⟨mid, hRead, hMid⟩ := h.whole hHead hSent.symm
        obtain ⟨read, e, hRest, hFirst, hFewer, hEnd⟩ :=
          ih (fun v hv => hWrites v (List.mem_cons_of_mem w hv))
            (hMid ▸ (List.prefix_append_right_inj _).mp hPrefix)
            (fun hAll => hCut (by rw [← hMid, hAll]))
        refine ⟨w.1 :: read, e, by rw [readAll_ok hRead, hRest], ?_, ?_, hEnd⟩
        · exact List.cons_prefix_cons.mpr ⟨rfl, hFirst⟩
        · exact fun hAll => hFewer (List.cons.inj hAll).2
      · have hInside : s.bytes <+: w.2 :=
          (List.prefix_or_prefix_of_prefix hPrefix (List.prefix_append _ _)).resolve_right hReached
        have hPart : s.bytes ≠ w.2 := fun hAll => hReached (hAll ▸ List.prefix_refl _)
        obtain ⟨e, hRead, hEnd⟩ := h.cut hHead hInside hPart
        exact ⟨[], e, readAll_error hRead, List.nil_prefix, by simp, hEnd⟩

end Reader.Delimits

/-- A reader of frames that decodes each body. `fail` is how it reports that
there was no body to decode. -/
def framed (max : Nat) (fail : FrameError → Error) (decode : List UInt8 → Except Error Message) :
    Reader Error Message where
  read s :=
    match readFrame max s with
    | .error e => .error (fail e)
    | .ok (body, rest) => (decode body).map fun m => (m, rest)
  shrinks {s rest m} h := by
    split at h
    · cases h
    · next body left hFrame =>
        cases hDecode : decode body with
        | error e =>
            rw [hDecode] at h
            cases h
        | ok m' =>
            rw [hDecode] at h
            obtain ⟨rfl, rfl⟩ := Prod.mk.inj (Except.ok.inj h)
            exact readFrame_shrinks hFrame

/-- Frames of bodies within the reader's own bound delimit themselves. -/
theorem framed_delimits {max : Nat} {fail : FrameError → Error}
    {decode : List UInt8 → Except Error Message} {Writes : Message → List UInt8 → Prop}
    (hMax : max < 256 ^ 4)
    (hWrites : ∀ {m bytes}, Writes m bytes → ∃ body, bytes = frame body ∧ body ≠ [] ∧
      body.length ≤ max ∧ decode body = .ok m) :
    (framed max fail decode).Delimits Writes fun e => ∃ t, t.IsTruncation ∧ e = fail t where
  whole {m bytes} h {s tail} hBytes := by
    obtain ⟨body, rfl, hBody, hFits, hDecode⟩ := hWrites h
    obtain ⟨rest, hRead, hRest⟩ := readFrame_frame hMax hBody hFits hBytes
    refine ⟨rest, ?_, hRest⟩
    simp only [framed, hRead, hDecode]
    rfl
  cut {m bytes} h {s} hPrefix hCut := by
    obtain ⟨body, rfl, hBody, hFits, _⟩ := hWrites h
    obtain ⟨t, hRead, hTruncated⟩ := readFrame_cut hMax hBody hFits hPrefix hCut
    exact ⟨fail t, by simp only [framed, hRead], t, hTruncated, rfl⟩
  ended {s} hBytes := by
    have hShort : s.bytes.length < 4 := by simp [hBytes]
    refine ⟨fail .length, ?_, .length, trivial, rfl⟩
    simp only [framed, readFrame, Incoming.readExact_short hShort]

/-- A serialization of one type as a library offers it: `toVec` fails on what
it cannot write. -/
structure Serde (Message : Type) where
  toVec : Message → Option (List UInt8)
  fromSlice : List UInt8 → Option Message

/-- What is written is read back, and nothing at all is no document. -/
structure Serde.RoundTrips (serde : Serde Message) : Prop where
  fromSlice_toVec : ∀ {m body}, serde.toVec m = some body → serde.fromSlice body = some m
  fromSlice_nil : serde.fromSlice [] = none

/-- A message that reads back is not written as nothing. -/
theorem Serde.RoundTrips.toVec_ne_nil {serde : Serde Message} (h : serde.RoundTrips) {m : Message}
    {body : List UInt8} (hBody : serde.toVec m = some body) : body ≠ [] := by
  rintro rfl
  have hRead := h.fromSlice_toVec hBody
  rw [h.fromSlice_nil] at hRead
  cases hRead

end Wire
