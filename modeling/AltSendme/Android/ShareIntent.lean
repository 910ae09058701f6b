import AltSendme.Android.CopyUtils
import AltSendme.Execution.Run
import Mathlib.Data.List.Nodup

/-! Share-sheet intents on their way to a copy (`NativeUtils.kt`). Lifecycle callbacks
run one after another on their thread, `consume_share_intent` takes a lock of its own,
and every access of either to what they share is a step. Notifying the frontend and
wiping the cache are left out: neither reads or writes any of it. -/
namespace AltSendme.Android
open Execution

/-- The extra `EXTRA_STREAM` as the untyped getter gives it. -/
inductive StreamExtra where
  | uri (text : String)
  | text (text : String)
  | other
  deriving DecidableEq, Repr

/-- What of an intent is looked at; a URI is its text. -/
structure Intent where
  action : Option String
  parcelableStream : Option String
  stream : Option StreamExtra
  firstClipUri : Option String
  data : Option String
  deriving DecidableEq, Repr

def actionSend : String := "android.intent.action.SEND"

def extractShareUri (intent : Intent) : Option String :=
  match intent.parcelableStream with
  | some uri => some uri
  | none =>
      let rest := intent.firstClipUri.orElse fun _ => intent.data
      match intent.stream with
      | some (.uri uri) => some uri
      | some (.text text) => if isNotBlank text then some text else rest
      | _ => rest

/-- The URI an intent shares, if it is one that shares. -/
def Intent.shareUri (intent : Intent) : Option String :=
  if intent.action = some actionSend then extractShareUri intent else none

/-- An intent that was delivered. The code passes on only its URI; `id` tells two
intents with one URI apart and is read by the specification alone. -/
structure Delivered where
  id : Nat
  intent : Intent
  deriving DecidableEq, Repr

def Delivered.uri (d : Delivered) : Option String := d.intent.shareUri

inductive Callback where
  | load
  | onNewIntent
  | onResume
  deriving DecidableEq, Repr

/-- How far the callback that runs has got: about to ask whether the URI was consumed,
or about to write it to the slot. -/
inductive CallbackState where
  | idle
  | peeking (callback : Callback) (d : Delivered)
  | writing (callback : Callback) (d : Delivered)
  deriving DecidableEq, Repr

/-- How far the `consume_share_intent` call that holds the lock has got. -/
inductive ConsumeState where
  | idle
  | tookPending (d : Delivered)
  | foundNone
  | readIntent (d : Delivered)
  | unconsumed (d : Delivered)
  | returning (d : Option Delivered)
  deriving DecidableEq, Repr

/-- `copies` are the intents whose copy was started. For the specification: `created`
counts intents, `current` is the newest intent that shares, once its callback is
through, `serving` what it was when the call in progress began, and `served` what it
was for the calls that have returned. -/
structure ShareState where
  intent : Delivered
  pendingShareUri : Option Delivered
  consumedShareUris : List Delivered
  callback : CallbackState
  consume : ConsumeState
  copies : List Delivered
  created : Nat
  current : Option Delivered
  serving : Option Delivered
  served : List Delivered
  deriving DecidableEq, Repr

inductive ShareLabel where
  | load
  | onNewIntent (intent : Intent)
  | onResume
  | callbackStep
  | consumeShareIntent
  | consumeStep
  deriving DecidableEq, Repr

namespace ShareState

/-- The activity as it was started, with the intent that started it. -/
def start (intent : Intent) : ShareState :=
  ⟨⟨0, intent⟩, none, [], .idle, .idle, [], 1, none, none, []⟩

/-- `consumedShareUris.contains(uri.toString())` -/
def isConsumed (s : ShareState) (d : Delivered) : Bool :=
  s.consumedShareUris.any fun c => c.uri == d.uri

/-- A callback that delivers an intent makes it the newest one. -/
def through (s : ShareState) (callback : Callback) (d : Delivered) : ShareState :=
  { s with
    callback := .idle
    current := if callback = .onResume then s.current else some d }

/-- `set`, and `compareAndSet(null, uri)` when the activity resumes. -/
def writeSlot (s : ShareState) (callback : Callback) (d : Delivered) : ShareState :=
  if callback = .onResume ∧ s.pendingShareUri ≠ none then s
  else { s with pendingShareUri := some d }

def callbackNext (s : ShareState) : Option ShareState :=
  match s.callback with
  | .idle => none
  | .peeking callback d =>
      if d.uri = none then some { s with callback := .idle }
      else if s.isConsumed d then some (s.through callback d)
      else some { s with callback := .writing callback d }
  | .writing callback d => some ((s.writeSlot callback d).through callback d)

/-- `takePendingOrIntentShare` after its first access, and the start of the copy. -/
def consumeNext (s : ShareState) : Option ShareState :=
  match s.consume with
  | .idle => none
  | .tookPending d =>
      some { s with consumedShareUris := d :: s.consumedShareUris, consume := .returning (some d) }
  | .foundNone => some { s with consume := .readIntent s.intent }
  | .readIntent d =>
      if d.uri = none ∨ s.isConsumed d then some { s with consume := .returning none }
      else some { s with consume := .unconsumed d }
  | .unconsumed d =>
      some { s with consumedShareUris := d :: s.consumedShareUris, consume := .returning (some d) }
  | .returning d => some
      { s with
        consume := .idle
        copies := s.copies ++ d.toList
        serving := none
        served := s.served ++ s.serving.toList }

/-- The callback begins with what `getIntent` gives. -/
def begin (s : ShareState) (callback : Callback) : Option ShareState :=
  if s.callback = .idle then some { s with callback := .peeking callback s.intent } else none

def receive (s : ShareState) (intent : Intent) : ShareState :=
  { s with
    intent := ⟨s.created, intent⟩
    created := s.created + 1
    current := if intent.shareUri = none then s.current else none }

def next (s : ShareState) : ShareLabel → Option ShareState
  | .load => s.begin .load
  | .onNewIntent intent => (s.receive intent).begin .onNewIntent
  | .onResume => s.begin .onResume
  | .callbackStep => s.callbackNext
  | .consumeShareIntent =>
      if s.consume = .idle then some
        { s with
          pendingShareUri := none
          consume := s.pendingShareUri.elim .foundNone .tookPending
          serving := s.current }
      else none
  | .consumeStep => s.consumeNext

/-- What a call has got hold of and will start to copy. -/
def held (s : ShareState) : List Delivered :=
  match s.consume with
  | .tookPending d => [d]
  | .returning (some d) => [d]
  | _ => []

/-- What was taken to be copied so far. -/
def taken (s : ShareState) : List Delivered := s.copies ++ s.held

/-- No intent is copied twice, and the newest intent at the beginning of a call has been
copied once when the call has returned. -/
def ConsumedOnce (s : ShareState) : Prop :=
  (∀ d, s.copies.count d ≤ 1) ∧ ∀ d ∈ s.served, s.copies.count d = 1

/-- An intent delivered with a consumed URI is itself waiting or taken; what a callback
writes to the slot has not been taken; what a call takes from the activity is not in
the slot. -/
def Unraced (s : ShareState) : ShareLabel → Prop
  | .callbackStep =>
      match s.callback with
      | .peeking callback d =>
          callback ≠ .onResume → d.uri ≠ none → s.isConsumed d →
            s.pendingShareUri = some d ∨ d ∈ s.taken
      | .writing callback d =>
          (callback = .onResume → s.pendingShareUri = none) → d ∉ s.taken
      | .idle => True
  | .consumeStep =>
      match s.consume with
      | .unconsumed d => s.pendingShareUri ≠ some d
      | _ => True
  | _ => True

instance (s : ShareState) (l : ShareLabel) : Decidable (s.Unraced l) := by
  cases l with
  | callbackStep => unfold Unraced; dsimp only; split <;> infer_instance
  | consumeStep => unfold Unraced; dsimp only; split <;> infer_instance
  | _ => unfold Unraced; infer_instance

/-- What holds between the slot, the consumed URIs, the call in progress and the
copies as long as nothing is raced. -/
structure Orderly (s : ShareState) : Prop where
  nodup : s.taken.Nodup
  slot : ∀ d, s.pendingShareUri = some d → d ∉ s.taken
  fresh : ∀ d, s.consume = .unconsumed d → d ∉ s.copies
  marked : ∀ d ∈ s.copies, d ∈ s.consumedShareUris
  returned : ∀ d, s.consume = .returning (some d) → d ∈ s.consumedShareUris
  newest : ∀ d, s.current = some d → s.pendingShareUri = some d ∨ d ∈ s.taken
  serves : ∀ d, s.serving = some d → d ∈ s.taken
  served : ∀ d ∈ s.served, d ∈ s.copies

/-- A fresh activity has delivered nothing. -/
theorem Orderly.start (intent : Intent) : (start intent).Orderly where
  nodup := List.nodup_nil
  slot := by simp [ShareState.start]
  fresh := by simp [ShareState.start]
  marked := by simp [ShareState.start]
  returned := by simp [ShareState.start]
  newest := by simp [ShareState.start]
  serves := by simp [ShareState.start]
  served := by simp [ShareState.start]

/-- In an orderly state every intent was consumed once. -/
theorem Orderly.consumedOnce {s : ShareState} (h : s.Orderly) : s.ConsumedOnce := by
  have hCopies : s.copies.Nodup := (List.nodup_append.mp h.nodup).1
  refine ⟨List.nodup_iff_count_le_one.mp hCopies, fun d hServed => ?_⟩
  exact List.count_eq_one_of_mem hCopies (h.served d hServed)

section Callbacks

/-- A callback that begins keeps the state orderly. -/
theorem Orderly.begin {s t : ShareState} (h : s.Orderly) {callback : Callback}
    (hNext : s.begin callback = some t) : t.Orderly := by
  rw [ShareState.begin] at hNext
  split at hNext
  · obtain rfl := Option.some.inj hNext
    exact { h with }
  · cases hNext

/-- An intent that arrives keeps the state orderly. -/
theorem Orderly.receive {s : ShareState} (h : s.Orderly) (intent : Intent) :
    (s.receive intent).Orderly := by
  refine { h with newest := fun d hCurrent => h.newest d ?_ }
  rw [ShareState.receive] at hCurrent
  dsimp only at hCurrent
  split at hCurrent
  · exact hCurrent
  · cases hCurrent

/-- The newest intent is still waiting or taken when its callback is through. -/
theorem Orderly.through {s : ShareState} (h : s.Orderly) {callback : Callback} {d : Delivered}
    (hKept : callback ≠ .onResume → s.pendingShareUri = some d ∨ d ∈ s.taken) :
    (s.through callback d).Orderly := by
  refine { h with newest := fun e hCurrent => ?_ }
  rw [ShareState.through] at hCurrent
  dsimp only at hCurrent
  split at hCurrent
  · exact h.newest e hCurrent
  · next hDelivers =>
      obtain rfl := Option.some.inj hCurrent
      exact hKept hDelivers

/-- Writing what has not been taken keeps order; an intent that is pushed out of the slot
is no longer the newest. -/
theorem Orderly.write {s : ShareState} (h : s.Orderly) {callback : Callback} {d : Delivered}
    (hFree : (callback = .onResume → s.pendingShareUri = none) → d ∉ s.taken) :
    ((s.writeSlot callback d).through callback d).Orderly := by
  by_cases hFull : callback = .onResume ∧ s.pendingShareUri ≠ none
  · rw [writeSlot, if_pos hFull]
    exact h.through fun hDelivers => absurd hFull.1 hDelivers
  · have hNew : d ∉ s.taken := by
      refine hFree fun hResume => ?_
      by_contra hSome
      exact hFull ⟨hResume, hSome⟩
    rw [writeSlot, if_neg hFull]
    refine { h with slot := ?_, newest := ?_ }
    · intro e hSlot
      obtain rfl := Option.some.inj hSlot
      exact hNew
    · intro e hCurrent
      rw [ShareState.through] at hCurrent
      dsimp only at hCurrent
      split at hCurrent
      · next hResume =>
          -- the slot was empty, so the newest intent had been taken from it
          rcases h.newest e hCurrent with hSlot | hTaken
          · exact absurd ⟨hResume, by simp [hSlot]⟩ hFull
          · exact Or.inr hTaken
      · obtain rfl := Option.some.inj hCurrent
        exact Or.inl rfl

/-- A step of a callback that nobody races keeps the state orderly. -/
theorem Orderly.callbackNext {s t : ShareState} (h : s.Orderly) (hUnraced : s.Unraced .callbackStep)
    (hNext : s.callbackNext = some t) : t.Orderly := by
  rw [ShareState.callbackNext] at hNext
  rw [Unraced] at hUnraced
  cases hCallback : s.callback with
  | idle => simp [hCallback] at hNext
  | peeking callback d =>
      simp only [hCallback] at hNext hUnraced
      split at hNext
      · obtain rfl := Option.some.inj hNext
        exact { h with }
      · next hShares =>
          split at hNext
          · next hConsumed =>
              obtain rfl := Option.some.inj hNext
              exact h.through fun hDelivers => hUnraced hDelivers hShares hConsumed
          · obtain rfl := Option.some.inj hNext
            exact { h with }
  | writing callback d =>
      simp only [hCallback] at hNext hUnraced
      obtain rfl := Option.some.inj hNext
      exact h.write hUnraced

end Callbacks

section Calls

theorem nodup_concat {l : List Delivered} (hList : l.Nodup) {d : Delivered} (h : d ∉ l) :
    (l ++ [d]).Nodup :=
  (List.perm_append_singleton d l).nodup_iff.mpr (List.nodup_cons.mpr ⟨h, hList⟩)

/-- A call begins by emptying the slot. -/
theorem Orderly.beginCall {s t : ShareState} (h : s.Orderly)
    (hNext : s.next .consumeShareIntent = some t) : t.Orderly := by
  rw [ShareState.next] at hNext
  split at hNext
  · next hIdle =>
      obtain rfl := Option.some.inj hNext
      have hTaken : s.taken = s.copies := by simp [taken, held, hIdle]
      have hSlot := h.slot
      have hNewest := h.newest
      have hNodup := h.nodup
      rw [hTaken] at hSlot hNewest hNodup
      cases hPending : s.pendingShareUri with
      | none =>
          have hSame : ∀ d, s.current = some d → d ∈ s.copies ++ [] := by
            intro d hCurrent
            simpa [hPending] using hNewest d hCurrent
          exact
            { nodup := by simpa [taken, held] using hNodup
              slot := by simp
              fresh := by simp
              marked := h.marked
              returned := by simp
              newest := fun d hCurrent => Or.inr (hSame d hCurrent)
              serves := hSame
              served := h.served }
      | some d =>
          have hFree : d ∉ s.copies := hSlot d hPending
          have hSame : ∀ e, s.current = some e → e ∈ s.copies ++ [d] := by
            intro e hCurrent
            rcases hNewest e hCurrent with hWaits | hTaken
            · obtain rfl := Option.some.inj (hPending.symm.trans hWaits)
              exact List.mem_append_right _ (List.mem_singleton_self _)
            · exact List.mem_append_left _ hTaken
          exact
            { nodup := nodup_concat hNodup hFree
              slot := by simp
              fresh := by simp
              marked := h.marked
              returned := by simp
              newest := fun e hCurrent => Or.inr (hSame e hCurrent)
              serves := hSame
              served := h.served }
  · cases hNext

theorem isConsumed_of_mem {s : ShareState} {d : Delivered} (h : d ∈ s.consumedShareUris) :
    s.isConsumed d = true :=
  List.any_eq_true.mpr ⟨d, h, by simp⟩

/-- The URI that a call has taken is marked. -/
theorem Orderly.mark {s : ShareState} (h : s.Orderly) {d : Delivered}
    (hTaken : s.held = [d] ∨ s.held = [] ∧ d ∉ s.copies ∧ s.pendingShareUri ≠ some d) :
    { s with
      consumedShareUris := d :: s.consumedShareUris
      consume := .returning (some d) }.Orderly := by
  have hSub : ∀ e ∈ s.taken, e ∈ s.copies ++ [d] := by
    intro e hMem
    rcases List.mem_append.mp hMem with hMem | hMem
    · exact List.mem_append_left _ hMem
    · rcases hTaken with hHeld | ⟨hHeld, -⟩
      · exact List.mem_append_right _ (hHeld ▸ hMem)
      · rw [hHeld] at hMem
        exact absurd hMem List.not_mem_nil
  have hFree : d ∉ s.copies ∧ s.pendingShareUri ≠ some d := by
    rcases hTaken with hHeld | ⟨-, hFree⟩
    · have hNodup := h.nodup
      rw [taken, hHeld] at hNodup
      refine ⟨fun hMem => ?_, fun hWaits => h.slot d hWaits ?_⟩
      · exact (List.nodup_append.mp hNodup).2.2 d hMem d (List.mem_singleton_self d) rfl
      · rw [taken, hHeld]
        exact List.mem_append_right _ (List.mem_singleton_self d)
    · exact hFree
  constructor
  case nodup =>
    exact nodup_concat (List.nodup_append.mp h.nodup).1 hFree.1
  case slot =>
    intro e hWaits hMem
    rcases List.mem_append.mp hMem with hMem | hMem
    · exact h.slot e hWaits (List.mem_append_left _ hMem)
    · obtain rfl := List.mem_singleton.mp hMem
      exact hFree.2 hWaits
  case fresh => simp
  case marked => exact fun e hMem => List.mem_cons_of_mem _ (h.marked e hMem)
  case returned =>
    intro e hReturns
    obtain rfl : d = e := by simpa using hReturns
    exact List.mem_cons_self
  case newest => exact fun e hCurrent => (h.newest e hCurrent).imp id (hSub e)
  case serves => exact fun e hServing => hSub e (h.serves e hServing)
  case served => exact h.served

/-- A step that takes and copies nothing. -/
theorem Orderly.look {s : ShareState} (h : s.Orderly) {consume : ConsumeState}
    (hBefore : s.held = []) (hAfter : { s with consume := consume }.held = [])
    (hFresh : ∀ d, consume = .unconsumed d → d ∉ s.copies)
    (hReturns : ∀ d, consume ≠ .returning (some d)) : { s with consume := consume }.Orderly := by
  have hTaken : { s with consume := consume }.taken = s.taken := by
    rw [taken, taken, hBefore, hAfter]
  exact
    { nodup := hTaken ▸ h.nodup
      slot := fun d hWaits => hTaken ▸ h.slot d hWaits
      fresh := hFresh
      marked := h.marked
      returned := fun d hEq => absurd hEq (hReturns d)
      newest := fun d hCurrent => hTaken ▸ h.newest d hCurrent
      serves := fun d hServing => hTaken ▸ h.serves d hServing
      served := h.served }

/-- A step of a consumption that nobody races keeps the state orderly. -/
theorem Orderly.consumeNext {s t : ShareState} (h : s.Orderly) (hUnraced : s.Unraced .consumeStep)
    (hNext : s.consumeNext = some t) : t.Orderly := by
  rw [ShareState.consumeNext] at hNext
  rw [Unraced] at hUnraced
  cases hConsume : s.consume with
  | idle => simp [hConsume] at hNext
  | tookPending d =>
      simp only [hConsume] at hNext
      obtain rfl := Option.some.inj hNext
      exact h.mark (Or.inl (by simp [held, hConsume]))
  | foundNone =>
      simp only [hConsume] at hNext
      obtain rfl := Option.some.inj hNext
      exact h.look (by simp [held, hConsume]) rfl (by simp) (by simp)
  | readIntent d =>
      simp only [hConsume] at hNext
      split at hNext
      · obtain rfl := Option.some.inj hNext
        exact h.look (by simp [held, hConsume]) rfl (by simp) (by simp)
      · next hShares =>
          obtain rfl := Option.some.inj hNext
          refine h.look (by simp [held, hConsume]) rfl ?_ (by simp)
          intro e hEq hMem
          obtain rfl : d = e := by simpa using hEq
          exact hShares (Or.inr (isConsumed_of_mem (h.marked d hMem)))
  | unconsumed d =>
      simp only [hConsume] at hNext hUnraced
      obtain rfl := Option.some.inj hNext
      exact h.mark (Or.inr ⟨by simp [held, hConsume], h.fresh d hConsume, hUnraced⟩)
  | returning d =>
      simp only [hConsume] at hNext
      obtain rfl := Option.some.inj hNext
      have hHeld : s.held = d.toList := by cases d <;> simp [held, hConsume]
      have hTaken : s.taken = s.copies ++ d.toList := by rw [taken, hHeld]
      have hSame : { s with
          consume := .idle
          copies := s.copies ++ d.toList
          serving := none
          served := s.served ++ s.serving.toList }.taken = s.taken := by
        show (s.copies ++ d.toList) ++ [] = s.taken
        rw [hTaken, List.append_nil]
      constructor
      case nodup =>
        rw [hSame]
        exact h.nodup
      case slot =>
        intro e hWaits
        rw [hSame]
        exact h.slot e hWaits
      case fresh => simp
      case marked =>
        intro e hMem
        rcases List.mem_append.mp hMem with hMem | hMem
        · exact h.marked e hMem
        · cases d with
          | none => exact absurd hMem List.not_mem_nil
          | some d =>
              obtain rfl := List.mem_singleton.mp hMem
              exact h.returned _ hConsume
      case returned => simp
      case newest =>
        intro e hCurrent
        rw [hSame]
        exact h.newest e hCurrent
      case serves => simp
      case served =>
        intro e hMem
        show e ∈ s.copies ++ d.toList
        rcases List.mem_append.mp hMem with hMem | hMem
        · exact List.mem_append_left _ (h.served e hMem)
        · rw [← hTaken]
          exact h.serves e (Option.mem_toList.mp hMem)

end Calls

/-- Every step that nobody races keeps the state orderly. -/
theorem Orderly.next {s t : ShareState} {l : ShareLabel} (h : s.Orderly) (hUnraced : s.Unraced l)
    (hNext : s.next l = some t) : t.Orderly := by
  cases l with
  | load => exact h.begin hNext
  | onNewIntent intent => exact (h.receive intent).begin hNext
  | onResume => exact h.begin hNext
  | callbackStep => exact h.callbackNext hUnraced hNext
  | consumeShareIntent => exact h.beginCall hNext
  | consumeStep => exact h.consumeNext hUnraced hNext

end ShareState

/-- In a run that is never raced, no intent is copied twice, and each one that was the
newest when a call began has been copied once when the call has returned. -/
theorem intents_consumed_once {intent : Intent} {labels : List ShareLabel} {s : ShareState}
    (hRun : exec ShareState.next (.start intent) labels = some s)
    (hUnraced : Meets ShareState.next ShareState.Unraced (.start intent) labels) :
    s.ConsumedOnce := by
  have hStep : ∀ s l t, ShareState.Orderly s → ShareState.Unraced s l →
      ShareState.next s l = some t → ShareState.Orderly t :=
    fun _ _ _ h hUnraced hNext => h.next hUnraced hNext
  exact (hUnraced.invariant hStep hRun (ShareState.Orderly.start intent)).consumedOnce

section OneThread

namespace ShareState

/-- Callbacks and calls that all run on one thread. -/
def Alone (s : ShareState) : ShareLabel → Prop
  | .load => s.consume = .idle
  | .onNewIntent _ => s.consume = .idle
  | .onResume => s.consume = .idle
  | .consumeShareIntent => s.callback = .idle
  | _ => True

/-- An intent delivered with a consumed URI is itself waiting or taken. -/
def SharesAnew (s : ShareState) (l : ShareLabel) : Prop :=
  ∀ callback d, l = .callbackStep → s.callback = .peeking callback d → s.Unraced l

/-- One of the two is at rest; what is about to be written has not been copied, and a
call that found the slot empty still finds it so. -/
structure Serial (s : ShareState) : Prop where
  rests : s.consume = .idle ∨ s.callback = .idle
  writes : ∀ callback d, s.callback = .writing callback d → d ∉ s.copies
  empty : s.consume ≠ .idle → s.held = [] → s.consume ≠ .returning none → s.pendingShareUri = none

/-- A callback that begins alone keeps the accesses serial. -/
theorem Serial.begin {s t : ShareState} (h : s.Serial) {callback : Callback}
    (hAlone : s.consume = .idle) (hNext : s.begin callback = some t) : t.Serial := by
  rw [ShareState.begin] at hNext
  split at hNext
  · obtain rfl := Option.some.inj hNext
    exact ⟨Or.inl hAlone, by simp, h.empty⟩
  · cases hNext

/-- A callback's step keeps the accesses serial. -/
theorem Serial.callbackNext {s t : ShareState} (h : s.Serial) (hOrderly : s.Orderly)
    (hNext : s.callbackNext = some t) : t.Serial := by
  have hRests : s.callback ≠ .idle → s.consume = .idle := fun hBusy => h.rests.resolve_right hBusy
  rw [ShareState.callbackNext] at hNext
  cases hCallback : s.callback with
  | idle => simp [hCallback] at hNext
  | peeking callback d =>
      have hIdle := hRests (by simp [hCallback])
      simp only [hCallback] at hNext
      split at hNext
      · obtain rfl := Option.some.inj hNext
        exact ⟨Or.inr rfl, by simp, h.empty⟩
      · split at hNext
        · obtain rfl := Option.some.inj hNext
          exact ⟨Or.inr rfl, by simp [through], h.empty⟩
        · next hNew =>
            obtain rfl := Option.some.inj hNext
            refine ⟨Or.inl hIdle, ?_, h.empty⟩
            intro k e hWrites hMem
            obtain ⟨-, rfl⟩ : callback = k ∧ d = e := by simpa using hWrites
            exact hNew (isConsumed_of_mem (hOrderly.marked d hMem))
  | writing callback d =>
      have hIdle := hRests (by simp [hCallback])
      simp only [hCallback] at hNext
      obtain rfl := Option.some.inj hNext
      refine ⟨Or.inr rfl, by simp [through], ?_⟩
      intro hBusy
      refine absurd ?_ hBusy
      rw [writeSlot]
      split <;> exact hIdle

/-- A consumption that begins alone keeps the accesses serial. -/
theorem Serial.beginCall {s t : ShareState} (hAlone : s.callback = .idle)
    (hNext : s.next .consumeShareIntent = some t) : t.Serial := by
  rw [ShareState.next] at hNext
  split at hNext
  · obtain rfl := Option.some.inj hNext
    exact ⟨Or.inr hAlone, by simp [hAlone], fun _ _ _ => rfl⟩
  · cases hNext

/-- A consumption's step keeps the accesses serial. -/
theorem Serial.consumeNext {s t : ShareState} (h : s.Serial) (hNext : s.consumeNext = some t) :
    t.Serial := by
  rw [ShareState.consumeNext] at hNext
  cases hConsume : s.consume with
  | idle => simp [hConsume] at hNext
  | tookPending d =>
      have hRests := h.rests.resolve_left (by simp [hConsume])
      simp only [hConsume] at hNext
      obtain rfl := Option.some.inj hNext
      exact ⟨Or.inr hRests, h.writes, by simp [held]⟩
  | foundNone =>
      have hRests := h.rests.resolve_left (by simp [hConsume])
      have hEmpty := h.empty (by simp [hConsume]) (by simp [held, hConsume]) (by simp [hConsume])
      simp only [hConsume] at hNext
      obtain rfl := Option.some.inj hNext
      exact ⟨Or.inr hRests, h.writes, fun _ _ _ => hEmpty⟩
  | readIntent d =>
      have hRests := h.rests.resolve_left (by simp [hConsume])
      have hEmpty := h.empty (by simp [hConsume]) (by simp [held, hConsume]) (by simp [hConsume])
      simp only [hConsume] at hNext
      split at hNext
      · obtain rfl := Option.some.inj hNext
        exact ⟨Or.inr hRests, h.writes, fun _ _ _ => hEmpty⟩
      · obtain rfl := Option.some.inj hNext
        exact ⟨Or.inr hRests, h.writes, fun _ _ _ => hEmpty⟩
  | unconsumed d =>
      have hRests := h.rests.resolve_left (by simp [hConsume])
      simp only [hConsume] at hNext
      obtain rfl := Option.some.inj hNext
      exact ⟨Or.inr hRests, h.writes, by simp [held]⟩
  | returning d =>
      have hRests := h.rests.resolve_left (by simp [hConsume])
      simp only [hConsume] at hNext
      obtain rfl := Option.some.inj hNext
      exact ⟨Or.inl rfl, by simp [hRests], by simp⟩

/-- On one thread only a URI that is shared again can be lost. -/
theorem Serial.unraced {s : ShareState} (h : s.Serial) {l : ShareLabel} (hAnew : s.SharesAnew l) :
    s.Unraced l := by
  cases l with
  | callbackStep =>
      cases hCallback : s.callback with
      | idle => simp [Unraced, hCallback]
      | peeking callback d => exact hAnew callback d rfl hCallback
      | writing callback d =>
          have hIdle := h.rests.resolve_right (by simp [hCallback])
          have hTaken : s.taken = s.copies := by simp [taken, held, hIdle]
          simp only [Unraced, hCallback, hTaken]
          exact fun _ => h.writes callback d hCallback
  | consumeStep =>
      cases hConsume : s.consume with
      | unconsumed d =>
          have hEmpty :=
            h.empty (by simp [hConsume]) (by simp [held, hConsume]) (by simp [hConsume])
          simp [Unraced, hConsume, hEmpty]
      | _ => simp [Unraced, hConsume]
  | _ => trivial

/-- Every step taken alone keeps the accesses serial. -/
theorem Serial.next {s t : ShareState} {l : ShareLabel} (h : s.Serial) (hOrderly : s.Orderly)
    (hAlone : s.Alone l) (hNext : s.next l = some t) : t.Serial := by
  cases l with
  | load => exact h.begin hAlone hNext
  | onNewIntent intent =>
      have hReceived : (s.receive intent).Serial := ⟨h.rests, h.writes, h.empty⟩
      exact hReceived.begin hAlone hNext
  | onResume => exact h.begin hAlone hNext
  | callbackStep => exact h.callbackNext hOrderly hNext
  | consumeShareIntent => exact Serial.beginCall hAlone hNext
  | consumeStep => exact h.consumeNext hNext

end ShareState

/-- With callbacks and calls on one thread, every intent that shares a new URI is
consumed once. -/
theorem intents_consumed_once_alone {intent : Intent} {labels : List ShareLabel} {s : ShareState}
    (hRun : exec ShareState.next (.start intent) labels = some s)
    (hAlone : Meets ShareState.next ShareState.Alone (.start intent) labels)
    (hAnew : Meets ShareState.next ShareState.SharesAnew (.start intent) labels) :
    s.ConsumedOnce := by
  have hStep : ∀ s l t, ShareState.Orderly s ∧ ShareState.Serial s →
      ShareState.Alone s l ∧ ShareState.SharesAnew s l → ShareState.next s l = some t →
      ShareState.Orderly t ∧ ShareState.Serial t := by
    rintro s l t ⟨hOrderly, hSerial⟩ ⟨hAlone, hAnew⟩ hNext
    exact ⟨hOrderly.next (hSerial.unraced hAnew) hNext, hSerial.next hOrderly hAlone hNext⟩
  have hStart : ShareState.Serial (.start intent) :=
    ⟨Or.inl rfl, by simp [ShareState.start], by simp [ShareState.start]⟩
  exact ((hAlone.and hAnew).invariant hStep hRun
    ⟨ShareState.Orderly.start intent, hStart⟩).1.consumedOnce

end OneThread

section SampleRuns

private def sendOf (uri : String) : Intent :=
  { action := some actionSend, parcelableStream := some uri, stream := none, firstClipUri := none,
    data := none }

/-- A whole call that finds the URI in the slot. -/
private def takes : List ShareLabel := [.consumeShareIntent, .consumeStep, .consumeStep]

/-- A whole delivery of an intent whose URI is new. -/
private def delivers (uri : String) : List ShareLabel :=
  [.onNewIntent (sendOf uri), .callbackStep, .callbackStep]

private def twoShares : List ShareLabel :=
  [.load, .callbackStep, .callbackStep] ++ takes ++ delivers "content://b" ++ [.onResume,
    .callbackStep, .callbackStep] ++ takes

theorem intents_consumed_once_twoShares : ∃ s,
    exec ShareState.next (.start (sendOf "content://a")) twoShares = some s ∧ s.ConsumedOnce := by
  have hRun : ∃ s, exec ShareState.next (.start (sendOf "content://a")) twoShares = some s ∧
      s.served.length = 2 := by decide
  obtain ⟨s, hRun, -⟩ := hRun
  exact ⟨s, hRun, intents_consumed_once hRun (by decide)⟩

/-- The same URI shared a second time is not copied. -/
private def sharedAgain : List ShareLabel :=
  delivers "content://a" ++ takes ++ [.onNewIntent (sendOf "content://a"), .callbackStep,
    .consumeShareIntent, .consumeStep, .consumeStep, .consumeStep]

/-- A resume that asks before the URI is marked and writes after: it is copied twice. -/
private def resumedBetween : List ShareLabel :=
  delivers "content://a" ++ [.onResume, .consumeShareIntent, .callbackStep, .callbackStep,
    .consumeStep, .consumeStep] ++ takes

theorem intents_not_consumed_once :
    (∃ s, exec ShareState.next (.start (sendOf "content://b")) sharedAgain = some s ∧
      ¬s.ConsumedOnce) ∧
    ∃ s, exec ShareState.next (.start (sendOf "content://b")) resumedBetween = some s ∧
      ¬s.ConsumedOnce := by
  have hLost : ∃ s, exec ShareState.next (.start (sendOf "content://b")) sharedAgain = some s ∧
      ∃ d ∈ s.served, s.copies.count d = 0 := by decide
  have hTwice : ∃ s, exec ShareState.next (.start (sendOf "content://b")) resumedBetween = some s ∧
      ∃ d ∈ s.copies, s.copies.count d = 2 := by decide
  obtain ⟨s, hRun, d, hServed, hNone⟩ := hLost
  obtain ⟨t, hRun', e, -, hTwo⟩ := hTwice
  refine ⟨⟨s, hRun, fun hOnce => ?_⟩, ⟨t, hRun', fun hOnce => ?_⟩⟩
  · have := hOnce.2 d hServed
    omega
  · have := hOnce.1 e
    omega

end SampleRuns

end AltSendme.Android
