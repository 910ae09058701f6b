import AltSendme.Execution.Run

/-! Invites from paired devices as the frontend shows them: one slot
(`paired-invite-store.ts`), a listener that fills it (`DeviceNodeSync.tsx`) and
a dialog with two buttons and a way to dismiss it (`PairedInviteDialog.tsx`).
Handlers run to their end without another event between. -/
namespace AltSendme.Frontend
open Execution

structure PairedInvitePayload where
  blobTicket : String
  fileCount : Nat
  totalSize : Nat
  senderName : String
  remoteEndpointId : String
  deriving DecidableEq, Repr

/-- What the dialog asks of the rest of the program. -/
inductive UiCall where
  | respondPairedInvite (endpointId : String) (accepted : Bool)
  | acceptPairedInvite (invite : PairedInvitePayload)
  | navigate (path : String)
  | openReceiveTabHint
  deriving DecidableEq, Repr

/-- `acceptPairedInvite` tells whether the receive tab has registered its
action; `calls` is everything called so far. -/
structure InviteUi where
  invite : Option PairedInvitePayload
  acceptPairedInvite : Bool
  pathname : String
  calls : List UiCall
  deriving DecidableEq, Repr

/-- `none` is a payload that does not parse. -/
inductive InviteEvent where
  | pairedInviteReceived (payload : Option PairedInvitePayload)
  | registerAcceptPairedInvite (registered : Bool)
  | acceptClicked
  | declineClicked
  | dismissed
  deriving DecidableEq, Repr

namespace InviteUi

def setInvite (s : InviteUi) (invite : Option PairedInvitePayload) : InviteUi :=
  { s with invite := invite }

def call (s : InviteUi) (c : UiCall) : InviteUi := { s with calls := s.calls ++ [c] }

def notifyInviteResponse (s : InviteUi) (endpointId : String) (accepted : Bool) : InviteUi :=
  s.call (.respondPairedInvite endpointId accepted)

def decline (s : InviteUi) : InviteUi :=
  match s.invite with
  | none => s
  | some current => (s.setInvite none).notifyInviteResponse current.remoteEndpointId false

def navigate (s : InviteUi) (path : String) : InviteUi :=
  if s.pathname = path then s else { s with pathname := path }.call (.navigate path)

def accept (s : InviteUi) : InviteUi :=
  match s.invite with
  | none => s
  | some current =>
      if s.acceptPairedInvite then
        (((s.setInvite none).notifyInviteResponse current.remoteEndpointId true).navigate "/").call
          (.acceptPairedInvite current)
      else s.call .openReceiveTabHint

/-- The decline button closes the dialog too, so its click is followed by `onOpenChange`. -/
def next (s : InviteUi) : InviteEvent → Option InviteUi
  | .pairedInviteReceived none => some s
  | .pairedInviteReceived (some payload) => some (s.setInvite (some payload))
  | .registerAcceptPairedInvite registered => some { s with acceptPairedInvite := registered }
  | .acceptClicked => some s.accept
  | .declineClicked => some s.decline.decline
  | .dismissed => some s.decline

/-- The app after its start. -/
def opened (acceptPairedInvite : Bool) (pathname : String) : InviteUi :=
  ⟨none, acceptPairedInvite, pathname, []⟩

/-- The peers that were answered, once for each call of `respond_paired_invite`. -/
def answered (s : InviteUi) : List String :=
  s.calls.filterMap fun
    | .respondPairedInvite endpointId _ => some endpointId
    | _ => none

/-- The peer whose invite is shown. -/
def shown (s : InviteUi) : List String := (s.invite.map (·.remoteEndpointId)).toList

end InviteUi

/-- The peers invites arrived from. -/
def received (events : List InviteEvent) : List String :=
  events.filterMap fun
    | .pairedInviteReceived (some payload) => some payload.remoteEndpointId
    | _ => none

/-- An invite arrives while another one is shown. -/
def Overwrites (s : InviteUi) : InviteEvent → Prop
  | .pairedInviteReceived (some _) => s.invite.isSome = true
  | _ => False

instance (s : InviteUi) (e : InviteEvent) : Decidable (Overwrites s e) := by
  unfold Overwrites
  split <;> infer_instance

namespace InviteUi

/-- Nothing but answers moves an invite out of the slot. -/
def Settles (s t : InviteUi) : Prop := t.answered ++ t.shown = s.answered ++ s.shown

/-- Two steps that settle do so together. -/
theorem Settles.trans {s t u : InviteUi} (hFirst : Settles s t) (hSecond : Settles t u) :
    Settles s u := Eq.trans hSecond hFirst

@[simp] theorem answered_setInvite (s : InviteUi) (invite : Option PairedInvitePayload) :
    (s.setInvite invite).answered = s.answered := rfl

@[simp] theorem shown_call (s : InviteUi) (c : UiCall) : (s.call c).shown = s.shown := rfl

/-- Only a response answers an invite. -/
theorem answered_call_other {s : InviteUi} {c : UiCall}
    (h : ∀ endpointId accepted, c ≠ .respondPairedInvite endpointId accepted) :
    (s.call c).answered = s.answered := by
  rw [answered, call, List.filterMap_append]
  cases c with
  | respondPairedInvite endpointId accepted => exact absurd rfl (h endpointId accepted)
  | acceptPairedInvite invite => simp [answered]
  | navigate path => simp [answered]
  | openReceiveTabHint => simp [answered]

/-- A call other than a response leaves every invite where it is. -/
theorem settles_call {s : InviteUi} {c : UiCall}
    (h : ∀ endpointId accepted, c ≠ .respondPairedInvite endpointId accepted) :
    Settles s (s.call c) := by
  rw [Settles, answered_call_other h, shown_call]

/-- Navigating leaves every invite where it is. -/
theorem settles_navigate (s : InviteUi) (path : String) : Settles s (s.navigate path) := by
  unfold navigate
  split
  · rfl
  · exact @settles_call { s with pathname := path } _ (by simp)

/-- Taking the invite out of the slot and answering its peer. -/
theorem settles_answer {s : InviteUi} {current : PairedInvitePayload} (accepted : Bool)
    (h : s.invite = some current) :
    Settles s ((s.setInvite none).notifyInviteResponse current.remoteEndpointId accepted) := by
  simp [Settles, notifyInviteResponse, answered, shown, call, setInvite, h]

theorem settles_decline (s : InviteUi) : Settles s s.decline := by
  unfold decline
  split
  · rfl
  · next current hInvite => exact settles_answer false hInvite

theorem settles_accept (s : InviteUi) : Settles s s.accept := by
  unfold accept
  split
  · rfl
  · next current hInvite =>
      split
      · exact ((settles_answer true hInvite).trans (settles_navigate _ _)).trans
          (settles_call (by simp))
      · exact settles_call (by simp)

/-- A step either settles, or an invite arrives and takes the slot. -/
theorem next_cases {s t : InviteUi} {e : InviteEvent} (h : s.next e = some t) :
    Settles s t ∧ received [e] = [] ∧ ¬Overwrites s e ∨
      ∃ payload, e = .pairedInviteReceived (some payload) ∧ t = s.setInvite (some payload) := by
  cases e with
  | pairedInviteReceived payload =>
      cases payload with
      | none =>
          obtain rfl := Option.some.inj h
          exact Or.inl ⟨rfl, rfl, id⟩
      | some payload => exact Or.inr ⟨payload, rfl, (Option.some.inj h).symm⟩
  | registerAcceptPairedInvite registered =>
      obtain rfl := Option.some.inj h
      exact Or.inl ⟨rfl, rfl, id⟩
  | acceptClicked =>
      obtain rfl := Option.some.inj h
      exact Or.inl ⟨s.settles_accept, rfl, id⟩
  | declineClicked =>
      obtain rfl := Option.some.inj h
      exact Or.inl ⟨s.settles_decline.trans s.decline.settles_decline, rfl, id⟩
  | dismissed =>
      obtain rfl := Option.some.inj h
      exact Or.inl ⟨s.settles_decline, rfl, id⟩

end InviteUi

/-- What was received adds up over the run. -/
theorem received_append (first second : List InviteEvent) :
    received (first ++ second) = received first ++ received second :=
  List.filterMap_append

/-- An invite is shown exactly while one is kept. -/
theorem shown_ne_nil_iff {s : InviteUi} : s.shown ≠ [] ↔ s.invite.isSome = true := by
  cases hInvite : s.invite <;> simp [InviteUi.shown, hInvite]

/-- Every invite received was answered, is shown or was lost, and invites are
lost exactly by being overwritten. -/
def Accounted (start : InviteUi) (events : List InviteEvent) (s : InviteUi) : Prop :=
  ∃ lost, (received events).Perm (s.answered ++ s.shown ++ lost) ∧
    (lost ≠ [] ↔ Hits InviteUi.next Overwrites start events)

/-- One step keeps the account of every invite received. -/
theorem Accounted.step {start s t : InviteUi} {events : List InviteEvent} {e : InviteEvent}
    (h : Accounted start events s) (hPrior : exec InviteUi.next start events = some s)
    (hNext : s.next e = some t) : Accounted start (events ++ [e]) t := by
  obtain ⟨lost, hPerm, hLost⟩ := h
  rcases InviteUi.next_cases hNext with ⟨hSettles, hNone, hKept⟩ | ⟨payload, rfl, rfl⟩
  · refine ⟨lost, ?_, ?_⟩
    · rw [received_append, hNone, List.append_nil, hSettles]
      exact hPerm
    · rw [hits_concat hPrior, hLost]
      simp [hKept]
  · refine ⟨s.shown ++ lost, ?_, ?_⟩
    · have hAll := hPerm.append_right [payload.remoteEndpointId]
      rw [received_append]
      refine hAll.trans ?_
      have hSlot : (s.setInvite (some payload)).shown = [payload.remoteEndpointId] := rfl
      rw [InviteUi.answered_setInvite, hSlot, List.append_assoc, List.append_assoc,
        List.append_assoc]
      refine List.Perm.append_left _ ?_
      rw [← List.append_assoc]
      exact List.perm_append_comm
    · have hOver : Overwrites s (.pairedInviteReceived (some payload)) ↔ s.shown ≠ [] :=
        shown_ne_nil_iff.symm
      rw [hits_concat hPrior, ← hLost, hOver]
      cases s.shown <;> simp

/-- In every run each invite received was answered, is shown or was overwritten. -/
theorem invites_accounted {acceptPairedInvite : Bool} {pathname : String}
    {events : List InviteEvent} {s : InviteUi}
    (hRun : exec InviteUi.next (.opened acceptPairedInvite pathname) events = some s) :
    Accounted (.opened acceptPairedInvite pathname) events s := by
  have hStart : Accounted (.opened acceptPairedInvite pathname) []
      (.opened acceptPairedInvite pathname) := ⟨[], List.Perm.refl _, by simp [Hits]⟩
  exact exec_history hStart (fun _ _ _ _ hPrior hInv hNext => hInv.step hPrior hNext) hRun

/-- With no invite shown, every peer has been answered as often as it invited
exactly when no invite arrived while another one was shown. -/
theorem invites_answered_once_iff {acceptPairedInvite : Bool} {pathname : String}
    {events : List InviteEvent} {s : InviteUi}
    (hRun : exec InviteUi.next (.opened acceptPairedInvite pathname) events = some s)
    (hIdle : s.invite = none) :
    (∀ peer, s.answered.count peer = (received events).count peer) ↔
      ¬Hits InviteUi.next Overwrites (.opened acceptPairedInvite pathname) events := by
  obtain ⟨lost, hPerm, hLost⟩ := invites_accounted hRun
  have hSlot : s.shown = [] := by rw [InviteUi.shown, hIdle]; rfl
  rw [hSlot, List.append_nil] at hPerm
  rw [← hLost, not_not]
  constructor
  · intro hOnce
    refine List.eq_nil_iff_forall_not_mem.mpr fun peer hMem => ?_
    have hCount := hPerm.count_eq peer
    rw [List.count_append, ← hOnce peer] at hCount
    have := List.count_pos_iff.mpr hMem
    omega
  · rintro rfl peer
    rw [List.append_nil] at hPerm
    exact (hPerm.count_eq peer).symm

def inviteFrom (endpointId : String) : InviteEvent :=
  .pairedInviteReceived (some ⟨"blob", 1, 10, endpointId, endpointId⟩)

def inTurn : List InviteEvent :=
  [inviteFrom "a", .declineClicked, inviteFrom "b", .acceptClicked]

theorem invites_answered_once_iff_inTurn : ∃ s,
    exec InviteUi.next (.opened true "/") inTurn = some s ∧
      s.answered.count "a" = (received inTurn).count "a" ∧
      s.answered.count "b" = (received inTurn).count "b" := by
  have hRun : ∃ s, exec InviteUi.next (.opened true "/") inTurn = some s ∧ s.invite = none := by
    decide
  obtain ⟨s, hRun, hIdle⟩ := hRun
  have hOnce := (invites_answered_once_iff hRun hIdle).mpr (by decide)
  exact ⟨s, hRun, hOnce "a", hOnce "b"⟩

/-- A second peer's invite replaces the first one's, which nobody answers. -/
theorem invite_unanswered :
    ¬∀ (events : List InviteEvent) (s : InviteUi),
      exec InviteUi.next (.opened true "/") events = some s → s.invite = none →
      ∀ peer, s.answered.count peer = (received events).count peer := by
  intro h
  have hRun : ∃ s, exec InviteUi.next (.opened true "/")
        [inviteFrom "a", inviteFrom "b", .declineClicked] = some s ∧
      s.invite = none ∧ s.answered.count "a" = 0 := by decide
  obtain ⟨s, hRun, hIdle, hNone⟩ := hRun
  have hOnce := h _ s hRun hIdle "a"
  rw [hNone] at hOnce
  exact absurd hOnce (by decide)

end AltSendme.Frontend
