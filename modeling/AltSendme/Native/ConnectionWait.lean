import AltSendme.Execution.Run
import AltSendme.Protocol.Identity
import Mathlib.Logic.Function.Basic

/-! Waiting for a connection (`paired_connections.rs`). A `wait_for_connection`
looks at the sessions and then waits on the `Notify` it shares with the other
waits of its key; a `set_session` inserts and then notifies. Each await, and each
pair of accesses to different locks, is a place where others can come between. -/
namespace AltSendme
open Execution

variable {Conn : Type}

/-- Where a `wait_for_connection` stands. It has a `Notify` once it registered. -/
inductive WaitStage (Conn : Type) where
  | entering
  | registering
  | looking (notify : Nat)
  /-- No session was there, and `notified()` is not called yet. -/
  | arming (notify : Nat)
  | waiting (notify : Nat) (woken : Bool)
  | returned (result : Option Conn)
  deriving DecidableEq

structure WaitCall (Conn : Type) where
  key : String
  stage : WaitStage Conn
  deriving DecidableEq

/-- What a `set_session` or a `remove_session` has still to do. -/
inductive SessionChange (Conn : Type) where
  | inserting (key : String) (conn : Conn)
  | taking (key : String)
  | notifying (key : String) (notify : Nat)
  | removing (key : String)
  | done
  deriving DecidableEq

/-- The tables of a `PairedConnectionManager` and the calls under way on them. The
presence and the store, which `set_session` writes before it notifies, do not
await and are left out. -/
structure ConnectionManager (Conn : Type) where
  sessions : String → Option Conn
  waiters : String → Option Nat
  /-- The key each `Notify` was made for, in the order in which they were made. -/
  notifies : List String
  waitersLocked : Bool
  waits : List (WaitCall Conn)
  changes : List (SessionChange Conn)

inductive ManagerEvent (Conn : Type) where
  | waitForConnection (endpointId : String)
  | setSession (key : String) (conn : Conn)
  | removeSession (key : String)
  | wait (i : Nat)
  | change (i : Nat)
  | timeOut (i : Nat)

/-- A task that waits on a `Notify` is woken by it; one that does not is not. -/
def WaitCall.notified (notify : Nat) (w : WaitCall Conn) : WaitCall Conn :=
  match w.stage with
  | .waiting own false => { w with stage := .waiting own (own == notify) }
  | _ => w

namespace ConnectionManager

def new : ConnectionManager Conn := ⟨fun _ => none, fun _ => none, [], false, [], []⟩

def setStage (m : ConnectionManager Conn) (i : Nat) (w : WaitCall Conn) (stage : WaitStage Conn) :
    ConnectionManager Conn :=
  { m with waits := m.waits.set i { w with stage := stage } }

/-- The entry `or_insert_with` makes. -/
def makeNotify (m : ConnectionManager Conn) (key : String) : ConnectionManager Conn :=
  { m with
    waiters := Function.update m.waiters key (some m.notifies.length)
    notifies := m.notifies ++ [key] }

/-- The next access of a `wait_for_connection`. -/
def goOn (m : ConnectionManager Conn) (i : Nat) (w : WaitCall Conn) :
    Option (ConnectionManager Conn) :=
  match w.stage with
  | .entering =>
      match m.sessions w.key with
      | some conn => some (m.setStage i w (.returned (some conn)))
      | none => some (m.setStage i w .registering)
  | .registering =>
      if m.waitersLocked then none
      else
        match m.waiters w.key with
        | some notify => some (m.setStage i w (.looking notify))
        | none =>
            some ((m.makeNotify w.key).setStage i w (.looking m.notifies.length))
  | .looking notify =>
      match m.sessions w.key with
      | some conn => some (m.setStage i w (.returned (some conn)))
      | none => some (m.setStage i w (.arming notify))
  | .arming notify => some (m.setStage i w (.waiting notify false))
  | .waiting notify true => some (m.setStage i w (.looking notify))
  | .waiting _ false => none
  | .returned _ => none

/-- The next access of a `set_session` or a `remove_session`. The lock on the
waiters is held until those of the key are notified. -/
def proceed (m : ConnectionManager Conn) (i : Nat) : SessionChange Conn →
    Option (ConnectionManager Conn)
  | .inserting key conn =>
      some { m with
        sessions := Function.update m.sessions key (some conn)
        changes := m.changes.set i (.taking key) }
  | .taking key =>
      if m.waitersLocked then none
      else
        match m.waiters key with
        | some notify =>
            some { m with
              waiters := Function.update m.waiters key none
              waitersLocked := true
              changes := m.changes.set i (.notifying key notify) }
        | none => some { m with changes := m.changes.set i .done }
  | .notifying _ notify =>
      some { m with
        waits := m.waits.map (WaitCall.notified notify)
        waitersLocked := false
        changes := m.changes.set i .done }
  | .removing key =>
      some { m with
        sessions := Function.update m.sessions key none
        changes := m.changes.set i .done }
  | .done => none

/-- A timeout ends a wait where it awaits: at the lock of the sessions, or at a
`Notify` that did not wake it. -/
def expire (m : ConnectionManager Conn) (i : Nat) (w : WaitCall Conn) :
    Option (ConnectionManager Conn) :=
  match w.stage with
  | .looking _ | .waiting _ false => some (m.setStage i w (.returned none))
  | _ => none

def step (m : ConnectionManager Conn) : ManagerEvent Conn → Option (ConnectionManager Conn)
  | .waitForConnection endpointId =>
      some { m with waits := m.waits ++ [⟨endpointId.toLowercase, .entering⟩] }
  | .setSession key conn => some { m with changes := m.changes ++ [.inserting key conn] }
  | .removeSession key => some { m with changes := m.changes ++ [.removing key] }
  | .wait i => (m.waits[i]?).bind (m.goOn i)
  | .change i => (m.changes[i]?).bind (m.proceed i)
  | .timeOut i => (m.waits[i]?).bind (m.expire i)

end ConnectionManager

/-- The `Notify` that a stage is about to wait on. -/
def WaitStage.arms : WaitStage Conn → Option Nat
  | .arming notify => some notify
  | _ => none

def WaitStage.looks : WaitStage Conn → Bool
  | .looking _ => true
  | _ => false

/-- A `set_session` of the key between its insert and its notification. -/
def SessionChange.announces (key : String) : SessionChange Conn → Bool
  | .taking own | .notifying own _ => own == key
  | _ => false

namespace ConnectionManager

def Announcing (m : ConnectionManager Conn) (key : String) : Prop :=
  ∃ change ∈ m.changes, change.announces key = true

/-- Whoever waits on the `Notify` is notified by the next `set_session` of the key. -/
def Reaches (m : ConnectionManager Conn) (key : String) (notify : Nat) : Prop :=
  m.waiters key = some notify ∨ .notifying key notify ∈ m.changes

/-- A call that starts to wait does so on a `Notify` that is still to be notified.
When a call's time is up with a session there, it is not held up by the lock of the
sessions, and no `set_session` of its key is half done. -/
def InTime (m : ConnectionManager Conn) : ManagerEvent Conn → Prop
  | .wait i => ∀ w ∈ m.waits[i]?, ∀ notify ∈ w.stage.arms, m.Reaches w.key notify
  | .timeOut i => ∀ w ∈ m.waits[i]?, (m.sessions w.key).isSome →
      w.stage.looks = false ∧ ¬ m.Announcing w.key
  | _ => True

instance [DecidableEq Conn] (m : ConnectionManager Conn) (e : ManagerEvent Conn) :
    Decidable (m.InTime e) :=
  match e with
  | .wait i =>
      inferInstanceAs (Decidable (∀ w ∈ m.waits[i]?, ∀ notify ∈ w.stage.arms,
        m.waiters w.key = some notify ∨ .notifying w.key notify ∈ m.changes))
  | .timeOut i =>
      inferInstanceAs (Decidable (∀ w ∈ m.waits[i]?, (m.sessions w.key).isSome →
        w.stage.looks = false ∧ ¬ ∃ change ∈ m.changes, change.announces w.key = true))
  | .waitForConnection _ | .setSession _ _ | .removeSession _ | .change _ => .isTrue trivial

/-- No call's time runs out while there is a session of its key. -/
def Heard (m : ConnectionManager Conn) : ManagerEvent Conn → Prop
  | .timeOut i => ∀ w ∈ m.waits[i]?, (m.expire i w).isSome → m.sessions w.key = none
  | _ => True

end ConnectionManager

/-- The `Notify` a call holds. -/
def WaitStage.notify : WaitStage Conn → Option Nat
  | .looking notify | .arming notify | .waiting notify _ => some notify
  | .entering | .registering | .returned _ => none

/-- The call has looked, seen no session, and was not woken since. -/
inductive WaitStage.Unaware : WaitStage Conn → Nat → Prop where
  | arming (notify : Nat) : Unaware (.arming notify) notify
  | waiting (notify : Nat) : Unaware (.waiting notify false) notify

namespace ConnectionManager

/-- A `Notify` serves one key. -/
structure Owned (m : ConnectionManager Conn) : Prop where
  waiters : ∀ key notify, m.waiters key = some notify → m.notifies[notify]? = some key
  changes : ∀ key notify, .notifying key notify ∈ m.changes → m.notifies[notify]? = some key
  waits : ∀ w ∈ m.waits, ∀ notify, w.stage.notify = some notify →
    m.notifies[notify]? = some w.key

/-- What is true of a call: a session it has not seen is one whose `set_session` has
not yet taken its `Notify`, and it waits on one that will be notified. -/
structure Informed (m : ConnectionManager Conn) (w : WaitCall Conn) : Prop where
  told : ∀ notify, w.stage.Unaware notify → m.waiters w.key = some notify →
    m.sessions w.key ≠ none → .taking w.key ∈ m.changes
  reached : ∀ notify, w.stage = .waiting notify false → m.Reaches w.key notify

def AllInformed (m : ConnectionManager Conn) : Prop := ∀ w ∈ m.waits, m.Informed w

end ConnectionManager

section Steps
variable {m m' : ConnectionManager Conn}

/-- How a `wait_for_connection` goes on without touching the tables. -/
inductive ConnectionManager.GoesOn (m : ConnectionManager Conn) (key : String) :
    WaitStage Conn → WaitStage Conn → Prop where
  | found (conn : Conn) (hSession : m.sessions key = some conn) :
      GoesOn m key .entering (.returned (some conn))
  | absent (hSession : m.sessions key = none) : GoesOn m key .entering .registering
  | joins (notify : Nat) (hWaiter : m.waiters key = some notify) :
      GoesOn m key .registering (.looking notify)
  | seen (notify : Nat) (conn : Conn) (hSession : m.sessions key = some conn) :
      GoesOn m key (.looking notify) (.returned (some conn))
  | unseen (notify : Nat) (hSession : m.sessions key = none) :
      GoesOn m key (.looking notify) (.arming notify)
  | arms (notify : Nat) : GoesOn m key (.arming notify) (.waiting notify false)
  | wakes (notify : Nat) : GoesOn m key (.waiting notify true) (.looking notify)

/-- What one step can do. -/
inductive ConnectionManager.Moves (m : ConnectionManager Conn) :
    ManagerEvent Conn → ConnectionManager Conn → Prop where
  | called (endpointId : String) : Moves m (.waitForConnection endpointId)
      { m with waits := m.waits ++ [⟨endpointId.toLowercase, .entering⟩] }
  | setting (key : String) (conn : Conn) : Moves m (.setSession key conn)
      { m with changes := m.changes ++ [.inserting key conn] }
  | dropping (key : String) : Moves m (.removeSession key)
      { m with changes := m.changes ++ [.removing key] }
  | goesOn (i : Nat) (key : String) (stage next : WaitStage Conn)
      (hWait : m.waits[i]? = some ⟨key, stage⟩) (hGoes : m.GoesOn key stage next) :
      Moves m (.wait i) (m.setStage i ⟨key, stage⟩ next)
  | registers (i : Nat) (key : String) (hWait : m.waits[i]? = some ⟨key, .registering⟩)
      (hNone : m.waiters key = none) : Moves m (.wait i)
      ((m.makeNotify key).setStage i ⟨key, .registering⟩ (.looking m.notifies.length))
  | inserts (i : Nat) (key : String) (conn : Conn)
      (hChange : m.changes[i]? = some (.inserting key conn)) : Moves m (.change i)
      { m with
        sessions := Function.update m.sessions key (some conn)
        changes := m.changes.set i (.taking key) }
  | takes (i : Nat) (key : String) (notify : Nat) (hChange : m.changes[i]? = some (.taking key))
      (hWaiter : m.waiters key = some notify) : Moves m (.change i)
      { m with
        waiters := Function.update m.waiters key none
        waitersLocked := true
        changes := m.changes.set i (.notifying key notify) }
  | takesNone (i : Nat) (key : String) (hChange : m.changes[i]? = some (.taking key))
      (hNone : m.waiters key = none) : Moves m (.change i)
      { m with changes := m.changes.set i .done }
  | notifies (i : Nat) (key : String) (notify : Nat)
      (hChange : m.changes[i]? = some (.notifying key notify)) : Moves m (.change i)
      { m with
        waits := m.waits.map (WaitCall.notified notify)
        waitersLocked := false
        changes := m.changes.set i .done }
  | removes (i : Nat) (key : String) (hChange : m.changes[i]? = some (.removing key)) :
      Moves m (.change i)
      { m with
        sessions := Function.update m.sessions key none
        changes := m.changes.set i .done }
  | expires (i : Nat) (w : WaitCall Conn) (hWait : m.waits[i]? = some w) :
      Moves m (.timeOut i) (m.setStage i w (.returned none))

/-- A wait that goes on makes one of the named moves. -/
theorem ConnectionManager.moves_of_goOn {i : Nat} {key : String} {stage : WaitStage Conn}
    (hWait : m.waits[i]? = some ⟨key, stage⟩) (hStep : m.goOn i ⟨key, stage⟩ = some m') :
    m.Moves (.wait i) m' := by
  cases stage with
  | entering =>
      cases hSession : m.sessions key with
      | none =>
          simp only [goOn, hSession, Option.some.injEq] at hStep
          exact hStep ▸ .goesOn i key _ _ hWait (.absent hSession)
      | some conn =>
          simp only [goOn, hSession, Option.some.injEq] at hStep
          exact hStep ▸ .goesOn i key _ _ hWait (.found conn hSession)
  | registering =>
      obtain ⟨-, hStep⟩ := Option.ite_none_left_eq_some.mp hStep
      cases hWaiter : m.waiters key with
      | none =>
          simp only [hWaiter, Option.some.injEq] at hStep
          exact hStep ▸ .registers i key hWait hWaiter
      | some notify =>
          simp only [hWaiter, Option.some.injEq] at hStep
          exact hStep ▸ .goesOn i key _ _ hWait (.joins notify hWaiter)
  | looking notify =>
      cases hSession : m.sessions key with
      | none =>
          simp only [goOn, hSession, Option.some.injEq] at hStep
          exact hStep ▸ .goesOn i key _ _ hWait (.unseen notify hSession)
      | some conn =>
          simp only [goOn, hSession, Option.some.injEq] at hStep
          exact hStep ▸ .goesOn i key _ _ hWait (.seen notify conn hSession)
  | arming notify => exact Option.some.inj hStep ▸ .goesOn i key _ _ hWait (.arms notify)
  | waiting notify woken =>
      cases woken with
      | false => cases hStep
      | true => exact Option.some.inj hStep ▸ .goesOn i key _ _ hWait (.wakes notify)
  | returned result => cases hStep

/-- A change of the sessions that proceeds makes one of the named moves. -/
theorem ConnectionManager.moves_of_proceed {i : Nat} {change : SessionChange Conn}
    (hChange : m.changes[i]? = some change) (hStep : m.proceed i change = some m') :
    m.Moves (.change i) m' := by
  cases change with
  | inserting key conn => exact Option.some.inj hStep ▸ .inserts i key conn hChange
  | taking key =>
      obtain ⟨-, hStep⟩ := Option.ite_none_left_eq_some.mp hStep
      cases hWaiter : m.waiters key with
      | none =>
          simp only [hWaiter, Option.some.injEq] at hStep
          exact hStep ▸ .takesNone i key hChange hWaiter
      | some notify =>
          simp only [hWaiter, Option.some.injEq] at hStep
          exact hStep ▸ .takes i key notify hChange hWaiter
  | notifying key notify => exact Option.some.inj hStep ▸ .notifies i key notify hChange
  | removing key => exact Option.some.inj hStep ▸ .removes i key hChange
  | done => cases hStep

/-- Every step of the manager is one of the named moves. -/
theorem ConnectionManager.moves_of_step {e : ManagerEvent Conn} (hStep : step m e = some m') :
    m.Moves e m' := by
  cases e with
  | waitForConnection endpointId => exact Option.some.inj hStep ▸ .called endpointId
  | setSession key conn => exact Option.some.inj hStep ▸ .setting key conn
  | removeSession key => exact Option.some.inj hStep ▸ .dropping key
  | wait i =>
      obtain ⟨w, hWait, hNext⟩ := Option.bind_eq_some_iff.mp hStep
      exact moves_of_goOn hWait hNext
  | change i =>
      obtain ⟨change, hChange, hNext⟩ := Option.bind_eq_some_iff.mp hStep
      exact moves_of_proceed hChange hNext
  | timeOut i =>
      obtain ⟨w, hWait, hNext⟩ := Option.bind_eq_some_iff.mp hStep
      rw [expire] at hNext
      split at hNext
      · exact Option.some.inj hNext ▸ .expires i w hWait
      · exact Option.some.inj hNext ▸ .expires i w hWait
      · cases hNext

end Steps

section Changes
variable {m m' : ConnectionManager Conn} {i : Nat} {w : WaitCall Conn}

theorem mem_set_of_ne {α : Type*} {l : List α} {old new x : α} (hOld : l[i]? = some old)
    (hMem : x ∈ l) (hNe : x ≠ old) : x ∈ l.set i new := by
  obtain ⟨j, hj⟩ := List.mem_iff_getElem?.mp hMem
  have hOther : i ≠ j := by
    rintro rfl
    exact hNe (Option.some.inj (hj.symm.trans hOld))
  exact List.mem_iff_getElem?.mpr ⟨j, by rw [List.getElem?_set_ne hOther, hj]⟩

theorem mem_set_self {α : Type*} {l : List α} {old new : α} (hOld : l[i]? = some old) :
    new ∈ l.set i new := by
  obtain ⟨hLess, -⟩ := List.getElem?_eq_some_iff.mp hOld
  exact List.mem_iff_getElem?.mpr ⟨i, List.getElem?_set_self hLess⟩

/-- A call that has seen a session or was woken has nothing to be told. -/
theorem ConnectionManager.informed_of_aware {key : String} {stage : WaitStage Conn}
    (hAware : ∀ notify, ¬ stage.Unaware notify) : m.Informed ⟨key, stage⟩ := by
  refine ⟨fun notify hUnaware => absurd hUnaware (hAware notify), ?_⟩
  rintro notify rfl
  exact absurd (WaitStage.Unaware.waiting notify) (hAware notify)

/-- A call at its new stage is informed, and the others are as they were. -/
theorem ConnectionManager.AllInformed.of_setStage {stage : WaitStage Conn} (hAll : m.AllInformed)
    (hStage : m.Informed { w with stage := stage }) : (m.setStage i w stage).AllInformed := by
  intro other hOther
  have hInformed : m.Informed other := by
    rcases List.mem_or_eq_of_mem_set hOther with hMem | rfl
    · exact hAll other hMem
    · exact hStage
  exact ⟨hInformed.told, hInformed.reached⟩

/-- A wait that does not know of a wakeup holds the Notify that could bring it. -/
theorem WaitStage.Unaware.notify_eq {stage : WaitStage Conn} {notify : Nat}
    (h : stage.Unaware notify) : stage.notify = some notify := by
  cases h with
  | arming => rfl
  | waiting => rfl

/-- A new `Notify` is registered where none was; no call holds it yet. -/
theorem ConnectionManager.AllInformed.of_register {key : String} (hAll : m.AllInformed)
    (hOwned : m.Owned) (hNone : m.waiters key = none) : (m.makeNotify key).AllInformed := by
  intro w hMem
  have hInformed := hAll w hMem
  refine ⟨?_, ?_⟩
  · intro notify hUnaware
      (hWaiter : Function.update m.waiters key (some m.notifies.length) w.key = some notify)
    have hOwner := hOwned.waits w hMem notify hUnaware.notify_eq
    rw [Function.update_apply] at hWaiter
    split at hWaiter
    · obtain rfl := Option.some.inj hWaiter
      rw [List.getElem?_eq_none (Nat.le_refl _)] at hOwner
      cases hOwner
    · exact hInformed.told notify hUnaware hWaiter
  · intro notify hWaiting
    rcases hInformed.reached notify hWaiting with hWaiter | hChange
    · have hKey : w.key ≠ key := by
        intro hKey
        rw [hKey, hNone] at hWaiter
        cases hWaiter
      exact Or.inl ((Function.update_of_ne hKey _ _).trans hWaiter)
    · exact Or.inr hChange

/-- A session that comes in is announced from then on. -/
theorem ConnectionManager.AllInformed.of_insert {key : String} {conn : Conn} (hAll : m.AllInformed)
    (hChange : m.changes[i]? = some (.inserting key conn)) :
    AllInformed { m with
      sessions := Function.update m.sessions key (some conn)
      changes := m.changes.set i (.taking key) } := by
  intro w hMem
  have hInformed := hAll w hMem
  refine ⟨?_, ?_⟩
  · intro notify hUnaware hWaiter
      (hSession : Function.update m.sessions key (some conn) w.key ≠ none)
    show SessionChange.taking w.key ∈ m.changes.set i (.taking key)
    by_cases hKey : w.key = key
    · rw [hKey]
      exact mem_set_self hChange
    · rw [Function.update_of_ne hKey] at hSession
      exact mem_set_of_ne hChange (hInformed.told notify hUnaware hWaiter hSession) nofun
  · intro notify hWaiting
    exact (hInformed.reached notify hWaiting).imp_right fun hMem =>
      mem_set_of_ne hChange hMem nofun

/-- Removing a session leaves nobody uninformed. -/
theorem ConnectionManager.AllInformed.of_remove {key : String} (hAll : m.AllInformed)
    (hChange : m.changes[i]? = some (.removing key)) :
    AllInformed { m with
      sessions := Function.update m.sessions key none
      changes := m.changes.set i .done } := by
  intro w hMem
  have hInformed := hAll w hMem
  refine ⟨?_, ?_⟩
  · intro notify hUnaware hWaiter (hSession : Function.update m.sessions key none w.key ≠ none)
    have hKey : w.key ≠ key := by
      intro hKey
      exact hSession (by rw [hKey, Function.update_self])
    rw [Function.update_of_ne hKey] at hSession
    exact mem_set_of_ne hChange (hInformed.told notify hUnaware hWaiter hSession) nofun
  · intro notify hWaiting
    exact (hInformed.reached notify hWaiting).imp_right fun hMem =>
      mem_set_of_ne hChange hMem nofun

/-- The `Notify` a `set_session` takes out is the one it notifies next. -/
theorem ConnectionManager.AllInformed.of_take {key : String} {notify : Nat} (hAll : m.AllInformed)
    (hChange : m.changes[i]? = some (.taking key)) (hWaiter : m.waiters key = some notify) :
    AllInformed { m with
      waiters := Function.update m.waiters key none
      waitersLocked := true
      changes := m.changes.set i (.notifying key notify) } := by
  have hLeft {other : String} {own : Nat}
      (h : Function.update m.waiters key none other = some own) :
      other ≠ key ∧ m.waiters other = some own := by
    rw [Function.update_apply] at h
    split at h
    · cases h
    · next hKey => exact ⟨hKey, h⟩
  intro w hMem
  have hInformed := hAll w hMem
  refine ⟨?_, ?_⟩
  · intro own hUnaware hOwn hSession
    obtain ⟨hKey, hOld⟩ := hLeft hOwn
    refine mem_set_of_ne hChange (hInformed.told own hUnaware hOld hSession) ?_
    intro hSame
    exact hKey (SessionChange.taking.inj hSame)
  · intro own hWaiting
    rcases hInformed.reached own hWaiting with hOld | hNotifying
    · by_cases hKey : w.key = key
      · obtain rfl : notify = own := Option.some.inj (hWaiter.symm.trans (hKey ▸ hOld))
        exact Or.inr (hKey ▸ mem_set_self hChange)
      · exact Or.inl ((Function.update_of_ne hKey _ _).trans hOld)
    · exact Or.inr (mem_set_of_ne hChange hNotifying nofun)

/-- Nobody waits under the key: the `set_session` is done. -/
theorem ConnectionManager.AllInformed.of_takeNone {key : String} (hAll : m.AllInformed)
    (hChange : m.changes[i]? = some (.taking key)) (hNone : m.waiters key = none) :
    AllInformed { m with changes := m.changes.set i .done } := by
  intro w hMem
  have hInformed := hAll w hMem
  refine ⟨?_, ?_⟩
  · intro own hUnaware (hOwn : m.waiters w.key = some own) hSession
    refine mem_set_of_ne hChange (hInformed.told own hUnaware hOwn hSession) ?_
    intro hSame
    rw [SessionChange.taking.inj hSame, hNone] at hOwn
    cases hOwn
  · intro own hWaiting
    exact (hInformed.reached own hWaiting).imp_right fun hMem =>
      mem_set_of_ne hChange hMem nofun

/-- A wait that a notification does not wake holds another `Notify`. -/
theorem WaitCall.notified_eq {notify : Nat} {w : WaitCall Conn} :
    (w.notified notify = w ∧ w.stage ≠ .waiting notify false) ∨
      (w.stage = .waiting notify false ∧
        w.notified notify = { w with stage := .waiting notify true }) := by
  obtain ⟨key, stage⟩ := w
  cases stage with
  | waiting own woken =>
      cases woken with
      | true => exact Or.inl ⟨rfl, nofun⟩
      | false =>
          by_cases hOwn : own = notify
          · subst hOwn
            exact Or.inr ⟨rfl, by simp [WaitCall.notified]⟩
          · refine Or.inl ⟨by simp [WaitCall.notified, hOwn], ?_⟩
            intro hSame
            exact hOwn (WaitStage.waiting.inj hSame).1
  | _ => exact Or.inl ⟨rfl, nofun⟩

/-- Waking the waiters of a Notify leaves nobody uninformed. -/
theorem ConnectionManager.AllInformed.of_notify {key : String} {notify : Nat} (hAll : m.AllInformed)
    (hChange : m.changes[i]? = some (.notifying key notify)) :
    AllInformed { m with
      waits := m.waits.map (WaitCall.notified notify)
      waitersLocked := false
      changes := m.changes.set i .done } := by
  intro w hMem
  obtain ⟨old, hOld, rfl⟩ := List.mem_map.mp hMem
  have hInformed := hAll old hOld
  rcases @WaitCall.notified_eq _ notify old with ⟨hSame, hOther⟩ | ⟨hWaiting, hWoken⟩
  · rw [hSame]
    refine ⟨?_, ?_⟩
    · intro own hUnaware hWaiter hSession
      exact mem_set_of_ne hChange (hInformed.told own hUnaware hWaiter hSession) nofun
    · intro own hWaiting
      refine (hInformed.reached own hWaiting).imp_right fun hMem => ?_
      refine mem_set_of_ne hChange hMem ?_
      intro hNotifying
      obtain rfl : own = notify := (SessionChange.notifying.inj hNotifying).2
      exact hOther hWaiting
  · rw [hWoken]
    exact informed_of_aware nofun

end Changes

section Runs
variable {m m' : ConnectionManager Conn} {i : Nat} {w : WaitCall Conn}

/-- New calls leave the others as they are. -/
theorem ConnectionManager.AllInformed.of_more {changes : List (SessionChange Conn)}
    (hAll : m.AllInformed) (hMore : m.changes ⊆ changes) :
    AllInformed { m with changes := changes } := by
  intro w hMem
  have hInformed := hAll w hMem
  refine ⟨?_, ?_⟩
  · intro notify hUnaware hWaiter hSession
    exact hMore (hInformed.told notify hUnaware hWaiter hSession)
  · intro notify hWaiting
    exact (hInformed.reached notify hWaiting).imp_right fun hMem => hMore hMem

/-- A wait that goes on keeps everybody informed, provided its Notify can still be reached.
-/
theorem ConnectionManager.AllInformed.of_goesOn {key : String} {stage next : WaitStage Conn}
    (hAll : m.AllInformed) (hWait : m.waits[i]? = some ⟨key, stage⟩)
    (hReaches : ∀ notify ∈ stage.arms, m.Reaches key notify)
    (hGoes : m.GoesOn key stage next) : (m.setStage i ⟨key, stage⟩ next).AllInformed := by
  refine hAll.of_setStage ?_
  cases hGoes with
  | found | absent | joins | seen | wakes => exact informed_of_aware nofun
  | unseen notify hSession => exact ⟨fun _ _ _ hSome => absurd hSession hSome, nofun⟩
  | arms notify =>
      refine ⟨?_, ?_⟩
      · rintro own ⟨⟩
        exact (hAll _ (List.mem_of_getElem? hWait)).told notify (.arming notify)
      · rintro own ⟨⟩
        exact hReaches notify rfl

/-- A step in time keeps every call informed. -/
theorem ConnectionManager.AllInformed.of_moves {e : ManagerEvent Conn} (hAll : m.AllInformed)
    (hOwned : m.Owned) (hInTime : m.InTime e) (hMoves : m.Moves e m') : m'.AllInformed := by
  cases hMoves with
  | called endpointId =>
      intro w hMem
      have hInformed : m.Informed w := by
        rcases List.mem_append.mp hMem with hOld | hNew
        · exact hAll w hOld
        · rw [List.mem_singleton.mp hNew]
          exact informed_of_aware nofun
      exact ⟨hInformed.told, hInformed.reached⟩
  | setting | dropping => exact hAll.of_more (List.subset_append_left _ _)
  | goesOn i key stage next hWait hGoes => exact hAll.of_goesOn hWait (hInTime _ hWait) hGoes
  | registers i key hWait hNone =>
      exact (hAll.of_register hOwned hNone).of_setStage (informed_of_aware nofun)
  | inserts i key conn hChange => exact hAll.of_insert hChange
  | takes i key notify hChange hWaiter => exact hAll.of_take hChange hWaiter
  | takesNone i key hChange hNone => exact hAll.of_takeNone hChange hNone
  | notifies i key notify hChange => exact hAll.of_notify hChange
  | removes i key hChange => exact hAll.of_remove hChange
  | expires => exact hAll.of_setStage (informed_of_aware nofun)

/-- What a call under way holds stays its key's when it goes on. -/
theorem ConnectionManager.Owned.of_setStage {key : String} {stage next : WaitStage Conn}
    (hOwned : m.Owned)
    (hNext : ∀ notify, next.notify = some notify → m.notifies[notify]? = some key) :
    (m.setStage i ⟨key, stage⟩ next).Owned := by
  refine ⟨hOwned.waiters, hOwned.changes, ?_⟩
  intro other hOther
  rcases List.mem_or_eq_of_mem_set hOther with hMem | rfl
  · exact hOwned.waits other hMem
  · exact hNext

/-- Making a Notify where none is keeps every Notify at one key. -/
theorem ConnectionManager.Owned.of_makeNotify {key : String} (hOwned : m.Owned) :
    (m.makeNotify key).Owned := by
  have hKept {notify : Nat} {owner : String} (h : m.notifies[notify]? = some owner) :
      (m.notifies ++ [key])[notify]? = some owner := by
    obtain ⟨hLess, -⟩ := List.getElem?_eq_some_iff.mp h
    rw [List.getElem?_append_left hLess, h]
  refine ⟨?_, fun own notify hMem => hKept (hOwned.changes own notify hMem),
    fun w hMem notify hNotify => hKept (hOwned.waits w hMem notify hNotify)⟩
  intro own notify (hWaiter : Function.update m.waiters key (some m.notifies.length) own = _)
  rw [Function.update_apply] at hWaiter
  split at hWaiter
  · next hSame =>
      obtain rfl := Option.some.inj hWaiter
      show (m.notifies ++ [key])[m.notifies.length]? = some own
      rw [hSame, List.getElem?_concat_length]
  · exact hKept (hOwned.waiters own notify hWaiter)

/-- Tables that name no new `Notify`. -/
theorem ConnectionManager.Owned.of_fewer {waiters : String → Option Nat}
    {changes : List (SessionChange Conn)} (hOwned : m.Owned) (sessions : String → Option Conn)
    (locked : Bool) (hWaiters : ∀ key notify, waiters key = some notify →
      m.waiters key = some notify)
    (hChanges : ∀ key notify, .notifying key notify ∈ changes →
      .notifying key notify ∈ m.changes ∨ m.waiters key = some notify) :
    Owned { m with
      sessions := sessions, waiters := waiters, waitersLocked := locked, changes := changes } := by
  refine ⟨fun key notify h => hOwned.waiters key notify (hWaiters key notify h), ?_, hOwned.waits⟩
  intro key notify hMem
  rcases hChanges key notify hMem with hOld | hWaiter
  · exact hOwned.changes key notify hOld
  · exact hOwned.waiters key notify hWaiter

/-- Every move keeps every Notify at one key. -/
theorem ConnectionManager.Owned.of_moves {e : ManagerEvent Conn} (hOwned : m.Owned)
    (hMoves : m.Moves e m') : m'.Owned := by
  have hSet {i : Nat} {change : SessionChange Conn} (hOther : ∀ key notify,
      change ≠ .notifying key notify) (key : String) (notify : Nat)
      (hMem : .notifying key notify ∈ m.changes.set i change) :
      .notifying key notify ∈ m.changes ∨ m.waiters key = some notify := by
    rcases List.mem_or_eq_of_mem_set hMem with hOld | hNew
    · exact Or.inl hOld
    · exact absurd hNew.symm (hOther key notify)
  cases hMoves with
  | called endpointId =>
      refine ⟨hOwned.waiters, hOwned.changes, ?_⟩
      intro w hMem
      rcases List.mem_append.mp hMem with hOld | hNew
      · exact hOwned.waits w hOld
      · rw [List.mem_singleton.mp hNew]
        nofun
  | setting key conn =>
      refine hOwned.of_fewer _ _ (fun _ _ h => h) fun own notify hMem => ?_
      rcases List.mem_append.mp hMem with hOld | hNew
      · exact Or.inl hOld
      · exact nomatch List.mem_singleton.mp hNew
  | dropping key =>
      refine hOwned.of_fewer _ _ (fun _ _ h => h) fun own notify hMem => ?_
      rcases List.mem_append.mp hMem with hOld | hNew
      · exact Or.inl hOld
      · exact nomatch List.mem_singleton.mp hNew
  | goesOn i key stage next hWait hGoes =>
      have hHeld := hOwned.waits _ (List.mem_of_getElem? hWait)
      refine hOwned.of_setStage ?_
      cases hGoes with
      | found | absent | seen => nofun
      | joins notify hWaiter =>
          rintro own ⟨⟩
          exact hOwned.waiters key notify hWaiter
      | unseen | arms | wakes => exact hHeld
  | registers i key hWait hNone =>
      refine hOwned.of_makeNotify.of_setStage ?_
      rintro own ⟨⟩
      exact List.getElem?_concat_length
  | inserts i key conn hChange => exact hOwned.of_fewer _ _ (fun _ _ h => h) (hSet nofun)
  | takes i key notify hChange hWaiter =>
      refine hOwned.of_fewer _ _ ?_ ?_
      · intro own other hOwn
        rw [Function.update_apply] at hOwn
        split at hOwn
        · cases hOwn
        · exact hOwn
      · intro own other hMem
        rcases List.mem_or_eq_of_mem_set hMem with hOld | hNew
        · exact Or.inl hOld
        · obtain ⟨rfl, rfl⟩ := SessionChange.notifying.inj hNew
          exact Or.inr hWaiter
  | takesNone i key hChange hNone => exact hOwned.of_fewer _ _ (fun _ _ h => h) (hSet nofun)
  | notifies i key notify hChange =>
      have hFewer := hOwned.of_fewer m.sessions false (fun _ _ h => h) (@hSet i .done nofun)
      refine ⟨hFewer.waiters, hFewer.changes, ?_⟩
      intro w hMem own hOwn
      obtain ⟨old, hOld, rfl⟩ := List.mem_map.mp hMem
      rcases @WaitCall.notified_eq _ notify old with ⟨hSame, -⟩ | ⟨hWaiting, hWoken⟩
      · rw [hSame] at hOwn ⊢
        exact hOwned.waits old hOld own hOwn
      · rw [hWoken] at hOwn ⊢
        exact hOwned.waits old hOld own (by rw [hWaiting]; exact hOwn)
  | removes i key hChange => exact hOwned.of_fewer _ _ (fun _ _ h => h) (hSet nofun)
  | expires i w hWait => exact hOwned.of_setStage nofun

end Runs

section Results
variable {m m' : ConnectionManager Conn} {i : Nat} {w : WaitCall Conn}

/-- What holds in every state of a run whose steps are in time. -/
structure ConnectionManager.Inv (m : ConnectionManager Conn) : Prop where
  owned : m.Owned
  informed : m.AllInformed

/-- A new manager has nobody to inform. -/
theorem ConnectionManager.inv_new : (new : ConnectionManager Conn).Inv :=
  ⟨⟨nofun, nofun, nofun⟩, nofun⟩

/-- A step in time keeps the invariant. -/
theorem ConnectionManager.Inv.of_step (m : ConnectionManager Conn) (e : ManagerEvent Conn)
    (m' : ConnectionManager Conn) (hInv : m.Inv) (hInTime : m.InTime e)
    (hStep : ConnectionManager.step m e = some m') : m'.Inv :=
  have hMoves := moves_of_step hStep
  ⟨hInv.owned.of_moves hMoves, hInv.informed.of_moves hInv.owned hInTime hMoves⟩

/-- A session that a call with a `Notify` to be notified has not seen is still to be
announced. -/
theorem ConnectionManager.AllInformed.announcing {notify : Nat} (hAll : m.AllInformed)
    (hMem : w ∈ m.waits) (hUnaware : w.stage.Unaware notify) (hReaches : m.Reaches w.key notify)
    (hSession : m.sessions w.key ≠ none) : m.Announcing w.key := by
  rcases hReaches with hWaiter | hNotifying
  · exact ⟨_, (hAll w hMem).told notify hUnaware hWaiter hSession, beq_self_eq_true _⟩
  · exact ⟨_, hNotifying, beq_self_eq_true _⟩

/-- Where everybody is informed, a step in time is heard. -/
theorem ConnectionManager.AllInformed.heard {e : ManagerEvent Conn} (hAll : m.AllInformed)
    (hInTime : m.InTime e) : m.Heard e := by
  cases e with
  | timeOut i =>
      intro w hWait hExpires
      by_contra hSession
      obtain ⟨hLooking, hQuiet⟩ := hInTime w hWait (Option.isSome_iff_ne_none.mpr hSession)
      have hMem := List.mem_of_getElem? hWait
      obtain ⟨notify, hWaiting⟩ : ∃ notify, w.stage = .waiting notify false := by
        rw [expire] at hExpires
        split at hExpires
        · next notify hStage =>
            rw [hStage] at hLooking
            cases hLooking
        · next notify hStage => exact ⟨notify, hStage⟩
        · cases hExpires
      exact hQuiet (hAll.announcing hMem (hWaiting ▸ .waiting notify)
        ((hAll w hMem).reached notify hWaiting) hSession)
  | _ => trivial

theorem ConnectionManager.waits_setStage {stage : WaitStage Conn} (hWait : m.waits[i]? = some w) :
    (m.setStage i w stage).waits[i]? = some { w with stage := stage } := by
  obtain ⟨hLess, -⟩ := List.getElem?_eq_some_iff.mp hWait
  exact List.getElem?_set_self hLess

/-- A look at a table with a session ends the call. -/
theorem ConnectionManager.look_returns {notify : Nat} {conn : Conn}
    (hWait : m.waits[i]? = some w) (hStage : w.stage = .looking notify)
    (hSession : m.sessions w.key = some conn) :
    ∃ m', step m (.wait i) = some m' ∧ m'.waits[i]? = some ⟨w.key, .returned (some conn)⟩ := by
  refine ⟨m.setStage i w (.returned (some conn)), ?_, waits_setStage hWait⟩
  rw [step, hWait, Option.bind_some, goOn, hStage]
  simp only [hSession]

/-- The call returns the session by at most two more accesses of its own. -/
def ConnectionManager.Returns (m : ConnectionManager Conn) (i : Nat) (key : String) (conn : Conn) :
    Prop :=
  ∃ steps ≤ 2, ∃ m', exec step m (List.replicate steps (.wait i)) = some m' ∧
    m'.waits[i]? = some ⟨key, .returned (some conn)⟩

/-- A wait that finds the session when it looks returns it. -/
theorem ConnectionManager.returns_of_looking {notify : Nat} {key : String} {conn : Conn}
    (hFirst : step m (.wait i) = some m') (hWait : m'.waits[i]? = some ⟨key, .looking notify⟩)
    (hSession : m'.sessions key = some conn) : m.Returns i key conn := by
  obtain ⟨m₂, hSecond, hReturned⟩ := look_returns hWait rfl hSession
  refine ⟨2, Nat.le_refl 2, m₂, ?_, hReturned⟩
  simp [List.replicate_succ, hFirst, hSecond]

/-- With a session there and announced, no call is left waiting. -/
theorem ConnectionManager.AllInformed.returns {conn : Conn} (hAll : m.AllInformed)
    (hWait : m.waits[i]? = some w) (hRunning : ∀ result, w.stage ≠ .returned result)
    (hSession : m.sessions w.key = some conn) (hQuiet : ¬ m.Announcing w.key)
    (hInTime : m.InTime (.wait i)) (hLock : m.waitersLocked = false) :
    m.Returns i w.key conn := by
  have hMem := List.mem_of_getElem? hWait
  have hSome : m.sessions w.key ≠ none := by
    rw [hSession]
    nofun
  obtain ⟨key, stage⟩ := w
  simp only at hSession
  cases stage with
  | entering =>
      refine ⟨1, by decide, m.setStage i ⟨key, .entering⟩ (.returned (some conn)), ?_,
        waits_setStage hWait⟩
      simp [step, hWait, goOn, hSession]
  | registering =>
      cases hWaiter : m.waiters key with
      | some notify =>
          have hFirst : step m (.wait i) =
              some (m.setStage i ⟨key, .registering⟩ (.looking notify)) := by
            simp [step, hWait, goOn, hLock, hWaiter]
          exact returns_of_looking hFirst (waits_setStage hWait) hSession
      | none =>
          have hFirst : step m (.wait i) = some ((m.makeNotify key).setStage i
              ⟨key, .registering⟩ (.looking m.notifies.length)) := by
            simp [step, hWait, goOn, hLock, hWaiter]
          exact returns_of_looking hFirst (waits_setStage hWait) hSession
  | looking notify =>
      obtain ⟨m₁, hFirst, hReturned⟩ := look_returns hWait rfl hSession
      exact ⟨1, by decide, m₁, by simpa using hFirst, hReturned⟩
  | arming notify =>
      exact absurd (hAll.announcing hMem (.arming notify) (hInTime _ hWait notify rfl) hSome) hQuiet
  | waiting notify woken =>
      cases woken with
      | true =>
          have hFirst : step m (.wait i) =
              some (m.setStage i ⟨key, .waiting notify true⟩ (.looking notify)) := by
            simp [step, hWait, goOn]
          exact returns_of_looking hFirst (waits_setStage hWait) hSession
      | false =>
          have hReached := (hAll _ hMem).reached notify rfl
          exact absurd (hAll.announcing hMem (.waiting notify) hReached hSome) hQuiet
  | returned result => exact absurd rfl (hRunning result)

/-- A call waits on a `Notify` that nobody will notify. -/
structure ConnectionManager.Spent (m : ConnectionManager Conn) (i : Nat) (key : String)
    (notify : Nat) : Prop where
  waits : m.waits[i]? = some ⟨key, .waiting notify false⟩
  unreached : ¬ m.Reaches key notify

theorem ConnectionManager.Spent.of_setStage {j : Nat} {key : String} {notify : Nat}
    {next : WaitStage Conn} (hSpent : m.Spent i key notify) (hOther : j ≠ i) :
    (m.setStage j w next).Spent i key notify :=
  ⟨(List.getElem?_set_ne hOther).trans hSpent.waits, hSpent.unreached⟩

/-- No later session wakes such a call: it waits until its time is up. -/
theorem ConnectionManager.Spent.of_moves {e : ManagerEvent Conn} {key : String} {notify : Nat}
    (hSpent : m.Spent i key notify) (hOwned : m.Owned) (hNotOver : e ≠ .timeOut i)
    (hMoves : m.Moves e m') : m'.Spent i key notify := by
  have hHeld := hOwned.waits _ (List.mem_of_getElem? hSpent.waits) notify rfl
  have hNoWaiter : m.waiters key ≠ some notify := fun h => hSpent.unreached (Or.inl h)
  have hNoChange : .notifying key notify ∉ m.changes := fun h => hSpent.unreached (Or.inr h)
  have hSet {j : Nat} {change : SessionChange Conn} (hOther : change ≠ .notifying key notify) :
      .notifying key notify ∉ m.changes.set j change := by
    intro hMem
    rcases List.mem_or_eq_of_mem_set hMem with hOld | hNew
    · exact hNoChange hOld
    · exact hOther hNew.symm
  have hAppend {change : SessionChange Conn} (hOther : change ≠ .notifying key notify) :
      .notifying key notify ∉ m.changes ++ [change] := by
    intro hMem
    rcases List.mem_append.mp hMem with hOld | hNew
    · exact hNoChange hOld
    · exact hOther (List.mem_singleton.mp hNew).symm
  cases hMoves with
  | called endpointId =>
      obtain ⟨hLess, -⟩ := List.getElem?_eq_some_iff.mp hSpent.waits
      exact ⟨(List.getElem?_append_left hLess).trans hSpent.waits, hSpent.unreached⟩
  | setting | dropping => exact ⟨hSpent.waits, not_or_intro hNoWaiter (hAppend nofun)⟩
  | goesOn j own stage next hWait hGoes =>
      refine hSpent.of_setStage ?_
      rintro rfl
      obtain ⟨-, rfl⟩ := WaitCall.mk.inj (Option.some.inj (hWait.symm.trans hSpent.waits))
      cases hGoes
  | registers j own hWait hNone =>
      have hOther : j ≠ i := by
        rintro rfl
        cases hWait.symm.trans hSpent.waits
      refine Spent.of_setStage ⟨hSpent.waits, not_or_intro ?_ hNoChange⟩ hOther
      intro (hWaiter : Function.update m.waiters own (some m.notifies.length) key = some notify)
      rw [Function.update_apply] at hWaiter
      split at hWaiter
      · obtain rfl := Option.some.inj hWaiter
        rw [List.getElem?_eq_none (Nat.le_refl _)] at hHeld
        cases hHeld
      · exact hNoWaiter hWaiter
  | inserts | takesNone | removes =>
      exact ⟨hSpent.waits, not_or_intro hNoWaiter (hSet nofun)⟩
  | takes j own other hChange hWaiter =>
      refine ⟨hSpent.waits, not_or_intro ?_ (hSet ?_)⟩
      · intro (hLeft : Function.update m.waiters own none key = some notify)
        rw [Function.update_apply] at hLeft
        split at hLeft
        · cases hLeft
        · exact hNoWaiter hLeft
      · intro hSame
        obtain ⟨rfl, rfl⟩ := SessionChange.notifying.inj hSame
        exact hNoWaiter hWaiter
  | notifies j own other hChange =>
      have hOther : notify ≠ other := by
        rintro rfl
        have hOwner := hOwned.changes own notify (List.mem_of_getElem? hChange)
        obtain rfl := Option.some.inj (hOwner.symm.trans hHeld)
        exact hNoChange (List.mem_of_getElem? hChange)
      refine ⟨?_, not_or_intro hNoWaiter (hSet nofun)⟩
      rw [List.getElem?_map, hSpent.waits]
      simp [WaitCall.notified, hOther]
  | expires j w hWait =>
      refine hSpent.of_setStage ?_
      rintro rfl
      exact hNotOver rfl

/-- In every run each Notify belongs to one key. -/
theorem ConnectionManager.owned_of_run {run : List (ManagerEvent Conn)}
    (hRun : exec step new run = some m) : m.Owned :=
  exec_invariant (fun _ _ _ hOwned hStep => hOwned.of_moves (moves_of_step hStep)) hRun
    inv_new.owned

/-- A call that starts to wait out of time never hears of a session: whatever else
happens, it stays until its time is up. -/
theorem ConnectionManager.spent_until_timeout {run more : List (ManagerEvent Conn)} {key : String}
    {notify : Nat} (hRun : exec step new run = some m) (hSpent : m.Spent i key notify)
    (hNotOver : .timeOut i ∉ more) (hMore : exec step m more = some m') :
    m'.Spent i key notify := by
  have hOwned := owned_of_run hRun
  have hMeets : Meets step (fun _ e => e ≠ .timeOut i) m more :=
    Meets.of_forall fun e hMem _ hSame => hNotOver (hSame ▸ hMem)
  have hStep (m : ConnectionManager Conn) (e : ManagerEvent Conn) (t : ConnectionManager Conn)
      (hPair : m.Owned ∧ m.Spent i key notify) (hNot : e ≠ .timeOut i)
      (hNext : step m e = some t) : t.Owned ∧ t.Spent i key notify :=
    have hMoves := moves_of_step hNext
    ⟨hPair.1.of_moves hMoves, hPair.2.of_moves hPair.1 hNot hMoves⟩
  exact (hMeets.invariant hStep hMore ⟨hOwned, hSpent⟩).2

/-- In a run whose calls start to wait and end in time, no call's time runs out while
there is a session of its key, and a call returns the session that is there. -/
theorem ConnectionManager.wait_hears_of_session {run : List (ManagerEvent Conn)}
    (hRun : exec step new run = some m) (hInTime : Meets step InTime new run) :
    Meets step Heard new run ∧
      ∀ i w conn, m.waits[i]? = some w → (∀ result, w.stage ≠ .returned result) →
        m.sessions w.key = some conn → ¬ m.Announcing w.key → m.InTime (.wait i) →
        m.waitersLocked = false → m.Returns i w.key conn := by
  have hInv : m.Inv := hInTime.invariant Inv.of_step hRun inv_new
  refine ⟨hInTime.of_invariant Inv.of_step (fun _ _ hInv => hInv.informed.heard) inv_new, ?_⟩
  intro i w conn hWait hRunning hSession hQuiet hNext hLock
  exact hInv.informed.returns hWait hRunning hSession hQuiet hNext hLock

/-- A wait that hears of the session which comes while it waits. -/
def ConnectionManager.heardRun : List (ManagerEvent Nat) :=
  [.waitForConnection "Bob", .wait 0, .wait 0, .wait 0, .wait 0, .setSession "bob" 1, .change 0,
    .change 0, .change 0, .wait 0]

theorem ConnectionManager.wait_hears_of_session_woken :
    ∃ m, exec step new heardRun = some m ∧ Meets step Heard new heardRun ∧
      ∀ i w conn, m.waits[i]? = some w → (∀ result, w.stage ≠ .returned result) →
        m.sessions w.key = some conn → ¬ m.Announcing w.key → m.InTime (.wait i) →
        m.waitersLocked = false → m.Returns i w.key conn := by
  have hInTime : Meets step InTime new heardRun := by decide
  obtain ⟨m, hRun, -⟩ : ∃ m, exec step new heardRun = some m ∧ True := by decide
  exact ⟨m, hRun, wait_hears_of_session hRun hInTime⟩

/-- A wait is woken by a session that is gone when it looks. It waits again on the same
`Notify`, which the table of waiters has lost, and the next session does not wake it. -/
def ConnectionManager.droppedRun : List (ManagerEvent Nat) :=
  [.waitForConnection "Bob", .wait 0, .wait 0, .wait 0, .wait 0, .setSession "bob" 1, .change 0,
    .change 0, .change 0, .removeSession "bob", .change 1, .wait 0, .wait 0, .wait 0,
    .setSession "bob" 2, .change 2, .change 2]

theorem ConnectionManager.wakeup_lost_after_drop :
    ∃ m, exec step new droppedRun = some m ∧ m.sessions "bob" = some 2 ∧
      m.changes = [.done, .done, .done] ∧ ∃ m', step m (.timeOut 0) = some m' ∧
        m'.waits = [⟨"bob", .returned none⟩] := by decide

end Results
end AltSendme
