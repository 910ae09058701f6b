import AltSendme.Native.IdentityRotation
import AltSendme.Native.TaskOrder

/-! The names in the paired-device file. A rename normalizes the name it is
given, while both ends of a pairing store the name the peer sent. -/
namespace AltSendme
open Execution
open EndpointKeys (toStr)

/-- A name that `normalize_display_name` returns as it is. -/
def Normalized (name : String) : Prop := normalizeDisplayName name = .ok name

/-- A name is accepted if it is neither empty nor too long once it is trimmed. -/
theorem normalizeDisplayName_eq_ok {name normalized : String} :
    normalizeDisplayName name = .ok normalized ↔
      normalized = trim name ∧ normalized ≠ "" ∧ normalized.length ≤ 64 := by
  unfold normalizeDisplayName
  dsimp only
  split
  · next hEmpty =>
      simp only [reduceCtorEq, false_iff, not_and]
      rintro rfl hNonempty
      exact absurd hEmpty hNonempty
  · next hNonempty =>
      split
      · next hLong =>
          simp only [reduceCtorEq, false_iff, not_and, not_le]
          rintro rfl _
          exact hLong
      · next hShort =>
          rw [Except.ok.injEq, eq_comm]
          constructor
          · rintro rfl
            exact ⟨rfl, hNonempty, by omega⟩
          · exact And.left

/-- A stored name is normalized if it is trimmed, not empty and not too long. -/
theorem normalized_iff {name : String} :
    Normalized name ↔ trim name = name ∧ name ≠ "" ∧ name.length ≤ 64 := by
  rw [Normalized, normalizeDisplayName_eq_ok, eq_comm (a := name)]

instance (name : String) : Decidable (Normalized name) := decidable_of_iff _ normalized_iff.symm

/-- Normalizing a second time changes nothing. -/
theorem normalized_of_normalizeDisplayName {name normalized : String}
    (h : normalizeDisplayName name = .ok normalized) : Normalized normalized := by
  obtain ⟨rfl, hNonempty, hShort⟩ := normalizeDisplayName_eq_ok.mp h
  exact normalized_iff.mpr ⟨trim_trim name, hNonempty, hShort⟩

def NamesNormalized (file : List PairedDevice) : Prop := ∀ d ∈ file, Normalized d.displayName

instance (file : List PairedDevice) : Decidable (NamesNormalized file) :=
  inferInstanceAs (Decidable (∀ d ∈ file, Normalized d.displayName))

/-- A change that normalizes names keeps them so. -/
theorem NamesNormalized.modify {file : List PairedDevice} (h : NamesNormalized file)
    {endpointId : String} {change : PairedDevice → PairedDevice}
    (hChange : ∀ d, Normalized d.displayName → Normalized (change d).displayName) :
    NamesNormalized (PairedDeviceStore.modify String.toLowercase endpointId change file) :=
  PairedDeviceStore.forall_mem_modify hChange h

/-- Marking records keeps their names. -/
theorem NamesNormalized.markStale {file : List PairedDevice} (h : NamesNormalized file) :
    NamesNormalized (PairedDeviceStore.markStaleAfterLocalIdentityRotation file) := by
  intro d hd
  obtain ⟨before, hBefore, rfl⟩ := List.mem_map.mp hd
  rw [PairedDeviceStore.markStale]
  split
  · exact h before hBefore
  · exact h before hBefore

namespace StoreOp
open PairedDeviceStore

/-- A rename carries what `normalize_display_name` made of the name given to it. -/
def RenamesNormalized (op : StoreOp) : Prop :=
  ∀ endpointId displayName, op = .rename endpointId displayName → Normalized displayName

/-- A write leaves only normalized names exactly when a pairing it records
brought one. -/
theorem namesNormalized_apply {op : StoreOp} {base : List PairedDevice}
    (hBase : NamesNormalized base) (hRename : op.RenamesNormalized) :
    NamesNormalized (op.apply String.toLowercase base) ↔
      ∀ device, op = .remember device → Normalized device.displayName := by
  cases op with
  | remember device =>
      constructor
      · rintro hAll _ ⟨⟩
        have hGet := @get_remember_same String.toLowercase device device.endpointId rfl base
        have hStored := hAll _ (get_eq_some hGet).1
        cases hOld : get String.toLowercase base device.endpointId with
        | none => simpa [hOld] using hStored
        | some d => simpa [hOld, merge] using hStored
      · intro hDevice
        exact forall_mem_remember (fun _ _ => hDevice device rfl) (hDevice device rfl) hBase
  | rename endpointId displayName =>
      refine iff_of_true ?_ (by simp)
      have hName : Normalized displayName := hRename endpointId displayName rfl
      rw [StoreOp.apply, run]
      split
      · exact hBase
      · exact hBase.modify fun _ _ => hName
  | forget endpointId =>
      exact iff_of_true (fun d hd => hBase d (List.mem_filter.mp hd).1) (by simp)
  | touch endpointId lastSeenAt =>
      refine iff_of_true ?_ (by simp)
      rw [StoreOp.apply, run]
      split
      · exact hBase
      · exact hBase.modify fun _ hd => hd
  | markUnpairedRemotely endpointId =>
      refine iff_of_true ?_ (by simp)
      rw [StoreOp.apply, run]
      split
      · exact hBase
      · exact hBase.modify fun _ hd => hd

end StoreOp

section Calls
variable {Id : Type} [EndpointKeys Id] {n n' : Node Id} {self fresh : Nat} {wait : Wait Id}
  {rest : List (Call Id)} {call c : Call Id} {input : Input} {task task' : Task Id}
  {spawned : List (Task Id)}

/-- A store call renames to a normalized name, and writes over a list that held
only such names. -/
def Call.Named : Call Id → Prop
  | .store op _ => op.RenamesNormalized
  | .storeWrite op base _ => op.RenamesNormalized ∧ NamesNormalized base
  | _ => True

/-- Calls that carry neither a new name nor a list read before. -/
def Call.isNameless : Call Id → Bool
  | .store (.rename _ _) _ | .storeWrite _ _ _ => false
  | _ => true

omit [EndpointKeys Id] in
theorem Call.named_of_isNameless (h : call.isNameless = true) : call.Named := by
  cases call with
  | store op cont =>
      cases op with
      | rename => cases h
      | _ => nofun
  | storeWrite => cases h
  | _ => trivial

omit [EndpointKeys Id] in
theorem Call.isNameless_of_isAnswer (h : call.isAnswer = true) : call.isNameless = true := by
  unfold isAnswer at h
  split at h <;> trivial

omit [EndpointKeys Id] in
theorem Call.isNameless_of_isUnpairing (h : call.isUnpairing = true) : call.isNameless = true := by
  cases call <;> trivial

/-- What a call pushes carries no name of its own. -/
theorem Call.Pushes.named (h : call.Pushes n fresh c) (hFile : NamesNormalized n.file)
    (hCall : call.Named) : c.Named := by
  cases h with
  | registered conn isOpen c h =>
      have hNameless : (registerInbound (toStr conn.remote) conn).all Call.isNameless = true := rfl
      exact named_of_isNameless (List.all_eq_true.mp hNameless c h)
  | write op cont => exact ⟨hCall, hFile⟩
  | unpairedKept op cont c h | unpaired op base cont c h =>
      exact named_of_isNameless (isNameless_of_isUnpairing h)
  | touch | remember => nofun
  | _ => trivial

variable [DecidableEq Id]

/-- One turn brings in no name that is not normalized. -/
theorem Task.named_of_turn (hTask : ∀ call ∈ task.todo, call.Named)
    (hFile : NamesNormalized n.file)
    (h : task.turn n self fresh input = some (n', task', spawned)) :
    ∀ call ∈ task'.todo, call.Named := by
  intro c hMem
  rcases Task.turn_eq_some h with ⟨_, _, _, rfl, _⟩ | ⟨_, _, _, hNext⟩ |
    ⟨call, rest, hTodo, hExec⟩
  · cases hMem
  · have hAnswer := List.all_eq_true.mp (Wait.resume_kind hNext).1 c hMem
    exact Call.named_of_isNameless (Call.isNameless_of_isAnswer hAnswer)
  · rcases (Call.exec_moves hExec).pushed with hNone | ⟨conn, s, info, now, _, _, rfl⟩ |
      ⟨pushed, hNext, hPushed⟩
    · rw [hNone] at hMem
      cases hMem
    · have hNameless : (pairingCompleted conn info now n.homeRelayUrl).todo.all Call.isNameless = true :=
        rfl
      exact Call.named_of_isNameless (List.all_eq_true.mp hNameless c hMem)
    · rw [hTodo, List.forall_mem_cons] at hTask
      rw [hNext] at hMem
      rcases List.mem_append.mp hMem with hNew | hOld
      · exact (hPushed c hNew).named hFile hTask.1
      · exact hTask.2 c hOld

/-- Only the second half of a store call changes the file. -/
theorem Call.Changes.file (h : call.Changes n fresh n') :
    n'.file = n.file ∨ ∃ op base cont, call = .storeWrite op base cont := by
  cases h with
  | fileWritten op base cont => exact Or.inr ⟨op, base, cont, rfl⟩
  | presence endpointId writer => exact Or.inl (n.setPresence_file endpointId writer.online)
  | _ => exact Or.inl rfl

/-- Spawned tasks carry no names. -/
theorem Task.spawned_named {new : Task Id}
    (h : task.turn n self fresh input = some (n', task', spawned)) (hNew : new ∈ spawned) :
    ∀ call ∈ new.todo, call.Named := by
  have hNameless : new.todo.all Call.isNameless = true := by
    rcases Task.spawned_cases h hNew with ⟨rfl, _⟩ | ⟨endpointId, relayUrl, rfl⟩
    · rfl
    · rfl
  exact fun c hMem => Call.named_of_isNameless (List.all_eq_true.mp hNameless c hMem)

/-- A turn changes the file by a write that succeeds, and by nothing else. -/
theorem Task.file_of_turn (h : task.turn n self fresh input = some (n', task', spawned)) :
    (∃ op base cont rest now, task.todo = .storeWrite op base cont :: rest ∧ input = .go now ∧
        n'.file = op.apply String.toLowercase base) ∨
      (n'.file = n.file ∧ ∀ op base cont rest now,
        task.todo = .storeWrite op base cont :: rest → input ≠ .go now) := by
  rcases Task.turn_eq_some h with ⟨rfl, _, rfl, _⟩ | ⟨hTodo, rfl, _⟩ | ⟨call, rest, hTodo, hExec⟩
  · exact Or.inr ⟨rfl, by simp⟩
  · rw [hTodo]
    exact Or.inr ⟨rfl, by simp⟩
  · rw [hTodo]
    cases call with
    | storeWrite op base cont =>
        cases input with
        | go now =>
            have hInput : Input.go now ≠ .fail := by simp
            obtain ⟨rfl, _⟩ := Call.exec_storeWrite hInput hExec
            exact Or.inl ⟨op, base, cont, rest, now, rfl, rfl, rfl⟩
        | fail =>
            obtain ⟨rfl, _⟩ : n = n' ∧ _ := by simpa [Call.exec] using hExec
            exact Or.inr ⟨rfl, by simp⟩
        | _ => cases hExec
    | _ =>
        refine Or.inr ⟨(Call.exec_changes hExec).file.resolve_right ?_, by simp⟩
        rintro ⟨_, _, _, ⟨⟩⟩

end Calls

section Runs
variable {Id : Type} [EndpointKeys Id]

/-- The caller of a rename hands on what `normalize_display_name` made of the
name it was given. -/
def RenameNormalized : NodeLabel Id → Prop
  | .call (.renamePaired _ displayName) => ∃ given, normalizeDisplayName given = .ok displayName
  | _ => True

/-- A pairing that is written to the store brought a normalized name. -/
def PairsNormalized (c : NodeConfig Id) : NodeLabel Id → Prop
  | .turn t (.go _) =>
      match nextCall c t with
      | some (.storeWrite (.remember device) _ _) => Normalized device.displayName
      | _ => True
  | _ => True

instance (c : NodeConfig Id) (l : NodeLabel Id) : Decidable (PairsNormalized c l) := by
  rcases l with command | ⟨t, input⟩ | restart
  · exact .isTrue trivial
  · rcases input <;> try exact .isTrue trivial
    dsimp only [PairsNormalized]
    rcases nextCall c t with _ | call
    · exact .isTrue trivial
    rcases call <;> try exact .isTrue trivial
    next op _ _ =>
      rcases op with device | _ | _ | _ | _ <;> try exact .isTrue trivial
      exact inferInstanceAs (Decidable (Normalized device.displayName))
  · exact .isTrue trivial

/-- Nothing in the file or on its way there has another name than a normalized one. -/
structure AllNamed (c : NodeConfig Id) : Prop where
  file : NamesNormalized c.shared.file
  calls : c.All fun _ task => ∀ call ∈ task.todo, call.Named

variable {c d : NodeConfig Id} {l : NodeLabel Id}

omit [EndpointKeys Id] in
/-- A command carries a normalized name if it was asked to. -/
theorem Command.Starts.named {command : Command Id} {task : Task Id} (h : command.Starts task)
    (hAsked : RenameNormalized (.call command : NodeLabel Id)) :
    ∀ call ∈ task.todo, call.Named := by
  intro call hMem
  have hNameless (hAll : task.todo.all Call.isNameless = true) : call.Named :=
    Call.named_of_isNameless (List.all_eq_true.mp hAll call hMem)
  cases h with
  | renamePaired endpointId displayName =>
      obtain ⟨given, hGiven⟩ := hAsked
      rw [List.mem_singleton.mp hMem]
      rintro _ _ ⟨⟩
      exact normalized_of_normalizeDisplayName hGiven
  | _ => exact hNameless rfl

variable [DecidableEq Id]

/-- A start from normalized names has only such. -/
theorem allNamed_started (restart : Restart Id) {file : List PairedDevice}
    (hFile : NamesNormalized file) : AllNamed (started restart file) := by
  constructor
  · rw [started, Restart.node]
    dsimp only
    split
    · exact hFile.markStale
    · exact hFile
  · intro t task hTask call hMem
    obtain rfl := List.mem_singleton.mp (List.mem_of_getElem? hTask)
    rw [List.mem_singleton.mp hMem]
    trivial

/-- In a step of the node the written pairings alone decide whether the file
keeps normalized names, and a file that keeps them keeps the rest. -/
theorem AllNamed.step (h : AllNamed c) (hAsked : RenameNormalized l)
    (hStep : AltSendme.step c l = some d) :
    (PairsNormalized c l ↔ NamesNormalized d.shared.file) ∧
      (NamesNormalized d.shared.file → AllNamed d) := by
  cases l with
  | call command =>
      have hCalls : d.All fun _ task => ∀ call ∈ task.todo, call.Named :=
        Pool.all_of_call nodePool h.calls hStep (command.starts.named hAsked)
      obtain rfl := Option.some.inj hStep
      exact ⟨iff_of_true trivial h.file, fun hFile => ⟨hFile, hCalls⟩⟩
  | restart restart =>
      obtain rfl := Option.some.inj hStep
      have hStarted := allNamed_started restart h.file
      exact ⟨iff_of_true trivial hStarted.file, fun _ => hStarted⟩
  | turn t input =>
      have hCalls (hFile : NamesNormalized c.shared.file) :
          d.All fun _ task => ∀ call ∈ task.todo, call.Named :=
        Pool.all_of_turn nodePool h.calls hStep
          (fun _ _ _ _ _ hNamed hTurn => ⟨Task.named_of_turn hNamed hFile hTurn,
            fun _ hNew => Task.spawned_named hTurn hNew⟩)
          (fun _ _ _ _ _ _ _ _ _ _ hNamed => hNamed)
      obtain ⟨task, n', task', spawned, hTask, hTurn, rfl⟩ := nodePool.next_turn_eq_some.mp hStep
      refine ⟨?_, fun hFile => ⟨hFile, hCalls h.file⟩⟩
      rcases Task.file_of_turn hTurn with ⟨op, base, cont, rest, now, hTodo, rfl, hFile⟩ |
        ⟨hFile, hNoWrite⟩
      · have hNext : nextCall c t = some (.storeWrite op base cont) :=
          nextCall_eq_some.mpr ⟨task, rest, hTask, hTodo⟩
        obtain ⟨hRename, hBase⟩ : (Call.storeWrite op base cont : Call Id).Named :=
          h.calls t task hTask _ (hTodo ▸ List.mem_cons_self)
        dsimp only
        rw [hFile, StoreOp.namesNormalized_apply hBase hRename]
        cases op <;> simp [PairsNormalized, hNext]
      · dsimp only
        rw [hFile]
        refine iff_of_true ?_ h.file
        cases input with
        | go now =>
            rw [PairsNormalized]
            split
            · next hNext =>
                obtain ⟨found, rest, hFound, hTodo⟩ := nextCall_eq_some.mp hNext
                obtain rfl := Option.some.inj (hTask.symm.trans hFound)
                exact absurd rfl (hNoWrite _ _ _ _ _ hTodo)
            · trivial
        | _ => trivial

/-- From a file of normalized names, a run of the node passes only such files
exactly when every pairing it records brought a normalized name. -/
theorem stored_names_normalized_iff {restart : Restart Id} {file : List PairedDevice}
    (hFile : NamesNormalized file) {ls : List (NodeLabel Id)}
    (hAsked : ∀ l ∈ ls, RenameNormalized l)
    (hRun : exec step (started restart file) ls = some c) :
    (∀ first m, first <+: ls → exec step (started restart file) first = some m →
        NamesNormalized m.shared.file) ↔
      Meets step PairsNormalized (started restart file) ls := by
  have hStart : AllNamed (started restart file) := allNamed_started restart hFile
  have hLabels : Meets step (fun _ l => RenameNormalized l) (started restart file) ls :=
    Meets.of_forall fun l hl _ => hAsked l hl
  exact (meets_iff_observed (fun _ _ _ h hLabel hNext => h.step hLabel hNext) hLabels hRun hStart
    hStart.file).symm

end Runs

section Devices

/-- Bob pairs under `displayName`, up to the write of his record. -/
def pairedAs (displayName : String) : List (NodeLabel HexId) :=
  pairingRun bob (ourInfo ⟨bob, displayName, "desktop", "linux"⟩ [1, 2, 3]) ++ goes 2 2

theorem renameNormalized_pairedAs (displayName : String) :
    ∀ l ∈ pairedAs displayName, RenameNormalized l := by
  intro l hl
  simp only [pairedAs, pairingRun, goes, List.mem_append, List.mem_replicate, List.mem_singleton]
    at hl
  rcases hl with (((((((rfl | ⟨_, rfl⟩) | rfl) | ⟨_, rfl⟩) | rfl) | ⟨_, rfl⟩) | rfl) | ⟨_, rfl⟩) |
    ⟨_, rfl⟩ <;> trivial

/-- A name is recorded as it was sent, blank or not. -/
theorem pairedAs_recorded :
    (Meets step PairsNormalized (started (.onIdentity (desktop alice)) []) (pairedAs "Bob") ∧
      ∃ c, exec step (started (.onIdentity (desktop alice)) []) (pairedAs "Bob") = some c ∧
        c.shared.file.map (·.displayName) = ["Bob"]) ∧
    ∃ c, exec step (started (.onIdentity (desktop alice)) []) (pairedAs " ") = some c ∧
      c.shared.file.map (·.displayName) = [" "] := by
  decide +kernel

theorem stored_names_normalized_iff_bob : ∃ c,
    exec step (started (.onIdentity (desktop alice)) []) (pairedAs "Bob") = some c ∧
      c.shared.file ≠ [] ∧ NamesNormalized c.shared.file := by
  obtain ⟨⟨hMeets, c, hRun, hNames⟩, _⟩ := pairedAs_recorded
  have hNone : NamesNormalized [] := nofun
  have hStates := (stored_names_normalized_iff hNone (renameNormalized_pairedAs "Bob")
    hRun).mpr hMeets
  refine ⟨c, hRun, ?_, hStates (pairedAs "Bob") c List.prefix_rfl hRun⟩
  intro hEmpty
  rw [hEmpty] at hNames
  cases hNames

/-- A blank name is recorded. -/
theorem blank_name_stored : ∃ c,
    exec step (started (.onIdentity (desktop alice)) []) (pairedAs " ") = some c ∧
      ¬NamesNormalized c.shared.file := by
  obtain ⟨_, c, hRun, hNames⟩ := pairedAs_recorded
  refine ⟨c, hRun, fun hAll => ?_⟩
  obtain ⟨d, hd, hName⟩ : ∃ d ∈ c.shared.file, d.displayName = " " :=
    List.mem_map.mp (hNames ▸ List.mem_singleton_self " ")
  have hBlank : ¬Normalized " " := by decide
  exact hBlank (hName ▸ hAll d hd)

end Devices

end AltSendme
