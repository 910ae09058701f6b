import AltSendme.Native.Download

/-! The totals that `download_to_store` returns: the number of files and the sum
of their sizes. A download that asks the sender learns both from the sizes of the
blobs; one that finds its store complete takes the number from the store and
does not look at any size. -/
namespace AltSendme.Download
open Execution

section
variable {Content : Type}

/-- `download_to_store` at one of its awaits, or returned. -/
inductive StoreCall (Content : Type) where
  | awaiting (stage : StoreStage)
  | returned (result : Except String (Totals × List (String × Content)))

namespace StoreCall

def start : StoreCall Content := .awaiting .lookingUp

def after : StoreNext Content → StoreCall Content
  | .goOn stage => .awaiting stage
  | .loaded totals files => .returned (.ok (totals, files))
  | .failed message => .returned (.error message)

def next (stored : LocalInfo) : StoreCall Content → Answer Content → Option (StoreCall Content)
  | .awaiting stage, answer => (storeTurn stored stage answer).map fun r => after r.2
  | .returned _, _ => none

/-- The totals that a call comes to, for files of these sizes. -/
def totalsFor (stored : LocalInfo) (files : List Nat) : Totals :=
  match stored with
  | .incomplete => ⟨files.length, files.sum % 2 ^ 64⟩
  | .complete _ => ⟨files.length, 0⟩

/-- What is known of the totals at each await. -/
def Knows (stored : LocalInfo) (files : List Nat) : StoreCall Content → Prop
  | .awaiting .lookingUp => True
  | .awaiting .connecting | .awaiting .sizing => stored = .incomplete
  | .awaiting (.streaming totals _) | .awaiting (.loading totals) => totals = totalsFor stored files
  | .returned (.ok (totals, _)) => totals = totalsFor stored files
  | .returned (.error _) => True

/-- The store has all of a collection with these files, or not. -/
def HoldsAll (stored : LocalInfo) (files : List Nat) : Prop :=
  ∀ children, stored = .complete children → children = files.length + 1

/-- The sender tells the sizes of the names and of the files. -/
def Told (names : Nat) (files : List Nat) (answer : Answer Content) : Prop :=
  ∀ sizes, answer = .sizes sizes → sizes = names :: files

/-- Every await of the call keeps to the totals of its store. -/
theorem knows_step {stored : LocalInfo} {names : Nat} {files : List Nat} {s t : StoreCall Content}
    {answer : Answer Content} (hStored : HoldsAll stored files) (h : Knows stored files s)
    (hTold : Told names files answer) (hNext : next stored s answer = some t) :
    Knows stored files t := by
  cases s with
  | returned result => cases hNext
  | awaiting stage =>
      obtain ⟨⟨events, n⟩, hTurn, rfl⟩ := Option.map_eq_some_iff.mp hNext
      unfold storeTurn at hTurn
      split at hTurn
      · cases stored with
        | incomplete =>
            cases hTurn
            exact rfl
        | complete children =>
            cases hTurn
            have hChildren := hStored children rfl
            change (⟨children - 1, 0⟩ : Totals) = ⟨files.length, 0⟩
            rw [hChildren, Nat.add_sub_cancel]
      · cases hTurn
        exact h
      · cases hTurn
        trivial
      · next sizes =>
          cases hTurn
          obtain rfl := hTold sizes rfl
          have hIncomplete : stored = .incomplete := h
          subst hIncomplete
          exact rfl
      · split at hTurn <;> cases hTurn <;> exact h
      · cases hTurn
        exact h
      · cases hTurn
        exact h
      · cases hTurn
        exact h
      · cases hTurn
        trivial
      · cases hTurn

theorem knows_run {stored : LocalInfo} {names : Nat} {files : List Nat}
    {answers : List (Answer Content)} {t : StoreCall Content} (hStored : HoldsAll stored files)
    (hTold : ∀ answer ∈ answers, Told names files answer)
    (hRun : exec (next stored) start answers = some t) : Knows stored files t := by
  have hMeets : Meets (next stored) (fun _ answer => Told names files answer) start answers :=
    .of_forall fun answer hAnswer _ => hTold answer hAnswer
  exact hMeets.invariant (fun _ _ _ h hAnswer hNext => knows_step hStored h hAnswer hNext) hRun
    trivial

end StoreCall

/-- A call returns the number of the files and the sum of their sizes exactly
when there is nothing to sum up in a complete store, and no overflow otherwise. -/
theorem download_totals_iff {stored : LocalInfo} {names : Nat} {files : List Nat}
    {answers : List (Answer Content)} {totals : Totals} {loaded : List (String × Content)}
    (hStored : StoreCall.HoldsAll stored files)
    (hTold : ∀ answer ∈ answers, StoreCall.Told names files answer)
    (hRun : exec (StoreCall.next stored) .start answers =
      some (.returned (.ok (totals, loaded)))) :
    totals = ⟨files.length, files.sum⟩ ↔
      if stored.isComplete then files.sum = 0 else files.sum < 2 ^ 64 := by
  obtain rfl : totals = StoreCall.totalsFor stored files := StoreCall.knows_run hStored hTold hRun
  cases stored with
  | incomplete =>
      simp only [StoreCall.totalsFor, Totals.mk.injEq, true_and, LocalInfo.isComplete,
        Bool.false_eq_true, if_false]
      constructor
      · intro hSame
        rw [← hSame]
        exact Nat.mod_lt _ (by decide)
      · exact Nat.mod_eq_of_lt
  | complete children =>
      simp only [StoreCall.totalsFor, Totals.mk.injEq, true_and, LocalInfo.isComplete, if_true]
      exact eq_comm

end

section

/-- A file of ten bytes is fetched into a store that has a part of it. -/
private def fetched : List (Answer Nat) :=
  [.ok, .ok, .sizes [60, 10], .progress 5 0, .done 0, .collection [("a.txt", 3)]]

private theorem told_fetched : ∀ answer ∈ fetched, StoreCall.Told 60 [10] answer := by
  intro answer hAnswer sizes hEq
  subst hEq
  simpa [fetched] using hAnswer

private theorem fetched_run : exec (StoreCall.next .incomplete) .start fetched =
    some (.returned (.ok (⟨1, 10⟩, [("a.txt", 3)]))) := rfl

theorem download_totals_iff_fetched :
    (⟨1, 10⟩ : Totals) = ⟨[10].length, [10].sum⟩ ↔
      if LocalInfo.incomplete.isComplete then [10].sum = 0 else [10].sum < 2 ^ 64 :=
  download_totals_iff nofun told_fetched fetched_run

/-- The same file is there already: one file of no bytes. -/
theorem download_totals_stored :
    ¬∀ (stored : LocalInfo) (names : Nat) (files : List Nat) (answers : List (Answer Nat))
      (totals : Totals) (loaded : List (String × Nat)), StoreCall.HoldsAll stored files →
      (∀ answer ∈ answers, StoreCall.Told names files answer) →
      exec (StoreCall.next stored) .start answers = some (.returned (.ok (totals, loaded))) →
      totals = ⟨files.length, files.sum⟩ := by
  intro h
  have hStored : StoreCall.HoldsAll (.complete 2) [10] := fun children hEq => by
    cases hEq
    rfl
  have hTold : ∀ answer ∈ [.ok, .collection [("a.txt", 3)]],
      StoreCall.Told 60 [10] (answer : Answer Nat) := by
    intro answer hAnswer sizes hEq
    subst hEq
    simp at hAnswer
  have hTotals := h (.complete 2) 60 [10] _ ⟨1, 0⟩ [("a.txt", 3)] hStored hTold rfl
  exact absurd hTotals (by decide)

end

end AltSendme.Download
