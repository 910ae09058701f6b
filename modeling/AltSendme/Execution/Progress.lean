import AltSendme.Execution.Run

/-! What every schedule comes to. A system that may take several steps is
said to reach a goal inevitably when no order of its conditioned steps misses
the goal or stops short of it. -/
namespace Execution

universe u v
variable {State : Type u} {Label : Type v}

/-- Whichever conditioned steps are taken from `s`, they come to `Goal`. -/
inductive Inevitable (next : State → Label → Option State) (C : State → Label → Prop)
    (Goal : State → Prop) : State → Prop where
  | reached {s : State} (hGoal : Goal s) : Inevitable next C Goal s
  | onward {s : State} (hSome : ∃ l t, C s l ∧ next s l = some t)
      (hAll : ∀ l t, C s l → next s l = some t → Inevitable next C Goal t) :
      Inevitable next C Goal s

variable {next : State → Label → Option State} {C : State → Label → Prop} {Goal : State → Prop}

/-- The proof rule: short of the goal a ranked invariant leaves a step to take,
and every step lowers the rank. -/
theorem Inevitable.of_rank {Inv : Nat → State → Prop}
    (hSome : ∀ r s, Inv r s → ¬ Goal s → ∃ l t, C s l ∧ next s l = some t)
    (hStep : ∀ r s l t, Inv r s → C s l → next s l = some t → ∃ r', r' < r ∧ Inv r' t)
    {r : Nat} {s : State} (hInv : Inv r s) : Inevitable next C Goal s := by
  induction r using Nat.strongRecOn generalizing s with
  | _ r ih =>
      by_cases hGoal : Goal s
      · exact .reached hGoal
      · refine .onward (hSome r s hInv hGoal) fun l t hC hNext => ?_
        obtain ⟨r', hLess, hInv'⟩ := hStep r s l t hInv hC hNext
        exact ih r' hLess hInv'

/-- The refutation rule: a set of states that has no goal in it and that no
conditioned step leaves. -/
theorem Inevitable.not_of_trap {Inv : State → Prop} (hGoal : ∀ s, Inv s → ¬ Goal s)
    (hStep : ∀ s l t, Inv s → C s l → next s l = some t → Inv t) {s : State} (hInv : Inv s) :
    ¬ Inevitable next C Goal s := by
  intro h
  induction h with
  | reached hReached => exact hGoal _ hInv hReached
  | onward hSome _ ih =>
      obtain ⟨l, t, hC, hNext⟩ := hSome
      exact ih l t hC hNext (hStep _ l t hInv hC hNext)

end Execution
