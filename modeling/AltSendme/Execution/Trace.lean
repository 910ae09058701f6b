import AltSendme.Execution.Run
import Mathlib.Order.Basic

/-! What a run shows to the outside, step by step, and values that rise along a
run. The level they rise to may be read off the labels taken so far. -/
namespace Execution

universe u v w
variable {State : Type u} {Label : Type v} {Out : Type w}

/-- What the steps of a word show, one after another. -/
def outputs (next : State → Label → Option State) (observe : State → Label → State → List Out) :
    State → List Label → List Out
  | _, [] => []
  | s, l :: ls =>
      match next s l with
      | none => []
      | some m => observe s l m ++ outputs next observe m ls

theorem outputs_concat {next : State → Label → Option State}
    {observe : State → Label → State → List Out} {s m t : State} {ls : List Label} {l : Label}
    (hRun : exec next s ls = some m) (hStep : next m l = some t) :
    outputs next observe s (ls ++ [l]) = outputs next observe s ls ++ observe m l t := by
  induction ls generalizing s with
  | nil =>
      obtain rfl : s = m := by simpa using hRun
      simp [outputs, hStep]
  | cons k ks ih =>
      obtain ⟨n, hNext, hRest⟩ := Option.bind_eq_some_iff.mp hRun
      simp only [List.cons_append, outputs, hNext, ih hRest, List.append_assoc]

/-- Values that never decrease and have not passed the level. -/
structure Rising [LE Out] (values : List Out) (level : Out) : Prop where
  sorted : values.Pairwise (· ≤ ·)
  bounded : ∀ v ∈ values, v ≤ level

section
variable [Preorder Out]

theorem rising_nil (level : Out) : Rising ([] : List Out) level := ⟨.nil, nofun⟩

/-- New values between the old level and the new one. -/
theorem Rising.append {values more : List Out} {low high : Out} (h : Rising values low)
    (hMore : more.Pairwise (· ≤ ·)) (hBetween : ∀ v ∈ more, low ≤ v ∧ v ≤ high)
    (hLevel : low ≤ high) : Rising (values ++ more) high := by
  refine ⟨List.pairwise_append.mpr ⟨h.sorted, hMore, fun v hv w hw => ?_⟩, fun v hv => ?_⟩
  · exact (h.bounded v hv).trans (hBetween w hw).1
  · rcases List.mem_append.mp hv with hOld | hNew
    · exact (h.bounded v hOld).trans hLevel
    · exact (hBetween v hNew).2

/-- The proof rule: what is given about a run was given about its beginnings,
and every step shows only values between its two levels. -/
theorem rising_outputs {next : State → Label → Option State}
    {observe : State → Label → State → List Out} {level : List Label → Out}
    {Given : List Label → State → Prop} {s t : State} {ls : List Label}
    (hBefore : ∀ ls m l t, next m l = some t → Given (ls ++ [l]) t → Given ls m)
    (hStep : ∀ ls m l t, exec next s ls = some m → next m l = some t → Given (ls ++ [l]) t →
      (observe m l t).Pairwise (· ≤ ·) ∧
        (∀ v ∈ observe m l t, level ls ≤ v ∧ v ≤ level (ls ++ [l])) ∧
        level ls ≤ level (ls ++ [l]))
    (hRun : exec next s ls = some t) (hGiven : Given ls t) :
    Rising (outputs next observe s ls) (level ls) := by
  refine @exec_history _ _ next
    (fun ls t => Given ls t → Rising (outputs next observe s ls) (level ls)) s
    (fun _ => rising_nil _) ?_ ls t hRun hGiven
  intro ls m l t hPrior hRising hNext hAfter
  obtain ⟨hSorted, hBetween, hLevel⟩ := hStep ls m l t hPrior hNext hAfter
  rw [outputs_concat hPrior hNext]
  exact (hRising (hBefore ls m l t hNext hAfter)).append hSorted hBetween hLevel

end

end Execution
