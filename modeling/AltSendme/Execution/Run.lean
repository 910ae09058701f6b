import Mathlib.Data.List.Induction

/-! Finite runs of a partial labelled transition function. A run is the word
of its labels; a word with a label that is not enabled where it stands is not
a run. Nothing here assumes that a run is fair or maximal. -/
namespace Execution

universe u v
variable {State : Type u} {Label : Type v}

/-- Take the labelled steps one after another. -/
def exec (next : State → Label → Option State) : State → List Label → Option State
  | s, [] => some s
  | s, l :: ls => (next s l).bind fun m => exec next m ls

/-- What a word reaches can be checked by running it. -/
instance decidableExistsSome {α : Type u} {found : Option α} {P : α → Prop} [DecidablePred P] :
    Decidable (∃ a, found = some a ∧ P a) :=
  match found with
  | none => .isFalse fun ⟨_, h, _⟩ => nomatch h
  | some a => decidable_of_iff (P a) (by simp)

@[simp] theorem exec_nil (next : State → Label → Option State) (s : State) :
    exec next s [] = some s := rfl

@[simp] theorem exec_cons (next : State → Label → Option State) (s : State)
    (l : Label) (ls : List Label) :
    exec next s (l :: ls) = (next s l).bind fun m => exec next m ls := rfl

/-- Cut a run at any of its positions. -/
theorem exec_append_eq_some {next : State → Label → Option State} {s t : State}
    {first second : List Label} :
    exec next s (first ++ second) = some t ↔
      ∃ m, exec next s first = some m ∧ exec next m second = some t := by
  induction first generalizing s with
  | nil => simp
  | cons l ls ih =>
      rw [List.cons_append, exec_cons, exec_cons, Option.bind_eq_some_iff]
      constructor
      · rintro ⟨m, hStep, hRest⟩
        obtain ⟨mid, hFirst, hSecond⟩ := ih.mp hRest
        exact ⟨mid, by simp [hStep, hFirst], hSecond⟩
      · rintro ⟨mid, hFirst, hSecond⟩
        obtain ⟨m, hStep, hRest⟩ := Option.bind_eq_some_iff.mp hFirst
        exact ⟨m, hStep, ih.mpr ⟨mid, hRest, hSecond⟩⟩

/-- A run is the run before its last step, and that step. -/
theorem exec_concat_eq_some {next : State → Label → Option State} {s t : State}
    {ls : List Label} {l : Label} :
    exec next s (ls ++ [l]) = some t ↔
      ∃ m, exec next s ls = some m ∧ next m l = some t := by
  simp [exec_append_eq_some]

/-- Every step of the word is taken from a state where it meets `C`. Only
the states the word really visits are constrained. -/
def Meets (next : State → Label → Option State) (C : State → Label → Prop) :
    State → List Label → Prop
  | _, [] => True
  | s, l :: ls => C s l ∧ ∀ m, next s l = some m → Meets next C m ls

@[simp] theorem meets_nil (next : State → Label → Option State)
    (C : State → Label → Prop) (s : State) : Meets next C s [] := trivial

theorem meets_cons {next : State → Label → Option State} {C : State → Label → Prop}
    {s : State} {l : Label} {ls : List Label} :
    Meets next C s (l :: ls) ↔ C s l ∧ ∀ m, next s l = some m → Meets next C m ls := Iff.rfl

/-- The condition can be checked along the word when it can be checked once. -/
instance decidableMeets {next : State → Label → Option State} {C : State → Label → Prop}
    [∀ s l, Decidable (C s l)] : ∀ s ls, Decidable (Meets next C s ls)
  | _, [] => .isTrue trivial
  | s, l :: ls =>
      match h : next s l with
      | none => decidable_of_iff (C s l) (by simp [meets_cons, h])
      | some m =>
          haveI : Decidable (Meets next C m ls) := decidableMeets m ls
          decidable_of_iff (C s l ∧ Meets next C m ls) (by simp [meets_cons, h])

/-- How many steps of the word are taken against `C`. -/
def breaches (next : State → Label → Option State) (C : State → Label → Prop)
    [∀ s l, Decidable (C s l)] : State → List Label → Nat
  | _, [] => 0
  | s, l :: ls => (if C s l then 0 else 1) + (next s l).elim 0 fun m => breaches next C m ls

/-- A measure that grows by one with each step against `C` counts them. -/
theorem measure_eq_breaches {next : State → Label → Option State} {C : State → Label → Prop}
    [∀ s l, Decidable (C s l)] {I : State → Prop} {measure : State → Nat}
    (hStep : ∀ s l t, I s → next s l = some t →
      I t ∧ measure t = measure s + if C s l then 0 else 1)
    {s t : State} {ls : List Label} (hStart : I s) (hRun : exec next s ls = some t) :
    measure t = measure s + breaches next C s ls := by
  induction ls generalizing s with
  | nil =>
      obtain rfl : s = t := by simpa using hRun
      rfl
  | cons l ls ih =>
      obtain ⟨m, hNext, hRest⟩ := Option.bind_eq_some_iff.mp hRun
      obtain ⟨hInv, hMeasure⟩ := hStep s l m hStart hNext
      rw [breaches, hNext, Option.elim_some, ih hInv hRest, hMeasure]
      omega

/-- No step of a run is against `C` when they all meet it. -/
theorem breaches_eq_zero {next : State → Label → Option State} {C : State → Label → Prop}
    [∀ s l, Decidable (C s l)] {s t : State} {ls : List Label} (hRun : exec next s ls = some t) :
    breaches next C s ls = 0 ↔ Meets next C s ls := by
  induction ls generalizing s with
  | nil => exact iff_of_true rfl trivial
  | cons l ls ih =>
      obtain ⟨m, hNext, hRest⟩ := Option.bind_eq_some_iff.mp hRun
      rw [breaches, meets_cons, hNext, Option.elim_some, Nat.add_eq_zero_iff, ih hRest]
      simp

/-- The condition at one named step of the word. -/
theorem Meets.at_step {next : State → Label → Option State} {C : State → Label → Prop}
    {s m : State} {first second : List Label} {l : Label}
    (h : Meets next C s (first ++ l :: second)) (hRun : exec next s first = some m) :
    C m l := by
  induction first generalizing s with
  | nil =>
      obtain rfl : s = m := by simpa using hRun
      exact h.1
  | cons a as ih =>
      obtain ⟨n, hStep, hRest⟩ := Option.bind_eq_some_iff.mp hRun
      exact ih (h.2 n hStep) hRest

/-- The condition on the second part of a word. -/
theorem Meets.drop {next : State → Label → Option State} {C : State → Label → Prop}
    {s m : State} {first second : List Label} (h : Meets next C s (first ++ second))
    (hRun : exec next s first = some m) : Meets next C m second := by
  induction first generalizing s with
  | nil =>
      obtain rfl : s = m := by simpa using hRun
      exact h
  | cons a as ih =>
      obtain ⟨n, hStep, hRest⟩ := Option.bind_eq_some_iff.mp hRun
      exact ih (h.2 n hStep) hRest

theorem Meets.of_forall {next : State → Label → Option State} {C : State → Label → Prop}
    {s : State} {ls : List Label} (h : ∀ l ∈ ls, ∀ m, C m l) : Meets next C s ls := by
  induction ls generalizing s with
  | nil => trivial
  | cons l ls ih =>
      exact ⟨h l List.mem_cons_self s, fun m _ => ih fun k hk => h k (List.mem_cons_of_mem l hk)⟩

/-- A condition that follows from one met is met. -/
theorem Meets.mono {next : State → Label → Option State} {C D : State → Label → Prop}
    (hCD : ∀ s l, C s l → D s l) {s : State} {ls : List Label}
    (h : Meets next C s ls) : Meets next D s ls := by
  induction ls generalizing s with
  | nil => trivial
  | cons l ls ih => exact ⟨hCD s l h.1, fun m hStep => ih (h.2 m hStep)⟩

/-- Two conditions that are met are met together. -/
theorem Meets.and {next : State → Label → Option State} {C D : State → Label → Prop}
    {s : State} {ls : List Label} (hC : Meets next C s ls) (hD : Meets next D s ls) :
    Meets next (fun s l => C s l ∧ D s l) s ls := by
  induction ls generalizing s with
  | nil => trivial
  | cons l ls ih =>
      exact ⟨⟨hC.1, hD.1⟩, fun m hStep => ih (hC.2 m hStep) (hD.2 m hStep)⟩

/-- An invariant that the conditioned steps preserve holds at the end of every
conditioned run. -/
theorem Meets.invariant {next : State → Label → Option State} {C : State → Label → Prop}
    {Inv : State → Prop}
    (hStep : ∀ s l t, Inv s → C s l → next s l = some t → Inv t)
    {s t : State} {ls : List Label} (h : Meets next C s ls)
    (hRun : exec next s ls = some t) (hInv : Inv s) : Inv t := by
  induction ls generalizing s with
  | nil =>
      obtain rfl : s = t := by simpa using hRun
      exact hInv
  | cons l ls ih =>
      obtain ⟨m, hNext, hRest⟩ := Option.bind_eq_some_iff.mp hRun
      exact ih (h.2 m hNext) hRest (hStep s l m hInv h.1 hNext)

/-- The same invariant also judges every step on the way. -/
theorem Meets.of_invariant {next : State → Label → Option State}
    {C P : State → Label → Prop} {Inv : State → Prop}
    (hStep : ∀ s l t, Inv s → C s l → next s l = some t → Inv t)
    (hJudge : ∀ s l, Inv s → C s l → P s l)
    {s : State} {ls : List Label} (h : Meets next C s ls) (hInv : Inv s) :
    Meets next P s ls := by
  induction ls generalizing s with
  | nil => trivial
  | cons l ls ih =>
      refine ⟨hJudge s l hInv h.1, fun m hNext => ?_⟩
      exact ih (h.2 m hNext) (hStep s l m hInv h.1 hNext)

/-- The condition on the first part of a word. -/
theorem Meets.take {next : State → Label → Option State} {C : State → Label → Prop}
    {s : State} {first second : List Label} (h : Meets next C s (first ++ second)) :
    Meets next C s first := by
  induction first generalizing s with
  | nil => trivial
  | cons l ls ih => exact ⟨h.1, fun m hNext => ih (h.2 m hNext)⟩

/-- In a run whose steps are all `A`, where the condition is exactly what keeps
the part `P` of an invariant that decides the rest, the run meets it exactly when
`P` holds in every state it passes. -/
theorem meets_iff_observed {next : State → Label → Option State} {A C : State → Label → Prop}
    {Inv P : State → Prop}
    (hStep : ∀ s l t, Inv s → A s l → next s l = some t → (C s l ↔ P t) ∧ (P t → Inv t))
    {s t : State} {ls : List Label} (hA : Meets next A s ls) (hRun : exec next s ls = some t)
    (hInv : Inv s) (hStart : P s) :
    Meets next C s ls ↔ ∀ first m, first <+: ls → exec next s first = some m → P m := by
  induction ls generalizing s with
  | nil =>
      refine ⟨fun _ first m hFirst hReach => ?_, fun _ => trivial⟩
      rw [List.prefix_nil.mp hFirst, exec_nil, Option.some.injEq] at hReach
      exact hReach ▸ hStart
  | cons l ls ih =>
      obtain ⟨mid, hNext, hRest⟩ := Option.bind_eq_some_iff.mp hRun
      obtain ⟨hCondition, hKept⟩ := hStep s l mid hInv hA.1 hNext
      constructor
      · rintro ⟨hHead, hTail⟩ first m hFirst hReach
        cases first with
        | nil =>
            obtain rfl : s = m := by simpa using hReach
            exact hStart
        | cons k ks =>
            obtain ⟨rfl, hKs⟩ := List.cons_prefix_cons.mp hFirst
            rw [exec_cons, hNext, Option.bind_some] at hReach
            have hMid := hCondition.mp hHead
            exact (ih (hA.2 mid hNext) hRest (hKept hMid) hMid).mp (hTail mid hNext) ks m hKs hReach
      · intro hAll
        have hMid : P mid := hAll [l] mid (List.prefix_append [l] ls) (by simp [hNext])
        refine ⟨hCondition.mpr hMid, fun m hm => ?_⟩
        obtain rfl := Option.some.inj (hNext.symm.trans hm)
        refine (ih (hA.2 mid hNext) hRest (hKept hMid) hMid).mpr fun first m hFirst hReach => ?_
        exact hAll (l :: first) m (List.cons_prefix_cons.mpr ⟨rfl, hFirst⟩) (by simp [hNext, hReach])

/-- When the condition is exactly what keeps `Inv` over a step, a run meets it
exactly when `Inv` holds in every state it passes. -/
theorem meets_iff_states {next : State → Label → Option State} {C : State → Label → Prop}
    {Inv : State → Prop}
    (hStep : ∀ s l t, Inv s → next s l = some t → (C s l ↔ Inv t))
    {s t : State} {ls : List Label} (hRun : exec next s ls = some t) (hInv : Inv s) :
    Meets next C s ls ↔ ∀ first m, first <+: ls → exec next s first = some m → Inv m := by
  have hAny : Meets next (fun _ _ => True) s ls := Meets.of_forall fun _ _ _ => trivial
  exact meets_iff_observed (fun s l t h _ hNext => ⟨hStep s l t h hNext, id⟩) hAny hRun hInv hInv

/-- Unconditioned invariants of a run. -/
theorem exec_invariant {next : State → Label → Option State} {Inv : State → Prop}
    (hStep : ∀ s l t, Inv s → next s l = some t → Inv t)
    {s t : State} {ls : List Label} (hRun : exec next s ls = some t) (hInv : Inv s) :
    Inv t := by
  induction ls generalizing s with
  | nil =>
      obtain rfl : s = t := by simpa using hRun
      exact hInv
  | cons l ls ih =>
      obtain ⟨m, hNext, hRest⟩ := Option.bind_eq_some_iff.mp hRun
      exact ih hRest (hStep s l m hInv hNext)

/-- An invariant that may speak about the labels taken so far. The history
is proof data: no step of the system can read it. -/
theorem exec_history {next : State → Label → Option State}
    {Inv : List Label → State → Prop} {s : State} (hStart : Inv [] s)
    (hStep : ∀ ls m l t, exec next s ls = some m → Inv ls m → next m l = some t →
      Inv (ls ++ [l]) t)
    {ls : List Label} {t : State} (hRun : exec next s ls = some t) : Inv ls t := by
  induction ls using List.reverseRecOn generalizing t with
  | nil =>
      obtain rfl : s = t := by simpa using hRun
      exact hStart
  | append_singleton ls l ih =>
      obtain ⟨m, hPrior, hLast⟩ := exec_concat_eq_some.mp hRun
      exact hStep ls m l t hPrior (ih hPrior) hLast

/-- An invariant of conditioned runs that may speak about the labels so far. -/
theorem Meets.history {next : State → Label → Option State} {C : State → Label → Prop}
    {Inv : List Label → State → Prop} {s : State} (hStart : Inv [] s)
    (hStep : ∀ ls m l t, exec next s ls = some m → Inv ls m → C m l → next m l = some t →
      Inv (ls ++ [l]) t)
    {ls : List Label} {t : State} (h : Meets next C s ls) (hRun : exec next s ls = some t) :
    Inv ls t := by
  refine @exec_history _ _ next (fun ls t => Meets next C s ls → Inv ls t) s (fun _ => hStart) ?_
    ls t hRun h
  intro ls m l t hPrior hInv hNext hMeets
  exact hStep ls m l t hPrior (hInv hMeets.take) (hMeets.at_step hPrior) hNext

/-- Some step of the word meets `P` where it is taken. -/
def Hits (next : State → Label → Option State) (P : State → Label → Prop) :
    State → List Label → Prop
  | _, [] => False
  | s, l :: ls => P s l ∨ ∃ m, next s l = some m ∧ Hits next P m ls

instance decidableHits {next : State → Label → Option State} {P : State → Label → Prop}
    [∀ s l, Decidable (P s l)] : ∀ s ls, Decidable (Hits next P s ls)
  | _, [] => .isFalse id
  | s, l :: ls =>
      haveI : DecidablePred fun m => Hits next P m ls := fun m => decidableHits m ls
      inferInstanceAs (Decidable (P s l ∨ ∃ m, next s l = some m ∧ Hits next P m ls))

/-- A run is hit if it was hit before its last step or by it. -/
theorem hits_concat {next : State → Label → Option State} {P : State → Label → Prop}
    {s m : State} {ls : List Label} {l : Label} (hRun : exec next s ls = some m) :
    Hits next P s (ls ++ [l]) ↔ Hits next P s ls ∨ P m l := by
  induction ls generalizing s with
  | nil =>
      obtain rfl : s = m := by simpa using hRun
      simp [Hits]
  | cons k ks ih =>
      obtain ⟨n, hStep, hRest⟩ := Option.bind_eq_some_iff.mp hRun
      have hTail := ih hRest
      simp only [List.cons_append, Hits, hStep, Option.some.injEq, exists_eq_left', hTail, or_assoc]

/-- What the last step of the word that `judge` decides says, and `held` where
it decides none. -/
def lastVerdict {Verdict : Type*} (next : State → Label → Option State)
    (judge : State → Label → Option Verdict) (held : Verdict) : State → List Label → Verdict
  | _, [] => held
  | s, l :: ls =>
      match next s l with
      | none => held
      | some m => lastVerdict next judge ((judge s l).getD held) m ls

/-- The last step's verdict counts, where it gives one. -/
theorem lastVerdict_concat {Verdict : Type*} {next : State → Label → Option State}
    {judge : State → Label → Option Verdict} {held : Verdict} {s m t : State}
    {ls : List Label} {l : Label} (hRun : exec next s ls = some m) (hStep : next m l = some t) :
    lastVerdict next judge held s (ls ++ [l]) =
      (judge m l).getD (lastVerdict next judge held s ls) := by
  induction ls generalizing s held with
  | nil =>
      obtain rfl : s = m := by simpa using hRun
      simp [lastVerdict, hStep]
  | cons k ks ih =>
      obtain ⟨n, hNext, hRest⟩ := Option.bind_eq_some_iff.mp hRun
      simp only [List.cons_append, lastVerdict, hNext]
      exact ih hRest

end Execution
