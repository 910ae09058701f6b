import Mathlib.Data.List.DropRight
import Mathlib.Data.List.TakeWhile

/-! Trimming a list: what satisfies `p` is taken off both of its ends. -/
namespace Trimming

universe u
variable {α : Type u} {p : α → Bool} {l : List α}

def trim (p : α → Bool) (l : List α) : List α := (l.dropWhile p).rdropWhile p

/-- What is left begins with nothing that would be taken off. -/
theorem dropWhile_trim : (trim p l).dropWhile p = trim p l := by
  rw [List.dropWhile_eq_self_iff]
  intro hPos
  have hPrefix : trim p l <+: l.dropWhile p := List.rdropWhile_prefix p _
  have hDropped : 0 < (l.dropWhile p).length := hPos.trans_le hPrefix.length_le
  rw [hPrefix.getElem hPos]
  exact List.dropWhile_get_zero_not p l hDropped

theorem trim_trim : trim p (trim p l) = trim p l := by
  rw [trim, dropWhile_trim, trim, List.rdropWhile_idempotent]

/-- Trimming does not see what it takes off. -/
theorem trim_append {before after : List α} (hBefore : ∀ a ∈ before, p a = true)
    (hAfter : ∀ a ∈ after, p a = true) : trim p (before ++ (l ++ after)) = trim p l := by
  have hNone : after.dropWhile p = [] := List.dropWhile_eq_nil_iff.mpr hAfter
  have hEnd (kept : List α) : (kept ++ after).rdropWhile p = kept.rdropWhile p := by
    rw [List.rdropWhile, List.reverse_append,
      List.dropWhile_append_of_pos fun a ha => hAfter a (List.mem_reverse.mp ha)]
    rfl
  rw [trim, List.dropWhile_append_of_pos hBefore, List.dropWhile_append]
  cases hKept : (l.dropWhile p).isEmpty with
  | false => rw [if_neg Bool.false_ne_true, hEnd, trim]
  | true => rw [if_pos rfl, hNone, trim, List.isEmpty_iff.mp hKept]

theorem trim_eq_self (hFirst : ∀ a ∈ l.head?, p a = false) (hLast : ∀ a ∈ l.getLast?, p a = false) :
    trim p l = l := by
  have hFront : l.dropWhile p = l := by
    cases l with
    | nil => rfl
    | cons a rest => exact List.dropWhile_cons_of_neg (by simp [hFirst a rfl])
  rw [trim, hFront, List.rdropWhile_eq_self_iff]
  intro hNonempty
  rw [hLast _ (List.getLast?_eq_some_getLast hNonempty)]
  exact Bool.false_ne_true

end Trimming
