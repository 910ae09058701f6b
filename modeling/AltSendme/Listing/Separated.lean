import Mathlib.Data.List.Infix

/-! Words in a list that is written with separators: a word without the
separator stands on one side of it. -/
namespace Separated

universe u
variable {α : Type u} {word left right : List α} {c : α}

/-- No occurrence reaches over an element it does not have. -/
theorem infix_append_cons_iff (hWord : c ∉ word) :
    word <:+: left ++ c :: right ↔ word <:+: left ∨ word <:+: right := by
  constructor
  · rintro ⟨before, after, hEq⟩
    rcases List.append_eq_append_iff.mp hEq with ⟨rest, hLeft, -⟩ | ⟨rest, hStart, hEnd⟩
    · exact .inl ⟨before, rest, hLeft.symm⟩
    · cases rest with
      | nil => exact .inl ⟨before, [], by rw [List.append_nil, hStart, List.append_nil]⟩
      | cons d tail =>
          obtain ⟨rfl, rfl⟩ := List.cons.inj hEnd
          -- the separator is behind the start of the word, or in the word
          rcases List.append_eq_append_iff.mp hStart with ⟨mid, -, hMid⟩ | ⟨mid, -, hMid⟩
          · exact absurd (hMid ▸ List.mem_append_right mid List.mem_cons_self) hWord
          · cases mid with
            | nil =>
                have hWhole : c :: tail = word := hMid
                exact absurd (hWhole ▸ List.mem_cons_self) hWord
            | cons d tail' =>
                obtain ⟨-, rfl⟩ := List.cons.inj hMid
                exact .inr ⟨tail', after, rfl⟩
  · rintro (h | h)
    · exact List.infix_append_of_infix_left h
    · exact List.infix_append_of_infix_right (List.infix_cons h)

theorem infix_cons_iff_of_notMem (hWord : c ∉ word) :
    word <:+: c :: right ↔ word = [] ∨ word <:+: right := by
  rw [← List.nil_append (c :: right), infix_append_cons_iff hWord, List.infix_nil]

/-- The word in front of the first separator is determined. -/
theorem word_unique {word' rest rest' : List α} (hWord : c ∉ word) (hWord' : c ∉ word')
    (hRest : ∀ a ∈ rest.head?, a = c) (hRest' : ∀ a ∈ rest'.head?, a = c)
    (h : word ++ rest = word' ++ rest') : word = word' := by
  induction word generalizing word' with
  | nil =>
      cases word' with
      | nil => rfl
      | cons a word' =>
          obtain rfl := hRest a (by rw [List.nil_append] at h; rw [h]; rfl)
          exact absurd List.mem_cons_self hWord'
  | cons a word ih =>
      cases word' with
      | nil =>
          obtain rfl := hRest' a (by rw [List.nil_append] at h; rw [← h]; rfl)
          exact absurd List.mem_cons_self hWord
      | cons b word' =>
          obtain ⟨rfl, hTail⟩ := List.cons.inj h
          have hSame := ih (fun hc => hWord (List.mem_cons_of_mem a hc))
            (fun hc => hWord' (List.mem_cons_of_mem a hc)) hTail
          rw [hSame]

end Separated
