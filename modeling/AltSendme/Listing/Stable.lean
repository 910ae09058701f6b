import AltSendme.Listing.Grouped
import Mathlib.Data.List.Sort

/-! The stable sort of a keyed list, which compares keys only: each key keeps
its values in their order, and this is all that the sort keeps of the order. -/
namespace AltSendme.Listing

variable {K V : Type} [DecidableEq K]

theorem mem_of_mem_valuesOf {key : K} {value : V} {entries : List (K × V)}
    (h : value ∈ valuesOf key entries) : (key, value) ∈ entries := by
  obtain ⟨⟨first, found⟩, hFound, rfl⟩ := List.mem_map.mp h
  obtain ⟨hMem, hKey⟩ := List.mem_filter.mp hFound
  obtain rfl : first = key := by simpa using hKey
  exact hMem

variable [LE K] [DecidableLE K]

/-- `sort_by` on the keys. -/
def sortByKey (entries : List (K × V)) : List (K × V) :=
  entries.insertionSort fun left right => left.1 ≤ right.1

omit [DecidableEq K] in
theorem sortByKey_map (f : V → W) (entries : List (K × V)) :
    sortByKey (entries.map (Prod.map id f)) = (sortByKey entries).map (Prod.map id f) :=
  (List.map_insertionSort _ _ (Prod.map id f) entries fun _ _ _ _ => Iff.rfl).symm

variable [Std.IsLinearOrder K]

omit [DecidableEq K] in
theorem pairwise_sortByKey (entries : List (K × V)) :
    (sortByKey entries).Pairwise fun left right => left.1 ≤ right.1 := by
  have hTotal : Std.Total fun left right : K × V => left.1 ≤ right.1 :=
    ⟨fun left right => Std.IsLinearPreorder.le_total left.1 right.1⟩
  have hTrans : IsTrans (K × V) fun left right => left.1 ≤ right.1 :=
    ⟨fun left middle right => Std.IsPreorder.le_trans left.1 middle.1 right.1⟩
  exact List.pairwise_insertionSort _ entries

/-- An entry goes before the entries of its own key. -/
theorem valuesOf_orderedInsert (key : K) (entry : K × V) (entries : List (K × V)) :
    valuesOf key (entries.orderedInsert (fun left right => left.1 ≤ right.1) entry) =
      valuesOf key (entry :: entries) := by
  induction entries with
  | nil => rfl
  | cons first rest ih =>
      rw [List.orderedInsert]
      split
      · rfl
      · next hLater =>
          have hNe : first.1 ≠ entry.1 := fun hEq => hLater (hEq ▸ Std.IsPreorder.le_refl _)
          obtain ⟨firstKey, value⟩ := first
          by_cases hKey : firstKey = key
          · subst hKey
            rw [valuesOf_cons_self, ih, valuesOf_cons_of_ne (Ne.symm hNe),
              valuesOf_cons_of_ne (Ne.symm hNe), valuesOf_cons_self]
          · obtain ⟨entryKey, entryValue⟩ := entry
            rw [valuesOf_cons_of_ne hKey, ih]
            by_cases hEntry : entryKey = key
            · subst hEntry
              rw [valuesOf_cons_self, valuesOf_cons_self, valuesOf_cons_of_ne hKey]
            · rw [valuesOf_cons_of_ne hEntry, valuesOf_cons_of_ne hEntry, valuesOf_cons_of_ne hKey]

/-- Stability. -/
theorem valuesOf_sortByKey (key : K) (entries : List (K × V)) :
    valuesOf key (sortByKey entries) = valuesOf key entries := by
  induction entries with
  | nil => rfl
  | cons entry rest ih =>
      rw [sortByKey, List.insertionSort_cons, valuesOf_orderedInsert]
      obtain ⟨first, value⟩ := entry
      change valuesOf key ((first, value) :: sortByKey rest) = _
      by_cases hKey : first = key
      · subst hKey
        rw [valuesOf_cons_self, valuesOf_cons_self, ih]
      · rw [valuesOf_cons_of_ne hKey, valuesOf_cons_of_ne hKey, ih]

omit [DecidableLE K] in
/-- A list in the order of its keys is known by the values of each. -/
theorem eq_of_valuesOf {left right : List (K × V)}
    (hLeft : left.Pairwise fun a b => a.1 ≤ b.1) (hRight : right.Pairwise fun a b => a.1 ≤ b.1)
    (h : ∀ key, valuesOf key left = valuesOf key right) : left = right := by
  induction left generalizing right with
  | nil =>
      cases right with
      | nil => rfl
      | cons entry rest =>
          have hHead := h entry.1
          rw [valuesOf_nil, valuesOf_cons_self] at hHead
          cases hHead
  | cons entry left ih =>
      cases right with
      | nil =>
          have hHead := h entry.1
          rw [valuesOf_nil, valuesOf_cons_self] at hHead
          cases hHead
      | cons other right =>
          obtain ⟨key, value⟩ := entry
          obtain ⟨otherKey, otherValue⟩ := other
          rw [List.pairwise_cons] at hLeft hRight
          -- each head has the least key of its list, and the keys are the same
          have hLe : otherKey ≤ key := by
            have hMem : (key, value) ∈ (otherKey, otherValue) :: right := by
              apply mem_of_mem_valuesOf
              rw [← h key, valuesOf_cons_self]
              exact List.mem_cons_self
            rcases List.mem_cons.mp hMem with hEq | hRest
            · rw [(Prod.mk.inj hEq).1]
              exact Std.IsPreorder.le_refl _
            · exact hRight.1 _ hRest
          have hGe : key ≤ otherKey := by
            have hMem : (otherKey, otherValue) ∈ (key, value) :: left := by
              apply mem_of_mem_valuesOf
              rw [h otherKey, valuesOf_cons_self]
              exact List.mem_cons_self
            rcases List.mem_cons.mp hMem with hEq | hRest
            · rw [(Prod.mk.inj hEq).1]
              exact Std.IsPreorder.le_refl _
            · exact hLeft.1 _ hRest
          obtain rfl := Std.IsPartialOrder.le_antisymm _ _ hGe hLe
          have hHead := h key
          rw [valuesOf_cons_self, valuesOf_cons_self, List.cons.injEq] at hHead
          rw [hHead.1, ih hLeft.2 hRight.2]
          intro k
          by_cases hk : key = k
          · subst hk
            exact hHead.2
          · have hSame := h k
            rwa [valuesOf_cons_of_ne hk, valuesOf_cons_of_ne hk] at hSame

/-- What the sort keeps of the order. -/
theorem sortByKey_eq_iff {left right : List (K × V)} :
    sortByKey left = sortByKey right ↔ ∀ key, valuesOf key left = valuesOf key right := by
  constructor
  · intro h key
    rw [← valuesOf_sortByKey, h, valuesOf_sortByKey]
  · intro h
    refine eq_of_valuesOf (pairwise_sortByKey left) (pairwise_sortByKey right) fun key => ?_
    rw [valuesOf_sortByKey, valuesOf_sortByKey, h]

end AltSendme.Listing
