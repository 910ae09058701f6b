import Mathlib.Algebra.BigOperators.Group.List.Basic
import Mathlib.Data.List.Dedup
import Mathlib.Data.List.Perm.Subperm

/-! Lists of keyed values and what each key comes to. A list made of blocks, one
key each, is grouped block by block exactly when the blocks keep apart. -/
namespace AltSendme.Listing

variable {K V : Type} [DecidableEq K]

/-- The values under a key, in their order. -/
def valuesOf (key : K) (entries : List (K × V)) : List V :=
  (entries.filter fun entry => entry.1 = key).map Prod.snd

@[simp] theorem valuesOf_nil (key : K) : valuesOf key ([] : List (K × V)) = [] := rfl

@[simp] theorem valuesOf_cons_self (key : K) (value : V) (rest : List (K × V)) :
    valuesOf key ((key, value) :: rest) = value :: valuesOf key rest := by
  simp [valuesOf]

theorem valuesOf_cons_of_ne {key other : K} (h : other ≠ key) (value : V) (rest : List (K × V)) :
    valuesOf key ((other, value) :: rest) = valuesOf key rest := by
  simp [valuesOf, h]

/-- The values of a key in two lists come one behind the other. -/
theorem valuesOf_append (key : K) (left right : List (K × V)) :
    valuesOf key (left ++ right) = valuesOf key left ++ valuesOf key right := by
  simp [valuesOf]

/-- A key has as many values as it is listed. -/
theorem length_valuesOf (key : K) (entries : List (K × V)) :
    (valuesOf key entries).length = (entries.map Prod.fst).count key := by
  induction entries with
  | nil => rfl
  | cons entry rest ih =>
      obtain ⟨first, value⟩ := entry
      by_cases h : first = key
      · subst h
        rw [valuesOf_cons_self, List.length_cons, ih, List.map_cons, List.count_cons_self]
      · rw [valuesOf_cons_of_ne h, ih, List.map_cons, List.count_cons_of_ne h]

/-- A key that is not listed has no values. -/
theorem valuesOf_eq_nil {key : K} {entries : List (K × V)} (h : key ∉ entries.map Prod.fst) :
    valuesOf key entries = [] := by
  rw [← List.length_eq_zero_iff, length_valuesOf, List.count_eq_zero.mpr h]

/-- The values of each block under its key. -/
def spread (blocks : List (K × List V)) : List (K × V) :=
  blocks.flatMap fun block => block.2.map fun value => (block.1, value)

omit [DecidableEq K] in
theorem spread_cons (block : K × List V) (blocks : List (K × List V)) :
    spread (block :: blocks) = (block.2.map fun value => (block.1, value)) ++ spread blocks := rfl

omit [DecidableEq K] in
/-- Spreading blocks lists the keys of those that are not empty. -/
theorem mem_keys_spread {blocks : List (K × List V)} {key : K} :
    key ∈ (spread blocks).map Prod.fst ↔ ∃ block ∈ blocks, block.2 ≠ [] ∧ block.1 = key := by
  simp only [spread, List.mem_map, List.mem_flatMap, Prod.exists]
  constructor
  · rintro ⟨_, value, ⟨left, values, hBlock, _, hMem, hEq⟩, rfl⟩
    exact ⟨left, values, hBlock, List.ne_nil_of_mem hMem, (Prod.mk.inj hEq).1⟩
  · rintro ⟨left, values, hBlock, hFull, rfl⟩
    obtain ⟨value, hMem⟩ := List.exists_mem_of_ne_nil values hFull
    exact ⟨left, value, ⟨left, values, hBlock, value, hMem, rfl⟩, rfl⟩

omit [DecidableEq K] in
/-- Spreading blocks keeps their values in order. -/
theorem values_spread (blocks : List (K × List V)) :
    (spread blocks).map Prod.snd = (blocks.map Prod.snd).flatten := by
  induction blocks with
  | nil => rfl
  | cons block blocks ih =>
      rw [spread_cons, List.map_append, ih, List.map_cons, List.flatten_cons, List.map_map]
      exact congrArg (· ++ _) (List.map_id _)

theorem valuesOf_map_self (key : K) (values : List V) :
    valuesOf key (values.map fun value => (key, value)) = values := by
  simp [valuesOf, List.filter_map, Function.comp_def]

/-- A block that shares its key with no other has its values to itself. -/
theorem valuesOf_spread {blocks : List (K × List V)} (hKeys : (blocks.map Prod.fst).Nodup)
    {block : K × List V} (hMem : block ∈ blocks) : valuesOf block.1 (spread blocks) = block.2 := by
  induction blocks with
  | nil => cases hMem
  | cons first rest ih =>
      rw [List.map_cons, List.nodup_cons] at hKeys
      rw [spread_cons, valuesOf_append]
      rcases List.mem_cons.mp hMem with rfl | hRest
      · have hNone : valuesOf block.1 (spread rest) = [] := by
          refine valuesOf_eq_nil fun hThere => hKeys.1 ?_
          obtain ⟨other, hOther, _, hSame⟩ := mem_keys_spread.mp hThere
          exact List.mem_map.mpr ⟨other, hOther, hSame⟩
        rw [valuesOf_map_self, hNone, List.append_nil]
      · have hNone : valuesOf block.1 (first.2.map fun value => (first.1, value)) = [] := by
          refine valuesOf_eq_nil fun hThere => hKeys.1 ?_
          obtain ⟨entry, hEntry, hSame⟩ := List.mem_map.mp hThere
          obtain ⟨value, _, rfl⟩ := List.mem_map.mp hEntry
          exact List.mem_map.mpr ⟨block, hRest, hSame.symm⟩
        rw [hNone, List.nil_append, ih hKeys.2 hRest]

omit [DecidableEq K] in
/-- Lists of one length, the one with distinct keys. -/
theorem perm_iff_subset {left right : List (K × V)} (hKeys : (right.map Prod.fst).Nodup)
    (hLength : right.length ≤ left.length) :
    left.Perm right ↔ (left.map Prod.fst).Nodup ∧ left ⊆ right := by
  constructor
  · intro hPerm
    exact ⟨(hPerm.map Prod.fst).nodup_iff.mpr hKeys, hPerm.subset⟩
  · rintro ⟨hNodup, hSubset⟩
    exact (List.Nodup.subperm (List.Nodup.of_map _ hNodup) hSubset).perm_of_length_le hLength

section Sums
variable [AddCommMonoid V]

/-- Each key once, with the sum of its values. -/
def groupSums (entries : List (K × V)) : List (K × V) :=
  (entries.map Prod.fst).dedup.map fun key => (key, (valuesOf key entries).sum)

/-- Grouping lists every key once, in the order of deduplication. -/
theorem keys_groupSums (entries : List (K × V)) :
    (groupSums entries).map Prod.fst = (entries.map Prod.fst).dedup := by
  simp [groupSums, Function.comp_def]

theorem length_groupSums (entries : List (K × V)) :
    (groupSums entries).length = (entries.map Prod.fst).dedup.length := by
  rw [← keys_groupSums, List.length_map]

/-- Grouping forgets the order of the entries. -/
theorem groupSums_perm {entries others : List (K × V)} (h : entries.Perm others) :
    (groupSums entries).Perm (groupSums others) := by
  have hValue (key : K) : (valuesOf key entries).sum = (valuesOf key others).sum :=
    ((h.filter _).map _).sum_eq
  simp only [groupSums, hValue]
  exact (h.map Prod.fst).dedup.map _

/-- Blocks that keep apart are the groups. -/
theorem groupSums_spread {blocks : List (K × List V)} (hKeys : (blocks.map Prod.fst).Nodup)
    (hFull : ∀ block ∈ blocks, block.2 ≠ []) :
    (groupSums (spread blocks)).Perm (blocks.map fun block => (block.1, block.2.sum)) := by
  have hSame : ((spread blocks).map Prod.fst).dedup.Perm (blocks.map Prod.fst) := by
    refine (List.perm_ext_iff_of_nodup (List.nodup_dedup _) hKeys).mpr fun key => ?_
    rw [List.mem_dedup, mem_keys_spread, List.mem_map]
    exact ⟨fun ⟨block, hMem, _, hKey⟩ => ⟨block, hMem, hKey⟩,
      fun ⟨block, hMem, hKey⟩ => ⟨block, hMem, hFull block hMem, hKey⟩⟩
  have hSums : blocks.map (fun block => (block.1, block.2.sum)) =
      (blocks.map Prod.fst).map fun key => (key, (valuesOf key (spread blocks)).sum) := by
    rw [List.map_map]
    refine List.map_congr_left fun block hMem => ?_
    simp only [Function.comp_apply, valuesOf_spread hKeys hMem]
  rw [hSums]
  exact hSame.map _

/-- There are as many groups as blocks only when each block has a value and no
two share a key. -/
theorem apart_of_length_groupSums {blocks : List (K × List V)}
    (h : blocks.length ≤ (groupSums (spread blocks)).length) :
    (blocks.map Prod.fst).Nodup ∧ ∀ block ∈ blocks, block.2 ≠ [] := by
  let full := blocks.filter fun block => block.2 ≠ []
  have hFull : (groupSums (spread blocks)).length = (full.map Prod.fst).dedup.length := by
    rw [length_groupSums]
    refine List.Perm.length_eq ((List.perm_ext_iff_of_nodup (List.nodup_dedup _)
      (List.nodup_dedup _)).mpr fun key => ?_)
    rw [List.mem_dedup, List.mem_dedup, mem_keys_spread, List.mem_map]
    constructor
    · rintro ⟨block, hMem, hValues, hKey⟩
      exact ⟨block, List.mem_filter.mpr ⟨hMem, decide_eq_true hValues⟩, hKey⟩
    · rintro ⟨block, hMem, hKey⟩
      obtain ⟨hBlock, hValues⟩ := List.mem_filter.mp hMem
      exact ⟨block, hBlock, of_decide_eq_true hValues, hKey⟩
  have hKeys := (List.dedup_sublist (full.map Prod.fst)).length_le
  rw [List.length_map] at hKeys
  have hAll : full = blocks :=
    List.filter_sublist.eq_of_length_le (Nat.le_trans (hFull ▸ h) hKeys)
  rw [hFull, hAll] at h
  constructor
  · refine List.dedup_eq_self.mp ((List.dedup_sublist _).eq_of_length_le ?_)
    rw [List.length_map]
    exact h
  · intro block hMem
    rw [← hAll] at hMem
    exact of_decide_eq_true (List.mem_filter.mp hMem).2

/-- When a list that is no shorter than the blocks is the list of the groups. -/
theorem perm_groupSums_spread_iff {blocks : List (K × List V)} {entries : List (K × V)}
    (hLength : blocks.length ≤ entries.length) :
    entries.Perm (groupSums (spread blocks)) ↔
      (blocks.map Prod.fst).Nodup ∧ (∀ block ∈ blocks, block.2 ≠ []) ∧
        entries.Perm (blocks.map fun block => (block.1, block.2.sum)) := by
  constructor
  · intro hPerm
    obtain ⟨hKeys, hFull⟩ := apart_of_length_groupSums (hPerm.length_eq ▸ hLength)
    exact ⟨hKeys, hFull, hPerm.trans (groupSums_spread hKeys hFull)⟩
  · rintro ⟨hKeys, hFull, hPerm⟩
    exact hPerm.trans (groupSums_spread hKeys hFull).symm

end Sums

end AltSendme.Listing
