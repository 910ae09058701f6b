import Mathlib.Data.List.Nodup
import Mathlib.Data.List.Perm.Basic

/-! Maps that list their entries in the order their keys were first set. A key set
again keeps its place and takes the new value. -/
namespace Keyed

universe u v
variable {K : Type u} {V : Type v}

def keys (entries : List (K × V)) : List K := entries.map Prod.fst

/-- A key is listed exactly if an entry bears it. -/
theorem mem_keys {entries : List (K × V)} {k : K} : k ∈ keys entries ↔ ∃ v, (k, v) ∈ entries := by
  simp [keys]

/-- Entries with distinct keys are one map when they have the same members. -/
theorem perm_of_mem_iff {left right : List (K × V)} (hLeft : (keys left).Nodup)
    (hRight : (keys right).Nodup) (h : ∀ e, e ∈ left ↔ e ∈ right) : left.Perm right :=
  (List.perm_ext_iff_of_nodup (List.Nodup.of_map _ hLeft) (List.Nodup.of_map _ hRight)).mpr h

/-- Distinct keys have one value each. -/
theorem value_unique {entries : List (K × V)} (hNodup : (keys entries).Nodup) {k : K} {v w : V}
    (hv : (k, v) ∈ entries) (hw : (k, w) ∈ entries) : v = w := by
  have hSame := List.inj_on_of_nodup_map hNodup hv hw rfl
  exact congrArg Prod.snd hSame

/-- Filtering never doubles a key. -/
theorem nodup_filter {entries : List (K × V)} (h : (keys entries).Nodup) (p : K × V → Bool) :
    (keys (entries.filter p)).Nodup :=
  (List.filter_sublist.map Prod.fst).nodup h

variable [DecidableEq K]

def set (entries : List (K × V)) (key : K) (value : V) : List (K × V) :=
  if key ∈ keys entries then entries.map fun e => if e.1 = key then (key, value) else e
  else entries ++ [(key, value)]

def erase (entries : List (K × V)) (key : K) : List (K × V) := entries.filter fun e => e.1 ≠ key

def get? (entries : List (K × V)) (key : K) : Option V :=
  (entries.find? fun e => e.1 = key).map Prod.snd

section Set
variable {entries : List (K × V)} {key k : K} {value v : V}

/-- Setting a key replaces what stood there and keeps every other entry. -/
theorem mem_set : (k, v) ∈ set entries key value ↔
    k = key ∧ v = value ∨ k ≠ key ∧ (k, v) ∈ entries := by
  unfold set
  split
  · next hThere =>
      obtain ⟨old, hOld⟩ := mem_keys.mp hThere
      rw [List.mem_map]
      constructor
      · rintro ⟨e, he, hEq⟩
        split at hEq
        · obtain ⟨rfl, rfl⟩ := Prod.mk.inj hEq
          exact Or.inl ⟨rfl, rfl⟩
        · next hOther =>
            subst hEq
            exact Or.inr ⟨hOther, he⟩
      · rintro (⟨rfl, rfl⟩ | ⟨hOther, hMem⟩)
        · exact ⟨(k, old), hOld, by simp⟩
        · exact ⟨(k, v), hMem, by simp [hOther]⟩
  · next hNew =>
      rw [List.mem_append, List.mem_singleton, Prod.mk.injEq, or_comm]
      refine or_congr_right ⟨fun hMem => ⟨?_, hMem⟩, And.right⟩
      rintro rfl
      exact hNew (mem_keys.mpr ⟨v, hMem⟩)

/-- A key that is there keeps its place; a new one comes last. -/
theorem keys_set : keys (set entries key value) =
    if key ∈ keys entries then keys entries else keys entries ++ [key] := by
  unfold set
  split
  · unfold keys
    rw [List.map_map]
    refine List.map_congr_left fun e _ => ?_
    by_cases he : e.1 = key
    · simp [he]
    · simp [he]
  · simp [keys]

/-- Setting never doubles a key. -/
theorem nodup_set (h : (keys entries).Nodup) : (keys (set entries key value)).Nodup := by
  rw [keys_set]
  split
  · exact h
  · next hNew => exact h.append (List.nodup_singleton key) (by simpa using hNew)

/-- Erasing a key keeps exactly the entries of the others. -/
theorem mem_erase : (k, v) ∈ erase entries key ↔ k ≠ key ∧ (k, v) ∈ entries := by
  simp [erase, and_comm]

/-- Erasing never doubles a key. -/
theorem nodup_erase (h : (keys entries).Nodup) : (keys (erase entries key)).Nodup :=
  nodup_filter h _

/-- Where no key is doubled, looking a key up finds its entry. -/
theorem get?_eq_some_iff (h : (keys entries).Nodup) :
    get? entries key = some value ↔ (key, value) ∈ entries := by
  unfold get?
  constructor
  · intro hFound
    obtain ⟨e, he, rfl⟩ := Option.map_eq_some_iff.mp hFound
    have hKey : e.1 = key := by simpa using List.find?_some he
    exact hKey ▸ List.mem_of_find?_eq_some he
  · intro hMem
    cases hFound : entries.find? fun e => e.1 = key with
    | none =>
        exact absurd (decide_eq_true rfl) (List.find?_eq_none.mp hFound (key, value) hMem)
    | some e =>
        have hKey : e.1 = key := by simpa using List.find?_some hFound
        have hThere : (key, e.2) ∈ entries := hKey ▸ List.mem_of_find?_eq_some hFound
        exact congrArg some (value_unique h hThere hMem)

/-- Setting one key and erasing another do not depend on their order. -/
theorem erase_set_of_ne {other : K} (h : key ≠ other) :
    erase (set entries key value) other = set (erase entries other) key value := by
  have hKeys : key ∈ keys (erase entries other) ↔ key ∈ keys entries := by
    simp only [mem_keys, mem_erase, h, ne_eq, not_false_eq_true, true_and]
  unfold set
  rw [if_congr hKeys rfl rfl]
  split
  · unfold erase
    rw [List.filter_map]
    refine congrArg _ (List.filter_congr fun e _ => ?_)
    by_cases he : e.1 = key
    · simp [he, h]
    · simp [he]
  · simp [erase, h]

end Set

/-- Set the entries one after another. -/
def setAll (entries news : List (K × V)) : List (K × V) :=
  news.foldl (fun entries e => set entries e.1 e.2) entries

/-- Setting several keys one after the other: the new entries win, the others stay. -/
theorem mem_setAll {entries news : List (K × V)} (hNews : (keys news).Nodup) {k : K} {v : V} :
    (k, v) ∈ setAll entries news ↔ (k, v) ∈ news ∨ k ∉ keys news ∧ (k, v) ∈ entries := by
  induction news generalizing entries with
  | nil => simp [setAll, keys]
  | cons e rest ih =>
      obtain ⟨hFresh, hRest⟩ := List.nodup_cons.mp hNews
      show (k, v) ∈ setAll (set entries e.1 e.2) rest ↔ _
      rw [ih hRest, mem_set, List.mem_cons]
      have hKeys : keys (e :: rest) = e.1 :: keys rest := rfl
      rw [hKeys, List.mem_cons]
      have hRestKey : (k, v) ∈ rest → k ≠ e.1 := by
        rintro hMem rfl
        exact hFresh (mem_keys.mpr ⟨v, hMem⟩)
      have hFreshKey : k = e.1 → k ∉ keys rest := fun hk => hk ▸ hFresh
      have hEntry : (k, v) = e ↔ k = e.1 ∧ v = e.2 := Prod.ext_iff
      rw [hEntry]
      tauto

end Keyed
