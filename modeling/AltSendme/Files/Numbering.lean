import AltSendme.Files.ImportNames
import AltSendme.Listing.Grouped

/-! De-duplication as a whole: the entries of one name, in their order, are the
name and its numbers. -/
namespace AltSendme.Files
open Listing (valuesOf valuesOf_cons_self valuesOf_cons_of_ne)

/-- What de-duplication makes of a name that was seen so many times before. -/
def nthName (name : String) (earlier : Nat) : String :=
  if earlier = 0 then name else numbered name (earlier + 1)

@[simp] theorem nthName_zero (name : String) : nthName name 0 = name := rfl

theorem nthName_succ (name : String) (earlier : Nat) :
    nthName name (earlier + 1) = numbered name (earlier + 2) := rfl

theorem dedupName_eq (name : String) (seen : NameSeen) :
    dedupName name seen =
      (nthName name (seen name), Function.update seen name (seen name + 1)) := by
  by_cases h : seen name = 0 <;> simp [dedupName, nthName, h]

/-- Names of different origin agree only where a number was part of the one name. -/
theorem nthName_eq_cases {left right : String} {i j : Nat} (h : nthName left i = nthName right j) :
    (left = right ∧ i = j) ∨ (i = 0 ∧ 1 ≤ j ∧ left = nthName right j) ∨
      (j = 0 ∧ 1 ≤ i ∧ right = nthName left i) := by
  cases i with
  | zero =>
      cases j with
      | zero => exact Or.inl ⟨h, rfl⟩
      | succ j => exact Or.inr (Or.inl ⟨rfl, by omega, h⟩)
  | succ i =>
      cases j with
      | zero => exact Or.inr (Or.inr ⟨rfl, by omega, h.symm⟩)
      | succ j =>
          obtain ⟨hName, hCount⟩ := numbered_inj h
          exact Or.inl ⟨hName, by omega⟩

/-- The entries under the names that de-duplication gives them, after entries of
the names `before`. -/
def numberFrom {β : Type} (before : List String) : List (String × β) → List (String × β)
  | [] => []
  | (name, value) :: rest =>
      (nthName name (before.count name), value) :: numberFrom (before ++ [name]) rest

section
variable {β γ : Type}

theorem numberFrom_append (before : List String) (left right : List (String × β)) :
    numberFrom before (left ++ right) =
      numberFrom before left ++ numberFrom (before ++ left.map Prod.fst) right := by
  induction left generalizing before with
  | nil => simp [numberFrom]
  | cons entry left ih =>
      rw [List.cons_append, numberFrom, numberFrom, ih, List.cons_append, List.map_cons,
        List.append_assoc, List.singleton_append]

theorem numberFrom_map (before : List String) (f : β → γ) (entries : List (String × β)) :
    numberFrom before (entries.map (Prod.map id f)) =
      (numberFrom before entries).map (Prod.map id f) := by
  induction entries generalizing before with
  | nil => rfl
  | cons entry entries ih =>
      rw [List.map_cons, numberFrom, numberFrom, List.map_cons]
      exact congrArg _ (ih (before ++ [entry.1]))

theorem values_numberFrom (before : List String) (entries : List (String × β)) :
    (numberFrom before entries).map Prod.snd = entries.map Prod.snd := by
  induction entries generalizing before with
  | nil => rfl
  | cons entry entries ih =>
      rw [numberFrom, List.map_cons, List.map_cons, ih]

theorem length_numberFrom (before : List String) (entries : List (String × β)) :
    (numberFrom before entries).length = entries.length := by
  simpa using congrArg List.length (values_numberFrom before entries)

/-- Which entry has a name. -/
theorem mem_numberFrom {before : List String} {entries : List (String × β)} {x : String}
    {value : β} :
    (x, value) ∈ numberFrom before entries ↔ ∃ name k, nthName name (before.count name + k) = x ∧
      (valuesOf name entries)[k]? = some value := by
  induction entries generalizing before with
  | nil => simp [numberFrom]
  | cons entry rest ih =>
      obtain ⟨first, firstValue⟩ := entry
      rw [numberFrom, List.mem_cons, ih]
      constructor
      · rintro (hFirst | ⟨name, k, rfl, hValue⟩)
        · obtain ⟨rfl, rfl⟩ := Prod.mk.inj hFirst
          exact ⟨first, 0, rfl, by rw [valuesOf_cons_self, List.getElem?_cons_zero]⟩
        · by_cases hName : name = first
          · subst hName
            refine ⟨name, k + 1, ?_, ?_⟩
            · rw [List.count_append, List.count_singleton_self, Nat.add_right_comm, Nat.add_assoc]
            · rw [valuesOf_cons_self, List.getElem?_cons_succ, hValue]
          · refine ⟨name, k, ?_, ?_⟩
            · rw [List.count_append, List.count_singleton, if_neg (by simpa using Ne.symm hName),
                Nat.add_zero]
            · rw [valuesOf_cons_of_ne (Ne.symm hName), hValue]
      · rintro ⟨name, k, rfl, hValue⟩
        by_cases hName : name = first
        · subst hName
          rw [valuesOf_cons_self] at hValue
          cases k with
          | zero =>
              left
              rw [List.getElem?_cons_zero, Option.some.injEq] at hValue
              rw [Nat.add_zero, hValue]
          | succ k =>
              refine Or.inr ⟨name, k, ?_, by rwa [List.getElem?_cons_succ] at hValue⟩
              rw [List.count_append, List.count_singleton_self, Nat.add_right_comm, Nat.add_assoc]
        · refine Or.inr ⟨name, k, ?_, by rwa [valuesOf_cons_of_ne (Ne.symm hName)] at hValue⟩
          rw [List.count_append, List.count_singleton, if_neg (by simpa using Ne.symm hName),
            Nat.add_zero]

variable {Hash : Type}

/-- The entries of a fold that de-duplicates. -/
theorem foldl_push_entries {before : List String} {acc : Imported Hash}
    (hSeen : ∀ name, acc.seen name = before.count name) (files : List (String × Blob Hash)) :
    (files.foldl Imported.push acc).entries = acc.entries ++ numberFrom before files ∧
      ∀ name, (files.foldl Imported.push acc).seen name =
        (before ++ files.map Prod.fst).count name := by
  induction files generalizing before acc with
  | nil => simpa [numberFrom] using hSeen
  | cons file files ih =>
      have hPush : acc.push file = ⟨acc.entries ++ [(nthName file.1 (before.count file.1), file.2)],
          Function.update acc.seen file.1 (before.count file.1 + 1)⟩ := by
        rw [Imported.push, dedupName_eq, hSeen]
      have hNext (name : String) : (acc.push file).seen name = (before ++ [file.1]).count name := by
        rw [hPush, List.count_append, List.count_singleton]
        by_cases hName : name = file.1
        · subst hName
          simp
        · simp [Function.update_of_ne hName, hSeen, Ne.symm hName]
      obtain ⟨hEntries, hCounts⟩ := ih hNext
      rw [List.foldl_cons]
      refine ⟨?_, fun name => ?_⟩
      · rw [hEntries, hPush, List.append_assoc, List.singleton_append]
        rfl
      · rw [hCounts, List.append_assoc, List.map_cons, List.singleton_append]

/-- De-duplicated names differ unless a number makes a name that was there. -/
theorem keys_numberFrom_nodup_iff (entries : List (String × β)) :
    ((numberFrom [] entries).map Prod.fst).Nodup ↔ NumbersFree (entries.map Prod.fst) := by
  let files : List (String × Blob Unit) := entries.map (Prod.map id fun _ => ⟨(), 0⟩)
  have hNames : files.map Prod.fst = entries.map Prod.fst := by
    simp [files, Function.comp_def]
  have hNumbers := (@Imported.numbers_empty Unit).foldl files
  rw [List.nil_append, hNames] at hNumbers
  have hEntries := (@foldl_push_entries Unit [] .empty (fun _ => rfl) files).1
  rw [← hNumbers.nodup, hEntries, numberFrom_map]
  simp [Imported.empty, Function.comp_def]

/-- When every de-duplicated entry of one list is one of the other. A name that is
only in the first must not look like a number was part of it. -/
theorem numberFrom_subset_iff {left right : List (String × β)}
    (hRight : NumbersFree (right.map Prod.fst))
    (hLeft : ∀ name ∈ left.map Prod.fst,
      name ∈ right.map Prod.fst ∨ ∀ other count, name ≠ numbered other count) :
    numberFrom [] left ⊆ numberFrom [] right ↔
      ∀ name k value, (valuesOf name left)[k]? = some value →
        (valuesOf name right)[k]? = some value ∨
          (1 ≤ k ∧ (valuesOf (nthName name k) right)[0]? = some value) := by
  constructor
  · intro hSubset name k value hValue
    have hMem : (nthName name k, value) ∈ numberFrom [] left :=
      mem_numberFrom.mpr ⟨name, k, by simp, hValue⟩
    obtain ⟨other, j, hName, hOther⟩ := mem_numberFrom.mp (hSubset hMem)
    rw [List.count_nil, Nat.zero_add] at hName
    rcases nthName_eq_cases hName with ⟨rfl, rfl⟩ | ⟨rfl, hk, rfl⟩ | ⟨rfl, hj, rfl⟩
    · exact Or.inl hOther
    · exact Or.inr ⟨hk, hOther⟩
    · -- the name given holds a number already
      obtain ⟨i, rfl⟩ : ∃ i, j = i + 1 := ⟨j - 1, by omega⟩
      rw [nthName_succ] at hValue
      have hThere : numbered other (i + 2) ∈ left.map Prod.fst := by
        by_contra hNot
        rw [Listing.valuesOf_eq_nil hNot] at hValue
        cases hValue
      have hBound := (List.getElem?_eq_some_iff.mp hOther).1
      rw [Listing.length_valuesOf] at hBound
      rcases hLeft _ hThere with hNamed | hPlain
      · exact absurd hNamed (hRight other (i + 2) (by omega) hBound)
      · exact absurd rfl (hPlain other (i + 2))
  · rintro hOrder ⟨x, value⟩ hMem
    obtain ⟨name, k, rfl, hValue⟩ := mem_numberFrom.mp hMem
    rw [List.count_nil, Nat.zero_add]
    rcases hOrder name k value hValue with hSame | ⟨-, hFirst⟩
    · exact mem_numberFrom.mpr ⟨name, k, by simp, hSame⟩
    · exact mem_numberFrom.mpr ⟨nthName name k, 0, by simp, hFirst⟩

end

end AltSendme.Files
