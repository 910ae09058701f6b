import Mathlib.Data.List.Basic
import Mathlib.Data.List.Infix

/-! The names of the files in a collection: paths written with slashes, the
components they are made of, and the numbered names that de-duplication makes. -/
namespace AltSendme.Files

/-- A path as its components. -/
abbrev Path := List String

/-- `name.split('/')` -/
def components (name : String) : Path := (name.toList.splitOn '/').map String.ofList

/-- `parts.join("/")` -/
def joinSlash (parts : Path) : String :=
  String.ofList (['/'].intercalate (parts.map String.toList))

/-- `anyhow::ensure!` -/
def ensure (condition : Bool) (message : String) : Except String Unit :=
  if condition then .ok () else .error message

/-- The checks of one component, the same in the native and the browser export. -/
def validatePathComponent (component : String) : Except String Unit := do
  ensure (component ≠ "") "empty path component"
  ensure ('/' ∉ component.toList) "contains /"
  ensure ('\\' ∉ component.toList) "contains \\"
  ensure (':' ∉ component.toList) "contains colon"
  ensure (component ≠ "..") "parent directory traversal"
  ensure (component ≠ ".") "current directory reference"
  ensure ('\x00' ∉ component.toList) "contains null byte"

/-- A component that the checks accept. -/
structure IsPathComponent (component : String) : Prop where
  nonempty : component ≠ ""
  noSlash : '/' ∉ component.toList
  noBackslash : '\\' ∉ component.toList
  noColon : ':' ∉ component.toList
  notParent : component ≠ ".."
  notCurrent : component ≠ "."
  noNull : '\x00' ∉ component.toList

/-- The native `get_export_path`. -/
def getExportPath (root : Path) (name : String) : Except String Path :=
  (components name).foldlM (fun path part => do
    validatePathComponent part
    return path ++ [part]) root

/-- The browser's `validate_collection_path`. -/
def validateCollectionPath (name : String) : Except String Unit :=
  (components name).forM validatePathComponent

/-- `format!("{} ({})", name, count)` -/
def numbered (name : String) (count : Nat) : String :=
  name ++ String.ofList (' ' :: '(' :: (Nat.toDigits 10 count ++ [')']))

theorem toList_numbered (name : String) (count : Nat) :
    (numbered name count).toList = name.toList ++ ' ' :: '(' :: (Nat.toDigits 10 count ++ [')']) := by
  simp [numbered]

theorem not_isDigit_mem_toDigits {c : Char} (h : c.isDigit = false) (count : Nat) :
    c ∉ Nat.toDigits 10 count := by
  intro hMem
  rw [Nat.isDigit_of_mem_toDigits (by decide) (by decide) hMem] at h
  cases h

/-- The first occurrence of a separator cuts a list in one way. -/
theorem append_cons_inj_left {α : Type} [DecidableEq α] {a : α} {xs ys us vs : List α}
    (hLeft : a ∉ xs) (hRight : a ∉ us) (h : xs ++ a :: ys = us ++ a :: vs) :
    xs = us ∧ ys = vs := by
  have hSplit := congrArg (List.splitOn a) h
  rw [List.splitOn_append_cons_self_of_not_mem hLeft,
    List.splitOn_append_cons_self_of_not_mem hRight] at hSplit
  obtain rfl : xs = us := (List.cons.inj hSplit).1
  exact ⟨rfl, (List.cons.inj (List.append_cancel_left h)).2⟩

/-- A numbered name says which name was numbered, and how. -/
theorem numbered_inj {left right : String} {i j : Nat}
    (h : numbered left i = numbered right j) : left = right ∧ i = j := by
  have hParen (k : Nat) : '(' ∉ ')' :: (Nat.toDigits 10 k).reverse := by
    have hDigit := not_isDigit_mem_toDigits (c := '(') (by decide) k
    simp [hDigit]
  have hShape (name : String) (k : Nat) : (numbered name k).toList.reverse =
      (')' :: (Nat.toDigits 10 k).reverse) ++ '(' :: ' ' :: name.toList.reverse := by
    simp [toList_numbered]
  have hReverse := congrArg (fun s => s.toList.reverse) h
  simp only [hShape] at hReverse
  obtain ⟨hDigits, hName⟩ := append_cons_inj_left (hParen i) (hParen j) hReverse
  refine ⟨?_, ?_⟩
  · exact String.toList_inj.mp (List.reverse_inj.mp (List.cons.inj hName).2)
  · have hSame := List.reverse_inj.mp (List.cons.inj hDigits).2
    rw [← Nat.ofDigitChars_ten_toDigits (n := i), hSame, Nat.ofDigitChars_ten_toDigits]

/-- Every name has a component. -/
theorem components_ne_nil (name : String) : components name ≠ [] := by
  simp [components, List.splitOn_ne_nil]

/-- No component holds a slash. -/
theorem components_joinSlash {parts : Path} (hParts : parts ≠ [])
    (hNoSlash : ∀ part ∈ parts, '/' ∉ part.toList) : components (joinSlash parts) = parts := by
  have hLists : ∀ l ∈ parts.map String.toList, '/' ∉ l := by
    intro l hl
    obtain ⟨part, hPart, rfl⟩ := List.mem_map.mp hl
    exact hNoSlash part hPart
  rw [components, joinSlash, String.toList_ofList,
    List.splitOn_intercalate '/' hLists (by simpa using hParts), List.map_map]
  simp [Function.comp_def]

/-- Joining the components of a name gives it back. -/
theorem joinSlash_components (name : String) : joinSlash (components name) = name := by
  rw [joinSlash, components, List.map_map]
  have hId : String.toList ∘ String.ofList = id := by
    funext l
    simp
  rw [hId, List.map_id, List.intercalate_splitOn, String.ofList_toList]

theorem notMem_of_mem_splitOn {α : Type} [DecidableEq α] {a : α} {xs l : List α}
    (h : l ∈ xs.splitOn a) : a ∉ l := by
  induction xs generalizing l with
  | nil =>
      obtain rfl : l = [] := by simpa using h
      exact List.not_mem_nil
  | cons x xs ih =>
      rw [List.splitOn_cons_eq_if_modifyHead] at h
      split at h
      · rcases List.mem_cons.mp h with rfl | hTail
        · exact List.not_mem_nil
        · exact ih hTail
      · next hx =>
          cases hSplit : xs.splitOn a with
          | nil => exact absurd hSplit (List.splitOn_ne_nil a xs)
          | cons first rest =>
              rw [hSplit, List.modifyHead_cons] at h
              rcases List.mem_cons.mp h with rfl | hTail
              · have hFirst : a ∉ first := ih (hSplit ▸ List.mem_cons_self)
                have hHead : a ≠ x := fun hEq => hx (by simp [hEq])
                simp [hHead, hFirst]
              · exact ih (hSplit ▸ List.mem_cons_of_mem _ hTail)

/-- No component has a slash. -/
theorem slash_notMem_components {name part : String} (h : part ∈ components name) :
    '/' ∉ part.toList := by
  obtain ⟨l, hl, rfl⟩ := List.mem_map.mp h
  rw [String.toList_ofList]
  exact notMem_of_mem_splitOn hl

theorem intercalate_concat_append {α : Type} (sep last tail : List α) (init : List (List α)) :
    sep.intercalate (init ++ [last ++ tail]) = sep.intercalate (init ++ [last]) ++ tail := by
  induction init with
  | nil => simp
  | cons first rest ih =>
      rw [List.cons_append, List.cons_append, List.intercalate_cons_of_ne_nil (by simp),
        List.intercalate_cons_of_ne_nil (by simp), ih]
      simp only [List.append_assoc]

/-- Numbering brings in no slash. -/
theorem slash_notMem_numbered {part : String} (h : '/' ∉ part.toList) (count : Nat) :
    '/' ∉ (numbered part count).toList := by
  have hDigit := not_isDigit_mem_toDigits (c := '/') (by decide) count
  simp [toList_numbered, h, hDigit]

/-- Numbering a name numbers its last component. -/
theorem components_numbered {name last : String} {init : Path}
    (h : components name = init ++ [last]) (count : Nat) :
    components (numbered name count) = init ++ [numbered last count] := by
  have hChars : name.toList = ['/'].intercalate (init.map String.toList ++ [last.toList]) := by
    conv_lhs => rw [← joinSlash_components name, h]
    simp [joinSlash]
  have hName : numbered name count = joinSlash (init ++ [numbered last count]) := by
    rw [← String.toList_inj, toList_numbered, joinSlash, String.toList_ofList, List.map_append,
      List.map_singleton, toList_numbered, intercalate_concat_append, hChars]
  rw [hName, components_joinSlash (by simp)]
  intro part hPart
  rcases List.mem_append.mp hPart with hInit | hLast
  · exact slash_notMem_components (h ▸ List.mem_append_left _ hInit)
  · have hMem : last ∈ components name := by simp [h]
    rw [List.mem_singleton.mp hLast]
    exact slash_notMem_numbered (slash_notMem_components hMem) count

/-- Every name has a last component. -/
theorem exists_components_eq (name : String) : ∃ init last, components name = init ++ [last] :=
  ⟨_, _, (List.dropLast_append_getLast (components_ne_nil name)).symm⟩

theorem ensure_eq_ok {condition : Bool} {message : String} :
    ensure condition message = .ok () ↔ condition = true := by
  cases condition <;> simp [ensure]

theorem bind_ensure_eq_ok {condition : Bool} {message : String} {rest : Except String Unit} :
    (ensure condition message >>= fun _ => rest) = .ok () ↔
      condition = true ∧ rest = .ok () := by
  cases condition
  · exact ⟨nofun, fun h => absurd h.1 nofun⟩
  · exact ⟨fun h => ⟨rfl, h⟩, fun h => h.2⟩

/-- The checks accept a component exactly when it is well formed. -/
theorem validatePathComponent_eq_ok {component : String} :
    validatePathComponent component = .ok () ↔ IsPathComponent component := by
  simp only [validatePathComponent, bind_ensure_eq_ok, ensure_eq_ok, decide_eq_true_eq]
  constructor
  · rintro ⟨h₁, h₂, h₃, h₄, h₅, h₆, h₇⟩
    exact ⟨h₁, h₂, h₃, h₄, h₅, h₆, h₇⟩
  · rintro ⟨h₁, h₂, h₃, h₄, h₅, h₆, h₇⟩
    exact ⟨h₁, h₂, h₃, h₄, h₅, h₆, h₇⟩

/-- A name is exportable exactly if all its components are. -/
theorem validateCollectionPath_eq_ok {name : String} :
    validateCollectionPath name = .ok () ↔ ∀ part ∈ components name, IsPathComponent part := by
  rw [validateCollectionPath]
  induction components name with
  | nil => simp [pure, Except.pure]
  | cons part rest ih =>
      change (validatePathComponent part >>= fun _ => rest.forM validatePathComponent) = _ ↔ _
      rw [List.forall_mem_cons, ← ih, ← validatePathComponent_eq_ok]
      cases validatePathComponent part with
      | error message => exact ⟨nofun, fun h => absurd h.1 nofun⟩
      | ok => exact ⟨fun h => ⟨rfl, h⟩, fun h => h.2⟩

/-- The export path of an accepted name is the root and its components. -/
theorem getExportPath_eq_ok {root path : Path} {name : String} :
    getExportPath root name = .ok path ↔
      (∀ part ∈ components name, IsPathComponent part) ∧ path = root ++ components name := by
  rw [getExportPath]
  induction components name generalizing root with
  | nil => simp [pure, Except.pure, eq_comm]
  | cons part rest ih =>
      rw [List.foldlM_cons, List.forall_mem_cons, ← validatePathComponent_eq_ok]
      cases validatePathComponent part with
      | error message => exact ⟨nofun, fun h => absurd h.1.1 nofun⟩
      | ok =>
          have hRest := @ih (root ++ [part])
          simpa [pure, Except.pure, bind, Except.bind, and_assoc] using hRest

/-- A numbered component passes when the component does. -/
theorem IsPathComponent.numbered {component : String} (h : IsPathComponent component)
    (count : Nat) : IsPathComponent (numbered component count) := by
  have hDigit (c : Char) (hc : c.isDigit = false) := not_isDigit_mem_toDigits hc count
  have hLong : (Files.numbered component count).toList.length > 2 := by
    simp only [toList_numbered, List.length_append, List.length_cons]
    omega
  refine ⟨?_, ?_, ?_, ?_, ?_, ?_, ?_⟩
  · intro hEq
    simp [hEq] at hLong
  · simp [toList_numbered, h.noSlash, hDigit '/' (by decide)]
  · simp [toList_numbered, h.noBackslash, hDigit '\\' (by decide)]
  · simp [toList_numbered, h.noColon, hDigit ':' (by decide)]
  · intro hEq
    simp [hEq] at hLong
  · intro hEq
    simp [hEq] at hLong
  · simp [toList_numbered, h.noNull, hDigit '\x00' (by decide)]

end AltSendme.Files
