import AltSendme.Files.ExportSafety
import Mathlib.Data.List.Range

/-! Numbered names for files that are there already, chosen by the desktop, the
browser and the Android export. All three try the same names in the same order;
the browser moves to the next name after the test and not before it, so its
loop ends one name early. -/
namespace AltSendme.Files

/-- `lastIndexOf`, counted in characters; -1 when there is none. -/
def lastIndexOf (c : Char) (text : String) : Int :=
  if c ∈ text.toList then text.toList.length - 1 - text.toList.reverse.idxOf c else -1

/-- The message of the browser's `Error` and of Android's `IOException`. -/
def tooManyConflicts (fileName : String) : String :=
  "Too many filename conflicts for " ++ fileName

section
variable {Content : Type}

namespace Browser

def resolveConflictName (fileName : String) (index : Nat) : String :=
  let dot := lastIndexOf '.' fileName
  if dot > 0 then
    numbered (String.ofList (fileName.toList.take dot.toNat)) index ++
      String.ofList (fileName.toList.drop dot.toNat)
  else numbered fileName index

/-- `getFileHandle` is refused for what is missing, for a directory, and wherever the
browser cannot look (`looks`). The `catch` takes them all alike: the name counts as free. -/
def fileExists (fs : FileSystem Content) (dirHandle : Path) (looks : String → Bool)
    (fileName : String) : Bool :=
  looks fileName && (fs (dirHandle ++ [fileName])).any Entry.isFile

structure WritableFileName where
  fileName : String
  conflict : Option ExportConflict
  deriving DecidableEq, Repr

/-- `left` rounds of the loop over `index` remain. -/
def findWritable (fs : FileSystem Content) (dirHandle : Path) (looks : String → Bool)
    (fileName : String) :
    (left index : Nat) → (candidate : String) → Except String WritableFileName
  | 0, _, _ => .error (tooManyConflicts fileName)
  | left + 1, index, candidate =>
      if !fileExists fs dirHandle looks candidate then
        if candidate = fileName then .ok ⟨candidate, none⟩
        else .ok ⟨candidate, some ⟨fileName, candidate⟩⟩
      else
        findWritable fs dirHandle looks fileName left (index + 1)
          (resolveConflictName fileName index)

def resolveWritableFileName (fs : FileSystem Content) (dirHandle : Path) (looks : String → Bool)
    (fileName : String) : Except String WritableFileName :=
  findWritable fs dirHandle looks fileName 9999 1 fileName

end Browser

namespace Android

/-- The stem and the extension. -/
def splitName (fileName : String) : String × Option String :=
  let dot := lastIndexOf '.' fileName
  if dot > 0 then
    (String.ofList (fileName.toList.take dot.toNat),
      some (String.ofList (fileName.toList.drop (dot.toNat + 1))))
  else (fileName, none)

def candidate (fileName : String) (index : Nat) : String :=
  match splitName fileName with
  | (stem, some extension) => numbered stem index ++ "." ++ extension
  | (_, none) => numbered fileName index

/-- `left` rounds of the loop over `index` remain. -/
def findName (found : String → Bool) (fileName : String) :
    (left index : Nat) → Except String (String × Option String)
  | 0, _ => .error (tooManyConflicts fileName)
  | left + 1, index =>
      if !found (candidate fileName index) then
        .ok (candidate fileName index, some (candidate fileName index))
      else findName found fileName left (index + 1)

/-- `found` is what the provider answers: `parent.findFile(name) != null`. -/
def resolveConflictName (found : String → Bool) (fileName : String) :
    Except String (String × Option String) :=
  if !found fileName then .ok (fileName, none) else findName found fileName 9999 1

end Android

/-- The three exporters give a file one name, or all report too many conflicts. Every
look at the directory is answered with what is in it. -/
def ResolveAlike (display : Path → String) (fs : FileSystem Content) (parent : Path)
    (fileName : String) : Prop :=
  (∃ name,
    (chooseTarget display fs (parent ++ [fileName])).map Prod.fst = .ok (parent ++ [name]) ∧
    (Browser.resolveWritableFileName fs parent (fun _ => true) fileName).map (·.fileName) =
      .ok name ∧
    (Android.resolveConflictName (fun name => (fs (parent ++ [name])).isSome) fileName).map
      Prod.fst = .ok name) ∨
  (chooseTarget display fs (parent ++ [fileName]) =
      .error (.tooManyConflicts (parent ++ [fileName])) ∧
    Browser.resolveWritableFileName fs parent (fun _ => true) fileName =
      .error (tooManyConflicts fileName) ∧
    Android.resolveConflictName (fun name => (fs (parent ++ [name])).isSome) fileName =
      .error (tooManyConflicts fileName))

/-- The name and its numbers up to 9998 are taken, and 9999 is free. -/
def OnlyLastFree (fs : FileSystem Content) (parent : Path) (fileName : String) : Prop :=
  (fs (parent ++ [fileName])).isSome ∧
    (∀ index, 1 ≤ index → index < 9999 →
      (fs (parent ++ [candidateName fileName index])).isSome) ∧
    fs (parent ++ [candidateName fileName 9999]) = none

/-- A list splits at the last place of a member. -/
theorem exists_append_last {α : Type} [DecidableEq α] {a : α} {l : List α} (h : a ∈ l) :
    ∃ before after, l = before ++ a :: after ∧ a ∉ after := by
  obtain ⟨left, right, hSplit, hNot⟩ := List.eq_append_cons_of_mem (List.mem_reverse.mpr h)
  refine ⟨right.reverse, left.reverse, ?_, by simpa using hNot⟩
  rw [← List.reverse_reverse l, hSplit]
  simp

theorem lastIndexOf_of_notMem {c : Char} {text : String} (h : c ∉ text.toList) :
    lastIndexOf c text = -1 := if_neg h

/-- The last place of a character is the one behind which it does not come again. -/
theorem lastIndexOf_of_append {c : Char} {text : String} {before after : List Char}
    (hText : text.toList = before ++ c :: after) (hAfter : c ∉ after) :
    lastIndexOf c text = before.length := by
  have hReverse : text.toList.reverse = after.reverse ++ c :: before.reverse := by
    simp [hText]
  rw [lastIndexOf, if_pos (by simp [hText]), hReverse,
    List.idxOf_append_of_notMem (by simpa using hAfter), List.idxOf_cons_self, hText]
  simp only [List.length_append, List.length_cons, List.length_reverse]
  omega

theorem splitExtension_of_notMem {fileName : String} (h : '.' ∉ fileName.toList) :
    splitExtension fileName = (fileName, none) := if_pos (Or.inl h)

/-- A name with a dot splits at its last one, unless it begins with it. -/
theorem splitExtension_of_append {fileName : String} {before after : List Char}
    (hChars : fileName.toList = before ++ '.' :: after) (hAfter : '.' ∉ after)
    (hName : fileName ≠ "..") :
    splitExtension fileName =
      if before = [] then (fileName, none)
      else (String.ofList before, some (String.ofList after)) := by
  have hReverse : fileName.toList.reverse = after.reverse ++ '.' :: before.reverse := by
    simp [hChars]
  have hKept : ∀ c ∈ after.reverse, (decide (c ≠ '.')) = true := by
    intro c hc
    have hMem := List.mem_reverse.mp hc
    exact decide_eq_true fun hEq => hAfter (hEq ▸ hMem)
  have hTake : fileName.toList.reverse.takeWhile (· ≠ '.') = after.reverse := by
    rw [hReverse, List.takeWhile_append_of_pos hKept]
    simp
  have hDrop : fileName.toList.reverse.dropWhile (· ≠ '.') = '.' :: before.reverse := by
    rw [hReverse, List.dropWhile_append_of_pos hKept]
    simp
  have hDot : '.' ∈ fileName.toList := by simp [hChars]
  rw [splitExtension, hTake, hDrop]
  by_cases hBefore : before = []
  · simp [hBefore]
  · simp [hBefore, hDot, hName]

/-- The last dot cuts a name alike in JavaScript, in Kotlin and in Rust. -/
theorem splitName_eq {fileName : String} (hName : fileName ≠ "..") :
    Android.splitName fileName = splitExtension fileName := by
  by_cases hDot : '.' ∈ fileName.toList
  · obtain ⟨before, after, hChars, hAfter⟩ := exists_append_last hDot
    rw [Android.splitName, lastIndexOf_of_append hChars hAfter,
      splitExtension_of_append hChars hAfter hName]
    by_cases hBefore : before = []
    · simp [hBefore]
    · have hPos : (before.length : Int) > 0 := by
        have := List.length_pos_iff.mpr hBefore
        omega
      have hDrop : fileName.toList.drop (before.length + 1) = after := by
        rw [hChars, List.drop_append]
        simp
      simp only [if_pos hPos, if_neg hBefore, Int.toNat_natCast, hDrop]
      rw [hChars, List.take_left]
  · rw [Android.splitName, lastIndexOf_of_notMem hDot, splitExtension_of_notMem hDot]
    rfl

/-- Android's candidate is the common one. -/
theorem android_candidate_eq {fileName : String} (hName : fileName ≠ "..") (index : Nat) :
    Android.candidate fileName index = candidateName fileName index := by
  have hSplit := splitName_eq hName
  rcases hParts : splitExtension fileName with ⟨stem, _ | ext⟩
  · simp only [Android.candidate, candidateName, hSplit, hParts]
  · simp only [Android.candidate, candidateName, hSplit, hParts]

/-- The browser's candidate is the common one. -/
theorem browser_resolveConflictName_eq {fileName : String} (hName : fileName ≠ "..")
    (index : Nat) : Browser.resolveConflictName fileName index = candidateName fileName index := by
  rw [← android_candidate_eq hName, Android.candidate, Android.splitName,
    Browser.resolveConflictName]
  by_cases hDot : '.' ∈ fileName.toList
  · obtain ⟨before, after, hChars, hAfter⟩ := exists_append_last hDot
    rw [lastIndexOf_of_append hChars hAfter]
    by_cases hPos : (before.length : Int) > 0
    · have hRest : fileName.toList.drop before.length = '.' :: after := by
        rw [hChars, List.drop_left]
      have hDrop : fileName.toList.drop (before.length + 1) = after := by
        rw [hChars, List.drop_append]
        simp
      simp only [if_pos hPos, Int.toNat_natCast, hRest, hDrop]
      rw [← String.toList_inj]
      simp
    · simp only [if_neg hPos]
  · rw [lastIndexOf_of_notMem hDot]
    rfl

/-- No two numbers give one candidate. -/
theorem candidateName_inj {fileName : String} {i j : Nat}
    (h : candidateName fileName i = candidateName fileName j) : i = j := by
  rw [candidateName, candidateName] at h
  rcases hSplit : splitExtension fileName with ⟨stem, _ | ext⟩
  · simp only [hSplit] at h
    exact (numbered_inj h).2
  · simp only [hSplit, String.append_left_inj] at h
    exact (numbered_inj h).2

/-- The names in the order in which they are tried. -/
def triedName (fileName : String) : Nat → String
  | 0 => fileName
  | index + 1 => candidateName fileName (index + 1)

@[simp] theorem triedName_zero (fileName : String) : triedName fileName 0 = fileName := rfl

@[simp] theorem triedName_succ (fileName : String) (index : Nat) :
    triedName fileName (index + 1) = candidateName fileName (index + 1) := rfl

/-- The first of the names tried that is free. -/
def firstFree (fs : FileSystem Content) (parent : Path) (fileName : String)
    (start count : Nat) : Option Nat :=
  (List.range' start count).find? fun i => (fs (parent ++ [triedName fileName i])).isNone

variable {fs : FileSystem Content} {parent : Path} {fileName : String}

theorem firstFree_succ (start count : Nat) :
    firstFree fs parent fileName start (count + 1) =
      if (fs (parent ++ [triedName fileName start])).isNone then some start
      else firstFree fs parent fileName (start + 1) count := by
  rw [firstFree, List.range'_succ, List.find?_cons]
  cases (fs (parent ++ [triedName fileName start])).isNone
  · rfl
  · rfl

/-- The desktop's search returns the first free name. -/
theorem findCandidate_eq (left index : Nat) :
    findCandidate fs parent fileName left (index + 1) =
      (firstFree fs parent fileName (index + 1) left).map
        (fun i => parent ++ [triedName fileName i]) := by
  induction left generalizing index with
  | zero => rfl
  | succ left ih =>
      rw [findCandidate, firstFree_succ, ih (index + 1), triedName_succ]
      by_cases hFree : fs (parent ++ [candidateName fileName (index + 1)]) = none
      · simp [hFree]
      · simp [Option.isSome_iff_ne_none.mpr hFree, hFree]

/-- The desktop takes the first free name of ten thousand. -/
theorem chooseTarget_eq (display : Path → String) (fs : FileSystem Content) (parent : Path)
    (fileName : String) :
    (chooseTarget display fs (parent ++ [fileName])).map Prod.fst =
      match firstFree fs parent fileName 0 10000 with
      | some i => .ok (parent ++ [triedName fileName i])
      | none => .error (.tooManyConflicts (parent ++ [fileName])) := by
  have hFirst := @firstFree_succ Content fs parent fileName 0 9999
  rw [hFirst, chooseTarget, resolveConflictPath, List.dropLast_concat, List.getLast?_concat,
    Option.getD_some, findCandidate_eq, triedName_zero]
  by_cases hFree : fs (parent ++ [fileName]) = none
  · rw [hFree]
    rfl
  · rw [if_pos (Option.isSome_iff_ne_none.mpr hFree), if_neg (by simpa using hFree)]
    cases firstFree fs parent fileName 1 9999 with
    | none => rfl
    | some i => rfl

/-- Android's search returns the first free name, and the last one where none is free. -/
theorem findName_eq (hName : fileName ≠ "..") (left index : Nat) :
    (Android.findName (fun name => (fs (parent ++ [name])).isSome) fileName left (index + 1)).map
        Prod.fst =
      match firstFree fs parent fileName (index + 1) left with
      | some i => .ok (triedName fileName i)
      | none => .error (tooManyConflicts fileName) := by
  induction left generalizing index with
  | zero => rfl
  | succ left ih =>
      rw [Android.findName, firstFree_succ, android_candidate_eq hName, triedName_succ]
      by_cases hFree : fs (parent ++ [candidateName fileName (index + 1)]) = none
      · rw [hFree]
        rfl
      · rw [if_neg (by simpa [Option.isSome_iff_ne_none] using hFree),
          if_neg (by simpa using hFree)]
        exact ih (index + 1)

/-- So does Android. -/
theorem android_resolveConflictName_eq (hName : fileName ≠ "..") :
    (Android.resolveConflictName (fun name => (fs (parent ++ [name])).isSome) fileName).map
        Prod.fst =
      match firstFree fs parent fileName 0 10000 with
      | some i => .ok (triedName fileName i)
      | none => .error (tooManyConflicts fileName) := by
  have hFirst := @firstFree_succ Content fs parent fileName 0 9999
  rw [hFirst, Android.resolveConflictName, triedName_zero]
  by_cases hFree : fs (parent ++ [fileName]) = none
  · rw [hFree]
    rfl
  · rw [if_neg (by simpa [Option.isSome_iff_ne_none] using hFree), if_neg (by simpa using hFree)]
    exact findName_eq hName 9999 0

/-- Where every look is answered and no directory bears a tried name, the browser sees what
is there. -/
theorem fileExists_eq (hFiles : ∀ name, fs (parent ++ [name]) ≠ some .dir) (name : String) :
    Browser.fileExists fs parent (fun _ => true) name = (fs (parent ++ [name])).isSome := by
  rw [Browser.fileExists, Bool.true_and]
  cases hEntry : fs (parent ++ [name]) with
  | none => rfl
  | some entry =>
      cases entry with
      | file content => rfl
      | dir => exact absurd hEntry (hFiles name)

theorem findWritable_eq (hName : fileName ≠ "..")
    (hFiles : ∀ name, fs (parent ++ [name]) ≠ some .dir) (left index : Nat) :
    (Browser.findWritable fs parent (fun _ => true) fileName left (index + 1)
        (triedName fileName index)).map (·.fileName) =
      match firstFree fs parent fileName index left with
      | some i => .ok (triedName fileName i)
      | none => .error (tooManyConflicts fileName) := by
  induction left generalizing index with
  | zero => rfl
  | succ left ih =>
      rw [Browser.findWritable, firstFree_succ, fileExists_eq hFiles,
        browser_resolveConflictName_eq hName, ← triedName_succ, ← Option.not_isSome]
      cases (fs (parent ++ [triedName fileName index])).isSome with
      | false =>
          by_cases hSame : triedName fileName index = fileName
          · simp only [Bool.not_false, if_true, if_pos hSame]
            rfl
          · simp only [Bool.not_false, if_true, if_neg hSame]
            rfl
      | true => exact ih (index + 1)

/-- The browser leaves out the last of them. -/
theorem resolveWritableFileName_eq (hName : fileName ≠ "..")
    (hFiles : ∀ name, fs (parent ++ [name]) ≠ some .dir) :
    (Browser.resolveWritableFileName fs parent (fun _ => true) fileName).map (·.fileName) =
      match firstFree fs parent fileName 0 9999 with
      | some i => .ok (triedName fileName i)
      | none => .error (tooManyConflicts fileName) :=
  findWritable_eq hName hFiles 9999 0

/-- No name is free exactly if every tried one is taken. -/
theorem firstFree_eq_none {count : Nat} :
    firstFree fs parent fileName 0 count = none ↔
      ∀ i < count, (fs (parent ++ [triedName fileName i])).isSome := by
  simp [firstFree, Option.isSome_iff_ne_none]

/-- The exceptional case: all names but the last one are taken. -/
theorem onlyLastFree_iff :
    OnlyLastFree fs parent fileName ↔
      firstFree fs parent fileName 0 9999 = none ∧
        fs (parent ++ [triedName fileName 9999]) = none := by
  rw [OnlyLastFree, firstFree_eq_none, ← and_assoc]
  refine and_congr ⟨fun h i hi => ?_, fun h => ⟨h 0 (by omega), fun index hOne hLt => ?_⟩⟩ Iff.rfl
  · cases i with
    | zero => exact h.1
    | succ i => exact h.2 (i + 1) (by omega) hi
  · obtain ⟨i, rfl⟩ := Nat.exists_eq_add_of_le' hOne
    exact h (i + 1) hLt

/-- The last name is tried only when no other is free. -/
theorem firstFree_last :
    firstFree fs parent fileName 0 10000 =
      match firstFree fs parent fileName 0 9999 with
      | some i => some i
      | none => if (fs (parent ++ [triedName fileName 9999])).isNone then some 9999 else none := by
  have hRange : List.range' 0 10000 = List.range' 0 9999 ++ [9999] := List.range'_1_concat
  rw [firstFree, firstFree, hRange, List.find?_append]
  cases (List.range' 0 9999).find? fun i => (fs (parent ++ [triedName fileName i])).isNone with
  | some i => rfl
  | none =>
      rw [Option.none_or, List.find?_singleton]

/-- With only the last name free the browser alone reports too many conflicts. -/
theorem not_resolveAlike (hName : fileName ≠ "..")
    (hFiles : ∀ name, fs (parent ++ [name]) ≠ some .dir) (h : OnlyLastFree fs parent fileName) :
    ¬ResolveAlike display fs parent fileName := by
  obtain ⟨hTaken, hFree⟩ := onlyLastFree_iff.mp h
  have hBrowser := resolveWritableFileName_eq hName hFiles
  have hDesktop := chooseTarget_eq display fs parent fileName
  rw [hTaken] at hBrowser
  rw [firstFree_last, hTaken, hFree] at hDesktop
  rintro (⟨name, _, hChosen, _⟩ | ⟨hNone, _, _⟩)
  · rw [hChosen] at hBrowser
    cases hBrowser
  · rw [hNone] at hDesktop
    cases hDesktop

theorem eq_error_of_map {ε α β : Type} {f : α → β} {x : Except ε α} {e : ε}
    (h : x.map f = .error e) : x = .error e := by
  cases x with
  | error e' => exact congrArg Except.error (Except.error.inj h)
  | ok a => cases h

/-- The exporters choose alike unless only the last name is free. -/
theorem conflicts_resolved_alike_iff (hName : validatePathComponent fileName = .ok ())
    (hFiles : ∀ name, fs (parent ++ [name]) ≠ some .dir) :
    ResolveAlike display fs parent fileName ↔ ¬OnlyLastFree fs parent fileName := by
  have hParent := (validatePathComponent_eq_ok.mp hName).notParent
  refine ⟨fun h hLast => not_resolveAlike hParent hFiles hLast h, fun h => ?_⟩
  have hSame : firstFree fs parent fileName 0 9999 = firstFree fs parent fileName 0 10000 := by
    rw [firstFree_last]
    cases hFirst : firstFree fs parent fileName 0 9999 with
    | some i => rfl
    | none =>
        have hTaken : fs (parent ++ [triedName fileName 9999]) ≠ none := fun hFree =>
          h (onlyLastFree_iff.mpr ⟨hFirst, hFree⟩)
        rw [if_neg (by simpa using hTaken)]
  have hDesktop := chooseTarget_eq display fs parent fileName
  have hBrowser := resolveWritableFileName_eq hParent hFiles
  have hAndroid := @android_resolveConflictName_eq Content fs parent fileName hParent
  rw [hSame] at hBrowser
  cases hFirst : firstFree fs parent fileName 0 10000 with
  | some i =>
      rw [hFirst] at hDesktop hBrowser hAndroid
      exact Or.inl ⟨triedName fileName i, hDesktop, hBrowser, hAndroid⟩
  | none =>
      rw [hFirst] at hDesktop hBrowser hAndroid
      exact Or.inr
        ⟨eq_error_of_map hDesktop, eq_error_of_map hBrowser, eq_error_of_map hAndroid⟩

end

section

/-- One file in a directory. -/
private def oneReport : FileSystem Unit := fun p =>
  if p = ["home", "report.txt"] then some (.file ()) else none

theorem conflicts_resolved_alike_iff_report :
    ResolveAlike (fun _ => "") oneReport ["home"] "report.txt" ↔
      ¬OnlyLastFree oneReport ["home"] "report.txt" :=
  conflicts_resolved_alike_iff (by decide) fun name => by
    rw [oneReport]
    split
    · nofun
    · nofun

/-- The report and its numbers up to 9998. -/
private def manyReports : FileSystem Unit := fun p =>
  if p ∈ (List.range 9999).map fun i => ["home"] ++ [triedName "report.txt" i] then
    some (.file ())
  else none

/-- Here the desktop and Android write `report (9999).txt`. -/
theorem conflicts_resolved_apart :
    ¬∀ (fs : FileSystem Unit) (parent : Path) (fileName : String),
      validatePathComponent fileName = .ok () →
        (∀ name, fs (parent ++ [name]) ≠ some .dir) → ResolveAlike (fun _ => "") fs parent fileName := by
  intro h
  have hFiles : ∀ name, manyReports (["home"] ++ [name]) ≠ some .dir := by
    intro name
    rw [manyReports]
    split
    · nofun
    · nofun
  have hLast : OnlyLastFree manyReports ["home"] "report.txt" := by
    refine onlyLastFree_iff.mpr ⟨firstFree_eq_none.mpr fun i hi => ?_, if_neg ?_⟩
    · rw [manyReports, if_pos (List.mem_map.mpr ⟨i, List.mem_range.mpr hi, rfl⟩)]
      rfl
    · intro hMem
      obtain ⟨i, hRange, hEq⟩ := List.mem_map.mp hMem
      have hi := List.mem_range.mp hRange
      have hTried : candidateName "report.txt" 9999 = triedName "report.txt" i := by
        simpa using hEq.symm
      cases i with
      | zero =>
          have hParen := candidateName_paren "report.txt" 9999
          rw [hTried] at hParen
          exact absurd hParen (by decide)
      | succ i => exact absurd (candidateName_inj hTried) (by omega)
  exact not_resolveAlike (by decide) hFiles hLast
    (h manyReports ["home"] "report.txt" (by decide) hFiles)

end

end AltSendme.Files
