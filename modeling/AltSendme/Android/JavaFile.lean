import AltSendme.Files.Names

/-! Paths as `java.io.File` keeps them, Kotlin's `resolve` on them, and where they
lead once `.` and `..` are resolved. -/
namespace AltSendme.Android
open Files (Path components joinSlash)

/-- The path of a `File`: doubled and trailing slashes are gone. -/
structure JavaFile where
  absolute : Bool
  parts : Path
  deriving DecidableEq, Repr

/-- The parts of a path between its slashes. -/
def pathParts (path : String) : Path := (components path).filter (· ≠ "")

namespace JavaFile

/-- `File(path)` -/
def ofPath (path : String) : JavaFile := ⟨path.toList.head? == some '/', pathParts path⟩

def path (file : JavaFile) : String := (if file.absolute then "/" else "") ++ joinSlash file.parts

/-- A path without a root is one below the working directory, which is `/`. -/
def absolutePath (file : JavaFile) : String := "/" ++ joinSlash file.parts

/-- `null` for a root, and for a single name. -/
def parentFile (file : JavaFile) : Option JavaFile :=
  match file.parts with
  | [] => none
  | [_] => if file.absolute then some ⟨true, []⟩ else none
  | _ => some { file with parts := file.parts.dropLast }

/-- A slash in front, or a colon at the end of the first part, which counts as the
letter of a drive on every system. -/
def isRooted (file : JavaFile) : Bool :=
  file.absolute || file.parts.head?.any fun part => part.toList.getLast? == some ':'

/-- `File.resolve`: a path with a root replaces the one it is resolved against. -/
def resolve (base relative : JavaFile) : JavaFile :=
  if relative.isRooted then relative else ⟨base.absolute, base.parts ++ relative.parts⟩

end JavaFile

section Dots

/-- One part of a path, from the directory reached so far. -/
def enter (reached : Path) (part : String) : Path :=
  if part = "." then reached
  else if part = ".." then reached.dropLast
  else reached ++ [part]

/-- Where a path leads from a directory. -/
def follow (reached parts : Path) : Path := parts.foldl enter reached

/-- The directory itself is not below it. -/
def JavaFile.Below (file directory : JavaFile) : Prop :=
  ∃ rest ≠ [], follow [] file.parts = follow [] directory.parts ++ rest

/-- How many directories a path climbs, and what it then goes down to. -/
structure Reduced where
  ups : Nat
  downs : Path
  deriving DecidableEq, Repr

def Reduced.enter (r : Reduced) (part : String) : Reduced :=
  if part = "." then r
  else if part = ".." then
    if r.downs = [] then { r with ups := r.ups + 1 } else { r with downs := r.downs.dropLast }
  else { r with downs := r.downs ++ [part] }

def reduce (parts : Path) : Reduced := parts.foldl Reduced.enter ⟨0, []⟩

/-- The path climbs no further than it goes down again into the very same
directories, and then on. A path with a root starts over from there. -/
def StaysBelow (directory name : JavaFile) : Prop :=
  let base := follow [] directory.parts
  let climbed := if name.isRooted then base.length else (reduce name.parts).ups
  ∃ rest ≠ [], (reduce name.parts).downs = base.drop (base.length - climbed) ++ rest

theorem follow_append (reached first second : Path) :
    follow reached (first ++ second) = follow (follow reached first) second :=
  List.foldl_append

theorem reduce_concat (parts : Path) (part : String) :
    reduce (parts ++ [part]) = (reduce parts).enter part := by
  rw [reduce, List.foldl_append]
  rfl

/-- A path leads where its climb and its descent lead. -/
theorem follow_eq (reached parts : Path) : follow reached parts =
    reached.take (reached.length - (reduce parts).ups) ++ (reduce parts).downs := by
  induction parts using List.reverseRecOn with
  | nil => simp [follow, reduce]
  | append_singleton parts part ih =>
      rw [follow_append, ih, reduce_concat]
      show enter _ part = _
      by_cases hDot : part = "."
      · simp [enter, Reduced.enter, hDot]
      · by_cases hDots : part = ".."
        · by_cases hDowns : (reduce parts).downs = []
          · rw [hDowns, List.append_nil, enter, if_neg hDot, if_pos hDots, Reduced.enter,
              if_neg hDot, if_pos hDots, if_pos hDowns, hDowns, List.append_nil, List.dropLast_eq_take,
              List.take_take, List.length_take]
            congr 1
            dsimp only
            omega
          · rw [enter, if_neg hDot, if_pos hDots, Reduced.enter, if_neg hDot, if_pos hDots,
              if_neg hDowns, List.dropLast_append_of_ne_nil hDowns]
        · rw [enter, if_neg hDot, if_neg hDots, Reduced.enter, if_neg hDot, if_neg hDots,
            List.append_assoc]

/-- Going down from part of a path stays below all of it just when it enters the
rest of it again. -/
theorem take_append_eq_iff (base downs rest : Path) (climbed : Nat) :
    base.take (base.length - climbed) ++ downs = base ++ rest ↔
      downs = base.drop (base.length - climbed) ++ rest := by
  constructor
  · intro hEq
    have hBase := List.take_append_drop (base.length - climbed) base
    rw [← hBase, List.append_assoc, hBase] at hEq
    exact List.append_cancel_left hEq
  · rintro rfl
    rw [← List.append_assoc, List.take_append_drop]

/-- Whether a name resolved against a directory stays below it can be told from the
name and the directory's own parts. -/
theorem resolve_below_iff (directory name : JavaFile) :
    (directory.resolve name).Below directory ↔ StaysBelow directory name := by
  have hPlace : follow [] (directory.resolve name).parts =
      (follow [] directory.parts).take ((follow [] directory.parts).length -
        (if name.isRooted then (follow [] directory.parts).length else (reduce name.parts).ups)) ++
      (reduce name.parts).downs := by
    rw [JavaFile.resolve]
    by_cases hRooted : name.isRooted = true
    · rw [if_pos hRooted, if_pos hRooted, follow_eq [] name.parts, Nat.sub_self, List.take_zero,
        List.take_nil]
    · rw [if_neg hRooted, if_neg hRooted, follow_append, ← follow_eq]
  simp only [JavaFile.Below, StaysBelow, hPlace, take_append_eq_iff]

/-- Parts that are neither `.` nor `..` are gone down one after another. -/
theorem reduce_plain {parts : Path} (h : ∀ part ∈ parts, part ≠ "." ∧ part ≠ "..") :
    reduce parts = ⟨0, parts⟩ := by
  induction parts using List.reverseRecOn with
  | nil => rfl
  | append_singleton parts part ih =>
      obtain ⟨hDot, hDots⟩ := h part (by simp)
      rw [reduce_concat, ih fun other hMem => h other (List.mem_append_left _ hMem), Reduced.enter,
        if_neg hDot, if_neg hDots]

/-- A name without a root whose parts are plain stays below any directory. -/
theorem staysBelow_of_plain {directory name : JavaFile} (hRoot : name.isRooted = false)
    (hSome : name.parts ≠ []) (h : ∀ part ∈ name.parts, part ≠ "." ∧ part ≠ "..") :
    StaysBelow directory name := by
  refine ⟨name.parts, hSome, ?_⟩
  simp [hRoot, reduce_plain h]

end Dots

end AltSendme.Android
