import AltSendme.Files.Export

/-! The documents of another app, as the export into a picked tree uses them
(`DocumentFile` and `openOutputStream`). The provider of the tree is not known: it may
refuse any call, not find what is there, and give a document another name than the one
asked for. What the export relies on is `DocumentProvider.Lawful`. -/
namespace AltSendme.Android
open Files

/-- A document, as its provider shows it. -/
structure Document (Doc : Type) where
  parent : Option Doc
  name : String
  entry : Entry (List UInt8)
  deriving DecidableEq

/-- The calls of the export. An answer may depend on all that the provider has done
before; between two changes the export never asks for the same name twice. -/
structure DocumentProvider (State Doc : Type) where
  documents : State → Doc → Option (Document Doc)
  fromTreeUri : State → String → Option Doc
  canWrite : State → Doc → Bool
  findFile : State → Doc → String → Option Doc
  isDirectory : State → Doc → Bool
  createDirectory : State → Doc → (displayName : String) → State × Option Doc
  createFile : State → Doc → (mimeType displayName : String) → State × Option Doc
  /-- `openOutputStream` and the copy into the stream. It is not done if there is no
  stream, or if a read or a write throws. -/
  write : State → Doc → List UInt8 → State × Bool

namespace DocumentProvider
variable {State Doc : Type}

/-- Every document is as it was, and those that are new are children of `parent`. -/
structure AddsChildren (provider : DocumentProvider State Doc) (parent : Doc) (s s' : State) :
    Prop where
  kept : ∀ d doc, provider.documents s d = some doc → provider.documents s' d = some doc
  added : ∀ d doc, provider.documents s d = none → provider.documents s' d = some doc →
    doc.parent = some parent

/-- What is documented of these calls. A document that is found is a child of that
name; one that is made is a child of the document asked, under some name, and a file is
new and empty; and nothing else changes, also when a call fails. -/
structure Lawful (provider : DocumentProvider State Doc) : Prop where
  found : ∀ s parent name d, provider.findFile s parent name = some d →
    ∃ entry, provider.documents s d = some ⟨some parent, name, entry⟩
  createDirectory_adds : ∀ s parent name,
    provider.AddsChildren parent s (provider.createDirectory s parent name).1
  createDirectory_made : ∀ s parent name d,
    (provider.createDirectory s parent name).2 = some d → ∃ given,
      provider.documents (provider.createDirectory s parent name).1 d =
        some ⟨some parent, given, .dir⟩
  createFile_adds : ∀ s parent mimeType name,
    provider.AddsChildren parent s (provider.createFile s parent mimeType name).1
  createFile_made : ∀ s parent mimeType name d,
    (provider.createFile s parent mimeType name).2 = some d →
      provider.documents s d = none ∧ ∃ given,
        provider.documents (provider.createFile s parent mimeType name).1 d =
          some ⟨some parent, given, .file []⟩
  write_other : ∀ s d bytes other, other ≠ d →
    provider.documents (provider.write s d bytes).1 other = provider.documents s other
  write_file : ∀ s d parent name bytes,
    provider.documents s d = some ⟨parent, name, .file []⟩ → ∃ content,
      provider.documents (provider.write s d bytes).1 d = some ⟨parent, name, .file content⟩ ∧
        ((provider.write s d bytes).2 = true → content = bytes)

/-- A provider that gives a document the name asked for, whenever it makes one. -/
structure KeepsNames (provider : DocumentProvider State Doc) : Prop where
  directory : ∀ s parent name d doc, (provider.createDirectory s parent name).2 = some d →
    provider.documents (provider.createDirectory s parent name).1 d = some doc → doc.name = name
  file : ∀ s parent mimeType name d doc,
    (provider.createFile s parent mimeType name).2 = some d →
      provider.documents (provider.createFile s parent mimeType name).1 d = some doc →
        doc.name = name

/-- The document is reached from `root` by the names on the path. -/
inductive At (provider : DocumentProvider State Doc) (s : State) (root : Doc) : Path → Doc → Prop
  | root : At provider s root [] root
  | child {path : Path} {parent d : Doc} {name : String} {entry : Entry (List UInt8)}
      (above : At provider s root path parent)
      (here : provider.documents s d = some ⟨some parent, name, entry⟩) :
      At provider s root (path ++ [name]) d

/-- Every document is as it was, and those that are new are below `root`. -/
structure Adds (provider : DocumentProvider State Doc) (root : Doc) (s s' : State) : Prop where
  kept : ∀ d doc, provider.documents s d = some doc → provider.documents s' d = some doc
  added : ∀ d doc, provider.documents s d = none → provider.documents s' d = some doc →
    ∃ path, path ≠ [] ∧ provider.At s' root path d

variable {provider : DocumentProvider State Doc} {root parent d : Doc} {s s' s'' : State}
variable {path : Path}

/-- Documents that stay are reached as before. -/
theorem At.mono (h : provider.At s root path d)
    (hKept : ∀ d doc, provider.documents s d = some doc → provider.documents s' d = some doc) :
    provider.At s' root path d := by
  induction h with
  | root => exact .root
  | child _ here ih => exact .child ih (hKept _ _ here)

theorem Adds.refl (provider : DocumentProvider State Doc) (root : Doc) (s : State) :
    provider.Adds root s s :=
  ⟨fun _ _ h => h, fun d doc hNone hSome => by
    rw [hNone] at hSome
    cases hSome⟩

/-- What was added twice was added. -/
theorem Adds.trans (h : provider.Adds root s s') (h' : provider.Adds root s' s'') :
    provider.Adds root s s'' := by
  refine ⟨fun d doc hDoc => h'.kept d doc (h.kept d doc hDoc), fun d doc hNone hDoc => ?_⟩
  cases hMiddle : provider.documents s' d with
  | none => exact h'.added d doc hMiddle hDoc
  | some middle =>
      obtain ⟨path, hPath, hAt⟩ := h.added d middle hNone hMiddle
      exact ⟨path, hPath, hAt.mono h'.kept⟩

/-- Whatever is not as it was is new, and below the root. -/
theorem Adds.changed (h : provider.Adds root s s')
    (hChanged : provider.documents s' d ≠ provider.documents s d) :
    ∃ path, path ≠ [] ∧ provider.At s' root path d := by
  cases hBefore : provider.documents s d with
  | some doc =>
      rw [hBefore, h.kept d doc hBefore] at hChanged
      exact absurd rfl hChanged
  | none =>
      rw [hBefore] at hChanged
      obtain ⟨doc, hDoc⟩ := Option.ne_none_iff_exists'.mp hChanged
      exact h.added d doc hBefore hDoc

/-- New children of a document below the root are below the root. -/
theorem AddsChildren.adds (h : provider.AddsChildren parent s s')
    (hParent : provider.At s root path parent) : provider.Adds root s s' := by
  refine ⟨h.kept, fun d doc hNone hDoc => ?_⟩
  obtain ⟨above, name, entry⟩ := doc
  obtain rfl : above = some parent := h.added d _ hNone hDoc
  exact ⟨path ++ [name], by simp, .child (hParent.mono h.kept) hDoc⟩

/-- Writing into a new document changes no old one. -/
theorem Lawful.write_new (hLawful : provider.Lawful) (h : provider.AddsChildren parent s s')
    (hNew : provider.documents s d = none) {name : String}
    (hEmpty : provider.documents s' d = some ⟨some parent, name, .file []⟩) (bytes : List UInt8) :
    provider.AddsChildren parent s (provider.write s' d bytes).1 := by
  refine ⟨fun other doc hOld => ?_, fun other doc hNone hDoc => ?_⟩
  · have hOther : other ≠ d := by
      rintro rfl
      rw [hNew] at hOld
      cases hOld
    rw [hLawful.write_other s' d bytes other hOther]
    exact h.kept other doc hOld
  · by_cases hSame : other = d
    · subst hSame
      obtain ⟨content, hWritten, -⟩ := hLawful.write_file s' other _ name bytes hEmpty
      rw [hWritten] at hDoc
      rw [← Option.some.inj hDoc]
    · rw [hLawful.write_other s' d bytes other hSame] at hDoc
      exact h.added other doc hNone hDoc

section Listed

/-- A new child at the end of the list, unless a child of that name is there. -/
def makeChild (s : List (Document Nat)) (parent : Nat) (name : String)
    (entry : Entry (List UInt8)) : List (Document Nat) × Option Nat :=
  if s.any fun doc => doc.parent = some parent && doc.name = name then (s, none)
  else (s ++ [⟨some parent, name, entry⟩], some s.length)

/-- A question mark cannot be in a name here. -/
def givenName (displayName : String) : String := displayName.map fun c => if c = '?' then '_' else c

/-- A provider of one tree that has its documents in a list and gives them names of its
own. The first of them is the root. -/
def listed (treeUri : String) : DocumentProvider (List (Document Nat)) Nat where
  documents s d := s[d]?
  fromTreeUri _ uri := if uri = treeUri then some 0 else none
  canWrite _ _ := true
  findFile s parent name := s.findIdx? fun doc => doc.parent = some parent && doc.name = name
  isDirectory s d := s[d]?.any fun doc => !doc.entry.isFile
  createDirectory s parent displayName := makeChild s parent (givenName displayName) .dir
  createFile s parent _ displayName := makeChild s parent (givenName displayName) (.file [])
  write s d bytes := (s.modify d fun doc => { doc with entry := .file bytes }, true)

variable {treeUri : String} {s : List (Document Nat)} {parent d : Nat} {name : String}
variable {entry : Entry (List UInt8)}

/-- Making a child adds below its parent and changes nothing else. -/
theorem makeChild_adds :
    (listed treeUri).AddsChildren parent s (makeChild s parent name entry).1 := by
  rw [makeChild]
  split
  · exact ⟨fun _ _ h => h, fun d doc hNone hSome => by
      rw [hNone] at hSome
      cases hSome⟩
  · refine ⟨fun d doc hDoc => ?_, fun d doc hNone hDoc => ?_⟩
    · have hDoc : s[d]? = some doc := hDoc
      show (s ++ [_])[d]? = some doc
      rw [List.getElem?_append_left (List.getElem?_eq_some_iff.mp hDoc).1, hDoc]
    · have hPast : s.length ≤ d := List.getElem?_eq_none_iff.mp hNone
      have hDoc : (s ++ [_])[d]? = some doc := hDoc
      rw [List.getElem?_append_right hPast, List.getElem?_singleton] at hDoc
      split at hDoc
      · rw [← Option.some.inj hDoc]
      · cases hDoc

/-- The made document is new and lies below its parent under the asked name. -/
theorem makeChild_made (h : (makeChild s parent name entry).2 = some d) :
    s[d]? = none ∧ (makeChild s parent name entry).1[d]? = some ⟨some parent, name, entry⟩ := by
  rw [makeChild] at h ⊢
  split at h
  · cases h
  · next hFree =>
      obtain rfl : s.length = d := Option.some.inj h
      rw [if_neg hFree]
      exact ⟨List.getElem?_eq_none (Nat.le_refl _), List.getElem?_concat_length⟩

/-- The list of documents behaves as a provider is documented to. -/
theorem listed_lawful (treeUri : String) : (listed treeUri).Lawful where
  found := by
    intro s parent name d hFound
    obtain ⟨hLt, hSame, -⟩ := List.findIdx?_eq_some_iff_getElem.mp hFound
    simp only [Bool.and_eq_true, decide_eq_true_eq] at hSame
    refine ⟨s[d].entry, ?_⟩
    show s[d]? = _
    rw [List.getElem?_eq_getElem hLt, ← hSame.1, ← hSame.2]
  createDirectory_adds := fun _ _ _ => makeChild_adds
  createDirectory_made := fun _ _ _ _ h => ⟨_, (makeChild_made h).2⟩
  createFile_adds := fun _ _ _ _ => makeChild_adds
  createFile_made := fun _ _ _ _ _ h => ⟨(makeChild_made h).1, _, (makeChild_made h).2⟩
  write_other := by
    intro s d bytes other hOther
    show (s.modify d _)[other]? = s[other]?
    rw [List.getElem?_modify]
    simp [Ne.symm hOther]
  write_file := by
    intro s d parent name bytes hThere
    have hThere : s[d]? = some ⟨parent, name, .file []⟩ := hThere
    refine ⟨bytes, ?_, fun _ => rfl⟩
    show (s.modify d _)[d]? = _
    rw [List.getElem?_modify, hThere]
    simp

end Listed

end DocumentProvider

end AltSendme.Android
