import AltSendme.Files.ImportNames

/-! Which imported names an export accepts. The import and the two exports check
path components on their own; the native import leaves out one of the checks and
the browser's import has none. -/
namespace AltSendme.Files

/-- Both exports accept the name, and its target is the root and its components. -/
def Exportable (name : String) : Prop :=
  (∀ root, getExportPath root name = .ok (root ++ components name)) ∧
    validateCollectionPath name = .ok ()

/-- A name is exportable exactly if all its components are. -/
theorem exportable_iff {name : String} :
    Exportable name ↔ ∀ part ∈ components name, IsPathComponent part := by
  rw [Exportable, validateCollectionPath_eq_ok]
  constructor
  · exact fun h => h.2
  · intro h
    exact ⟨fun root => getExportPath_eq_ok.mpr ⟨h, rfl⟩, h⟩

/-- The names that de-duplication makes are exportable when the collected ones are. -/
theorem exportable_numbered {name : String} (h : Exportable name) (count : Nat) :
    Exportable (numbered name count) := by
  rw [exportable_iff] at h ⊢
  obtain ⟨init, last, hEq⟩ := exists_components_eq name
  rw [components_numbered hEq]
  rw [hEq] at h
  intro part hPart
  rcases List.mem_append.mp hPart with hInit | hLast
  · exact h part (List.mem_append_left _ hInit)
  · rw [List.mem_singleton.mp hLast]
    exact (h last (by simp)).numbered count

theorem forall_exportable_of_taken {names : List String} {found : List String}
    (hTaken : ∀ x, x ∈ found ↔ NameTaken names x) :
    (∀ name ∈ found, Exportable name) ↔ ∀ name ∈ names, Exportable name := by
  constructor
  · intro h name hName
    exact h name ((hTaken name).mpr (Or.inl hName))
  · intro h name hName
    rcases (hTaken name).mp hName with hMem | ⟨n, k, hk, hLe, rfl⟩
    · exact h name hMem
    · exact exportable_numbered (h n (List.count_pos_iff.mp (by omega))) k

theorem mem_intercalate_singleton {α : Type} {sep c : α} (hc : c ≠ sep) {ls : List (List α)} :
    c ∈ [sep].intercalate ls ↔ ∃ l ∈ ls, c ∈ l := by
  induction ls with
  | nil => simp
  | cons first rest ih =>
      cases rest with
      | nil => simp
      | cons second rest =>
          rw [List.intercalate_cons_of_ne_nil (by simp)]
          have hSep : c ∉ [sep] := by simpa using hc
          simp only [List.mem_append, hSep, or_false, ih, List.mem_cons, exists_eq_or_imp]

theorem mem_joinSlash {c : Char} (hc : c ≠ '/') {parts : Path} :
    c ∈ (joinSlash parts).toList ↔ ∃ part ∈ parts, c ∈ part.toList := by
  rw [joinSlash, String.toList_ofList, mem_intercalate_singleton hc]
  simp

section
variable {Hash : Type}

/-- Accepted components are text, without backslashes. -/
theorem mapM_toParts_eq_ok {names : List OsName} {lists : List Path}
    (h : (names.map Component.normal).mapM (Component.toParts true) = .ok lists) :
    names = lists.flatten.map .utf8 ∧ ∀ part ∈ lists.flatten, '\\' ∉ part.toList := by
  have hEach := List.forall₂_map_left_iff.mp (forall₂_of_mapM h)
  clear h
  induction hEach with
  | nil => simp
  | @cons name parts names lists hOne _ ih =>
      obtain ⟨hNames, hParts⟩ := ih
      cases name with
      | other bytes => cases hOne
      | utf8 text =>
          by_cases hText : '/' ∉ text.toList ∧ '\\' ∉ text.toList
          · rw [Component.toParts, if_pos hText] at hOne
            cases hOne
            refine ⟨by simp [hNames], fun part hPart => ?_⟩
            rcases List.mem_cons.mp hPart with rfl | hRest
            · exact hText.2
            · exact hParts part hRest
          · rw [Component.toParts, if_neg hText] at hOne
            cases hOne

/-- What `canonicalized_path_to_string` accepts of a relative path. -/
theorem canonicalizedPathToString_eq_ok {names : List OsName} {text : String}
    (h : canonicalizedPathToString (names.map .normal) true = .ok text) :
    ∃ parts : Path, names = parts.map .utf8 ∧ (∀ part ∈ parts, '\\' ∉ part.toList) ∧
      text = joinSlash parts := by
  have hRoot : Component.rootDir ∉ names.map Component.normal := by simp
  rw [canonicalizedPathToString, if_neg hRoot] at h
  cases hMap : (names.map Component.normal).mapM (Component.toParts true) with
  | error e => simp [hMap, bind, Except.bind] at h
  | ok lists =>
      obtain ⟨hNames, hParts⟩ := mapM_toParts_eq_ok hMap
      simp only [hMap, bind, Except.bind, pure, Except.pure, Except.ok.injEq] at h
      exact ⟨lists.flatten, hNames, hParts, by rw [← h]; exact String.empty_append⟩

/-- A stem is the name of a file. -/
theorem InputPath.stem_isFileName (path : InputPath Hash) :
    (OsName.utf8 path.stem).IsFileName := by
  obtain ⟨fileName, found⟩ := path
  rcases fileName with _ | ⟨text | bytes, hName⟩
  · exact (by decide : (OsName.utf8 "item").IsFileName)
  · exact hName
  · exact (by decide : (OsName.utf8 "item").IsFileName)

/-- The components of a collected name are names of files without a backslash. -/
def Collected (name : String) : Prop :=
  ∃ parts : Path, parts ≠ [] ∧ name = joinSlash parts ∧
    ∀ part ∈ parts, (OsName.utf8 part).IsFileName ∧ '\\' ∉ part.toList

/-- A name made from file names is one that is collected. -/
theorem collected_of_canonicalized {names : List OsName} {text : String} (hNames : names ≠ [])
    (hFile : ∀ name ∈ names, name.IsFileName)
    (h : canonicalizedPathToString (names.map .normal) true = .ok text) : Collected text := by
  obtain ⟨parts, rfl, hParts, hText⟩ := canonicalizedPathToString_eq_ok h
  refine ⟨parts, by simpa using hNames, hText, fun part hPart => ⟨?_, hParts part hPart⟩⟩
  exact hFile _ (List.mem_map_of_mem hPart)

/-- A successful `mapM` gives each result from an element of the list. -/
theorem exists_of_mem_mapM {ε α β : Type} {f : α → Except ε β} {xs : List α} {ys : List β}
    (h : xs.mapM f = .ok ys) {y : β} (hy : y ∈ ys) : ∃ x ∈ xs, f x = .ok y := by
  have hEach := forall₂_of_mapM h
  clear h
  induction hEach with
  | nil => cases hy
  | @cons x first xs rest hOne _ ih =>
      rcases List.mem_cons.mp hy with rfl | hRest
      · exact ⟨x, List.mem_cons_self, hOne⟩
      · obtain ⟨x', hx', hEq⟩ := ih hRest
        exact ⟨x', List.mem_cons_of_mem _ hx', hEq⟩

/-- Every name a path adds is one that is collected. -/
theorem collected_of_mem_names {path : InputPath Hash} {name : String}
    (h : name ∈ path.names) : Collected name := by
  rw [InputPath.names] at h
  split at h
  · next files hFiles =>
      obtain ⟨⟨safe, blob⟩, hMem, rfl⟩ := List.mem_map.mp h
      have hStem := path.stem_isFileName
      cases hFound : path.found with
      | special => simp [hFound, collectPathFiles] at hFiles
      | inaccessible => simp [hFound, collectPathFiles] at hFiles
      | file found =>
          rw [hFound, collectPathFiles] at hFiles
          cases hText : canonicalizedPathToString
              ([OsName.utf8 path.stem].map Component.normal) true with
          | error e =>
              rw [List.map_singleton] at hText
              simp [hText, bind, Except.bind] at hFiles
          | ok text =>
              rw [List.map_singleton] at hText
              simp only [hText, bind, Except.bind, pure, Except.pure, Except.ok.injEq] at hFiles
              subst hFiles
              obtain ⟨rfl, rfl⟩ : safe = text ∧ blob = found := by simpa using hMem
              have hName : ∀ name ∈ [OsName.utf8 path.stem], name.IsFileName := by simpa using hStem
              exact collected_of_canonicalized (List.cons_ne_nil _ _) hName hText
      | dir entries =>
          rw [hFound, collectPathFiles] at hFiles
          obtain ⟨⟨rel, found⟩, _, hOne⟩ := exists_of_mem_mapM hFiles hMem
          cases hText : canonicalizedPathToString
              ((OsName.utf8 path.stem :: rel.map Subtype.val).map Component.normal) true with
          | error e =>
              rw [List.map_cons, List.map_map] at hText
              change canonicalizedPathToString (.normal (.utf8 path.stem) ::
                rel.map fun name => .normal name.val) true = _ at hText
              simp only [hText, bind, Except.bind, reduceCtorEq] at hOne
          | ok text =>
              have hCollected : Collected text := by
                refine collected_of_canonicalized (by simp) ?_ hText
                intro name hName
                rcases List.mem_cons.mp hName with rfl | hRel
                · exact hStem
                · obtain ⟨entry, _, rfl⟩ := List.mem_map.mp hRel
                  exact entry.property
              rw [List.map_cons, List.map_map] at hText
              change canonicalizedPathToString (.normal (.utf8 path.stem) ::
                rel.map fun name => .normal name.val) true = _ at hText
              simp only [hText, bind, Except.bind, pure, Except.pure, Except.ok.injEq,
                Prod.mk.injEq] at hOne
              rw [← hOne.1]
              exact hCollected
  · cases h

/-- The only check of the exports that the native import leaves out. -/
theorem Collected.exportable_iff {name : String} (h : Collected name) :
    Exportable name ↔ ':' ∉ name.toList := by
  obtain ⟨parts, hParts, rfl, hNames⟩ := h
  have hSlash : ∀ part ∈ parts, '/' ∉ part.toList := fun part hPart => (hNames part hPart).1.2.1
  rw [Files.exportable_iff, components_joinSlash hParts hSlash, mem_joinSlash (by decide)]
  constructor
  · rintro hValid ⟨part, hPart, hColon⟩
    exact (hValid part hPart).noColon hColon
  · intro hColon part hPart
    obtain ⟨⟨hNonempty, hNoSlash, hNull, hCurrent, hParent⟩, hBackslash⟩ := hNames part hPart
    exact ⟨hNonempty, hNoSlash, hBackslash, fun hMem => hColon ⟨part, hPart, hMem⟩, hParent,
      hCurrent, hNull⟩

/-- What the native import collects can be exported exactly when no name has a
colon; what the browser's collects, exactly when its items could be. -/
theorem imported_names_exportable_iff :
    (∀ (arrival : Arrival Hash) (paths : List (InputPath Hash)) (total : UInt64)
      (collection : Collection Hash), importPaths arrival paths = .ok (total, collection) →
        ((∀ name ∈ collection.map Prod.fst, Exportable name) ↔
          ∀ name ∈ importNames paths, ':' ∉ name.toList)) ∧
      ∀ (items : List (String × Option (Blob Hash))) (total : UInt64)
        (collection : Collection Hash),
        importNamedBytesCollection items = .ok (total, collection) →
          ((∀ name ∈ collection.map Prod.fst, Exportable name) ↔
            ∀ item ∈ items, ∀ part ∈ components item.1, IsPathComponent part) := by
  refine ⟨fun arrival paths total collection h => ?_, fun items total collection h => ?_⟩
  · obtain ⟨acc, hNumbers, hPerm⟩ := importPaths_eq_ok h
    rw [forall_exportable_of_taken fun x => hPerm.mem_iff.trans (hNumbers.taken x)]
    have hEach : ∀ name ∈ importNames paths, (Exportable name ↔ ':' ∉ name.toList) := by
      intro name hName
      obtain ⟨path, _, hMem⟩ := List.mem_flatMap.mp hName
      exact (collected_of_mem_names hMem).exportable_iff
    exact forall₂_congr hEach
  · obtain ⟨acc, hNumbers, hPerm⟩ := importNamedBytesCollection_eq_ok h
    rw [forall_exportable_of_taken fun x => hPerm.mem_iff.trans (hNumbers.taken x)]
    simp only [List.forall_mem_map, Files.exportable_iff]

end

section
private def orderKept : Arrival Nat := .found

private def notes : InputPath Nat := ⟨some ⟨.utf8 "notes", by decide⟩, .file (some ⟨1, 10⟩)⟩

/-- A colon is an ordinary character of a file name, but for the export. -/
private def colonNotes : InputPath Nat :=
  ⟨some ⟨.utf8 "notes 9:30", by decide⟩, .file (some ⟨1, 10⟩)⟩

theorem imported_names_exportable_iff_notes :
    importPaths orderKept [notes] = .ok (10, [("notes", 1)]) ∧ Exportable "notes" := by
  have hImport : importPaths orderKept [notes] = .ok (10, [("notes", 1)]) := by
    decide
  refine ⟨hImport, (imported_names_exportable_iff.1 orderKept [notes] _ _ hImport).mpr ?_ "notes" ?_⟩
  · decide
  · decide

theorem imported_names_refused :
    importPaths orderKept [colonNotes] = .ok (10, [("notes 9:30", 1)]) ∧
      getExportPath ["downloads"] "notes 9:30" = .error "contains colon" ∧
      importNamedBytesCollection [("../notes", some ⟨1, 10⟩)] = .ok (10, [("../notes", 1)]) ∧
      validateCollectionPath "../notes" = .error "parent directory traversal" := by
  decide

end

end AltSendme.Files
