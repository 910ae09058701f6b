import AltSendme.Frontend.WebZip

/-! The numbers of the browser's archive. They are written by `DataView` setters,
which keep the low bits of whatever they are given. A buffer of any length can be
had here. -/
namespace AltSendme.Frontend
open Wire

def ZipEntry.nameLength (entry : ZipEntry) : Nat := (encode (normalizedPath entry.path)).length

/-- The bytes of local headers and data. -/
def localSize (entries : List ZipEntry) : Nat :=
  (entries.map fun entry => 30 + entry.nameLength + entry.bytes.length).sum

/-- The bytes of central headers. -/
def centralSize (entries : List ZipEntry) : Nat :=
  (entries.map fun entry => 46 + entry.nameLength).sum

/-- Every count, length, size and offset of the archive stands at its place with its
true value. -/
structure WritesTrueValues (entries : List ZipEntry) (archive : List UInt8) : Prop where
  local_size : ∀ before entry after, entries = before ++ entry :: after →
    numberAt archive (localSize before + 18) 4 = entry.bytes.length ∧
      numberAt archive (localSize before + 22) 4 = entry.bytes.length
  local_name : ∀ before entry after, entries = before ++ entry :: after →
    numberAt archive (localSize before + 26) 2 = entry.nameLength
  central_size : ∀ before entry after, entries = before ++ entry :: after →
    numberAt archive (localSize entries + centralSize before + 20) 4 = entry.bytes.length ∧
      numberAt archive (localSize entries + centralSize before + 24) 4 = entry.bytes.length
  central_name : ∀ before entry after, entries = before ++ entry :: after →
    numberAt archive (localSize entries + centralSize before + 28) 2 = entry.nameLength
  central_offset : ∀ before entry after, entries = before ++ entry :: after →
    numberAt archive (localSize entries + centralSize before + 42) 4 = localSize before
  end_count :
    numberAt archive (localSize entries + centralSize entries + 8) 2 = entries.length ∧
      numberAt archive (localSize entries + centralSize entries + 10) 2 = entries.length
  end_size :
    numberAt archive (localSize entries + centralSize entries + 12) 4 = centralSize entries
  end_offset :
    numberAt archive (localSize entries + centralSize entries + 16) 4 = localSize entries

/-- What the format without its 64-bit extension has no numbers for. -/
def Oversized (entries : List ZipEntry) : Prop :=
  65535 < entries.length ∨ (∃ entry ∈ entries, 65535 < entry.nameLength) ∨
    2 ^ 32 ≤ (entries.map fun entry => entry.bytes.length).sum

/-- An archive that is returned tells the truth, and what has no numbers is refused. -/
def NeverWraps (entries : List ZipEntry) : Prop :=
  (∀ archive, createStoreOnlyZip entries = .ok archive → WritesTrueValues entries archive) ∧
    (Oversized entries → ∃ e, createStoreOnlyZip entries = .error e)

/-- The numbers have room in the fields they go into. -/
structure FieldsFit (entries : List ZipEntry) : Prop where
  count : entries.length ≤ 65535
  names : ∀ entry ∈ entries, entry.nameLength ≤ 65535
  locals : localSize entries < 2 ^ 32
  directory : centralSize entries < 2 ^ 32

section Layout

theorem localSize_append (first second : List ZipEntry) :
    localSize (first ++ second) = localSize first + localSize second := by
  simp [localSize]

/-- The local part is as long as the code counts it. -/
theorem length_localRecords (entries : List ZipEntry) :
    (Zip.localRecords (entries.map ZipEntry.member)).length = localSize entries := by
  induction entries with
  | nil => rfl
  | cons entry entries ih =>
      have hRecord : (Zip.localRecord entry.member).length = 30 + entry.nameLength := by
        rw [Zip.localRecord, List.length_append, length_flatMap_bytes, Zip.extent_localFields]
        rfl
      rw [List.map_cons, Zip.localRecords_cons, List.length_append, List.length_append, ih, hRecord]
      rfl

/-- The directory is as long as the code counts it. -/
theorem length_centralRecords (offset : Nat) (entries : List ZipEntry) :
    (Zip.centralRecords offset (entries.map ZipEntry.member)).length = centralSize entries := by
  induction entries generalizing offset with
  | nil => rfl
  | cons entry entries ih =>
      have hRecord : (Zip.centralRecord entry.member offset).length = 46 + entry.nameLength := by
        rw [Zip.centralRecord, List.length_append, length_flatMap_bytes, Zip.extent_centralFields]
        rfl
      rw [List.map_cons, Zip.centralRecords, List.length_append, ih, hRecord]
      rfl

variable {before after entries : List ZipEntry} {entry : ZipEntry} {archive : List UInt8}

/-- Whatever the code returns is the format's archive. -/
theorem archive_eq (hOk : createStoreOnlyZip entries = .ok archive) :
    archive = Zip.storeOnly (entries.map ZipEntry.member) := by
  by_cases hSome : entries = []
  · rw [createStoreOnlyZip, if_pos hSome] at hOk
    cases hOk
  · exact (Except.ok.inj ((createStoreOnlyZip_eq hSome).symm.trans hOk)).symm

variable {offset width value : Nat}

/-- Each number of a local header stands at its field, modulo the field's width. -/
theorem localNumber (hOk : createStoreOnlyZip (before ++ entry :: after) = .ok archive)
    (hField : ⟨offset, width, value⟩ ∈ Zip.localFields (Zip.storedHeader entry.member)) :
    numberAt archive (localSize before + offset) width = value % 256 ^ width := by
  rw [archive_eq hOk, ← length_localRecords, List.map_append, List.map_cons]
  exact Zip.numberAt_local hField

/-- Each number of a central header stands at its field, modulo the field's width. -/
theorem centralNumber (hOk : createStoreOnlyZip (before ++ entry :: after) = .ok archive)
    (hField : ⟨offset, width, value⟩ ∈
      Zip.centralFields (Zip.storedHeader entry.member) (localSize before)) :
    numberAt archive (localSize (before ++ entry :: after) + centralSize before + offset) width =
      value % 256 ^ width := by
  rw [← length_localRecords] at hField
  rw [archive_eq hOk, ← length_localRecords, ← length_centralRecords 0, List.map_append,
    List.map_cons]
  exact Zip.numberAt_central hField

/-- Each number of the end record stands at its field, modulo the field's width. -/
theorem endNumber (hOk : createStoreOnlyZip entries = .ok archive)
    (hField : ⟨offset, width, value⟩ ∈
      Zip.endFields ⟨entries.length, centralSize entries, localSize entries⟩) :
    numberAt archive (localSize entries + centralSize entries + offset) width =
      value % 256 ^ width := by
  rw [← length_localRecords, ← length_centralRecords 0, ← List.length_map ZipEntry.member] at hField
  rw [archive_eq hOk, ← length_localRecords, ← length_centralRecords 0]
  exact Zip.numberAt_end hField

end Layout

section Limits

theorem nameLength_mem {entry : ZipEntry} :
    ⟨26, 2, entry.nameLength⟩ ∈ Zip.localFields (Zip.storedHeader entry.member) := by
  simp [Zip.localFields, Zip.storedHeader, ZipEntry.member, ZipEntry.nameLength]

theorem le_localSize {entries : List ZipEntry} {entry : ZipEntry} (hMem : entry ∈ entries) :
    entry.bytes.length ≤ localSize entries := by
  obtain ⟨before, after, rfl⟩ := List.append_of_mem hMem
  rw [localSize_append]
  simp only [localSize, List.map_cons, List.sum_cons]
  omega

/-- The contents together are no longer than the local part. -/
theorem sum_bytes_le (entries : List ZipEntry) :
    (entries.map fun entry => entry.bytes.length).sum ≤ localSize entries := by
  induction entries with
  | nil => exact Nat.le_refl 0
  | cons entry entries ih =>
      simp only [localSize, List.map_cons, List.sum_cons] at ih ⊢
      omega

/-- True values are values that fit. -/
theorem WritesTrueValues.fieldsFit {entries : List ZipEntry} {archive : List UInt8}
    (hTrue : WritesTrueValues entries archive) (hOk : createStoreOnlyZip entries = .ok archive) :
    FieldsFit entries := by
  have hCount := @endNumber _ _ 8 2 entries.length hOk (by simp [Zip.endFields])
  have hSize := @endNumber _ _ 12 4 (centralSize entries) hOk (by simp [Zip.endFields])
  have hOffset := @endNumber _ _ 16 4 (localSize entries) hOk (by simp [Zip.endFields])
  rw [hTrue.end_count.1] at hCount
  rw [hTrue.end_size] at hSize
  rw [hTrue.end_offset] at hOffset
  constructor
  case count => omega
  case locals => omega
  case directory => omega
  case names =>
    intro entry hMem
    obtain ⟨before, after, rfl⟩ := List.append_of_mem hMem
    have hName := (hTrue.local_name _ _ _ rfl).symm.trans (localNumber hOk nameLength_mem)
    omega

/-- Values that fit are written as they are. -/
theorem FieldsFit.writes {entries : List ZipEntry} {archive : List UInt8} (hFit : FieldsFit entries)
    (hOk : createStoreOnlyZip entries = .ok archive) : WritesTrueValues entries archive := by
  have hData : ∀ entry ∈ entries, entry.bytes.length % 256 ^ 4 = entry.bytes.length :=
    fun entry hMem => Nat.mod_eq_of_lt (Nat.lt_of_le_of_lt (le_localSize hMem) hFit.locals)
  have hName : ∀ entry ∈ entries, entry.nameLength % 256 ^ 2 = entry.nameLength :=
    fun entry hMem => Nat.mod_eq_of_lt (Nat.lt_succ_of_le (hFit.names entry hMem))
  have hCount : entries.length % 256 ^ 2 = entries.length :=
    Nat.mod_eq_of_lt (Nat.lt_succ_of_le hFit.count)
  have hLocals : localSize entries < 256 ^ 4 := hFit.locals
  have hDirectory : centralSize entries < 256 ^ 4 := hFit.directory
  constructor
  case local_size =>
    rintro before entry after rfl
    have hMem : entry ∈ before ++ entry :: after := by simp
    have hFirst := @localNumber _ _ _ _ 18 4 entry.bytes.length hOk
      (by simp [Zip.localFields, Zip.storedHeader, ZipEntry.member])
    have hSecond := @localNumber _ _ _ _ 22 4 entry.bytes.length hOk
      (by simp [Zip.localFields, Zip.storedHeader, ZipEntry.member])
    rw [hData entry hMem] at hFirst hSecond
    exact ⟨hFirst, hSecond⟩
  case local_name =>
    rintro before entry after rfl
    rw [localNumber hOk nameLength_mem, hName entry (by simp)]
  case central_size =>
    rintro before entry after rfl
    have hMem : entry ∈ before ++ entry :: after := by simp
    have hFirst := @centralNumber _ _ _ _ 20 4 entry.bytes.length hOk
      (by simp [Zip.centralFields, Zip.storedHeader, ZipEntry.member])
    have hSecond := @centralNumber _ _ _ _ 24 4 entry.bytes.length hOk
      (by simp [Zip.centralFields, Zip.storedHeader, ZipEntry.member])
    rw [hData entry hMem] at hFirst hSecond
    exact ⟨hFirst, hSecond⟩
  case central_name =>
    rintro before entry after rfl
    have hNumber := @centralNumber _ _ _ _ 28 2 entry.nameLength hOk
      (by simp [Zip.centralFields, Zip.storedHeader, ZipEntry.member, ZipEntry.nameLength])
    rw [hNumber, hName entry (by simp)]
  case central_offset =>
    rintro before entry after rfl
    have hNumber := @centralNumber _ _ _ _ 42 4 (localSize before) hOk (by simp [Zip.centralFields])
    have hBelow : localSize before < 256 ^ 4 := by
      rw [localSize_append] at hLocals
      omega
    rw [hNumber, Nat.mod_eq_of_lt hBelow]
  case end_count =>
    have hFirst := @endNumber _ _ 8 2 entries.length hOk (by simp [Zip.endFields])
    have hSecond := @endNumber _ _ 10 2 entries.length hOk (by simp [Zip.endFields])
    rw [hCount] at hFirst hSecond
    exact ⟨hFirst, hSecond⟩
  case end_size =>
    have hNumber := @endNumber _ _ 12 4 (centralSize entries) hOk (by simp [Zip.endFields])
    rw [hNumber, Nat.mod_eq_of_lt hDirectory]
  case end_offset =>
    have hNumber := @endNumber _ _ 16 4 (localSize entries) hOk (by simp [Zip.endFields])
    rw [hNumber, Nat.mod_eq_of_lt hLocals]

/-- Where every number fits its field, nothing is oversized. -/
theorem FieldsFit.not_oversized {entries : List ZipEntry} (hFit : FieldsFit entries) :
    ¬Oversized entries := by
  rintro (hCount | ⟨entry, hMem, hName⟩ | hData)
  · exact absurd hFit.count (Nat.not_le_of_lt hCount)
  · exact absurd (hFit.names entry hMem) (Nat.not_le_of_lt hName)
  · have := sum_bytes_le entries
    have := hFit.locals
    omega

/-- An archive is made of everything but nothing. -/
theorem fieldsFit_of_neverWraps {entries : List ZipEntry} (h : NeverWraps entries) :
    FieldsFit entries := by
  by_cases hSome : entries = []
  · subst hSome
    exact { count := by simp, names := by simp, locals := by decide, directory := by decide }
  · have hOk := createStoreOnlyZip_eq hSome
    exact (h.1 _ hOk).fieldsFit hOk

/-- The numbers of an archive are true, and what has none is refused, exactly for the
lists whose numbers fit; every other list but the empty one is archived too. -/
theorem zip_never_wraps_iff (entries : List ZipEntry) : NeverWraps entries ↔ FieldsFit entries :=
  ⟨fieldsFit_of_neverWraps,
    fun hFit => ⟨fun _ hOk => hFit.writes hOk, fun hOver => absurd hOver hFit.not_oversized⟩⟩

/-- One file more than a directory of 16-bit counts can hold. -/
private def manyFiles : List ZipEntry := List.replicate 65536 ⟨"a", []⟩

/-- The archive of 65536 files says that it holds none. -/
theorem manyFiles_wrapped : ¬NeverWraps manyFiles ∧
    ∃ archive, createStoreOnlyZip manyFiles = .ok archive ∧
      numberAt archive (localSize manyFiles + centralSize manyFiles + 10) 2 = 0 := by
  have hCount : manyFiles.length = 65536 := List.length_replicate
  constructor
  · intro h
    have := (fieldsFit_of_neverWraps h).count
    omega
  · have hSome : manyFiles ≠ [] := List.ne_nil_of_length_pos (by omega)
    refine ⟨_, createStoreOnlyZip_eq hSome, ?_⟩
    have hNumber := @endNumber _ _ 10 2 manyFiles.length (createStoreOnlyZip_eq hSome)
      (by simp [Zip.endFields])
    rw [hNumber, hCount]
    rfl

end Limits

end AltSendme.Frontend
