import AltSendme.Android.CopyUtils

/-! The events of a copy as the frontend reads them (`bindCopyChannel` in
`nativeUtils.ts`). Which handler an event is for is told from its progress and from
whether it names a path. -/
namespace AltSendme.Android
open Float.Model

/-- A message on the channel. Numbers of bytes travel as decimal strings. -/
structure CopyMessage where
  copiedBytes : Int
  totalBytes : Int
  progress : Float32.Model
  cachedPath : Option String
  error : Option String

def CopyProgress.toJSObject (p : CopyProgress) : CopyMessage :=
  ⟨p.copiedBytes.toInt, p.totalBytes.toInt, p.progress, p.cachedPath, none⟩

def failureMessage (failure : Failure) : CopyMessage :=
  ⟨0, 0, Float32.Model.ofInt (-1), none, some (failure.getD "Failed to copy shared file")⟩

/-- What `startUriCopy` sends for a copy. -/
def channelMessages (run : CopyRun) : List CopyMessage :=
  run.events.map CopyProgress.toJSObject ++ (run.error.map failureMessage).toList

inductive CopyCall where
  | onStart (path : String) (size : Int)
  | onEvent (event : CopyMessage)
  | onComplete (path : String)
  | onError (message : String)

/-- An absent or empty text counts as false. -/
def bindCopyChannel (event : CopyMessage) : CopyCall :=
  if event.error.getD "" ≠ "" then .onError (event.error.getD "")
  else if event.cachedPath.getD "" ≠ "" ∧ event.progress == Float32.Model.ofInt 0 then
    .onStart (event.cachedPath.getD "") event.totalBytes
  else if event.cachedPath.getD "" ≠ "" ∧ Float32.Model.ofInt 1 ≤ event.progress then
    .onComplete (event.cachedPath.getD "")
  else .onEvent event

def handlerCalls (run : CopyRun) : List CopyCall := (channelMessages run).map bindCopyChannel

/-- One start, then events, then one completion, both with the path. -/
def StartsAndFinishesOnce (path : String) (calls : List CopyCall) : Prop :=
  ∃ size events, calls = .onStart path size :: events ++ [.onComplete path] ∧
    ∀ call ∈ events, ∃ event, call = .onEvent event

/-- Where the copied item is put. -/
def copiedPath (shared : SharedUri) (currentTimeMillis : Nat) (destination : JavaFile) : String :=
  match shared with
  | .document document =>
      (destination.resolve (.ofPath (resolveDisplayName document currentTimeMillis))).absolutePath
  | .tree _ sourceRoot =>
      (destination.resolve (.ofPath ((sourceRoot.bind TreeRoot.name).getD ""))).absolutePath

/-- The bytes a document yields, in a `Long`. -/
def SharedDocument.bytesRead (document : SharedDocument) : Int64 :=
  match document.reading with
  | .read chunks _ => chunks.foldl addBytes 0
  | _ => 0

/-- A document declares a size above zero or yields bytes; the declared sizes of the
files of a tree do not add up to zero. Sums are those of a `Long`. -/
def HasBytes : SharedUri → Prop
  | .document document =>
      0 < resolveContentLength document ∨ document.bytesRead ≠ 0
  | .tree _ sourceRoot =>
      sumOfLengths (walkFilesWithPath "" ((sourceRoot.map TreeRoot.listFiles).getD [])) ≠ 0

section Decoding

/-- A file's absolute path is never empty. -/
theorem absolutePath_ne_empty (file : JavaFile) : file.absolutePath ≠ "" := by
  intro hEmpty
  have hChars := congrArg String.toList hEmpty
  simp [JavaFile.absolutePath] at hChars

/-- A size other than nought is a finite float. -/
theorem finite_ofInt64 {n : Int64} (h : n ≠ 0) : Binary32.Finite (Float32.Model.ofInt64 n) := by
  have hNonzero : n.toInt ≠ 0 := by
    intro hZero
    exact h (Int64.toInt_inj.mp hZero)
  refine Binary32.finite_ofInt hNonzero ?_
  have hLow := n.le_toInt
  have hHigh := n.toInt_lt
  omega

variable {p : CopyProgress} {path : String}

/-- Before the first byte the progress is nought, whatever the total. -/
theorem progress_start (hNothing : p.copiedBytes = 0) :
    (p.progress == Float32.Model.ofInt 0) = true := by
  unfold CopyProgress.progress
  split
  · rfl
  · next hTotal =>
      obtain ⟨sign, hZero⟩ := Binary32.zero_div (finite_ofInt64 hTotal)
      rw [hNothing]
      show UnpackedFloat.beq (Float32.Model.ofInt 0 / Float32.Model.ofInt64 p.totalBytes).unpack
        (Float32.Model.ofInt 0).unpack = true
      rw [hZero, Binary32.unpack_zero]
      rfl

/-- With all bytes copied the progress is one. -/
theorem progress_end (hAll : p.copiedBytes = p.totalBytes) (hTotal : p.totalBytes ≠ 0) :
    p.progress = Float32.Model.ofInt 1 := by
  rw [CopyProgress.progress, if_neg hTotal, hAll]
  exact Binary32.div_self (finite_ofInt64 hTotal)

/-- A report with a path and no progress is taken as the start. -/
theorem bind_start (hPath : p.cachedPath = some path) (hSome : path ≠ "")
    (hNothing : p.copiedBytes = 0) :
    bindCopyChannel p.toJSObject = .onStart path p.totalBytes.toInt := by
  simp [bindCopyChannel, CopyProgress.toJSObject, hPath, hSome, progress_start hNothing]

/-- A report with a path and all bytes copied is taken as the end. -/
theorem bind_end (hPath : p.cachedPath = some path) (hSome : path ≠ "")
    (hAll : p.copiedBytes = p.totalBytes) (hTotal : p.totalBytes ≠ 0) :
    bindCopyChannel p.toJSObject = .onComplete path := by
  have hNotZero : (Float32.Model.ofInt 1 == Float32.Model.ofInt 0) = false := by decide
  have hOne : Float32.Model.ofInt 1 ≤ Float32.Model.ofInt 1 := by decide
  simp [bindCopyChannel, CopyProgress.toJSObject, hPath, hSome, progress_end hAll hTotal, hNotZero,
    hOne]

/-- A report without a path is an event like any other. -/
theorem bind_event (hPath : p.cachedPath = none) :
    bindCopyChannel p.toJSObject = .onEvent p.toJSObject := by
  simp [bindCopyChannel, CopyProgress.toJSObject, hPath]

end Decoding

section Events

/-- A copy that ends without an exception: its first event, those without a path, and
the last. -/
theorem startsAndFinishesOnce_iff {run : CopyRun} {total finalTotal : Int64} {path : String}
    {events : List CopyProgress} (hSome : path ≠ "") (hError : run.error = none)
    (hEvents : run.events =
      ⟨0, total, some path⟩ :: events ++ [⟨finalTotal, finalTotal, some path⟩])
    (hPlain : ∀ p ∈ events, p.cachedPath = none) :
    StartsAndFinishesOnce path (handlerCalls run) ↔ finalTotal ≠ 0 := by
  have hFirst := @bind_start ⟨0, total, some path⟩ path rfl hSome rfl
  have hCalls : handlerCalls run = .onStart path total.toInt ::
      events.map (fun p => bindCopyChannel p.toJSObject) ++
        [bindCopyChannel (CopyProgress.toJSObject ⟨finalTotal, finalTotal, some path⟩)] := by
    simp [handlerCalls, channelMessages, hError, hEvents, hFirst, Function.comp_def]
  constructor
  · rintro ⟨size, calls, hEq, -⟩ rfl
    have hLast := @bind_start ⟨0, 0, some path⟩ path rfl hSome rfl
    rw [hCalls, hLast] at hEq
    have hEnd := congrArg List.getLast? hEq
    rw [List.getLast?_concat, List.getLast?_concat] at hEnd
    cases hEnd
  · intro hTotal
    have hLast := @bind_end ⟨finalTotal, finalTotal, some path⟩ path rfl hSome rfl hTotal
    refine ⟨total.toInt, events.map fun p => bindCopyChannel p.toJSObject, ?_, ?_⟩
    · rw [hCalls, hLast]
    · intro call hCall
      obtain ⟨p, hMem, rfl⟩ := List.mem_map.mp hCall
      exact ⟨p.toJSObject, bind_event (hPlain p hMem)⟩

/-- The reports of the reads carry no path. -/
theorem copyReads_plain (totalBytes copiedBytes : Int64) (chunks : List Nat) :
    ∀ p ∈ copyReads totalBytes copiedBytes chunks, p.cachedPath = none := by
  induction chunks generalizing copiedBytes with
  | nil => simp [copyReads]
  | cons bytesRead rest ih =>
      intro p hMem
      rcases List.mem_cons.mp hMem with rfl | hMem
      · rfl
      · exact ih _ p hMem

/-- What a stretch of the loop adds to the events names no path. -/
def AddsPlain (s t : TreeCopy) : Prop :=
  ∃ more, t.events = s.events ++ more ∧ ∀ p ∈ more, p.cachedPath = none

theorem AddsPlain.refl (s : TreeCopy) : AddsPlain s s := ⟨[], by simp, by simp⟩

theorem AddsPlain.trans {s t u : TreeCopy} (hFirst : AddsPlain s t) (hSecond : AddsPlain t u) :
    AddsPlain s u := by
  obtain ⟨more, hMore, hPlain⟩ := hFirst
  obtain ⟨rest, hRest, hPlain'⟩ := hSecond
  refine ⟨more ++ rest, by rw [hRest, hMore, List.append_assoc], ?_⟩
  intro p hMem
  rcases List.mem_append.mp hMem with hMem | hMem
  · exact hPlain p hMem
  · exact hPlain' p hMem

/-- Reading a file adds events only. -/
theorem addsPlain_reads (totalBytes : Int64) (chunks : List Nat) (s : TreeCopy) :
    AddsPlain s (chunks.foldl (TreeCopy.read totalBytes) s) := by
  induction chunks generalizing s with
  | nil => exact AddsPlain.refl s
  | cons bytesRead rest ih =>
      refine AddsPlain.trans ?_ (ih _)
      unfold TreeCopy.read
      dsimp only
      split
      · exact ⟨[_], rfl, by simp⟩
      · exact ⟨[], by simp, by simp⟩

/-- Copying a tree adds events only. -/
theorem addsPlain_copyFiles (targetFolder : JavaFile) (totalBytes : Int64) (s : TreeCopy)
    (files : List (TreeFile × String)) :
    AddsPlain s (copyFiles targetFolder totalBytes s files).1 := by
  induction files generalizing s with
  | nil => exact AddsPlain.refl s
  | cons entry rest ih =>
      obtain ⟨file, relativePath⟩ := entry
      rw [copyFiles]
      dsimp only
      split
      · exact AddsPlain.refl s
      · exact AddsPlain.refl s
      · exact AddsPlain.refl s
      · exact AddsPlain.refl s
      · next chunks failure _ _ _ =>
          have hReads := addsPlain_reads totalBytes chunks
            { s with created := s.created ++ [targetFolder.resolve (.ofPath relativePath)] }
          split
          · exact hReads
          · exact AddsPlain.trans hReads (ih _)

end Events

/-- The size a document's last event gives is zero only for an empty one. -/
theorem finalTotal_ne_zero_iff {totalBytes copiedBytes : Int64} :
    (if 0 < totalBytes then totalBytes else copiedBytes) ≠ 0 ↔
      0 < totalBytes ∨ copiedBytes ≠ 0 := by
  split
  · next hPositive =>
      refine ⟨fun _ => Or.inl hPositive, ?_⟩
      rintro - rfl
      exact Int64.lt_irrefl hPositive
  · next hNone => simp [hNone]

/-- A copy that runs without error starts once, first, and completes once, last, exactly
when there is something to copy: for nothing, the last event reads as a second start. -/
theorem copy_starts_and_finishes_once_iff {shared : SharedUri} {currentTimeMillis : Nat}
    {destination : JavaFile} (hOk : (copyUri shared currentTimeMillis destination).error = none) :
    StartsAndFinishesOnce (copiedPath shared currentTimeMillis destination)
      (handlerCalls (copyUri shared currentTimeMillis destination)) ↔ HasBytes shared := by
  cases shared with
  | document document =>
      rw [HasBytes, ← finalTotal_ne_zero_iff]
      cases hParent : (destination.resolve
          (.ofPath (resolveDisplayName document currentTimeMillis))).parentFile with
      | none => simp [copyUri, copyDocument, hParent] at hOk
      | some parent =>
          cases hReading : document.reading with
          | noStream => simp [copyUri, copyDocument, hParent, hReading] at hOk
          | refused failure => simp [copyUri, copyDocument, hParent, hReading] at hOk
          | read chunks failure =>
              cases failure with
              | some failure => simp [copyUri, copyDocument, hParent, hReading] at hOk
              | none =>
                  have hBytes : document.bytesRead = chunks.foldl addBytes 0 := by
                    simp [SharedDocument.bytesRead, hReading]
                  have hEvents :
                      (copyUri (.document document) currentTimeMillis destination).events =
                      ⟨0, resolveContentLength document,
                        some (copiedPath (.document document) currentTimeMillis destination)⟩ ::
                        copyReads (resolveContentLength document) 0 chunks ++
                      [⟨if 0 < resolveContentLength document then resolveContentLength document
                        else document.bytesRead, if 0 < resolveContentLength document then
                        resolveContentLength document else document.bytesRead,
                        some (copiedPath (.document document) currentTimeMillis destination)⟩] := by
                    simp [copyUri, copyDocument, hParent, hReading, hBytes, copiedPath]
                  exact startsAndFinishesOnce_iff (absolutePath_ne_empty _) hOk hEvents
                    (copyReads_plain _ _ _)
  | tree uri sourceRoot =>
      match sourceRoot, hOk with
      | none, hOk => simp [copyUri, copyUriTreeWithProgress] at hOk
      | some ⟨none, _, _⟩, hOk => simp [copyUri, copyUriTreeWithProgress] at hOk
      | some ⟨some _, false, _⟩, hOk => simp [copyUri, copyUriTreeWithProgress] at hOk
      | some ⟨some folderName, true, listFiles⟩, hOk =>
          have hAdded := addsPlain_copyFiles (destination.resolve (.ofPath folderName))
            (sumOfLengths (walkFilesWithPath "" listFiles))
            ⟨0, Float32.Model.ofInt64 0, [⟨0, sumOfLengths (walkFilesWithPath "" listFiles),
              some (destination.resolve (.ofPath folderName)).absolutePath⟩], []⟩
            (walkFilesWithPath "" listFiles)
          obtain ⟨more, hMore, hPlain⟩ := hAdded
          have hEvents : (copyUri (.tree uri (some ⟨some folderName, true, listFiles⟩))
              currentTimeMillis destination).events =
              ⟨0, sumOfLengths (walkFilesWithPath "" listFiles),
                some (destination.resolve (.ofPath folderName)).absolutePath⟩ :: more ++
              [⟨sumOfLengths (walkFilesWithPath "" listFiles),
                sumOfLengths (walkFilesWithPath "" listFiles),
                some (destination.resolve (.ofPath folderName)).absolutePath⟩] := by
            simp only [copyUri, copyUriTreeWithProgress, if_true] at hOk hMore ⊢
            generalize copyFiles _ _ _ _ = outcome at hOk hMore ⊢
            obtain ⟨copied, failure⟩ := outcome
            cases failure with
            | some failure => cases hOk
            | none =>
                dsimp only at hMore ⊢
                rw [hMore]
                rfl
          exact startsAndFinishesOnce_iff (absolutePath_ne_empty _) hOk hEvents hPlain

private def cacheFolderOf : JavaFile := ⟨true, ["cache", "file_cache", "1700000000000"]⟩

private def sharedText (chunks : List Nat) : SharedDocument :=
  { uri := "content://other.app/1", name := some "a.txt", queriedName := none,
    lastPathSegment := some "1", length := some 0, queriedSize := none,
    reading := .read chunks none }

theorem copy_starts_and_finishes_once_iff_sharedText :
    StartsAndFinishesOnce (copiedPath (.document (sharedText [5, 3])) 0 cacheFolderOf)
      (handlerCalls (copyUri (.document (sharedText [5, 3])) 0 cacheFolderOf)) :=
  (copy_starts_and_finishes_once_iff (by decide)).mpr (Or.inr (by decide))

/-- An empty document is copied, and nobody is told that it is there. -/
theorem emptyText_not_completed :
    (copyUri (.document (sharedText [])) 0 cacheFolderOf).error = none ∧
      ¬StartsAndFinishesOnce (copiedPath (.document (sharedText [])) 0 cacheFolderOf)
        (handlerCalls (copyUri (.document (sharedText [])) 0 cacheFolderOf)) := by
  refine ⟨by decide, ?_⟩
  have hEvents : (copyUri (.document (sharedText [])) 0 cacheFolderOf).events =
      ⟨0, 0, some (copiedPath (.document (sharedText [])) 0 cacheFolderOf)⟩ :: [] ++
        [⟨0, 0, some (copiedPath (.document (sharedText [])) 0 cacheFolderOf)⟩] := by decide
  have hSome : copiedPath (.document (sharedText [])) 0 cacheFolderOf ≠ "" :=
    absolutePath_ne_empty _
  rw [startsAndFinishesOnce_iff hSome (by decide) hEvents (by simp)]
  exact fun hTotal => hTotal rfl

end AltSendme.Android
