import AltSendme.Protocol.SenderProgress

/-! Which bytes the sender counts. A share is sent as the list of its hashes,
the blob of its names and its files, and only the first of these is ever left
out, for directories and collections; the rest before the files counts as payload. -/
namespace AltSendme.ProvideProgress
open Execution

/-- The files follow the list of hashes and the names. -/
def isFileBlob (index : UInt64) : Bool := 2 ≤ index

/-- The blobs before the files that the sender counts. -/
def isCountedMetadata (entryType : String) (index : UInt64) : Bool :=
  isCounted entryType index && !isFileBlob index

/-- The bytes of the files that a request has sent. -/
def fileBytes (us : List RequestUpdate) : Nat := sentBytes isFileBlob us

/-- The bytes counted for a request that are not of its files. -/
def metadataBytes (entryType : String) (us : List RequestUpdate) : Nat :=
  sentBytes (isCountedMetadata entryType) us

/-- All that is counted for a request was sent of its files, and it counts as
complete only with 95 percent of them. -/
structure CountsPayload (total : UInt64) (entryType : String) (t : Nat) (ls : List Label)
    (c : State) : Prop where
  reported : ∀ n ∈ reportedCounts total entryType t ls, n ≤ fileBytes (updatesOf t ls)
  accounted : ∀ r ∈ c.requests[t]?, r.isSizesProbe = false → r.transferStarted = true →
    ∀ s ∈ c.shared.getState r.key, s.accountedPayloadBytes.toNat ≤ fileBytes (updatesOf t ls)
  complete : ∀ r ∈ c.requests[t]?, ∀ bytesSent, r.ended = some (.complete bytesSent) →
    total.toNat * 95 ≤ fileBytes (updatesOf t ls) * 100

section
variable {r : Request} {total : UInt64} {entryType : String} {us : List RequestUpdate}
  {c : State} {t : Nat} {ls : List Label}

theorem isCounted_eq (entryType : String) (index : UInt64) :
    isCounted entryType index = (isCountedMetadata entryType index || isFileBlob index) := by
  cases hFile : isFileBlob index with
  | false => simp [isCountedMetadata, hFile]
  | true =>
      have hNotZero : index ≠ 0 := by
        rintro rfl
        exact absurd hFile (by decide)
      simp [isCounted, Request.isMetadataBlob, hNotZero]

/-- Disjoint selections add up. -/
theorem Sent.bytes_add {counts left right : UInt64 → Bool}
    (hEither : ∀ index, counts index = (left index || right index))
    (hBoth : ∀ index, (left index && right index) = false) (s : Sent) :
    s.bytes counts = s.bytes left + s.bytes right := by
  have hOne (index : UInt64) (n : Nat) : (if counts index then n else 0) =
      (if left index then n else 0) + if right index then n else 0 := by
    have hNot := hBoth index
    rw [hEither]
    cases hLeft : left index <;> cases hRight : right index <;> simp_all
  have hDone (blobs : List Blob) :
      blobBytes counts blobs = blobBytes left blobs + blobBytes right blobs := by
    induction blobs with
    | nil => rfl
    | cons blob blobs ih =>
        simp only [blobBytes, List.map_cons, List.sum_cons] at ih ⊢
        rw [ih, hOne]
        omega
  rw [bytes, bytes, bytes, hDone]
  cases s.current with
  | none => simp
  | some blob =>
      have hCurrent := hOne blob.1 s.offset
      simp only [Option.any_some]
      omega

theorem countedBytes_eq (total : UInt64) (entryType : String) (us : List RequestUpdate) :
    countedBytes total entryType us =
      min (metadataBytes entryType us + fileBytes us) total.toNat := by
  rw [countedBytes, sentBytes, Sent.bytes_add (isCounted_eq entryType) fun index => ?_]
  · rfl
  · simp [isCountedMetadata]

/-- Without metadata bytes only those of the files are counted. -/
theorem countedBytes_le_fileBytes (hNone : total = 0 ∨ metadataBytes entryType us = 0) :
    countedBytes total entryType us ≤ fileBytes us := by
  rw [countedBytes_eq]
  rcases hNone with rfl | hNone
  · exact (Nat.min_le_right _ _).trans (Nat.zero_le _)
  · rw [hNone]
    omega

/-- What is reported for a request is at most what its updates have come to. -/
theorem reportedCounts_le (hRun : exec (step total entryType) State.idle ls = some c)
    (hOwn : OwnKey t c) : ∀ n ∈ reportedCounts total entryType t ls,
      n ≤ countedBytes total entryType (updatesOf t ls) := by
  refine @exec_history _ _ (step total entryType)
    (fun ls c => OwnKey t c → ∀ n ∈ reportedCounts total entryType t ls,
      n ≤ countedBytes total entryType (updatesOf t ls)) State.idle (fun _ => nofun) ?_ ls c hRun
    hOwn
  intro ls m l d hPrior hBounded hStep hAfter n hn
  rw [reportedCounts, outputs_concat hPrior hStep] at hn
  rcases List.mem_append.mp hn with hOld | hNew
  · have hMore := countedBytes_le_append total entryType (updatesOf t ls) (updatesOf t [l])
    rw [updatesOf_append]
    exact (hBounded (hAfter.before hStep) n hOld).trans hMore
  · rcases step_counts hPrior hStep hAfter with hNone | ⟨k, hOne, hLe, _⟩
    · rw [hNone] at hNew
      cases hNew
    · rw [hOne] at hNew
      rw [List.mem_singleton.mp hNew]
      exact hLe

/-- The state never holds more than the updates have come to. -/
theorem Metered.accounted {entry : Option TransferState} (h : Metered total entryType us entry r)
    (hStarted : r.transferStarted = true) {s : TransferState} (hEntry : entry = some s) :
    s.accountedPayloadBytes.toNat ≤ countedBytes total entryType us := by
  cases h with
  | fresh _ _ _ hNot _ _ => cases hNot.symm.trans hStarted
  | live s' entered hUpdates _ _ _ hSame hMeter =>
      obtain rfl := Option.some.inj (hSame.symm.trans hEntry)
      rw [hUpdates]
      exact hMeter.accounted_le.trans (countedBytes_le_append total entryType _ _)
  | removing _ _ _ _ _ hBytes => exact hBytes s hEntry
  | ended _ _ _ _ _ hBytes => exact hBytes s hEntry

theorem Metered.complete {entry : Option TransferState} (h : Metered total entryType us entry r)
    {bytesSent : UInt64} (hEnded : r.ended = some (.complete bytesSent)) :
    bytesSent.toNat ≤ countedBytes total entryType us ∧
      transferPayloadComplete bytesSent total = true := by
  cases h with
  | fresh _ _ _ _ _ hNone => cases hNone.symm.trans hEnded
  | live _ _ _ _ _ hNone _ _ => cases hNone.symm.trans hEnded
  | removing _ _ _ hNone _ _ => cases hNone.symm.trans hEnded
  | ended how _ hSame hHow _ _ => exact hHow bytesSent (Option.some.inj (hSame.symm.trans hEnded))

/-- In every run in which no metadata of the request is counted, what is counted
for it is payload. -/
theorem counted_bytes_are_payload (hRun : exec (step total entryType) State.idle ls = some c)
    (hOwn : OwnKey t c)
    (hPayload : total = 0 ∨ metadataBytes entryType (updatesOf t ls) = 0)
    (hExact : fileBytes (updatesOf t ls) * 100 < 2 ^ 64 - 1 ∨ total.toNat * 95 < 2 ^ 64) :
    CountsPayload total entryType t ls c := by
  have hFiles := countedBytes_le_fileBytes hPayload
  have hMetered {r : Request} (hr : c.requests[t]? = some r) (hKind : r.isSizesProbe = false) :
      Metered total entryType (updatesOf t ls) (c.shared.getState r.key) r := by
    rcases meteredAt_run hRun hOwn with ⟨hNone, _⟩ | ⟨q, hq, hMetered⟩
    · cases hNone.symm.trans hr
    · obtain rfl := Option.some.inj (hq.symm.trans hr)
      exact hMetered hKind
  refine ⟨fun n hn => (reportedCounts_le hRun hOwn n hn).trans hFiles, ?_, ?_⟩
  · intro r hr hKind hStarted s hs
    exact ((hMetered hr hKind).accounted hStarted hs).trans hFiles
  · intro r hr bytesSent hEnded
    have hKind : r.isSizesProbe = false := by
      cases hProbe : r.isSizesProbe with
      | false => rfl
      | true =>
          have hConsistent := (balanced_run hRun).consistent r (List.mem_of_getElem? hr)
          cases (hConsistent.probe hProbe).1.symm.trans hEnded
    obtain ⟨hCounted, hJudged⟩ := (hMetered hr hKind).complete hEnded
    have hLe := hCounted.trans hFiles
    have hNotBoth : NotBothSaturate bytesSent total :=
      hExact.imp (fun hFew => by omega) id
    have hNearly : NearlyAll bytesSent total := nearlyAll_of_complete hNotBoth hJudged
    rw [NearlyAll] at hNearly
    omega

end

section

private def enters (now : Nat) (u : RequestUpdate) : List Label :=
  [⟨now, .turn 0 (.update u)⟩, ⟨now, .turn 0 .go⟩]

/-- Two files of 500 bytes, asked for without the names. -/
private def filesOnly : List Label :=
  ⟨0, .message (.getRequestReceived (1, 1) false)⟩ :: enters 0 (.started 0 96) ++
    ⟨0, .turn 0 .go⟩ :: enters 1 (.started 2 500) ++ enters 2 (.progress 500) ++
    enters 3 (.started 3 500) ++ enters 4 (.progress 200)

theorem counted_bytes_are_payload_filesOnly : ∃ c,
    exec (step 1000 "collection") State.idle filesOnly = some c ∧
      CountsPayload 1000 "collection" 0 filesOnly c := by
  have hRuns : ∃ c, exec (step 1000 "collection") State.idle filesOnly = some c ∧ OwnKey 0 c := by
    decide
  obtain ⟨c, hRun, hOwn⟩ := hRuns
  exact ⟨c, hRun, counted_bytes_are_payload hRun hOwn (by decide) (by decide)⟩

/-- Two files of five bytes: the names alone reach the total, and the request
that stops before the files counts as complete. -/
private def namesOnly : List Label :=
  ⟨0, .message (.getRequestReceived (1, 1) false)⟩ :: enters 0 (.started 0 96) ++
    ⟨0, .turn 0 .go⟩ :: enters 1 (.started 1 60) ++ enters 2 (.progress 60) ++
    enters 3 (.started 2 5) ++ [⟨4, .turn 0 .closed⟩, ⟨4, .turn 0 .go⟩]

theorem counted_bytes_are_names :
    ¬∀ (total : UInt64) (entryType : String) (t : Nat) (ls : List Label) (c : State),
      exec (step total entryType) State.idle ls = some c → OwnKey t c →
        (∀ n ∈ reportedCounts total entryType t ls, n ≤ fileBytes (updatesOf t ls)) ∨
          ∀ r ∈ c.requests[t]?, ∀ bytesSent, r.ended = some (.complete bytesSent) →
            total.toNat * 95 ≤ fileBytes (updatesOf t ls) * 100 := by
  intro h
  have hRuns : ∃ c, exec (step 10 "collection") State.idle namesOnly = some c ∧ OwnKey 0 c ∧
      ∃ r ∈ c.requests[0]?, r.ended = some (.complete 10) := by
    decide
  obtain ⟨c, hRun, hOwn, r, hr, hEnded⟩ := hRuns
  have hNone : fileBytes (updatesOf 0 namesOnly) = 0 := by decide
  rcases h 10 "collection" 0 namesOnly c hRun hOwn with hReported | hComplete
  · have hCount := hReported 10 (by decide)
    rw [hNone] at hCount
    exact absurd hCount (by decide)
  · have hNearly := hComplete r hr 10 hEnded
    rw [hNone] at hNearly
    exact absurd hNearly (by decide)

end

end AltSendme.ProvideProgress
