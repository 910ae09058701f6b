import AltSendme.Protocol.Framing

/-! The preview a receiver asks for before it downloads (`fetch_metadata` in
`receive.rs`): three connections at most to the addresses of a ticket, the last
of them over relays alone where the ticket names one. -/
namespace AltSendme
open Wire

inductive TransportAddr where
  | relay (url : String)
  | ip (address : String)
  | custom (address : String)
  deriving DecidableEq, Repr

namespace TransportAddr

def isRelay : TransportAddr → Bool
  | relay _ => true
  | _ => false

def isIp : TransportAddr → Bool
  | ip _ => true
  | _ => false

end TransportAddr

inductive AddrInfoOptions where
  | id
  | relayAndAddresses
  | relay
  | addresses
  deriving DecidableEq, Repr

/-- The addresses of an endpoint that a ticket of the chosen kind carries. -/
def applyOptions (addrs : List TransportAddr) : AddrInfoOptions → List TransportAddr
  | .id => []
  | .relayAndAddresses => addrs
  | .relay => addrs.filter (·.isRelay)
  | .addresses => addrs.filter (·.isIp)

/-- The kinds of address that a ticket of the chosen kind gives away. -/
def AddrInfoOptions.discloses : AddrInfoOptions → TransportAddr → Bool
  | .id, _ => false
  | .relayAndAddresses, _ => true
  | .relay, t => t.isRelay
  | .addresses, t => t.isIp

/-- An address is disclosed exactly if the option allows its kind. -/
theorem mem_applyOptions {addrs : List TransportAddr} {kind : AddrInfoOptions} {t : TransportAddr} :
    t ∈ applyOptions addrs kind ↔ t ∈ addrs ∧ kind.discloses t = true := by
  cases kind with
  | id => simp [applyOptions, AddrInfoOptions.discloses]
  | relayAndAddresses => simp [applyOptions, AddrInfoOptions.discloses]
  | relay => simp [applyOptions, AddrInfoOptions.discloses]
  | addresses => simp [applyOptions, AddrInfoOptions.discloses]

/-- One entry of `attempt_plan`. -/
structure FetchAttempt where
  attempt : Nat
  path : String
  targetAddr : List TransportAddr
  deriving DecidableEq, Repr

def attemptPlan (addr : List TransportAddr) : List FetchAttempt :=
  let relayOnlyAddr := addr.filter (·.isRelay)
  [⟨1, "default", addr⟩, ⟨2, "default", addr⟩,
    if relayOnlyAddr.isEmpty then ⟨3, "default", addr⟩ else ⟨3, "relay-only", relayOnlyAddr⟩]

inductive FetchError where
  /-- The transport's own error. -/
  | transport
  | timeout (text : String)
  | metadata (e : MetadataError)
  | text (text : String)
  deriving DecidableEq, Repr

/-- A failed await of the receiver, with the text of its timeout. -/
def Stopped.fetchError (text : String) : Stopped → FetchError
  | .failed => .transport
  | .timedOut => .timeout text

/-- What the awaits of one attempt are answered with, in their order. No reply
is one that did not come in time. -/
structure FetchAnswers where
  connect : Except Stopped Unit
  openBi : Except Stopped Unit
  request : WriteAnswer Stopped
  reply : Option Incoming

/-- The body of the loop of `fetch_metadata`. -/
def fetchOnce (serde : Serde FileMetadata) (answers : FetchAnswers) :
    Except FetchError FileMetadata := do
  answers.connect.mapError (·.fetchError "metadata connect timeout")
  answers.openBi.mapError (·.fetchError "metadata open_bi timeout")
  answers.request.result (·.fetchError "metadata request write timeout")
  match answers.reply with
  | none => throw (.timeout "metadata read timeout")
  | some stream =>
      match (receiveMetadata serde false).read stream with
      | .error e => throw (.metadata e)
      | .ok (received, _) => pure received.metadata

inductive FetchAction where
  | bind (dnsLookup : Bool)
  | connect (path : String) (targetAddr : List TransportAddr)
  | sleep (millis : Nat)
  | close
  deriving DecidableEq, Repr

def FetchAttempt.action (a : FetchAttempt) : FetchAction := .connect a.path a.targetAddr

/-- The loop, with `last_error` as it stands and what each attempt is answered with. -/
def fetchAttempts (serde : Serde FileMetadata) (answers : Nat → FetchAnswers) :
    List FetchAttempt → Option FetchError → List FetchAction × Except FetchError FileMetadata
  | [], lastError => ([.close], .error (lastError.getD (.text "metadata fetch failed")))
  | a :: plan, _ =>
      match fetchOnce serde (answers a.attempt) with
      | .ok metadata => ([a.action, .close], .ok metadata)
      | .error err =>
          let more := fetchAttempts serde answers plan (some err)
          (a.action :: (if a.attempt < 3 then [.sleep 300] else []) ++ more.1, more.2)

/-- What happens before the first attempt: the ticket's addresses, the secret
key and the endpoint, each of which may fail. -/
structure FetchSetup where
  ticket : Option (List TransportAddr)
  secretKey : Bool
  bindAddr : Bool
  bound : Bool

/-- Everything before the first attempt went well. -/
def FetchSetup.ready (setup : FetchSetup) : Bool :=
  setup.ticket.isSome && setup.secretKey && setup.bindAddr && setup.bound

def fetchMetadata (serde : Serde FileMetadata) (setup : FetchSetup)
    (answers : Nat → FetchAnswers) : List FetchAction × Except FetchError FileMetadata :=
  match setup.ticket with
  | none => ([], .error .transport)
  | some addr =>
      if setup.secretKey ∧ setup.bindAddr then
        let dnsLookup := (addr.filter (·.isRelay)).isEmpty && (addr.filter (·.isIp)).isEmpty
        if setup.bound then
          let fetched := fetchAttempts serde answers (attemptPlan addr) none
          (.bind dnsLookup :: fetched.1, fetched.2)
        else ([.bind dnsLookup], .error .transport)
      else ([], .error .transport)

section
variable {serde : Serde FileMetadata} {metadata : Option FileMetadata}

/-- The attempt's request went out in time and the whole of the sender's
metadata came back in time. -/
def GotThrough (serde : Serde FileMetadata) (metadata : Option FileMetadata)
    (answers : FetchAnswers) : Prop :=
  answers.connect = .ok () ∧ answers.openBi = .ok () ∧ answers.request = .done ∧
    ∃ stream m body, answers.reply = some stream ∧ metadata = some m ∧
      Admits serde m body ∧ stream.bytes = frame body

/-- What an attempt fails with that reached nobody, or whose answer was cut. -/
def FetchError.IsLoss : FetchError → Prop
  | .transport | .timeout _ => True
  | .metadata e => e.IsTruncation
  | .text _ => False

/-- A sender without metadata sends nothing at all. -/
theorem accept_none (connection : MetadataConnection) :
    (MetadataProtocol.accept serde none connection).1 = [] := by
  unfold MetadataProtocol.accept
  cases hBi : connection.acceptBi with
  | error why => cases why <;> rfl
  | ok streams =>
      cases hRequest : connection.request with
      | error why => rfl
      | ok req =>
          dsimp only
          have hRefused : ∃ e, MetadataProtocol.payload serde none req = .error e := by
            unfold MetadataProtocol.payload
            split
            · exact ⟨_, rfl⟩
            · exact ⟨_, rfl⟩
          obtain ⟨e, hPayload⟩ := hRefused
          rw [hPayload]

/-- What a receiver makes of any part of a sender's answer: the sender's own
metadata when the answer is whole, and otherwise an early end. -/
theorem receiveMetadata_read (hSerde : serde.RoundTrips) {connection : MetadataConnection}
    {stream : Incoming}
    (hPart : stream.bytes <+: (MetadataProtocol.accept serde metadata connection).1) :
    (∃ m body rest, metadata = some m ∧ Admits serde m body ∧ stream.bytes = frame body ∧
      (receiveMetadata serde false).read stream = .ok (.of serde false m, rest)) ∨
    ((∀ m body, metadata = some m → Admits serde m body → stream.bytes ≠ frame body) ∧
      ∃ e, (receiveMetadata serde false).read stream = .error e ∧ e.IsTruncation) := by
  have hDelimits := receiveMetadata_delimits hSerde false
  have hEmpty : stream.bytes = [] →
      (∀ m body, metadata = some m → Admits serde m body → stream.bytes ≠ frame body) ∧
        ∃ e, (receiveMetadata serde false).read stream = .error e ∧ e.IsTruncation := by
    intro hNothing
    refine ⟨?_, hDelimits.ended hNothing⟩
    intro m body _ _ hFrame
    have hLength := congrArg List.length (hNothing.symm.trans hFrame)
    rw [frame, List.length_append, length_toBeBytes, List.length_nil] at hLength
    omega
  cases metadata with
  | none =>
      rw [accept_none] at hPart
      exact Or.inr (hEmpty (List.prefix_nil.mp hPart))
  | some m =>
      rcases @accept_cases serde m connection with ⟨hNothing, _⟩ | ⟨body, hBody, hSent, _⟩
      · rw [hNothing] at hPart
        exact Or.inr (hEmpty (List.prefix_nil.mp hPart))
      · by_cases hAll : stream.bytes = frame body
        · obtain ⟨rest, hRead, _⟩ := hDelimits.whole ⟨m, body, rfl, hBody, rfl⟩
            (show stream.bytes = frame body ++ [] by rw [hAll, List.append_nil])
          exact Or.inl ⟨m, body, rest, rfl, hBody, hAll, hRead⟩
        · refine Or.inr ⟨?_, hDelimits.cut ⟨m, body, rfl, hBody, rfl⟩ (hPart.trans hSent) hAll⟩
          intro m' body' hSame hBody' hFrame
          obtain rfl := Option.some.inj hSame
          have hSameBody : body = body' := Option.some.inj (hBody.1.symm.trans hBody'.1)
          exact hAll (hSameBody ▸ hFrame)

/-- An attempt returns the sender's metadata when it got through, and otherwise fails. -/
theorem fetchOnce_cases (hSerde : serde.RoundTrips) {connection : MetadataConnection}
    {answers : FetchAnswers}
    (hReply : ∀ stream, answers.reply = some stream →
      stream.bytes <+: (MetadataProtocol.accept serde metadata connection).1) :
    (GotThrough serde metadata answers ∧
      ∃ m, metadata = some m ∧ fetchOnce serde answers = .ok m) ∨
    (¬ GotThrough serde metadata answers ∧
      ∃ e, fetchOnce serde answers = .error e ∧ e.IsLoss) := by
  obtain ⟨connect, openBi, request, reply⟩ := answers
  cases connect with
  | error why =>
      refine Or.inr ⟨fun h => (by cases h.1), ?_⟩
      cases why with
      | failed => exact ⟨.transport, rfl, trivial⟩
      | timedOut => exact ⟨.timeout _, rfl, trivial⟩
  | ok _ =>
  cases openBi with
  | error why =>
      refine Or.inr ⟨fun h => (by cases h.2.1), ?_⟩
      cases why with
      | failed => exact ⟨.transport, rfl, trivial⟩
      | timedOut => exact ⟨.timeout _, rfl, trivial⟩
  | ok _ =>
  cases request with
  | stopped sent why =>
      refine Or.inr ⟨fun h => (by cases h.2.2.1), ?_⟩
      cases why with
      | failed => exact ⟨.transport, rfl, trivial⟩
      | timedOut => exact ⟨.timeout _, rfl, trivial⟩
  | done =>
  cases reply with
  | none =>
      refine Or.inr ⟨?_, .timeout _, rfl, trivial⟩
      rintro ⟨_, _, _, stream, m, body, hStream, _⟩
      cases hStream
  | some stream =>
      have hOnce : fetchOnce serde ⟨.ok (), .ok (), .done, some stream⟩ =
          match (receiveMetadata serde false).read stream with
          | .error e => .error (.metadata e)
          | .ok (received, _) => .ok received.metadata := rfl
      rcases receiveMetadata_read hSerde (hReply stream rfl) with
        ⟨m, body, rest, hMetadata, hBody, hFrame, hRead⟩ | ⟨hNot, e, hRead, hEnd⟩
      · refine Or.inl ⟨⟨rfl, rfl, rfl, stream, m, body, rfl, hMetadata, hBody, hFrame⟩,
          m, hMetadata, ?_⟩
        rw [hOnce, hRead]
        rfl
      · refine Or.inr ⟨?_, .metadata e, by rw [hOnce, hRead], hEnd⟩
        rintro ⟨_, _, _, stream', m, body, hStream, hMetadata, hBody, hFrame⟩
        obtain rfl := Option.some.inj hStream
        exact hNot m body hMetadata hBody hFrame

/-- The attempts made: all that failed before the first that got through, with
a pause after each, and that one. -/
theorem fetchAttempts_run (hSerde : serde.RoundTrips) {connections : Nat → MetadataConnection}
    {answers : Nat → FetchAnswers}
    (hReply : ∀ i stream, (answers i).reply = some stream →
      stream.bytes <+: (MetadataProtocol.accept serde metadata (connections i)).1)
    {plan : List FetchAttempt} {last : FetchAttempt} (hEarly : ∀ a ∈ plan, a.attempt < 3)
    (hLast : last.attempt = 3) (lastError : Option FetchError) :
    ∃ before a after, plan ++ [last] = before ++ a :: after ∧
      (∀ b ∈ before, ¬ GotThrough serde metadata (answers b.attempt)) ∧
      (fetchAttempts serde answers (plan ++ [last]) lastError).1 =
        (before.flatMap fun b => [b.action, .sleep 300]) ++ [a.action, .close] ∧
      ((GotThrough serde metadata (answers a.attempt) ∧
          ∃ m, metadata = some m ∧
            (fetchAttempts serde answers (plan ++ [last]) lastError).2 = .ok m) ∨
        (¬ GotThrough serde metadata (answers a.attempt) ∧ after = [] ∧
          ∃ e, fetchOnce serde (answers a.attempt) = .error e ∧ e.IsLoss ∧
            (fetchAttempts serde answers (plan ++ [last]) lastError).2 = .error e)) := by
  induction plan generalizing lastError with
  | nil =>
      refine ⟨[], last, [], rfl, by simp, ?_⟩
      rw [List.nil_append, fetchAttempts]
      rcases fetchOnce_cases hSerde (hReply last.attempt) with
        ⟨hGot, m, hMetadata, hOnce⟩ | ⟨hNot, e, hOnce, hLoss⟩
      · rw [hOnce]
        exact ⟨rfl, Or.inl ⟨hGot, m, hMetadata, rfl⟩⟩
      · rw [hOnce]
        dsimp only
        rw [if_neg (by omega)]
        exact ⟨rfl, Or.inr ⟨hNot, rfl, e, rfl, hLoss, rfl⟩⟩
  | cons a plan ih =>
      rw [List.cons_append, fetchAttempts]
      rcases fetchOnce_cases hSerde (hReply a.attempt) with
        ⟨hGot, m, hMetadata, hOnce⟩ | ⟨hNot, e, hOnce, hLoss⟩
      · refine ⟨[], a, plan ++ [last], rfl, by simp, ?_⟩
        rw [hOnce]
        exact ⟨rfl, Or.inl ⟨hGot, m, hMetadata, rfl⟩⟩
      · obtain ⟨before, b, after, hSplit, hBefore, hActions, hResult⟩ :=
          ih (fun c hc => hEarly c (List.mem_cons_of_mem a hc)) (some e)
        refine ⟨a :: before, b, after, by rw [hSplit]; rfl, ?_, ?_⟩
        · intro c hc
          rcases List.mem_cons.mp hc with rfl | hMem
          · exact hNot
          · exact hBefore c hMem
        · rw [hOnce]
          dsimp only
          rw [if_pos (hEarly a List.mem_cons_self), hActions, List.flatMap_cons]
          exact ⟨rfl, hResult⟩

end

/-- Three attempts are planned, in this order. -/
theorem attemptPlan_attempts (addr : List TransportAddr) :
    (attemptPlan addr).map (·.attempt) = [1, 2, 3] := by
  unfold attemptPlan
  dsimp only
  split
  · rfl
  · rfl

theorem attempt_iff {addr : List TransportAddr} {i : Nat} :
    (∃ a ∈ attemptPlan addr, a.attempt = i) ↔ 1 ≤ i ∧ i ≤ 3 := by
  rw [← List.mem_map, attemptPlan_attempts]
  simp only [List.mem_cons, List.not_mem_nil, or_false]
  omega

/-- Every attempt dials addresses of the ticket. -/
theorem attemptPlan_targets {addr : List TransportAddr} {a : FetchAttempt}
    (ha : a ∈ attemptPlan addr) : a.targetAddr.Sublist addr ∧ (addr ≠ [] → a.targetAddr ≠ []) := by
  have hWhole : addr.Sublist addr ∧ (addr ≠ [] → addr ≠ []) := ⟨List.Sublist.refl _, id⟩
  simp only [attemptPlan, List.mem_cons, List.not_mem_nil, or_false] at ha
  rcases ha with rfl | rfl | hLast
  · exact hWhole
  · exact hWhole
  · split at hLast
    · rw [hLast]
      exact hWhole
    · next hRelays =>
        rw [hLast]
        exact ⟨List.filter_sublist, fun _ hNone => hRelays (List.isEmpty_iff.mpr hNone)⟩

/-- A set-up that fails ends the fetch before any attempt. -/
theorem fetchMetadata_of_not_ready {serde : Serde FileMetadata} {setup : FetchSetup}
    (hReady : setup.ready = false) (answers : Nat → FetchAnswers) :
    (fetchMetadata serde setup answers).2 = .error .transport ∧
      ∀ action ∈ (fetchMetadata serde setup answers).1, ∃ dnsLookup, action = .bind dnsLookup := by
  obtain ⟨ticket, secretKey, bindAddr, bound⟩ := setup
  rw [FetchSetup.ready] at hReady
  cases ticket with
  | none => exact ⟨rfl, fun action h => (by cases h)⟩
  | some addr =>
      rw [fetchMetadata]
      dsimp only at hReady ⊢
      by_cases hKeys : secretKey = true ∧ bindAddr = true
      · rw [if_pos hKeys]
        obtain ⟨rfl, rfl⟩ := hKeys
        obtain rfl : bound = false := by simpa using hReady
        exact ⟨rfl, fun action h => ⟨_, List.mem_singleton.mp h⟩⟩
      · rw [if_neg hKeys]
        exact ⟨rfl, fun action h => (by cases h)⟩

/-- The attempts that are made, and how the last of them ends: it got the whole answer, or
it is the third. -/
theorem fetchAttempts_plan {serde : Serde FileMetadata} (hSerde : serde.RoundTrips)
    {metadata : Option FileMetadata} {connections : Nat → MetadataConnection}
    {answers : Nat → FetchAnswers}
    (hReply : ∀ i stream, (answers i).reply = some stream →
      stream.bytes <+: (MetadataProtocol.accept serde metadata (connections i)).1)
    (addr : List TransportAddr) :
    let fetched := fetchAttempts serde answers (attemptPlan addr) none
    ∃ before a after, attemptPlan addr = before ++ a :: after ∧
      (∀ b ∈ before, ¬ GotThrough serde metadata (answers b.attempt)) ∧
      fetched.1 = (before.flatMap fun b => [b.action, .sleep 300]) ++ [a.action, .close] ∧
      ((GotThrough serde metadata (answers a.attempt) ∧
          ∃ m, metadata = some m ∧ fetched.2 = .ok m) ∨
        (¬ GotThrough serde metadata (answers a.attempt) ∧ after = [] ∧
          ∃ e, fetchOnce serde (answers 3) = .error e ∧ e.IsLoss ∧ fetched.2 = .error e)) := by
  obtain ⟨first, last, hPlan⟩ : ∃ first last, attemptPlan addr = first ++ [last] :=
    ⟨[⟨1, "default", addr⟩, ⟨2, "default", addr⟩], _, rfl⟩
  have hNumbers : first.map (·.attempt) ++ [last.attempt] = [1, 2] ++ [3] := by
    rw [← List.map_singleton, ← List.map_append, ← hPlan, attemptPlan_attempts]
    rfl
  obtain ⟨hFirst, hLast⟩ := List.append_inj' hNumbers rfl
  have hLast : last.attempt = 3 := (List.cons.inj hLast).1
  have hEarly : ∀ a ∈ first, a.attempt < 3 := by
    intro a ha
    have hMem : a.attempt ∈ [1, 2] := hFirst ▸ List.mem_map_of_mem ha
    simp only [List.mem_cons, List.not_mem_nil, or_false] at hMem
    omega
  obtain ⟨before, a, after, hSplit, hBefore, hActions, hEnd⟩ :=
    fetchAttempts_run hSerde hReply hEarly hLast none
  rw [hPlan]
  refine ⟨before, a, after, hSplit, hBefore, hActions, ?_⟩
  rcases hEnd with hGot | ⟨hNot, hAfter, e, hOnce, hLoss, hResult⟩
  · exact Or.inl hGot
  · have hSame : last = a := by
      rw [hAfter] at hSplit
      exact (List.cons.inj (List.append_inj' hSplit rfl).2).1
    rw [← hSame, hLast] at hOnce
    exact Or.inr ⟨hNot, hAfter, e, hOnce, hLoss, hResult⟩

/-- What the three attempts come to, once the endpoint is bound. -/
theorem fetchMetadata_of_bound {serde : Serde FileMetadata} (hSerde : serde.RoundTrips)
    {metadata : Option FileMetadata} {connections : Nat → MetadataConnection}
    {answers : Nat → FetchAnswers}
    (hReply : ∀ i stream, (answers i).reply = some stream →
      stream.bytes <+: (MetadataProtocol.accept serde metadata (connections i)).1)
    (endpoint : List TransportAddr) (kind : AddrInfoOptions) :
    let addr := applyOptions endpoint kind
    let run := fetchMetadata serde ⟨some addr, true, true, true⟩ answers
    (∀ m, run.2 = .ok m ↔ metadata = some m ∧
      ∃ i, 1 ≤ i ∧ i ≤ 3 ∧ GotThrough serde metadata (answers i)) ∧
    (∀ e, run.2 = .error e → e.IsLoss ∧ fetchOnce serde (answers 3) = .error e) ∧
    ∃ dnsLookup before a after, attemptPlan addr = before ++ a :: after ∧
      run.1 = .bind dnsLookup ::
        (before.flatMap fun b => [b.action, .sleep 300]) ++ [a.action, .close] ∧
      (∀ b ∈ before, ¬ GotThrough serde metadata (answers b.attempt)) ∧
      (GotThrough serde metadata (answers a.attempt) ∨ after = []) ∧
      ∀ b ∈ before ++ [a], (addr ≠ [] → b.targetAddr ≠ []) ∧
        ∀ t ∈ b.targetAddr, t ∈ endpoint ∧ kind.discloses t = true := by
  intro addr
  obtain ⟨before, a, after, hSplit, hBefore, hActions, hEnd⟩ :=
    fetchAttempts_plan hSerde hReply addr
  have hMade : ∀ b ∈ before ++ [a], b ∈ attemptPlan addr := by
    intro b hb
    rw [hSplit, List.append_cons]
    exact List.mem_append_left after hb
  have hTried : 1 ≤ a.attempt ∧ a.attempt ≤ 3 :=
    attempt_iff.mp ⟨a, hMade a (List.mem_append_right before List.mem_cons_self), rfl⟩
  intro run
  have hRun : run = (.bind _ :: (fetchAttempts serde answers (attemptPlan addr) none).1,
      (fetchAttempts serde answers (attemptPlan addr) none).2) := rfl
  refine ⟨?_, ?_, ?_⟩
  · intro m
    rw [hRun]
    constructor
    · intro hOk
      rcases hEnd with ⟨hGot, m', hMetadata, hResult⟩ | ⟨_, _, e, _, _, hResult⟩
      · rw [hResult] at hOk
        obtain rfl := Except.ok.inj hOk
        exact ⟨hMetadata, a.attempt, hTried.1, hTried.2, hGot⟩
      · rw [hResult] at hOk
        cases hOk
    · rintro ⟨hMetadata, i, hLow, hHigh, hGot⟩
      rcases hEnd with ⟨_, m', hMetadata', hResult⟩ | ⟨hNot, hAfter, _⟩
      · rw [hMetadata] at hMetadata'
        rw [hResult, Option.some.inj hMetadata']
      · obtain ⟨b, hb, rfl⟩ := attempt_iff.mpr ⟨hLow, hHigh⟩
        rw [hSplit, hAfter] at hb
        rcases List.mem_append.mp hb with hOld | hSame
        · exact absurd hGot (hBefore b hOld)
        · rw [List.mem_singleton.mp hSame] at hGot
          exact absurd hGot hNot
  · intro e hError
    rw [hRun] at hError
    rcases hEnd with ⟨_, m, _, hResult⟩ | ⟨_, _, e', hOnce, hLoss, hResult⟩
    · rw [hResult] at hError
      cases hError
    · rw [hResult] at hError
      obtain rfl := Except.error.inj hError
      exact ⟨hLoss, hOnce⟩
  · refine ⟨_, before, a, after, hSplit, by rw [hRun, hActions]; rfl, hBefore, ?_, ?_⟩
    · rcases hEnd with ⟨hGot, _⟩ | ⟨_, hAfter, _⟩
      · exact Or.inl hGot
      · exact Or.inr hAfter
    · intro b hb
      obtain ⟨hPart, hSome⟩ := attemptPlan_targets (hMade b hb)
      exact ⟨hSome, fun t ht => mem_applyOptions.mp (hPart.subset ht)⟩

/-- A preview is the sender's own metadata or nothing. Unless the endpoint is bound, no
attempt is made. Once it is, however the sender's answers are cut and whichever of the
awaits fail, the fetch shows the metadata of the share exactly when one of three
attempts got its request out and the whole answer back; it stops at the first that does,
and otherwise reports what the third ran into, which is never a malformed answer. Every
attempt goes to addresses that the sender's endpoint has and its kind of ticket gives
away, each failure but the last is followed by a pause, and the endpoint is closed once,
at the end. -/
theorem preview_is_the_senders (serde : Serde FileMetadata) (hSerde : serde.RoundTrips)
    (metadata : Option FileMetadata) (connections : Nat → MetadataConnection)
    (answers : Nat → FetchAnswers)
    (hReply : ∀ i stream, (answers i).reply = some stream →
      stream.bytes <+: (MetadataProtocol.accept serde metadata (connections i)).1)
    (endpoint : List TransportAddr) (kind : AddrInfoOptions) (setup : FetchSetup)
    (hTicket : ∀ addr, setup.ticket = some addr → addr = applyOptions endpoint kind) :
    let addr := applyOptions endpoint kind
    let run := fetchMetadata serde setup answers
    (setup.ready = false →
      run.2 = .error .transport ∧ ∀ action ∈ run.1, ∃ dnsLookup, action = .bind dnsLookup) ∧
    (setup.ready = true →
      (∀ m, run.2 = .ok m ↔ metadata = some m ∧
        ∃ i, 1 ≤ i ∧ i ≤ 3 ∧ GotThrough serde metadata (answers i)) ∧
      (∀ e, run.2 = .error e → e.IsLoss ∧ fetchOnce serde (answers 3) = .error e) ∧
      ∃ dnsLookup before a after, attemptPlan addr = before ++ a :: after ∧
        run.1 = .bind dnsLookup ::
          (before.flatMap fun b => [b.action, .sleep 300]) ++ [a.action, .close] ∧
        (∀ b ∈ before, ¬ GotThrough serde metadata (answers b.attempt)) ∧
        (GotThrough serde metadata (answers a.attempt) ∨ after = []) ∧
        ∀ b ∈ before ++ [a], (addr ≠ [] → b.targetAddr ≠ []) ∧
          ∀ t ∈ b.targetAddr, t ∈ endpoint ∧ kind.discloses t = true) := by
  refine ⟨fun hReady => fetchMetadata_of_not_ready hReady answers, fun hReady => ?_⟩
  obtain ⟨ticket, secretKey, bindAddr, bound⟩ := setup
  simp only [FetchSetup.ready, Bool.and_eq_true, Option.isSome_iff_exists] at hReady
  obtain ⟨⟨⟨⟨addr, rfl⟩, rfl⟩, rfl⟩, rfl⟩ := hReady
  obtain rfl := hTicket addr rfl
  exact fetchMetadata_of_bound hSerde hReply endpoint kind

/-- The first connection is never made, the second brings three bytes of the
answer and the third the whole of it. -/
def noteConnection : MetadataConnection := ⟨.ok (), .ok 1, .done, .done, true⟩

def noteAnswers (i : Nat) : FetchAnswers :=
  let sent := (MetadataProtocol.accept noteSerde (some noteMetadata) noteConnection).1
  { connect := if i = 1 then .error .timedOut else .ok ()
    openBi := .ok ()
    request := .done
    reply := some (.whole (sent.take (if i = 2 then 3 else sent.length))) }

theorem preview_is_the_senders_note :
    (fetchMetadata noteSerde
      ⟨some (applyOptions [.relay "https://relay", .ip "10.0.0.2:4433"] .relay), true, true, true⟩
      noteAnswers).2 = .ok noteMetadata := by
  have hReply : ∀ i stream, (noteAnswers i).reply = some stream → stream.bytes <+:
      (MetadataProtocol.accept noteSerde (some noteMetadata) noteConnection).1 := by
    intro i stream hStream
    obtain rfl := Option.some.inj hStream
    rw [Incoming.bytes_whole]
    exact List.take_prefix _ _
  have hPreview := preview_is_the_senders noteSerde (singleSerde_roundTrips _ (by decide))
    (some noteMetadata) (fun _ => noteConnection) noteAnswers hReply
    [.relay "https://relay", .ip "10.0.0.2:4433"] .relay ⟨some _, true, true, true⟩
    fun addr hSame => (Option.some.inj hSame).symm
  refine ((hPreview.2 rfl).1 noteMetadata).mpr
    ⟨rfl, 3, by decide, by decide, rfl, rfl, rfl, _, noteMetadata, _, rfl, rfl,
      ⟨rfl, by decide⟩, ?_⟩
  rw [Incoming.bytes_whole]
  rfl

end AltSendme
