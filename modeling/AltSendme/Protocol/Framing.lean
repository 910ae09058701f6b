import AltSendme.Wire.Frames
import AltSendme.Protocol.Control

/-! The two framings of the protocol crate: control messages (`control.rs`)
and the metadata exchange (`send.rs`, `receive.rs`). Writers and readers check
lengths in separate places; here they are compared. -/
namespace AltSendme
open Wire

structure FilePreviewItem where
  fileName : String
  size : UInt64
  thumbnail : Option String
  mimeType : Option String
  deriving DecidableEq, Repr

structure FileMetadata where
  fileName : String
  itemCount : UInt32
  size : UInt64
  thumbnail : Option String
  mimeType : Option String
  items : Option (List FilePreviewItem)
  deriving DecidableEq, Repr

/-- What `write_message` and `read_message` fail with. -/
inductive MessageError where
  | json
  | ensure (text : String)
  | io
  | unexpectedEof
  deriving DecidableEq, Repr

/-- One call of `write_message`, with how the stream took its two writes and the flush. -/
structure ControlWrite where
  message : ControlMessage
  length : WriteAnswer Unit
  body : WriteAnswer Unit
  flushed : Bool

/-- The bytes that reached the stream, and the result. -/
def writeMessage (serde : Serde ControlMessage) (call : ControlWrite) :
    List UInt8 × Except MessageError Unit :=
  match serde.toVec call.message with
  | none => ([], .error .json)
  | some body =>
      if body.length ≤ 1024 * 1024 then
        (sendFrame body call.length call.body, do
          call.length.result fun _ => .io
          call.body.result fun _ => .io
          if call.flushed then pure () else throw .io)
      else ([], .error (.ensure "control message too large"))

def readMessage (serde : Serde ControlMessage) : Reader MessageError ControlMessage :=
  framed (1024 * 1024)
    (fun
      | .length | .body => .unexpectedEof
      | .invalid _ => .ensure "invalid control message length")
    fun body => (serde.fromSlice body).elim (.error .json) .ok

/-- Why an await on the metadata connection brought nothing. -/
inductive Stopped where
  | failed
  | timedOut
  deriving DecidableEq, Repr

inductive ErrorKind where
  | timedOut
  | invalidData
  | notFound
  deriving DecidableEq, Repr

inductive AcceptError where
  | connection
  | io (kind : ErrorKind) (text : String)
  | json
  deriving DecidableEq, Repr

/-- What the awaits of `accept` are answered with, in their order. -/
structure MetadataConnection where
  acceptBi : Except Stopped Unit
  request : Except Stopped UInt8
  length : WriteAnswer Stopped
  body : WriteAnswer Stopped
  finished : Bool

/-- A failed await, with the text of its timeout. -/
def Stopped.report (text : String) : Stopped → AcceptError
  | .failed => .connection
  | .timedOut => .io .timedOut text

/-- The checks of `MetadataProtocol::accept` between the request and the reply. -/
def MetadataProtocol.payload (serde : Serde FileMetadata) (metadata : Option FileMetadata)
    (req : UInt8) : Except AcceptError (List UInt8) :=
  if req = 1 then
    match metadata with
    | none => .error (.io .notFound "metadata unavailable")
    | some payload =>
        match serde.toVec payload with
        | none => .error .json
        | some metaBytes =>
            let size := metaBytes.length
            if size > 8 * 1024 * 1024 then
              .error (.io .invalidData s!"metadata payload too large: {size} bytes")
            else .ok metaBytes
  else .error (.io .invalidData s!"invalid metadata request marker: {req}")

/-- The bytes that reached the stream, and the result. A peer that opens no
stream in time is no error. -/
def MetadataProtocol.accept (serde : Serde FileMetadata) (metadata : Option FileMetadata)
    (connection : MetadataConnection) : List UInt8 × Except AcceptError Unit :=
  match connection.acceptBi with
  | .error .timedOut => ([], .ok ())
  | .error .failed => ([], .error .connection)
  | .ok () =>
      match connection.request with
      | .error why => ([], .error (why.report "metadata request read timeout"))
      | .ok req =>
          match payload serde metadata req with
          | .error e => ([], .error e)
          | .ok metaBytes =>
              (sendFrame metaBytes connection.length connection.body, do
                connection.length.result (·.report "metadata length write timeout")
                connection.body.result (·.report "metadata body write timeout")
                if connection.finished then pure () else throw .connection)

inductive MetadataError where
  | readLength
  | invalidLength (text : String)
  | readBody
  | json
  deriving DecidableEq, Repr

/-- The stream ended before the metadata did. -/
def MetadataError.IsTruncation (e : MetadataError) : Prop := e = .readLength ∨ e = .readBody

/-- What `receive_metadata` returns, and the event it emits on the way. -/
structure ReceivedMetadata where
  metadata : FileMetadata
  emitted : Option (String × List UInt8)

def ReceivedMetadata.of (serde : Serde FileMetadata) (appHandle : Bool) (metadata : FileMetadata) :
    ReceivedMetadata :=
  ⟨metadata,
    if appHandle then (serde.toVec metadata).map fun payload => ("receive-file-metadata", payload)
    else none⟩

def receiveMetadata (serde : Serde FileMetadata) (appHandle : Bool) :
    Reader MetadataError ReceivedMetadata :=
  framed (8 * 1024 * 1024)
    (fun
      | .length => .readLength
      | .body => .readBody
      | .invalid len => .invalidLength s!"invalid metadata length: {len}")
    fun body => (serde.fromSlice body).elim (.error .json) fun metadata =>
      .ok (.of serde appHandle metadata)

section
variable {serde : Serde ControlMessage}

/-- A call that returned `Ok` wrote the frame of its message. -/
theorem writeMessage_ok {call : ControlWrite} (h : (writeMessage serde call).2 = .ok ()) :
    ∃ body, serde.toVec call.message = some body ∧ body.length ≤ 1024 * 1024 ∧
      (writeMessage serde call).1 = frame body := by
  unfold writeMessage at h ⊢
  cases hBody : serde.toVec call.message with
  | none =>
      rw [hBody] at h
      cases h
  | some body =>
      rw [hBody] at h
      dsimp only at h ⊢
      split at h
      · next hFits =>
          cases hLength : call.length with
          | stopped sent why =>
              rw [hLength] at h
              cases h
          | done =>
              cases hPayload : call.body with
              | stopped sent why =>
                  rw [hLength, hPayload] at h
                  cases h
              | done => exact ⟨body, rfl, hFits, by rw [if_pos hFits, sendFrame_done]⟩
      · cases h

/-- What `read_message` reads is delimited by what `write_message` accepts. -/
theorem readMessage_delimits (hSerde : serde.RoundTrips) :
    (readMessage serde).Delimits
      (fun message bytes => ∃ call : ControlWrite, call.message = message ∧
        writeMessage serde call = (bytes, .ok ()))
      (· = .unexpectedEof) := by
  have hFramed := @framed_delimits MessageError ControlMessage (1024 * 1024)
    (fun
      | .length | .body => .unexpectedEof
      | .invalid _ => .ensure "invalid control message length")
    (fun body => (serde.fromSlice body).elim (.error .json) .ok)
    (fun message bytes => ∃ call : ControlWrite, call.message = message ∧
        writeMessage serde call = (bytes, .ok ())) (by decide) (by
      rintro message bytes ⟨call, rfl, hWrite⟩
      obtain ⟨body, hBody, hFits, hBytes⟩ := writeMessage_ok (by rw [hWrite])
      refine ⟨body, by rw [← hBytes, hWrite], hSerde.toVec_ne_nil hBody, hFits, ?_⟩
      rw [hSerde.fromSlice_toVec hBody]
      rfl)
  refine hFramed.mono ?_
  rintro e ⟨t, hTruncated, rfl⟩
  cases t with
  | length => rfl
  | body => rfl
  | invalid len => exact absurd hTruncated id

end

section
variable {serde : Serde FileMetadata}

/-- `Admits metadata body`: the sender's checks pass, and `body` is what it sends. -/
def Admits (serde : Serde FileMetadata) (metadata : FileMetadata) (body : List UInt8) : Prop :=
  serde.toVec metadata = some body ∧ body.length ≤ 8 * 1024 * 1024

theorem payload_ok {metadata : FileMetadata} {req : UInt8} {body : List UInt8}
    (h : MetadataProtocol.payload serde (some metadata) req = .ok body) :
    Admits serde metadata body := by
  unfold MetadataProtocol.payload at h
  split at h
  · dsimp only at h
    cases hBody : serde.toVec metadata with
    | none =>
        rw [hBody] at h
        cases h
    | some metaBytes =>
        rw [hBody] at h
        dsimp only at h
        split at h
        · cases h
        · next hFits =>
            obtain rfl := Except.ok.inj h
            exact ⟨hBody, by omega⟩
  · cases h

/-- What the metadata sender got out: nothing, or a part of one frame, and the
whole of it when its writes went through. -/
theorem accept_cases (metadata : FileMetadata) (connection : MetadataConnection) :
    ((MetadataProtocol.accept serde (some metadata) connection).1 = [] ∧
        (connection.acceptBi = .ok () →
          (MetadataProtocol.accept serde (some metadata) connection).2 ≠ .ok ())) ∨
      ∃ body, Admits serde metadata body ∧
        (MetadataProtocol.accept serde (some metadata) connection).1 <+: frame body ∧
        ((MetadataProtocol.accept serde (some metadata) connection).2 = .ok () →
          (MetadataProtocol.accept serde (some metadata) connection).1 = frame body) := by
  unfold MetadataProtocol.accept
  cases hBi : connection.acceptBi with
  | error why => cases why <;> exact Or.inl ⟨rfl, fun h => nomatch h⟩
  | ok streams =>
      cases streams
      cases hRequest : connection.request with
      | error why => exact Or.inl ⟨rfl, fun _ h => nomatch h⟩
      | ok req =>
          cases hPayload : MetadataProtocol.payload serde (some metadata) req with
          | error e =>
              simp only [hPayload]
              exact Or.inl ⟨trivial, fun _ h => nomatch h⟩
          | ok metaBytes =>
              simp only [hPayload]
              refine Or.inr ⟨metaBytes, payload_ok hPayload, sendFrame_prefix _ _ _, ?_⟩
              intro hOk
              cases hLength : connection.length with
              | stopped sent why =>
                  rw [hLength] at hOk
                  cases hOk
              | done =>
                  cases hBody : connection.body with
                  | stopped sent why =>
                      rw [hLength, hBody] at hOk
                      cases hOk
                  | done => exact sendFrame_done metaBytes

/-- The receiver's bound is the sender's. -/
theorem receiveMetadata_delimits (hSerde : serde.RoundTrips) (appHandle : Bool) :
    (receiveMetadata serde appHandle).Delimits
      (fun received bytes => ∃ metadata body, received = .of serde appHandle metadata ∧
        Admits serde metadata body ∧ bytes = frame body)
      MetadataError.IsTruncation := by
  have hFramed := @framed_delimits MetadataError ReceivedMetadata (8 * 1024 * 1024)
    (fun
      | .length => .readLength
      | .body => .readBody
      | .invalid len => .invalidLength s!"invalid metadata length: {len}")
    (fun body => (serde.fromSlice body).elim (.error .json) fun metadata =>
      .ok (.of serde appHandle metadata))
    (fun received bytes => ∃ metadata body, received = .of serde appHandle metadata ∧
        Admits serde metadata body ∧ bytes = frame body) (by decide) (by
      rintro received bytes ⟨metadata, body, rfl, ⟨hBody, hFits⟩, rfl⟩
      refine ⟨body, rfl, hSerde.toVec_ne_nil hBody, hFits, ?_⟩
      rw [hSerde.fromSlice_toVec hBody]
      rfl)
  refine hFramed.mono ?_
  rintro e ⟨t, hTruncated, rfl⟩
  cases t with
  | length => exact Or.inl rfl
  | body => exact Or.inr rfl
  | invalid len => exact absurd hTruncated id

section
variable {metadata : FileMetadata} {connection : MetadataConnection} {appHandle : Bool}

/-- Whatever part of the sender's bytes arrives, the receiver returns the
sender's metadata or nothing, and then reports the end. -/
theorem metadata_part (hSerde : serde.RoundTrips) {s : Incoming}
    (hPrefix : s.bytes <+: (MetadataProtocol.accept serde (some metadata) connection).1) :
    ∃ read e, (receiveMetadata serde appHandle).readAll s = (read, e) ∧
      read <+: [ReceivedMetadata.of serde appHandle metadata] ∧ e.IsTruncation := by
  have hDelimits := receiveMetadata_delimits hSerde appHandle
  rcases @accept_cases serde metadata connection with ⟨hNothing, _⟩ | ⟨body, hBody, hPart, _⟩
  · rw [hNothing] at hPrefix
    obtain ⟨e, hRead, hEnd⟩ := hDelimits.ended (List.prefix_nil.mp hPrefix)
    exact ⟨[], e, Reader.readAll_error hRead, List.nil_prefix, hEnd⟩
  · by_cases hAll : s.bytes = frame body
    · obtain ⟨e, hRead, hEnd⟩ := hDelimits.readAll_single ⟨metadata, body, rfl, hBody, rfl⟩ hAll
      exact ⟨_, e, hRead, List.prefix_refl _, hEnd⟩
    · obtain ⟨e, hRead, hEnd⟩ := hDelimits.cut ⟨metadata, body, rfl, hBody, rfl⟩
        (hPrefix.trans hPart) hAll
      exact ⟨[], e, Reader.readAll_error hRead, List.nil_prefix, hEnd⟩

/-- When the sender's call succeeded, its bytes are the metadata and no strict
part of them is anything. -/
theorem metadata_whole (hSerde : serde.RoundTrips) (hBi : connection.acceptBi = .ok ())
    (hOk : (MetadataProtocol.accept serde (some metadata) connection).2 = .ok ()) (s : Incoming) :
    (s.bytes = (MetadataProtocol.accept serde (some metadata) connection).1 →
      ∃ e, (receiveMetadata serde appHandle).readAll s =
        ([ReceivedMetadata.of serde appHandle metadata], e) ∧ e.IsTruncation) ∧
    (s.bytes <+: (MetadataProtocol.accept serde (some metadata) connection).1 →
      s.bytes ≠ (MetadataProtocol.accept serde (some metadata) connection).1 →
      ∃ e, (receiveMetadata serde appHandle).readAll s = ([], e) ∧ e.IsTruncation) := by
  have hDelimits := receiveMetadata_delimits hSerde appHandle
  rcases @accept_cases serde metadata connection with ⟨_, hNot⟩ | ⟨body, hBody, _, hAll⟩
  · exact absurd hOk (hNot hBi)
  · rw [hAll hOk]
    refine ⟨fun hBytes => ?_, fun hPrefix hCut => ?_⟩
    · exact hDelimits.readAll_single ⟨metadata, body, rfl, hBody, rfl⟩ hBytes
    · obtain ⟨e, hRead, hEnd⟩ := hDelimits.cut ⟨metadata, body, rfl, hBody, rfl⟩ hPrefix hCut
      exact ⟨e, Reader.readAll_error hRead, hEnd⟩

end

end

/-- Both framings are lossless and delimit themselves. Control messages that
`write_message` accepted are read back, all of them, and then the end of the
stream is reported; from a stream cut anywhere some of the first are read and
then the end is reported. The metadata exchange does the same: whatever its
sender accepts its receiver reads, and no part of it is read as anything. -/
theorem control_framing_lossless (serde : Serde ControlMessage) (hSerde : serde.RoundTrips)
    (serdeMetadata : Serde FileMetadata) (hMetadata : serdeMetadata.RoundTrips) :
    (∀ calls : List ControlWrite, (∀ call ∈ calls, (writeMessage serde call).2 = .ok ()) →
      let bytes := (calls.map fun call => (writeMessage serde call).1).flatten
      let messages := calls.map (·.message)
      (∀ s : Incoming, s.bytes = bytes →
        (readMessage serde).readAll s = (messages, .unexpectedEof)) ∧
      ∀ s : Incoming, s.bytes <+: bytes → s.bytes ≠ bytes →
        ∃ read, (readMessage serde).readAll s = (read, .unexpectedEof) ∧
          read <+: messages ∧ read ≠ messages) ∧
    ∀ (metadata : FileMetadata) (connection : MetadataConnection) (appHandle : Bool),
      let sent := (MetadataProtocol.accept serdeMetadata (some metadata) connection).1
      let accepted := (MetadataProtocol.accept serdeMetadata (some metadata) connection).2
      let received := ReceivedMetadata.of serdeMetadata appHandle metadata
      (connection.acceptBi = .ok () → accepted = .ok () → ∀ s : Incoming,
        (s.bytes = sent → ∃ e, (receiveMetadata serdeMetadata appHandle).readAll s =
          ([received], e) ∧ e.IsTruncation) ∧
        (s.bytes <+: sent → s.bytes ≠ sent →
          ∃ e, (receiveMetadata serdeMetadata appHandle).readAll s = ([], e) ∧ e.IsTruncation)) ∧
      ∀ s : Incoming, s.bytes <+: sent →
        ∃ read e, (receiveMetadata serdeMetadata appHandle).readAll s = (read, e) ∧
          read <+: [received] ∧ e.IsTruncation := by
  refine ⟨?_, ?_⟩
  · intro calls hCalls
    have hDelimits := readMessage_delimits hSerde
    have hWrites : ∀ w ∈ calls.map fun call => (call.message, (writeMessage serde call).1),
        ∃ call : ControlWrite, call.message = w.1 ∧ writeMessage serde call = (w.2, .ok ()) := by
      intro w hw
      obtain ⟨call, hMem, rfl⟩ := List.mem_map.mp hw
      exact ⟨call, rfl, Prod.ext rfl (hCalls call hMem)⟩
    constructor
    · intro s hBytes
      obtain ⟨e, hRead, rfl⟩ := hDelimits.readAll_whole hWrites (by rw [List.map_map]; exact hBytes)
      rw [List.map_map] at hRead
      exact hRead
    · intro s hPrefix hPart
      obtain ⟨read, e, hRead, hFirst, hFewer, rfl⟩ := hDelimits.readAll_cut hWrites
        (by rw [List.map_map]; exact hPrefix) (by rw [List.map_map]; exact hPart)
      rw [List.map_map] at hFirst hFewer
      exact ⟨read, hRead, hFirst, hFewer⟩
  · intro metadata connection appHandle
    exact ⟨fun hBi hOk s => metadata_whole hMetadata hBi hOk s,
      fun s hPrefix => metadata_part hMetadata hPrefix⟩

/-- A serialization that knows one document. -/
def singleSerde {Message : Type} [DecidableEq Message] (known : Message) (text : String) :
    Serde Message where
  toVec m := if m = known then some text.toUTF8.data.toList else none
  fromSlice body := if body = text.toUTF8.data.toList then some known else none

theorem singleSerde_roundTrips {Message : Type} [DecidableEq Message] (known : Message)
    {text : String} (hText : text.toUTF8.data.toList ≠ []) :
    (singleSerde known text).RoundTrips where
  fromSlice_toVec {m body} h := by
    simp only [singleSerde, Option.ite_none_right_eq_some, Option.some.injEq] at h ⊢
    exact ⟨h.2.symm, h.1.symm⟩
  fromSlice_nil := if_neg (Ne.symm hText)

/-- A vote and the metadata of one file, with their JSON. -/
def voteMessage : ControlMessage := .rememberVote "s" .remember

def voteSerde : Serde ControlMessage :=
  singleSerde voteMessage
    "\x7b\"type\":\"remember-vote\",\"session_id\":\"s\",\"vote\":\"remember\"\x7d"

def noteMetadata : FileMetadata := ⟨"note.txt", 1, 12, none, none, none⟩

def noteSerde : Serde FileMetadata :=
  singleSerde noteMetadata "\x7b\"file_name\":\"note.txt\",\"item_count\":1,\"size\":12\x7d"

theorem control_framing_lossless_vote :
    (readMessage voteSerde).readAll
        (.whole (writeMessage voteSerde ⟨voteMessage, .done, .done, true⟩).1) =
      ([voteMessage], .unexpectedEof) ∧
    ∃ e, (receiveMetadata noteSerde false).readAll
        (.whole (MetadataProtocol.accept noteSerde (some noteMetadata)
          ⟨.ok (), .ok 1, .done, .done, true⟩).1) =
      ([ReceivedMetadata.of noteSerde false noteMetadata], e) ∧ e.IsTruncation := by
  have hBoth := control_framing_lossless voteSerde
    (singleSerde_roundTrips _ (by decide)) noteSerde
    (singleSerde_roundTrips _ (by decide))
  refine ⟨?_, ?_⟩
  · refine (hBoth.1 [⟨voteMessage, .done, .done, true⟩] ?_).1 _ (by simp)
    decide
  · refine ((hBoth.2 noteMetadata ⟨.ok (), .ok 1, .done, .done, true⟩ false).1 rfl ?_ _).1 (by simp)
    decide

end AltSendme
