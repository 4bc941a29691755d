/-
# `WarpProxy.H3.Request` — an exchange on a request stream

`SendRequest::send_request` of `client/connection.rs` and `RequestStream::recv_response`
of `client/stream.rs`, between which the program opens its tunnel, over everything below
them: the fields of the header, QPACK, the frames, and the pieces in which a stream
arrives.

    sendRequest_received    a request is received as it is, or refused before it is sent
    recvResponse_answer     so is an answer, or it is refused with its size
-/
import WarpProxy.H3.Header
import WarpProxy.H3.Qpack
import WarpProxy.H3.Errors

namespace WarpProxy.H3

open Qpack (encodeStateless decodeStateless fieldsSize Modest)

section
variable {Uri HeaderMap : Type}

/-- `SendRequest::send_request`: what is written on the stream.  Opening the stream and
writing to it are the QUIC connection's. -/
def sendRequest (http : Http Uri HeaderMap) (shared : SharedState) (method : List UInt8)
    (uri : Uri) (fields : HeaderMap) (ext : Option Protocol)
    (opened written : Except StreamErrorIncoming Unit) :
    Except StreamError (List UInt8) × SharedState :=
  match shared.checkPeerConnectionClosing with
  | some err => (.error err, shared)
  | none =>
      match Header.request http method uri fields ext with
      | .error _ =>
          let (err, shared) := shared.handleConnectionErrorOnStream
            ⟨Code.internalError, "Failed to build request headers"⟩
          (.error err, shared)
      | .ok header =>
          match opened with
          | .error err =>
              let (err, shared) := shared.handleQuicStreamError err
              (.error err, shared)
          | .ok () =>
              let (block, memSize) := encodeStateless (header.iter http)
              let maxSize := shared.effectiveSettings.maxFieldSectionSize
              if memSize > maxSize then (.error (.headerTooBig memSize maxSize), shared)
              else
                match written with
                | .error err =>
                    let (err, shared) := shared.handleQuicStreamError err
                    (.error err, shared)
                | .ok () => (.ok (Frame.headers block).wire, shared)

/-- What a call has come to. -/
inductive Answer (HeaderMap : Type) where
  | pending
  | panicked
  | error (err : StreamError)
  | ok (status : Nat) (fields : HeaderMap)

/-- What `recv_response` leaves: the answer, the state, and the codes of the STOP_SENDING frames
that it sends. -/
structure Received (HeaderMap : Type) where
  answer : Answer HeaderMap
  shared : SharedState
  stream : FrameStream
  stops : List Nat

/-- The header of an answer from its fields; `none` is a panic. -/
def responseParts (http : Http Uri HeaderMap) (fields : List HeaderField) :
    Option (Except HeaderError (Nat × HeaderMap)) :=
  (Header.tryFrom http fields).map fun header =>
    match header with
    | .error err => .error err
    | .ok header => header.intoResponseParts

/-- `RequestStream::recv_response`, on what the stream gives. -/
def recvResponse (http : Http Uri HeaderMap) (maxSize fuel : Nat) (shared : SharedState)
    (stream : FrameStream) (incoming : StreamIncoming) : Received HeaderMap :=
  let fail (err : StreamError × SharedState) (stream : FrameStream) : Received HeaderMap :=
    ⟨.error err.1, err.2, stream, []⟩
  match stream.awaitNext fuel incoming with
  | (.pending, stream, _) => ⟨.pending, shared, stream, []⟩
  | (.panicked, stream, _) => ⟨.panicked, shared, stream, []⟩
  | (.error err, stream, _) => fail (shared.handleFrameStreamErrorOnRequestStream err) stream
  | (.finished, stream, _) =>
      fail (shared.handleConnectionErrorOnStream
        ⟨Code.frameUnexpected, "Stream finished without receiving response headers"⟩) stream
  | (.frame (.headers encoded), stream, _) =>
      match decodeStateless encoded maxSize with
      | .error (.headerTooLong cancelSize) =>
          ⟨.error (.headerTooBig cancelSize maxSize), shared, stream, [Code.requestCancelled]⟩
      | .error _ =>
          fail (shared.handleConnectionErrorOnStream
            ⟨Code.qpackDecompressionFailed, "Failed to decode headers"⟩) stream
      | .ok decoded =>
          match responseParts http decoded.fields with
          | none => ⟨.panicked, shared, stream, []⟩
          | some (.error _) =>
              ⟨.error (.streamError Code.messageError "Received malformed header"), shared, stream,
                [Code.requestCancelled]⟩
          | some (.ok (status, fields)) => ⟨.ok status fields, shared, stream, []⟩
  | (.frame _, stream, _) =>
      fail (shared.handleConnectionErrorOnStream
        ⟨Code.frameUnexpected, "First response frame is not headers"⟩) stream

end

/-! ## A HEADERS frame on the way -/

section
variable {ε Uri HeaderMap : Type} {http : Http Uri HeaderMap}

/-- A HEADERS frame at the front of a stream, in whatever pieces it comes. -/
theorem awaitNext_headers {block more : List UInt8} (hblock : block.length < 2 ^ 62) {fuel : Nat}
    {incoming : List (Incoming ε)} (hquiet : ∀ err, Incoming.error err ∉ incoming)
    (hbytes : Incoming.bytes incoming = (Frame.headers block).wire ++ more)
    (hfuel : (Incoming.bytes incoming).length + incoming.length < fuel) :
    ∃ s incoming', FrameStream.new.awaitNext fuel incoming = (.frame (.headers block), s, incoming')
      ∧ s.Ready := by
  have hdec := Frame.decode_wire (x := .frame (.headers block)) hblock []
  rw [List.append_nil] at hdec
  obtain ⟨n, hparse, -⟩ := parseFrame_of_decode hdec (by simp [Frame.Written.read])
  have htranscript := transcript_frame (ε := ε) hparse more (Incoming.ends incoming)
  have hahead := FrameStream.ahead_new incoming
  rw [hbytes] at hahead
  replace hahead := hahead.trans htranscript
  rw [← FrameStream.left_new] at hfuel
  obtain ⟨s, incoming', hnext, hready, -⟩ :=
    FrameStream.awaitNext_frame FrameStream.ready_new hquiet hfuel hahead rfl
  exact ⟨s, incoming', hnext, hready⟩

/-! ## Requests -/

/-- **A request** whose header is within the limit that the peer has set is written, and a
peer with that limit reads an equal header off it, in whatever pieces it comes and whatever
follows.  A larger one is refused with its size, and nothing is written. -/
theorem sendRequest_received (hlaws : HttpLaws http) {shared : SharedState}
    (hclosing : shared.closing = false) {method : List UInt8}
    (hmethod : http.method method = some method) {uri : Uri} {fields : HeaderMap}
    {ext : Option Protocol} {header : Header HeaderMap}
    (hheader : Header.request http method uri fields ext = .ok header)
    (hmodest : ∀ f ∈ header.iter http, Modest f)
    (hblock : (encodeStateless (header.iter http)).1.length < 2 ^ 62)
    (hlen : (header.iter http).length ≤ http.maxCapacity) :
    (fieldsSize (header.iter http) ≤ shared.effectiveSettings.maxFieldSectionSize →
      ∃ wire, sendRequest http shared method uri fields ext (.ok ()) (.ok ()) = (.ok wire, shared)
        ∧ ∀ (more : List UInt8) (incoming : List (Incoming ε)) (fuel : Nat),
            (∀ err, Incoming.error err ∉ incoming) → Incoming.bytes incoming = wire ++ more →
            (Incoming.bytes incoming).length + incoming.length < fuel →
            ∃ block s incoming' decoded header',
              FrameStream.new.awaitNext fuel incoming = (.frame (.headers block), s, incoming')
              ∧ decodeStateless block shared.effectiveSettings.maxFieldSectionSize = .ok decoded
              ∧ Header.tryFrom http decoded.fields = some (.ok header')
              ∧ header'.Same http header)
      ∧ (shared.effectiveSettings.maxFieldSectionSize < fieldsSize (header.iter http) →
        sendRequest http shared method uri fields ext (.ok ()) (.ok ())
          = (.error (.headerTooBig (fieldsSize (header.iter http))
              shared.effectiveSettings.maxFieldSectionSize), shared)) := by
  have hsend : sendRequest http shared method uri fields ext (.ok ()) (.ok ())
      = if fieldsSize (header.iter http) > shared.effectiveSettings.maxFieldSectionSize then
          (.error (.headerTooBig (fieldsSize (header.iter http))
            shared.effectiveSettings.maxFieldSectionSize), shared)
        else (.ok (Frame.headers (encodeStateless (header.iter http)).1).wire, shared) := by
    simp [sendRequest, SharedState.checkPeerConnectionClosing, hclosing, hheader, encodeStateless]
  rw [hsend]
  constructor
  · intro hsize
    refine ⟨_, if_neg (Nat.not_lt.mpr hsize), ?_⟩
    intro more incoming fuel hquiet hbytes hfuel
    obtain ⟨s, incoming', hnext, -⟩ := awaitNext_headers hblock hquiet hbytes hfuel
    obtain ⟨header', hheader', hsame⟩ :=
      Header.tryFrom_iter hlaws (Header.valid_request hlaws hmethod hheader) hlen
    exact ⟨_, s, incoming', _, header', hnext, Qpack.decodeStateless_fits hmodest hsize, hheader',
      hsame⟩
  · intro hsize
    exact if_pos hsize

end

/-! ### An `http` crate -/

namespace StatusCode

/-- `as_str` -/
def asStr (n : Nat) : List UInt8 :=
  [UInt8.ofNat (0x30 + n / 100), UInt8.ofNat (0x30 + n / 10 % 10), UInt8.ofNat (0x30 + n % 10)]

def digit (b : UInt8) : Option Nat :=
  if 0x30 ≤ b.toNat ∧ b.toNat ≤ 0x39 then some (b.toNat - 0x30) else none

/-- `from_bytes`: three digits, the first of which is not 0. -/
def fromBytes : List UInt8 → Option Nat
  | [a, b, c] => do
      let a ← digit a
      let b ← digit b
      let c ← digit c
      if a = 0 then none else some (a * 100 + b * 10 + c)
  | _ => none

theorem digit_ofNat {d : Nat} (h : d ≤ 9) : digit (UInt8.ofNat (0x30 + d)) = some d := by
  have hd : (UInt8.ofNat (0x30 + d)).toNat = 0x30 + d := by simp; omega
  rw [digit, hd, if_pos (by omega)]
  simp

theorem fromBytes_asStr {n : Nat} (h₁ : 100 ≤ n) (h₂ : n ≤ 999) : fromBytes (asStr n) = some n := by
  have ha := digit_ofNat (d := n / 100) (by omega)
  have hb := digit_ofNat (d := n / 10 % 10) (by omega)
  have hc := digit_ofNat (d := n % 10) (by omega)
  simp only [fromBytes, asStr, ha, hb, hc, Option.bind_eq_bind, Option.bind_some]
  rw [if_neg (by omega), Option.some.injEq]
  omega

end StatusCode

/-- A name and a value without the characters that do not belong there. -/
def plainEntry (p : List UInt8 × List UInt8) : Bool :=
  p.1 ≠ [] && p.1.all (fun b => b = 0x2D ∨ (0x30 ≤ b ∧ b ≤ 0x39) ∨ (0x61 ≤ b ∧ b ≤ 0x7A))
    && p.2.all (fun b => 0x20 ≤ b ∧ b ≠ 0x7F)

/-- A map with only such entries. -/
structure PlainMap where
  map : Multimap (List UInt8) (List UInt8)
  plain : ∀ p ∈ map.toList, plainEntry p = true

namespace PlainMap

def empty : PlainMap := ⟨.empty, fun _ h => nomatch h⟩

theorem mem_append {m : Multimap (List UInt8) (List UInt8)} {k v : List UInt8}
    {p : List UInt8 × List UInt8} (hp : p ∈ (m.append k v).toList) : p ∈ m.toList ∨ p = (k, v) := by
  rw [← Prod.mk.eta (p := p), ← Multimap.mem_getAll, Multimap.getAll_append] at hp
  split at hp
  next hk =>
      rcases List.mem_append.mp hp with hp | hp
      · exact .inl (Multimap.mem_getAll.mp (hk ▸ hp))
      · exact .inr (Prod.ext hk (List.mem_singleton.mp hp))
  next => exact .inl (Multimap.mem_getAll.mp hp)

/-- Any other entry is left out: there are no names and values for it. -/
def append (m : PlainMap) (k v : List UInt8) : PlainMap :=
  if h : plainEntry (k, v) = true then
    ⟨m.map.append k v, fun _ hp => (mem_append hp).elim (m.plain _) fun heq => heq ▸ h⟩
  else m

def ofList (pairs : List (List UInt8 × List UInt8)) : PlainMap :=
  pairs.foldl (fun m p => m.append p.1 p.2) empty

end PlainMap

/-- Parsers that take what they are given, but for such names and values, and maps that keep
their order. -/
def Http.plain : Http UriParts PlainMap where
  method := some
  scheme := some
  authority := some
  pathAndQuery := some
  name k := if plainEntry (k, []) then some k else none
  value v := if plainEntry ([0x61], v) then some v else none
  status := StatusCode.fromBytes
  statusText := StatusCode.asStr
  uriAuthority := UriParts.authority
  parts := id
  maxCapacity := 24576
  withCapacity n := if n ≤ 24576 then some .empty else none
  append := PlainMap.append
  get m k := (m.map.getAll k).head?
  getAll m k := m.map.getAll k
  intoIter m := m.map.yielded

theorem plainEntry_iff (k v : List UInt8) :
    plainEntry (k, v) = true ↔ Http.plain.name k = some k ∧ Http.plain.value v = some v := by
  have hk : plainEntry (k, []) = true ↔ k ≠ [] ∧
      k.all (fun b => b = 0x2D ∨ (0x30 ≤ b ∧ b ≤ 0x39) ∨ (0x61 ≤ b ∧ b ≤ 0x7A)) = true := by
    simp [plainEntry]
  have hv : plainEntry ([0x61], v) = true ↔ v.all (fun b => 0x20 ≤ b ∧ b ≠ 0x7F) = true := by
    simp [plainEntry]
  have hboth : plainEntry (k, v) = true ↔ plainEntry (k, []) = true
      ∧ plainEntry ([0x61], v) = true := by
    rw [hk, hv]
    simp [plainEntry, and_assoc]
  rw [hboth]
  simp [Http.plain]

theorem httpLaws_plain : HttpLaws Http.plain where
  name_token := by
    intro s t h
    simp only [Http.plain] at h
    split at h
    next hs =>
        obtain rfl := Option.some.inj h
        cases s with
        | nil => simp [plainEntry] at hs
        | cons b s =>
            refine ⟨by simp, ?_⟩
            intro hb
            obtain rfl : b = 0x3A := by simpa using hb
            simp [plainEntry] at hs
    next => cases h
  status_text _ h₁ h₂ := StatusCode.fromBytes_asStr h₁ h₂
  https := rfl
  root := rfl
  parts_scheme _ _ _ := rfl
  parts_authority _ _ _ := rfl
  parts_path _ _ _ := rfl
  entry m k v h := (plainEntry_iff k v).mp (m.plain _ (Multimap.mem_getAll.mp h))
  with_capacity _ h := ⟨.empty, if_pos h, fun _ => rfl⟩
  append m k v hk hv k' := by
    have hentry := (plainEntry_iff k v).mpr ⟨hk, hv⟩
    have happend : (m.append k v).map = m.map.append k v := by
      rw [PlainMap.append, dif_pos hentry]
    have h := m.map.getAll_append k k' v
    rw [← happend] at h
    exact h
  into_iter m := ⟨m.map, rfl, fun _ => rfl⟩

/-! ### The request of the program -/

/-- The parts of `CONNECT_URI`, in which there is no path. -/
def connectUri : UriParts := ⟨some (bytes "https"), some (bytes "cloudflareaccess.com"),
  some (bytes "/", bytes "/")⟩

/-- The header fields that `connect_h3` sets. -/
def connectFields : PlainMap :=
  .ofList [(bytes "capsule-protocol", bytes "?1"), (bytes "user-agent", [])]

/-- The header of its CONNECT request. -/
def connectHeader : Header PlainMap :=
  ⟨.request (bytes "CONNECT") connectUri (some .cfConnectIp), connectFields⟩

/-- The request that opens a tunnel, if the peer has not set a limit. -/
theorem sendRequest_received_connect :
    ∃ wire, sendRequest .plain .default (bytes "CONNECT") connectUri connectFields
        (some .cfConnectIp) (.ok ()) (.ok ()) = (.ok wire, .default)
      ∧ ∀ (more : List UInt8) (incoming : List (Incoming Unit)) (fuel : Nat),
          (∀ err, Incoming.error err ∉ incoming) → Incoming.bytes incoming = wire ++ more →
          (Incoming.bytes incoming).length + incoming.length < fuel →
          ∃ block s incoming' decoded header',
            FrameStream.new.awaitNext fuel incoming = (.frame (.headers block), s, incoming')
            ∧ decodeStateless block SharedState.default.effectiveSettings.maxFieldSectionSize
              = .ok decoded
            ∧ Header.tryFrom .plain decoded.fields = some (.ok header')
            ∧ header'.Same .plain connectHeader :=
  (@sendRequest_received _ _ _ _ httpLaws_plain .default rfl _ rfl _ _ _ connectHeader (by rfl)
    (by decide +kernel) (by decide +kernel) (by decide +kernel)).1 (by decide +kernel)

/-! ## Answers -/

section
variable {Uri HeaderMap : Type} {http : Http Uri HeaderMap}

/-- **An answer** is received with its status and its fields, in whatever pieces it comes and
whatever follows, if it is within the limit that the program has set; else it is refused,
with the size up to the field that was too much. -/
theorem recvResponse_answer (hlaws : HttpLaws http) (shared : SharedState) {status : Nat}
    (hstatus : 100 ≤ status ∧ status ≤ 999) {fields : HeaderMap}
    (hmodest : ∀ f ∈ (Header.response status fields).iter http, Modest f)
    (hblock : (encodeStateless ((Header.response status fields).iter http)).1.length < 2 ^ 62)
    (hlen : ((Header.response status fields).iter http).length ≤ http.maxCapacity)
    (maxSize : Nat) (more : List UInt8) {incoming : StreamIncoming} {fuel : Nat}
    (hquiet : ∀ err, Incoming.error err ∉ incoming)
    (hbytes : Incoming.bytes incoming
      = (Frame.headers (encodeStateless ((Header.response status fields).iter http)).1).wire
        ++ more)
    (hfuel : (Incoming.bytes incoming).length + incoming.length < fuel) :
    let received := recvResponse http maxSize fuel shared .new incoming
    received.shared = shared
      ∧ (fieldsSize ((Header.response status fields).iter http) ≤ maxSize →
          (∃ fields', received.answer = .ok status fields'
            ∧ ∀ k, http.getAll fields' k = http.getAll fields k) ∧ received.stops = [])
      ∧ (maxSize < fieldsSize ((Header.response status fields).iter http) →
          ∃ size, maxSize < size ∧ received.answer = .error (.headerTooBig size maxSize)
            ∧ received.stops = [Code.requestCancelled]) := by
  obtain ⟨s, incoming', hnext, -⟩ := awaitNext_headers hblock hquiet hbytes hfuel
  obtain ⟨header', hheader', hsame⟩ :=
    Header.tryFrom_iter hlaws (Header.valid_response hstatus fields) hlen
  have hparts : responseParts http ((Header.response status fields).iter http)
      = some (.ok (status, header'.fields)) := by
    have hpseudo : header'.pseudo.status = some status := congrArg Pseudo.status hsame.pseudo
    rw [responseParts, hheader']
    simp only [Option.map_some, Header.intoResponseParts, hpseudo]
  intro received
  by_cases hsize : fieldsSize ((Header.response status fields).iter http) ≤ maxSize
  · have hreceived : received = ⟨.ok status header'.fields, shared, s, []⟩ := by
      simp only [received, recvResponse, hnext, Qpack.decodeStateless_fits hmodest hsize, hparts]
    rw [hreceived]
    exact ⟨rfl, fun _ => ⟨⟨_, rfl, hsame.fields⟩, rfl⟩,
      fun h => absurd hsize (Nat.not_le.mpr h)⟩
  · obtain ⟨before, f, after, -, -, hover, hdec⟩ :=
      Qpack.decodeStateless_too_long hmodest (Nat.not_le.mp hsize)
    have hreceived : received = ⟨.error (.headerTooBig (fieldsSize before + f.memSize) maxSize),
        shared, s, [Code.requestCancelled]⟩ := by
      simp only [received, recvResponse, hnext, hdec]
    rw [hreceived]
    exact ⟨rfl, fun h => absurd h hsize, fun _ => ⟨_, hover, rfl, rfl⟩⟩

end

/-- The fields of an answer. -/
def answerHeader : PlainMap :=
  .ofList [(bytes "server", bytes "cloudflare"), (bytes "cf-team", bytes "2a"),
    (bytes "server", bytes "edge")]

/-- The frame that carries them. -/
def answerWire : List UInt8 :=
  (Frame.headers (encodeStateless ((Header.response 200 answerHeader).iter .plain)).1).wire

/-- The answer that opens a tunnel, in two pieces, and with a limit that it is too large for. -/
theorem recvResponse_answer_ok :
    (∃ fields', (recvResponse .plain 1000 200 .default .new
          [.chunk (answerWire.take 7), .pending, .chunk (answerWire.drop 7)]).answer
        = .ok 200 fields' ∧ ∀ k, Http.plain.getAll fields' k = Http.plain.getAll answerHeader k)
      ∧ (recvResponse .plain 100 200 .default .new
          [.chunk (answerWire.take 7), .pending, .chunk (answerWire.drop 7)]).stops
        = [Code.requestCancelled] := by
  let incoming : StreamIncoming :=
    [.chunk (answerWire.take 7), .pending, .chunk (answerWire.drop 7)]
  have hmodest : ∀ f ∈ (Header.response 200 answerHeader).iter .plain, Modest f := by
    decide +kernel
  have hbytes : Incoming.bytes incoming = answerWire ++ [] := by decide +kernel
  have hfuel : (Incoming.bytes incoming).length + incoming.length < 200 := by decide +kernel
  have h (maxSize : Nat) := recvResponse_answer httpLaws_plain .default
    (show 100 ≤ 200 ∧ 200 ≤ 999 by decide) hmodest (by decide +kernel) (by decide +kernel) maxSize
    [] (by simp [incoming]) hbytes hfuel
  refine ⟨((h 1000).2.1 (by decide +kernel)).1, ?_⟩
  obtain ⟨-, -, -, hstops⟩ := (h 100).2.2 (by decide +kernel)
  exact hstops

end WarpProxy.H3
