/-
# `WarpProxy.H3.Connection` — the driver of an `h3` client connection

`ConnectionInner` of `connection.rs` and `Connection::poll_close` of
`client/connection.rs`, which the program polls in a task of its own: it accepts the
streams that the peer opens, reads its control stream, greases, and comes to an end with
the error of the connection.  What the QUIC connection gives while it is polled is in
`Polls`; each poll may find anything there.

`Moves` says what any of these functions can do to the error state of the connection and
to what it has sent; each function has one lemma that says so (`moves_…`).
-/
import WarpProxy.H3.Errors

namespace WarpProxy.H3

inductive Poll (α : Type) where
  | pending
  | ready (a : α)
  deriving DecidableEq

/-! ## `stream.rs`: streams whose type is still to come -/

namespace StreamType

def control : Nat := 0x00
def push : Nat := 0x01
def encoder : Nat := 0x02
def decoder : Nat := 0x03
def webtransportUni : Nat := 0x54

end StreamType

/-- The chunks of the buffer are joined. -/
structure AcceptRecvStream where
  buf : List UInt8
  eos : Bool
  ty : Option Nat
  id : Option Nat
  expected : Option Nat
  deriving DecidableEq

inductive PollTypeError where
  | incomingError (err : ConnectionErrorIncoming)
  | internalError (err : InternalConnectionError)
  | endOfStream
  deriving DecidableEq

namespace AcceptRecvStream

def new : AcceptRecvStream := ⟨[], false, none, none, none⟩

/-- `VarInt::encoded_size` -/
def encodedSize (first : UInt8) : Nat := 2 ^ (first.toNat / 64)

/-- The part of the loop of `poll_next_varint` after the stream has been read: the varint, if
the buffer has as many bytes as it expects.  What it expects is not taken back when the varint
has been read, so that a second one is decoded with the size of the first. -/
def takeVarint (s : AcceptRecvStream) :
    Option (Except PollTypeError Nat) × AcceptRecvStream :=
  let s := match s.expected, s.buf with
    | none, first :: _ => { s with expected := some (encodedSize first) }
    | _, _ => s
  match s.expected with
  | none => (none, s)
  | some expected =>
      if s.buf.length < expected then (none, s)
      else
        match VarInt.decode s.buf with
        | .error _ =>
            (some (.error (.internalError
              ⟨Code.internalError, "Unexpected end parsing varint"⟩)), s)
        | .ok (v, buf) => (some (.ok v), { s with buf := buf })

/-- `poll_next_varint`, on what the stream gives.  After its end or a reset the buffer is
looked at once more. -/
def pollNextVarint (s : AcceptRecvStream) :
    StreamIncoming → Poll (Except PollTypeError Nat) × AcceptRecvStream × StreamIncoming
  | [] => (.pending, s, [])
  | .pending :: incoming => (.pending, s, incoming)
  | .error (.connectionErrorIncoming err) :: incoming =>
      (.ready (.error (.incomingError err)), s, incoming)
  | .error _ :: incoming =>
      let (answer, s) := s.takeVarint
      (.ready (answer.getD (.error .endOfStream)), s, incoming)
  | .eos :: incoming =>
      let (answer, s) := { s with eos := true }.takeVarint
      (.ready (answer.getD (.error .endOfStream)), s, incoming)
  | .chunk bytes :: incoming =>
      match { s with buf := s.buf ++ bytes }.takeVarint with
      | (some answer, s) => (.ready answer, s, incoming)
      | (none, s) => pollNextVarint s incoming

/-- The second varint, where the type has one. -/
def pollId (s : AcceptRecvStream) (incoming : StreamIncoming) :
    Poll (Except PollTypeError Unit) × AcceptRecvStream :=
  if (s.ty = some StreamType.push ∨ s.ty = some StreamType.webtransportUni) ∧ s.id = none then
    match s.pollNextVarint incoming with
    | (.pending, s, _) => (.pending, s)
    | (.ready (.error err), s, _) => (.ready (.error err), s)
    | (.ready (.ok v), s, _) => (.ready (.ok ()), { s with id := some v })
  else (.ready (.ok ()), s)

def pollType (s : AcceptRecvStream) (incoming : StreamIncoming) :
    Poll (Except PollTypeError Unit) × AcceptRecvStream :=
  match s.ty with
  | some _ => s.pollId incoming
  | none =>
      match s.pollNextVarint incoming with
      | (.pending, s, _) => (.pending, s)
      | (.ready (.error err), s, _) => (.ready (.error err), s)
      | (.ready (.ok v), s, incoming) => pollId { s with ty := some v } incoming

/-- The reader of a control stream begins with what is left in the buffer. -/
def intoControl (s : AcceptRecvStream) : FrameStream :=
  ⟨s.buf, s.eos, none, 0⟩

end AcceptRecvStream

/-! ## `connection.rs` -/

/-- The stream itself is left out: there is one from `started` on. -/
inductive GreaseStatus where
  | notStarted
  | started
  | dataPrepared
  | dataSent
  | finished
  deriving DecidableEq

/-- What the calls of `poll_grease_stream` give, if they are made. -/
structure GreasePolls where
  openSend : Poll Bool
  sendData : Bool
  ready : Poll Bool
  finish : Poll Bool
  deriving DecidableEq

namespace GreaseStatus

/-- `poll_grease_stream`: whether it is ready, the step, and whether the stream is still to be
sent. -/
def poll (polls : GreasePolls) : GreaseStatus → Poll Unit × GreaseStatus × Bool
  | .notStarted =>
      match polls.openSend with
      | .pending => (.pending, .notStarted, true)
      | .ready false => (.ready (), .notStarted, false)
      | .ready true => pollStarted
  | .started => pollStarted
  | .dataPrepared => pollPrepared
  | .dataSent => pollSent
  | .finished => (.ready (), .finished, false)
where
  pollStarted : Poll Unit × GreaseStatus × Bool :=
    if polls.sendData then pollPrepared else (.ready (), .started, false)
  pollPrepared : Poll Unit × GreaseStatus × Bool :=
    match polls.ready with
    | .pending => (.pending, .dataPrepared, true)
    | .ready false => (.ready (), .dataPrepared, false)
    | .ready true => pollSent
  pollSent : Poll Unit × GreaseStatus × Bool :=
    match polls.finish with
    | .pending => (.pending, .dataSent, true)
    | .ready false => (.ready (), .dataSent, false)
    | .ready true => (.ready (), .finished, false)

end GreaseStatus

/-- What the QUIC connection gives during one `poll_control`, but for the control stream: the
streams that it accepts and the error that ends them, what the streams without a type give,
and what the grease stream gives. -/
structure Polls where
  accepted : Nat
  acceptError : Option ConnectionErrorIncoming
  streams : List StreamIncoming
  grease : GreasePolls

/-- The streams that nobody reads and the WebTransport streams are left out.  The last two
fields are what has been sent: CONNECTION_CLOSE frames, and the codes of STOP_SENDING
frames. -/
structure ConnectionInner where
  shared : SharedState
  controlRecv : Option FrameStream
  encoderRecv : Bool
  decoderRecv : Bool
  pendingRecvStreams : List AcceptRecvStream
  gotPeerSettings : Bool
  handledConnectionError : Option ConnectionError
  sendGreaseStreamFlag : Bool
  greaseStep : GreaseStatus
  closes : List (Nat × String)
  stops : List Nat
  deriving DecidableEq

namespace ConnectionInner

/-- `ConnectionInner::new`, after the header of the control stream. -/
def new (config : Config) : ConnectionInner :=
  ⟨.default, none, false, false, [], false, none, config.sendGrease, .notStarted, [], []⟩

/-! ### `connection_error_creators.rs` -/

def closeIfNeeded (c : ConnectionInner) (err : ErrorOrigin) : ConnectionInner :=
  { c with closes := c.closes ++ err.closing.toList }

def convertToConnectionError (c : ConnectionInner) (err : ErrorOrigin) :
    ConnectionError × ConnectionInner :=
  (err.toConnectionError, { c with handledConnectionError := some err.toConnectionError })

def handleConnectionError (c : ConnectionInner) (err : ErrorOrigin) :
    ConnectionError × ConnectionInner :=
  match c.handledConnectionError with
  | some handled => (handled, c)
  | none =>
      let (err, shared) := c.shared.setConnError err
      ({ c with shared := shared }.closeIfNeeded err).convertToConnectionError err

/-- An `InternalConnectionError` is one with a code and a text. -/
def fail (c : ConnectionInner) (code : Nat) (message : String) :
    ConnectionError × ConnectionInner :=
  c.handleConnectionError (.internal ⟨code, message⟩)

/-- `poll_connection_error`: it is pending while there is none. -/
def pollConnectionError (c : ConnectionInner) : Option ConnectionError × ConnectionInner :=
  match c.handledConnectionError with
  | some handled => (some handled, c)
  | none =>
      match c.shared.connectionError with
      | some err =>
          let (err, c) := (c.closeIfNeeded err).convertToConnectionError err
          (some err, c)
      | none => (none, c)

/-! ### Accepting streams -/

/-- What is done with a stream whose type is known. -/
def resolve (c : ConnectionInner) (s : AcceptRecvStream) :
    Option ConnectionError × ConnectionInner :=
  let ty := s.ty.getD 0
  if ty = StreamType.control then
    match c.controlRecv with
    | some _ =>
        let (err, c) := c.fail Code.streamCreationError "got two control streams"
        (some err, c)
    | none => (none, { c with controlRecv := some s.intoControl })
  else if ty = StreamType.encoder then
    if c.encoderRecv then
      let (err, c) := c.fail Code.streamCreationError "got two encoder streams"
      (some err, c)
    else (none, { c with encoderRecv := true })
  else if ty = StreamType.decoder then
    if c.decoderRecv then
      let (err, c) := c.fail Code.streamCreationError "got two decoder streams"
      (some err, c)
    else (none, { c with decoderRecv := true })
  else if ty = StreamType.push ∨ ty = StreamType.webtransportUni then (none, c)
  else (none, { c with stops := c.stops ++ [Code.streamCreationError] })

/-- The loop over the streams without a type: those that keep waiting are collected. -/
def resolveAll (c : ConnectionInner) : List AcceptRecvStream → List StreamIncoming →
    Option ConnectionError × ConnectionInner × List AcceptRecvStream
  | [], _ => (none, c, [])
  | s :: streams, incoming =>
      match s.pollType (incoming.headD []) with
      | (.pending, s) =>
          let (err, c, waiting) := c.resolveAll streams incoming.tail
          (err, c, s :: waiting)
      | (.ready (.error .endOfStream), _) => c.resolveAll streams incoming.tail
      | (.ready (.error (.incomingError err)), s) =>
          let (err, c) := c.handleConnectionError (.quic err)
          (some err, c, s :: streams)
      | (.ready (.error (.internalError err)), s) =>
          let (err, c) := c.handleConnectionError (.internal err)
          (some err, c, s :: streams)
      | (.ready (.ok ()), s) =>
          match c.resolve s with
          | (some err, c) => (some err, c, streams)
          | (none, c) => c.resolveAll streams incoming.tail

def pollAcceptRecv (c : ConnectionInner) (polls : Polls) :
    Option ConnectionError × ConnectionInner :=
  match c.pollConnectionError with
  | (some err, c) => (some err, c)
  | (none, c) =>
      let streams := c.pendingRecvStreams ++ List.replicate polls.accepted .new
      match polls.acceptError with
      | some err =>
          let (err, c) :=
            { c with pendingRecvStreams := streams }.handleConnectionError (.quic err)
          (some err, c)
      | none =>
          let (err, c, waiting) := c.resolveAll streams polls.streams
          (err, { c with pendingRecvStreams := waiting })

/-! ### The control stream -/

/-- The match of `poll_control` on what the control stream gives. -/
def onControl (c : ConnectionInner) :
    Next StreamErrorIncoming → Poll (Except ConnectionError Frame) × ConnectionInner
  | .pending => (.pending, c)
  | .panicked => (.pending, c)
  | .error (.quic (.connectionErrorIncoming err)) =>
      let (err, c) := c.handleConnectionError (.quic err)
      (.ready (.error err), c)
  | .error (.quic (.streamTerminated errorCode)) =>
      let (err, c) := c.fail Code.closedCriticalStream
        s!"control stream was reset with error code {errorCode}"
      (.ready (.error err), c)
  | .error (.quic (.unknown error)) =>
      let (err, c) := c.fail Code.closedCriticalStream
        s!"an error occurred on the control stream {error}"
      (.ready (.error err), c)
  | .error .unexpectedEnd =>
      let (err, c) := c.fail Code.frameError "received incomplete frame"
      (.ready (.error err), c)
  | .error (.proto err) =>
      let (err, c) := c.handleConnectionError (.internal (.gotFrameError err))
      (.ready (.error err), c)
  | .finished =>
      let (err, c) := c.fail Code.closedCriticalStream "control stream was closed"
      (.ready (.error err), c)
  | .frame frame =>
      match frame, c.gotPeerSettings with
      | .settings settings, false =>
          (.ready (.ok (.settings settings)),
            { c with gotPeerSettings := true
                     shared := c.shared.setSettings (.ofWire settings) })
      | .settings _, true =>
          let (err, c) := c.fail Code.frameUnexpected "second settings frame received"
          (.ready (.error err), c)
      | frame, false =>
          let (err, c) := c.fail Code.missingSettings
            s!"received frame {frame.debug} before settings"
          (.ready (.error err), c)
      | .goaway id, true => (.ready (.ok (.goaway id)), c)
      | .cancelPush id, true => (.ready (.ok (.cancelPush id)), c)
      | .maxPushId id, true => (.ready (.ok (.maxPushId id)), c)
      | frame, true =>
          let (err, c) := c.fail Code.frameUnexpected
            s!"received unexpected frame {frame.debug} on control stream"
          (.ready (.error err), c)

/-- The end of `poll_control`: a frame that has been read is lost when the grease stream is
pending. -/
def grease (c : ConnectionInner) (polls : GreasePolls) (frame : Frame) :
    Poll (Except ConnectionError Frame) × ConnectionInner :=
  if c.sendGreaseStreamFlag then
    match c.greaseStep.poll polls with
    | (.pending, step, flag) =>
        (.pending, { c with greaseStep := step, sendGreaseStreamFlag := flag })
    | (.ready (), step, flag) =>
        (.ready (.ok frame), { c with greaseStep := step, sendGreaseStreamFlag := flag })
  else (.ready (.ok frame), c)

/-- `poll_control`, with what is left of what the control stream gives. -/
def pollControl (c : ConnectionInner) (polls : Polls) (control : StreamIncoming) :
    Poll (Except ConnectionError Frame) × ConnectionInner × StreamIncoming :=
  match c.pollConnectionError with
  | (some err, c) => (.ready (.error err), c, control)
  | (none, c) =>
      match c.pollAcceptRecv polls with
      | (some err, c) => (.ready (.error err), c, control)
      | (none, c) =>
          match c.controlRecv with
          | none => (.pending, c, control)
          | some recv =>
              let (next, recv, control) := recv.pollNext control
              match { c with controlRecv := some recv }.onControl next with
              | (.ready (.ok frame), c) =>
                  let (answer, c) := c.grease polls.grease frame
                  (answer, c, control)
              | (answer, c) => (answer, c, control)

end ConnectionInner

/-! ## What can become of a connection -/

namespace ConnectionInner

/-- **The error state**: an error that has been handled is the first one, the connection has
been closed with its code if that is needed, and there are settings if they have come. -/
structure Inv (c : ConnectionInner) : Prop where
  handled : ∀ err, c.handledConnectionError = some err →
    ∃ origin, c.shared.connectionError = some origin ∧ err = origin.toConnectionError
  closes : c.closes = if c.handledConnectionError.isSome
    then (c.shared.connectionError.bind ErrorOrigin.closing).toList else []
  settings : c.shared.settings.isSome = c.gotPeerSettings

theorem inv_new (config : Config) : (new config).Inv :=
  ⟨fun _ h => by simp [new] at h, by simp [new], rfl⟩

/-- There is no data to be read on the control stream, except that of a frame that has been
an error. -/
def Read (c : ConnectionInner) : Prop :=
  ∀ recv, c.controlRecv = some recv → recv.remainingData ≠ 0 → c.handledConnectionError.isSome

/-- What has been set stays, and `closing` is not set. -/
structure Moves (c c' : ConnectionInner) : Prop where
  inv : c.Inv → c'.Inv
  read : c.Read → c'.Read
  le : c.shared.Le c'.shared
  handled : ∀ err, c.handledConnectionError = some err → c'.handledConnectionError = some err
  closing : c'.shared.closing = c.shared.closing

theorem Moves.refl (c : ConnectionInner) : Moves c c :=
  ⟨id, id, .refl _, fun _ h => h, rfl⟩

theorem Moves.trans {c c' c'' : ConnectionInner} (h : Moves c c') (h' : Moves c' c'') :
    Moves c c'' :=
  ⟨fun hi => h'.inv (h.inv hi), fun hr => h'.read (h.read hr), h.le.trans h'.le,
    fun err he => h'.handled err (h.handled err he), h'.closing.trans h.closing⟩

/-- The error that is given is the one that has been handled. -/
def Told (err : ConnectionError) (c : ConnectionInner) : Prop :=
  c.handledConnectionError = some err

/-- Recording an error and closing the connection with it. -/
theorem moves_convert {c : ConnectionInner} {shared : SharedState} {origin : ErrorOrigin}
    (hnone : c.handledConnectionError = none) (hle : c.shared.Le shared)
    (hset : shared.connectionError = some origin) (hsettings : shared.settings = c.shared.settings)
    (hclosing : shared.closing = c.shared.closing) :
    Moves c
      (({ c with shared := shared }.closeIfNeeded origin).convertToConnectionError origin).2 := by
  refine ⟨?_, fun _ _ _ _ => rfl, hle, fun err h => by simp [hnone] at h, hclosing⟩
  intro hi
  refine ⟨?_, ?_, ?_⟩
  · intro err h
    exact ⟨origin, hset, (Option.some.inj h).symm⟩
  · have hc := hi.closes
    simp only [hnone, Option.isSome_none, Bool.false_eq_true, if_false] at hc
    simp [convertToConnectionError, closeIfNeeded, hc, hset]
  · exact (congrArg Option.isSome hsettings).trans hi.settings

theorem moves_handleConnectionError (c : ConnectionInner) (err : ErrorOrigin) :
    Moves c (c.handleConnectionError err).2
      ∧ Told (c.handleConnectionError err).1 (c.handleConnectionError err).2 := by
  unfold handleConnectionError
  cases h : c.handledConnectionError with
  | some handled => exact ⟨.refl c, h⟩
  | none =>
      obtain ⟨hle, hset, hsettings, hclosing⟩ := c.shared.setConnError_spec err
      exact ⟨moves_convert h hle hset hsettings hclosing, rfl⟩

theorem moves_fail (c : ConnectionInner) (code : Nat) (message : String) :
    Moves c (c.fail code message).2 ∧ Told (c.fail code message).1 (c.fail code message).2 :=
  c.moves_handleConnectionError _

/-- An answer that is an error has been handled, and else none has. -/
structure MovesTo (c : ConnectionInner) (res : Option ConnectionError × ConnectionInner) :
    Prop where
  moves : Moves c res.2
  told : ∀ err, res.1 = some err → Told err res.2
  quiet : res.1 = none → res.2.handledConnectionError = c.handledConnectionError

theorem MovesTo.fail (c : ConnectionInner) (code : Nat) (message : String) :
    MovesTo c (some (c.fail code message).1, (c.fail code message).2) := by
  obtain ⟨hmoves, htold⟩ := c.moves_fail code message
  refine ⟨hmoves, ?_, fun h => nomatch h⟩
  intro err h
  exact Option.some.inj h ▸ htold

theorem MovesTo.handle (c : ConnectionInner) (err : ErrorOrigin) :
    MovesTo c (some (c.handleConnectionError err).1, (c.handleConnectionError err).2) := by
  obtain ⟨hmoves, htold⟩ := c.moves_handleConnectionError err
  refine ⟨hmoves, ?_, fun h => nomatch h⟩
  intro err h
  exact Option.some.inj h ▸ htold

theorem MovesTo.none {c c' : ConnectionInner} (h : Moves c c')
    (hquiet : c'.handledConnectionError = c.handledConnectionError) : MovesTo c (none, c') :=
  ⟨h, fun _ h => (nomatch h), fun _ => hquiet⟩

theorem MovesTo.after {c c' : ConnectionInner} {res : Option ConnectionError × ConnectionInner}
    (h : MovesTo c (Option.none, c')) (h' : MovesTo c' res) : MovesTo c res :=
  ⟨h.moves.trans h'.moves, h'.told, fun hn => (h'.quiet hn).trans (h.quiet rfl)⟩

theorem moves_pollConnectionError (c : ConnectionInner) : MovesTo c c.pollConnectionError := by
  unfold pollConnectionError
  cases h : c.handledConnectionError with
  | some handled =>
      refine ⟨.refl c, ?_, fun h => nomatch h⟩
      intro err heq
      exact Option.some.inj heq ▸ h
  | none =>
      cases hs : c.shared.connectionError with
      | none => exact .none (.refl c) rfl
      | some origin =>
          refine ⟨moves_convert h (.refl c.shared) hs rfl rfl, ?_, fun h => nomatch h⟩
          intro err heq
          exact congrArg some (Option.some.inj heq)

/-- It is pending only if there is no error, and does nothing then. -/
theorem pollConnectionError_none {c c' : ConnectionInner}
    (h : c.pollConnectionError = (none, c')) :
    c' = c ∧ c.handledConnectionError = none ∧ c.shared.connectionError = none := by
  unfold pollConnectionError at h
  cases hh : c.handledConnectionError with
  | some handled => simp [hh] at h
  | none =>
      cases hs : c.shared.connectionError with
      | some origin => simp [hh, hs, convertToConnectionError] at h
      | none =>
          simp only [hh, hs, Prod.mk.injEq, true_and] at h
          exact ⟨h.symm, rfl, rfl⟩

/-- A change of the fields that have nothing to do with errors. -/
theorem moves_fields {c c' : ConnectionInner} (hshared : c'.shared = c.shared)
    (hhandled : c'.handledConnectionError = c.handledConnectionError)
    (hcloses : c'.closes = c.closes) (hgot : c'.gotPeerSettings = c.gotPeerSettings)
    (hread : c.Read → c'.Read) : Moves c c' := by
  refine ⟨?_, hread, hshared ▸ .refl _, fun err h => hhandled.trans h, by rw [hshared]⟩
  intro hi
  exact ⟨by rw [hhandled, hshared]; exact hi.handled,
    by rw [hcloses, hhandled, hshared]; exact hi.closes,
    by rw [hshared, hgot]; exact hi.settings⟩

theorem moves_resolve (c : ConnectionInner) (s : AcceptRecvStream) : MovesTo c (c.resolve s) := by
  unfold resolve
  simp only
  split
  · split
    · exact .fail c _ _
    · refine .none (moves_fields rfl rfl rfl rfl ?_) rfl
      intro _ recv hrecv hdata
      obtain rfl : s.intoControl = recv := Option.some.inj hrecv
      exact absurd rfl hdata
  · split
    · split
      · exact .fail c _ _
      · exact .none (moves_fields rfl rfl rfl rfl fun h => h) rfl
    · split
      · split
        · exact .fail c _ _
        · exact .none (moves_fields rfl rfl rfl rfl fun h => h) rfl
      · split
        · exact .none (.refl c) rfl
        · exact .none (moves_fields rfl rfl rfl rfl fun h => h) rfl

theorem moves_resolveAll (c : ConnectionInner) (streams : List AcceptRecvStream)
    (incoming : List StreamIncoming) :
    MovesTo c ((c.resolveAll streams incoming).1, (c.resolveAll streams incoming).2.1) := by
  induction streams generalizing c incoming with
  | nil => exact .none (.refl c) rfl
  | cons s streams ih =>
      unfold resolveAll
      split
      · exact ih c incoming.tail
      · exact ih c incoming.tail
      · exact .handle c _
      · exact .handle c _
      · next s' _ =>
          have h := c.moves_resolve s'
          split
          · next err c' heq => exact heq ▸ h
          · next c' heq =>
              rw [heq] at h
              exact .after h (ih c' incoming.tail)

theorem moves_pollAcceptRecv (c : ConnectionInner) (polls : Polls) :
    MovesTo c (c.pollAcceptRecv polls) := by
  unfold pollAcceptRecv
  have hpoll := c.moves_pollConnectionError
  split
  · next err c' heq => exact heq ▸ hpoll
  · next c' heq =>
      rw [heq] at hpoll
      refine .after hpoll ?_
      simp only
      split
      · refine @MovesTo.after _ { c' with pendingRecvStreams := _ } _ ?_ (.handle _ _)
        exact .none (moves_fields rfl rfl rfl rfl fun h => h) rfl
      · have h := c'.moves_resolveAll
          (c'.pendingRecvStreams ++ List.replicate polls.accepted .new) polls.streams
        exact ⟨h.moves.trans (moves_fields rfl rfl rfl rfl fun h => h), h.told, h.quiet⟩

/-- What `poll_control` can come to: an answer with a frame comes after the settings. -/
structure MovesOn (c : ConnectionInner)
    (res : Poll (Except ConnectionError Frame) × ConnectionInner) : Prop where
  moves : Moves c res.2
  told : ∀ err, res.1 = .ready (.error err) → Told err res.2
  got : ∀ frame, res.1 = .ready (.ok frame) → res.2.gotPeerSettings = true

theorem MovesOn.fail (c : ConnectionInner) (code : Nat) (message : String) :
    MovesOn c (.ready (.error (c.fail code message).1), (c.fail code message).2) := by
  obtain ⟨hmoves, htold⟩ := c.moves_fail code message
  refine ⟨hmoves, ?_, fun _ h => nomatch h⟩
  intro err h
  cases h
  exact htold

theorem MovesOn.handle (c : ConnectionInner) (err : ErrorOrigin) :
    MovesOn c
      (.ready (.error (c.handleConnectionError err).1), (c.handleConnectionError err).2) := by
  obtain ⟨hmoves, htold⟩ := c.moves_handleConnectionError err
  refine ⟨hmoves, ?_, fun _ h => nomatch h⟩
  intro err h
  cases h
  exact htold

theorem MovesOn.pending {c c' : ConnectionInner} (h : Moves c c') : MovesOn c (.pending, c') :=
  ⟨h, fun _ h => (nomatch h), fun _ h => nomatch h⟩

theorem MovesOn.after {c c' : ConnectionInner}
    {res : Poll (Except ConnectionError Frame) × ConnectionInner} (h : Moves c c')
    (h' : MovesOn c' res) : MovesOn c res :=
  ⟨h.trans h'.moves, h'.told, h'.got⟩

theorem moves_setSettings {c : ConnectionInner} (settings : Settings) :
    Moves c { c with gotPeerSettings := true
                     shared := c.shared.setSettings (.ofWire settings) } := by
  have herror : (c.shared.setSettings (.ofWire settings)).connectionError
      = c.shared.connectionError := by
    unfold SharedState.setSettings
    split <;> rfl
  have hsome : (c.shared.setSettings (.ofWire settings)).settings.isSome = true := by
    unfold SharedState.setSettings
    split
    · next h => simp [h]
    · rfl
  refine ⟨?_, id, c.shared.setSettings_le _, fun _ h => h, ?_⟩
  · intro hi
    exact ⟨by rw [herror]; exact hi.handled, by rw [herror]; exact hi.closes, hsome⟩
  · unfold SharedState.setSettings
    split <;> rfl

theorem moves_onControl (c : ConnectionInner) (next : Next StreamErrorIncoming) :
    MovesOn c (c.onControl next) := by
  unfold onControl
  split
  · exact .pending (.refl c)
  · exact .pending (.refl c)
  · exact .handle c _
  · exact .fail c _ _
  · exact .fail c _ _
  · exact .fail c _ _
  · exact .handle c _
  · exact .fail c _ _
  · split
    · exact ⟨moves_setSettings _, fun _ h => (nomatch h), fun _ _ => rfl⟩
    · exact .fail c _ _
    · exact .fail c _ _
    · next hgot => exact ⟨.refl c, fun _ h => (nomatch h), fun _ _ => hgot⟩
    · next hgot => exact ⟨.refl c, fun _ h => (nomatch h), fun _ _ => hgot⟩
    · next hgot => exact ⟨.refl c, fun _ h => (nomatch h), fun _ _ => hgot⟩
    · exact .fail c _ _

/-- A frame that has data is an error. -/
theorem onControl_hasData {c : ConnectionInner} {frame : Frame} (h : frame.hasData = true) :
    ∃ err, (c.onControl (.frame frame)).1 = .ready (.error err) := by
  cases frame with
  | data len => cases hgot : c.gotPeerSettings <;> simp [onControl, hgot]
  | webTransportStream id => cases hgot : c.gotPeerSettings <;> simp [onControl, hgot]
  | _ => cases h

theorem moves_grease {c : ConnectionInner} (hgot : c.gotPeerSettings = true) (polls : GreasePolls)
    (frame : Frame) : MovesOn c (c.grease polls frame) := by
  unfold grease
  split
  · split
    · exact .pending (moves_fields rfl rfl rfl rfl fun h => h)
    · exact ⟨moves_fields rfl rfl rfl rfl fun h => h, fun _ h => (nomatch h), fun _ _ => hgot⟩
  · exact ⟨.refl c, fun _ h => (nomatch h), fun _ _ => hgot⟩

/-- Reading the control stream: where there is data to be read now, the frame is an error. -/
theorem moves_recv {c : ConnectionInner} {recv : FrameStream} (hrecv : c.controlRecv = some recv)
    (control : StreamIncoming) :
    MovesOn c (onControl { c with controlRecv := some (recv.pollNext control).2.1 }
      (recv.pollNext control).1) := by
  have h := moves_onControl { c with controlRecv := some (recv.pollNext control).2.1 }
    (recv.pollNext control).1
  have hset (hread : c.Read → Read { c with controlRecv := some (recv.pollNext control).2.1 }) :
      Moves c { c with controlRecv := some (recv.pollNext control).2.1 } :=
    moves_fields rfl rfl rfl rfl hread
  by_cases hdata : recv.remainingData = 0
  · have hpoll := recv.pollLoop_remaining hdata control
    rw [FrameStream.pollNext, if_neg (by simp [hdata])] at h hset ⊢
    rcases hpoll with hzero | ⟨frame, hframe, hhas⟩
    · refine .after (hset ?_) h
      intro _ recv' hrecv' hne
      obtain rfl := Option.some.inj hrecv'
      exact absurd hzero hne
    · -- the frame that the data belongs to is refused
      rw [hframe] at h ⊢
      obtain ⟨err, herr⟩ := onControl_hasData
        (c := { c with controlRecv := some (recv.pollLoop control).2.1 }) hhas
      have htold := h.told err herr
      refine ⟨?_, h.told, h.got⟩
      refine ⟨?_, fun _ _ _ _ => by rw [htold]; rfl, h.moves.le, h.moves.handled, h.moves.closing⟩
      intro hi
      exact h.moves.inv ⟨hi.handled, hi.closes, hi.settings⟩
  · rw [FrameStream.pollNext, if_pos hdata] at h hset ⊢
    refine .after (hset ?_) h
    intro hread recv' hrecv' _
    exact hread recv hrecv hdata

theorem moves_pollControl (c : ConnectionInner) (polls : Polls) (control : StreamIncoming) :
    MovesOn c ((c.pollControl polls control).1, (c.pollControl polls control).2.1) := by
  have hpoll := c.moves_pollConnectionError
  unfold pollControl
  split
  · next err c' heq =>
      rw [heq] at hpoll
      exact ⟨hpoll.moves, fun err h => by cases h; exact hpoll.told _ rfl, fun _ h => nomatch h⟩
  · next c' heq =>
      rw [heq] at hpoll
      refine .after hpoll.moves ?_
      have haccept := c'.moves_pollAcceptRecv polls
      split
      · next err c'' heq =>
          rw [heq] at haccept
          exact ⟨haccept.moves, fun err h => by cases h; exact haccept.told _ rfl,
            fun _ h => nomatch h⟩
      · next c'' heq =>
          rw [heq] at haccept
          refine .after haccept.moves ?_
          split
          · exact .pending (.refl c'')
          · next recv hrecv =>
              have h := moves_recv hrecv control
              split
              · next next recv' control hnext =>
                  rw [hnext] at h
                  split
                  · next frame d heq =>
                      rw [heq] at h
                      have hgrease := moves_grease (h.got frame rfl) polls.grease frame
                      exact .after h.moves hgrease
                  · next answer d _ heq =>
                      rw [heq] at h
                      exact h

/-- **The assertion of `poll_next` does not fail**: the control stream is not polled once a
frame with data has been seen on it. -/
theorem pollNext_ne_panicked {c c' : ConnectionInner} (hread : c.Read) {polls : Polls}
    (hpoll : c.pollConnectionError = (none, c)) (haccept : c.pollAcceptRecv polls = (none, c'))
    {recv : FrameStream} (hrecv : c'.controlRecv = some recv) : recv.remainingData = 0 := by
  have h := c.moves_pollAcceptRecv polls
  rw [haccept] at h
  have hnone := (h.quiet rfl).trans (pollConnectionError_none hpoll).2.1
  by_contra hdata
  have hsome := h.moves.read hread recv hrecv hdata
  rw [hnone] at hsome
  cases hsome

end ConnectionInner

/-! ## `client/connection.rs` -/

/-- `Connection`; `shutdown` is not used, so nothing is ever sent as `sent_closing`. -/
structure Connection where
  inner : ConnectionInner
  recvClosing : Option Nat
  deriving DecidableEq

/-- `StreamId::is_request`: the two low bits say that it is bidirectional and of the client. -/
def isRequest (id : Nat) : Bool := id % 4 == 0

namespace Connection

def new (config : Config) : Connection := ⟨.new config, none⟩

def fail (c : Connection) (code : Nat) (message : String) : ConnectionError × Connection :=
  let (err, inner) := c.inner.fail code message
  (err, { c with inner := inner })

/-- `process_goaway`, with the error it gives. -/
def processGoaway (c : Connection) (id : Nat) : Option ConnectionError × Connection :=
  match c.recvClosing with
  | some prevId =>
      if prevId < id then
        let (err, c) := c.fail Code.idError
          s!"received a GoAway ({id}) greater than the former one ({prevId})"
        (some err, c)
      else (none, accept)
  | none => (none, accept)
where
  accept : Connection :=
    ⟨{ c.inner with shared := c.inner.shared.setClosing }, some id⟩

/-- What `poll_close` does with a frame of the control stream. -/
def onFrame (c : Connection) : Frame → Option ConnectionError × Connection
  | .settings _ => (none, c)
  | .goaway id =>
      if isRequest id then c.processGoaway id
      else
        let (err, c) := c.fail Code.idError s!"non-request StreamId in a GoAway frame: {id}"
        (some err, c)
  | frame =>
      let (err, c) := c.fail Code.frameUnexpected s!"on client control stream: {frame.debug}"
      (some err, c)

/-- The end of `poll_close`: `poll_accept_bi`, which is ready with a stream or an error. -/
def pollBi (c : Connection) (bi : Poll (Except ConnectionErrorIncoming Unit)) :
    Poll ConnectionError × Connection :=
  let message := "client received a server-initiated bidirectional stream"
  match c.inner.pollConnectionError with
  | (some _, inner) =>
      let (err, c) := fail { c with inner := inner } Code.streamCreationError message
      (.ready err, c)
  | (none, inner) =>
      match bi with
      | .pending => (.pending, { c with inner := inner })
      | .ready (.ok ()) =>
          let (err, c) := fail { c with inner := inner } Code.streamCreationError message
          (.ready err, c)
      | .ready (.error err) =>
          let (_, inner) := inner.handleConnectionError (.quic err)
          let (err, c) := fail { c with inner := inner } Code.streamCreationError message
          (.ready err, c)

/-- `poll_close`, with what is left of what the control stream gives; there is one `Polls` for
each time that it goes round, and it finds nothing after the last. -/
def pollClose (c : Connection) (bi : Poll (Except ConnectionErrorIncoming Unit)) :
    List Polls → StreamIncoming → Poll ConnectionError × Connection × StreamIncoming
  | [], control =>
      let (answer, c) := c.pollBi bi
      (answer, c, control)
  | polls :: rest, control =>
      match c.inner.pollControl polls control with
      | (.pending, inner, control) =>
          let (answer, c) := pollBi { c with inner := inner } bi
          (answer, c, control)
      | (.ready (.error err), inner, control) => (.ready err, { c with inner := inner }, control)
      | (.ready (.ok frame), inner, control) =>
          match onFrame { c with inner := inner } frame with
          | (some err, c) => (.ready err, c, control)
          | (none, c) => c.pollClose bi rest control

/-- Besides the error state: the connection is closing when a GOAWAY frame has come, with the
identifier of a request and after the settings. -/
structure Inv (c : Connection) : Prop where
  inner : c.inner.Inv
  read : c.inner.Read
  closing : c.inner.shared.closing = c.recvClosing.isSome
  goaway : ∀ id, c.recvClosing = some id → isRequest id = true ∧ c.inner.gotPeerSettings = true

theorem inv_new (config : Config) : (new config).Inv :=
  ⟨ConnectionInner.inv_new config, fun _ h => (nomatch h), rfl, fun _ h => nomatch h⟩

/-- What has been set stays, and the identifier of a GOAWAY frame does not grow. -/
structure Moves (c c' : Connection) : Prop where
  inv : c.Inv → c'.Inv
  le : c.inner.shared.Le c'.inner.shared
  handled : ∀ err, ConnectionInner.Told err c.inner → ConnectionInner.Told err c'.inner
  goaway : ∀ id, c.recvClosing = some id → ∃ id', c'.recvClosing = some id' ∧ id' ≤ id

theorem Moves.refl (c : Connection) : Moves c c :=
  ⟨id, .refl _, fun _ h => h, fun id h => ⟨id, h, Nat.le_refl id⟩⟩

theorem Moves.trans {c c' c'' : Connection} (h : Moves c c') (h' : Moves c' c'') :
    Moves c c'' := by
  refine ⟨fun hi => h'.inv (h.inv hi), h.le.trans h'.le,
    fun e he => h'.handled e (h.handled e he), ?_⟩
  intro id hid
  obtain ⟨id₁, hid₁, hle₁⟩ := h.goaway id hid
  obtain ⟨id₂, hid₂, hle₂⟩ := h'.goaway id₁ hid₁
  exact ⟨id₂, hid₂, Nat.le_trans hle₂ hle₁⟩

theorem moves_inner {c : Connection} {inner : ConnectionInner} (h : c.inner.Moves inner) :
    Moves c { c with inner := inner } := by
  refine ⟨?_, h.le, h.handled, fun id hid => ⟨id, hid, Nat.le_refl id⟩⟩
  intro hi
  refine ⟨h.inv hi.inner, h.read hi.read, h.closing.trans hi.closing, ?_⟩
  intro id hid
  obtain ⟨hreq, hgot⟩ := hi.goaway id hid
  refine ⟨hreq, ?_⟩
  -- the settings that have come are still there
  have hsome := hi.inner.settings.trans hgot
  obtain ⟨v, hv⟩ := Option.isSome_iff_exists.mp hsome
  show inner.gotPeerSettings = true
  rw [← (h.inv hi.inner).settings, h.le.settings v hv]
  rfl

/-- An answer that is an error has been handled. -/
structure MovesTo (c : Connection) (res : Option ConnectionError × Connection) : Prop where
  moves : Moves c res.2
  told : ∀ err, res.1 = some err → ConnectionInner.Told err res.2.inner

theorem moves_fail (c : Connection) (code : Nat) (message : String) :
    MovesTo c (some (c.fail code message).1, (c.fail code message).2) := by
  obtain ⟨hmoves, htold⟩ := c.inner.moves_fail code message
  refine ⟨moves_inner hmoves, ?_⟩
  intro err h
  cases h
  exact htold

theorem moves_processGoaway {c : Connection} {id : Nat} (hreq : isRequest id = true)
    (hgot : c.inner.gotPeerSettings = true) : MovesTo c (c.processGoaway id) := by
  have haccept (hle : ∀ prev, c.recvClosing = some prev → id ≤ prev) :
      MovesTo c (none, processGoaway.accept c id) := by
    refine ⟨⟨?_, c.inner.shared.setClosing_le, fun _ h => h, ?_⟩, fun _ h => nomatch h⟩
    · intro hi
      refine ⟨⟨hi.inner.handled, hi.inner.closes, hi.inner.settings⟩, hi.read, rfl, ?_⟩
      intro id' hid'
      cases hid'
      exact ⟨hreq, hgot⟩
    · intro prev hprev
      exact ⟨id, rfl, hle prev hprev⟩
  unfold processGoaway
  split
  · next prev hprev =>
      split
      · exact c.moves_fail _ _
      · refine haccept ?_
        intro prev' hprev'
        rw [hprev] at hprev'
        cases hprev'
        omega
  · next hnone =>
      refine haccept ?_
      intro prev hprev
      rw [hnone] at hprev
      cases hprev

theorem moves_onFrame {c : Connection} (hgot : c.inner.gotPeerSettings = true) (frame : Frame) :
    MovesTo c (c.onFrame frame) := by
  unfold onFrame
  split
  · exact ⟨.refl c, fun _ h => nomatch h⟩
  · split
    · next hreq => exact moves_processGoaway hreq hgot
    · exact c.moves_fail _ _
  · exact c.moves_fail _ _

/-- What a poll of the driver can come to. -/
structure MovesOn (c : Connection) (res : Poll ConnectionError × Connection) : Prop where
  moves : Moves c res.2
  told : ∀ err, res.1 = .ready err → ConnectionInner.Told err res.2.inner

theorem MovesOn.after {c c' : Connection} {res : Poll ConnectionError × Connection}
    (h : Moves c c') (h' : MovesOn c' res) : MovesOn c res :=
  ⟨h.trans h'.moves, h'.told⟩

theorem MovesOn.fail (c : Connection) (code : Nat) (message : String) :
    MovesOn c (.ready (c.fail code message).1, (c.fail code message).2) := by
  obtain ⟨hmoves, htold⟩ := c.moves_fail code message
  refine ⟨hmoves, ?_⟩
  intro err h
  cases h
  exact htold _ rfl

theorem moves_pollBi (c : Connection) (bi : Poll (Except ConnectionErrorIncoming Unit)) :
    MovesOn c (c.pollBi bi) := by
  have hpoll := c.inner.moves_pollConnectionError
  unfold pollBi
  simp only
  split
  · next err inner heq =>
      rw [heq] at hpoll
      exact .after (moves_inner hpoll.moves) (.fail _ _ _)
  · next inner heq =>
      rw [heq] at hpoll
      have hinner := moves_inner hpoll.moves
      split
      · exact ⟨hinner, fun _ h => nomatch h⟩
      · exact .after hinner (.fail _ _ _)
      · next err =>
          have hhandle := (inner.moves_handleConnectionError (.quic err)).1
          exact .after (moves_inner (hpoll.moves.trans hhandle)) (.fail _ _ _)

/-- **A poll of the driver**, with anything from the QUIC connection. -/
theorem moves_pollClose (c : Connection) (bi : Poll (Except ConnectionErrorIncoming Unit))
    (polls : List Polls) (control : StreamIncoming) :
    MovesOn c ((c.pollClose bi polls control).1, (c.pollClose bi polls control).2.1) := by
  induction polls generalizing c control with
  | nil => exact c.moves_pollBi bi
  | cons p polls ih =>
      have hcontrol := c.inner.moves_pollControl p control
      unfold pollClose
      split
      · next inner control' heq =>
          rw [heq] at hcontrol
          exact .after (moves_inner hcontrol.moves) (moves_pollBi _ bi)
      · next err inner control' heq =>
          rw [heq] at hcontrol
          refine ⟨moves_inner hcontrol.moves, ?_⟩
          intro err' h
          cases h
          exact hcontrol.told _ rfl
      · next frame inner control' heq =>
          rw [heq] at hcontrol
          have hframe := moves_onFrame (c := { c with inner := inner })
            (hcontrol.got frame rfl) frame
          have hinner := moves_inner hcontrol.moves
          split
          · next err c' heq =>
              rw [heq] at hframe
              refine ⟨hinner.trans hframe.moves, ?_⟩
              intro err' h
              cases h
              exact hframe.told _ rfl
          · next c' heq =>
              rw [heq] at hframe
              exact .after (hinner.trans hframe.moves) (ih c' control')

end Connection

end WarpProxy.H3
