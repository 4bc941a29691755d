/-
# `WarpProxy.H3.Driver` — a connection, its streams and its senders, in any order

The driver is polled in one task, streams fail and requests are sent in others; they meet
in the `SharedState`.  A `Step` is what one of them does, and its `Event` is what it was
told.

    one_error        everybody is told of one error, the first, and it is the one that the
                     connection is closed with, once
    goaways          a GOAWAY frame is never taken back, and there are no requests after it
-/
import WarpProxy.Lib.Transition
import WarpProxy.H3.Connection

namespace WarpProxy.H3

/-! ## The system -/

inductive Event where
  /-- the driver has been polled -/
  | polled (answer : Poll ConnectionError)
  /-- a stream has come to an error -/
  | failed (err : StreamError)
  /-- the first check of `send_request` -/
  | requested (refused : Option StreamError)
  | cloned
  | dropped
  deriving DecidableEq

namespace Event

/-- The error of the connection that somebody is told of. -/
def reported : Event → Option ConnectionError
  | polled (.ready err) => some err
  | failed (.connectionError err) => some err
  | _ => none

end Event

structure System where
  conn : Connection
  senderCount : Nat
  deriving DecidableEq

namespace System

/-- What `Builder::build` gives. -/
def new (config : Config) : System := ⟨.new config, 1⟩

def shared (s : System) : SharedState := s.conn.inner.shared

def setShared (s : System) (shared : SharedState) : System :=
  { s with conn := { s.conn with inner := { s.conn.inner with shared := shared } } }

/-- The CONNECTION_CLOSE frames. -/
def closes (s : System) : List (Nat × String) := s.conn.inner.closes

/-- `Drop for SendRequest` -/
def dropSender (s : System) : System :=
  let s' := { s with senderCount := s.senderCount - 1 }
  if s.senderCount = 1 then
    s'.setShared
      (s.shared.handleConnectionErrorOnStream ⟨Code.noError, "Connection closed by client"⟩).2
  else s'

inductive Step : System → Event → System → Prop
  | poll (s : System) (bi : Poll (Except ConnectionErrorIncoming Unit)) (polls : List Polls)
      (control : StreamIncoming) :
      Step s (.polled (s.conn.pollClose bi polls control).1)
        { s with conn := (s.conn.pollClose bi polls control).2.1 }
  | streamError (s : System) (err : FrameStreamError StreamErrorIncoming) :
      Step s (.failed (s.shared.handleFrameStreamErrorOnRequestStream err).1)
        (s.setShared (s.shared.handleFrameStreamErrorOnRequestStream err).2)
  | internalError (s : System) (err : InternalConnectionError) :
      Step s (.failed (s.shared.handleConnectionErrorOnStream err).1)
        (s.setShared (s.shared.handleConnectionErrorOnStream err).2)
  | request {s : System} : 0 < s.senderCount →
      Step s (.requested s.shared.checkPeerConnectionClosing) s
  | clone {s : System} : 0 < s.senderCount →
      Step s .cloned { s with senderCount := s.senderCount + 1 }
  | drop {s : System} : 0 < s.senderCount → Step s .dropped s.dropSender

/-! ## What a step can do -/

/-- What a stream does to the shared state is nothing new to the connection. -/
theorem moves_noted {c : Connection} {res : StreamError × SharedState}
    (h : c.inner.shared.Noted res) :
    c.Moves { c with inner := { c.inner with shared := res.2 } } := by
  refine ⟨?_, h.le, fun _ he => he, fun id hid => ⟨id, hid, Nat.le_refl id⟩⟩
  intro hi
  refine ⟨⟨?_, ?_, ?_⟩, hi.read, h.closing.trans hi.closing, hi.goaway⟩
  · intro err herr
    obtain ⟨origin, horigin, heq⟩ := hi.inner.handled err herr
    exact ⟨origin, h.le.error origin horigin, heq⟩
  · -- once an error has been handled, the cell is not set any more
    have hcloses := hi.inner.closes
    cases hh : c.inner.handledConnectionError with
    | none =>
        simp only [hh, Option.isSome_none, Bool.false_eq_true, if_false] at hcloses ⊢
        exact hcloses
    | some err =>
        obtain ⟨origin, horigin, -⟩ := hi.inner.handled err hh
        simp only [hh, horigin, h.le.error origin horigin, Option.isSome_some, if_true] at hcloses ⊢
        exact hcloses
  · exact (congrArg Option.isSome h.settings).trans hi.inner.settings

/-- **One step**: the connection moves on, and who is told of an error is told of the one in
the cell. -/
theorem step_spec {s t : System} {event : Event} (h : Step s event t) :
    s.conn.Moves t.conn
      ∧ (s.conn.Inv → ∀ err, event.reported = some err → ∃ origin,
          t.shared.connectionError = some origin ∧ err = origin.toConnectionError) := by
  have hnoted {res : StreamError × SharedState} (hn : s.shared.Noted res) :
      s.conn.Moves (s.setShared res.2).conn
        ∧ (s.conn.Inv → ∀ err, (Event.failed res.1).reported = some err → ∃ origin,
          (s.setShared res.2).shared.connectionError = some origin
            ∧ err = origin.toConnectionError) := by
    refine ⟨moves_noted hn, ?_⟩
    intro _ err herr
    refine hn.told err ?_
    cases hres : res.1 with
    | connectionError err' =>
        rw [hres] at herr
        exact congrArg _ (Option.some.inj herr)
    | _ => simp [hres, Event.reported] at herr
  cases h with
  | poll bi polls control =>
      have hpoll := s.conn.moves_pollClose bi polls control
      refine ⟨hpoll.moves, ?_⟩
      intro hi err herr
      have hi' := hpoll.moves.inv hi
      cases hans : (s.conn.pollClose bi polls control).1 with
      | pending => simp [hans, Event.reported] at herr
      | ready err' =>
          obtain rfl : err' = err := by simpa [hans, Event.reported] using herr
          exact hi'.inner.handled err' (hpoll.told err' hans)
  | streamError err => exact hnoted (s.shared.noted_handleFrameStreamError err)
  | internalError err => exact hnoted (s.shared.noted_handleConnectionErrorOnStream err)
  | request _ => exact ⟨.refl _, fun _ _ h => nomatch h⟩
  | clone _ => exact ⟨.refl _, fun _ _ h => nomatch h⟩
  | drop _ =>
      refine ⟨?_, fun _ _ h => nomatch h⟩
      unfold dropSender
      simp only
      split
      · exact moves_noted (s.shared.noted_handleConnectionErrorOnStream _)
      · exact .refl _

theorem run_moves {s t : System} {events : List Event}
    (h : Transition.Run Step s events t) : s.conn.Moves t.conn := by
  induction h with
  | refl => exact .refl _
  | tail _ hstep ih => exact ih.trans (step_spec hstep).1

theorem run_inv {config : Config} {s : System} {events : List Event}
    (h : Transition.Run Step (new config) events s) : s.conn.Inv :=
  (run_moves h).inv (Connection.inv_new config)

/-! ## Errors -/

/-- Who has been told of an error has been told of the one in the cell. -/
theorem run_reported {config : Config} {s : System} {events : List Event}
    (h : Transition.Run Step (new config) events s) {event : Event} (hmem : event ∈ events)
    {err : ConnectionError} (herr : event.reported = some err) :
    ∃ origin, s.shared.connectionError = some origin ∧ err = origin.toConnectionError := by
  induction h with
  | refl => cases hmem
  | tail hrun hstep ih =>
      rcases List.mem_append.mp hmem with hmem | hmem
      · obtain ⟨origin, horigin, heq⟩ := ih hmem
        exact ⟨origin, (step_spec hstep).1.le.error origin horigin, heq⟩
      · obtain rfl := List.mem_singleton.mp hmem
        exact (step_spec hstep).2 (run_inv hrun) err herr

/-- What the driver has been told has been handled. -/
theorem run_polled {config : Config} {s : System} {events : List Event}
    (h : Transition.Run Step (new config) events s) {err : ConnectionError}
    (hmem : .polled (.ready err) ∈ events) : ConnectionInner.Told err s.conn.inner := by
  generalize hevent : Event.polled (.ready err) = event at hmem
  induction h with
  | refl => cases hmem
  | tail hrun hstep ih =>
      rcases List.mem_append.mp hmem with hmem | hmem
      · exact (step_spec hstep).1.handled err (ih hmem)
      · obtain rfl := List.mem_singleton.mp hmem
        cases hstep with
        | poll bi polls control =>
            injection hevent with hans
            exact (Connection.moves_pollClose _ bi polls control).told err hans.symm
        | _ => cases hevent

/-- **One error.**  In any run there is one error that everybody is told of, the driver and
the streams, whoever came with it; the connection is closed at most once and only with that
error, and it has been when the driver has been told. -/
theorem one_error {config : Config} {s : System} {events : List Event}
    (h : Transition.Run Step (new config) events s) :
    (∀ err ∈ events.filterMap Event.reported,
        s.shared.connectionError.map ErrorOrigin.toConnectionError = some err)
      ∧ (s.closes = [] ∨ s.closes = (s.shared.connectionError.bind ErrorOrigin.closing).toList)
      ∧ ∀ err, .polled (.ready err) ∈ events →
          s.closes = (s.shared.connectionError.bind ErrorOrigin.closing).toList := by
  have hcloses := (run_inv h).inner.closes
  refine ⟨?_, ?_, ?_⟩
  · intro err hmem
    obtain ⟨event, hevent, herr⟩ := List.mem_filterMap.mp hmem
    obtain ⟨origin, horigin, heq⟩ := run_reported h hevent herr
    rw [horigin, heq]
    rfl
  · split at hcloses
    · exact .inr hcloses
    · exact .inl hcloses
  · intro err hmem
    have htold : s.conn.inner.handledConnectionError = some err := run_polled h hmem
    rw [if_pos (by rw [htold]; rfl)] at hcloses
    exact hcloses

/-- A stream fails, the last sender is dropped, and then the driver is polled. -/
def failedRun : List Event × System :=
  let s₁ := (new .client).setShared ((new .client).shared.handleConnectionErrorOnStream
    ⟨Code.frameUnexpected, "unexpected frame: Settings"⟩).2
  let s₂ := s₁.dropSender
  ([.failed (.connectionError (.localError Code.frameUnexpected "unexpected frame: Settings")),
    .dropped,
    .polled (.ready (.localError Code.frameUnexpected "unexpected frame: Settings"))],
    { s₂ with conn := (s₂.conn.pollClose .pending [] []).2.1 })

theorem run_failedRun : Transition.Run Step (new .client) failedRun.1 failedRun.2 :=
  (((Transition.Run.refl (new .client)).tail (.internalError (new .client)
    ⟨Code.frameUnexpected, "unexpected frame: Settings"⟩)).tail (.drop (by decide))).tail
    (.poll _ .pending [] [])

theorem one_error_failedRun :
    failedRun.2.closes = [(Code.frameUnexpected, "unexpected frame: Settings")] :=
  (one_error run_failedRun).2.2
    (.localError Code.frameUnexpected "unexpected frame: Settings") (by decide)

/-! ## GOAWAY -/

/-- A request is refused when a GOAWAY frame has come, and else it is not. -/
theorem step_requested {s t : System} {refused : Option StreamError}
    (h : Step s (.requested refused) t) (hi : s.conn.Inv) :
    refused = if s.conn.recvClosing.isSome then some .remoteClosing else none := by
  have hclosing : s.shared.closing = s.conn.recvClosing.isSome := hi.closing
  cases h with
  | request _ => rw [SharedState.checkPeerConnectionClosing, hclosing]

/-- **GOAWAY.**  The frame that has come last has the identifier of a request, after the
settings, and none that comes later has a larger one; no request is sent any more.  Until
such a frame has come, none is refused. -/
theorem goaways {config : Config} {s t : System} {before events : List Event}
    (h₀ : Transition.Run Step (new config) before s) (h : Transition.Run Step s events t) :
    (∀ id, s.conn.recvClosing = some id →
        isRequest id = true ∧ s.shared.settings.isSome = true
          ∧ (∃ id', t.conn.recvClosing = some id' ∧ id' ≤ id)
          ∧ ∀ refused, .requested refused ∈ events → refused = some .remoteClosing)
      ∧ (t.conn.recvClosing = none → ∀ refused, .requested refused ∈ events → refused = none) := by
  have hi := run_inv h₀
  refine ⟨?_, ?_⟩
  · intro id hid
    obtain ⟨hreq, hgot⟩ := hi.goaway id hid
    refine ⟨hreq, hi.inner.settings.trans hgot, (run_moves h).goaway id hid, ?_⟩
    intro refused hmem
    induction h with
    | refl => cases hmem
    | tail hrun hstep ih =>
        rcases List.mem_append.mp hmem with hmem | hmem
        · exact ih hmem
        · have hmoves := run_moves hrun
          obtain ⟨id', hid', -⟩ := hmoves.goaway id hid
          have hrefused := step_requested (List.mem_singleton.mp hmem ▸ hstep) (hmoves.inv hi)
          rw [hid'] at hrefused
          exact hrefused
  · intro hnone refused hmem
    induction h with
    | refl => cases hmem
    | tail hrun hstep ih =>
        rename_i u _ _ _
        have hmoves := run_moves hrun
        have hnone' : u.conn.recvClosing = none := by
          cases hid : u.conn.recvClosing with
          | none => rfl
          | some id =>
              obtain ⟨id', hid', -⟩ := (step_spec hstep).1.goaway id hid
              rw [hnone] at hid'
              cases hid'
        rcases List.mem_append.mp hmem with hmem | hmem
        · exact ih hnone' hmem
        · have hrefused := step_requested (List.mem_singleton.mp hmem ▸ hstep) (hmoves.inv hi)
          rw [hnone'] at hrefused
          exact hrefused

/-- The peer opens its control stream, sends empty settings and a GOAWAY frame in one chunk,
and then a request is to be sent. -/
def goawayRun : Event × System :=
  let greased : GreasePolls := ⟨.ready true, true, .ready true, .ready true⟩
  let polled := (new .client).conn.pollClose .pending
    [⟨1, none, [[.chunk [0x00]]], greased⟩, ⟨0, none, [], greased⟩]
    [.chunk [0x04, 0x00, 0x07, 0x01, 0x04]]
  (.polled polled.1, { new .client with conn := polled.2.1 })

theorem run_goawayRun : Transition.Run Step (new .client) [goawayRun.1] goawayRun.2 :=
  (Transition.Run.refl (new .client)).tail (.poll _ _ _ _)

theorem goaways_goawayRun : goawayRun.2.shared.settings.isSome = true
    ∧ goawayRun.2.shared.checkPeerConnectionClosing = some .remoteClosing := by
  have h := goaways run_goawayRun ((Transition.Run.refl goawayRun.2).tail (.request (by decide)))
  obtain ⟨-, hsettings, -, hrefused⟩ := h.1 4 (by decide)
  exact ⟨hsettings, hrefused _ (by simp)⟩

end System

end WarpProxy.H3
