/-
# `WarpProxy.H3.ControlStream` — what the driver makes of its control stream

The rules of the protocol for the control stream of a server are a small machine over
frames, `ControlState.frame`: settings first and once, then GOAWAY frames with the
identifiers of requests that do not grow, and nothing else; the stream does not end.
`ControlState.verdict` is the error code that a stream deserves, if any.

`drive_eq` says that the driver comes to that verdict, on whatever bytes the stream brings
in whatever pieces, if the rest of the connection is quiet and the stream that it greases with
never keeps it waiting.  A frame that has been read is lost if it does (`pollControl_lost`).
-/
import WarpProxy.H3.Driver

namespace WarpProxy.H3

/-! ## The rules -/

/-- What has come: nothing yet, or the settings, with the last GOAWAY identifier. -/
inductive ControlState where
  | start
  | opened (last : Option Nat)
  deriving DecidableEq

namespace ControlState

/-- A frame: the new state, or an error code. -/
def frame : ControlState → Frame → Except Nat ControlState
  | start, .settings _ => .ok (opened none)
  | start, _ => .error Code.missingSettings
  | opened last, .goaway id =>
      if isRequest id ∧ last.all (id ≤ ·) then .ok (opened (some id)) else .error Code.idError
  | opened _, _ => .error Code.frameUnexpected

/-- The error code for what is not a frame. -/
def ending : Next StreamErrorIncoming → Option Nat
  | .finished => some Code.closedCriticalStream
  | .error .unexpectedEnd => some Code.frameError
  | .error (.proto err) => some (InternalConnectionError.gotFrameError err).code
  | _ => none

def verdictOf (last : Next StreamErrorIncoming) : ControlState → List Frame → Option Nat
  | _, [] => ending last
  | s, f :: frames =>
      match s.frame f with
      | .error code => some code
      | .ok s => verdictOf last s frames

/-- The error code of a stream: that of the first frame that is not allowed, or else that of
what comes after its frames. -/
def verdict (s : ControlState) (content : List Frame × Next StreamErrorIncoming) : Option Nat :=
  verdictOf content.2 s content.1

theorem verdict_nil (s : ControlState) (last : Next StreamErrorIncoming) :
    s.verdict ([], last) = ending last := by
  rw [verdict, verdictOf]

theorem verdict_cons (s : ControlState) (f : Frame) (frames : List Frame)
    (last : Next StreamErrorIncoming) :
    s.verdict (f :: frames, last)
      = match s.frame f with
        | .error code => some code
        | .ok s => s.verdict (frames, last) := by
  rw [verdict, verdictOf]
  rfl

/-- A frame that has data is not allowed. -/
theorem frame_hasData {s : ControlState} {f : Frame} (h : f.hasData = true) :
    ∃ code, s.frame f = .error code := by
  cases f with
  | data len => cases s <;> exact ⟨_, rfl⟩
  | webTransportStream id => cases s <;> exact ⟨_, rfl⟩
  | _ => cases h

end ControlState

/-! ## The driver, polled until it comes to an end -/

/-- Nothing happens but on the control stream and, when it has given a frame, on the grease
stream. -/
def Polls.quiet (grease : GreasePolls) : Polls := ⟨0, none, [], grease⟩

/-- The grease stream keeps the driver waiting. -/
def GreasePolls.Waits (polls : GreasePolls) : Prop :=
  polls.openSend = .pending ∨ polls.ready = .pending ∨ polls.finish = .pending

instance (polls : GreasePolls) : Decidable polls.Waits :=
  inferInstanceAs (Decidable (_ ∨ _ ∨ _))

/-- The grease stream is done with once it has been polled without waiting. -/
theorem GreaseStatus.poll_passed {polls : GreasePolls} (h : ¬ polls.Waits)
    (step : GreaseStatus) : ∃ step', step.poll polls = (.ready (), step', false) := by
  obtain ⟨hopen, hready, hfinish⟩ : polls.openSend ≠ .pending ∧ polls.ready ≠ .pending
      ∧ polls.finish ≠ .pending := by
    simpa only [GreasePolls.Waits, not_or] using h
  have hsent : ∃ step', GreaseStatus.poll.pollSent polls = (.ready (), step', false) := by
    unfold GreaseStatus.poll.pollSent
    cases hf : polls.finish with
    | pending => exact absurd hf hfinish
    | ready done => cases done <;> exact ⟨_, rfl⟩
  have hprepared : ∃ step', GreaseStatus.poll.pollPrepared polls = (.ready (), step', false) := by
    unfold GreaseStatus.poll.pollPrepared
    cases hr : polls.ready with
    | pending => exact absurd hr hready
    | ready done =>
        cases done with
        | false => exact ⟨_, rfl⟩
        | true => exact hsent
  have hstarted : ∃ step', GreaseStatus.poll.pollStarted polls = (.ready (), step', false) := by
    unfold GreaseStatus.poll.pollStarted
    split
    · exact hprepared
    · exact ⟨_, rfl⟩
  cases step with
  | notStarted =>
      unfold GreaseStatus.poll
      cases ho : polls.openSend with
      | pending => exact absurd ho hopen
      | ready opened =>
          cases opened with
          | false => exact ⟨_, rfl⟩
          | true => exact hstarted
  | started => exact hstarted
  | dataPrepared => exact hprepared
  | dataSent => exact hsent
  | finished => exact ⟨_, rfl⟩

/-- After the first frame there is no more grease. -/
theorem ConnectionInner.grease_passed {c : ConnectionInner} {polls : GreasePolls}
    (h : c.sendGreaseStreamFlag = true → ¬ polls.Waits) (frame : Frame) :
    ∃ step, c.grease polls frame
      = (.ready (.ok frame), { c with greaseStep := step, sendGreaseStreamFlag := false }) := by
  cases hflag : c.sendGreaseStreamFlag with
  | false =>
      have hsame : { c with greaseStep := c.greaseStep, sendGreaseStreamFlag := false } = c := by
        rw [← hflag]
      exact ⟨c.greaseStep, by rw [grease, hsame, if_neg (by simp [hflag])]⟩
  | true =>
      obtain ⟨step, hstep⟩ := c.greaseStep.poll_passed (h hflag)
      exact ⟨step, by rw [grease, if_pos hflag, hstep]⟩

namespace Connection

/-- The driver is polled whenever the control stream has something.  Each poll has a row of
what the grease stream gives, and goes round once for each entry at most. -/
def drive : List (List GreasePolls) → Connection → StreamIncoming →
    Poll ConnectionError × Connection
  | [], c, _ => (.pending, c)
  | row :: rows, c, control =>
      match c.pollClose .pending (row.map Polls.quiet) control with
      | (.ready err, c, _) => (.ready err, c)
      | (.pending, c, []) => (.pending, c)
      | (.pending, c, polled :: control) => drive rows c (polled :: control)

/-- The connection is in order and reads its control stream. -/
structure Reading (c : Connection) (recv : FrameStream) : Prop where
  reads : c.inner.controlRecv = some recv
  ready : recv.Ready
  handled : c.inner.handledConnectionError = none
  error : c.inner.shared.connectionError = none
  waiting : c.inner.pendingRecvStreams = []
  closing : c.inner.gotPeerSettings = false → c.recvClosing = none

/-- What has come so far. -/
def controlState (c : Connection) : ControlState :=
  if c.inner.gotPeerSettings then .opened c.recvClosing else .start

section
variable {c : Connection} {recv : FrameStream}

theorem Reading.pollConnectionError (h : c.Reading recv) :
    c.inner.pollConnectionError = (none, c.inner) := by
  simp [ConnectionInner.pollConnectionError, h.handled, h.error]

theorem Reading.pollAcceptRecv (h : c.Reading recv) (grease : GreasePolls) :
    c.inner.pollAcceptRecv (.quiet grease) = (none, c.inner) := by
  obtain ⟨inner, recvClosing⟩ := c
  obtain ⟨shared, controlRecv, encoder, decoder, pending, got, handled, flag, step, closes,
    stops⟩ := inner
  obtain rfl : pending = [] := h.waiting
  obtain rfl : handled = none := h.handled
  have herror : shared.connectionError = none := h.error
  simp [ConnectionInner.pollAcceptRecv, ConnectionInner.pollConnectionError, herror, Polls.quiet,
    ConnectionInner.resolveAll]

/-- `fail` gives its own error if there is none yet. -/
theorem fail_first {c : ConnectionInner} (hhandled : c.handledConnectionError = none)
    (herror : c.shared.connectionError = none) (code : Nat) (message : String) :
    (c.fail code message).1 = .localError code message := by
  simp [ConnectionInner.fail, ConnectionInner.handleConnectionError, hhandled,
    SharedState.setConnError, herror, ConnectionInner.convertToConnectionError,
    ErrorOrigin.toConnectionError]

/-- `poll_control` comes down to its match, and to the grease after a frame. -/
theorem Reading.pollControl (h : c.Reading recv) {control control' : StreamIncoming}
    {next : Next StreamErrorIncoming} {recv' : FrameStream}
    (hpoll : recv.pollLoop control = (next, recv', control')) (grease : GreasePolls) :
    c.inner.pollControl (.quiet grease) control
      = match ConnectionInner.onControl { c.inner with controlRecv := some recv' } next with
        | (.ready (.ok frame), inner) =>
            ((inner.grease grease frame).1, (inner.grease grease frame).2, control')
        | (answer, inner) => (answer, inner, control') := by
  have hnext : recv.pollNext control = (next, recv', control') := by
    rw [FrameStream.pollNext, if_neg (by simp [h.ready.read]), hpoll]
  simp only [ConnectionInner.pollControl, h.pollConnectionError, h.pollAcceptRecv grease, h.reads,
    hnext]
  rfl

/-- **A frame is lost** that has been read when the grease stream keeps the driver waiting. -/
theorem Reading.pollControl_lost (h : c.Reading recv) {control control' : StreamIncoming}
    {f : Frame} {recv' : FrameStream} {inner : ConnectionInner} {grease : GreasePolls}
    (hpoll : recv.pollLoop control = (.frame f, recv', control'))
    (hon : ConnectionInner.onControl { c.inner with controlRecv := some recv' } (.frame f)
      = (.ready (.ok f), inner)) (hflag : inner.sendGreaseStreamFlag = true)
    {step : GreaseStatus} {flag : Bool}
    (hstep : inner.greaseStep.poll grease = (.pending, step, flag)) :
    c.inner.pollControl (.quiet grease) control
      = (.pending, { inner with greaseStep := step, sendGreaseStreamFlag := flag }, control') := by
  simp only [h.pollControl hpoll, hon, ConnectionInner.grease, hflag, if_true, hstep]

/-- What becomes of a frame. -/
inductive OnFrame (c : Connection) (f : Frame) (recv : FrameStream) : Prop
  /-- `poll_control` refuses it -/
  | refused (code : Nat) (reason : String) (inner : ConnectionInner) :
      ConnectionInner.onControl { c.inner with controlRecv := some recv } (.frame f)
        = (.ready (.error (.localError code reason)), inner) →
      c.controlState.frame f = .error code → OnFrame c f recv
  /-- `poll_close` refuses it -/
  | rejected (code : Nat) (reason : String) (inner : ConnectionInner) :
      ConnectionInner.onControl { c.inner with controlRecv := some recv } (.frame f)
        = (.ready (.ok f), inner) →
      inner.sendGreaseStreamFlag = c.inner.sendGreaseStreamFlag →
      (∀ step, ∃ c', onFrame ⟨{ inner with greaseStep := step, sendGreaseStreamFlag := false },
        c.recvClosing⟩ f = (some (.localError code reason), c')) →
      c.controlState.frame f = .error code → OnFrame c f recv
  | accepted (inner : ConnectionInner) :
      ConnectionInner.onControl { c.inner with controlRecv := some recv } (.frame f)
        = (.ready (.ok f), inner) →
      inner.sendGreaseStreamFlag = c.inner.sendGreaseStreamFlag →
      (∀ step, ∃ c', onFrame ⟨{ inner with greaseStep := step, sendGreaseStreamFlag := false },
          c.recvClosing⟩ f = (none, c')
        ∧ c'.Reading recv ∧ c'.inner.sendGreaseStreamFlag = false
        ∧ c.controlState.frame f = .ok c'.controlState) → OnFrame c f recv

/-- **The match and the rules** agree on a frame. -/
theorem Reading.onFrame (h : c.Reading recv) (recv' : FrameStream) (f : Frame)
    (hready : f.hasData = false → recv'.Ready) : c.OnFrame f recv' := by
  generalize hinner : { c.inner with controlRecv := some recv' } = inner
  have hhandled : inner.handledConnectionError = none := hinner ▸ h.handled
  have herror : inner.shared.connectionError = none := hinner ▸ h.error
  have hflag : inner.sendGreaseStreamFlag = c.inner.sendGreaseStreamFlag := hinner ▸ rfl
  have hgot' : inner.gotPeerSettings = c.inner.gotPeerSettings := hinner ▸ rfl
  have hrefused (code : Nat) {reason : String}
      (hon : inner.onControl (.frame f)
        = (.ready (.error (inner.fail code reason).1), (inner.fail code reason).2))
      (hrule : c.controlState.frame f = .error code) : c.OnFrame f recv' := by
    rw [fail_first hhandled herror] at hon
    refine .refused code reason (inner.fail code reason).2 ?_ hrule
    rw [hinner]
    exact hon
  have hrejected (code : Nat) {reason : String}
      (hon : inner.onControl (.frame f) = (.ready (.ok f), inner))
      (hframe : ∀ inner', Connection.onFrame ⟨inner', c.recvClosing⟩ f
        = (some (fail ⟨inner', c.recvClosing⟩ code reason).1,
            (fail ⟨inner', c.recvClosing⟩ code reason).2))
      (hrule : c.controlState.frame f = .error code) : c.OnFrame f recv' := by
    refine .rejected code reason inner (hinner ▸ hon) hflag ?_ hrule
    intro step
    generalize hgreased : { inner with greaseStep := step, sendGreaseStreamFlag := false } = inner'
    have hfirst : (fail ⟨inner', c.recvClosing⟩ code reason).1 = .localError code reason :=
      fail_first (hgreased ▸ hhandled) (hgreased ▸ herror) code reason
    exact ⟨_, by rw [hframe, hfirst]⟩
  cases hgot : c.inner.gotPeerSettings with
  | false =>
      rw [hgot] at hgot'
      have hstate : c.controlState = .start := by simp [controlState, hgot]
      cases f with
      | settings settings =>
          -- the settings come first
          refine .accepted { inner with gotPeerSettings := true
                                        shared := inner.shared.setSettings (.ofWire settings) }
            ?_ hflag ?_
          · rw [hinner]
            simp only [ConnectionInner.onControl, hgot']
          · intro step
            refine ⟨_, rfl, ⟨hinner ▸ rfl, hready rfl, hhandled, ?_, hinner ▸ h.waiting, ?_⟩, rfl,
              ?_⟩
            · show (inner.shared.setSettings _).connectionError = none
              unfold SharedState.setSettings
              split <;> exact herror
            · intro hfalse
              cases hfalse
            · rw [hstate]
              simp [controlState, ControlState.frame, h.closing hgot]
      | _ =>
          apply hrefused Code.missingSettings
          · simp only [ConnectionInner.onControl, hgot']
            rfl
          · rw [hstate]
            rfl
  | true =>
      rw [hgot] at hgot'
      have hstate : c.controlState = .opened c.recvClosing := by simp [controlState, hgot]
      cases f with
      | goaway id =>
          have hon :
              inner.onControl (.frame (.goaway id)) = (.ready (.ok (.goaway id)), inner) := by
            simp only [ConnectionInner.onControl, hgot']
          have haccept (hreq : isRequest id = true) (hle : c.recvClosing.all (id ≤ ·) = true)
              (hgoaway : ∀ inner', processGoaway ⟨inner', c.recvClosing⟩ id
                = (none, processGoaway.accept ⟨inner', c.recvClosing⟩ id)) :
              c.OnFrame (.goaway id) recv' := by
            refine .accepted inner (hinner ▸ hon) hflag ?_
            intro step
            refine ⟨processGoaway.accept
              ⟨{ inner with greaseStep := step, sendGreaseStreamFlag := false }, c.recvClosing⟩ id,
              by rw [Connection.onFrame, if_pos hreq, hgoaway],
              ⟨hinner ▸ rfl, hready rfl, hhandled, herror, hinner ▸ h.waiting, ?_⟩, rfl, ?_⟩
            · intro hfalse
              exact absurd (hgot'.symm.trans hfalse) (by simp)
            · rw [hstate]
              simp [controlState, ControlState.frame, hreq, hle, hgot', processGoaway.accept]
          cases hreq : isRequest id with
          | false =>
              apply hrejected Code.idError hon
              · intro inner'
                simp only [Connection.onFrame, hreq, Bool.false_eq_true, if_false]
                rfl
              · rw [hstate]
                simp [ControlState.frame, hreq]
          | true =>
              cases hlast : c.recvClosing with
              | none =>
                  exact haccept hreq (by rw [hlast]; rfl) (by simp [processGoaway, hlast])
              | some prev =>
                  by_cases hlt : prev < id
                  · -- it has grown
                    apply hrejected Code.idError hon
                    · intro inner'
                      simp only [Connection.onFrame, hreq, processGoaway, hlast, hlt, if_true]
                      rfl
                    · rw [hstate]
                      simp [ControlState.frame, hlast, hlt]
                  · refine haccept hreq ?_ (by simp [processGoaway, hlast, hlt])
                    rw [hlast]
                    exact decide_eq_true (Nat.not_lt.mp hlt)
      | cancelPush id =>
          refine hrejected Code.frameUnexpected ?_ (fun _ => rfl) (by rw [hstate]; rfl)
          simp only [ConnectionInner.onControl, hgot']
      | maxPushId id =>
          refine hrejected Code.frameUnexpected ?_ (fun _ => rfl) (by rw [hstate]; rfl)
          simp only [ConnectionInner.onControl, hgot']
      | _ =>
          apply hrefused Code.frameUnexpected
          · simp only [ConnectionInner.onControl, hgot']
            rfl
          · rw [hstate]
            rfl

/-- What a poll of the driver can come to, by the rules. -/
inductive Driven (c : Connection) (recv : FrameStream) (control : StreamIncoming) :
    Poll ConnectionError × Connection × StreamIncoming → Prop
  | failed (code : Nat) (reason : String) (c' : Connection) (control' : StreamIncoming) :
      c.controlState.verdict (recv.ahead control) = some code →
      Driven c recv control (.ready (.localError code reason), c', control')
  | pending (recv' : FrameStream) (c' : Connection) (control' : StreamIncoming) :
      c'.Reading recv' →
      (c'.inner.sendGreaseStreamFlag = true → c.inner.sendGreaseStreamFlag = true) →
      (∀ err, Incoming.error err ∉ control') → recv'.left control' < recv.left control →
      c.controlState.verdict (recv.ahead control)
        = c'.controlState.verdict (recv'.ahead control') →
      (control' = [] → c.controlState.verdict (recv.ahead control) = none) →
      Driven c recv control (.pending, c', control')
  | exhausted (c' : Connection) :
      c.controlState.verdict (recv.ahead control) = none →
      Driven c recv control (.pending, c', [])

theorem Driven.of_verdict {c c' : Connection} {recv recv' : FrameStream}
    {control control' : StreamIncoming} {res : Poll ConnectionError × Connection × StreamIncoming}
    (h : c'.Driven recv' control' res)
    (hverdict : c.controlState.verdict (recv.ahead control)
      = c'.controlState.verdict (recv'.ahead control'))
    (hflag : c'.inner.sendGreaseStreamFlag = false)
    (hleft : recv'.left control' ≤ recv.left control) : c.Driven recv control res := by
  cases h with
  | failed code reason d rest h₁ => exact .failed code reason d rest (hverdict.trans h₁)
  | pending recv'' d rest h₁ h₂ h₃ h₄ h₅ h₆ =>
      refine .pending recv'' d rest h₁ ?_ h₃ (by omega) (hverdict.trans h₅)
        fun hnil => hverdict.trans (h₆ hnil)
      intro hd
      exact absurd (hflag.symm.trans (h₂ hd)) (by simp)
  | exhausted d h₁ => exact .exhausted d (hverdict.trans h₁)

/-- The control stream has come to an end, or to what is not a frame. -/
theorem Reading.onEnding (h : c.Reading recv) {recv' : FrameStream}
    {next : Next StreamErrorIncoming}
    (hnext : next = .finished ∨ ∃ err, next = .error err ∧ ∀ e, err ≠ .quic e) :
    ∃ code reason inner, ConnectionInner.onControl { c.inner with controlRecv := some recv' } next
        = (.ready (.error (.localError code reason)), inner)
      ∧ ControlState.ending next = some code := by
  generalize hinner : { c.inner with controlRecv := some recv' } = inner
  have hfail (code : Nat) (reason : String) :
      ∃ inner', inner.fail code reason = (.localError code reason, inner') :=
    ⟨_, Prod.ext (fail_first (hinner ▸ h.handled) (hinner ▸ h.error) code reason) rfl⟩
  rcases hnext with rfl | ⟨err, rfl, hquic⟩
  · obtain ⟨inner', heq⟩ := hfail Code.closedCriticalStream "control stream was closed"
    refine ⟨_, "control stream was closed", inner', ?_, rfl⟩
    simp only [ConnectionInner.onControl, heq]
  · cases err with
    | quic e => exact absurd rfl (hquic e)
    | unexpectedEnd =>
        obtain ⟨inner', heq⟩ := hfail Code.frameError "received incomplete frame"
        refine ⟨_, "received incomplete frame", inner', ?_, rfl⟩
        simp only [ConnectionInner.onControl, heq]
    | proto err =>
        obtain ⟨inner', heq⟩ := hfail (InternalConnectionError.gotFrameError err).code
          (InternalConnectionError.gotFrameError err).message
        refine ⟨_, (InternalConnectionError.gotFrameError err).message, inner', ?_, rfl⟩
        exact congrArg (fun p => (Poll.ready (Except.error p.1), p.2)) heq

theorem pollBi_quiet (hhandled : c.inner.handledConnectionError = none)
    (herror : c.inner.shared.connectionError = none) : c.pollBi .pending = (.pending, c) := by
  simp [Connection.pollBi, ConnectionInner.pollConnectionError, hhandled, herror]

theorem Reading.setRecv (h : c.Reading recv) {recv' : FrameStream} (hready : recv'.Ready) :
    Reading { c with inner := { c.inner with controlRecv := some recv' } } recv' :=
  ⟨rfl, hready, h.handled, h.error, h.waiting, h.closing⟩

/-- **One poll of the driver** follows the rules. -/
theorem Reading.pollClose (h : c.Reading recv) {control : StreamIncoming}
    (hquiet : ∀ err, Incoming.error err ∉ control) {row : List GreasePolls}
    (hrow : recv.left control < row.length)
    (hgrease : c.inner.sendGreaseStreamFlag = true → ∀ grease ∈ row, ¬ grease.Waits) :
    c.Driven recv control (c.pollClose .pending (row.map Polls.quiet) control) := by
  induction row generalizing c recv control with
  | nil =>
      simp only [List.length_nil] at hrow
      omega
  | cons grease row ih =>
      have hpolled := FrameStream.pollLoop_polled h.ready hquiet
      have hsuffix := recv.pollLoop_suffix control
      rw [List.map_cons, Connection.pollClose]
      generalize hpoll : recv.pollLoop control = polled at hpolled hsuffix
      have hquiet' : ∀ err, Incoming.error err ∉ polled.2.2 := by
        intro err hmem
        exact hquiet err (hsuffix.subset hmem)
      have hwaits : c.inner.sendGreaseStreamFlag = true → ¬ grease.Waits := by
        intro hflag
        exact hgrease hflag grease (List.mem_cons_self ..)
      cases hpolled with
      | frame hready hleft hahead =>
          rename_i f recv' control'
          cases h.onFrame _ f fun _ => hready with
          | refused code reason inner hon hrule =>
              simp only [h.pollControl hpoll, hon]
              refine .failed code reason _ _ ?_
              rw [hahead, ControlState.verdict_cons, hrule]
          | rejected code reason inner hon hflag hframe hrule =>
              obtain ⟨step, hstep⟩ :=
                ConnectionInner.grease_passed (fun he => hwaits (hflag ▸ he)) f
              obtain ⟨c', hframe⟩ := hframe step
              simp only [h.pollControl hpoll, hon, hstep, hframe]
              refine .failed code reason _ _ ?_
              rw [hahead, ControlState.verdict_cons, hrule]
          | accepted inner hon hflag hframe =>
              obtain ⟨step, hstep⟩ :=
                ConnectionInner.grease_passed (fun he => hwaits (hflag ▸ he)) f
              obtain ⟨c', hframe, hreading, hflag', hrule⟩ := hframe step
              simp only [h.pollControl hpoll, hon, hstep, hframe]
              have hrest := ih hreading hquiet'
                (Nat.lt_of_lt_of_le hleft (Nat.le_of_lt_succ hrow))
                (fun he => absurd (hflag'.symm.trans he) (by simp))
              refine hrest.of_verdict ?_ hflag' (Nat.le_of_lt hleft)
              rw [hahead, ControlState.verdict_cons, hrule]
      | data hhas hrem hleft hahead =>
          rename_i f recv' control'
          obtain ⟨code', hcode⟩ := ControlState.frame_hasData (s := c.controlState) hhas
          cases h.onFrame recv' f (fun hno => absurd (hhas.symm.trans hno) (by simp)) with
          | refused code reason inner hon hrule =>
              simp only [h.pollControl hpoll, hon]
              refine .failed code reason _ _ ?_
              rw [hahead, ControlState.verdict_cons, hrule]
          | rejected code reason inner hon hflag hframe hrule =>
              obtain ⟨step, hstep⟩ :=
                ConnectionInner.grease_passed (fun he => hwaits (hflag ▸ he)) f
              obtain ⟨c', hframe⟩ := hframe step
              simp only [h.pollControl hpoll, hon, hstep, hframe]
              refine .failed code reason _ _ ?_
              rw [hahead, ControlState.verdict_cons, hrule]
          | accepted inner hon hflag hframe =>
              obtain ⟨c', -, -, -, hrule⟩ := hframe .finished
              rw [hcode] at hrule
              cases hrule
      | pending hready hleft hahead hnil =>
          rename_i recv' control'
          simp only [h.pollControl hpoll, ConnectionInner.onControl,
            pollBi_quiet (h.setRecv hready).handled (h.setRecv hready).error]
          refine .pending recv' _ control' (h.setRecv hready) id hquiet' hleft
            (by rw [hahead]; rfl) ?_
          intro heq
          rw [hnil heq, ControlState.verdict_nil]
          rfl
      | exhausted hahead =>
          rename_i recv'
          have hbi : pollBi { c with inner := { c.inner with controlRecv := some recv' } } .pending
              = (.pending, { c with inner := { c.inner with controlRecv := some recv' } }) :=
            pollBi_quiet h.handled h.error
          simp only [h.pollControl hpoll, ConnectionInner.onControl, hbi]
          exact .exhausted _ (by rw [hahead, ControlState.verdict_nil]; rfl)
      | finished hahead =>
          rename_i recv' control'
          obtain ⟨code, reason, inner, hon, hcode⟩ := @Reading.onEnding _ _ h recv' _ (.inl rfl)
          simp only [h.pollControl hpoll, hon]
          refine .failed code reason _ _ ?_
          rw [hahead, ControlState.verdict_nil, hcode]
      | error hquic hahead =>
          rename_i err recv' control'
          obtain ⟨code, reason, inner, hon, hcode⟩ :=
            @Reading.onEnding _ _ h recv' _ (.inr ⟨err, rfl, hquic⟩)
          simp only [h.pollControl hpoll, hon]
          refine .failed code reason _ _ ?_
          rw [hahead, ControlState.verdict_nil, hcode]

/-- **The control stream.**  Whatever bytes it brings, in whatever pieces, the driver comes to
the verdict of the rules on the frames in them: it ends with that error code, or goes on
waiting if there is none.  The grease stream is not to keep it waiting as long as there is
one. -/
theorem drive_eq (h : c.Reading recv) {control : StreamIncoming}
    (hquiet : ∀ err, Incoming.error err ∉ control) {rows : List (List GreasePolls)}
    (hrow : ∀ row ∈ rows, recv.left control < row.length)
    (hrows : recv.left control < rows.length)
    (hgrease : c.inner.sendGreaseStreamFlag = true →
      ∀ row ∈ rows, ∀ grease ∈ row, ¬ grease.Waits) :
    match c.controlState.verdict (recv.ahead control) with
    | some code => ∃ reason, (drive rows c control).1 = .ready (.localError code reason)
    | none => (drive rows c control).1 = .pending := by
  induction rows generalizing c recv control with
  | nil =>
      simp only [List.length_nil] at hrows
      omega
  | cons row rows ih =>
      have hdriven := h.pollClose hquiet (hrow row (List.mem_cons_self ..))
        fun hflag => hgrease hflag row (List.mem_cons_self ..)
      rw [drive]
      generalize c.pollClose .pending (row.map Polls.quiet) control = res at hdriven
      cases hdriven with
      | failed code reason c' control' hverdict =>
          rw [hverdict]
          exact ⟨reason, rfl⟩
      | pending recv' c' control' hreading hflag hquiet' hleft hverdict hnil =>
          cases control' with
          | nil =>
              rw [hnil rfl]
          | cons polled control' =>
              rw [hverdict]
              refine ih hreading hquiet' ?_ ?_ ?_
              · intro row' hrow'
                exact hleft.trans (hrow row' (List.mem_cons_of_mem _ hrow'))
              · simp only [List.length_cons] at hrows
                omega
              · intro hflag' row' hrow'
                exact hgrease (hflag hflag') row' (List.mem_cons_of_mem _ hrow')
      | exhausted c' hverdict =>
          rw [hverdict]

end

/-- The grease stream takes what it is given. -/
def promptGrease : GreasePolls := ⟨.ready true, true, .ready true, .ready true⟩

/-- The program's client, polled once when the peer has opened its control stream. -/
def accepting : Connection :=
  ((new .client).pollClose .pending [⟨1, none, [[.chunk [0x00]]], promptGrease⟩] []).2.1

theorem reading_accepting : accepting.Reading .new :=
  ⟨rfl, FrameStream.ready_new, rfl, rfl, rfl, fun _ => rfl⟩

/-- The settings and a GOAWAY frame, and then one with a larger identifier, in pieces, with
grease to be sent. -/
theorem drive_eq_goaway :
    accepting.inner.sendGreaseStreamFlag = true
      ∧ ∃ reason, (drive (List.replicate 20 (List.replicate 20 promptGrease)) accepting
          [.chunk [0x04], .pending, .chunk [0x00, 0x07, 0x01, 0x04, 0x07], .pending,
            .chunk [0x01, 0x08]]).1 = .ready (.localError Code.idError reason) := by
  refine ⟨rfl, ?_⟩
  have h := @drive_eq _ _ reading_accepting
    [.chunk [0x04], .pending, .chunk [0x00, 0x07, 0x01, 0x04, 0x07], .pending,
      .chunk [0x01, 0x08]] (by simp) (List.replicate 20 (List.replicate 20 promptGrease))
    (by
      intro row hrow
      rw [List.eq_of_mem_replicate hrow]
      decide)
    (by decide)
    (by
      intro _ row hrow grease hgrease
      rw [List.eq_of_mem_replicate hrow] at hgrease
      rw [List.eq_of_mem_replicate hgrease]
      decide)
  have hwires := @transcript_wires StreamErrorIncoming
    [.frame (.settings .default), .frame (.goaway 4), .frame (.goaway 8)] (by
      intro x hx
      simp only [List.mem_cons, List.not_mem_nil, or_false] at hx
      rcases hx with rfl | rfl | rfl
      · exact ⟨fun _ hmem => (nomatch hmem), rfl, rfl⟩
      · exact ⟨show 4 < 2 ^ 62 by decide, rfl, rfl⟩
      · exact ⟨show 8 < 2 ^ 62 by decide, rfl, rfl⟩) false
  have hbytes : ([0x04] ++ ([0x00, 0x07, 0x01, 0x04, 0x07] ++ ([0x01, 0x08] ++ [])) : List UInt8)
      = [Frame.Written.frame (.settings .default), .frame (.goaway 4),
          .frame (.goaway 8)].flatMap Frame.Written.wire := by decide
  rw [FrameStream.ahead_new] at h
  simp only [Incoming.bytes, Incoming.ends] at h
  rw [hbytes, hwires] at h
  exact h

/-- With the grease stream pending, a GOAWAY frame that names no request goes unnoticed. -/
example : (drive (List.replicate 3 (List.replicate 4 ⟨.pending, true, .pending, .pending⟩))
    accepting [.chunk [0x04, 0x00], .pending, .chunk [0x07, 0x01, 0x01]]).1 = .pending := by
  decide

end Connection

end WarpProxy.H3
