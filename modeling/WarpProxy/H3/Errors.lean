/-
# `WarpProxy.H3.Errors` — the error state of an `h3` connection

The error types of the vendored `h3`, the state that a connection shares with its
streams (`shared_state.rs`), and what a stream does with an error
(`connection_error_creators.rs`).  The first error is kept: a cell that is set once
holds it, and whoever comes with another gets the first one back.
-/
import WarpProxy.H3.FrameStream

namespace WarpProxy.H3

/-! ## `error/codes.rs` -/

namespace Code

def noError : Nat := 0x100
def internalError : Nat := 0x102
def streamCreationError : Nat := 0x103
def closedCriticalStream : Nat := 0x104
def frameUnexpected : Nat := 0x105
def frameError : Nat := 0x106
def idError : Nat := 0x108
def settingsError : Nat := 0x109
def missingSettings : Nat := 0x10a
def requestCancelled : Nat := 0x10c
def messageError : Nat := 0x10e
def qpackDecompressionFailed : Nat := 0x200

end Code

/-! ## The error types -/

structure InternalConnectionError where
  code : Nat
  message : String
  deriving DecidableEq

/-- An error of the QUIC layer; the foreign error of `undefined` is its text. -/
inductive ConnectionErrorIncoming where
  | applicationClose (errorCode : Nat)
  | timeout
  | internalError (reason : String)
  | undefined (err : String)
  deriving DecidableEq

inductive StreamErrorIncoming where
  | connectionErrorIncoming (err : ConnectionErrorIncoming)
  | streamTerminated (errorCode : Nat)
  | unknown (err : String)
  deriving DecidableEq

/-- What a stream of QUIC gives. -/
abbrev StreamIncoming := List (Incoming StreamErrorIncoming)

inductive ErrorOrigin where
  | internal (err : InternalConnectionError)
  | quic (err : ConnectionErrorIncoming)
  deriving DecidableEq

/-- `LocalError::Closing` is never given. -/
inductive ConnectionError where
  | localError (code : Nat) (reason : String)
  | remote (err : ConnectionErrorIncoming)
  | timeout
  deriving DecidableEq

inductive StreamError where
  | streamError (code : Nat) (reason : String)
  | remoteTerminate (code : Nat)
  | connectionError (err : ConnectionError)
  | headerTooBig (actualSize maxSize : Nat)
  | remoteClosing
  | undefined (err : String)
  deriving DecidableEq

/-- `{:x}` -/
def lowerHex (n : Nat) : String := String.ofList (Nat.toDigits 16 n)

namespace SettingsError

def text : SettingsError → String
  | .exceeded => "max settings number exceeded, check for duplicate entries"
  | .malformed => "malformed settings frame"
  | .repeated id => s!"got setting 0x{lowerHex id} twice"
  | .invalidSettingId id => s!"setting id 0x{lowerHex id} is invalid"

end SettingsError

namespace Frame

/-- `{:?}` of a frame whose payload has not been read. -/
def debug : Frame → String
  | .data len => s!"Data: {len} bytes"
  | .headers encoded => s!"Headers({encoded.length} entries)"
  | .settings _ => "Settings"
  | .cancelPush id => s!"CancelPush(push {id})"
  | .pushPromise id _ => s!"PushPromise({id})"
  | .goaway id => s!"GoAway({id})"
  | .maxPushId id => s!"MaxPushId(push {id})"
  | .webTransportStream id => s!"WebTransportStream(SessionId({id}))"

end Frame

namespace InternalConnectionError

/-- `got_frame_error`; the errors that no frame gives are left out of `FrameProtocolError`. -/
def gotFrameError : FrameProtocolError → InternalConnectionError
  | .settings err => ⟨Code.settingsError, err.text⟩
  | .forbiddenFrame ty => ⟨Code.frameUnexpected, s!"received a forbidden frame with number {ty}"⟩

end InternalConnectionError

namespace ErrorOrigin

/-- `convert_to_connection_error` -/
def toConnectionError : ErrorOrigin → ConnectionError
  | .internal err => .localError err.code err.message
  | .quic .timeout => .timeout
  | .quic err => .remote err

/-- What `close_if_needed` closes the connection with, if it does. -/
def closing : ErrorOrigin → Option (Nat × String)
  | .internal err => some (err.code, err.message)
  | .quic (.internalError reason) => some (Code.internalError, reason)
  | .quic _ => none

end ErrorOrigin

/-! ## `shared_state.rs` -/

/-- The waker only says when to poll. -/
structure SharedState where
  settings : Option Config.Settings
  connectionError : Option ErrorOrigin
  closing : Bool
  deriving DecidableEq

namespace SharedState

def default : SharedState := ⟨none, none, false⟩

def setConnError (s : SharedState) (err : ErrorOrigin) : ErrorOrigin × SharedState :=
  match s.connectionError with
  | some first => (first, s)
  | none => (err, { s with connectionError := some err })

/-- The settings to use: the initial ones until the peer's have come. -/
def effectiveSettings (s : SharedState) : Config.Settings := s.settings.getD Config.Settings.default

def setSettings (s : SharedState) (settings : Config.Settings) : SharedState :=
  match s.settings with
  | some _ => s
  | none => { s with settings := some settings }

def setClosing (s : SharedState) : SharedState := { s with closing := true }

/-! ### `CloseStream` -/

def handleConnectionErrorOnStream (s : SharedState) (err : InternalConnectionError) :
    StreamError × SharedState :=
  let (err, s) := s.setConnError (.internal err)
  (.connectionError err.toConnectionError, s)

def handleQuicStreamError (s : SharedState) : StreamErrorIncoming → StreamError × SharedState
  | .connectionErrorIncoming err =>
      let (err, s) := s.setConnError (.quic err)
      (.connectionError err.toConnectionError, s)
  | .streamTerminated errorCode => (.remoteTerminate errorCode, s)
  | .unknown err => (.undefined err, s)

def checkPeerConnectionClosing (s : SharedState) : Option StreamError :=
  if s.closing then some .remoteClosing else none

def handleFrameStreamErrorOnRequestStream (s : SharedState) :
    FrameStreamError StreamErrorIncoming → StreamError × SharedState
  | .quic err => s.handleQuicStreamError err
  | .proto err => s.handleConnectionErrorOnStream (.gotFrameError err)
  | .unexpectedEnd =>
      s.handleConnectionErrorOnStream ⟨Code.frameError, "received incomplete frame"⟩

/-! ### What can become of it -/

/-- What has been set stays. -/
structure Le (s t : SharedState) : Prop where
  error : ∀ err, s.connectionError = some err → t.connectionError = some err
  settings : ∀ v, s.settings = some v → t.settings = some v
  closing : s.closing = true → t.closing = true

theorem Le.refl (s : SharedState) : s.Le s := ⟨fun _ h => h, fun _ h => h, fun h => h⟩

theorem Le.trans {s t u : SharedState} (h : s.Le t) (h' : t.Le u) : s.Le u :=
  ⟨fun err he => h'.error err (h.error err he), fun v hv => h'.settings v (h.settings v hv),
    fun hc => h'.closing (h.closing hc)⟩

theorem setConnError_spec (s : SharedState) (err : ErrorOrigin) :
    s.Le (s.setConnError err).2
      ∧ (s.setConnError err).2.connectionError = some (s.setConnError err).1
      ∧ (s.setConnError err).2.settings = s.settings
      ∧ (s.setConnError err).2.closing = s.closing := by
  unfold setConnError
  cases h : s.connectionError with
  | some first => exact ⟨Le.refl s, h, rfl, rfl⟩
  | none => exact ⟨⟨fun _ he => by simp [h] at he, fun _ hv => hv, fun hc => hc⟩, rfl, rfl, rfl⟩

theorem setSettings_le (s : SharedState) (v : Config.Settings) : s.Le (s.setSettings v) := by
  unfold setSettings
  cases h : s.settings with
  | some _ => exact Le.refl s
  | none => exact ⟨fun _ he => he, fun _ hv => by simp [h] at hv, fun hc => hc⟩

theorem setClosing_le (s : SharedState) : s.Le s.setClosing :=
  ⟨fun _ he => he, fun _ hv => hv, fun _ => rfl⟩

/-- What a stream does with an error: the state is that of some error, if the answer is an
error of the connection, and else it is as it was. -/
structure Noted (s : SharedState) (res : StreamError × SharedState) : Prop where
  le : s.Le res.2
  settings : res.2.settings = s.settings
  closing : res.2.closing = s.closing
  told : ∀ err, res.1 = .connectionError err →
    ∃ origin, res.2.connectionError = some origin ∧ err = origin.toConnectionError

theorem noted_setConnError (s : SharedState) (err : ErrorOrigin) :
    s.Noted
      (.connectionError (s.setConnError err).1.toConnectionError, (s.setConnError err).2) := by
  obtain ⟨hle, hset, hsettings, hclosing⟩ := s.setConnError_spec err
  refine ⟨hle, hsettings, hclosing, ?_⟩
  intro err' h
  exact ⟨_, hset, (StreamError.connectionError.inj h).symm⟩

theorem noted_handleConnectionErrorOnStream (s : SharedState) (err : InternalConnectionError) :
    s.Noted (s.handleConnectionErrorOnStream err) :=
  s.noted_setConnError (.internal err)

theorem noted_handleQuicStreamError (s : SharedState) (err : StreamErrorIncoming) :
    s.Noted (s.handleQuicStreamError err) := by
  cases err with
  | connectionErrorIncoming err => exact s.noted_setConnError (.quic err)
  | streamTerminated code => exact ⟨Le.refl s, rfl, rfl, fun _ h => by cases h⟩
  | unknown err => exact ⟨Le.refl s, rfl, rfl, fun _ h => by cases h⟩

theorem noted_handleFrameStreamError (s : SharedState)
    (err : FrameStreamError StreamErrorIncoming) :
    s.Noted (s.handleFrameStreamErrorOnRequestStream err) := by
  cases err with
  | quic err => exact s.noted_handleQuicStreamError err
  | proto err => exact s.noted_handleConnectionErrorOnStream _
  | unexpectedEnd => exact s.noted_handleConnectionErrorOnStream _

end SharedState

end WarpProxy.H3
