/-
# `WarpProxy.H3.FrameStream` — frames from a QUIC stream, as its bytes arrive

`FrameDecoder::decode` and `FrameStream::poll_next` of `frame.rs`.  The bytes of a
stream arrive in chunks cut anywhere, with the stream pending in between; a poll
takes at most one chunk at a time, decodes, and returns the first frame that there
is.  An incomplete frame leaves a number of bytes to wait for (`expected`), which
saves decoding in vain.

What a stream of bytes has in it is said by `transcript`, which knows nothing of
chunks: it goes over the frames of the whole (`Framer.drain`), skips the unknown ones
and stops at the first that is an error or that has data to be read first.
`run_eq_transcript` says that polling gives just that, however the bytes are cut and
whatever `expected` has saved.
-/
import Mathlib.Tactic.SplitIfs
import WarpProxy.H3.Frame

namespace WarpProxy.H3

/-! ## `frame.rs` -/

/-- The errors that the frames of `proto/frame.rs` can give. -/
inductive FrameProtocolError where
  | forbiddenFrame (ty : Nat)
  | settings (err : SettingsError)
  deriving DecidableEq

inductive FrameStreamError (ε : Type) where
  | proto (err : FrameProtocolError)
  | quic (err : ε)
  | unexpectedEnd
  deriving DecidableEq

/-- What polling the QUIC stream gives. -/
inductive Incoming (ε : Type) where
  | pending
  | chunk (bytes : List UInt8)
  | eos
  | error (err : ε)

/-- What polling a `FrameStream` gives; `panicked` is its assertion. -/
inductive Next (ε : Type) where
  | pending
  | frame (f : Frame)
  | finished
  | error (err : FrameStreamError ε)
  | panicked
  deriving DecidableEq

/-- The loop of `FrameDecoder::decode`: the result, `expected` and the buffer.  A frame
takes two bytes at least, so fuel for each byte is enough. -/
def FrameDecoder.decode : Nat → Option Nat → List UInt8 →
    Except FrameProtocolError (Option Frame) × Option Nat × List UInt8
  | 0, expected, src => (.ok none, expected, src)
  | fuel + 1, expected, src =>
      if src = [] then (.ok none, expected, src)
      else if expected.any (src.length < ·) then (.ok none, expected, src)
      else
        match Frame.decode src with
        | (.error (.unknownFrame _), rest) => FrameDecoder.decode fuel none rest
        | (.error (.incomplete min), _) => (.ok none, some min, src)
        | (.error (.settings err), _) => (.error (.settings err), expected, src)
        | (.error (.unsupportedFrame ty), _) => (.error (.forbiddenFrame ty), expected, src)
        | (.ok frame, rest) => (.ok (some frame), none, rest)

/-- `BufRecvStream` and `FrameDecoder` are the first fields; the chunks of the buffer are
joined. -/
structure FrameStream where
  buf : List UInt8
  eos : Bool
  expected : Option Nat
  remainingData : Nat
  deriving DecidableEq

namespace FrameStream

def new : FrameStream := ⟨[], false, none, 0⟩

/-- What `decode` makes of the buffer: a frame, an error, or nothing yet. -/
def take {ε : Type} (s : FrameStream) : Option (Next ε) × FrameStream :=
  match FrameDecoder.decode (s.buf.length + 1) s.expected s.buf with
  | (.error err, expected, buf) =>
      (some (.error (.proto err)), { s with expected := expected, buf := buf })
  | (.ok none, expected, buf) => (none, { s with expected := expected, buf := buf })
  | (.ok (some (.data len)), expected, buf) =>
      (some (.frame (.data len)),
        { s with expected := expected, buf := buf, remainingData := len })
  | (.ok (some (.webTransportStream id)), expected, buf) =>
      (some (.frame (.webTransportStream id)),
        { s with expected := expected, buf := buf, remainingData := 2 ^ 64 - 1 })
  | (.ok (some frame), expected, buf) =>
      (some (.frame frame), { s with expected := expected, buf := buf })

/-- The answer when there is nothing more to come: what is left is an incomplete frame. -/
def atEnd {ε : Type} (s : FrameStream) : Next ε :=
  if s.buf ≠ [] then .error .unexpectedEnd else .finished

/-- The loop of `poll_next`, on what the QUIC stream gives (it is pending at the end of the
list): the answer, the state, and what has not been polled. -/
def pollLoop {ε : Type} (s : FrameStream) :
    List (Incoming ε) → Next ε × FrameStream × List (Incoming ε)
  | [] =>
      let (answer, s) := s.take
      (answer.getD (if s.eos then s.atEnd else .pending), s, [])
  | polled :: incoming =>
      if s.eos then
        let (answer, s) := s.take
        (answer.getD s.atEnd, s, polled :: incoming)
      else
        match polled with
        | .error err => (.error (.quic err), s, incoming)
        | .pending =>
            let (answer, s) := s.take
            (answer.getD .pending, s, incoming)
        | .eos =>
            let (answer, s) := { s with eos := true }.take
            (answer.getD s.atEnd, s, incoming)
        | .chunk bytes =>
            match { s with buf := s.buf ++ bytes }.take with
            | (some next, s) => (next, s, incoming)
            | (none, s) => pollLoop s incoming

def pollNext {ε : Type} (s : FrameStream) (incoming : List (Incoming ε)) :
    Next ε × FrameStream × List (Incoming ε) :=
  if s.remainingData ≠ 0 then (.panicked, s, incoming) else s.pollLoop incoming

/-- The next frame, for a task that awaits it. -/
def awaitNext {ε : Type} : Nat → FrameStream → List (Incoming ε) →
    Next ε × FrameStream × List (Incoming ε)
  | 0, s, incoming => (.pending, s, incoming)
  | fuel + 1, s, incoming =>
      match s.pollNext incoming with
      | (.pending, s, polled :: incoming) => awaitNext fuel s (polled :: incoming)
      | res => res

/-- A task that polls for frames whenever there is something to poll, until it gets something
else: the frames, and that. -/
def run {ε : Type} : Nat → FrameStream → List (Incoming ε) → List Frame × Next ε
  | 0, _, _ => ([], .pending)
  | fuel + 1, s, incoming =>
      match s.pollNext incoming with
      | (.frame f, s, incoming) =>
          let (frames, last) := run fuel s incoming
          (f :: frames, last)
      | (.pending, s, polled :: incoming) => run fuel s (polled :: incoming)
      | (next, _, _) => ([], next)

end FrameStream

/-! ## The frames of a byte string -/

/-- What has been decoded is a part of the buffer at its front. -/
theorem Frame.decode_suffix {buf rest : List UInt8} {r : Except FrameError Frame}
    (h : Frame.decode buf = (r, rest)) (hr : ∀ min, r ≠ .error (.incomplete min)) :
    ∃ front, buf = front ++ rest ∧ 0 < front.length := by
  have hid {frame : Nat → Frame} {payload after rest : List UInt8} {r : Except FrameError Frame}
      (h : decodeId frame payload after = (r, rest)) :
      ∃ front, payload ++ after = front ++ rest := by
    unfold decodeId at h
    cases hd : VarInt.decode payload with
    | error err =>
        simp only [hd, Prod.mk.injEq] at h
        exact ⟨payload, by rw [h.2]⟩
    | ok p =>
        obtain ⟨bs, -, hbs⟩ := VarInt.decode_ok_iff.mp hd
        simp only [hd, Prod.mk.injEq] at h
        exact ⟨bs, by rw [← h.2, ← List.append_assoc, ← hbs]⟩
  have hpayload {ty : Nat} {payload after rest : List UInt8} {r : Except FrameError Frame}
      (h : decodePayload ty payload after = (r, rest)) :
      ∃ front, payload ++ after = front ++ rest := by
    unfold decodePayload at h
    split_ifs at h
    · exact ⟨payload, by rw [(Prod.mk.inj h).2]⟩
    · split at h <;> exact ⟨payload, by rw [(Prod.mk.inj h).2]⟩
    · exact hid h
    · split at h <;> exact ⟨payload, by rw [(Prod.mk.inj h).2]⟩
    · exact hid h
    · exact hid h
    · exact ⟨payload, by rw [(Prod.mk.inj h).2]⟩
    · exact ⟨payload, by rw [(Prod.mk.inj h).2]⟩
  unfold Frame.decode at h
  cases h₁ : VarInt.decode buf with
  | error err =>
      simp only [h₁, Prod.mk.injEq] at h
      exact absurd h.1.symm (hr _)
  | ok p₁ =>
      obtain ⟨ty, b₁⟩ := p₁
      obtain ⟨bs₁, hbs₁, rfl⟩ := VarInt.decode_ok_iff.mp h₁
      have hpos := hbs₁.length_pos
      simp only [h₁] at h
      cases h₂ : VarInt.decode b₁ with
      | error err =>
          simp only [h₂] at h
          split at h <;> exact absurd (congrArg Prod.fst h).symm (hr _)
      | ok p₂ =>
          obtain ⟨len, b₂⟩ := p₂
          obtain ⟨bs₂, hbs₂, rfl⟩ := VarInt.decode_ok_iff.mp h₂
          have hfront (front : List UInt8) (hb : b₂ = front ++ rest) :
              ∃ front, bs₁ ++ (bs₂ ++ b₂) = front ++ rest ∧ 0 < front.length :=
            ⟨bs₁ ++ bs₂ ++ front, by rw [hb]; simp, by simp; omega⟩
          simp only [h₂] at h
          split_ifs at h
          · exact hfront [] (Prod.mk.inj h).2
          · exact hfront [] (Prod.mk.inj h).2
          · exact absurd (congrArg Prod.fst h).symm (hr _)
          · obtain ⟨front, hf⟩ := hpayload h
            rw [List.take_append_drop] at hf
            exact hfront _ hf

/-- What `Frame.decode` settles, with the number of bytes that it takes. -/
def parseFrame (buf : List UInt8) : Option (Except FrameError Frame × Nat) :=
  match Frame.decode buf with
  | (.error (.incomplete _), _) => none
  | (r, rest) => some (r, buf.length - rest.length)

theorem parseFrame_eq_some {buf : List UInt8} {r : Except FrameError Frame} {n : Nat}
    (h : parseFrame buf = some (r, n)) :
    (∀ min, r ≠ .error (.incomplete min)) ∧ Frame.decode buf = (r, buf.drop n) ∧ 0 < n
      ∧ n ≤ buf.length := by
  unfold parseFrame at h
  split at h
  · cases h
  next r' rest hnot hdec =>
      simp only [Option.some.injEq, Prod.mk.injEq] at h
      obtain ⟨rfl, rfl⟩ := h
      have hr : ∀ min, r' ≠ .error (.incomplete min) := by
        intro min heq
        exact hnot min heq
      obtain ⟨front, rfl, hpos⟩ := Frame.decode_suffix hdec hr
      have hlen : (front ++ rest).length - rest.length = front.length := by simp
      rw [hlen, List.drop_left]
      exact ⟨hr, hdec, hpos, by simp⟩

theorem parseFrame_of_decode {buf rest : List UInt8} {r : Except FrameError Frame}
    (h : Frame.decode buf = (r, rest)) (hr : ∀ min, r ≠ .error (.incomplete min)) :
    ∃ n, parseFrame buf = some (r, n) ∧ rest = buf.drop n := by
  obtain ⟨front, rfl, -⟩ := Frame.decode_suffix h hr
  refine ⟨front.length, ?_, by rw [List.drop_left]⟩
  unfold parseFrame
  rw [h]
  split
  next min rest' heq => exact absurd (Prod.mk.inj heq).1 (hr min)
  next r' rest' _ heq =>
      obtain ⟨rfl, rfl⟩ := Prod.mk.inj heq
      simp

/-- The frames of a stream, known or not, as a `Framer`. -/
def frameFramer : Framer UInt8 (Except FrameError Frame) where
  parse := parseFrame
  total_pos h := (parseFrame_eq_some h).2.2.1
  total_le h := (parseFrame_eq_some h).2.2.2
  stable {buf r n} h ext := by
    obtain ⟨hr, hdec, hpos, hle⟩ := parseFrame_eq_some h
    obtain ⟨m, hm, hrest⟩ := parseFrame_of_decode (Frame.decode_extend hdec hr ext) hr
    have hlen := congrArg List.length hrest
    obtain ⟨-, -, -, hm'⟩ := parseFrame_eq_some hm
    simp only [List.length_append, List.length_drop] at hlen hm'
    have hmn : m = n := by omega
    rw [hm, hmn]

/-- There is data to be read before the next frame. -/
def Frame.hasData : Frame → Bool
  | .data len => len != 0
  | .webTransportStream _ => true
  | _ => false

theorem Frame.hasData_received (f : Frame) : f.received.hasData = f.hasData := by
  cases f <;> rfl

def Frame.Written.hasData : Frame.Written → Bool
  | .frame f => f.hasData
  | .grease _ => false

section Transcript

variable {ε : Type}

/-- The frames before the first error or the first data, and what comes then; `last` comes at
the end.  To poll for a frame when there is data is an error of the caller. -/
def transcriptOf (last : Next ε) : List (Except FrameError Frame) → List Frame × Next ε
  | [] => ([], last)
  | .error (.unknownFrame _) :: items => transcriptOf last items
  | .error (.settings err) :: _ => ([], .error (.proto (.settings err)))
  | .error (.unsupportedFrame ty) :: _ => ([], .error (.proto (.forbiddenFrame ty)))
  | .error (.incomplete _) :: _ => ([], last)
  | .ok f :: items =>
      if f.hasData then ([f], .panicked)
      else (f :: (transcriptOf last items).1, (transcriptOf last items).2)

/-- What comes after the last complete frame. -/
def settled (closed : Bool) (rest : List UInt8) : Next ε :=
  if closed then (if rest ≠ [] then .error .unexpectedEnd else .finished) else .pending

/-- **What a stream has in it**, if these are its bytes (so far, unless it is closed). -/
def transcript (closed : Bool) (bytes : List UInt8) : List Frame × Next ε :=
  transcriptOf (settled closed (frameFramer.drain bytes).2) (frameFramer.drain bytes).1

theorem transcript_none {bytes : List UInt8} (h : parseFrame bytes = none) (closed : Bool) :
    transcript (ε := ε) closed bytes = ([], settled closed bytes) := by
  rw [transcript, frameFramer.drain_of_none h]
  rfl

theorem transcript_some {bytes : List UInt8} {r : Except FrameError Frame} {n : Nat}
    (h : parseFrame bytes = some (r, n)) (ext : List UInt8) (closed : Bool) :
    transcript (ε := ε) closed (bytes ++ ext)
      = transcriptOf (settled closed (frameFramer.drain (bytes.drop n ++ ext)).2)
          (r :: (frameFramer.drain (bytes.drop n ++ ext)).1) := by
  have hle := (parseFrame_eq_some h).2.2.2
  rw [transcript, frameFramer.drain_of_some (frameFramer.stable h ext),
    List.drop_append_of_le_length hle]

/-- An unknown frame has no meaning. -/
theorem transcript_unknown {bytes : List UInt8} {ty n : Nat}
    (h : parseFrame bytes = some (.error (.unknownFrame ty), n)) (ext : List UInt8)
    (closed : Bool) :
    transcript (ε := ε) closed (bytes ++ ext) = transcript closed (bytes.drop n ++ ext) :=
  transcript_some h ext closed

theorem transcript_frame {bytes : List UInt8} {f : Frame} {n : Nat}
    (h : parseFrame bytes = some (.ok f, n)) (ext : List UInt8) (closed : Bool) :
    transcript (ε := ε) closed (bytes ++ ext)
      = if f.hasData then ([f], .panicked)
        else (f :: (transcript (ε := ε) closed (bytes.drop n ++ ext)).1,
          (transcript closed (bytes.drop n ++ ext)).2) :=
  transcript_some h ext closed

/-- The frames that are sent one after the other: each as the peer takes it, the grease not at
all. -/
theorem transcript_wires {xs : List Frame.Written}
    (hxs : ∀ x ∈ xs, x.Fits ∧ x.again = [] ∧ x.hasData = false) (closed : Bool) :
    transcript (ε := ε) closed (xs.flatMap Frame.Written.wire)
      = (xs.filterMap fun x => x.read.toOption, settled closed []) := by
  induction xs with
  | nil => exact @transcript_none _ [] frameFramer.parse_nil closed
  | cons x xs ih =>
      obtain ⟨hfits, hagain, hdata⟩ := hxs x (List.mem_cons_self ..)
      have hdec := Frame.decode_wire hfits []
      rw [hagain, List.append_nil] at hdec
      have hrest := ih fun y hy => hxs y (List.mem_cons_of_mem _ hy)
      cases x with
      | frame f =>
          obtain ⟨n, hparse, hnil⟩ := parseFrame_of_decode hdec (by simp [Frame.Written.read])
          have hreceived : f.received.hasData = false := f.hasData_received.trans hdata
          rw [List.flatMap_cons, transcript_frame hparse, hreceived, ← hnil, List.nil_append,
            List.nil_append, hrest]
          rfl
      | grease m =>
          obtain ⟨n, hparse, hnil⟩ := parseFrame_of_decode hdec (by simp [Frame.Written.read])
          rw [List.flatMap_cons, transcript_unknown hparse, ← hnil, List.nil_append,
            List.nil_append, hrest]
          rfl

end Transcript

/-! ## Polling -/

/-- Up to the number that it waits for, a decoder could decode nothing. -/
def Sound (expected : Option Nat) (buf : List UInt8) : Prop :=
  ∀ min, expected = some min → ∀ ext, (buf ++ ext).length < min → parseFrame (buf ++ ext) = none

theorem sound_none (buf : List UInt8) : Sound none buf := by
  intro min h
  cases h

theorem Sound.append {expected : Option Nat} {buf : List UInt8} (h : Sound expected buf)
    (bytes : List UInt8) : Sound expected (buf ++ bytes) := by
  intro min hmin ext hlen
  rw [List.append_assoc] at hlen ⊢
  exact h min hmin _ hlen

theorem parseFrame_incomplete {buf rest : List UInt8} {min : Nat}
    (h : Frame.decode buf = (.error (.incomplete min), rest)) : parseFrame buf = none := by
  unfold parseFrame
  rw [h]

theorem sound_incomplete {buf rest : List UInt8} {min : Nat}
    (h : Frame.decode buf = (.error (.incomplete min), rest)) : Sound (some min) buf := by
  intro min' hmin ext hlen
  obtain rfl : min = min' := by simpa using hmin
  obtain ⟨rest', hdec⟩ := Frame.decode_waits h hlen
  exact parseFrame_incomplete hdec

/-- What the loop of the decoder can come to, and what that says of the stream. -/
inductive Decoded (ε : Type) (src : List UInt8) :
    Except FrameProtocolError (Option Frame) × Option Nat × List UInt8 → Prop
  | waiting {expected : Option Nat} {buf : List UInt8} : Sound expected buf →
      parseFrame buf = none → buf.length ≤ src.length →
      (∀ closed ext, transcript (ε := ε) closed (src ++ ext) = transcript closed (buf ++ ext)) →
      Decoded ε src (.ok none, expected, buf)
  | frame {f : Frame} {buf : List UInt8} : buf.length < src.length →
      (∀ closed ext, transcript (ε := ε) closed (src ++ ext)
        = if f.hasData then ([f], .panicked)
          else (f :: (transcript (ε := ε) closed (buf ++ ext)).1,
            (transcript closed (buf ++ ext)).2)) →
      Decoded ε src (.ok (some f), none, buf)
  | error {err : FrameProtocolError} {expected : Option Nat} {buf : List UInt8} :
      (∀ closed ext, transcript (ε := ε) closed (src ++ ext) = ([], .error (.proto err))) →
      Decoded ε src (.error err, expected, buf)

theorem decode_decoded {ε : Type} {fuel : Nat} {expected : Option Nat} {src : List UInt8}
    (hfuel : src.length < fuel) (hsound : Sound expected src) :
    Decoded ε src (FrameDecoder.decode fuel expected src) := by
  induction fuel generalizing expected src with
  | zero => omega
  | succ fuel ih =>
      unfold FrameDecoder.decode
      by_cases hnil : src = []
      · rw [if_pos hnil]
        have hparse : parseFrame src = none := by
          rw [hnil]
          exact frameFramer.parse_nil
        exact .waiting hsound hparse (Nat.le_refl _) fun _ _ => rfl
      · rw [if_neg hnil]
        by_cases hwait : expected.any (src.length < ·) = true
        · -- the number to wait for has not been reached
          rw [if_pos hwait]
          obtain ⟨min, hmin, hlt⟩ := (Option.any_eq_true ..).mp hwait
          have hparse := hsound min hmin [] (by simpa using hlt)
          rw [List.append_nil] at hparse
          exact .waiting hsound hparse (Nat.le_refl _) fun _ _ => rfl
        · rw [if_neg hwait]
          cases hdec : Frame.decode src with
          | mk r rest =>
              cases r with
              | ok f =>
                  obtain ⟨n, hparse, rfl⟩ := parseFrame_of_decode hdec (by simp)
                  obtain ⟨-, -, hpos, hle⟩ := parseFrame_eq_some hparse
                  exact .frame (by simp; omega) fun closed ext => transcript_frame hparse ext closed
              | error err =>
                  cases err with
                  | incomplete min =>
                      exact .waiting (sound_incomplete hdec) (parseFrame_incomplete hdec)
                        (Nat.le_refl _) fun _ _ => rfl
                  | settings err =>
                      obtain ⟨n, hparse, -⟩ := parseFrame_of_decode hdec (by simp)
                      exact .error fun closed ext => transcript_some hparse ext closed
                  | unsupportedFrame ty =>
                      obtain ⟨n, hparse, -⟩ := parseFrame_of_decode hdec (by simp)
                      exact .error fun closed ext => transcript_some hparse ext closed
                  | unknownFrame ty =>
                      obtain ⟨n, hparse, rfl⟩ := parseFrame_of_decode hdec (by simp)
                      obtain ⟨-, -, hpos, hle⟩ := parseFrame_eq_some hparse
                      have hnext := @ih none (src.drop n)
                        (by simp; omega) (sound_none _)
                      have hskip : ∀ closed ext, transcript (ε := ε) closed (src ++ ext)
                          = transcript closed (src.drop n ++ ext) :=
                        fun closed ext => transcript_unknown hparse ext closed
                      simp only
                      generalize FrameDecoder.decode fuel none (src.drop n) = res at hnext
                      cases hnext with
                      | waiting h₁ h₂ h₃ h₄ =>
                          exact .waiting h₁ h₂ (by simp at h₃; omega)
                            fun closed ext => (hskip closed ext).trans (h₄ closed ext)
                      | frame h₁ h₂ =>
                          exact .frame (by simp at h₁; omega)
                            fun closed ext => (hskip closed ext).trans (h₂ closed ext)
                      | error h₁ =>
                          exact .error fun closed ext => (hskip closed ext).trans (h₁ closed ext)

namespace FrameStream

variable {ε : Type}

/-- What `take` can come to. -/
inductive Taken (s : FrameStream) : Option (Next ε) × FrameStream → Prop
  | waiting {s' : FrameStream} : Sound s'.expected s'.buf → s'.eos = s.eos →
      s'.remainingData = s.remainingData → parseFrame s'.buf = none →
      s'.buf.length ≤ s.buf.length →
      (∀ closed ext,
        transcript (ε := ε) closed (s.buf ++ ext) = transcript closed (s'.buf ++ ext)) →
      Taken s (none, s')
  | frame {f : Frame} {s' : FrameStream} : f.hasData = false → Sound s'.expected s'.buf →
      s'.eos = s.eos → s'.remainingData = s.remainingData → s'.buf.length < s.buf.length →
      (∀ closed ext, transcript (ε := ε) closed (s.buf ++ ext)
        = (f :: (transcript (ε := ε) closed (s'.buf ++ ext)).1,
            (transcript closed (s'.buf ++ ext)).2)) →
      Taken s (some (.frame f), s')
  | data {f : Frame} {s' : FrameStream} : f.hasData = true → s'.remainingData ≠ 0 →
      0 < s.buf.length →
      (∀ closed ext, transcript (ε := ε) closed (s.buf ++ ext) = ([f], .panicked)) →
      Taken s (some (.frame f), s')
  | error {err : FrameProtocolError} {s' : FrameStream} :
      (∀ closed ext, transcript (ε := ε) closed (s.buf ++ ext) = ([], .error (.proto err))) →
      Taken s (some (.error (.proto err)), s')

theorem take_taken {s : FrameStream} (hsound : Sound s.expected s.buf)
    (hdata : s.remainingData = 0) : Taken (ε := ε) s s.take := by
  have h := decode_decoded (ε := ε) (Nat.lt_succ_self s.buf.length) hsound
  unfold take
  generalize FrameDecoder.decode (s.buf.length + 1) s.expected s.buf = res at h
  cases h with
  | waiting h₁ h₂ h₃ h₄ => exact .waiting h₁ rfl rfl h₂ h₃ h₄
  | error h₁ => exact .error h₁
  | frame hlen h =>
      rename_i f buf
      cases f with
      | data len =>
          cases len with
          | zero => exact .frame rfl (sound_none _) rfl hdata.symm hlen h
          | succ n => exact .data rfl (Nat.succ_ne_zero n) (by omega) h
      | webTransportStream id => exact .data rfl (show 2 ^ 64 - 1 ≠ 0 by decide) (by omega) h
      | headers encoded => exact .frame rfl (sound_none _) rfl rfl hlen h
      | cancelPush id => exact .frame rfl (sound_none _) rfl rfl hlen h
      | settings st => exact .frame rfl (sound_none _) rfl rfl hlen h
      | pushPromise id encoded => exact .frame rfl (sound_none _) rfl rfl hlen h
      | goaway id => exact .frame rfl (sound_none _) rfl rfl hlen h
      | maxPushId id => exact .frame rfl (sound_none _) rfl rfl hlen h

/-- There is data to be read only after a frame that has some. -/
theorem take_remaining {s : FrameStream} (hdata : s.remainingData = 0) :
    (s.take (ε := ε)).2.remainingData = 0
      ∨ ∃ f, (s.take (ε := ε)).1 = some (.frame f) ∧ f.hasData = true := by
  unfold take
  split
  · exact .inl hdata
  · exact .inl hdata
  · next len _ _ _ =>
      cases len with
      | zero => exact .inl rfl
      | succ n => exact .inr ⟨.data (n + 1), rfl, rfl⟩
  · exact .inr ⟨_, rfl, rfl⟩
  · exact .inl hdata

theorem pollLoop_remaining {s : FrameStream} (hdata : s.remainingData = 0)
    (incoming : List (Incoming ε)) :
    (s.pollLoop incoming).2.1.remainingData = 0
      ∨ ∃ f, (s.pollLoop incoming).1 = .frame f ∧ f.hasData = true := by
  have htake {s : FrameStream} (hdata : s.remainingData = 0) (next : Next ε) :
      (s.take (ε := ε)).2.remainingData = 0
        ∨ ∃ f, (s.take (ε := ε)).1.getD next = .frame f ∧ f.hasData = true := by
    rcases s.take_remaining (ε := ε) hdata with h | ⟨f, h, hf⟩
    · exact .inl h
    · exact .inr ⟨f, by rw [h]; rfl, hf⟩
  induction incoming generalizing s with
  | nil => exact htake hdata _
  | cons polled incoming ih =>
      unfold pollLoop
      split
      · exact htake hdata _
      · cases polled with
        | error err => exact .inl hdata
        | pending => exact htake hdata _
        | eos => exact htake (s := { s with eos := true }) hdata _
        | chunk bytes =>
            have h := take_remaining (ε := ε) (s := { s with buf := s.buf ++ bytes }) hdata
            simp only
            split
            · next next s' heq =>
                rw [heq] at h
                rcases h with h | ⟨f, h, hf⟩
                · exact .inl h
                · exact .inr ⟨f, Option.some.inj h, hf⟩
            · next s' heq =>
                rw [heq] at h
                rcases h with h | ⟨f, h, -⟩
                · exact ih h
                · cases h

end FrameStream

/-! ### What arrives -/

namespace Incoming

variable {ε : Type}

/-- The bytes that arrive, up to the end of the stream. -/
def bytes : List (Incoming ε) → List UInt8
  | .pending :: incoming => bytes incoming
  | .chunk b :: incoming => b ++ bytes incoming
  | _ => []

/-- The stream ends. -/
def ends : List (Incoming ε) → Bool
  | .pending :: incoming => ends incoming
  | .chunk _ :: incoming => ends incoming
  | .eos :: _ => true
  | _ => false

end Incoming

namespace FrameStream

variable {ε : Type}

/-- The bytes that are still to be polled. -/
def coming (s : FrameStream) (incoming : List (Incoming ε)) : List UInt8 :=
  if s.eos then [] else Incoming.bytes incoming

/-- What there is to read from here on. -/
def ahead (s : FrameStream) (incoming : List (Incoming ε)) : List Frame × Next ε :=
  transcript (s.eos || Incoming.ends incoming) (s.buf ++ s.coming incoming)

/-- What is left to do: each poll that does not end the task takes from it. -/
def left (s : FrameStream) (incoming : List (Incoming ε)) : Nat :=
  s.buf.length + (s.coming incoming).length + incoming.length

/-- Between two polls. -/
structure Ready (s : FrameStream) : Prop where
  sound : Sound s.expected s.buf
  read : s.remainingData = 0

/-- What a poll can come to. -/
inductive Polled (s : FrameStream) (incoming : List (Incoming ε)) :
    Next ε × FrameStream × List (Incoming ε) → Prop
  | frame {f : Frame} {s' : FrameStream} {incoming' : List (Incoming ε)} : s'.Ready →
      s'.left incoming' < s.left incoming →
      s.ahead incoming = (f :: (s'.ahead incoming').1, (s'.ahead incoming').2) →
      Polled s incoming (.frame f, s', incoming')
  | data {f : Frame} {s' : FrameStream} {incoming' : List (Incoming ε)} :
      f.hasData = true → s'.remainingData ≠ 0 → 0 < s.left incoming →
      s.ahead incoming = ([f], .panicked) →
      Polled s incoming (.frame f, s', incoming')
  | pending {s' : FrameStream} {incoming' : List (Incoming ε)} : s'.Ready →
      s'.left incoming' < s.left incoming → s.ahead incoming = s'.ahead incoming' →
      (incoming' = [] → s.ahead incoming = ([], .pending)) →
      Polled s incoming (.pending, s', incoming')
  | exhausted {s' : FrameStream} : s.ahead incoming = ([], .pending) →
      Polled s incoming (.pending, s', [])
  | finished {s' : FrameStream} {incoming' : List (Incoming ε)} :
      s.ahead incoming = ([], .finished) → Polled s incoming (.finished, s', incoming')
  | error {err : FrameStreamError ε} {s' : FrameStream} {incoming' : List (Incoming ε)} :
      (∀ e, err ≠ .quic e) → s.ahead incoming = ([], .error err) →
      Polled s incoming (.error err, s', incoming')

theorem Polled.of_ahead {s s₁ : FrameStream} {incoming incoming₁ : List (Incoming ε)}
    {res : Next ε × FrameStream × List (Incoming ε)} (h : Polled s₁ incoming₁ res)
    (hahead : s.ahead incoming = s₁.ahead incoming₁)
    (hleft : s₁.left incoming₁ ≤ s.left incoming) : Polled s incoming res := by
  cases h with
  | frame h₁ h₂ h₃ => exact .frame h₁ (by omega) (hahead.trans h₃)
  | data h₁ h₂ h₃ h₄ => exact .data h₁ h₂ (by omega) (hahead.trans h₄)
  | pending h₁ h₂ h₃ h₄ =>
      exact .pending h₁ (by omega) (hahead.trans h₃) fun hnil => hahead.trans (h₄ hnil)
  | exhausted h₁ => exact .exhausted (hahead.trans h₁)
  | finished h₁ => exact .finished (hahead.trans h₁)
  | error h₁ h₂ => exact .error h₁ (hahead.trans h₂)

theorem Taken.polled {s s' : FrameStream} {next : Next ε} (h : Taken s (some next, s'))
    (hdata : s.remainingData = 0) (incoming : List (Incoming ε)) :
    Polled s incoming (next, s', incoming) := by
  cases h with
  | frame _ hsound heos hrem hlen hbytes =>
      refine .frame ⟨hsound, by omega⟩ ?_ ?_
      · simp only [left, coming, heos]
        omega
      · simp only [ahead, coming, heos]
        exact hbytes _ _
  | data hhas hrem hlen hbytes => exact .data hhas hrem (by simp only [left]; omega) (hbytes _ _)
  | error hbytes => exact .error (fun _ h => nomatch h) (hbytes _ _)

theorem Taken.ready {s s' : FrameStream} (h : Taken (ε := ε) s (none, s'))
    (hdata : s.remainingData = 0) (incoming : List (Incoming ε)) :
    s'.Ready ∧ s'.eos = s.eos ∧ parseFrame s'.buf = none
      ∧ s.ahead incoming = s'.ahead incoming ∧ s'.left incoming ≤ s.left incoming := by
  cases h with
  | waiting hsound heos hrem hparse hlen hbytes =>
      refine ⟨⟨hsound, by omega⟩, heos, hparse, ?_, ?_⟩
      · simp only [ahead, coming, heos]
        exact hbytes _ _
      · simp only [left, coming, heos]
        omega

/-- The answer of a stream that has ended. -/
theorem polled_atEnd {s : FrameStream} (heos : s.eos = true) (hparse : parseFrame s.buf = none)
    (s' : FrameStream) (incoming : List (Incoming ε)) :
    Polled s incoming (s.atEnd, s', incoming) := by
  have hahead : s.ahead incoming = ([], settled true s.buf) := by
    simp only [ahead, coming, heos, if_true, List.append_nil, Bool.true_or]
    exact transcript_none hparse true
  unfold atEnd
  split
  next hbuf =>
    exact .error (fun _ h => nomatch h) (by rw [hahead, settled, if_pos rfl, if_pos hbuf])
  next hbuf => exact .finished (by rw [hahead, settled, if_pos rfl, if_neg hbuf])

theorem take_eos (s : FrameStream) : (s.take (ε := ε)).2.eos = s.eos := by
  unfold take
  split <;> rfl

/-- Decoding for the last time. -/
theorem take_atEnd {s : FrameStream} (h : s.Ready) (heos : s.eos = true)
    (incoming : List (Incoming ε)) :
    Polled s incoming ((s.take (ε := ε)).1.getD (s.take (ε := ε)).2.atEnd,
      (s.take (ε := ε)).2, incoming) := by
  have htaken := take_taken (ε := ε) h.sound h.read
  generalize s.take = res at htaken
  obtain ⟨answer, s'⟩ := res
  cases answer with
  | some next => exact htaken.polled h.read incoming
  | none =>
      obtain ⟨-, heos', hparse, hahead, hleft⟩ := htaken.ready h.read incoming
      exact (polled_atEnd (heos'.trans heos) hparse s' incoming).of_ahead hahead hleft

/-- Nothing more can be read while the stream is pending. -/
theorem ahead_nil {s : FrameStream} (heos : s.eos = false) (hparse : parseFrame s.buf = none) :
    s.ahead (ε := ε) [] = ([], .pending) := by
  have h := transcript_none (ε := ε) hparse false
  simpa [ahead, coming, heos, Incoming.ends, Incoming.bytes, settled] using h

theorem Ready.append {s : FrameStream} (h : s.Ready) (bytes : List UInt8) :
    Ready { s with buf := s.buf ++ bytes } :=
  ⟨h.sound.append bytes, h.read⟩

/-- **One poll** gives what comes next in the stream. -/
theorem pollLoop_polled {s : FrameStream} (h : s.Ready) {incoming : List (Incoming ε)}
    (hquiet : ∀ err, Incoming.error err ∉ incoming) :
    Polled s incoming (s.pollLoop incoming) := by
  induction incoming generalizing s with
  | nil =>
      cases heos : s.eos with
      | true =>
          have hend := take_atEnd h heos ([] : List (Incoming ε))
          simpa only [pollLoop, take_eos, heos, if_true] using hend
      | false =>
          have htaken := take_taken (ε := ε) h.sound h.read
          simp only [pollLoop, take_eos, heos]
          generalize s.take = res at htaken
          obtain ⟨answer, s'⟩ := res
          cases answer with
          | some next => exact htaken.polled h.read []
          | none =>
              obtain ⟨-, heos', hparse, hahead, -⟩ := htaken.ready h.read []
              exact .exhausted (hahead.trans (ahead_nil (heos'.trans heos) hparse))
  | cons polled incoming ih =>
      have hquiet' : ∀ err, Incoming.error err ∉ incoming := by
        intro err hmem
        exact hquiet err (List.mem_cons_of_mem _ hmem)
      cases heos : s.eos with
      | true =>
          have hend := take_atEnd h heos (polled :: incoming)
          simpa only [pollLoop, heos, if_true] using hend
      | false =>
          cases polled with
          | error err => exact absurd (List.mem_cons_self ..) (hquiet err)
          | eos =>
              have hend := take_atEnd (s := { s with eos := true }) ⟨h.sound, h.read⟩ rfl incoming
              have hahead : s.ahead (.eos :: incoming)
                  = ahead { s with eos := true } incoming := by
                simp [ahead, coming, heos, Incoming.ends, Incoming.bytes]
              have hleft : left { s with eos := true } incoming ≤ s.left (.eos :: incoming) := by
                simp [left, coming]
                omega
              simpa only [pollLoop, heos, if_false, Bool.false_eq_true]
                using hend.of_ahead hahead hleft
          | pending =>
              have hahead : s.ahead (.pending :: incoming) = s.ahead incoming := rfl
              have hleft : s.left incoming < s.left (.pending :: incoming) := by
                simp [left, coming, Incoming.bytes]
              have htaken := take_taken (ε := ε) h.sound h.read
              simp only [pollLoop, heos, Bool.false_eq_true, if_false]
              generalize s.take = res at htaken
              obtain ⟨answer, s'⟩ := res
              cases answer with
              | some next =>
                  exact (htaken.polled h.read incoming).of_ahead hahead (Nat.le_of_lt hleft)
              | none =>
                  obtain ⟨hready, heos', hparse, hahead', hleft'⟩ := htaken.ready h.read incoming
                  refine .pending hready (Nat.lt_of_le_of_lt hleft' hleft)
                    (hahead.trans hahead') ?_
                  intro hnil
                  rw [hahead, hahead', hnil]
                  exact ahead_nil (heos'.trans heos) hparse
          | chunk bytes =>
              have hahead : s.ahead (.chunk bytes :: incoming)
                  = ahead { s with buf := s.buf ++ bytes } incoming := by
                simp [ahead, coming, heos, Incoming.ends, Incoming.bytes]
              have hleft : left { s with buf := s.buf ++ bytes } incoming
                  ≤ s.left (.chunk bytes :: incoming) := by
                simp [left, coming, heos, Incoming.bytes]
                omega
              have hready := h.append bytes
              have htaken := take_taken (ε := ε) hready.sound hready.read
              rw [pollLoop, if_neg (by simp [heos])]
              generalize take { s with buf := s.buf ++ bytes } = res at htaken
              obtain ⟨answer, s'⟩ := res
              cases answer with
              | some next => exact (htaken.polled hready.read incoming).of_ahead hahead hleft
              | none =>
                  obtain ⟨hready', -, -, hahead', hleft'⟩ := htaken.ready hready.read incoming
                  exact (ih hready' hquiet').of_ahead (hahead.trans hahead') (hleft'.trans hleft)

/-- What has not been polled comes from what there was. -/
theorem pollLoop_suffix (s : FrameStream) (incoming : List (Incoming ε)) :
    (s.pollLoop incoming).2.2 <:+ incoming := by
  induction incoming generalizing s with
  | nil => exact List.suffix_refl []
  | cons polled incoming ih =>
      unfold pollLoop
      split
      · exact List.suffix_refl _
      · cases polled with
        | chunk bytes =>
            simp only
            split
            · exact List.suffix_cons _ _
            · exact (ih _).trans (List.suffix_cons _ _)
        | _ => exact List.suffix_cons _ _

theorem run_eq_ahead {fuel : Nat} {s : FrameStream} (h : s.Ready)
    {incoming : List (Incoming ε)} (hquiet : ∀ err, Incoming.error err ∉ incoming)
    (hfuel : s.left incoming < fuel) : run fuel s incoming = s.ahead incoming := by
  induction fuel generalizing s incoming with
  | zero => omega
  | succ fuel ih =>
      have hpoll := pollLoop_polled h hquiet
      have hsuffix := s.pollLoop_suffix incoming
      rw [run, pollNext, if_neg (by simp [h.read])]
      generalize s.pollLoop incoming = res at hpoll hsuffix
      have hquiet' : ∀ err, Incoming.error err ∉ res.2.2 := by
        intro err hmem
        exact hquiet err (hsuffix.subset hmem)
      cases hpoll with
      | frame hready hleft hahead =>
          have hrest := ih hready hquiet' (Nat.lt_of_lt_of_le hleft (Nat.le_of_lt_succ hfuel))
          simp only [hahead, hrest]
      | data hhas hrem hleft hahead =>
          -- the next poll meets the assertion
          obtain ⟨fuel, rfl⟩ : ∃ n, fuel = n + 1 := ⟨fuel - 1, by omega⟩
          simp only [hahead, run, pollNext, if_pos hrem]
      | pending hready hleft hahead hnil =>
          rename_i s' incoming'
          cases incoming' with
          | nil => exact (hnil rfl).symm
          | cons polled incoming' =>
              have hrest := ih hready hquiet' (Nat.lt_of_lt_of_le hleft (Nat.le_of_lt_succ hfuel))
              simp only [hahead, hrest]
      | exhausted hahead => exact hahead.symm
      | finished hahead => exact hahead.symm
      | error _ hahead => exact hahead.symm

/-- What is awaited is the first frame there is. -/
theorem awaitNext_frame {fuel : Nat} {s : FrameStream} (h : s.Ready)
    {incoming : List (Incoming ε)} (hquiet : ∀ err, Incoming.error err ∉ incoming)
    (hfuel : s.left incoming < fuel) {f : Frame} {fs : List Frame} {last : Next ε}
    (hahead : s.ahead incoming = (f :: fs, last)) (hf : f.hasData = false) :
    ∃ s' incoming', awaitNext fuel s incoming = (.frame f, s', incoming') ∧ s'.Ready
      ∧ s'.ahead incoming' = (fs, last) := by
  induction fuel generalizing s incoming with
  | zero => omega
  | succ fuel ih =>
      have hpoll := pollLoop_polled h hquiet
      have hsuffix := s.pollLoop_suffix incoming
      rw [awaitNext, pollNext, if_neg (by simp [h.read])]
      generalize s.pollLoop incoming = res at hpoll hsuffix
      cases hpoll with
      | frame hready hleft heq =>
          rename_i f' s' incoming'
          rw [hahead, Prod.mk.injEq, List.cons.injEq] at heq
          obtain ⟨⟨rfl, rfl⟩, rfl⟩ := heq
          exact ⟨s', incoming', rfl, hready, rfl⟩
      | data hhas hrem hleft heq =>
          rw [hahead, Prod.mk.injEq, List.cons.injEq] at heq
          rw [heq.1.1, hhas] at hf
          cases hf
      | pending hready hleft heq hnil =>
          rename_i s' incoming'
          cases incoming' with
          | nil =>
              rw [hahead] at hnil
              cases hnil rfl
          | cons polled incoming' =>
              refine ih hready ?_ (Nat.lt_of_lt_of_le hleft (Nat.le_of_lt_succ hfuel))
                (heq.symm.trans hahead)
              intro err hmem
              exact hquiet err (hsuffix.subset hmem)
      | exhausted heq =>
          rw [hahead] at heq
          cases heq
      | finished heq =>
          rw [hahead] at heq
          cases heq
      | error _ heq =>
          rw [hahead] at heq
          cases heq

theorem ready_new : new.Ready := ⟨sound_none _, rfl⟩

theorem ahead_new (incoming : List (Incoming ε)) :
    new.ahead incoming = transcript (Incoming.ends incoming) (Incoming.bytes incoming) := rfl

theorem left_new (incoming : List (Incoming ε)) :
    new.left incoming = (Incoming.bytes incoming).length + incoming.length := by
  simp [left, coming, new]

/-- **Polling a stream** gives what is in its bytes: neither the chunks nor the moments when
it is pending nor the number of bytes waited for make a difference. -/
theorem run_eq_transcript {fuel : Nat} {incoming : List (Incoming ε)}
    (hquiet : ∀ err, Incoming.error err ∉ incoming)
    (hfuel : (Incoming.bytes incoming).length + incoming.length < fuel) :
    run fuel new incoming
      = transcript (Incoming.ends incoming) (Incoming.bytes incoming) := by
  rw [← left_new] at hfuel
  rw [run_eq_ahead ready_new hquiet hfuel, ahead_new]

/-- A GOAWAY frame in three pieces after one that is unknown. -/
theorem run_eq_transcript_goaway :
    run (ε := Unit) 20 new [.chunk [0x21, 0x01], .chunk [0xFF, 0x07], .pending, .chunk [0x01],
        .pending, .chunk [0x04], .eos]
      = transcript true [0x21, 0x01, 0xFF, 0x07, 0x01, 0x04] :=
  run_eq_transcript (by simp) (by decide)

/-- **Frames that are sent** one after the other arrive as the peer takes them, if none has
data, no block is sent twice and the stream ends after them. -/
theorem run_wires (xs : List Frame.Written)
    (hxs : ∀ x ∈ xs, x.Fits ∧ x.again = [] ∧ x.hasData = false)
    {fuel : Nat} {incoming : List (Incoming ε)} (hquiet : ∀ err, Incoming.error err ∉ incoming)
    (hbytes : Incoming.bytes incoming = xs.flatMap Frame.Written.wire)
    (hends : Incoming.ends incoming = true)
    (hfuel : (Incoming.bytes incoming).length + incoming.length < fuel) :
    run fuel new incoming = (xs.filterMap fun x => x.read.toOption, .finished) := by
  rw [← left_new] at hfuel
  rw [run_eq_ahead ready_new hquiet hfuel, ahead_new, hbytes, hends, transcript_wires hxs]
  rfl

/-- Two frames with grease between them, which is cut. -/
theorem run_wires_goaway :
    run (ε := Unit) 40 new [.chunk [0x01, 0x02, 0x00, 0xFF, 0x21, 0x06, 0x67], .pending,
        .chunk [0x72, 0x65, 0x61, 0x73, 0x65, 0x07, 0x01, 0x04], .eos]
      = ([.headers [0x00, 0xFF], .goaway 4], .finished) :=
  run_wires [.frame (.headers [0x00, 0xFF]), .grease 0, .frame (.goaway 4)]
    (by
      intro x hx
      simp only [List.mem_cons, List.not_mem_nil, or_false] at hx
      rcases hx with rfl | rfl | rfl
      · exact ⟨show 2 < 2 ^ 62 by decide, rfl, rfl⟩
      · exact ⟨show 0 < FrameType.greaseBound by decide, rfl, rfl⟩
      · exact ⟨show 4 < 2 ^ 62 by decide, rfl, rfl⟩)
    (by simp) (by decide) rfl (by decide)

end FrameStream

end WarpProxy.H3
