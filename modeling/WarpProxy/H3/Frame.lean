/-
# `WarpProxy.H3.Frame` — the frames of the vendored `h3`

`Frame::decode` and `Frame::encode` of `proto/frame.rs`.  A frame is a type, a length
and a payload; a DATA frame is decoded without its payload, and the two kinds of frame
that hold one identifier only go over that, whatever the length says.

    decode_extend       what has been decoded is decoded from every extension
    decode_waits        what is incomplete stays so up to the number of bytes it names
    Framed              a frame that says its length, and how its payload is read
    frameCodec          the round trip, and what is read of a frame that is cut
-/
import WarpProxy.Lib.Framing
import WarpProxy.H3.Settings

namespace WarpProxy.H3

/-! ## `FrameType` -/

namespace FrameType

def data : Nat := 0x0
def headers : Nat := 0x1
def h2Priority : Nat := 0x2
def cancelPush : Nat := 0x3
def settings : Nat := 0x4
def pushPromise : Nat := 0x5
def h2Ping : Nat := 0x6
def goaway : Nat := 0x7
def h2WindowUpdate : Nat := 0x8
def h2Continuation : Nat := 0x9
def maxPushId : Nat := 0xD
def webtransportBiStream : Nat := 0x41

/-- `grease`, of the random number that it draws. -/
def grease (n : Nat) : Nat := n * 0x1f + 0x21

/-- The bound of that number. -/
def greaseBound : Nat := 0x210842108421083

end FrameType

/-! ## `Frame` -/

/-- `Malformed`, `InvalidFrameValue` and the two errors of an identifier that is no varint
are never given. -/
inductive FrameError where
  | unsupportedFrame (ty : Nat)
  | unknownFrame (ty : Nat)
  | incomplete (min : Nat)
  | settings (err : SettingsError)
  deriving DecidableEq

/-- `Frame<PayloadLen>`: of a DATA frame there is only the length.  `Grease`, which is never
decoded, is with the frames that are written. -/
inductive Frame where
  | data (len : Nat)
  | headers (encoded : List UInt8)
  | cancelPush (id : Nat)
  | settings (s : Settings)
  | pushPromise (id : Nat) (encoded : List UInt8)
  | goaway (id : Nat)
  | maxPushId (id : Nat)
  | webTransportStream (id : Nat)
  deriving DecidableEq

namespace Frame

/-- A frame that is an identifier: `payload.get_var()?`.  What is left is what is left of
the payload, and what follows it. -/
def decodeId (frame : Nat → Frame) (payload rest : List UInt8) :
    Except FrameError Frame × List UInt8 :=
  match VarInt.decode payload with
  | .error err => (.error (.incomplete err.n), rest)
  | .ok (id, payload) => (.ok (frame id), payload ++ rest)

/-- The frame of a type, from its payload; `rest` follows it. -/
def decodePayload (ty : Nat) (payload rest : List UInt8) : Except FrameError Frame × List UInt8 :=
  if ty = FrameType.headers then (.ok (.headers payload), rest)
  else if ty = FrameType.settings then
    match Settings.decode payload with
    | .error err => (.error (.settings err), rest)
    | .ok s => (.ok (.settings s), rest)
  else if ty = FrameType.cancelPush then decodeId .cancelPush payload rest
  else if ty = FrameType.pushPromise then
    match VarInt.decode payload with
    | .error err => (.error (.incomplete err.n), rest)
    | .ok (id, encoded) => (.ok (.pushPromise id encoded), rest)
  else if ty = FrameType.goaway then decodeId .goaway payload rest
  else if ty = FrameType.maxPushId then decodeId .maxPushId payload rest
  else if ty = FrameType.h2Priority ∨ ty = FrameType.h2Ping ∨ ty = FrameType.h2WindowUpdate
      ∨ ty = FrameType.h2Continuation then
    (.error (.unsupportedFrame ty), rest)
  else (.error (.unknownFrame ty), rest)

/-- The result, and the buffer at the position of the cursor, which is of no use after an
error other than `unknownFrame`. -/
def decode (buf : List UInt8) : Except FrameError Frame × List UInt8 :=
  match VarInt.decode buf with
  | .error _ => (.error (.incomplete (buf.length + 1)), buf)
  | .ok (ty, b₁) =>
      if ty = FrameType.webtransportBiStream then
        match VarInt.decode b₁ with
        | .error err => (.error (.incomplete err.n), b₁)
        | .ok (id, b₂) => (.ok (.webTransportStream id), b₂)
      else
        match VarInt.decode b₁ with
        | .error _ => (.error (.incomplete (buf.length + 1)), b₁)
        | .ok (len, b₂) =>
            if ty = FrameType.data then (.ok (.data len), b₂)
            else if b₂.length < len then (.error (.incomplete (2 + len)), b₂)
            else decodePayload ty (b₂.take len) (b₂.drop len)

/-- `simple_frame_encode` -/
def encodeId (ty id : Nat) : List UInt8 :=
  VarInt.encode ty ++ VarInt.encode (VarInt.size id) ++ VarInt.encode id

/-- `Frame::encode`: the frame up to its payload.  A PUSH_PROMISE frame is encoded with it. -/
def encode : Frame → List UInt8
  | .data len => VarInt.encode FrameType.data ++ VarInt.encode len
  | .headers encoded => VarInt.encode FrameType.headers ++ VarInt.encode encoded.length
  | .cancelPush id => encodeId FrameType.cancelPush id
  | .settings s => s.encode
  | .pushPromise id encoded =>
      VarInt.encode FrameType.pushPromise ++ VarInt.encode (VarInt.size id + encoded.length)
        ++ VarInt.encode id ++ encoded
  | .goaway id => encodeId FrameType.goaway id
  | .maxPushId id => encodeId FrameType.maxPushId id
  | .webTransportStream id => VarInt.encode FrameType.webtransportBiStream ++ VarInt.encode id

/-- `Frame::payload`; that of a DATA frame is not in the model. -/
def payload : Frame → List UInt8
  | .headers encoded => encoded
  | .pushPromise _ encoded => encoded
  | _ => []

/-- What a `WriteBuf` sends, if `encode` has room in it. -/
def wire (f : Frame) : List UInt8 := f.encode ++ f.payload

/-- A frame that is written: `Grease` is one of its own, with the random number that its type
is drawn with. -/
inductive Written where
  | frame (f : Frame)
  | grease (n : Nat)
  deriving DecidableEq

/-- `Frame::encode`, and the payload. -/
def Written.wire : Written → List UInt8
  | .frame f => f.wire
  | .grease n =>
      VarInt.encode (FrameType.grease n) ++ VarInt.encode 6
        ++ [0x67, 0x72, 0x65, 0x61, 0x73, 0x65]

/-! ## Decoding a stream -/

theorem decodeId_append (frame : Nat → Frame) (payload rest ext : List UInt8) :
    decodeId frame payload (rest ++ ext)
      = ((decodeId frame payload rest).1, (decodeId frame payload rest).2 ++ ext) := by
  unfold decodeId
  split <;> simp

theorem decodePayload_append (ty : Nat) (payload rest ext : List UInt8) :
    decodePayload ty payload (rest ++ ext)
      = ((decodePayload ty payload rest).1, (decodePayload ty payload rest).2 ++ ext) := by
  unfold decodePayload
  simp only [decodeId_append]
  split_ifs <;> first | rfl | (split <;> rfl)

/-- What has been decoded is decoded from every extension of the buffer. -/
theorem decode_extend {buf rest : List UInt8} {r : Except FrameError Frame}
    (h : decode buf = (r, rest)) (hr : ∀ min, r ≠ .error (.incomplete min))
    (ext : List UInt8) : decode (buf ++ ext) = (r, rest ++ ext) := by
  unfold decode at h ⊢
  cases h₁ : VarInt.decode buf with
  | error err =>
      simp only [h₁, Prod.mk.injEq] at h
      exact absurd h.1.symm (hr _)
  | ok p₁ =>
      obtain ⟨ty, b₁⟩ := p₁
      simp only [h₁, VarInt.decode_extend h₁ ext] at h ⊢
      cases h₂ : VarInt.decode b₁ with
      | error err =>
          simp only [h₂] at h
          split at h <;> exact absurd (congrArg Prod.fst h).symm (hr _)
      | ok p₂ =>
          obtain ⟨len, b₂⟩ := p₂
          simp only [h₂, VarInt.decode_extend h₂ ext] at h ⊢
          by_cases hwt : ty = FrameType.webtransportBiStream
          · rw [if_pos hwt, Prod.mk.injEq] at h ⊢
            exact ⟨h.1, by rw [h.2]⟩
          · by_cases hdata : ty = FrameType.data
            · rw [if_neg hwt, if_pos hdata, Prod.mk.injEq] at h ⊢
              exact ⟨h.1, by rw [h.2]⟩
            · rw [if_neg hwt, if_neg hdata] at h ⊢
              by_cases hlen : b₂.length < len
              · rw [if_pos hlen] at h
                exact absurd (congrArg Prod.fst h).symm (hr _)
              · have hle : len ≤ b₂.length := by omega
                rw [if_neg hlen] at h
                rw [if_neg (by simp; omega), List.take_append_of_le_length hle,
                  List.drop_append_of_le_length hle, decodePayload_append, h]

/-- An incomplete identifier names a number that has long been reached. -/
theorem decodePayload_incomplete {ty min : Nat} {payload rest rest' : List UInt8}
    (h : decodePayload ty payload rest = (.error (.incomplete min), rest')) :
    min ≤ payload.length + 2 := by
  have hid {frame : Nat → Frame}
      (h : decodeId frame payload rest = (.error (.incomplete min), rest')) :
      min ≤ payload.length + 2 := by
    unfold decodeId at h
    cases hd : VarInt.decode payload with
    | error err =>
        simp only [hd, Prod.mk.injEq, Except.error.injEq, FrameError.incomplete.injEq] at h
        rw [← h.1]
        exact VarInt.decode_error_le hd
    | ok p => simp [hd] at h
  unfold decodePayload at h
  split_ifs at h
  · simp at h
  · split at h <;> simp at h
  · exact hid h
  · cases hd : VarInt.decode payload with
    | error err =>
        simp only [hd, Prod.mk.injEq, Except.error.injEq, FrameError.incomplete.injEq] at h
        rw [← h.1]
        exact VarInt.decode_error_le hd
    | ok p => simp [hd] at h
  · exact hid h
  · exact hid h
  · simp at h
  · simp at h

/-- **The number that an incomplete frame names**: up to so many bytes it stays
incomplete. -/
theorem decode_waits {p q rest : List UInt8} {min : Nat}
    (h : decode p = (.error (.incomplete min), rest)) (hlen : (p ++ q).length < min) :
    ∃ rest', decode (p ++ q) = (.error (.incomplete min), rest') := by
  have hnil (hmin : min ≤ p.length + 1) :
      ∃ rest', decode (p ++ q) = (.error (.incomplete min), rest') := by
    have hq : q = [] := by
      simp only [List.length_append] at hlen
      exact List.length_eq_zero_iff.mp (by omega)
    rw [hq, List.append_nil]
    exact ⟨rest, h⟩
  have hmin {err : FrameError} {r : List UInt8}
      (h : (Except.error err, r) = ((.error (.incomplete min), rest) :
        Except FrameError Frame × List UInt8)) : err = .incomplete min := by
    simpa using congrArg Prod.fst h
  cases h₁ : VarInt.decode p with
  | error err =>
      simp only [decode, h₁] at h
      have := hmin h
      exact hnil (by simp at this; omega)
  | ok p₁ =>
      obtain ⟨ty, b₁⟩ := p₁
      have hlt₁ := VarInt.decode_shorter h₁
      cases h₂ : VarInt.decode b₁ with
      | error err =>
          have hle := VarInt.decode_error_le h₂
          simp only [decode, h₁, h₂] at h
          split at h
          · have := hmin h
            exact hnil (by simp at this; omega)
          · have := hmin h
            exact hnil (by simp at this; omega)
      | ok p₂ =>
          obtain ⟨len, b₂⟩ := p₂
          have hlt₂ := VarInt.decode_shorter h₂
          simp only [decode, h₁, h₂] at h
          split_ifs at h with hwt hdata hshort
          · simp at h
          · simp at h
          · have heq := hmin h
            simp only [FrameError.incomplete.injEq] at heq
            simp only [List.length_append] at hlen
            refine ⟨b₂ ++ q, ?_⟩
            simp only [decode, VarInt.decode_extend h₁ q, VarInt.decode_extend h₂ q]
            rw [if_neg hwt, if_neg hdata, if_pos (by simp; omega), heq]
          · have hle := decodePayload_incomplete h
            simp only [List.length_take] at hle
            simp only [List.length_append] at hlen
            omega

/-! ## Encoding and decoding -/

/-- The varints of a frame can hold what it says, and none of its settings is forbidden. -/
def Fits : Frame → Prop
  | .data len => len < 2 ^ 62
  | .headers encoded => encoded.length < 2 ^ 62
  | .cancelPush id => id < 2 ^ 62
  | .settings s =>
      ∀ entry ∈ s.entries,
        entry.1 < 2 ^ 62 ∧ entry.2 < 2 ^ 62 ∧ SettingId.isForbidden entry.1 = false
  | .pushPromise id encoded => id < 2 ^ 62 ∧ VarInt.size id + encoded.length < 2 ^ 62
  | .goaway id => id < 2 ^ 62
  | .maxPushId id => id < 2 ^ 62
  | .webTransportStream id => id < 2 ^ 62

/-- What a peer takes a frame for: settings that it does not know are dropped. -/
def received : Frame → Frame
  | .settings s => .settings s.known
  | f => f

/-- What follows a frame on the wire: the block of a PUSH_PROMISE frame is sent by `encode`,
and once more as the payload. -/
def again : Frame → List UInt8
  | .pushPromise _ encoded => encoded
  | _ => []

namespace Written

def Fits : Written → Prop
  | .frame f => f.Fits
  | .grease n => n < FrameType.greaseBound

/-- What is read of it. -/
def read : Written → Except FrameError Frame
  | .frame f => .ok f.received
  | .grease n => .error (.unknownFrame (FrameType.grease n))

def again : Written → List UInt8
  | .frame f => f.again
  | .grease _ => []

end Written

/-- The settings of a `Config` fit, the grease included. -/
theorem fits_toWire {c : Config} (hfits : c.settings.Fits) {n : Nat}
    (hn : n < SettingId.greaseBound) {s : Settings} (hs : c.toWire n = .ok s) :
    Fits (.settings s) := by
  obtain ⟨s₁, hs₁, hentries⟩ := Config.toWire_ok c n
  obtain rfl : s₁ = s := by simpa [hs₁] using hs
  intro entry hentry
  rw [hentries] at hentry
  obtain ⟨hid, hvalue⟩ := Config.entries_lt hfits hn entry hentry
  exact ⟨hid, hvalue, Config.entries_not_forbidden c n entry hentry⟩

/-- A frame whose payload is complete. -/
theorem decode_header {ty len : Nat} (hty : ty < 2 ^ 62) (hlen : len < 2 ^ 62)
    (hwt : ty ≠ FrameType.webtransportBiStream) (hdata : ty ≠ FrameType.data)
    {payload : List UInt8} (hpayload : payload.length = len) (rest : List UInt8) :
    decode (VarInt.encode ty ++ VarInt.encode len ++ payload ++ rest)
      = decodePayload ty payload rest := by
  have h₁ := VarInt.decode_append (VarInt.isVarint_encode hty)
    (VarInt.encode len ++ (payload ++ rest))
  have h₂ := VarInt.decode_append (VarInt.isVarint_encode hlen) (payload ++ rest)
  simp only [List.append_assoc, decode, h₁, h₂]
  rw [if_neg hwt, if_neg hdata, if_neg (by simp; omega), ← hpayload, List.take_left,
    List.drop_left]

theorem size_lt (x : Nat) : VarInt.size x < 2 ^ 62 :=
  Nat.lt_of_le_of_lt (VarInt.size_le x) (by decide)

theorem decodeId_encode (frame : Nat → Frame) {id : Nat} (hid : id < 2 ^ 62)
    (rest : List UInt8) : decodeId frame (VarInt.encode id) rest = (.ok (frame id), rest) := by
  have h := VarInt.decode_append (VarInt.isVarint_encode hid) []
  rw [List.append_nil] at h
  simp only [decodeId, h, List.nil_append]

/-- The entries of a list of settings take less than a varint can say. -/
theorem settings_len_lt (s : Settings) : s.len < 2 ^ 62 := by
  have hsum (entries : List (Nat × Nat)) :
      (entries.map fun e => VarInt.size e.1 + VarInt.size e.2).sum ≤ 16 * entries.length := by
    induction entries with
    | nil => exact Nat.le_refl _
    | cons entry entries ih =>
        have h₁ := VarInt.size_le entry.1
        have h₂ := VarInt.size_le entry.2
        simp only [List.map_cons, List.sum_cons, List.length_cons]
        omega
  have hle := hsum s.entries
  have hlen := s.length_le
  have heq : s.len = (s.entries.map fun e => VarInt.size e.1 + VarInt.size e.2).sum := rfl
  simp only [settingsLen] at hlen
  omega

/-- No type that is known is grease. -/
theorem decodePayload_grease (n : Nat) (payload rest : List UInt8) :
    decodePayload (FrameType.grease n) payload rest
      = (.error (.unknownFrame (FrameType.grease n)), rest) := by
  have hne (ty : Nat) (hty : ty < 0x21) : FrameType.grease n ≠ ty := by
    simp only [FrameType.grease]
    omega
  rw [decodePayload, if_neg (hne _ (by decide)), if_neg (hne _ (by decide)),
    if_neg (hne _ (by decide)), if_neg (hne _ (by decide)), if_neg (hne _ (by decide)),
    if_neg (hne _ (by decide)), if_neg]
  rintro (h | h | h | h) <;> exact hne _ (by decide) h

/-- **A frame that says its length**: its type and its payload, and what is read of them. -/
structure Framed (x : Written) (ty : Nat) (payload : List UInt8) : Prop where
  type_lt : ty < 2 ^ 62
  not_webtransport : ty ≠ FrameType.webtransportBiStream
  not_data : ty ≠ FrameType.data
  length_lt : payload.length < 2 ^ 62
  wire : x.wire = VarInt.encode ty ++ VarInt.encode payload.length ++ payload ++ x.again
  read : ∀ rest, decodePayload ty payload rest = (x.read, rest)

/-- A frame that is one identifier. -/
theorem framed_encodeId {f : Frame} {ty id : Nat} (hty : ty < 2 ^ 62)
    (hwt : ty ≠ FrameType.webtransportBiStream) (hdata : ty ≠ FrameType.data)
    (hwire : f.wire = encodeId ty id) (hagain : f.again = [])
    (hread : ∀ rest, decodePayload ty (VarInt.encode id) rest = (.ok f.received, rest)) :
    Framed (.frame f) ty (VarInt.encode id) where
  type_lt := hty
  not_webtransport := hwt
  not_data := hdata
  length_lt := by
    rw [VarInt.length_encode]
    exact size_lt id
  wire := by
    simp only [Written.wire, Written.again, hwire, hagain, encodeId, VarInt.length_encode,
      List.append_nil]
  read := hread

/-- Every frame says its length, but a DATA frame, whose payload is read later, and the header
of a WebTransport stream. -/
theorem framed_of_fits {x : Written} (hx : x.Fits) :
    (∃ len, x = .frame (.data len)) ∨ (∃ id, x = .frame (.webTransportStream id))
      ∨ ∃ ty payload, Framed x ty payload := by
  cases x with
  | grease n =>
      have hn : n < FrameType.greaseBound := hx
      simp only [FrameType.greaseBound] at hn
      refine .inr (.inr ⟨FrameType.grease n, [0x67, 0x72, 0x65, 0x61, 0x73, 0x65], ?_⟩)
      refine ⟨?_, ?_, ?_, by decide, ?_, ?_⟩
      · simp only [FrameType.grease]
        omega
      · simp only [FrameType.grease, FrameType.webtransportBiStream]
        omega
      · simp only [FrameType.grease, FrameType.data]
        omega
      · simp only [Written.wire, Written.again, List.append_nil]
        rfl
      · exact decodePayload_grease n _
  | frame f =>
      cases f with
      | data len => exact .inl ⟨len, rfl⟩
      | webTransportStream id => exact .inr (.inl ⟨id, rfl⟩)
      | headers encoded =>
          refine .inr (.inr ⟨FrameType.headers, encoded, ?_⟩)
          exact ⟨by decide, by decide, by decide, hx, (List.append_nil _).symm, fun _ => rfl⟩
      | cancelPush id =>
          refine .inr (.inr ⟨FrameType.cancelPush, VarInt.encode id, ?_⟩)
          exact framed_encodeId (by decide) (by decide) (by decide) (List.append_nil _) rfl
            (decodeId_encode .cancelPush hx)
      | settings s =>
          refine .inr (.inr ⟨FrameType.settings, s.entries.flatMap Settings.encodeEntry, ?_⟩)
          have hlen := settings_len_lt s
          have hdec := @Settings.decode_entries s (fun e he => ⟨(hx e he).1, (hx e he).2.1⟩)
            (fun e he => (hx e he).2.2)
          rw [Settings.len_eq] at hlen
          refine ⟨by decide, by decide, by decide, hlen, ?_, ?_⟩
          · simp only [Written.wire, Written.again, Frame.wire, encode, payload, again,
              Settings.encode, Settings.len_eq, List.append_nil]
            rfl
          · intro rest
            simp [decodePayload, hdec, FrameType.settings, FrameType.headers, Written.read,
              received]
      | pushPromise id encoded =>
          refine .inr (.inr ⟨FrameType.pushPromise, VarInt.encode id ++ encoded, ?_⟩)
          have hlen : (VarInt.encode id ++ encoded).length = VarInt.size id + encoded.length := by
            rw [List.length_append, VarInt.length_encode]
          refine ⟨by decide, by decide, by decide, hlen ▸ hx.2, ?_, ?_⟩
          · simp only [Written.wire, Written.again, Frame.wire, encode, payload, again, hlen,
              List.append_assoc]
          · intro rest
            have hdec := VarInt.decode_append (VarInt.isVarint_encode hx.1) encoded
            simp [decodePayload, hdec, FrameType.pushPromise, FrameType.headers,
              FrameType.settings, FrameType.cancelPush, Written.read, received]
      | goaway id =>
          refine .inr (.inr ⟨FrameType.goaway, VarInt.encode id, ?_⟩)
          exact framed_encodeId (by decide) (by decide) (by decide) (List.append_nil _) rfl
            (decodeId_encode .goaway hx)
      | maxPushId id =>
          refine .inr (.inr ⟨FrameType.maxPushId, VarInt.encode id, ?_⟩)
          exact framed_encodeId (by decide) (by decide) (by decide) (List.append_nil _) rfl
            (decodeId_encode .maxPushId hx)

/-- **The round trip**, whatever follows. -/
theorem decode_wire {x : Written} (hx : x.Fits) (rest : List UInt8) :
    decode (x.wire ++ rest) = (x.read, x.again ++ rest) := by
  rcases framed_of_fits hx with ⟨len, rfl⟩ | ⟨id, rfl⟩ | ⟨ty, payload, h⟩
  · have h₁ := VarInt.decode_append (VarInt.isVarint_encode (x := FrameType.data) (by decide))
      (VarInt.encode len ++ rest)
    have h₂ := VarInt.decode_append (VarInt.isVarint_encode hx) rest
    simp only [Written.wire, wire, encode, payload, List.append_nil, List.append_assoc, decode,
      h₁, h₂]
    rfl
  · have h₁ := VarInt.decode_append
      (VarInt.isVarint_encode (x := FrameType.webtransportBiStream) (by decide))
      (VarInt.encode id ++ rest)
    have h₂ := VarInt.decode_append (VarInt.isVarint_encode hx) rest
    simp only [Written.wire, wire, encode, payload, List.append_nil, List.append_assoc, decode,
      h₁, h₂]
    rfl
  · rw [h.wire, List.append_assoc,
      decode_header h.type_lt h.length_lt h.not_webtransport h.not_data rfl, h.read]

/-! ## A frame that is cut -/

/-- The bytes of a header that is cut. -/
theorem decode_cut_header {ty len cut : Nat} (hty : ty < 2 ^ 62) (hlen : len < 2 ^ 62)
    (hcut : cut < (VarInt.encode ty ++ VarInt.encode len).length) :
    ∃ min rest, decode ((VarInt.encode ty ++ VarInt.encode len).take cut)
        = (.error (.incomplete min), rest)
      ∧ min ≤ cut + 1 := by
  have hv₁ := VarInt.isVarint_encode hty
  have hv₂ := VarInt.isVarint_encode hlen
  have htake : ((VarInt.encode ty ++ VarInt.encode len).take cut).length = cut := by
    rw [List.length_take]
    omega
  by_cases hin : cut < (VarInt.encode ty).length
  · -- in the type
    have heq : (VarInt.encode ty ++ VarInt.encode len).take cut = (VarInt.encode ty).take cut :=
      List.take_append_of_le_length (Nat.le_of_lt hin)
    obtain ⟨err, herr⟩ := VarInt.decode_cut hv₁ (List.take_append_drop cut _).symm
      (by
        intro hnil
        have := congrArg List.length hnil
        simp only [List.length_drop, List.length_nil] at this
        omega)
    rw [heq] at htake
    refine ⟨cut + 1, (VarInt.encode ty).take cut, ?_, Nat.le_refl _⟩
    simp only [heq, decode, herr, htake]
  · -- in the length, or in the identifier of a WebTransport stream
    obtain ⟨k, rfl⟩ : ∃ k, cut = (VarInt.encode ty).length + k :=
      ⟨cut - (VarInt.encode ty).length, by omega⟩
    have heq : (VarInt.encode ty ++ VarInt.encode len).take ((VarInt.encode ty).length + k)
        = VarInt.encode ty ++ (VarInt.encode len).take k := List.take_length_add_append k
    obtain ⟨err, herr⟩ := VarInt.decode_cut hv₂ (List.take_append_drop k _).symm
      (by
        intro hnil
        have := congrArg List.length hnil
        simp only [List.length_append] at hcut
        simp only [List.length_drop, List.length_nil] at this
        omega)
    rw [heq] at htake
    by_cases hwt : ty = FrameType.webtransportBiStream
    · have hn := VarInt.decode_error_le herr
      have hpos := hv₁.length_pos
      refine ⟨err.n, (VarInt.encode len).take k, ?_, ?_⟩
      · simp only [heq, decode, VarInt.decode_append hv₁, herr, if_pos hwt]
      · simp only [List.length_append] at htake
        omega
    · refine ⟨(VarInt.encode ty).length + k + 1, (VarInt.encode len).take k, ?_, Nat.le_refl _⟩
      simp only [heq, decode, VarInt.decode_append hv₁, herr, htake, if_neg hwt]

/-- The bytes of a frame that says its length and is cut. -/
theorem decode_cut_payload {ty cut : Nat} {payload : List UInt8} (hty : ty < 2 ^ 62)
    (hlen : payload.length < 2 ^ 62) (hwt : ty ≠ FrameType.webtransportBiStream)
    (hdata : ty ≠ FrameType.data)
    (hcut : cut < (VarInt.encode ty ++ VarInt.encode payload.length ++ payload).length) :
    ∃ min rest, decode ((VarInt.encode ty ++ VarInt.encode payload.length ++ payload).take cut)
        = (.error (.incomplete min), rest)
      ∧ min ≤ (VarInt.encode ty ++ VarInt.encode payload.length ++ payload).length := by
  have hv₁ := VarInt.isVarint_encode hty
  have hv₂ := VarInt.isVarint_encode hlen
  have hpos₁ := hv₁.length_pos
  have hpos₂ := hv₂.length_pos
  generalize hhead : VarInt.encode ty ++ VarInt.encode payload.length = head at hcut ⊢
  have hheadlen : 2 ≤ head.length := by
    rw [← hhead, List.length_append]
    omega
  simp only [List.length_append] at hcut ⊢
  by_cases hin : cut < head.length
  · obtain ⟨min, rest, hdec, hmin⟩ := decode_cut_header hty hlen (by rw [hhead]; exact hin)
    rw [hhead] at hdec
    rw [List.take_append_of_le_length (Nat.le_of_lt hin)]
    exact ⟨min, rest, hdec, by omega⟩
  · obtain ⟨k, rfl⟩ : ∃ k, cut = head.length + k := ⟨cut - head.length, by omega⟩
    have h₁ := VarInt.decode_append hv₁ (VarInt.encode payload.length ++ payload.take k)
    have h₂ := VarInt.decode_append hv₂ (payload.take k)
    refine ⟨2 + payload.length, payload.take k, ?_, by omega⟩
    rw [List.take_length_add_append, ← hhead, List.append_assoc]
    simp only [decode, h₁, h₂]
    rw [if_neg hwt, if_neg hdata, if_pos (by simp; omega)]

/-- **A frame that is cut** says so wherever the cut is, and asks for no more bytes than the
frame has. -/
theorem decode_cut {x : Written} (hx : x.Fits) {cut : Nat}
    (hcut : cut + x.again.length < x.wire.length) :
    ∃ min rest, decode (x.wire.take cut) = (.error (.incomplete min), rest)
      ∧ min + x.again.length ≤ x.wire.length := by
  rcases framed_of_fits hx with ⟨len, rfl⟩ | ⟨id, rfl⟩ | ⟨ty, payload, h⟩
  · simp only [Written.wire, Written.again, wire, encode, payload, again, List.append_nil,
      List.length_nil, Nat.add_zero] at hcut ⊢
    obtain ⟨min, rest, hdec, hmin⟩ :=
      decode_cut_header (by decide : FrameType.data < 2 ^ 62) hx hcut
    exact ⟨min, rest, hdec, by omega⟩
  · simp only [Written.wire, Written.again, wire, encode, payload, again, List.append_nil,
      List.length_nil, Nat.add_zero] at hcut ⊢
    obtain ⟨min, rest, hdec, hmin⟩ :=
      decode_cut_header (by decide : FrameType.webtransportBiStream < 2 ^ 62) hx hcut
    exact ⟨min, rest, hdec, by omega⟩
  · have hlen := congrArg List.length h.wire
    rw [List.length_append] at hlen
    have hin : cut < (VarInt.encode ty ++ VarInt.encode payload.length ++ payload).length := by
      omega
    obtain ⟨min, rest, hdec, hmin⟩ :=
      decode_cut_payload h.type_lt h.length_lt h.not_webtransport h.not_data hin
    rw [h.wire, List.take_append_of_le_length (Nat.le_of_lt hin)]
    exact ⟨min, rest, hdec, by rw [← h.wire]; omega⟩

end Frame

/-- **The start of a control stream**: whatever the `Config` and the grease, its header fits
into the buffer that it is encoded to, and the peer reads off it the stream type, a SETTINGS
frame, and the settings of the `Config`. -/
theorem controlHeader_decode {c : Config} (hfits : c.settings.Fits) {n : Nat}
    (hn : n < SettingId.greaseBound) (rest : List UInt8) :
    ∃ s s', c.toWire n = .ok s ∧ (controlHeader s).length ≤ writeBufEncodeSize
      ∧ VarInt.decode (controlHeader s ++ rest) = .ok (0x00, s.encode ++ rest)
      ∧ Frame.decode (s.encode ++ rest) = (.ok (.settings s'), rest)
      ∧ Config.Settings.ofWire s' = c.settings := by
  obtain ⟨s, hs, -⟩ := Config.toWire_ok c n
  obtain ⟨s', hdec, hof⟩ := Config.decode_toWire hfits hn hs
  refine ⟨s, s', hs, controlHeader_fits hs, ?_, ?_, hof⟩
  · have h := VarInt.decode_append (VarInt.isVarint_encode (x := 0x00) (by decide))
      (s.encode ++ rest)
    simpa [controlHeader] using h
  · have h := @Frame.decode_header Settings.frameType _ (by decide)
      (Frame.settings_len_lt s) (by decide) (by decide) _ (Settings.len_eq s).symm rest
    rw [Settings.encode, h]
    simp [Frame.decodePayload, hdec, Settings.frameType, FrameType.headers, FrameType.settings]

/-- The program's client. -/
theorem controlHeader_decode_client :
    ∃ s s', Config.client.toWire 7 = .ok s ∧ (controlHeader s).length ≤ writeBufEncodeSize
      ∧ VarInt.decode (controlHeader s ++ []) = .ok (0x00, s.encode ++ [])
      ∧ Frame.decode (s.encode ++ []) = (.ok (.settings s'), [])
      ∧ Config.Settings.ofWire s' = Config.client.settings :=
  controlHeader_decode (by decide) (by decide) []

end WarpProxy.H3
