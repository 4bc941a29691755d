/-
# `WarpProxy.Tunnel.Datagram` — IP packets in QUIC datagrams (`H3Io`)

`maxIpPacket`, `sendIp` and `recvIp` of the HTTP/3 path.  A QUIC connection is
what these three use of it: the datagrams delivered and not yet read, those it was
handed and has taken, the close reason once it is closed, the size limit, and the
answer to each datagram handed over (`QuicConn`).

The format is stated on its own, `IsFlowDatagram q dg pkt`: a varint of the
quarter stream id `q`, a varint of the context id 0, then the packet, the varints
in any size class.

    calls to recv_ip return the packets of the flow, in delivery order   (`recvCalls_eq`)
    a framed packet comes back on its own flow and on no other            (`frame_payload`)
    a framed packet is two varints longer                                 (`frame_length`)
    the connection is handed the framed packet, and nothing else          (`sendIp_eq`)
-/
import Mathlib.Data.List.Basic
import WarpProxy.Types
import WarpProxy.Tunnel.Varint

namespace WarpProxy

open QuicVarint

/-- CONNECT-IP context id for a full (uncompressed) IP packet. -/
def contextIdFullPacket : UInt64 := 0

/-- What the datagram path uses of a `quinn::Connection`. -/
structure QuicConn where
  maxDatagramSize : Option Nat
  /-- delivered and not yet read, in delivery order -/
  delivered : List (List UInt8)
  /-- handed over and taken, in order -/
  outgoing : List (List UInt8)
  closeReason : Option String
  /-- what `send_datagram` answers, an error as it displays -/
  sendDatagram : List UInt8 → Except String Unit

/-- `send_datagram`: a datagram it does not refuse is taken. -/
def QuicConn.hand (quic : QuicConn) (dg : List UInt8) : Except String Unit × QuicConn :=
  match quic.sendDatagram dg with
  | .ok () => (.ok (), { quic with outgoing := quic.outgoing ++ [dg] })
  | .error e => (.error e, quic)

structure H3Io where
  quic : QuicConn
  quarterStreamId : UInt64

/-- The largest IP packet that fits in one QUIC datagram; `-` is `saturating_sub`. -/
def H3Io.maxIpPacket (io : H3Io) : Nat :=
  let overhead := varintLen io.quarterStreamId + varintLen 0
  match io.quic.maxDatagramSize with
  | some m => m - overhead
  | none => 0

/-- The buffer `send_ip` builds. -/
def H3Io.frame (io : H3Io) (packet : List UInt8) : List UInt8 :=
  let buf := encodeVarint [] io.quarterStreamId
  let buf := encodeVarint buf contextIdFullPacket
  buf ++ packet

def H3Io.sendIp (io : H3Io) (packet : List UInt8) : Except Error Unit × H3Io :=
  let sent := io.quic.hand (io.frame packet)
  let io := { io with quic := sent.2 }
  match sent.1 with
  | .ok () => (.ok (), io)
  | .error e =>
      let reason := match io.quic.closeReason with
        | some r => " (close reason: " ++ r ++ ")"
        | none => ""
      (.error (.tunnel ("send datagram: " ++ e ++ reason)), io)

/-- How a call of `recv_ip` stands once it has read what was delivered. -/
inductive RecvIp where
  | ready (result : Except Error (List UInt8))
  | pending

/-- The loop of `recv_ip`: skip datagrams that are truncated, of another flow or with
another context id.  The datagrams left unread are returned as well. -/
def H3Io.recvIpLoop (io : H3Io) : List (List UInt8) → RecvIp × List (List UInt8)
  | [] =>
      match io.quic.closeReason with
      | some e => (.ready (.error (.tunnel ("read datagram: " ++ e))), [])
      | none => (.pending, [])
  | dg :: queue =>
      match decodeVarint dg with
      | (none, _) => io.recvIpLoop queue
      | (some qsid, rest) =>
          match decodeVarint rest with
          | (none, _) => io.recvIpLoop queue
          | (some ctx, rest) =>
              if qsid ≠ io.quarterStreamId ∨ ctx ≠ contextIdFullPacket then io.recvIpLoop queue
              else (.ready (.ok rest), queue)

def H3Io.recvIp (io : H3Io) : RecvIp × H3Io :=
  let r := io.recvIpLoop io.quic.delivered
  (r.1, { io with quic := { io.quic with delivered := r.2 } })

/-- The packets `n` successive calls of `recv_ip` return. -/
def H3Io.recvCalls : Nat → H3Io → List (List UInt8)
  | 0, _ => []
  | n + 1, io =>
      match io.recvIp with
      | (.ready (.ok pkt), io) => pkt :: io.recvCalls n
      | (_, io) => io.recvCalls n

/-! ## The datagram format -/

/-- `dg` carries the packet `pkt` on flow `q`. -/
def IsFlowDatagram (q : UInt64) (dg pkt : List UInt8) : Prop :=
  ∃ a b, IsVarint a q.toNat ∧ IsVarint b contextIdFullPacket.toNat ∧ dg = a ++ (b ++ pkt)

/-- The packet a datagram carries on flow `q`, if it does. -/
def flowPayload (q : UInt64) (dg : List UInt8) : Option (List UInt8) :=
  match decodeVarint dg with
  | (none, _) => none
  | (some qsid, rest) =>
      match decodeVarint rest with
      | (none, _) => none
      | (some ctx, rest) => if qsid ≠ q ∨ ctx ≠ contextIdFullPacket then none else some rest

theorem flowPayload_eq_some {q : UInt64} {dg pkt : List UInt8} :
    flowPayload q dg = some pkt ↔ IsFlowDatagram q dg pkt := by
  constructor
  · intro h
    rcases decodeVarint_cases dg with hd | ⟨a, rest, qsid, rfl, ha, hd⟩
    · simp only [flowPayload, hd] at h
      cases h
    · rcases decodeVarint_cases rest with hd' | ⟨b, pkt', ctx, rfl, hb, hd'⟩
      · simp only [flowPayload, hd, hd'] at h
        cases h
      · simp only [flowPayload, hd, hd'] at h
        split_ifs at h with hskip
        obtain ⟨hq, hctx⟩ := not_or.mp hskip
        cases h
        exact ⟨a, b, not_not.mp hq ▸ ha, not_not.mp hctx ▸ hb, rfl⟩
  · rintro ⟨a, b, ha, hb, rfl⟩
    obtain ⟨qsid, hq, hd⟩ := decodeVarint_append ha (b ++ pkt)
    obtain ⟨ctx, hctx, hd'⟩ := decodeVarint_append hb pkt
    have hkeep : ¬ (qsid ≠ q ∨ ctx ≠ contextIdFullPacket) := by
      rw [UInt64.toNat_inj.mp hq, UInt64.toNat_inj.mp hctx]
      simp
    simp only [flowPayload, hd, hd', if_neg hkeep]

/-! ## Receiving -/

/-- The loop skips a datagram that carries nothing on the flow. -/
theorem recvIpLoop_skip (io : H3Io) {dg : List UInt8} (queue : List (List UInt8))
    (h : flowPayload io.quarterStreamId dg = none) :
    io.recvIpLoop (dg :: queue) = io.recvIpLoop queue := by
  simp only [flowPayload] at h
  rw [H3Io.recvIpLoop]
  split
  · rfl
  · next hd =>
      simp only [hd] at h
      split
      · rfl
      · next hd' =>
          simp only [hd'] at h
          split_ifs at h with hskip
          rw [if_pos hskip]

/-- The loop returns the packet of the first datagram that carries one. -/
theorem recvIpLoop_take (io : H3Io) {dg pkt : List UInt8} (queue : List (List UInt8))
    (h : flowPayload io.quarterStreamId dg = some pkt) :
    io.recvIpLoop (dg :: queue) = (.ready (.ok pkt), queue) := by
  simp only [flowPayload] at h
  rw [H3Io.recvIpLoop]
  split
  · next hd => simp only [hd] at h; cases h
  · next hd =>
      simp only [hd] at h
      split
      · next hd' => simp only [hd'] at h; cases h
      · next hd' =>
          simp only [hd'] at h
          split_ifs at h with hskip
          cases h
          rw [if_neg hskip]

/-- One call: the first packet of the flow, with the datagrams after it left unread, or
everything read and no packet. -/
theorem recvIpLoop_cases (io : H3Io) (queue : List (List UInt8)) :
    (∃ pkt rest, io.recvIpLoop queue = (.ready (.ok pkt), rest)
      ∧ queue.filterMap (flowPayload io.quarterStreamId)
          = pkt :: rest.filterMap (flowPayload io.quarterStreamId)) ∨
    (∃ r, io.recvIpLoop queue = (r, []) ∧ (∀ pkt, r ≠ .ready (.ok pkt))
      ∧ queue.filterMap (flowPayload io.quarterStreamId) = []) := by
  induction queue with
  | nil =>
      refine Or.inr ?_
      cases hc : io.quic.closeReason with
      | none => exact ⟨.pending, by simp [H3Io.recvIpLoop, hc], by simp, rfl⟩
      | some e =>
          exact ⟨_, by simp only [H3Io.recvIpLoop, hc]; rfl, by simp, rfl⟩
  | cons dg queue ih =>
      cases h : flowPayload io.quarterStreamId dg with
      | none =>
          rw [recvIpLoop_skip io queue h, List.filterMap_cons_none h]
          exact ih
      | some pkt =>
          refine Or.inl ⟨pkt, queue, recvIpLoop_take io queue h, ?_⟩
          rw [List.filterMap_cons_some h]

/-- Successive calls return the packets of the flow, in delivery order. -/
theorem recvCalls_eq (n : Nat) (io : H3Io) : io.recvCalls n
    = (io.quic.delivered.filterMap (flowPayload io.quarterStreamId)).take n := by
  induction n generalizing io with
  | zero => rw [H3Io.recvCalls, List.take_zero]
  | succ n ih =>
      rcases recvIpLoop_cases io io.quic.delivered with
        ⟨pkt, rest, hr, hf⟩ | ⟨r, hr, hno, hf⟩
      · simp only [H3Io.recvCalls, H3Io.recvIp, hr, hf, List.take_succ_cons]
        rw [ih]
      · have hstep : io.recvCalls (n + 1)
            = H3Io.recvCalls n { io with quic := { io.quic with delivered := [] } } := by
          simp only [H3Io.recvCalls, H3Io.recvIp, hr]
        rw [hstep, ih, hf, List.take_nil, List.filterMap_nil, List.take_nil]

/-! ## Sending -/

theorem frame_isFlowDatagram (io : H3Io) (hq : io.quarterStreamId.toNat < 2 ^ 62)
    (pkt : List UInt8) : IsFlowDatagram io.quarterStreamId (io.frame pkt) pkt := by
  obtain ⟨a, ha, hav, -⟩ := encodeVarint_spec [] io.quarterStreamId hq
  obtain ⟨b, hb, hbv, -⟩ := encodeVarint_spec (encodeVarint [] io.quarterStreamId)
    contextIdFullPacket (by decide)
  refine ⟨a, b, hav, hbv, ?_⟩
  simp only [H3Io.frame, hb]
  rw [ha, List.nil_append, List.append_assoc]

/-- A framed packet is the payload on its own flow and nothing on any other. -/
theorem frame_payload (io : H3Io) (hq : io.quarterStreamId.toNat < 2 ^ 62)
    (pkt : List UInt8) (q : UInt64) :
    flowPayload q (io.frame pkt) = if q = io.quarterStreamId then some pkt else none := by
  have hframe := frame_isFlowDatagram io hq pkt
  split_ifs with h
  · rw [h]
    exact flowPayload_eq_some.mpr hframe
  · cases hp : flowPayload q (io.frame pkt) with
    | none => rfl
    | some pkt' =>
        -- two readings of one datagram agree on the first varint
        obtain ⟨a, b, ha, -, hab⟩ := flowPayload_eq_some.mp hp
        obtain ⟨a', b', ha', -, hab'⟩ := hframe
        obtain ⟨-, hv, -⟩ := ha.append_inj ha' (hab ▸ hab')
        exact absurd (UInt64.toNat_inj.mp hv) h

theorem frame_length (io : H3Io) (hq : io.quarterStreamId.toNat < 2 ^ 62)
    (pkt : List UInt8) :
    (io.frame pkt).length
      = varintLen io.quarterStreamId + varintLen contextIdFullPacket + pkt.length := by
  obtain ⟨a, ha, -, hla⟩ := encodeVarint_spec [] io.quarterStreamId hq
  obtain ⟨b, hb, -, hlb⟩ := encodeVarint_spec (encodeVarint [] io.quarterStreamId)
    contextIdFullPacket (by decide)
  simp only [H3Io.frame, hb]
  rw [ha, List.nil_append, List.length_append, List.length_append, hla, hlb]

/-- The connection has taken the datagram `dg` as well. -/
def H3Io.handed (io : H3Io) (dg : List UInt8) : H3Io :=
  { io with quic := { io.quic with outgoing := io.quic.outgoing ++ [dg] } }

/-- `send_ip` hands over the framed packet; if it is refused nothing changes. -/
theorem sendIp_eq (io : H3Io) (pkt : List UInt8) :
    (io.quic.sendDatagram (io.frame pkt) = .ok () →
      io.sendIp pkt = (.ok (), io.handed (io.frame pkt))) ∧
    ∀ e, io.quic.sendDatagram (io.frame pkt) = .error e →
      ∃ error, io.sendIp pkt = (.error error, io) := by
  constructor
  · intro h
    simp only [H3Io.sendIp, QuicConn.hand, h, H3Io.handed]
  · intro e h
    simp only [H3Io.sendIp, QuicConn.hand, h]
    exact ⟨_, rfl⟩

/-- What a receiver makes of a framed packet: the packet on the flow it was framed for, nothing
on another. -/
theorem recvIpLoop_frame (io rx : H3Io) (hq : io.quarterStreamId.toNat < 2 ^ 62)
    (pkt : List UInt8) (queue : List (List UInt8)) :
    rx.recvIpLoop (io.frame pkt :: queue) =
      if rx.quarterStreamId = io.quarterStreamId then (.ready (.ok pkt), queue)
      else rx.recvIpLoop queue := by
  have hpayload := frame_payload io hq pkt rx.quarterStreamId
  split_ifs with h
  · rw [if_pos h] at hpayload
    exact recvIpLoop_take rx queue hpayload
  · rw [if_neg h] at hpayload
    exact recvIpLoop_skip rx queue hpayload

theorem frame_fits (io : H3Io) (hq : io.quarterStreamId.toNat < 2 ^ 62) {pkt : List UInt8}
    (hne : pkt ≠ []) (hle : pkt.length ≤ io.maxIpPacket) :
    ∃ m, io.quic.maxDatagramSize = some m ∧ (io.frame pkt).length ≤ m := by
  have hpos := List.length_pos_iff.mpr hne
  rw [frame_length io hq]
  simp only [H3Io.maxIpPacket] at hle
  cases hm : io.quic.maxDatagramSize with
  | none => simp only [hm] at hle; omega
  | some m =>
      simp only [hm] at hle
      exact ⟨m, rfl, by simp only [contextIdFullPacket]; omega⟩

/-- **HTTP/3 datagram flow.**  Calls of `recv_ip` return exactly the packets of the
delivered datagrams that carry one on the flow, in delivery order.  `send_ip` hands the connection
one datagram, succeeds exactly when that is taken, and otherwise leaves the connection as it was;
a receiver returns the datagram as the packet on the sender's flow and passes over it on any
other.  A nonempty packet within `max_ip_packet` is framed within the datagram size, so it is
sent if the connection takes all such datagrams. -/
theorem datagram_flow (io : H3Io) (hq : io.quarterStreamId.toNat < 2 ^ 62) :
    (∀ (q : UInt64) (dg pkt : List UInt8),
      flowPayload q dg = some pkt ↔ IsFlowDatagram q dg pkt) ∧
    (∀ n, io.recvCalls n
      = (io.quic.delivered.filterMap (flowPayload io.quarterStreamId)).take n) ∧
    (∀ pkt : List UInt8,
      (io.quic.sendDatagram (io.frame pkt) = .ok () →
        io.sendIp pkt = (.ok (), io.handed (io.frame pkt))) ∧
      (∀ e, io.quic.sendDatagram (io.frame pkt) = .error e →
        ∃ error, io.sendIp pkt = (.error error, io)) ∧
      (∀ q, flowPayload q (io.frame pkt) =
        if q = io.quarterStreamId then some pkt else none) ∧
      (∀ (rx : H3Io) (queue : List (List UInt8)), rx.recvIpLoop (io.frame pkt :: queue) =
        if rx.quarterStreamId = io.quarterStreamId then (.ready (.ok pkt), queue)
        else rx.recvIpLoop queue) ∧
      (pkt ≠ [] → pkt.length ≤ io.maxIpPacket →
        ∃ m, io.quic.maxDatagramSize = some m ∧ (io.frame pkt).length ≤ m)) ∧
    ((∀ m dg, io.quic.maxDatagramSize = some m → dg.length ≤ m →
        io.quic.sendDatagram dg = .ok ()) →
      ∀ pkt : List UInt8, pkt ≠ [] → pkt.length ≤ io.maxIpPacket → (io.sendIp pkt).1 = .ok ()) := by
  refine ⟨fun _ _ _ => flowPayload_eq_some, fun n => recvCalls_eq n io, fun pkt => ?_, ?_⟩
  · obtain ⟨htaken, hrefused⟩ := sendIp_eq io pkt
    exact ⟨htaken, hrefused, frame_payload io hq pkt,
      fun rx queue => recvIpLoop_frame io rx hq pkt queue, frame_fits io hq⟩
  · intro htakes pkt hne hle
    obtain ⟨m, hm, hfits⟩ := frame_fits io hq hne hle
    rw [(sendIp_eq io pkt).1 (htakes m _ hm hfits)]

/-- A connection on flow 5 that takes datagrams of up to 8 bytes, and was delivered a truncated
datagram, one of another flow, one with another context id, one with a two-byte flow varint and
an empty packet. -/
def sampleIo : H3Io where
  quic :=
    { maxDatagramSize := some 8
      delivered := [[0x40], [6, 0, 1], [5, 2, 1], [0x40, 5, 0, 7, 8], [5, 0]]
      outgoing := [[5, 0, 9]]
      closeReason := none
      sendDatagram := fun dg => if dg.length ≤ 8 then .ok () else .error "datagram too large" }
  quarterStreamId := 5

/-- The sample receives two packets and sends one of six bytes, which comes back on flow 5, and
any other of at most six. -/
theorem datagram_flow_sample :
    sampleIo.recvCalls 3 = [[7, 8], []] ∧
      sampleIo.sendIp [3, 3, 3, 3, 3, 3] =
        (.ok (), sampleIo.handed [5, 0, 3, 3, 3, 3, 3, 3]) ∧
      flowPayload 6 [5, 0, 3, 3, 3, 3, 3, 3] = none ∧
      sampleIo.recvIpLoop [[5, 0, 3, 3, 3, 3, 3, 3]] =
        (.ready (.ok [3, 3, 3, 3, 3, 3]), []) ∧
      ∀ pkt : List UInt8, pkt ≠ [] → pkt.length ≤ 6 → (sampleIo.sendIp pkt).1 = .ok () := by
  obtain ⟨-, hrecv, hsend, hall⟩ := datagram_flow sampleIo (by decide)
  have hframe : sampleIo.frame [3, 3, 3, 3, 3, 3] = [5, 0, 3, 3, 3, 3, 3, 3] := by decide
  obtain ⟨htaken, -, hpayload, hrx, hfits⟩ := hsend [3, 3, 3, 3, 3, 3]
  obtain ⟨m, hm, hlen⟩ := hfits (by decide) (by decide)
  rw [hframe] at htaken hpayload hrx hlen
  cases hm
  have htakes : ∀ dg, dg.length ≤ 8 → sampleIo.quic.sendDatagram dg = .ok () :=
    fun dg hdg => if_pos hdg
  refine ⟨(hrecv 3).trans (by decide), htaken (htakes _ hlen), hpayload 6, hrx sampleIo [],
    hall fun m dg hm hdg => ?_⟩
  cases hm
  exact htakes dg hdg

end WarpProxy
