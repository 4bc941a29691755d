/-
# `WarpProxy.H2Tunnel.Loops` — the pump tasks of the HTTP/2 transport

`writerLoop` frames queued packets as DATAGRAM capsules, `readerLoop`
reassembles capsules from DATA chunks.  What they meet outside the source is
passed in: the flow-control answers of the send stream (`Grant`), the events of
the receive stream (`DataEvent`), and whether the packet receiver is still there
(`PacketSender.rxAlive`).

The inner loop `drainCapsules` mutates the buffer it parses.  It is well-founded
on the buffer's length, because a parsed capsule takes at least one byte: that is
the proof that it ends on every buffer.

    one chunk at a time = all at once                       (`readerLoop_flatten`)
    forwarded = type-0 values in stream order, leftover      (`reader_reassembles`)
    writer, any chunking, reader = the packets               (`transport_lossless`)
-/
import WarpProxy.H2Tunnel.Capsule

namespace WarpProxy

/-! ## The reader -/

/-- The packet channel as its sender sees it: what was sent, and whether the receiver is
still there for the `n`-th send. -/
structure PacketSender where
  rxAlive : Nat → Bool
  sent : List (List UInt8)

/-- `in_tx.send(..)`: fails once the receiver is gone. -/
def PacketSender.send (tx : PacketSender) (pkt : List UInt8) : Option PacketSender :=
  if tx.rxAlive tx.sent.length then some { tx with sent := tx.sent ++ [pkt] } else none

/-- What `recv.data().await` yields before its final `None`. -/
inductive DataEvent where
  | data (chunk : List UInt8)
  | error

/-- A parsed capsule is taken off the buffer, so the buffer gets shorter. -/
theorem drop_total_lt {buf : List UInt8} {ctype : UInt64} {voff total : Nat}
    (h : parseCapsule 64 buf = some (ctype, voff, total)) :
    (buf.drop total).length < buf.length := by
  obtain ⟨bs, rest, c, rfl, hc, -, -, rfl⟩ := parseCapsule_eq_some.mp h
  have := hc.length_pos
  rw [List.drop_left, List.length_append]
  omega

/-- The inner `while let`: forward the DATAGRAM values and drop every complete capsule.
`.error` is the early `return` of a send that fails. -/
def drainCapsules (inTx : PacketSender) (buf : List UInt8) :
    Except PacketSender (PacketSender × List UInt8) :=
  match h : parseCapsule 64 buf with
  | none => .ok (inTx, buf)
  | some (ctype, voff, total) =>
      have _hlt := drop_total_lt h
      if ctype = capsuleDatagram then
        match inTx.send ((buf.take total).drop voff) with
        | none => .error inTx
        | some inTx => drainCapsules inTx (buf.drop total)
      else drainCapsules inTx (buf.drop total)
termination_by buf.length
decreasing_by all_goals exact _hlt

/-- The outer loop, from a buffer; `.ok` when the stream has ended or failed. -/
def readerLoopFrom (inTx : PacketSender) (buf : List UInt8) :
    List DataEvent → Except PacketSender (PacketSender × List UInt8)
  | [] => .ok (inTx, buf)
  | .error :: _ => .ok (inTx, buf)
  | .data chunk :: events =>
      match drainCapsules inTx (buf ++ chunk) with
      | .error inTx => .error inTx
      | .ok (inTx, buf) => readerLoopFrom inTx buf events

def readerLoop (inTx : PacketSender) (events : List DataEvent) :
    Except PacketSender (PacketSender × List UInt8) :=
  readerLoopFrom inTx [] events

/-! ### The inner loop drains the framer -/

/-- The packets among the capsules: the values of type 0. -/
def datagrams (cs : List Capsule) : List (List UInt8) :=
  cs.filterMap fun c => if c.ctype = capsuleDatagram then some c.value else none

@[simp] theorem datagrams_nil : datagrams [] = [] := rfl

@[simp] theorem datagrams_append (cs ds : List Capsule) :
    datagrams (cs ++ ds) = datagrams cs ++ datagrams ds :=
  List.filterMap_append ..

theorem datagrams_cons_packet {c : Capsule} (h : c.ctype = capsuleDatagram)
    (cs : List Capsule) : datagrams (c :: cs) = c.value :: datagrams cs := by
  simp only [datagrams, List.filterMap_cons, if_pos h]

theorem datagrams_cons_other {c : Capsule} (h : c.ctype ≠ capsuleDatagram)
    (cs : List Capsule) : datagrams (c :: cs) = datagrams cs := by
  simp only [datagrams, List.filterMap_cons, if_neg h]

/-- A channel whose receiver stays open. -/
def PacketSender.opened (sent : List (List UInt8)) : PacketSender := ⟨fun _ => true, sent⟩

@[simp] theorem PacketSender.send_opened (sent : List (List UInt8)) (pkt : List UInt8) :
    (PacketSender.opened sent).send pkt = some (.opened (sent ++ [pkt])) := rfl

/-- With an open receiver the inner loop forwards the datagrams of the drained capsules. -/
theorem drainCapsules_opened : ∀ {buf left : List UInt8} {cs : List Capsule},
    CapsuleStream buf cs left → ∀ sent : List (List UInt8),
      drainCapsules (.opened sent) buf = .ok (.opened (sent ++ datagrams cs), left) := by
  intro buf left cs h
  induction h with
  | leftover hnone =>
      intro sent
      rw [drainCapsules]
      split
      · rw [datagrams_nil, List.append_nil]
      · next hp => rw [parseCapsule_eq_none.mpr hnone] at hp; cases hp
  | @capsule bs rest c cs left hc _ ih =>
      intro sent
      rw [drainCapsules]
      split
      · next hp => rw [parseCapsule_of_isCapsule hc rest] at hp; cases hp
      · next hp =>
          rw [parseCapsule_of_isCapsule hc rest] at hp
          cases hp
          by_cases hty : c.ctype = capsuleDatagram
          · simp only [if_pos hty, hc.slice, PacketSender.send_opened, List.drop_left, ih]
            rw [datagrams_cons_packet hty, List.append_assoc, List.singleton_append]
          · simp only [if_neg hty, List.drop_left, ih]
            rw [datagrams_cons_other hty]

/-- The outer loop is the framer's, its capsules turned into packets. -/
theorem readerLoopFrom_opened (chunks : List (List UInt8)) (cs : List Capsule)
    (buf : List UInt8) :
    readerLoopFrom (.opened (datagrams cs)) buf (chunks.map .data)
      = .ok (.opened (datagrams (chunks.foldl capsuleFramer.feed (cs, buf)).1),
          (chunks.foldl capsuleFramer.feed (cs, buf)).2) := by
  induction chunks generalizing cs buf with
  | nil => rfl
  | cons c chunks ih =>
      have hd := drainCapsules_opened (drain_capsuleStream (buf ++ c)) (datagrams cs)
      rw [List.map_cons, readerLoopFrom, hd, ← datagrams_append]
      exact ih _ _

/-- **Reassembly chunk by chunk is parsing the whole stream.** -/
theorem readerLoop_flatten (chunks : List (List UInt8)) :
    readerLoop (.opened []) (chunks.map .data)
      = .ok (.opened (datagrams (capsuleFramer.drain chunks.flatten).1),
          (capsuleFramer.drain chunks.flatten).2) := by
  have h := readerLoopFrom_opened chunks [] []
  rw [capsuleFramer.feedAll_flatten] at h
  exact h

/-- A shorter stream forwards a prefix of the packets. -/
theorem datagrams_drain_prefix {s t : List UInt8} (h : s <+: t) :
    datagrams (capsuleFramer.drain s).1 <+: datagrams (capsuleFramer.drain t).1 := by
  obtain ⟨ext, rfl⟩ := h
  obtain ⟨more, hmore⟩ := capsuleFramer.drain_prefix s ext
  rw [← hmore, datagrams_append]
  exact List.prefix_append _ _

/-- **HTTP/2 reassembly does not depend on framing.**  For every cut of a byte stream into
chunks there is one decomposition of the stream into complete capsules and a leftover that
starts with no complete capsule; the reader forwards the type-0 values in order and keeps
the leftover, as it does when the stream arrives at once, and after every chunk it has
forwarded a prefix. -/
theorem reader_reassembles (chunks : List (List UInt8)) :
    ∃ cs left, CapsuleStream chunks.flatten cs left ∧
      parseCapsule 64 left = none ∧
      readerLoop (.opened []) (chunks.map .data) = .ok (.opened (datagrams cs), left) ∧
      readerLoop (.opened []) [.data chunks.flatten] = .ok (.opened (datagrams cs), left) ∧
      ∀ n, ∃ sofar buf,
        readerLoop (.opened []) ((chunks.take n).map .data) = .ok (.opened sofar, buf) ∧
        sofar <+: datagrams cs := by
  refine ⟨_, _, drain_capsuleStream chunks.flatten, ?_, readerLoop_flatten chunks, ?_, ?_⟩
  · exact parseFront_eq_none.mp (capsuleFramer.parse_drain_snd _)
  · simpa using readerLoop_flatten [chunks.flatten]
  · intro n
    refine ⟨_, _, readerLoop_flatten (chunks.take n), datagrams_drain_prefix ?_⟩
    exact ⟨(chunks.drop n).flatten, by
      rw [← List.flatten_append, List.take_append_drop]⟩

/-! ## The writer -/

/-- What the send stream answers for one capsule: the capacity at hand, the results of the
`poll_capacity` calls (`none` once the stream is closed), and whether `send_data` succeeds. -/
structure Grant where
  capacity : Nat
  polls : List (Option Nat)
  sendOk : Bool

/-- The inner `while send.capacity() < cap.len()`; `false` when the stream is closed, or
when no further capacity is ever granted. -/
def awaitCapacity (need : Nat) : Nat → List (Option Nat) → Bool
  | capacity, polls =>
      if capacity < need then
        match polls with
        | some more :: polls => awaitCapacity need more polls
        | none :: _ => false
        | [] => false
      else true
termination_by _ polls => polls.length

/-- Whether the stream takes a capsule. -/
def Grant.takes (grant : Grant) (cap : List UInt8) : Bool :=
  awaitCapacity cap.length grant.capacity grant.polls && grant.sendOk

/-- `writer_loop` over the packets of the queue, each with its grant: the DATA payloads. -/
def writerLoop : List (List UInt8 × Grant) → List (List UInt8)
  | [] => []
  | (pkt, grant) :: queue =>
      let cap := encodeDatagramCapsule pkt
      if grant.takes cap then cap :: writerLoop queue else []

/-- The connection stays up and the peer opens its window: `need` bytes may be sent at once, or
after a `poll_capacity` that comes before any failure, and `send_data` succeeds. -/
def Grant.Suffices (grant : Grant) (need : Nat) : Prop :=
  (need ≤ grant.capacity ∨ ∃ (before : List Nat) (more : Nat) (after : List (Option Nat)),
    grant.polls = before.map some ++ some more :: after ∧ need ≤ more) ∧ grant.sendOk = true

/-- The loop waits through any capacities that are too small. -/
theorem awaitCapacity_eq_true {need capacity : Nat} {polls : List (Option Nat)} :
    awaitCapacity need capacity polls = true ↔ need ≤ capacity ∨
      ∃ (before : List Nat) (more : Nat) (after : List (Option Nat)),
        polls = before.map some ++ some more :: after ∧ need ≤ more := by
  induction polls generalizing capacity with
  | nil =>
      rw [awaitCapacity]
      split
      · next hlt =>
          refine iff_of_false Bool.false_ne_true ?_
          rintro (hle | ⟨before, more, after, hpolls, -⟩)
          · exact Nat.not_le_of_lt hlt hle
          · exact List.append_ne_nil_of_right_ne_nil _ (List.cons_ne_nil _ _) hpolls.symm
      · next hge => exact iff_of_true rfl (.inl (Nat.le_of_not_lt hge))
  | cons poll polls ih =>
      by_cases hlt : capacity < need
      · rw [or_iff_right (Nat.not_le_of_lt hlt)]
        cases poll with
        | none =>
            rw [awaitCapacity, if_pos hlt]
            refine iff_of_false Bool.false_ne_true ?_
            rintro ⟨before, more, after, hpolls, -⟩
            cases before <;> cases hpolls
        | some more =>
            rw [awaitCapacity, if_pos hlt, ih]
            constructor
            · rintro (hle | ⟨before, more', after, hpolls, hle⟩)
              · exact ⟨[], more, polls, rfl, hle⟩
              · exact ⟨more :: before, more', after, by rw [hpolls]; rfl, hle⟩
            · rintro ⟨before, more', after, hpolls, hle⟩
              cases before with
              | nil =>
                  cases hpolls
                  exact .inl hle
              | cons m before =>
                  cases hpolls
                  exact .inr ⟨before, more', after, rfl, hle⟩
      · have hopen : awaitCapacity need capacity (poll :: polls) = true := by
          cases poll <;> rw [awaitCapacity, if_neg hlt]
        exact iff_of_true hopen (.inl (Nat.le_of_not_lt hlt))

theorem Grant.takes_iff {grant : Grant} {cap : List UInt8} :
    grant.takes cap = true ↔ grant.Suffices cap.length := by
  rw [Grant.takes, Bool.and_eq_true, awaitCapacity_eq_true, Grant.Suffices]

/-- One capsule per packet, in queue order, for as long as the stream takes them. -/
theorem writerLoop_isPrefix (queue : List (List UInt8 × Grant)) :
    writerLoop queue <+: queue.map fun p => encodeDatagramCapsule p.1 := by
  induction queue with
  | nil => exact List.prefix_rfl
  | cons p queue ih =>
      simp only [writerLoop, List.map_cons]
      split
      · exact (List.prefix_cons_inj _).mpr ih
      · exact List.nil_prefix

theorem writerLoop_all (queue : List (List UInt8 × Grant))
    (h : ∀ p ∈ queue, p.2.Suffices (encodeDatagramCapsule p.1).length) :
    writerLoop queue = queue.map fun p => encodeDatagramCapsule p.1 := by
  induction queue with
  | nil => rfl
  | cons p queue ih =>
      have hhead := Grant.takes_iff.mpr (h p List.mem_cons_self)
      simp only [writerLoop, List.map_cons, if_pos hhead]
      rw [ih fun p hp => h p (List.mem_cons_of_mem _ hp)]

/-! ## Both ends -/

/-- One element of the stream the peer receives: a packet of ours as the writer frames it,
or any other capsule, its varints in any size class. -/
inductive WireItem where
  | packet (pkt : List UInt8)
  | other (bs : List UInt8) (c : Capsule)

/-- Packets short enough for a capsule length; other capsules well formed and not of type 0. -/
def WireItem.Ok : WireItem → Prop
  | .packet pkt => pkt.length < 2 ^ 62
  | .other bs c => IsCapsule bs c ∧ c.ctype ≠ capsuleDatagram

def WireItem.bytes : WireItem → List UInt8
  | .packet pkt => encodeDatagramCapsule pkt
  | .other bs _ => bs

def WireItem.packet? : WireItem → Option (List UInt8)
  | .packet pkt => some pkt
  | .other _ _ => none

/-- The stream is its items' capsules, with nothing left over. -/
theorem wireItems_stream (items : List WireItem) (h : ∀ i ∈ items, i.Ok) :
    ∃ cs, CapsuleStream (items.map WireItem.bytes).flatten cs [] ∧
      datagrams cs = items.filterMap WireItem.packet? := by
  induction items with
  | nil =>
      refine ⟨[], .leftover ?_, rfl⟩
      intro bs rest c e hc
      have hpos := hc.length_pos
      rw [(List.append_eq_nil_iff.mp e.symm).1, List.length_nil] at hpos
      omega
  | cons i items ih =>
      obtain ⟨cs, hcs, hd⟩ := ih fun j hj => h j (List.mem_cons_of_mem _ hj)
      have hi := h i List.mem_cons_self
      cases i with
      | packet pkt =>
          refine ⟨⟨capsuleDatagram, pkt⟩ :: cs, ?_, ?_⟩
          · exact .capsule (encodeDatagramCapsule_isCapsule pkt hi) hcs
          · rw [datagrams_cons_packet rfl, hd]
            rfl
      | other bs c =>
          refine ⟨c :: cs, .capsule hi.1 hcs, ?_⟩
          rw [datagrams_cons_other hi.2, hd]
          rfl

/-- **HTTP/2 packet transport is lossless and order preserving.**  The writer emits the capsules
of a prefix of its queue, and of the whole queue when the peer's window opens far enough each
time; the stream of these and any other capsules, cut anywhere, makes the reader forward exactly
the packets and keep nothing, and a prefix of the stream makes it forward a prefix of them. -/
theorem transport_lossless (items : List WireItem) (hitems : ∀ i ∈ items, i.Ok) :
    (∀ queue : List (List UInt8 × Grant),
      queue.map Prod.fst = items.filterMap WireItem.packet? →
        writerLoop queue <+: (items.filterMap WireItem.packet?).map encodeDatagramCapsule ∧
        ((∀ p ∈ queue, p.2.Suffices (encodeDatagramCapsule p.1).length) →
          writerLoop queue = (items.filterMap WireItem.packet?).map encodeDatagramCapsule)) ∧
    ∀ chunks : List (List UInt8), chunks.flatten <+: (items.map WireItem.bytes).flatten →
      ∃ sofar left,
        readerLoop (.opened []) (chunks.map .data) = .ok (.opened sofar, left) ∧
        sofar <+: items.filterMap WireItem.packet? ∧
        (chunks.flatten = (items.map WireItem.bytes).flatten →
          sofar = items.filterMap WireItem.packet? ∧ left = []) := by
  obtain ⟨cs, hcs, hd⟩ := wireItems_stream items hitems
  have hdrain := hcs.splits.drain_eq
  refine ⟨?_, ?_⟩
  · intro queue hqueue
    rw [← hqueue, List.map_map]
    exact ⟨writerLoop_isPrefix queue, writerLoop_all queue⟩
  · intro chunks hpre
    refine ⟨_, _, readerLoop_flatten chunks, ?_, ?_⟩
    · have h := datagrams_drain_prefix hpre
      rw [hdrain, hd] at h
      exact h
    · intro heq
      rw [heq, hdrain]
      exact ⟨hd, rfl⟩

/-- A packet whose capsule waits for the window twice, a capsule of type 5 with a two-byte type,
and an empty packet, cut inside the first header and inside the second type. -/
theorem transport_lossless_cut :
    writerLoop [([7, 8], ⟨0, [some 1, some 4], true⟩), ([], ⟨2, [], true⟩)] =
      [[0, 2, 7, 8], [0, 0]] ∧
    ∃ sofar left,
      readerLoop (.opened []) ([[0], [2, 7, 8, 0x40], [5, 1, 9, 0, 0]].map .data)
        = .ok (.opened sofar, left) ∧ sofar = [[7, 8], []] ∧ left = [] := by
  have hother : IsCapsule [0x40, 5, 1, 9] ⟨5, [9]⟩ :=
    ⟨[0x40, 5], [1], ⟨1, by decide, by decide, by decide⟩, ⟨0, by decide, by decide, by decide⟩,
      rfl⟩
  have hitems : ∀ i ∈ [WireItem.packet [7, 8], .other [0x40, 5, 1, 9] ⟨5, [9]⟩, .packet []],
      i.Ok := by
    intro i hi
    simp only [List.mem_cons, List.not_mem_nil, or_false] at hi
    rcases hi with rfl | rfl | rfl
    · show 2 < 2 ^ 62
      decide
    · exact ⟨hother, by decide⟩
    · show 0 < 2 ^ 62
      decide
  obtain ⟨hwriter, hreader⟩ := transport_lossless _ hitems
  have hgrants : ∀ p ∈ [([7, 8], Grant.mk 0 [some 1, some 4] true), ([], Grant.mk 2 [] true)],
      p.2.Suffices (encodeDatagramCapsule p.1).length := by
    intro p hp
    simp only [List.mem_cons, List.not_mem_nil, or_false] at hp
    rcases hp with rfl | rfl
    · exact ⟨.inr ⟨[1], 4, [], rfl, by decide⟩, rfl⟩
    · exact ⟨.inl (by decide), rfl⟩
  have hflat : [[0], [2, 7, 8, 0x40], [5, 1, 9, 0, 0]].flatten
      = ([WireItem.packet [7, 8], .other [0x40, 5, 1, 9] ⟨5, [9]⟩, .packet []].map
          WireItem.bytes).flatten := by decide
  obtain ⟨sofar, left, hread, -, hall⟩ := hreader [[0], [2, 7, 8, 0x40], [5, 1, 9, 0, 0]]
    (hflat ▸ List.prefix_rfl)
  obtain ⟨hsofar, hleft⟩ := hall hflat
  refine ⟨?_, sofar, left, hread, hsofar, hleft⟩
  rw [(hwriter _ rfl).2 hgrants]
  decide

end WarpProxy
