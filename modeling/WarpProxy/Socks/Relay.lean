/-
# `WarpProxy.Socks.Relay` — the two ways a session is relayed

`relay` races two futures in a `select!`: one takes chunks off the netstack's channel
and writes them to the client, the other reads from the client and queues commands for
the netstack.  Whichever ends first, the other is dropped where it stands, and with it
the halves of both connections.  `relay_direct` is `copy_bidirectional`, which copies
each direction to its own end; it is the splice of `WarpProxy.Lib.Splice`.

Seen as a splice, whatever `relay` does `relay_direct` may do too
(`Relay.Reachable.pair`): nothing is doubled or reordered.  But it stops with the first
of the two ends, and what the other direction has or is still to get is lost; it does
what `relay_direct` does if and only if a direction ends only once the other has
nothing more to carry (`relay_agrees`).

The netstack is taken at its word here: it hands over what the remote sends, chunk by
chunk, and hangs up at the end of the stream.
-/
import WarpProxy.Lib.Splice
import WarpProxy.Netstack.System

namespace WarpProxy.Socks

open Netstack Transition

/-! ## `relay` -/

/-- What comes from one side: what it has sent, what of it nobody has read, whether it has
ended its stream. -/
structure Stream where
  sent : List UInt8
  unread : List UInt8
  ended : Bool
  deriving DecidableEq

def Stream.new : Stream := ⟨[], [], false⟩

def Stream.send (st : Stream) (data : List UInt8) : Option Stream :=
  if st.ended then none
  else some { st with sent := st.sent ++ data, unread := st.unread ++ data }

def Stream.finish (st : Stream) : Option Stream :=
  if st.ended then none else some { st with ended := true }

/-- The future `net_to_client`, at its awaits. -/
inductive NetToClient where
  /-- in `reader.recv()` -/
  | recv
  /-- in `cw.write_all(&chunk)`, with this left to write -/
  | writing (rest : List UInt8)
  /-- in `cw.shutdown()` -/
  | shutdown
  | done
  deriving DecidableEq

/-- `write_all` returns once there is nothing left. -/
def NetToClient.writeAll (rest : List UInt8) : NetToClient :=
  if rest = [] then .recv else .writing rest

/-- What has been received and not written. -/
def NetToClient.held : NetToClient → List UInt8
  | .writing rest => rest
  | _ => []

/-- How far it is from its end, apart from what there is to write. -/
def NetToClient.awaits : NetToClient → Nat
  | .recv | .writing _ => 2
  | .shutdown => 1
  | .done => 0

/-- The future `client_to_net`, at its await. -/
inductive ClientToNet where
  | read
  | done
  deriving DecidableEq

def ClientToNet.awaits : ClientToNet → Nat
  | .read => 1
  | .done => 0

/-- The size of the buffer of `client_to_net`. -/
def bufSize : Nat := 8192

/-- `handle` and `origin` are those of the `TcpConn`; `chan` is its channel and `cmds` what has
been sent on its command queue; `written` is what has been written to the client, and `returned`
says whether `select!` has. -/
structure Relay where
  handle : Handle
  origin : ConnId
  client : Stream
  remote : Stream
  chan : Chan
  cmds : List Cmd
  netToClient : NetToClient
  clientToNet : ClientToNet
  written : List UInt8
  returned : Bool
  deriving DecidableEq

inductive RelayLabel where
  | clientSends (data : List UInt8)
  | clientEnds
  | remoteSends (data : List UInt8)
  | remoteEnds
  /-- the netstack puts so many bytes into the channel, as a chunk -/
  | deliver (n : Nat)
  /-- the netstack drops its end of the channel -/
  | hangup
  | recv
  /-- the client's socket takes so many bytes -/
  | write (n : Nat)
  | writeFails
  | shutdown
  /-- the client's socket gives so many bytes -/
  | read (n : Nat)
  /-- the client's socket gives the end of the stream -/
  | readEnd
  | readFails
  deriving DecidableEq

namespace Relay

/-- `relay(client, conn)` begins. -/
def start (handle : Handle) (origin : ConnId) : Relay where
  handle := handle
  origin := origin
  client := .new
  remote := .new
  chan := .new
  cmds := []
  netToClient := .recv
  clientToNet := .read
  written := []
  returned := false

variable (s : Relay)

/-- `select!` returns: the other future and the halves are dropped, the `TcpWriter` with a
`Close`. -/
def finish : Relay :=
  { s with
    chan := { s.chan with rx := false }
    cmds := s.cmds ++ [.close s.handle s.origin]
    returned := true }

/-- After its loop `client_to_net` closes, and is done. -/
def closeWriter : Relay :=
  { s with cmds := s.cmds ++ [Cmd.close s.handle s.origin], clientToNet := .done }.finish

def step : RelayLabel → Option Relay
  | .clientSends data => (s.client.send data).map fun st => { s with client := st }
  | .clientEnds => s.client.finish.map fun st => { s with client := st }
  | .remoteSends data => (s.remote.send data).map fun st => { s with remote := st }
  | .remoteEnds => s.remote.finish.map fun st => { s with remote := st }
  | .deliver n =>
      if s.chan.reservable ∧ s.chan.tx ∧ 0 < n ∧ n ≤ min recvChunk s.remote.unread.length then
        some { s with
          chan := { s.chan with queue := s.chan.queue ++ [s.remote.unread.take n] }
          remote := { s.remote with unread := s.remote.unread.drop n } }
      else none
  | .hangup =>
      if s.chan.rx ∧ s.chan.tx ∧ s.remote.ended ∧ s.remote.unread = [] then
        some { s with chan := { s.chan with tx := false } }
      else none
  | .recv =>
      if s.returned = false ∧ s.netToClient = .recv then
        match s.chan.recv with
        | (.ready chunk, ch) => some { s with chan := ch, netToClient := .writeAll chunk }
        | (.eof, _) => some { s with netToClient := .shutdown }
        | (.pending, _) => none
      else none
  | .write n =>
      match s.netToClient with
      | .writing rest =>
          if s.returned = false ∧ 0 < n ∧ n ≤ rest.length then
            some { s with
              written := s.written ++ rest.take n
              netToClient := .writeAll (rest.drop n) }
          else none
      | _ => none
  | .writeFails =>
      match s.netToClient with
      | .writing _ => if s.returned then none else some { s with netToClient := .shutdown }
      | _ => none
  | .shutdown =>
      if s.returned = false ∧ s.netToClient = .shutdown then
        some { s with netToClient := .done }.finish
      else none
  | .read n =>
      if s.returned = false ∧ 0 < n ∧ n ≤ min bufSize s.client.unread.length then
        some { s with
          client := { s.client with unread := s.client.unread.drop n }
          cmds := s.cmds ++ [.send s.handle (s.client.unread.take n) s.origin] }
      else none
  | .readEnd =>
      if s.returned = false ∧ s.client.unread = [] ∧ s.client.ended then some s.closeWriter
      else none
  | .readFails => if s.returned then none else some s.closeWriter

end Relay

/-- What the netstack and the futures of `relay` do when nothing more comes from outside. -/
def RelayLabel.Own : RelayLabel → Prop
  | .deliver _ | .hangup | .recv | .write _ | .shutdown | .read _ | .readEnd => True
  | _ => False

/-- The client's socket works. -/
def RelayLabel.Works : RelayLabel → Prop
  | .writeFails | .readFails => False
  | _ => True

/-- A step of a relay between sockets that work. -/
def RelayStep (s : Relay) (l : RelayLabel) (t : Relay) : Prop := s.step l = some t ∧ l.Works

def RelayInit (s : Relay) : Prop := ∃ handle origin, s = .start handle origin

/-! ## `relay_direct` -/

/-- `copy_bidirectional(&mut client, &mut upstream)`: up from the client, down to it. -/
abbrev RelayDirect := Splice.Pair UInt8

/-! ## As a splice -/

/-- What a command carries to the remote. -/
def payload : Cmd → List UInt8
  | .send _ data _ => data
  | _ => []

namespace Relay

/-- What has been queued for the remote. -/
def forwarded (s : Relay) : List UInt8 := s.cmds.flatMap payload

def up (s : Relay) : Splice.Flow UInt8 where
  sent := s.client.sent
  ended := s.client.ended
  unread := s.client.unread
  held := []
  given := s.forwarded
  closed := s.clientToNet = .done

def down (s : Relay) : Splice.Flow UInt8 where
  sent := s.remote.sent
  ended := s.remote.ended
  unread := s.chan.queue.flatten ++ s.remote.unread
  held := s.netToClient.held
  given := s.written
  closed := s.netToClient = .done

def pair (s : Relay) : RelayDirect := ⟨s.up, s.down⟩

/-- Nothing more happens unless something comes from outside. -/
def Quiet (s : Relay) : Prop := ∀ l, l.Own → s.step l = none

/-- How much the netstack and the futures have left to do. -/
def work (s : Relay) : Nat :=
  3 * s.remote.unread.length + 2 * s.chan.queue.flatten.length + s.netToClient.held.length +
    s.netToClient.awaits + s.client.unread.length + s.clientToNet.awaits + s.chan.tx.toNat

end Relay

/-- The client, once it has ended its stream, loses nothing. -/
structure Delivers (p : RelayDirect) : Prop where
  up : p.up.ended = true → p.up.given = p.up.sent
  down : p.up.ended = true → p.down.ended = true → p.down.given = p.down.sent

/-- What `relay_direct` may come to, for the streams of `s`. -/
structure DirectRest (s : Relay) (p : RelayDirect) : Prop where
  reachable : Splice.Pair.Reachable p
  stuck : p.Stuck
  same : p.SameStreams s.pair

/-- A direction comes to its end only when the other has ended too and carried everything. -/
def Unhurried (s : Relay) (l : RelayLabel) : Prop :=
  (l = .shutdown → s.up.Complete) ∧ (l = .readEnd → s.down.Complete)

section
variable {s t : Relay} {l : RelayLabel}

/-! ## The steps of `relay` -/

/-- What each step may do. -/
inductive Relayed (s : Relay) : RelayLabel → Relay → Prop
  | clientSends {data : List UInt8} : s.client.ended = false →
      Relayed s (.clientSends data) { s with
        client := ⟨s.client.sent ++ data, s.client.unread ++ data, s.client.ended⟩ }
  | clientEnds : s.client.ended = false →
      Relayed s .clientEnds { s with client := { s.client with ended := true } }
  | remoteSends {data : List UInt8} : s.remote.ended = false →
      Relayed s (.remoteSends data) { s with
        remote := ⟨s.remote.sent ++ data, s.remote.unread ++ data, s.remote.ended⟩ }
  | remoteEnds : s.remote.ended = false →
      Relayed s .remoteEnds { s with remote := { s.remote with ended := true } }
  | deliver {n : Nat} : s.chan.rx = true → s.chan.tx = true → 0 < n →
      n ≤ s.remote.unread.length →
      Relayed s (.deliver n) { s with
        chan := { s.chan with queue := s.chan.queue ++ [s.remote.unread.take n] }
        remote := { s.remote with unread := s.remote.unread.drop n } }
  | hangup : s.chan.tx = true → s.remote.ended = true → s.remote.unread = [] →
      Relayed s .hangup { s with chan := { s.chan with tx := false } }
  | recv {chunk : List UInt8} {queue : List (List UInt8)} : s.returned = false →
      s.netToClient = .recv → s.chan.queue = chunk :: queue →
      Relayed s .recv { s with
        chan := { s.chan with queue := queue }
        netToClient := .writeAll chunk }
  | eof : s.returned = false → s.netToClient = .recv → s.chan.queue = [] → s.chan.tx = false →
      Relayed s .recv { s with netToClient := .shutdown }
  | write {n : Nat} {rest : List UInt8} : s.returned = false → s.netToClient = .writing rest →
      0 < n → n ≤ rest.length →
      Relayed s (.write n) { s with
        written := s.written ++ rest.take n
        netToClient := .writeAll (rest.drop n) }
  | writeFails {rest : List UInt8} : s.netToClient = .writing rest →
      Relayed s .writeFails { s with netToClient := .shutdown }
  | shutdown : s.returned = false → s.netToClient = .shutdown →
      Relayed s .shutdown (Relay.finish { s with netToClient := .done })
  | read {n : Nat} : s.returned = false → 0 < n → n ≤ s.client.unread.length →
      Relayed s (.read n) { s with
        client := { s.client with unread := s.client.unread.drop n }
        cmds := s.cmds ++ [.send s.handle (s.client.unread.take n) s.origin] }
  | readEnd : s.returned = false → s.client.unread = [] → s.client.ended = true →
      Relayed s .readEnd s.closeWriter
  | readFails : Relayed s .readFails s.closeWriter

theorem send_cases {st st' : Stream} {data : List UInt8} (h : st.send data = some st') :
    st.ended = false ∧ st' = ⟨st.sent ++ data, st.unread ++ data, st.ended⟩ := by
  rw [Stream.send] at h
  obtain ⟨hended, h⟩ := Option.ite_none_left_eq_some.mp h
  exact ⟨Bool.eq_false_iff.mpr hended, (Option.some.inj h).symm⟩

theorem finish_cases {st st' : Stream} (h : st.finish = some st') :
    st.ended = false ∧ st' = { st with ended := true } := by
  rw [Stream.finish] at h
  obtain ⟨hended, h⟩ := Option.ite_none_left_eq_some.mp h
  exact ⟨Bool.eq_false_iff.mpr hended, (Option.some.inj h).symm⟩

theorem Relayed.of_eq (h : s.step l = some t) : Relayed s l t := by
  cases l with
  | clientSends data =>
      obtain ⟨st, hst, rfl⟩ := Option.map_eq_some_iff.mp h
      obtain ⟨hended, rfl⟩ := send_cases hst
      exact .clientSends hended
  | clientEnds =>
      obtain ⟨st, hst, rfl⟩ := Option.map_eq_some_iff.mp h
      obtain ⟨hended, rfl⟩ := finish_cases hst
      exact .clientEnds hended
  | remoteSends data =>
      obtain ⟨st, hst, rfl⟩ := Option.map_eq_some_iff.mp h
      obtain ⟨hended, rfl⟩ := send_cases hst
      exact .remoteSends hended
  | remoteEnds =>
      obtain ⟨st, hst, rfl⟩ := Option.map_eq_some_iff.mp h
      obtain ⟨hended, rfl⟩ := finish_cases hst
      exact .remoteEnds hended
  | deliver n =>
      rw [Relay.step] at h
      obtain ⟨⟨hres, htx, hpos, hle⟩, rfl⟩ := Option.ite_some_none_eq_some.mp h
      have hrx : s.chan.rx = true := (Bool.and_eq_true_iff.mp hres).1
      exact .deliver hrx htx hpos (Nat.le_trans hle (Nat.min_le_right ..))
  | hangup =>
      rw [Relay.step] at h
      obtain ⟨⟨-, htx, hended, hunread⟩, rfl⟩ := Option.ite_some_none_eq_some.mp h
      exact .hangup htx hended hunread
  | recv =>
      rw [Relay.step] at h
      obtain ⟨⟨hret, hrecv⟩, h⟩ := Option.ite_none_right_eq_some.mp h
      cases hq : s.chan.queue with
      | cons chunk queue =>
          simp only [Chan.recv, hq] at h
          cases h
          exact .recv hret hrecv hq
      | nil =>
          cases htx : s.chan.tx with
          | true =>
              simp only [Chan.recv, hq, htx, if_true] at h
              cases h
          | false =>
              simp only [Chan.recv, hq, htx, Bool.false_eq_true, if_false] at h
              cases h
              exact .eof hret hrecv hq htx
  | write n =>
      rw [Relay.step] at h
      split at h
      · next rest hrest =>
          obtain ⟨⟨hret, hpos, hle⟩, rfl⟩ := Option.ite_some_none_eq_some.mp h
          exact .write hret hrest hpos hle
      · cases h
  | writeFails =>
      rw [Relay.step] at h
      split at h
      · next rest hrest =>
          obtain ⟨-, h⟩ := Option.ite_none_left_eq_some.mp h
          cases h
          exact .writeFails hrest
      · cases h
  | shutdown =>
      rw [Relay.step] at h
      obtain ⟨⟨hret, hshut⟩, rfl⟩ := Option.ite_some_none_eq_some.mp h
      exact .shutdown hret hshut
  | read n =>
      rw [Relay.step] at h
      obtain ⟨⟨hret, hpos, hle⟩, rfl⟩ := Option.ite_some_none_eq_some.mp h
      exact .read hret hpos (Nat.le_trans hle (Nat.min_le_right ..))
  | readEnd =>
      rw [Relay.step] at h
      obtain ⟨⟨hret, hunread, hended⟩, rfl⟩ := Option.ite_some_none_eq_some.mp h
      exact .readEnd hret hunread hended
  | readFails =>
      rw [Relay.step] at h
      obtain ⟨-, h⟩ := Option.ite_none_left_eq_some.mp h
      cases h
      exact .readFails

/-! ## What holds of `relay` -/

/-- Where the futures stand, and what the channel shows. -/
structure RelayInv (s : Relay) : Prop where
  chunks : ∀ chunk ∈ s.chan.queue, chunk ≠ []
  hungUp : s.chan.tx = false → s.remote.ended = true ∧ s.remote.unread = []
  drained : s.netToClient = .shutdown ∨ s.netToClient = .done →
    s.chan.tx = false ∧ s.chan.queue = []
  read : s.returned = false → s.chan.rx = true ∧ s.netToClient ≠ .done ∧ s.clientToNet = .read
  returned : s.returned = true →
    s.chan.rx = false ∧ (s.netToClient = .done ∨ s.clientToNet = .done)
  closed : s.clientToNet = .done → s.client.ended = true ∧ s.client.unread = []

theorem start_inv (handle : Handle) (origin : ConnId) : RelayInv (.start handle origin) where
  chunks chunk h := absurd h List.not_mem_nil
  hungUp h := by cases h
  drained h := by rcases h with h | h <;> cases h
  read _ := ⟨rfl, by simp [Relay.start], rfl⟩
  returned h := by cases h
  closed h := by cases h

theorem writeAll_held (rest : List UInt8) : (NetToClient.writeAll rest).held = rest := by
  rw [NetToClient.writeAll]
  split
  · next h => exact h.symm
  · rfl

theorem writeAll_awaits (rest : List UInt8) : (NetToClient.writeAll rest).awaits = 2 := by
  rw [NetToClient.writeAll]
  split <;> rfl

theorem writeAll_busy (rest : List UInt8) : NetToClient.writeAll rest ≠ .shutdown ∧
    NetToClient.writeAll rest ≠ .done := by
  rw [NetToClient.writeAll]
  split <;> exact ⟨by simp, by simp⟩

/-- **One step** of a relay between sockets that work. -/
theorem RelayInv.step (hi : RelayInv s) (h : Relayed s l t) (hl : l.Works) : RelayInv t := by
  cases h with
  | clientSends hended | clientEnds hended =>
      refine ⟨hi.chunks, hi.hungUp, hi.drained, hi.read, hi.returned, fun hdone => ?_⟩
      rw [(hi.closed hdone).1] at hended
      cases hended
  | remoteSends hended | remoteEnds hended =>
      refine ⟨hi.chunks, fun htx => ?_, hi.drained, hi.read, hi.returned, hi.closed⟩
      rw [(hi.hungUp htx).1] at hended
      cases hended
  | @deliver n hrx htx hpos hle =>
      refine ⟨fun chunk hmem => ?_, fun hgone => ?_, fun hend => ?_, hi.read, hi.returned,
        hi.closed⟩
      · rcases List.mem_append.mp hmem with hmem | hmem
        · exact hi.chunks chunk hmem
        · rw [List.mem_singleton.mp hmem, ← List.length_pos_iff, List.length_take]
          omega
      · exact nomatch htx.symm.trans hgone
      · exact nomatch htx.symm.trans (hi.drained hend).1
  | hangup htx hended hunread =>
      refine ⟨hi.chunks, fun _ => ⟨hended, hunread⟩, fun hend => ?_, hi.read, hi.returned,
        hi.closed⟩
      exact ⟨rfl, (hi.drained hend).2⟩
  | @recv chunk queue hret hrecv hq =>
      refine ⟨fun chunk' hmem => ?_, hi.hungUp, fun hend => ?_, fun _ => ?_, fun hend => ?_,
        hi.closed⟩
      · refine hi.chunks chunk' ?_
        rw [hq]
        exact List.mem_cons_of_mem _ hmem
      · exact absurd hend (not_or.mpr (writeAll_busy chunk))
      · exact ⟨(hi.read hret).1, (writeAll_busy chunk).2, (hi.read hret).2.2⟩
      · exact nomatch hret.symm.trans hend
  | eof hret hrecv hq htx =>
      refine ⟨hi.chunks, hi.hungUp, fun _ => ⟨htx, hq⟩, fun _ => ?_, fun hend => ?_, hi.closed⟩
      · exact ⟨(hi.read hret).1, by simp, (hi.read hret).2.2⟩
      · exact nomatch hret.symm.trans hend
  | @write n rest hret hrest hpos hle =>
      refine ⟨hi.chunks, hi.hungUp, fun hend => ?_, fun _ => ?_, fun hend => ?_, hi.closed⟩
      · exact absurd hend (not_or.mpr (writeAll_busy _))
      · exact ⟨(hi.read hret).1, (writeAll_busy _).2, (hi.read hret).2.2⟩
      · exact nomatch hret.symm.trans hend
  | shutdown hret hshut =>
      exact ⟨hi.chunks, hi.hungUp, fun _ => hi.drained (.inl hshut), fun h => (by cases h),
        fun _ => ⟨rfl, .inl rfl⟩, hi.closed⟩
  | read hret hpos hle =>
      refine ⟨hi.chunks, hi.hungUp, hi.drained, hi.read, hi.returned, fun hdone => ?_⟩
      exact nomatch (hi.read hret).2.2.symm.trans hdone
  | readEnd hret hunread hended =>
      exact ⟨hi.chunks, hi.hungUp, hi.drained, fun h => (by cases h), fun _ => ⟨rfl, .inr rfl⟩,
        fun _ => ⟨hended, hunread⟩⟩
  | writeFails | readFails => exact hl.elim

/-! ## Seen as a splice -/

/-- A move of one direction, the other left as it is. -/
theorem up_run {m : Splice.Move UInt8} (hup : s.up.move m = some t.up) (hdown : t.down = s.down) :
    Run Splice.Pair.Step s.pair [(.up, m)] t.pair := by
  refine Run.tail (.refl _) ?_
  show (s.up.move m).map (fun f => (⟨f, s.down⟩ : RelayDirect)) = some ⟨t.up, t.down⟩
  rw [hup, hdown]
  rfl

theorem down_run {m : Splice.Move UInt8} (hdown : s.down.move m = some t.down)
    (hup : t.up = s.up) : Run Splice.Pair.Step s.pair [(.down, m)] t.pair := by
  refine Run.tail (.refl _) ?_
  show (s.down.move m).map (fun f => (⟨s.up, f⟩ : RelayDirect)) = some ⟨t.up, t.down⟩
  rw [hdown, hup]
  rfl

theorem still_run (hup : t.up = s.up) (hdown : t.down = s.down) :
    Run Splice.Pair.Step s.pair [] t.pair := by
  rw [Relay.pair, Relay.pair, hup, hdown]
  exact .refl _

theorem forwarded_close (cmds : List Cmd) (handle : Handle) (origin : ConnId) :
    (cmds ++ [Cmd.close handle origin]).flatMap payload = cmds.flatMap payload := by
  rw [List.flatMap_append, List.flatMap_singleton]
  exact List.append_nil _

/-- The end of `relay` carries nothing more. -/
theorem finish_forwarded (s : Relay) : s.finish.forwarded = s.forwarded :=
  forwarded_close ..

theorem closeWriter_forwarded (s : Relay) : s.closeWriter.forwarded = s.forwarded :=
  (finish_forwarded _).trans (forwarded_close ..)

/-- **One step** of `relay` is none or some of `relay_direct`. -/
theorem RelayInv.run (hi : RelayInv s) (h : Relayed s l t) (hl : l.Works) :
    ∃ ms, Run Splice.Pair.Step s.pair ms t.pair := by
  cases h with
  | @clientSends data hended => exact ⟨_, up_run (Splice.Flow.move_send hended data) rfl⟩
  | clientEnds hended => exact ⟨_, up_run (Splice.Flow.move_finish hended) rfl⟩
  | @remoteSends data hended =>
      refine ⟨_, down_run ((Splice.Flow.move_send hended data).trans ?_) rfl⟩
      simp only [Relay.down, List.append_assoc]
  | remoteEnds hended => exact ⟨_, down_run (Splice.Flow.move_finish hended) rfl⟩
  | deliver =>
      refine ⟨_, still_run rfl ?_⟩
      simp only [Relay.down, List.flatten_append, List.flatten_cons, List.flatten_nil,
        List.append_nil, List.append_assoc, List.take_append_drop]
  | hangup => exact ⟨_, still_run rfl rfl⟩
  | @recv chunk queue hret hrecv hq =>
      have hchunk : chunk ≠ [] := hi.chunks chunk (hq ▸ List.mem_cons_self)
      have hheld : s.down.held = [] := by
        rw [Relay.down, hrecv]
        rfl
      have hunread : s.down.unread = chunk ++ (queue.flatten ++ s.remote.unread) := by
        rw [Relay.down, hq, List.flatten_cons, List.append_assoc]
      refine ⟨_, down_run ((Splice.Flow.move_take hheld hunread hchunk).trans ?_) rfl⟩
      simp [Relay.down, writeAll_held, hrecv, (writeAll_busy chunk).2]
  | eof hret hrecv hq htx =>
      refine ⟨_, still_run rfl ?_⟩
      simp [Relay.down, hrecv, NetToClient.held]
  | @write n rest hret hrest hpos hle =>
      have hheld : s.down.held = rest.take n ++ rest.drop n := by
        rw [Relay.down, hrest, List.take_append_drop]
        rfl
      have htake : rest.take n ≠ [] := by
        rw [← List.length_pos_iff, List.length_take]
        omega
      refine ⟨_, down_run ((Splice.Flow.move_give hheld htake).trans ?_) rfl⟩
      simp [Relay.down, writeAll_held, hrest, (writeAll_busy (rest.drop n)).2]
  | shutdown hret hshut =>
      obtain ⟨htx, hq⟩ := hi.drained (.inl hshut)
      obtain ⟨hended, hunread⟩ := hi.hungUp htx
      have hcomplete : s.down.Complete := by
        refine ⟨hended, ?_, ?_⟩
        · rw [Relay.down, hshut]
          rfl
        · rw [Relay.down, hq, hunread]
          rfl
      have hclosed : s.down.closed = false := by
        simp [Relay.down, hshut]
      refine ⟨_, down_run ((Splice.Flow.move_close hcomplete hclosed).trans ?_) ?_⟩
      · simp [Relay.down, Relay.finish, hshut, NetToClient.held]
      · simp only [Relay.up, finish_forwarded]
        rfl
  | @read n hret hpos hle =>
      have htake : s.client.unread.take n ≠ [] := by
        rw [← List.length_pos_iff, List.length_take]
        omega
      -- the bytes are read and queued for the remote at once
      let f : Splice.Flow UInt8 :=
        { s.up with unread := s.client.unread.drop n, held := s.client.unread.take n }
      have hread : s.up.move (.take (s.client.unread.take n).length) = some f :=
        Splice.Flow.move_take rfl (List.take_append_drop n s.client.unread).symm htake
      have hgive := Splice.Flow.move_give (f := f) (List.append_nil _).symm htake
      have hfirst : Splice.Pair.Step s.pair (.up, .take (s.client.unread.take n).length)
          ⟨f, s.down⟩ := by
        show (s.up.move _).map (fun g => (⟨g, s.down⟩ : RelayDirect)) = _
        rw [hread]
        rfl
      refine ⟨_, ((Run.refl _).tail hfirst).tail
        (l := (.up, .give (s.client.unread.take n).length)) ?_⟩
      show (f.move _).map (fun g => (⟨g, s.down⟩ : RelayDirect)) = _
      rw [hgive]
      simp [Relay.pair, Relay.up, Relay.down, Relay.forwarded, payload, f]
  | readEnd hret hunread hended =>
      have hcomplete : s.up.Complete := ⟨hended, rfl, hunread⟩
      have hclosed : s.up.closed = false := by
        simp [Relay.up, (hi.read hret).2.2]
      refine ⟨_, up_run ((Splice.Flow.move_close hcomplete hclosed).trans ?_) rfl⟩
      simp only [Relay.up, closeWriter_forwarded]
      rfl
  | writeFails | readFails => exact hl.elim

/-! ## Every run -/

abbrev Relay.Reachable (s : Relay) : Prop := Transition.Reachable RelayStep RelayInit s

theorem RelayStep.relayed (h : RelayStep s l t) : Relayed s l t := .of_eq h.1

theorem Relay.Reachable.inv (h : s.Reachable) : RelayInv s := by
  refine Transition.Reachable.invariant RelayInv h ?_ fun s l t hi hstep =>
    hi.step hstep.relayed hstep.2
  rintro s ⟨handle, origin, rfl⟩
  exact start_inv handle origin

/-- **Whatever `relay` does, `relay_direct` may do too.** -/
theorem Relay.Reachable.pair (h : s.Reachable) : Splice.Pair.Reachable s.pair := by
  induction h with
  | init hs =>
      obtain ⟨handle, origin, rfl⟩ := hs
      exact .init rfl
  | tail hr hstep ih =>
      obtain ⟨ms, hrun⟩ := (Relay.Reachable.inv hr).run hstep.relayed hstep.2
      exact hrun.invariant Splice.Pair.Reachable ih fun _ _ _ _ hp hm => hp.tail hm

theorem Relay.Reachable.sound (h : s.Reachable) : s.up.Sound ∧ s.down.Sound :=
  ⟨h.pair.sound .up, h.pair.sound .down⟩

/-- Once the relay is over, nothing of it moves. -/
theorem RelayInv.quiet (hi : RelayInv s) (hret : s.returned = true) : s.Quiet := by
  have hrx : s.chan.rx = false := (hi.returned hret).1
  intro l hl
  cases l with
  | deliver n =>
      refine if_neg fun hn => ?_
      rw [Chan.reservable, hrx] at hn
      exact absurd hn.1 (by simp)
  | hangup =>
      refine if_neg fun hn => ?_
      rw [hrx] at hn
      exact absurd hn.1 (by simp)
  | recv | shutdown | read n | readEnd =>
      refine if_neg fun hn => ?_
      rw [hret] at hn
      exact absurd hn.1 (by simp)
  | write n =>
      rw [Relay.step]
      split
      · refine if_neg fun hn => ?_
        rw [hret] at hn
        exact absurd hn.1 (by simp)
      · rfl
  | _ => exact hl.elim

/-- A relay that stands still with the client's stream ended is over. -/
theorem Relay.Quiet.returned (hquiet : s.Quiet) (hended : s.client.ended = true) :
    s.returned = true := by
  by_contra hret
  rw [Bool.not_eq_true] at hret
  by_cases hunread : s.client.unread = []
  · have hend := hquiet .readEnd trivial
    rw [Relay.step, if_pos ⟨hret, hunread, hended⟩] at hend
    cases hend
  · have hpos : 0 < min bufSize s.client.unread.length :=
      Nat.lt_min.mpr ⟨by decide, List.length_pos_iff.mpr hunread⟩
    have hread := hquiet (.read (min bufSize s.client.unread.length)) trivial
    rw [Relay.step, if_pos ⟨hret, hpos, Nat.le_refl _⟩] at hread
    cases hread

/-- What the netstack and the futures do comes to an end. -/
theorem RelayInv.work_lt (hi : RelayInv s) (h : Relayed s l t) (hl : l.Own) : t.work < s.work := by
  cases h with
  | deliver hrx htx hpos hle =>
      simp only [Relay.work, List.flatten_append, List.flatten_cons, List.flatten_nil,
        List.append_nil, List.length_append, List.length_take, List.length_drop]
      omega
  | hangup htx =>
      simp only [Relay.work, htx, Bool.toNat_true, Bool.toNat_false]
      omega
  | @recv chunk queue hret hrecv hq =>
      have hpos : 0 < chunk.length :=
        List.length_pos_iff.mpr (hi.chunks chunk (hq ▸ List.mem_cons_self))
      have hat : s.netToClient.held = [] ∧ s.netToClient.awaits = 2 := by
        rw [hrecv]
        exact ⟨rfl, rfl⟩
      simp only [Relay.work, hat.1, hat.2, hq, writeAll_held, writeAll_awaits,
        List.flatten_cons, List.length_append, List.length_nil]
      omega
  | eof hret hrecv =>
      have hat : s.netToClient.held = [] ∧ s.netToClient.awaits = 2 := by
        rw [hrecv]
        exact ⟨rfl, rfl⟩
      have hnew : NetToClient.shutdown.held = [] ∧ NetToClient.shutdown.awaits = 1 :=
        ⟨rfl, rfl⟩
      simp only [Relay.work, hat.1, hat.2, hnew.1, hnew.2]
      omega
  | @write n rest hret hrest hpos hle =>
      have hat : s.netToClient.held = rest ∧ s.netToClient.awaits = 2 := by
        rw [hrest]
        exact ⟨rfl, rfl⟩
      simp only [Relay.work, hat.1, hat.2, writeAll_held, writeAll_awaits, List.length_drop]
      omega
  | shutdown hret hshut =>
      have hat : s.netToClient.held = [] ∧ s.netToClient.awaits = 1 := by
        rw [hshut]
        exact ⟨rfl, rfl⟩
      have hnew : NetToClient.done.held = [] ∧ NetToClient.done.awaits = 0 := ⟨rfl, rfl⟩
      simp only [Relay.work, Relay.finish, hat.1, hat.2, hnew.1, hnew.2]
      omega
  | read hret hpos hle =>
      simp only [Relay.work, List.length_drop]
      omega
  | readEnd hret =>
      have hat : s.clientToNet.awaits = 1 := by
        rw [(hi.read hret).2.2]
        rfl
      have hnew : ClientToNet.done.awaits = 0 := rfl
      simp only [Relay.work, Relay.closeWriter, Relay.finish, hat, hnew]
      omega
  | _ => exact hl.elim

/-! ## Who comes first -/

/-- The step that ends the relay is the end of one direction, which has carried everything; the
other is left as it is. -/
theorem RelayInv.ends (hi : RelayInv s) (h : Relayed s l t) (hl : l.Works)
    (hret : s.returned = false) (hend : t.returned = true) :
    (l = .shutdown ∧ s.down.Complete ∨ l = .readEnd ∧ s.up.Complete) ∧
      (s.up.Complete → t.up.Complete) ∧ (s.down.Complete → t.down.Complete) ∧
      (t.up.Complete → s.up.Complete) ∧ (t.down.Complete → s.down.Complete) := by
  cases h with
  | shutdown _ hshut =>
      obtain ⟨htx, hq⟩ := hi.drained (.inl hshut)
      obtain ⟨hended, hunread⟩ := hi.hungUp htx
      have hdown : s.down.Complete := by
        refine ⟨hended, ?_, ?_⟩
        · rw [Relay.down, hshut]
          rfl
        · rw [Relay.down, hq, hunread]
          rfl
      exact ⟨.inl ⟨rfl, hdown⟩, fun h => ⟨h.ended, h.held, h.unread⟩,
        fun h => ⟨h.ended, rfl, h.unread⟩, fun h => ⟨h.ended, h.held, h.unread⟩, fun _ => hdown⟩
  | readEnd _ hunread hended =>
      exact ⟨.inr ⟨rfl, hended, rfl, hunread⟩, fun h => ⟨h.ended, h.held, h.unread⟩,
        fun h => ⟨h.ended, h.held, h.unread⟩, fun h => ⟨h.ended, h.held, h.unread⟩,
        fun h => ⟨h.ended, h.held, h.unread⟩⟩
  | writeFails | readFails => exact hl.elim
  | _ => exact nomatch hret.symm.trans hend

/-- Once the relay is over and both directions have carried everything, nothing happens. -/
theorem RelayInv.no_step (hi : RelayInv s) (hret : s.returned = true) (hup : s.up.Complete)
    (hdown : s.down.Complete) : ¬ RelayStep s l t := by
  rintro ⟨hstep, hworks⟩
  have hquiet := hi.quiet hret
  have hup : s.client.ended = true := hup.ended
  have hdown : s.remote.ended = true := hdown.ended
  cases l with
  | clientSends data => simp [Relay.step, Stream.send, hup] at hstep
  | clientEnds => simp [Relay.step, Stream.finish, hup] at hstep
  | remoteSends data => simp [Relay.step, Stream.send, hdown] at hstep
  | remoteEnds => simp [Relay.step, Stream.finish, hdown] at hstep
  | writeFails | readFails => exact hworks
  | _ => exact nomatch hstep.symm.trans (hquiet _ trivial)

/-- In every run in which no direction hurries: the relay is over only with everything carried. -/
theorem unhurried_complete (h : Transition.Reachable (guarded RelayStep Unhurried) RelayInit s) :
    s.Reachable ∧ (s.returned = true → s.up.Complete ∧ s.down.Complete) := by
  refine Transition.Reachable.invariant
    (fun s => s.Reachable ∧ (s.returned = true → s.up.Complete ∧ s.down.Complete)) h ?_ ?_
  · intro s hs
    refine ⟨.init hs, fun hret => ?_⟩
    obtain ⟨handle, origin, rfl⟩ := hs
    cases hret
  · rintro s l t ⟨hr, hwhole⟩ ⟨hstep, hok⟩
    refine ⟨hr.tail hstep, fun hend => ?_⟩
    have hi : RelayInv s := Relay.Reachable.inv hr
    cases hret : s.returned with
    | true =>
        obtain ⟨hup, hdown⟩ := hwhole hret
        exact absurd hstep (hi.no_step hret hup hdown)
    | false =>
        obtain ⟨hlast, hup, hdown, -, -⟩ := hi.ends hstep.relayed hstep.2 hret hend
        rcases hlast with ⟨rfl, hcomplete⟩ | ⟨rfl, hcomplete⟩
        · exact ⟨hup (hok.1 rfl), hdown hcomplete⟩
        · exact ⟨hup hcomplete, hdown (hok.2 rfl)⟩

theorem Relay.Reachable.run {ls : List RelayLabel} (h : s.Reachable)
    (hrun : Run RelayStep s ls t) : t.Reachable :=
  hrun.invariant Relay.Reachable h fun _ _ _ _ hr hs => hr.tail hs

/-- The client may still have something to say, which nobody hears. -/
theorem client_goes_on (hended : s.client.ended = false) : ∃ ls t, Run RelayStep s ls t ∧
    t.returned = s.returned ∧ t.up.ended = true ∧ t.up.unread ≠ [] := by
  let told : Relay := { s with client := ⟨s.client.sent ++ [0], s.client.unread ++ [0], false⟩ }
  have hsend : RelayStep s (.clientSends [0]) told :=
    ⟨by simp [Relay.step, Stream.send, hended, told], trivial⟩
  have hfinish : RelayStep told .clientEnds { told with
      client := { told.client with ended := true } } :=
    ⟨by simp [Relay.step, Stream.finish, told], trivial⟩
  exact ⟨_, _, ((Run.refl _).tail hsend).tail hfinish, rfl, rfl,
    by simp [Relay.up, told]⟩

/-- Nor what the remote may still have to say. -/
theorem remote_goes_on (hended : s.remote.ended = false) : ∃ ls t, Run RelayStep s ls t ∧
    t.returned = s.returned ∧ t.up.ended = s.up.ended ∧ t.down.ended = true ∧
      t.down.unread ≠ [] := by
  let told : Relay := { s with remote := ⟨s.remote.sent ++ [0], s.remote.unread ++ [0], false⟩ }
  have hsend : RelayStep s (.remoteSends [0]) told :=
    ⟨by simp [Relay.step, Stream.send, hended, told], trivial⟩
  have hfinish : RelayStep told .remoteEnds { told with
      remote := { told.remote with ended := true } } :=
    ⟨by simp [Relay.step, Stream.finish, told], trivial⟩
  exact ⟨_, _, ((Run.refl _).tail hsend).tail hfinish, rfl, rfl, rfl,
    by simp [Relay.down, told]⟩

/-- A relay that is over before a direction has carried everything may lose what it had, or was
still to get. -/
theorem complete_of_delivers (hr : s.Reachable) (hret : s.returned = true)
    (hall : ∀ ls u, Run RelayStep s ls u → u.Quiet → Delivers u.pair) :
    (s.up.Complete) ∧ (s.up.Complete → s.down.Complete) := by
  have hquiet : ∀ {ls u}, Run RelayStep s ls u → u.returned = s.returned → u.Quiet := by
    intro ls u hrun hsame
    exact (Relay.Reachable.inv (hr.run hrun)).quiet (hsame.trans hret)
  constructor
  · cases hended : s.client.ended with
    | true =>
        have hgiven := (hall _ s (.refl _) (hquiet (.refl _) rfl)).up hended
        obtain ⟨hheld, hunread⟩ := hr.sound.1.given_iff.mp hgiven
        exact ⟨hended, hheld, hunread⟩
    | false =>
        obtain ⟨ls, u, hrun, hsame, hend, hleft⟩ := client_goes_on hended
        have hgiven := (hall ls u hrun (hquiet hrun hsame)).up hend
        exact absurd ((hr.run hrun).sound.1.given_iff.mp hgiven).2 hleft
  · intro hup
    cases hended : s.remote.ended with
    | true =>
        have hgiven := (hall _ s (.refl _) (hquiet (.refl _) rfl)).down hup.ended hended
        obtain ⟨hheld, hunread⟩ := hr.sound.2.given_iff.mp hgiven
        exact ⟨hended, hheld, hunread⟩
    | false =>
        obtain ⟨ls, u, hrun, hsame, hupEnd, hend, hleft⟩ := remote_goes_on hended
        have hgiven := (hall ls u hrun (hquiet hrun hsame)).down (hupEnd.trans hup.ended) hend
        exact absurd ((hr.run hrun).sound.2.given_iff.mp hgiven).2 hleft

/-- `relay_direct` carries each direction to its own end. -/
theorem DirectRest.delivers {p : RelayDirect} (h : DirectRest s p) : Delivers p where
  up hup := h.reachable.whole h.stuck .up hup
  down _ hdown := h.reachable.whole h.stuck .down hdown

/-- Where `relay` is, `relay_direct` may be too, and it comes to rest from there. -/
theorem exists_directRest (hr : s.Reachable) : ∃ p, DirectRest s p := by
  obtain ⟨ls, p, hrun, hstuck, hsame⟩ := s.pair.exists_stuck
  have hreach : Splice.Pair.Reachable p :=
    hrun.invariant Splice.Pair.Reachable hr.pair fun _ _ _ _ h hs => h.tail hs
  exact ⟨p, hreach, hstuck, hsame⟩

/-- **`relay` against `relay_direct`.**  In a run in which no direction comes to its end before
the other has carried everything, what `relay` has carried `relay_direct` may carry too, it comes
to rest, and what the client and the remote have got then is what they get of `relay_direct`.  At
the step that ends the relay this is exact: if the other direction still has or may get something,
the client may lose it. -/
theorem relay_agrees (h : Transition.Reachable (guarded RelayStep Unhurried) RelayInit s) :
    (Splice.Pair.Reachable s.pair ∧ ∀ l t, l.Own → RelayStep s l t → t.work < s.work) ∧
    (s.Quiet → Delivers s.pair ∧ (∃ p, DirectRest s p) ∧ (s.up.ended = true →
      ∀ p, DirectRest s p → p.up.given = s.up.given ∧ p.down.given = s.down.given)) ∧
    ∀ l t, RelayStep s l t → s.returned = false → t.returned = true →
      (Unhurried s l ↔ ∀ ls u, Run RelayStep t ls u → u.Quiet → Delivers u.pair) := by
  obtain ⟨hr, hwhole⟩ := unhurried_complete h
  obtain ⟨hsup, hsdown⟩ := hr.sound
  have hi : RelayInv s := Relay.Reachable.inv hr
  refine ⟨⟨hr.pair, fun l t hown hstep => hi.work_lt hstep.relayed hown⟩, ?_, ?_⟩
  · intro hquiet
    have hboth : s.up.ended = true → s.up.Complete ∧ s.down.Complete :=
      fun hended => hwhole (hquiet.returned hended)
    refine ⟨⟨fun hup => (hboth hup).1.given hsup, fun hup _ => (hboth hup).2.given hsdown⟩,
      exists_directRest hr, ?_⟩
    intro hup p hp
    obtain ⟨hcup, hcdown⟩ := hboth hup
    obtain ⟨hsentUp, hendUp⟩ := hp.same .up
    obtain ⟨hsentDown, hendDown⟩ := hp.same .down
    have hend : p.up.ended = true := hendUp.trans hcup.ended
    have hpup : p.up.given = p.up.sent := hp.delivers.up hend
    have hpdown : p.down.given = p.down.sent := hp.delivers.down hend (hendDown.trans hcdown.ended)
    exact ⟨hpup.trans (hsentUp.trans (hcup.given hsup).symm),
      hpdown.trans (hsentDown.trans (hcdown.given hsdown).symm)⟩
  · intro l t hstep hret hend
    have hrt : t.Reachable := hr.tail hstep
    obtain ⟨hlast, hup, hdown, hup', hdown'⟩ := hi.ends hstep.relayed hstep.2 hret hend
    constructor
    · intro hok ls u hrun hquiet
      have hcomplete : t.up.Complete ∧ t.down.Complete := by
        rcases hlast with ⟨rfl, hcomplete⟩ | ⟨rfl, hcomplete⟩
        · exact ⟨hup (hok.1 rfl), hdown hcomplete⟩
        · exact ⟨hup hcomplete, hdown (hok.2 rfl)⟩
      -- nothing can happen after it
      have hsame : u = t := by
        refine hrun.invariant (· = t) rfl ?_
        rintro v l' v' - rfl hstep'
        exact absurd hstep' ((Relay.Reachable.inv hrt).no_step hend hcomplete.1 hcomplete.2)
      rw [hsame]
      exact ⟨fun _ => hcomplete.1.given hrt.sound.1, fun _ _ => hcomplete.2.given hrt.sound.2⟩
    · intro hall
      obtain ⟨hcup, hcdown⟩ := complete_of_delivers hrt hend hall
      exact ⟨fun _ => hup' hcup, fun _ => hdown' (hcdown hcup)⟩

theorem unhurried_of (hshut : l ≠ .shutdown) (hread : l ≠ .readEnd) : Unhurried s l :=
  ⟨fun h => absurd h hshut, fun h => absurd h hread⟩

theorem unhurried_next (h : Transition.Reachable (guarded RelayStep Unhurried) RelayInit s)
    (l : RelayLabel) (hl : l.Works) (hok : Unhurried s l) (hstep : s.step l = some t) :
    Transition.Reachable (guarded RelayStep Unhurried) RelayInit t :=
  h.tail ⟨⟨hstep, hl⟩, hok⟩

/-- A request and its response, each side ending its stream, and the client's end read last. -/
theorem relay_agrees_response : ∃ s : Relay, s.returned = true ∧ s.forwarded = [1] ∧
    s.written = [7] ∧ Delivers s.pair := by
  have h₀ : Transition.Reachable (guarded RelayStep Unhurried) RelayInit (.start 1 0) :=
    .init ⟨1, 0, rfl⟩
  have h₁ := unhurried_next h₀ (.clientSends [1]) trivial (unhurried_of (by simp) (by simp)) rfl
  have h₂ := unhurried_next h₁ (.read 1) trivial (unhurried_of (by simp) (by simp)) rfl
  have h₃ := unhurried_next h₂ .clientEnds trivial (unhurried_of (by simp) (by simp)) rfl
  have h₄ := unhurried_next h₃ (.remoteSends [7]) trivial (unhurried_of (by simp) (by simp)) rfl
  have h₅ := unhurried_next h₄ (.deliver 1) trivial (unhurried_of (by simp) (by simp)) rfl
  have h₆ := unhurried_next h₅ .recv trivial (unhurried_of (by simp) (by simp)) rfl
  have h₇ := unhurried_next h₆ (.write 1) trivial (unhurried_of (by simp) (by simp)) rfl
  have h₈ := unhurried_next h₇ .remoteEnds trivial (unhurried_of (by simp) (by simp)) rfl
  -- by now there is nothing left on the way down
  have h₉ := unhurried_next h₈ .readEnd trivial
    ⟨fun h => (by cases h), fun _ => ⟨rfl, rfl, rfl⟩⟩ rfl
  have hquiet : Relay.Quiet _ :=
    (Relay.Reachable.inv (Transition.Reachable.unguarded h₉)).quiet rfl
  exact ⟨_, rfl, rfl, rfl, ((relay_agrees h₉).2.1 hquiet).1⟩

theorem Relay.Reachable.next (h : s.Reachable) (l : RelayLabel) (hl : l.Works)
    (hstep : s.step l = some t) : t.Reachable :=
  h.tail ⟨hstep, hl⟩

theorem direct_next {p q : RelayDirect} (h : Splice.Pair.Reachable p) (d : Splice.Dir)
    (m : Splice.Move UInt8) (hmove : p.move d m = some q) : Splice.Pair.Reachable q :=
  h.tail (l := (d, m)) hmove

/-- The client ends its stream after the request, and the response comes then: it does not reach
the client, which `relay_direct` would give it. -/
theorem response_lost : ∃ s : Relay, ∃ p : RelayDirect, s.Reachable ∧ s.Quiet ∧ s.up.ended = true ∧
    ¬ Delivers s.pair ∧ DirectRest s p ∧ s.down.given = [] ∧ p.down.given = [7] := by
  have h₀ : Relay.Reachable (.start 1 0) := .init ⟨1, 0, rfl⟩
  have h₁ := h₀.next (.clientSends [1]) trivial rfl
  have h₂ := h₁.next (.read 1) trivial rfl
  have h₃ := h₂.next .clientEnds trivial rfl
  have h₄ := h₃.next .readEnd trivial rfl
  have h₅ := h₄.next (.remoteSends [7]) trivial rfl
  have h₆ := h₅.next .remoteEnds trivial rfl
  have d₀ : Splice.Pair.Reachable (Splice.Pair.new : RelayDirect) := .init rfl
  have d₁ := direct_next d₀ .up (.send [1]) rfl
  have d₂ := direct_next d₁ .up (.take 1) rfl
  have d₃ := direct_next d₂ .up (.give 1) rfl
  have d₄ := direct_next d₃ .up .finish rfl
  have d₅ := direct_next d₄ .up .close rfl
  have d₆ := direct_next d₅ .down (.send [7]) rfl
  have d₇ := direct_next d₆ .down (.take 1) rfl
  have d₈ := direct_next d₇ .down (.give 1) rfl
  have d₉ := direct_next d₈ .down .finish rfl
  have d₁₀ := direct_next d₉ .down .close rfl
  refine ⟨_, _, h₆, (Relay.Reachable.inv h₆).quiet rfl, rfl, fun h => ?_,
    ⟨d₁₀, fun d => ?_, fun d => ?_⟩, rfl, rfl⟩
  · exact absurd (h.down rfl rfl) (by decide)
  · cases d with
    | up => exact Splice.Flow.Complete.stuck ⟨rfl, rfl, rfl⟩ rfl
    | down => exact Splice.Flow.Complete.stuck ⟨rfl, rfl, rfl⟩ rfl
  · cases d with
    | up => exact ⟨rfl, rfl⟩
    | down => exact ⟨rfl, rfl⟩

end

end WarpProxy.Socks
