/-
# `WarpProxy.Netstack.Eof` — end of stream, from the socket to the reader

The reader sees the end of the stream when the channel is drained and its sender
gone (`endsInEof_iff`), and the actor drops the sender with the table entry, that
is, when the socket is `Closed` or the connect refused.  A FIN from the remote
does neither: in `CloseWait`, `Closing`, `LastAck` and `TimeWait` the entry stays
and the reader waits on (`eof_signalled_iff`).
-/
import WarpProxy.Netstack.Pass

namespace WarpProxy.Netstack

/-! ## The reader's side -/

/-- The channel after `n` calls of `recv`. -/
def Chan.after (ch : Chan) : Nat → Chan
  | 0 => ch
  | n + 1 => (ch.after n).recv.2

/-- The sender is gone, and whoever drains the channel is told so. -/
structure EndsInEof (ch : Chan) : Prop where
  dropped : ch.tx = false
  recv : ∀ n, ch.queue.length ≤ n → (ch.after n).recv.1 = .eof
  pollRead : ∀ n (conn : TcpConn) room, ch.queue.length ≤ n →
    conn.readBuf.length ≤ conn.readPos → (conn.pollRead (ch.after n) room).1 = .eof

theorem recv_queue (ch : Chan) : ch.recv.2.queue = ch.queue.tail := by
  obtain ⟨queue, tx, rx⟩ := ch
  cases queue with
  | nil => cases tx <;> rfl
  | cons v queue => rfl

theorem after_tx (ch : Chan) (n : Nat) : (ch.after n).tx = ch.tx := by
  induction n with
  | zero => rfl
  | succ n ih => exact (recv_tx (ch.after n)).trans ih

theorem after_queue (ch : Chan) (n : Nat) : (ch.after n).queue = ch.queue.drop n := by
  induction n with
  | zero => rfl
  | succ n ih => rw [Chan.after, recv_queue, ih, List.tail_drop]

/-- A channel without chunks and without sender is at its end. -/
theorem recv_eof {ch : Chan} (hq : ch.queue = []) (htx : ch.tx = false) :
    ch.recv = (.eof, ch) := by
  obtain ⟨queue, tx, rx⟩ := ch
  subst hq htx
  rfl

theorem endsInEof_iff (ch : Chan) : EndsInEof ch ↔ ch.tx = false := by
  refine ⟨EndsInEof.dropped, fun htx => ?_⟩
  have hdrained : ∀ n, ch.queue.length ≤ n → (ch.after n).recv = (.eof, ch.after n) := by
    intro n hn
    refine recv_eof ?_ ((after_tx ch n).trans htx)
    rw [after_queue, List.drop_eq_nil_of_le hn]
  refine ⟨htx, fun n hn => by rw [hdrained n hn], fun n conn room hn hbuf => ?_⟩
  rw [TcpConn.pollRead, if_pos hbuf, hdrained n hn]

section
variable {D : Deps}

/-! ## The socket's side -/

/-- After the remote's FIN a visit closes no socket that was not closed before. -/
theorem visit_state (hD : D.CloseLaws) (h : Handle) (seams : List Nat) {sock : D.Tcp}
    (conn : Conn) (chan : Chan) (hfin : (D.state sock).FinReceived) :
    D.state (visit D h seams sock conn chan).sock = .closed ↔ D.state sock = .closed := by
  have hpumped : D.state (pump (flush seams sock conn.outBuf).sock chan).sock = D.state sock :=
    (pump_state hD ..).trans (flush_state hD ..)
  simp only [visit]
  split
  · rw [hD.close_closed (hpumped ▸ hfin), hpumped]
  · rw [hpumped]

/-- When a visit after the remote's FIN removes the entry. -/
theorem visit_remove_iff (hD : D.CloseLaws) (h : Handle) (seams : List Nat) {sock : D.Tcp}
    (conn : Conn) (chan : Chan) (hfin : (D.state sock).FinReceived) :
    (visit D h seams sock conn chan).remove = true ↔
      D.state sock = .closed ∨ (conn.connectReply = true ∧ D.isActive sock = false) := by
  have hest : D.state sock ≠ .established := by
    intro heq
    rw [heq] at hfin
    exact hfin
  rw [visit_remove, visit_refused, visit_state hD h seams conn chan hfin, or_comm]
  exact or_congr Iff.rfl ⟨fun h => ⟨h.1, h.2.2⟩, fun h => ⟨h.1, hest, h.2⟩⟩

/-! ## A pass -/

/-- A pass drops the sender of an entry when its visit removes it. -/
theorem serviceSockets_dropped (hD : D.SocketSetLaws) {s : System D} (hr : Reachable s)
    {order : List (Handle × List Nat)} {w : World D}
    (horder : (order.map Prod.fst).Perm s.world.actor.conns.keys)
    (hpass : s.world.serviceSockets order = some w) {k : Handle} {conn : Conn}
    (hconn : s.world.entry k = some conn) {sock : D.Tcp}
    (hsock : D.tcp s.world.actor.sockets k = some sock) :
    ∃ seams, ((w.chans conn.fromNet).tx = false ↔
      (visit D k seams sock conn (s.world.chans conn.fromNet)).remove = true) := by
  obtain ⟨seams, hv⟩ := serviceSockets_visited hD hr.outbound horder hpass hconn hsock
  refine ⟨seams, ?_⟩
  have htx : (w.chans conn.fromNet).tx =
      !(visit D k seams sock conn (s.world.chans conn.fromNet)).remove := by
    refine (congrArg Chan.tx hv.chan).trans ?_
    show ((visit D k seams sock conn (s.world.chans conn.fromNet)).chan.tx && _) = _
    rw [(visit_chan ..).1, hr.ends.sender hconn, Bool.true_and]
  rw [htx, Bool.not_eq_false']

/-- **End of stream.**  A pass that finds an entry whose socket has received the remote's FIN
tells the reader so exactly when the socket is `Closed`, or the reply to the connect is
pending and the socket out of use. -/
theorem eof_signalled_iff (hD : D.SocketSetLaws) (hC : D.CloseLaws) {s t : System D}
    (hr : Reachable s) {order : List (Handle × List Nat)} (hstep : Step s (.service order) t)
    (hpc : t.pc ≠ .panicked) {k : Handle} {conn : Conn} (hconn : s.world.entry k = some conn)
    {sock : D.Tcp} (hsock : D.tcp s.world.actor.sockets k = some sock)
    (hfin : (D.state sock).FinReceived) :
    EndsInEof (t.world.chans conn.fromNet) ↔
      D.state sock = .closed ∨ (conn.connectReply = true ∧ D.isActive sock = false) := by
  rw [endsInEof_iff]
  obtain ⟨horder, hpass⟩ := service_pass hstep hpc
  obtain ⟨seams, htx⟩ := serviceSockets_dropped hD hr horder hpass hconn hsock
  exact htx.trans (visit_remove_iff hC k seams conn _ hfin)

/-- A FIN and a RST after it: the next pass signals the end. -/
theorem eof_signalled_closed : ∃ s t : System Deps.toy, Reachable s ∧
    Step s (.service [(1, [])]) t ∧ ∃ conn, s.world.entry 1 = some conn ∧
      EndsInEof (t.world.chans conn.fromNet) := by
  let labels : List Label :=
    [.connect ⟨.v4 1, 80⟩, .poll 0, .service [], .dns, .recv, .inbound [1, 0], .recv, .drained,
      .poll 1, .service [(1, [])], .dns, .inbound [1, 2], .recv, .inbound [1, 3], .recv, .drained,
      .poll 2]
  have hrun : ((System.init Deps.toy 1280 0 none).run labels).any (fun s =>
      (s.step (.service [(1, [])])).any (fun t => t.pc ≠ .panicked) ∧
      (s.world.entry 1).isSome ∧
      (Deps.toy.tcp s.world.actor.sockets 1).any fun sock => Deps.toy.state sock = .closed) =
      true := by
    decide +kernel
  obtain ⟨s, hs, hfacts⟩ := (Option.any_eq_true _ _).mp hrun
  have hreach : Reachable s := run_reachable labels (.init ⟨1280, 0, none, rfl⟩) hs
  obtain ⟨hstep, hentry, hsock⟩ := of_decide_eq_true hfacts
  obtain ⟨t, ht, hpc⟩ := (Option.any_eq_true _ _).mp hstep
  obtain ⟨conn, hconn⟩ := Option.isSome_iff_exists.mp hentry
  obtain ⟨sock, htcp, hclosed⟩ := (Option.any_eq_true _ _).mp hsock
  have hst : Deps.toy.state sock = .closed := of_decide_eq_true hclosed
  refine ⟨s, t, hreach, ht, conn, hconn, ?_⟩
  exact (eof_signalled_iff Deps.toy_socketSetLaws Deps.toy_closeLaws hreach ht
    (of_decide_eq_true hpc) hconn htcp (hst ▸ trivial)).mpr (.inl hst)

/-- A FIN alone: the socket is in `CloseWait` with nothing to read, and the pass leaves the
sender in place. -/
theorem fin_without_eof : ¬ ∀ (s t : System Deps.toy) (order : List (Handle × List Nat))
    (k : Handle) (conn : Conn) (sock : Deps.toy.Tcp), Reachable s → Step s (.service order) t →
    t.pc ≠ .panicked → s.world.entry k = some conn →
    Deps.toy.tcp s.world.actor.sockets k = some sock → (Deps.toy.state sock).FinReceived →
    Deps.toy.canRecv sock = false → EndsInEof (t.world.chans conn.fromNet) := by
  intro hsignals
  let labels : List Label :=
    [.connect ⟨.v4 1, 80⟩, .poll 0, .service [], .dns, .recv, .inbound [1, 0], .recv, .drained,
      .poll 1, .service [(1, [])], .dns, .inbound [1, 2], .recv, .drained, .poll 2]
  have hrun : ((System.init Deps.toy 1280 0 none).run labels).any (fun s =>
      (s.step (.service [(1, [])])).any (fun t =>
        t.pc ≠ .panicked ∧ (t.world.chans 0).tx = true) ∧
      (s.world.entry 1).any (fun conn => conn.fromNet = 0) ∧
      (Deps.toy.tcp s.world.actor.sockets 1).any fun sock =>
        Deps.toy.state sock = .closeWait ∧ Deps.toy.canRecv sock = false) = true := by
    decide +kernel
  obtain ⟨s, hs, hfacts⟩ := (Option.any_eq_true _ _).mp hrun
  have hreach : Reachable s := run_reachable labels (.init ⟨1280, 0, none, rfl⟩) hs
  obtain ⟨hstep, hentry, hsock⟩ := of_decide_eq_true hfacts
  obtain ⟨t, ht, hend⟩ := (Option.any_eq_true _ _).mp hstep
  obtain ⟨conn, hconn, hfrom⟩ := (Option.any_eq_true _ _).mp hentry
  obtain ⟨sock, htcp, hstate⟩ := (Option.any_eq_true _ _).mp hsock
  obtain ⟨hpc, htx⟩ := of_decide_eq_true hend
  obtain ⟨hst, hempty⟩ := of_decide_eq_true hstate
  have heof := hsignals s t _ 1 conn sock hreach ht hpc hconn htcp (hst ▸ trivial) hempty
  have hgone := heof.dropped
  rw [show conn.fromNet = 0 from of_decide_eq_true hfrom, htx] at hgone
  cases hgone

end

end WarpProxy.Netstack
