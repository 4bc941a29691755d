/-
# `WarpProxy.Netstack.Sent` — the outbound stream in the transmit buffer

What `Outbound` reads off the log the socket has in its transmit buffer: a visit
appends there what it takes from `out_buf`, and only a poll takes bytes away, from
the front.  What has left the buffer of each slot is recorded beside the system
(`Sending`).

    left, then the transmit buffer      is what the socket accepted   (`sending_lawful`)
    accepted, then `out_buf`            is what was sent              (`Outbound.stream`)
-/
import WarpProxy.Netstack.Sockets

namespace WarpProxy.Netstack

section
variable {D : Deps}

/-! ## The transmit buffer of a socket -/

/-- `sendBuf` is the transmit buffer: `send_slice` appends what it takes of the slice, a poll
takes from the front, and nothing else changes it. -/
structure Deps.SendLaws (D : Deps) (sendBuf : D.Tcp → List UInt8) : Prop where
  connected : ∀ iface rx tx remote port iface' sock,
    D.connect iface (D.newTcp rx tx) remote port = (iface', .ok sock) → sendBuf sock = []
  sendSlice : ∀ sock data n sock', D.sendSlice sock data = (some n, sock') →
    sendBuf sock' = sendBuf sock ++ data.take n
  sendFailed : ∀ sock data sock', D.sendSlice sock data = (none, sock') →
    sendBuf sock' = sendBuf sock
  recvSlice : ∀ sock size, sendBuf (D.recvSlice sock size).2 = sendBuf sock
  close : ∀ sock, sendBuf (D.close sock) = sendBuf sock
  polled : ∀ now iface device s h sock sock', D.tcp s h = some sock →
    D.tcp (D.poll now iface device s).2.2 h = some sock' → sendBuf sock' <:+ sendBuf sock

section
variable {sendBuf : D.Tcp → List UInt8}

/-- What the flush counts as accepted is what it has put into the transmit buffer. -/
theorem flush_sendBuf (hS : D.SendLaws sendBuf) (seams : List Nat) (sock : D.Tcp)
    (outBuf : List UInt8) : sendBuf (flush seams sock outBuf).sock =
      sendBuf sock ++ (flush seams sock outBuf).accepted := by
  induction seams, sock, outBuf using flush.induct with
  | case1 seams sock outBuf h head _ sock' hs =>
      rw [flush, if_pos h]
      simp only [head] at hs
      simp only [hs]
      rw [hS.sendSlice _ _ _ _ hs, List.take_zero]
  | case2 seams sock outBuf h head n _ sock' hs ih =>
      rw [flush, if_pos h]
      simp only [head] at hs
      simp only [hs, ih]
      rw [hS.sendSlice _ _ _ _ hs, List.append_assoc]
  | case3 seams sock outBuf h head sock' hs =>
      rw [flush, if_pos h]
      simp only [head] at hs
      simp only [hs, List.append_nil]
      exact hS.sendFailed _ _ _ hs
  | case4 seams sock outBuf h => rw [flush, if_neg h, List.append_nil]

theorem pump_sendBuf (hS : D.SendLaws sendBuf) (sock : D.Tcp) (chan : Chan) :
    sendBuf (pump sock chan).sock = sendBuf sock := by
  induction sock, chan using pump.induct with
  | case1 sock chan h hroom _ sock' hs | case3 sock chan h hroom sock' hs =>
      rw [pump, if_pos h, dif_pos hroom]
      simp only [hs]
      rw [← hS.recvSlice sock recvChunk, hs]
  | case2 sock chan h hroom b bs _ sock' hs ih =>
      rw [pump, if_pos h, dif_pos hroom]
      simp only [hs, ih]
      rw [← hS.recvSlice sock recvChunk, hs]
  | case4 sock chan h hroom => rw [pump, if_pos h, dif_neg hroom]
  | case5 sock chan h => rw [pump, if_neg h]

theorem visit_sendBuf (hS : D.SendLaws sendBuf) (h : Handle) (seams : List Nat) (sock : D.Tcp)
    (conn : Conn) (chan : Chan) : sendBuf (visit D h seams sock conn chan).sock =
      sendBuf sock ++ (visit D h seams sock conn chan).accepted := by
  have hpump := pump_sendBuf hS (flush seams sock conn.outBuf).sock chan
  rw [flush_sendBuf hS] at hpump
  refine Eq.trans ?_ hpump
  simp only [visit]
  split
  · exact hS.close _
  · rfl

end

/-! ## What has left it -/

theorem acceptedBy_visitsOnly : VisitsOnly acceptedBy where
  append := acceptedBy_append
  other h := (reads_other h).2.1
  sent _ _ _ _ := rfl
  closed _ _ _ := rfl
  replied _ _ _ := rfl

/-- What has left the transmit buffer of the slot: what it has lost from its front. -/
def sending (sendBuf : D.Tcp → List UInt8) : Books D (List UInt8) where
  read := acceptedBy
  fresh := []
  polled left sock sock' :=
    left ++ (sendBuf sock).take ((sendBuf sock).length - (sendBuf sock').length)
  Balanced left accepted sock := left ++ sendBuf sock = accepted

theorem sending_lawful {sendBuf : D.Tcp → List UInt8} (hS : D.SendLaws sendBuf) :
    (sending sendBuf).Lawful where
  visitsOnly := acceptedBy_visitsOnly
  connected := hS.connected
  visited h seams sock conn chan left accepted hb _ := by
    have hbooks : left ++ sendBuf sock = accepted := hb
    show left ++ sendBuf (Visit.sock _) = accepted ++ acceptedBy _ (Visit.events _ _)
    rw [(Visit.events_reads _ _).2.1, visit_sendBuf hS, ← hbooks, List.append_assoc]
  polled now iface device s h sock sock' left accepted hsock hsock' hb := by
    have hbooks : left ++ sendBuf sock = accepted := hb
    obtain ⟨gone, hgone⟩ := hS.polled _ _ _ _ _ _ _ hsock hsock'
    show left ++ (sendBuf sock).take _ ++ sendBuf sock' = accepted
    rw [← hbooks, ← hgone, List.length_append, Nat.add_sub_cancel, List.take_left,
      List.append_assoc]

/-- The system, and what has left the transmit buffer in each slot since its connect. -/
structure Sending (D : Deps) where
  sys : System D
  left : Handle → List UInt8

section
variable (sendBuf : D.Tcp → List UInt8)

def Sending.step (t : Sending D) (l : Label) : Option (Sending D) :=
  (t.sys.step l).map fun s =>
    { sys := s, left := fun h => (sending sendBuf).next l t.sys s h (t.left h) }

/-- `netstack::spawn`, with nothing sent. -/
def Sending.init (s : System D) : Sending D := ⟨s, fun _ => []⟩

abbrev Sending.Reachable (t : Sending D) : Prop :=
  Transition.Reachable (fun t l t' => Sending.step sendBuf t l = some t')
    (fun t => ∃ s, Init s ∧ t = .init s) t

/-- Every run of the system is traced. -/
theorem exists_sending {s : System D} (h : Netstack.Reachable s) :
    ∃ t : Sending D, t.sys = s ∧ t.Reachable sendBuf := by
  induction h with
  | init hs => exact ⟨.init _, rfl, .init ⟨_, hs, rfl⟩⟩
  | @tail s s' l _ hstep ih =>
      obtain ⟨t, rfl, ht⟩ := ih
      have hnext : Sending.step sendBuf t l =
          some ⟨s', fun h => (sending sendBuf).next l t.sys s' h (t.left h)⟩ := by
        rw [Sending.step, show t.sys.step l = some s' from hstep]
        rfl
      exact ⟨_, rfl, ht.tail hnext⟩

/-- What holds along the way. -/
structure Sending.Kept (t : Sending D) : Prop where
  sys : Netstack.Reachable t.sys
  books : (sending sendBuf).Balances t.left t.sys.world
  free : ∀ h, t.sys.world.entry h = none → t.left h = []

end

section
variable {live : D.Dns → D.Query → Prop} {sendBuf : D.Tcp → List UInt8}

theorem Sending.Kept.step (hD : D.SocketSetLaws) (hP : D.PollLaws) (hQ : D.DnsLaws live)
    (hS : D.SendLaws sendBuf) {t t' : Sending D} {l : Label} (h : t.step sendBuf l = some t')
    (hk : t.Kept sendBuf) : t'.Kept sendBuf := by
  rw [Sending.step, Option.map_eq_some_iff] at h
  obtain ⟨s', hstep, rfl⟩ := h
  have hin := ((hk.sys.runs hD hP hQ).world.sound hD hP hQ).inStep
  exact ⟨hk.sys.tail hstep, (sending_lawful hS).step hD hP hk.sys hin hk.free hstep hk.books,
    fun k hnone => if_pos hnone⟩

theorem Sending.Reachable.kept (hD : D.SocketSetLaws) (hP : D.PollLaws) (hQ : D.DnsLaws live)
    (hS : D.SendLaws sendBuf) {t : Sending D} (h : t.Reachable sendBuf) : t.Kept sendBuf := by
  refine Transition.Reachable.invariant (Sending.Kept sendBuf) h ?_
    fun t l t' hk hstep => hk.step hD hP hQ hS hstep
  rintro t ⟨s, hs, rfl⟩
  refine ⟨.init hs, fun k conn sock hconn => ?_, fun _ _ => rfl⟩
  rw [Sending.init, hs.entry] at hconn
  cases hconn

/-- In every reachable state the transmit buffer of an entry is the end of what its socket has
accepted. -/
theorem Reachable.sendBuf_suffix (hD : D.SocketSetLaws) (hP : D.PollLaws)
    (hQ : D.DnsLaws live) (hS : D.SendLaws sendBuf) {s : System D} (h : Reachable s) {k : Handle}
    {conn : Conn} {sock : D.Tcp} (hconn : s.world.entry k = some conn)
    (hsock : D.tcp s.world.actor.sockets k = some sock) :
    sendBuf sock <:+ acceptedBy conn.fromNet s.world.log := by
  obtain ⟨t, rfl, ht⟩ := exists_sending sendBuf h
  exact ⟨t.left k, (ht.kept hD hP hQ hS).books k conn sock hconn hsock⟩

/-- **Outbound byte stream integrity.**  Of every entry: what has left its transmit buffer, then
the buffer, is what its socket has accepted, and with `out_buf` behind it what the `Send`s
brought.  A visit moves bytes from the front of `out_buf` to the end of the transmit buffer, and
calls `close()` when `closing` is set and `out_buf` empty; and whenever it has been called, a
`Close` had been processed and everything sent until then had been accepted, in particular what
was sent before that `Close`. -/
theorem outbound_integrity (hD : D.SocketSetLaws) (hP : D.PollLaws) (hQ : D.DnsLaws live)
    (hS : D.SendLaws sendBuf) {t : Sending D} (h : t.Reachable sendBuf) :
    (∀ k conn, t.sys.world.entry k = some conn →
      ∃ sock, D.tcp t.sys.world.actor.sockets k = some sock ∧
        t.left k ++ sendBuf sock = acceptedBy conn.fromNet t.sys.world.log ∧
        acceptedBy conn.fromNet t.sys.world.log ++ conn.outBuf =
          sentTo conn.fromNet t.sys.world.log) ∧
    (∀ k seams sock conn chan,
      sendBuf (visit D k seams sock conn chan).sock ++
          (visit D k seams sock conn chan).conn.outBuf = sendBuf sock ++ conn.outBuf ∧
        ((visit D k seams sock conn chan).closes = true ↔
          conn.closing = true ∧ (visit D k seams sock conn chan).conn.outBuf = [])) ∧
    ∀ pre c post, t.sys.world.log = pre ++ .fin c :: post →
      CloseSent c pre ∧ acceptedBy c pre = sentTo c pre ∧
        ∀ pre₁ o pre₂, pre = pre₁ ++ .closed c o :: pre₂ →
          sentTo c pre₁ <+: acceptedBy c pre := by
  have hk := h.kept hD hP hQ hS
  have hw := hk.sys.outbound
  have hin := ((hk.sys.runs hD hP hQ).world.sound hD hP hQ).inStep
  refine ⟨fun k conn hconn => ?_, fun k seams sock conn chan => ⟨?_, visit_closes ..⟩,
    fun pre c post hlog => ?_⟩
  · obtain ⟨sock, hsock⟩ : ∃ sock, D.tcp t.sys.world.actor.sockets k = some sock :=
      Option.isSome_iff_exists.mp ((hin.tcp k).trans (by rw [hconn]; rfl))
    exact ⟨sock, hsock, hk.books k conn sock hconn hsock, hw.stream hconn⟩
  · rw [visit_sendBuf hS, List.append_assoc, visit_outBuf]
  · have hpre : pre ++ [.fin c] <+: t.sys.world.log :=
      ⟨post, by rw [hlog, List.append_assoc]; rfl⟩
    obtain ⟨hclose, hacc⟩ := hw.fins pre c hpre
    refine ⟨hclose, hacc, ?_⟩
    rintro pre₁ o pre₂ rfl
    rw [hacc, sentTo_append]
    exact List.prefix_append _ _

end

/-! ## The small netstack -/

theorem Toy.close_tx (sock : Toy.Tcp) : (Toy.close sock).tx = sock.tx := by
  cases hst : sock.state <;> simp only [Toy.close, hst]

theorem Deps.toy_sendLaws : Deps.toy.SendLaws Toy.Tcp.tx where
  connected iface rx tx remote port iface' sock h := by
    simp only [Deps.toy] at h
    split at h
    · cases h
    · cases h
      rfl
  sendSlice sock data n sock' h := by
    cases h
    rfl
  sendFailed sock data sock' h := by cases h
  recvSlice sock size := rfl
  close := Toy.close_tx
  polled now iface device s h sock sock' hs hs' :=
    ((Toy.get_delivers device.rx s h).grows hs hs').tx

/-- Five bytes sent, the last of them behind a `Close`: two are acknowledged, two in the transmit
buffer with the FIN behind them, and one waits. -/
theorem outbound_integrity_toy : ∃ t : Sending Deps.toy, t.left 1 = [1, 2] ∧
    (CloseSent 0 t.sys.world.log ∧ .fin 0 ∈ t.sys.world.log) ∧
    ∃ conn sock, t.sys.world.entry 1 = some conn ∧ conn.outBuf = [5] ∧
      Deps.toy.tcp t.sys.world.actor.sockets 1 = some sock ∧
      [1, 2] ++ Toy.Tcp.tx sock ++ [5] = [1, 2, 3, 4, 5] := by
  let labels : List Label :=
    [.connect ⟨.v4 1, 80⟩, .poll 0, .service [], .dns, .recv, .inbound [1, 0], .recv, .drained,
      .poll 1, .service [(1, [])], .dns, .connected 0, .send 0 [1, 2, 3], .recv, .drained, .poll 2,
      .service [(1, [2])], .dns, .inbound [1, 4, 0, 0], .send 0 [4], .close 0, .recv, .recv, .recv,
      .drained, .poll 3, .service [(1, [])], .dns, .send 0 [5], .recv]
  have hrun : (Transition.exec (Sending.step Toy.Tcp.tx) (fun _ _ => true)
      (Sending.init (System.init Deps.toy 1280 0 none)) labels).any (fun t =>
        t.left 1 = [1, 2] ∧ .fin 0 ∈ t.sys.world.log ∧
        sentTo 0 t.sys.world.log = [1, 2, 3, 4, 5] ∧ (t.sys.world.entry 1).any (fun conn =>
          conn.fromNet = 0 ∧ conn.outBuf = [5])) = true := by
    decide +kernel
  obtain ⟨t, ht, hfacts⟩ := (Option.any_eq_true _ _).mp hrun
  obtain ⟨hleft, hfin, hsent, hentry⟩ := of_decide_eq_true hfacts
  obtain ⟨conn, hconn, hstate⟩ := (Option.any_eq_true _ _).mp hentry
  obtain ⟨hfrom, hbuf⟩ := of_decide_eq_true hstate
  have hguarded : Transition.Reachable (Transition.guarded
      (fun t l t' => Sending.step Toy.Tcp.tx t l = some t') fun _ _ => True)
      (fun t => ∃ s, Init s ∧ t = .init s) t :=
    Transition.Reachable.exec (fun _ _ _ h => h) (fun _ _ _ _ => trivial) labels
      (.init ⟨_, ⟨1280, 0, none, rfl⟩, rfl⟩) ht
  have hr : t.Reachable Toy.Tcp.tx := hguarded.unguarded
  obtain ⟨hentries, -, hfins⟩ := outbound_integrity Deps.toy_socketSetLaws Deps.toy_pollLaws
    Deps.toy_dnsLaws Deps.toy_sendLaws hr
  obtain ⟨sock, hsock, hleaves, hstream⟩ := hentries 1 conn hconn
  obtain ⟨pre, post, hlog⟩ := List.append_of_mem hfin
  have hclose : CloseSent 0 t.sys.world.log := by
    rw [hlog]
    exact (closeSent_append ..).mpr (.inl (hfins pre 0 post hlog).1)
  rw [← hleaves, hleft, hbuf, hfrom, hsent] at hstream
  exact ⟨t, hleft, ⟨hclose, hfin⟩, conn, sock, hconn, hbuf, hsock, hstream⟩

end

end WarpProxy.Netstack
