/-
# `WarpProxy.Netstack.Runs` — invariants of whole runs

What a step can do is said once, as a relation with a constructor for each way
it can go (`ActorStep`, `AsyncStep`).  A step of the system changes the actor's
world in one of three ways: not as far as connections go, by a pass over the
sockets, or by the command at the head of the queue (`stepActor_cases`); a step
of the async side leaves it the entries (`stepAsync_cases`).  A connect is given
its number when it is called and its command is handled once, so nothing has
happened under that number before (`Ids`).

    kept by a turn of the loop and by a command  ⟹  holds in every reachable state
                                                     (`Reachable.world_invariant`)
-/
import WarpProxy.Netstack.Spec

namespace WarpProxy.Netstack

section
variable {D : Deps}

/-- The worlds agree on the entries, on what has happened, and on the counters. -/
structure SameConns (w w' : World D) : Prop where
  entry : w'.entry = w.entry
  log : w'.log = w.log
  nextPort : w'.actor.nextPort = w.actor.nextPort
  connects : w'.connects = w.connects

theorem Untouched.sameConns {w w' : World D} (h : Untouched w w') : SameConns w w' :=
  ⟨h.entry, h.log, h.nextPort, h.connects⟩

theorem SameConns.refl (w : World D) : SameConns w w := ⟨rfl, rfl, rfl, rfl⟩

/-! ## One step -/

/-- The connect has returned a `TcpConn`, and something is left of it. -/
def Endpoint.Held : Endpoint → Prop
  | .conn _ | .split _ _ => True
  | _ => False

/-- What a step of the async side, other than the call of a connect, makes of the endpoint
of `c`, and the commands it sends. -/
inductive Moved (s : System D) : Label → ConnId → Endpoint → List Cmd → Prop
  | still (l : Label) (c : ConnId) {cmds : List Cmd} :
      (∀ cmd ∈ cmds, cmd.target = none ∧ cmd.connId = none) →
      Moved s l c (s.endpoints c) cmds
  | connected {c : ConnId} {h : Handle} : s.endpoints c = .awaiting →
      (s.world.replies c).value = some (.ok h) → Moved s (.connected c) c (.conn ⟨h, [], 0⟩) []
  | failed {c : ConnId} : s.endpoints c = .awaiting →
      (∃ e, (s.world.replies c).value = some (.error e)) ∨
        ((s.world.replies c).value = none ∧ (s.world.replies c).tx = false) →
      Moved s (.failed c) c .none []
  | cancel {c : ConnId} : s.endpoints c = .awaiting → Moved s (.cancel c) c .none []
  | send {c : ConnId} {h : Handle} (data : List UInt8) : (s.endpoints c).handle = some h →
      Moved s (.send c data) c (s.endpoints c) [.send h data c]
  | close {c : ConnId} {h : Handle} : (s.endpoints c).handle = some h →
      Moved s (.close c) c (s.endpoints c) [.close h c]
  /-- a split, a read, the drop of a reader -/
  | keeps (l : Label) {c : ConnId} {e : Endpoint} : (s.endpoints c).Held → e.Held →
      e.handle = (s.endpoints c).handle → Moved s l c e []
  | dropConn {c : ConnId} {tcp : TcpConn} : s.endpoints c = .conn tcp →
      Moved s (.dropConn c) c .none []
  | dropWriter {c : ConnId} {reader : Bool} {h : Handle} :
      s.endpoints c = .split reader (some h) →
      Moved s (.dropWriter c) c (.split reader none) [.close h c]

/-- The rest of such a step: the actor's tables stay, its ends of the channels too, and a
oneshot loses its receiver only with the endpoint that awaited it. -/
structure Beside (s t : System D) (c : ConnId) (e : Endpoint) (cmds : List Cmd) : Prop where
  endpoints : t.endpoints = Function.update s.endpoints c e
  queue : t.queue = s.queue ++ cmds
  nextConn : t.nextConn = s.nextConn
  same : SameConns s.world t.world
  chan_tx : ∀ k, (t.world.chans k).tx = (s.world.chans k).tx
  value : ∀ k, (t.world.replies k).value = (s.world.replies k).value
  reply_tx : ∀ k, (t.world.replies k).tx = (s.world.replies k).tx
  reply_rx : ∀ k, t.endpoints k = .awaiting →
    (t.world.replies k).rx = (s.world.replies k).rx

/-- The call of a connect. -/
def System.opened (s : System D) (remote : SocketAddr) : System D :=
  ({ s with world := s.world.openConn s.nextConn, nextConn := s.nextConn + 1 }.setEndpoint
    s.nextConn .awaiting).enqueue (.connect remote s.nextConn)

theorem opened_same (s : System D) (remote : SocketAddr) :
    SameConns s.world (s.opened remote).world :=
  ⟨rfl, rfl, rfl, rfl⟩

theorem recv_tx (ch : Chan) : ch.recv.2.tx = ch.tx := by
  obtain ⟨queue, tx, rx⟩ := ch
  cases queue with
  | nil => cases tx <;> rfl
  | cons v queue => rfl

theorem pollRead_handle (conn : TcpConn) (ch : Chan) (n : Nat) :
    (conn.pollRead ch n).2.1.handle = conn.handle ∧ (conn.pollRead ch n).2.2.tx = ch.tx := by
  have htx := recv_tx ch
  simp only [TcpConn.pollRead]
  split
  · split
    · next hrecv => rw [hrecv] at htx; exact ⟨rfl, htx⟩
    · next hrecv => rw [hrecv] at htx; exact ⟨rfl, htx⟩
    · next hrecv => rw [hrecv] at htx; exact ⟨rfl, htx⟩
  · exact ⟨rfl, rfl⟩

section
variable (s : System D) (c : ConnId)

/-- Nothing but the endpoint of `c` changes. -/
theorem beside_setEndpoint (e : Endpoint) : Beside s (s.setEndpoint c e) c e [] :=
  ⟨rfl, (List.append_nil _).symm, rfl, .refl _, fun _ => rfl, fun _ => rfl, fun _ => rfl,
    fun _ _ => rfl⟩

/-- And a command is sent. -/
theorem beside_enqueue (e : Endpoint) (cmd : Cmd) :
    Beside s ((s.setEndpoint c e).enqueue cmd) c e [cmd] :=
  ⟨rfl, rfl, rfl, .refl _, fun _ => rfl, fun _ => rfl, fun _ => rfl, fun _ _ => rfl⟩

theorem beside_self (cmds : List Cmd) :
    Beside s { s with queue := s.queue ++ cmds } c (s.endpoints c) cmds where
  endpoints := (Function.update_eq_self c _).symm
  queue := rfl
  nextConn := rfl
  same := .refl _
  chan_tx _ := rfl
  value _ := rfl
  reply_tx _ := rfl
  reply_rx _ _ := rfl

/-- The endpoint of `c` changes, and its channel without its sender. -/
theorem beside_chan {e : Endpoint} {ch : Chan} (hch : ch.tx = (s.world.chans c).tx) :
    Beside s ({ s with world := { s.world with
      chans := Function.update s.world.chans c ch } }.setEndpoint c e) c e [] where
  endpoints := rfl
  queue := (List.append_nil _).symm
  nextConn := rfl
  same := ⟨rfl, rfl, rfl, rfl⟩
  chan_tx := update_part Chan.tx hch
  value _ := rfl
  reply_tx _ := rfl
  reply_rx _ _ := rfl

/-- The endpoint of `c` stops awaiting, and the receiver of its oneshot goes. -/
theorem beside_awaited {e : Endpoint} (he : e ≠ .awaiting) :
    Beside s ({ s with world := s.world.dropReplyRx c }.setEndpoint c e) c e [] where
  endpoints := rfl
  queue := (List.append_nil _).symm
  nextConn := rfl
  same := ⟨rfl, rfl, rfl, rfl⟩
  chan_tx _ := rfl
  value := update_part Oneshot.value rfl
  reply_tx := update_part Oneshot.tx rfl
  reply_rx k hk := by
    show (Function.update s.world.replies c _ k).rx = _
    have hkc : k ≠ c := by
      rintro rfl
      have hself : Function.update s.endpoints k e k = .awaiting := hk
      exact he ((Function.update_self ..).symm.trans hself)
    rw [Function.update_of_ne hkc]

end

/-- With the receiver of the channel too. -/
theorem Beside.dropChanRx {s t : System D} {c : ConnId} {e : Endpoint} {cmds : List Cmd}
    (h : Beside s t c e cmds) (k : ConnId) :
    Beside s { t with world := t.world.dropChanRx k } c e cmds where
  endpoints := h.endpoints
  queue := h.queue
  nextConn := h.nextConn
  same := ⟨h.same.entry, h.same.log, h.same.nextPort, h.same.connects⟩
  chan_tx j := by
    rw [← h.chan_tx j]
    refine update_part Chan.tx ?_ j
    rfl
  value := h.value
  reply_tx := h.reply_tx
  reply_rx := h.reply_rx

/-- The future of the connect goes, with both receivers. -/
theorem beside_abandoned (s : System D) (c : ConnId) :
    Beside s ({ s with world := (s.world.dropReplyRx c).dropChanRx c }.setEndpoint c .none) c
      .none [] :=
  (beside_awaited s c (e := .none) Endpoint.noConfusion).dropChanRx c

/-- What a step of the async side can do, and when. -/
inductive AsyncStep (s : System D) : Label → System D → Prop
  | inbound (pkt : List UInt8) : AsyncStep s (.inbound pkt) (s.enqueue (.inbound pkt))
  | connect (remote : SocketAddr) : AsyncStep s (.connect remote) (s.opened remote)
  | connected {c : ConnId} {h : Handle} : s.endpoints c = .awaiting →
      (s.world.replies c).value = some (.ok h) →
      AsyncStep s (.connected c)
        ({ s with world := s.world.dropReplyRx c }.setEndpoint c (.conn ⟨h, [], 0⟩))
  | failed {c : ConnId} : s.endpoints c = .awaiting →
      (∃ e, (s.world.replies c).value = some (.error e)) ∨
        ((s.world.replies c).value = none ∧ (s.world.replies c).tx = false) →
      AsyncStep s (.failed c)
        ({ s with world := (s.world.dropReplyRx c).dropChanRx c }.setEndpoint c .none)
  | cancel {c : ConnId} : s.endpoints c = .awaiting →
      AsyncStep s (.cancel c)
        ({ s with world := (s.world.dropReplyRx c).dropChanRx c }.setEndpoint c .none)
  | send {c : ConnId} {h : Handle} (data : List UInt8) : (s.endpoints c).handle = some h →
      AsyncStep s (.send c data) (s.enqueue (.send h data c))
  | close {c : ConnId} {h : Handle} : (s.endpoints c).handle = some h →
      AsyncStep s (.close c) (s.enqueue (.close h c))
  | split {c : ConnId} {tcp : TcpConn} : s.endpoints c = .conn tcp →
      AsyncStep s (.split c) (s.setEndpoint c (.split true (some tcp.handle)))
  | read (c : ConnId) :
      AsyncStep s (.read c) { s with world := { s.world with
        chans := Function.update s.world.chans c (s.world.chans c).recv.2 } }
  | pollRead {c : ConnId} {tcp : TcpConn} (n : Nat) : s.endpoints c = .conn tcp →
      AsyncStep s (.pollRead c n) ({ s with world := { s.world with
        chans := Function.update s.world.chans c (tcp.pollRead (s.world.chans c) n).2.2 } }
          |>.setEndpoint c (.conn (tcp.pollRead (s.world.chans c) n).2.1))
  | dropConn {c : ConnId} {tcp : TcpConn} : s.endpoints c = .conn tcp →
      AsyncStep s (.dropConn c) ({ s with world := s.world.dropChanRx c }.setEndpoint c .none)
  | dropReader {c : ConnId} {writer : Option Handle} : s.endpoints c = .split true writer →
      AsyncStep s (.dropReader c)
        ({ s with world := s.world.dropChanRx c }.setEndpoint c (.split false writer))
  | dropWriter {c : ConnId} {reader : Bool} {h : Handle} :
      s.endpoints c = .split reader (some h) →
      AsyncStep s (.dropWriter c) ((s.setEndpoint c (.split reader none)).enqueue (.close h c))
  | resolve (name : String) :
      AsyncStep s (.resolve name) ({ s with
        world := { s.world with
          answers := Function.update s.world.answers s.nextResolve .new }
        resolvers := Function.update s.resolvers s.nextResolve true
        nextResolve := s.nextResolve + 1 }.enqueue (.resolve name s.nextResolve))
  | resolved {r : ResolveId} : s.resolvers r = true →
      AsyncStep s (.resolved r) { s with
        world := { s.world with
          answers := Function.update s.world.answers r { s.world.answers r with rx := false } }
        resolvers := Function.update s.resolvers r false }

theorem AsyncStep.of_eq {s t : System D} {l : Label} (h : s.stepAsync l = some t) :
    AsyncStep s l t := by
  cases l with
  | inbound | connect | resolve =>
      cases h
      constructor
  | connected c | send c data | close c | split c | pollRead c n | dropConn c | dropReader c
  | dropWriter c =>
      simp only [System.stepAsync] at h
      split at h
      · cases h
        constructor <;> assumption
      · cases h
  | cancel c | resolved r =>
      simp only [System.stepAsync] at h
      split at h
      · next hc =>
          cases h
          constructor
          exact hc
      · cases h
  | failed c =>
      simp only [System.stepAsync] at h
      split at h
      · next e hawait hvalue =>
          cases h
          exact .failed hawait (.inl ⟨e, hvalue⟩)
      · next hawait hvalue =>
          split at h
          · cases h
          · next htx =>
              cases h
              exact .failed hawait (.inr ⟨hvalue, Bool.eq_false_iff.mpr htx⟩)
      · cases h
  | read c =>
      simp only [System.stepAsync] at h
      split at h
      · cases h
        exact .read c
      · cases h
        exact .read c
      · cases h
  | _ => cases h

/-- A step of the async side is the call of a connect, or moves one endpoint. -/
theorem stepAsync_cases {s t : System D} {l : Label} (h : s.stepAsync l = some t) :
    (∃ remote, l = .connect remote ∧ t = s.opened remote) ∨
      ∃ c e cmds, Moved s l c e cmds ∧ Beside s t c e cmds := by
  cases AsyncStep.of_eq h with
  | connect remote => exact .inl ⟨remote, rfl, rfl⟩
  | inbound pkt =>
      refine .inr ⟨0, _, [.inbound pkt], .still _ _ fun cmd hcmd => ?_, beside_self s 0 _⟩
      rw [List.mem_singleton.mp hcmd]
      exact ⟨rfl, rfl⟩
  | resolve name =>
      refine .inr ⟨0, _, [.resolve name s.nextResolve], .still _ _ fun cmd hcmd => ?_,
        ⟨(Function.update_eq_self 0 _).symm, rfl, rfl, ⟨rfl, rfl, rfl, rfl⟩, fun _ => rfl,
          fun _ => rfl, fun _ => rfl, fun _ _ => rfl⟩⟩
      rw [List.mem_singleton.mp hcmd]
      exact ⟨rfl, rfl⟩
  | resolved =>
      exact .inr ⟨0, _, [], .still _ _ fun cmd hcmd => absurd hcmd List.not_mem_nil,
        ⟨(Function.update_eq_self 0 _).symm, (List.append_nil _).symm, rfl,
          ⟨rfl, rfl, rfl, rfl⟩, fun _ => rfl, fun _ => rfl, fun _ => rfl, fun _ _ => rfl⟩⟩
  | @connected c _ hawait hvalue =>
      exact .inr ⟨c, _, [], .connected hawait hvalue, beside_awaited s c Endpoint.noConfusion⟩
  | @failed c hawait hvalue =>
      exact .inr ⟨c, .none, [], .failed hawait hvalue, beside_abandoned s c⟩
  | @cancel c hawait =>
      exact .inr ⟨c, .none, [], .cancel hawait, beside_abandoned s c⟩
  | @send c _ data hh => exact .inr ⟨c, _, _, .send data hh, beside_self s c _⟩
  | @close c _ hh => exact .inr ⟨c, _, _, .close hh, beside_self s c _⟩
  | @split c tcp hc =>
      exact .inr ⟨c, .split true (some tcp.handle), [],
        .keeps _ (by rw [hc]; trivial) trivial (by rw [hc]; rfl), beside_setEndpoint s c _⟩
  | read c =>
      have hchan := beside_chan s c (e := s.endpoints c) (recv_tx (s.world.chans c))
      rw [System.setEndpoint, Function.update_eq_self] at hchan
      exact .inr ⟨c, _, [], .still _ _ fun cmd hcmd => absurd hcmd List.not_mem_nil, hchan⟩
  | @pollRead c tcp n hc =>
      obtain ⟨hhandle, htx⟩ := pollRead_handle tcp (s.world.chans c) n
      exact .inr ⟨c, .conn _, [], .keeps _ (by rw [hc]; trivial) trivial
        (by rw [hc]; exact congrArg some hhandle), beside_chan s c htx⟩
  | @dropConn c _ hc =>
      exact .inr ⟨c, .none, [], .dropConn hc, (beside_setEndpoint s c .none).dropChanRx c⟩
  | @dropReader c writer hc =>
      exact .inr ⟨c, .split false writer, [],
        .keeps _ (by rw [hc]; trivial) trivial (by rw [hc]; rfl),
        (beside_setEndpoint s c _).dropChanRx c⟩
  | @dropWriter c _ _ hc => exact .inr ⟨c, _, _, .dropWriter hc, beside_enqueue s c _ _⟩

/-- What a step of the actor can do, and when. -/
inductive ActorStep (s : System D) : Label → System D → Prop
  | poll (now : Int) : s.pc = .polling →
      ActorStep s (.poll now) (s.resume .servicing (s.world.poll now))
  | service {order : List (Handle × List Nat)} : s.pc = .servicing →
      (order.map Prod.fst).Perm s.world.actor.conns.keys →
      ActorStep s (.service order) (s.resume .resolving (s.world.serviceSockets order))
  | dns : s.pc = .resolving → ActorStep s .dns (s.resume .receiving s.world.serviceDns)
  | timeout : s.pc = .receiving → s.queue = [] → ActorStep s .timeout { s with pc := .polling }
  | recv {cmd : Cmd} {queue : List Cmd} : s.queue = cmd :: queue →
      s.pc = .receiving ∨ s.pc = .draining →
      ActorStep s .recv ({ s with queue := queue }.resume .draining (s.world.handleCmd cmd))
  | drained : s.pc = .draining → s.queue = [] → ActorStep s .drained { s with pc := .polling }

theorem ActorStep.of_eq {s t : System D} {l : Label} (h : s.stepActor l = some t) :
    ActorStep s l t := by
  cases l with
  | poll now =>
      simp only [System.stepActor] at h
      split at h
      · next hpc =>
          cases h
          exact .poll now hpc
      · cases h
  | dns =>
      simp only [System.stepActor] at h
      split at h
      · next hpc =>
          cases h
          exact .dns hpc
      · cases h
  | service | timeout | drained =>
      simp only [System.stepActor] at h
      split at h
      · next hpc =>
          cases h
          constructor
          · exact hpc.1
          · exact hpc.2
      · cases h
  | recv =>
      simp only [System.stepActor] at h
      split at h
      · next cmd queue hq =>
          split at h
          · next hpc =>
              cases h
              exact .recv hq hpc
          · cases h
      · cases h
  | _ => cases h

/-- The actor takes the command at the head of the queue, and handles it or panics. -/
theorem stepActor_recv {s t : System D} (h : s.stepActor .recv = some t) :
    t.endpoints = s.endpoints ∧ t.nextConn = s.nextConn ∧ ∃ cmd, s.queue = cmd :: t.queue ∧
      ((s.world.handleCmd cmd = none ∧ t.world = s.world) ∨
        s.world.handleCmd cmd = some t.world) := by
  cases ActorStep.of_eq h with
  | @recv cmd _ hq _ =>
      cases hw : s.world.handleCmd cmd with
      | none => exact ⟨rfl, rfl, cmd, hq, .inl ⟨hw, rfl⟩⟩
      | some w => exact ⟨rfl, rfl, cmd, hq, .inr hw⟩

/-- A step of the actor: nothing to the connections, a pass, or the command at the head of
the queue, which may panic. -/
theorem stepActor_cases {s t : System D} {l : Label} (h : s.stepActor l = some t) :
    t.endpoints = s.endpoints ∧ t.nextConn = s.nextConn ∧
      ((Untouched s.world t.world ∧ t.queue = s.queue) ∨
        (∃ order, t.queue = s.queue ∧ (order.map Prod.fst).Perm s.world.actor.conns.keys ∧
          s.world.serviceSockets order = some t.world) ∨
        ∃ cmd, l = .recv ∧ s.queue = cmd :: t.queue ∧
          ((s.world.handleCmd cmd = none ∧ t.world = s.world) ∨
            s.world.handleCmd cmd = some t.world)) := by
  have same : Untouched s.world s.world := .refl _
  cases ActorStep.of_eq h with
  | poll now => exact ⟨rfl, rfl, .inl ⟨poll_untouched s.world now, rfl⟩⟩
  | @service order _ hperm =>
      cases hw : s.world.serviceSockets order with
      | none => exact ⟨rfl, rfl, .inl ⟨same, rfl⟩⟩
      | some w => exact ⟨rfl, rfl, .inr (.inl ⟨order, rfl, hperm, hw⟩)⟩
  | dns =>
      cases hw : s.world.serviceDns with
      | none => exact ⟨rfl, rfl, .inl ⟨same, rfl⟩⟩
      | some w => exact ⟨rfl, rfl, .inl ⟨serviceDns_untouched hw, rfl⟩⟩
  | recv =>
      obtain ⟨hends, hnext, cmd, hq, hw⟩ := stepActor_recv h
      exact ⟨hends, hnext, .inr (.inr ⟨cmd, rfl, hq, hw⟩)⟩
  | timeout | drained => exact ⟨rfl, rfl, .inl ⟨same, rfl⟩⟩

/-- The labels of an executed run. -/
theorem run_reachable (ls : List Label) {s t : System D} (hs : Reachable s)
    (h : s.run ls = some t) : Reachable t := by
  induction ls generalizing s with
  | nil =>
      rw [System.run, Option.some.injEq] at h
      exact h ▸ hs
  | cons l ls ih =>
      rw [System.run] at h
      split at h
      · next s' hstep => exact ih (hs.tail hstep) h
      · cases h

/-! ## Connects are numbered once -/

/-- Nothing has happened under the number `c`. -/
def World.Unborn (w : World D) (c : ConnId) : Prop :=
  (∀ e ∈ w.log, e.conn ≠ c) ∧ ∀ h conn, w.entry h = some conn → conn.fromNet ≠ c

theorem SameConns.unborn {w w' : World D} (h : SameConns w w') {c : ConnId}
    (hc : w.Unborn c) : w'.Unborn c := by
  rw [World.Unborn, h.entry, h.log]
  exact hc

theorem Serviced.unborn {w w' : World D} {h : Handle} {v : Visit D} (hs : Serviced w w' h v)
    {conn : Conn} (hconn : w.entry h = some conn) (hv : v.conn.fromNet = conn.fromNet)
    {c : ConnId} (hc : w.Unborn c) : w'.Unborn c := by
  have hne : v.conn.fromNet ≠ c := hv ▸ hc.2 h conn hconn
  constructor
  · intro e he
    rw [hs.log] at he
    rcases List.mem_append.mp he with he | he
    · exact hc.1 e he
    · rw [v.events_conn _ e he]
      exact hne
  · intro k conn' hk
    by_cases hkh : k = h
    · subst hkh
      rw [hs.entry_self] at hk
      split at hk
      · cases hk
      · rw [← Option.some.inj hk]
        exact hne
    · rw [hs.entry_ne k hkh] at hk
      exact hc.2 k conn' hk

theorem serviceSockets_unborn {w w' : World D} {order : List (Handle × List Nat)} {c : ConnId}
    (hc : w.Unborn c) (hw : w.serviceSockets order = some w') : w'.Unborn c := by
  refine serviceSockets_invariant (World.Unborn · c) order ?_ hc hw
  intro w h seams w' _ hc hturn
  obtain ⟨sock, conn, -, hconn, hs⟩ := serviceSocket_cases hturn
  exact hs.unborn hconn rfl hc

theorem Wrote.unborn {w w' : World D} {h : Handle} {conn conn' : Conn} {e : Event}
    (hw : Wrote w w' h conn' e) (hconn : w.entry h = some conn)
    (hfrom : conn'.fromNet = conn.fromNet) (he : e.conn = conn.fromNet) {c : ConnId}
    (hc : w.Unborn c) : w'.Unborn c := by
  have hne : conn.fromNet ≠ c := hc.2 h conn hconn
  constructor
  · intro e' he'
    rw [hw.log] at he'
    rcases List.mem_append.mp he' with he' | he'
    · exact hc.1 e' he'
    · rw [List.mem_singleton.mp he', he]
      exact hne
  · intro k conn'' hk
    by_cases hkh : k = h
    · subst hkh
      rw [hw.entry_self] at hk
      rw [← Option.some.inj hk, hfrom]
      exact hne
    · rw [hw.entry_ne k hkh] at hk
      exact hc.2 k conn'' hk

theorem Inserted.unborn {w w' : World D} {remote : SocketAddr} {c c' : ConnId}
    (hi : Inserted w w' remote c') (hne : c' ≠ c) (hc : w.Unborn c) : w'.Unborn c := by
  constructor
  · rw [hi.log]; exact hc.1
  · intro k conn hk
    rcases hi.entry_cases hk with ⟨-, rfl⟩ | ⟨-, hold⟩
    · exact hne
    · exact hc.2 k conn hold

theorem Rejected.unborn {w w' : World D} {c c' : ConnId} (hr : Rejected w w' c') (hne : c' ≠ c)
    (hc : w.Unborn c) : w'.Unborn c := by
  constructor
  · intro e he
    rw [hr.log] at he
    rcases List.mem_append.mp he with he | he
    · exact hc.1 e he
    · rw [List.mem_singleton.mp he]
      exact hne
  · rw [hr.entry]; exact hc.2

theorem Handled.unborn {w w' : World D} {cmd : Cmd} {c : ConnId} (hw : Handled w w' cmd)
    (hcmd : cmd.connId ≠ some c) (hc : w.Unborn c) : w'.Unborn c := by
  cases hw with
  | untouched _ hw _ => exact hw.sameConns.unborn hc
  | inserted _ hi => exact hi.unborn (fun h => hcmd (congrArg some h)) hc
  | rejected _ hr => exact hr.unborn (fun h => hcmd (congrArg some h)) hc
  | sent hconn hw | closed hconn hw => exact hw.unborn hconn rfl rfl hc

/-- Numbers not given out yet, and numbers of connects still in the queue, are unborn; no
two connects in the queue have the same. -/
structure Ids (s : System D) : Prop where
  unborn : ∀ c, s.nextConn ≤ c → s.world.Unborn c
  queued : ∀ c, c ∈ s.queue.filterMap Cmd.connId → c < s.nextConn ∧ s.world.Unborn c
  nodup : (s.queue.filterMap Cmd.connId).Nodup

theorem Moved.connIds {s : System D} {l : Label} {c : ConnId} {e : Endpoint} {cmds : List Cmd}
    (h : Moved s l c e cmds) : cmds.filterMap Cmd.connId = [] := by
  cases h with
  | still _ _ hcmds => exact List.filterMap_eq_nil_iff.mpr fun cmd hcmd => (hcmds cmd hcmd).2
  | _ => rfl

theorem SameConns.ids {s t : System D} (hs : SameConns s.world t.world)
    (hnext : t.nextConn = s.nextConn)
    (hq : t.queue.filterMap Cmd.connId = s.queue.filterMap Cmd.connId) (hi : Ids s) : Ids t := by
  constructor
  · exact fun c hc => hs.unborn (hi.unborn c (hnext ▸ hc))
  · intro c hc
    obtain ⟨hlt, hun⟩ := hi.queued c (hq ▸ hc)
    exact ⟨hnext ▸ hlt, hs.unborn hun⟩
  · exact hq ▸ hi.nodup

theorem opened_ids {s : System D} (remote : SocketAddr) (hi : Ids s) : Ids (s.opened remote) := by
  have hsame := opened_same s remote
  have hq : (s.opened remote).queue.filterMap Cmd.connId =
      s.queue.filterMap Cmd.connId ++ [s.nextConn] := List.filterMap_append ..
  constructor
  · exact fun c hc => hsame.unborn (hi.unborn c (Nat.le_of_succ_le hc))
  · intro c hc
    rw [hq] at hc
    rcases List.mem_append.mp hc with hc | hc
    · obtain ⟨hlt, hun⟩ := hi.queued c hc
      exact ⟨Nat.lt_succ_of_lt hlt, hsame.unborn hun⟩
    · rw [List.mem_singleton.mp hc]
      exact ⟨Nat.lt_succ_self _, hsame.unborn (hi.unborn _ (Nat.le_refl _))⟩
  · rw [hq]
    refine List.nodup_append.mpr ⟨hi.nodup, List.nodup_singleton _, ?_⟩
    rintro c hc _ hc' rfl
    rw [List.mem_singleton.mp hc'] at hc
    exact Nat.lt_irrefl _ (hi.queued _ hc).1

theorem stepAsync_ids {s t : System D} {l : Label} (h : s.stepAsync l = some t) (hi : Ids s) :
    Ids t := by
  rcases stepAsync_cases h with ⟨remote, -, rfl⟩ | ⟨c, e, cmds, hm, hb⟩
  · exact opened_ids remote hi
  · refine hb.same.ids hb.nextConn ?_ hi
    rw [hb.queue, List.filterMap_append, hm.connIds, List.append_nil]

/-- The head of the queue is taken off, and its number if it is a connect. -/
theorem handled_ids {s t : System D} {cmd : Cmd} (hq : s.queue = cmd :: t.queue)
    (hnext : t.nextConn = s.nextConn)
    (hkeep : ∀ c, cmd.connId ≠ some c → s.world.Unborn c → t.world.Unborn c)
    (hi : Ids s) : Ids t := by
  have hsplit : s.queue.filterMap Cmd.connId =
      [cmd].filterMap Cmd.connId ++ t.queue.filterMap Cmd.connId := by
    rw [hq, ← List.singleton_append, List.filterMap_append]
  have hmem : ∀ c, cmd.connId = some c → c ∈ [cmd].filterMap Cmd.connId := fun c hc =>
    List.mem_filterMap.mpr ⟨cmd, List.mem_singleton_self cmd, hc⟩
  have hnd := hi.nodup
  rw [hsplit] at hnd
  obtain ⟨-, hnd, hdisj⟩ := List.nodup_append.mp hnd
  refine ⟨fun c hc => hkeep c (fun hcmd => ?_) (hi.unborn c (hnext ▸ hc)), fun c hc => ?_, hnd⟩
  · have hlt := (hi.queued c (hsplit ▸ List.mem_append_left _ (hmem c hcmd))).1
    exact absurd (hnext ▸ hc) (Nat.not_le_of_lt hlt)
  · obtain ⟨hlt, hun⟩ := hi.queued c (hsplit ▸ List.mem_append_right _ hc)
    exact ⟨hnext ▸ hlt, hkeep c (fun hcmd => hdisj c (hmem c hcmd) c hc rfl) hun⟩

theorem stepActor_ids {s t : System D} {l : Label} (h : s.stepActor l = some t) (hi : Ids s) :
    Ids t := by
  obtain ⟨-, hnext, hcases⟩ := stepActor_cases h
  rcases hcases with ⟨hsame, hq⟩ | ⟨order, hq, -, hw⟩ | ⟨cmd, -, hq, ⟨-, hw⟩ | hw⟩
  · exact hsame.sameConns.ids hnext (by rw [hq]) hi
  · refine ⟨fun c hc => serviceSockets_unborn (hi.unborn c (hnext ▸ hc)) hw, fun c hc => ?_, ?_⟩
    · rw [hq] at hc
      exact ⟨hnext ▸ (hi.queued c hc).1, serviceSockets_unborn (hi.queued c hc).2 hw⟩
    · rw [hq]; exact hi.nodup
  · exact handled_ids hq hnext (fun c _ hun => hw ▸ hun) hi
  · exact handled_ids hq hnext (fun c hne hun => (handleCmd_handled hw).unborn hne hun) hi

theorem step_cases {s t : System D} {l : Label} (h : Step s l t) :
    s.stepActor l = some t ∨ s.stepAsync l = some t := by
  rw [Step, System.step] at h
  cases ha : s.stepActor l with
  | some t' =>
      rw [ha, Option.some_or] at h
      exact .inl h
  | none =>
      rw [ha, Option.none_or] at h
      exact .inr h

/-- A connect that smoltcp takes is inserted. -/
theorem recv_inserted {s t : System D} {remote : SocketAddr} {c : ConnId} {queue : List Cmd}
    (h : Step s .recv t) (hq : s.queue = .connect remote c :: queue)
    (haccepts : s.world.Accepts remote) :
    t.endpoints = s.endpoints ∧ t.queue = queue ∧ Inserted s.world t.world remote c := by
  rcases step_cases h with h | h
  · obtain ⟨hends, -, cmd, hcmd, hw⟩ := stepActor_recv h
    rw [hq, List.cons.injEq] at hcmd
    obtain ⟨rfl, hrest⟩ := hcmd
    refine ⟨hends, hrest.symm, ?_⟩
    rcases hw with ⟨hnone, -⟩ | hw
    · exact absurd hnone (haccepts.handleConnect_ne c)
    · rcases handleConnect_cases hw with ⟨-, hi⟩ | ⟨hnot, -⟩
      · exact hi
      · exact absurd haccepts hnot
  · cases h

/-- A pass that does not panic. -/
theorem service_pass {s t : System D} {order : List (Handle × List Nat)}
    (h : Step s (.service order) t) (hpc : t.pc ≠ .panicked) :
    (order.map Prod.fst).Perm s.world.actor.conns.keys ∧
      s.world.serviceSockets order = some t.world := by
  rcases step_cases h with h | h
  · cases ActorStep.of_eq h with
    | service _ hperm =>
        cases hw : s.world.serviceSockets order with
        | none => rw [hw] at hpc; exact absurd rfl hpc
        | some w => exact ⟨hperm, rfl⟩
  · cases h

theorem Init.entry {s : System D} (h : Init s) (k : Handle) : s.world.entry k = none := by
  obtain ⟨mtu, v4, v6, rfl⟩ := h
  exact AList.lookup_empty k

theorem Init.ids {s : System D} (h : Init s) : Ids s := by
  obtain ⟨mtu, v4, v6, rfl⟩ := h
  refine ⟨fun c _ => ⟨fun e he => absurd he List.not_mem_nil, fun h conn hc => ?_⟩,
    fun c hc => absurd hc List.not_mem_nil, List.nodup_nil⟩
  rw [show (System.init D mtu v4 v6).world.entry h = none from AList.lookup_empty h] at hc
  cases hc

theorem Step.ids {s t : System D} {l : Label} (h : Step s l t) (hi : Ids s) : Ids t := by
  rcases step_cases h with h | h
  · exact stepActor_ids h hi
  · exact stepAsync_ids h hi

theorem Reachable.ids {s : System D} (h : Reachable s) : Ids s :=
  Transition.Reachable.invariant Ids h (fun _ => Init.ids) fun _ _ _ hi hs => hs.ids hi

/-! ## The rule for the actor's world -/

/-- What the actor's functions keep, a connect under an unborn number. -/
structure WorldInvariant (P : World D → Prop) : Prop where
  same : ∀ {w w'}, SameConns w w' → P w → P w'
  turn : ∀ {w w' h conn v}, w.entry h = some conn → (∃ seams sock chan, v = visit D h seams sock
    conn chan) → Serviced w w' h v → P w → P w'
  cmd : ∀ {w w' cmd}, (∀ remote c, cmd = .connect remote c → w.Unborn c) →
    Handled w w' cmd → P w → P w'

theorem Step.world_invariant {P : World D → Prop} (hP : WorldInvariant P) {s t : System D}
    {l : Label} (h : Step s l t) (hi : Ids s) (hw : P s.world) : P t.world := by
  rcases step_cases h with h | h
  · rcases (stepActor_cases h).2.2 with
      ⟨hsame, -⟩ | ⟨order, -, -, hpass⟩ | ⟨cmd, -, hq, ⟨-, hsame⟩ | hcmd⟩
    · exact hP.same hsame.sameConns hw
    · refine serviceSockets_invariant P order ?_ hw hpass
      intro w h seams w' _ hw hturn
      obtain ⟨sock, conn, -, hconn, hs⟩ := serviceSocket_cases hturn
      exact hP.turn hconn ⟨seams, sock, _, rfl⟩ hs hw
    · exact hsame ▸ hw
    · refine hP.cmd ?_ (handleCmd_handled hcmd) hw
      rintro remote c rfl
      refine (hi.queued c ?_).2
      rw [hq]
      exact List.mem_cons_self
  · rcases stepAsync_cases h with ⟨remote, -, rfl⟩ | ⟨c, e, cmds, -, hb⟩
    · exact hP.same (opened_same s remote) hw
    · exact hP.same hb.same hw

theorem Reachable.world_invariant {P : World D → Prop} (hP : WorldInvariant P)
    (hinit : ∀ s : System D, Init s → P s.world) {s : System D} (h : Reachable s) :
    P s.world := by
  have hboth : Ids s ∧ P s.world :=
    Transition.Reachable.invariant (fun s => Ids s ∧ P s.world) h
      (fun s hs => ⟨hs.ids, hinit s hs⟩)
      fun _ _ _ hi hs => ⟨hs.ids hi.1, hs.world_invariant hP hi.1 hi.2⟩
  exact hboth.2

end

end WarpProxy.Netstack
