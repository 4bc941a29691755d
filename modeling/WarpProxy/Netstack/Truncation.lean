/-
# `WarpProxy.Netstack.Truncation` — what is left unread when an entry goes

The pass that finds a socket closed takes from its receive buffer what the channel
has room for, and removes the entry whatever is left.  So the stream is whole at
its end exactly when the rest of it fits (`Fits`, `Owed.pass`).  A socket can
lose its buffer before that: when TIME-WAIT runs out.

`Accounted` records beside the system what the socket of each connection has
accepted from the remote.
-/
import WarpProxy.Netstack.Inbound
import WarpProxy.Netstack.Answered

namespace WarpProxy.Netstack

open Transition (guarded)

section
variable {D : Deps}

/-! ## How much a visit takes -/

/-- A socket has something to receive when its receive buffer is not empty, and `recv_slice`
fills the slice as far as the buffer goes. -/
structure Deps.ReadLaws (D : Deps) (recvBuf : D.Tcp → List UInt8) : Prop where
  canRecv : ∀ sock, D.canRecv sock = true ↔ recvBuf sock ≠ []
  recvSlice : ∀ sock size, recvBuf sock ≠ [] →
    ∃ data, (D.recvSlice sock size).1 = some data ∧ data.1 = (recvBuf sock).take size

/-- The chunks the channel has room for. -/
def Chan.room (ch : Chan) : Nat := if ch.rx then chanDepth - ch.queue.length else 0

/-- What is left in the receive buffer fits into the channel. -/
def Fits (bytes : List UInt8) (ch : Chan) : Prop := bytes.length ≤ recvChunk * ch.room

instance (bytes : List UInt8) (ch : Chan) : Decidable (Fits bytes ch) :=
  inferInstanceAs (Decidable (_ ≤ _))

theorem room_push {ch : Chan} (h : ch.reservable = true) (chunk : List UInt8) :
    ch.room = { ch with queue := ch.queue ++ [chunk] }.room + 1 := by
  simp only [Chan.reservable, Bool.and_eq_true, decide_eq_true_eq] at h
  simp only [Chan.room, h.1, if_true, List.length_append, List.length_singleton]
  omega

theorem room_none {ch : Chan} (h : ¬ ch.reservable = true) : ch.room = 0 := by
  simp only [Chan.reservable, Bool.and_eq_true, decide_eq_true_eq, not_and, Nat.not_lt] at h
  rw [Chan.room]
  split
  · next hrx => exact Nat.sub_eq_zero_of_le (h hrx)
  · rfl

section
variable {recvBuf : D.Tcp → List UInt8} (hR : D.RecvLaws recvBuf) (hB : D.ReadLaws recvBuf)
include hR hB

/-- The receive loop takes what the channel has room for. -/
theorem pump_taken (sock : D.Tcp) (chan : Chan) :
    (pump sock chan).taken = (recvBuf sock).take (recvChunk * chan.room) := by
  induction sock, chan using pump.induct with
  | case1 sock chan h hroom _ sock' hs =>
      -- an empty slice from a buffer that is not empty
      obtain ⟨data, hdata, htake⟩ := hB.recvSlice sock recvChunk ((hB.canRecv sock).mp h)
      rw [hs, Option.some.injEq] at hdata
      rw [← hdata, eq_comm, List.take_eq_nil_iff] at htake
      exact absurd htake (by simp [recvChunk, (hB.canRecv sock).mp h])
  | case2 sock chan h hroom b bs hlen sock' hs ih =>
      rw [pump, if_pos h, dif_pos hroom]
      simp only [hs]
      obtain ⟨data, hdata, htake⟩ := hB.recvSlice sock recvChunk ((hB.canRecv sock).mp h)
      rw [hs, Option.some.injEq] at hdata
      subst hdata
      have htake : b :: bs = (recvBuf sock).take recvChunk := htake
      have hrest : recvBuf sock' = (recvBuf sock).drop recvChunk := by
        have hwhole : b :: bs ++ recvBuf sock' = recvBuf sock := hR.recvSlice _ _ _ _ hs
        rw [htake] at hwhole
        exact List.append_cancel_left (hwhole.trans (List.take_append_drop ..).symm)
      rw [ih, hrest, room_push hroom (b :: bs), Nat.mul_add_one, Nat.add_comm, List.take_add,
        ← htake]
  | case3 sock chan h hroom sock' hs =>
      obtain ⟨data, hdata, -⟩ := hB.recvSlice sock recvChunk ((hB.canRecv sock).mp h)
      rw [hs] at hdata
      cases hdata
  | case4 sock chan h hroom =>
      rw [pump, if_pos h, dif_neg hroom, room_none hroom]
      rfl
  | case5 sock chan h =>
      have hempty : recvBuf sock = [] := by
        rw [hB.canRecv, ne_eq, not_not] at h
        exact h
      rw [pump, if_neg h, hempty, List.take_nil]

/-- A visit takes everything exactly when it fits. -/
theorem visit_fits (h : Handle) (seams : List Nat) (sock : D.Tcp) (conn : Conn) (chan : Chan) :
    (visit D h seams sock conn chan).taken = recvBuf sock ↔ Fits (recvBuf sock) chan := by
  have htaken : (visit D h seams sock conn chan).taken =
      (recvBuf sock).take (recvChunk * chan.room) := by
    refine (pump_taken hR hB _ chan).trans ?_
    rw [flush_recvBuf hR]
  rw [htaken, Fits]
  refine ⟨fun hall => ?_, List.take_of_length_le⟩
  rw [← hall]
  exact List.length_take_le ..

end

theorem takenFrom_eventsOf (c : ConnId) (log : List Event) :
    takenFrom c (eventsOf c log) = takenFrom c log := by
  induction log with
  | nil => rfl
  | cons e log ih =>
      have hcons : ∀ es, takenFrom c (e :: es) = takenFrom c [e] ++ takenFrom c es :=
        fun es => takenFrom_append c [e] es
      by_cases he : e.conn = c
      · have hkeep : eventsOf c (e :: log) = e :: eventsOf c log :=
          List.filter_cons_of_pos (decide_eq_true he)
        rw [hkeep, hcons, hcons log, ih]
      · have hdrop : eventsOf c (e :: log) = eventsOf c log :=
          List.filter_cons_of_neg fun h => he (of_decide_eq_true h)
        have hother : takenFrom c [e] = [] :=
          takenFrom_other fun e' he' => List.mem_singleton.mp he' ▸ he
        rw [hdrop, hcons, hother, ih, List.nil_append]

theorem Visited.takenFrom {w w' : World D} {k : Handle} {seams : List Nat} {sock : D.Tcp}
    {conn : Conn} {chan : Chan} (hv : Visited w w' k (visit D k seams sock conn chan)) :
    takenFrom conn.fromNet w'.log =
      takenFrom conn.fromNet w.log ++ (visit D k seams sock conn chan).taken := by
  have hlog := hv.log
  simp only [visit_fromNet] at hlog
  rw [← takenFrom_eventsOf, hlog, takenFrom_append, takenFrom_eventsOf, Visit.events_taken]

/-! ## What a connection is owed -/

/-- The slot of the connection `c`. -/
def World.handleOf (w : World D) (c : ConnId) : Option Handle :=
  (w.actor.conns.entries.find? fun e => e.2.fromNet = c).map Sigma.fst

theorem Outbound.handleOf {w : World D} (hout : Outbound w) {k : Handle} {conn : Conn}
    (hconn : w.entry k = some conn) : w.handleOf conn.fromNet = some k := by
  have hmem : ⟨k, conn⟩ ∈ w.actor.conns.entries := AList.mem_lookup_iff.mp hconn
  cases hfind : w.actor.conns.entries.find? (fun e => e.2.fromNet = conn.fromNet) with
  | none =>
      have hnot := List.find?_eq_none.mp hfind ⟨k, conn⟩ hmem
      exact absurd (decide_eq_true rfl) hnot
  | some e =>
      have hentry : w.entry e.1 = some e.2 :=
        AList.mem_lookup_iff.mpr (List.mem_of_find?_eq_some hfind)
      have hfound := List.find?_some hfind
      have hfrom : e.2.fromNet = conn.fromNet := of_decide_eq_true hfound
      rw [World.handleOf, hfind, ← hout.inj hentry hconn hfrom]
      rfl

theorem handleOf_none {w : World D} {c : ConnId}
    (hnone : ∀ k conn, w.entry k = some conn → conn.fromNet ≠ c) : w.handleOf c = none := by
  rw [World.handleOf, Option.map_eq_none_iff, List.find?_eq_none]
  intro e he heq
  exact hnone e.1 e.2 (AList.mem_lookup_iff.mpr he) (of_decide_eq_true heq)

/-- What has been taken for `c`, then what its socket holds, is `bytes`; without an entry,
`bytes` is what has been taken. -/
structure Owed (recvBuf : D.Tcp → List UInt8) (c : ConnId) (bytes : List UInt8) (w : World D) :
    Prop where
  held : ∀ {k conn sock}, w.entry k = some conn → conn.fromNet = c →
    D.tcp w.actor.sockets k = some sock → takenFrom c w.log ++ recvBuf sock = bytes
  gone : (∀ k conn, w.entry k = some conn → conn.fromNet ≠ c) → takenFrom c w.log = bytes

/-- The entry is removed in the next pass only if what its socket holds fits into the channel,
and a poll does not clear a receive buffer that holds something. -/
def Delivers (recvBuf : D.Tcp → List UInt8) (c : ConnId) (s : System D) : Label → Prop
  | .service _ => ∀ k conn sock, s.world.entry k = some conn → conn.fromNet = c →
      D.tcp s.world.actor.sockets k = some sock → Leaves D conn sock →
        Fits (recvBuf sock) (s.world.chans c)
  | .poll now => ∀ k conn sock sock', s.world.entry k = some conn → conn.fromNet = c →
      D.tcp s.world.actor.sockets k = some sock →
      D.tcp (s.world.poll now).actor.sockets k = some sock' → D.Expired sock sock' →
        recvBuf sock = []
  | _ => True

section
variable {recvBuf : D.Tcp → List UInt8} {c : ConnId} {bytes : List UInt8} {w w' : World D}

/-- Neither the entries nor their sockets change, and nothing is taken. -/
theorem Owed.keep (hentry : w'.entry = w.entry)
    (htcp : ∀ k, D.tcp w'.actor.sockets k = D.tcp w.actor.sockets k)
    (hlog : takenFrom c w'.log = takenFrom c w.log) (ho : Owed recvBuf c bytes w) :
    Owed recvBuf c bytes w' := by
  constructor
  · intro k conn sock hconn hfrom hsock
    rw [hlog]
    exact ho.held (hentry ▸ hconn) hfrom ((htcp k).symm.trans hsock)
  · intro hnone
    rw [hlog]
    exact ho.gone (hentry ▸ hnone)

/-- A command removes no entry. -/
theorem Handled.persists (hD : D.SocketSetLaws) (hin : InStep w) {cmd : Cmd}
    (h : Handled w w' cmd) {k : Handle} {conn : Conn} (hconn : w.entry k = some conn) :
    ∃ conn', w'.entry k = some conn' ∧ conn'.fromNet = conn.fromNet := by
  cases h with
  | untouched _ hw _ => exact ⟨conn, by rw [hw.entry, hconn], rfl⟩
  | inserted _ hi =>
      have hvacant := hin.tcp w.nextSlot
      rw [tcp_of_slot (nextSlot_free hD w)] at hvacant
      have hk : k ≠ w.nextSlot := by
        rintro rfl
        rw [hconn] at hvacant
        cases hvacant
      exact ⟨conn, (hi.entry_ne k hk).trans hconn, rfl⟩
  | rejected _ hr => exact ⟨conn, by rw [hr.entry, hconn], rfl⟩
  | @sent h _ _ _ hold hw | @closed h _ _ hold hw =>
      by_cases hk : k = h
      · subst hk
        rw [hold, Option.some.injEq] at hconn
        subst hconn
        exact ⟨_, hw.entry_self, rfl⟩
      · exact ⟨conn, (hw.entry_ne k hk).trans hconn, rfl⟩

/-- A new entry has an empty socket, and nothing has been taken for it. -/
theorem Owed.handled (hD : D.SocketSetLaws) (hR : D.RecvLaws recvBuf) (hin : InStep w)
    {cmd : Cmd} (hnew : ∀ remote c, cmd = .connect remote c → w.Unborn c)
    (hw : w.handleCmd cmd = some w') (ho : Owed recvBuf c bytes w) : Owed recvBuf c bytes w' := by
  have hhandled := handleCmd_handled hw
  constructor
  · intro k conn sock hconn hfrom hsock
    rw [takenFrom_visitsOnly.handled hhandled]
    rcases handleCmd_socket hD hin hw hconn hsock with
      ⟨old, hold, hsame, hsock⟩ | ⟨⟨remote, rfl⟩, -, iface, remote', port, iface', hconnect⟩
    · exact ho.held hold (hsame.symm.trans hfrom) hsock
    · have hunborn := hnew remote _ rfl
      rw [hfrom] at hunborn
      rw [hR.connected _ _ _ _ _ _ _ hconnect, List.append_nil]
      exact ho.gone hunborn.2
  · intro hnone
    rw [takenFrom_visitsOnly.handled hhandled]
    refine ho.gone fun k conn hconn => ?_
    obtain ⟨conn', hconn', hfrom⟩ := hhandled.persists hD hin hconn
    rw [← hfrom]
    exact hnone k conn' hconn'

/-- A pass takes from the receive buffer, and an entry that goes leaves nothing there. -/
theorem Owed.pass (hD : D.SocketSetLaws) (hC : D.CloseLaws) (hS : D.StateLaws)
    (hR : D.RecvLaws recvBuf) (hB : D.ReadLaws recvBuf) (hin : InStep w) (hout : Outbound w)
    {order : List (Handle × List Nat)} (horder : (order.map Prod.fst).Perm w.actor.conns.keys)
    (hpass : w.serviceSockets order = some w')
    (hfits : ∀ k conn sock, w.entry k = some conn → conn.fromNet = c →
      D.tcp w.actor.sockets k = some sock → Leaves D conn sock → Fits (recvBuf sock) (w.chans c))
    (ho : Owed recvBuf c bytes w) : Owed recvBuf c bytes w' := by
  have hsocket : ∀ {k conn}, w.entry k = some conn → ∃ sock, D.tcp w.actor.sockets k = some sock :=
    fun hconn => Option.isSome_iff_exists.mp ((hin.tcp _).trans (by rw [hconn]; rfl))
  constructor
  · intro k conn' sock' hconn' hfrom hsock'
    obtain ⟨conn, hconn, -⟩ := serviceSockets_retains hpass k conn' hconn'
    obtain ⟨sock, hsock⟩ := hsocket hconn
    obtain ⟨seams, hv⟩ := serviceSockets_visited hD hout horder hpass hconn hsock
    obtain ⟨hkeep, rfl⟩ := hv.kept hconn'
    rw [hv.tcp hkeep, Option.some.injEq] at hsock'
    rw [visit_fromNet] at hfrom
    subst hsock' hfrom
    rw [hv.takenFrom, List.append_assoc, visit_recvBuf hR]
    exact ho.held hconn rfl hsock
  · intro hnone
    by_cases hentry : ∃ k conn, w.entry k = some conn ∧ conn.fromNet = c
    · obtain ⟨k, conn, hconn, rfl⟩ := hentry
      obtain ⟨sock, hsock⟩ := hsocket hconn
      obtain ⟨seams, hv⟩ := serviceSockets_visited hD hout horder hpass hconn hsock
      have hremove : (visit D k seams sock conn (w.chans conn.fromNet)).remove = true := by
        rw [← Bool.not_eq_false]
        intro hkeep
        have hkept := hv.entry
        rw [hkeep] at hkept
        exact hnone k _ hkept rfl
      have hleaves := (visit_leaves hC hS ..).mp hremove
      have hall := (visit_fits hR hB k seams sock conn _).mpr (hfits k conn sock hconn rfl hsock
        hleaves)
      rw [hv.takenFrom, hall]
      exact ho.held hconn rfl hsock
    · have hbefore : ∀ k conn, w.entry k = some conn → conn.fromNet ≠ c :=
        fun k conn hconn heq => hentry ⟨k, conn, hconn, heq⟩
      rw [← takenFrom_eventsOf, serviceSockets_silent hpass hbefore, takenFrom_eventsOf]
      exact ho.gone hbefore

end

/-! ## Runs -/

/-- The system, and what the socket of each connection has accepted from the remote. -/
structure Accounted (D : Deps) where
  sys : System D
  accepted : ConnId → List UInt8

section
variable (recvBuf : D.Tcp → List UInt8)

/-- What a step adds to the receive buffer of the socket of `c`. -/
def grown (s s' : System D) (c : ConnId) : List UInt8 :=
  match s.world.handleOf c with
  | some k =>
      match D.tcp s.world.actor.sockets k, D.tcp s'.world.actor.sockets k with
      | some sock, some sock' => (recvBuf sock').drop (recvBuf sock).length
      | _, _ => []
  | none => []

def Accounted.step (t : Accounted D) (l : Label) : Option (Accounted D) :=
  (t.sys.step l).map fun s =>
    { sys := s
      accepted := fun c =>
        match l with
        | .poll _ => t.accepted c ++ grown recvBuf t.sys s c
        | _ => t.accepted c }

/-- `netstack::spawn`, with nothing accepted. -/
def Accounted.init (s : System D) : Accounted D := ⟨s, fun _ => []⟩

/-- The runs in which each step delivers to `c`. -/
abbrev Accounted.Reachable (c : ConnId) (t : Accounted D) : Prop :=
  Transition.Reachable
    (guarded (fun t l t' => Accounted.step recvBuf t l = some t')
      fun t l => Delivers recvBuf c t.sys l)
    (fun t => ∃ s, Init s ∧ t = .init s) t

end

section
variable {live : D.Dns → D.Query → Prop} {recvBuf : D.Tcp → List UInt8} {c : ConnId}

/-- A poll: what it adds has been accepted. -/
theorem Owed.polled (hP : D.PollLaws) (hR : D.RecvLaws recvBuf) {s s' : System D} {now : Int}
    {bytes : List UInt8} (hout : Outbound s.world) (hpoll : s'.world = s.world.poll now)
    (hd : Delivers recvBuf c s (.poll now)) (ho : Owed recvBuf c bytes s.world) :
    Owed recvBuf c (bytes ++ grown recvBuf s s' c) s'.world := by
  have hentry : s'.world.entry = s.world.entry := by
    rw [hpoll, (poll_untouched s.world now).entry]
  have hlog : s'.world.log = s.world.log := by rw [hpoll, (poll_untouched s.world now).log]
  constructor
  · intro k conn sock' hconn hfrom hsock'
    rw [hentry] at hconn
    have hsome : (D.tcp s.world.actor.sockets k).isSome = true := by
      have hkind := hP.tcp_poll now s.world.actor.iface s.world.actor.device
        s.world.actor.sockets k
      rw [← hkind]
      rw [hpoll] at hsock'
      exact congrArg Option.isSome hsock'
    obtain ⟨sock, hsock⟩ := Option.isSome_iff_exists.mp hsome
    have hprefix : recvBuf sock <+: recvBuf sock' := by
      rw [hpoll] at hsock'
      rcases hR.polled _ _ _ _ _ _ _ hsock hsock' with hexpired | hprefix
      · rw [hd k conn sock sock' hconn hfrom hsock hsock' hexpired]
        exact List.nil_prefix
      · exact hprefix
    have hgrown : grown recvBuf s s' c = (recvBuf sock').drop (recvBuf sock).length := by
      rw [grown, ← hfrom, hout.handleOf hconn]
      simp only [hsock, hsock']
    obtain ⟨more, hmore⟩ := hprefix
    rw [hlog, hgrown, ← hmore, List.drop_left, ← List.append_assoc, ho.held hconn hfrom hsock]
  · intro hnone
    rw [hentry] at hnone
    rw [hlog, grown, handleOf_none hnone, ho.gone hnone]
    exact (List.append_nil _).symm

section
variable (hD : D.SocketSetLaws) (hP : D.PollLaws) (hQ : D.DnsLaws live) (hC : D.CloseLaws)
  (hS : D.StateLaws) (hR : D.RecvLaws recvBuf) (hB : D.ReadLaws recvBuf)
include hD hP hQ hC hS hR hB

theorem Owed.step {t t' : Accounted D} {l : Label} (hr : Netstack.Reachable t.sys)
    (h : t.step recvBuf l = some t') (hd : Delivers recvBuf c t.sys l)
    (ho : Owed recvBuf c (t.accepted c) t.sys.world) :
    Owed recvBuf c (t'.accepted c) t'.sys.world := by
  rw [Accounted.step, Option.map_eq_some_iff] at h
  obtain ⟨s', hstep, rfl⟩ := h
  have hin := ((hr.runs hD hP hQ).world.sound hD hP hQ).inStep
  rcases step_cases hstep with h | h
  · cases ActorStep.of_eq h with
    | poll now => exact ho.polled hP hR hr.outbound rfl hd
    | @service order _ horder =>
        cases hpass : t.sys.world.serviceSockets order with
        | none => exact ho
        | some w => exact ho.pass hD hC hS hR hB hin hr.outbound horder hpass hd
    | dns =>
        cases hdns : t.sys.world.serviceDns with
        | none => exact ho
        | some w =>
            have hsame := serviceDns_untouched hdns
            exact ho.keep hsame.entry (serviceDnsFrom_tcp hD _ _ hin hdns)
              (congrArg (takenFrom c) hsame.log)
    | @recv cmd _ hq =>
        cases hw : t.sys.world.handleCmd cmd with
        | none => exact ho
        | some w =>
            refine ho.handled hD hR hin ?_ hw
            rintro remote c rfl
            refine (hr.ids.queued c ?_).2
            rw [hq]
            exact List.mem_cons_self
    | timeout | drained => exact ho
  · -- the async side has neither the tables nor the log
    have hactor := (stepAsync_actor h).1
    have hsame : Owed recvBuf c (t.accepted c) s'.world := by
      refine ho.keep ?_ (fun k => by rw [hactor]) ?_
      · funext k
        rw [World.entry, World.entry, hactor]
      · rcases stepAsync_cases h with ⟨remote, -, rfl⟩ | ⟨k, e, cmds, -, hb⟩
        · rfl
        · exact congrArg (takenFrom c) hb.same.log
    cases l with
    | poll now => cases h
    | _ => exact hsame

theorem Accounted.Reachable.owed {t : Accounted D} (h : t.Reachable recvBuf c) :
    Owed recvBuf c (t.accepted c) t.sys.world := by
  have hboth : Netstack.Reachable t.sys ∧ Owed recvBuf c (t.accepted c) t.sys.world := by
    refine Transition.Reachable.invariant (fun t : Accounted D => Netstack.Reachable t.sys ∧
      Owed recvBuf c (t.accepted c) t.sys.world) h ?_ ?_
    · rintro t ⟨s, hs, rfl⟩
      refine ⟨.init hs, fun hconn => ?_, fun _ => ?_⟩
      · rw [Accounted.init, hs.entry] at hconn
        cases hconn
      · obtain ⟨mtu, v4, v6, rfl⟩ := hs
        rfl
    · intro t l t' ht hstep
      refine ⟨?_, Owed.step hD hP hQ hC hS hR hB ht.1 hstep.1 hstep.2 ht.2⟩
      have hnext : t.step recvBuf l = some t' := hstep.1
      rw [Accounted.step, Option.map_eq_some_iff] at hnext
      obtain ⟨s', hs', rfl⟩ := hnext
      exact ht.1.tail hs'
  exact hboth.2

/-- **No truncation, if it fits.**  In a run whose passes remove the entry of `c` only when what
its socket still holds fits into the channel, and whose polls clear no receive buffer of `c`
that holds something: once there is no entry of `c`, everything its socket has accepted has been
sent to the channel.  And a pass that removes an entry sends the rest exactly when it fits. -/
theorem close_delivers :
    (∀ c (t : Accounted D), t.Reachable recvBuf c →
      (∀ k conn, t.sys.world.entry k = some conn → conn.fromNet ≠ c) →
      takenFrom c t.sys.world.log = t.accepted c) ∧
    ∀ (s t : System D) order, Netstack.Reachable s → Step s (.service order) t →
      ∀ k conn sock, s.world.entry k = some conn → D.tcp s.world.actor.sockets k = some sock →
        (t.world.entry k = none ↔ Leaves D conn sock) ∧
        (takenFrom conn.fromNet t.world.log =
            takenFrom conn.fromNet s.world.log ++ recvBuf sock ↔
          Fits (recvBuf sock) (s.world.chans conn.fromNet)) := by
  refine ⟨fun c t ht hnone => (ht.owed hD hP hQ hC hS hR hB).gone hnone, ?_⟩
  intro s t order hr hstep k conn sock hconn hsock
  have ht : Netstack.Reachable t := hr.tail hstep
  obtain ⟨horder, hpass⟩ := service_pass hstep (ht.runs hD hP hQ).running
  obtain ⟨seams, hv⟩ := serviceSockets_visited hD hr.outbound horder hpass hconn hsock
  refine ⟨hv.gone.trans (visit_leaves hC hS ..), ?_⟩
  rw [hv.takenFrom, List.append_cancel_left_eq]
  exact visit_fits hR hB ..

end

end

/-- A sufficient check of `Delivers` at one state. -/
def delivers (recvBuf : D.Tcp → List UInt8) (c : ConnId) (s : System D) : Label → Bool
  | .service _ => s.world.actor.conns.entries.all fun e => e.2.fromNet != c ||
      (D.tcp s.world.actor.sockets e.1).all fun sock => Fits (recvBuf sock) (s.world.chans c)
  | .poll _ => s.world.actor.conns.entries.all fun e => e.2.fromNet != c ||
      (D.tcp s.world.actor.sockets e.1).all fun sock => D.state sock != .timeWait
  | _ => true

theorem delivers_sound {recvBuf : D.Tcp → List UInt8} {c : ConnId} {s : System D} {l : Label}
    (h : delivers recvBuf c s l = true) : Delivers recvBuf c s l := by
  -- what the check says of the entry of `c`
  have hentry : ∀ {p : D.Tcp → Bool} {k conn sock}, (s.world.actor.conns.entries.all fun e =>
      e.2.fromNet != c || (D.tcp s.world.actor.sockets e.1).all p) = true →
      s.world.entry k = some conn → conn.fromNet = c →
      D.tcp s.world.actor.sockets k = some sock → p sock = true := by
    intro p k conn sock hall hconn hfrom hsock
    have hone := List.all_eq_true.mp hall ⟨k, conn⟩ (AList.mem_lookup_iff.mp hconn)
    rw [hfrom, bne_self_eq_false, Bool.false_or, hsock] at hone
    exact hone
  cases l with
  | service order =>
      intro k conn sock hconn hfrom hsock _
      exact of_decide_eq_true (hentry h hconn hfrom hsock)
  | poll now =>
      intro k conn sock sock' hconn hfrom hsock _ hexpired
      have hstate := hentry h hconn hfrom hsock
      rw [bne_iff_ne] at hstate
      exact absurd hexpired.1 hstate
  | _ => trivial

end

/-! ## A small netstack that closes in order -/

/-- A packet of a slot and the kind 4 acknowledges our FIN. -/
def Toy.acknowledge (s : Toy.Slots) : List UInt8 → Toy.Slots
  | [h, 4] =>
      match Toy.get s h.toNat with
      | some (.inl sock) =>
          if sock.state = .lastAck then Toy.set s h.toNat (.inl { sock with state := .closed })
          else s
      | _ => s
  | _ => s

/-- The small netstack, whose polls see the acknowledgements after the segments. -/
def Deps.toyAcks : Deps :=
  { Deps.toy with
    poll := fun now iface device s =>
      let polled := Deps.toy.poll now iface device s
      (polled.1, polled.2.1, device.rx.foldl Toy.acknowledge polled.2.2) }

theorem Toy.get_acknowledge (s : Toy.Slots) (pkt : List UInt8) (h : Handle) :
    Toy.Kept s (Toy.acknowledge s pkt) h := by
  unfold Toy.acknowledge
  split
  · split
    · next sock hsock =>
        split
        · have hgrows : Toy.Grows sock { sock with state := .closed } :=
            ⟨List.prefix_rfl, List.suffix_rfl, fun _ => rfl⟩
          exact Toy.kept_set hsock hgrows h
        · exact .inr rfl
    · exact .inr rfl
  · exact .inr rfl

theorem Toy.kept_polled (pkts : List (List UInt8)) (s : Toy.Slots) (h : Handle) :
    Toy.Kept s (pkts.foldl Toy.acknowledge (pkts.foldl Toy.deliver s)) h :=
  (Toy.get_delivers pkts s h).trans (Toy.kept_foldl Toy.get_acknowledge pkts _ h)

theorem Deps.toy_readLaws : Deps.toy.ReadLaws Toy.Tcp.rx where
  canRecv sock := by
    show (!sock.rx.isEmpty) = true ↔ sock.rx ≠ []
    rw [Bool.not_eq_true', ← Bool.not_eq_true, List.isEmpty_iff]
  recvSlice sock size _ := ⟨_, rfl, rfl⟩

namespace Deps

theorem toyAcks_socketSetLaws : Deps.toyAcks.SocketSetLaws where
  get_new := Deps.toy_socketSetLaws.get_new
  add_free := Deps.toy_socketSetLaws.add_free
  add_lowest := Deps.toy_socketSetLaws.add_lowest
  get_add := Deps.toy_socketSetLaws.get_add
  get_set := Deps.toy_socketSetLaws.get_set
  get_remove := Deps.toy_socketSetLaws.get_remove

theorem toyAcks_closeLaws : Deps.toyAcks.CloseLaws where
  state_sendSlice := Deps.toy_closeLaws.state_sendSlice
  state_recvSlice := Deps.toy_closeLaws.state_recvSlice
  close_closeWait := Deps.toy_closeLaws.close_closeWait
  close_late := Deps.toy_closeLaws.close_late

theorem toyAcks_stateLaws : Deps.toyAcks.StateLaws where
  isActive := Deps.toy_stateLaws.isActive
  canSend := Deps.toy_stateLaws.canSend
  close := Deps.toy_stateLaws.close

theorem toyAcks_readLaws : Deps.toyAcks.ReadLaws Toy.Tcp.rx where
  canRecv := Deps.toy_readLaws.canRecv
  recvSlice := Deps.toy_readLaws.recvSlice

/-- The two differ in `poll` only. -/
theorem toyAcks_tcp (s : Toy.Slots) (h : Handle) : Deps.toyAcks.tcp s h = Deps.toy.tcp s h := by
  have hget : Deps.toyAcks.get s h = Deps.toy.get s h := rfl
  simp only [Deps.tcp, hget]
  cases Deps.toy.get s h with
  | none => rfl
  | some x => cases x <;> rfl

theorem toyAcks_dns (s : Toy.Slots) (h : Handle) : Deps.toyAcks.dns s h = Deps.toy.dns s h := by
  have hget : Deps.toyAcks.get s h = Deps.toy.get s h := rfl
  simp only [Deps.dns, hget]
  cases Deps.toy.get s h with
  | none => rfl
  | some x => cases x <;> rfl

theorem toyAcks_pollLaws : Deps.toyAcks.PollLaws where
  tcp_poll _ _ device s h := by
    exact (congrArg Option.isSome (toyAcks_tcp _ h)).trans
      ((Toy.kept_polled device.rx s h).tcp.trans (congrArg Option.isSome (toyAcks_tcp s h)).symm)
  dns_poll _ _ device s h := by
    exact congrArg Option.isSome ((toyAcks_dns _ h).trans
      ((Toy.kept_polled device.rx s h).dns.trans (toyAcks_dns s h).symm))

theorem toyAcks_dnsLaws : Deps.toyAcks.DnsLaws Toy.Live where
  result := Deps.toy_dnsLaws.result
  pending := Deps.toy_dnsLaws.pending
  finished := Deps.toy_dnsLaws.finished
  started := Deps.toy_dnsLaws.started
  polled _ _ device s h dns dns' hdns hdns' q hq := by
    have hdns₀ := (toyAcks_dns s h).symm.trans hdns
    have hdns₁ := (toyAcks_dns _ h).symm.trans hdns'
    have heq : some dns' = some dns :=
      hdns₁.symm.trans ((Toy.kept_polled device.rx s h).dns.trans hdns₀)
    exact Option.some.inj heq ▸ hq

theorem toyAcks_recvLaws : Deps.toyAcks.RecvLaws Toy.Tcp.rx where
  connected := Deps.toy_recvLaws.connected
  sendSlice := Deps.toy_recvLaws.sendSlice
  recvSlice := Deps.toy_recvLaws.recvSlice
  recvFailed := Deps.toy_recvLaws.recvFailed
  close := Deps.toy_recvLaws.close
  polled _ _ device s h _ _ hs hs' := by
    have hs₀ := (toyAcks_tcp s h).symm.trans hs
    exact .inr ((Toy.kept_polled device.rx s h).grows hs₀ ((toyAcks_tcp _ h).symm.trans hs')).rx
  closed _ _ device s h _ _ hs hs' := by
    have hs₀ := (toyAcks_tcp s h).symm.trans hs
    exact ((Toy.kept_polled device.rx s h).grows hs₀ ((toyAcks_tcp _ h).symm.trans hs')).closed

end Deps

/-- Two bytes, the FINs of both sides and the acknowledgement: the entry is gone, and the bytes
are in the channel. -/
theorem close_delivers_whole : ∃ t : Accounted Deps.toyAcks, t.accepted 0 = [5, 6] ∧
    t.sys.world.entry 1 = none ∧ takenFrom 0 t.sys.world.log = t.accepted 0 := by
  let labels : List Label :=
    [.connect ⟨.v4 1, 80⟩, .poll 0, .service [], .dns, .recv, .inbound [1, 0], .recv, .drained,
      .poll 1, .service [(1, [])], .dns, .connected 0, .inbound [1, 1, 5, 6], .inbound [1, 2],
      .close 0, .recv, .recv, .recv, .drained, .poll 2, .service [(1, [])], .dns, .inbound [1, 4],
      .recv, .drained, .poll 3, .service [(1, [])]]
  have hrun : (Transition.exec (Accounted.step Toy.Tcp.rx) (fun t => delivers Toy.Tcp.rx 0 t.sys)
      (Accounted.init (System.init Deps.toyAcks 1280 0 none)) labels).any (fun t =>
        t.accepted 0 = [5, 6] ∧ t.sys.world.actor.conns.entries.isEmpty) = true := by
    decide +kernel
  obtain ⟨t, ht, hfacts⟩ := (Option.any_eq_true _ _).mp hrun
  obtain ⟨haccepted, hempty⟩ := of_decide_eq_true hfacts
  have hr : t.Reachable Toy.Tcp.rx 0 :=
    Transition.Reachable.exec (fun _ _ _ h => h) (fun t l _ => delivers_sound) labels
      (.init ⟨_, ⟨1280, 0, none, rfl⟩, rfl⟩) ht
  have hnone : ∀ k conn, t.sys.world.entry k ≠ some conn := by
    intro k conn hconn
    have hmem := AList.mem_lookup_iff.mp hconn
    rw [List.isEmpty_iff.mp hempty] at hmem
    cases hmem
  have hall := close_delivers Deps.toyAcks_socketSetLaws Deps.toyAcks_pollLaws
    Deps.toyAcks_dnsLaws Deps.toyAcks_closeLaws Deps.toyAcks_stateLaws Deps.toyAcks_recvLaws
    Deps.toyAcks_readLaws
  exact ⟨t, haccepted, Option.eq_none_iff_forall_ne_some.mpr (hnone 1),
    hall.1 0 t hr fun k conn hconn => absurd hconn (hnone k conn)⟩

/-- With 64 chunks in the channel, a byte arrives before the FIN and stays in the socket; the
acknowledgement of our FIN closes it, and the pass removes the entry with the byte. -/
theorem close_truncates : ¬ ∀ (s s' t : System Deps.toyAcks) (now : Int)
    (order : List (Handle × List Nat)) (k : Handle) (conn : Conn) (sock sock' : Toy.Tcp),
    Reachable s → Step s (.poll now) s' → Step s' (.service order) t →
    s'.world.entry k = some conn → Deps.toyAcks.tcp s.world.actor.sockets k = some sock →
    Deps.toyAcks.tcp s'.world.actor.sockets k = some sock' →
    sock.state = .lastAck → sock'.state = .closed → (s'.world.chans conn.fromNet).rx = true →
    t.world.entry k = none →
    takenFrom conn.fromNet t.world.log = takenFrom conn.fromNet s'.world.log ++ sock'.rx := by
  intro hdelivers
  let chunk : List Label :=
    [.inbound [1, 1, 7], .recv, .drained, .poll 2, .service [(1, [])], .dns]
  let labels : List Label :=
    [.connect ⟨.v4 1, 80⟩, .poll 0, .service [], .dns, .recv, .inbound [1, 0], .recv, .drained,
      .poll 1, .service [(1, [])], .dns, .connected 0] ++ (List.replicate 64 chunk).flatten ++
    [.inbound [1, 1, 9], .inbound [1, 2], .close 0, .recv, .recv, .recv, .drained, .poll 3,
      .service [(1, [])], .dns, .inbound [1, 4], .recv, .drained]
  have hrun : ((System.init Deps.toyAcks 1280 0 none).run labels).any (fun s =>
      (Deps.toyAcks.tcp s.world.actor.sockets 1).any (fun sock => Toy.Tcp.state sock = .lastAck) ∧
      (s.step (.poll 4)).any (fun s' =>
        (Deps.toyAcks.tcp s'.world.actor.sockets 1).any (fun sock =>
          Toy.Tcp.rx sock = [9] ∧ Toy.Tcp.state sock = .closed) ∧
        (s'.world.chans 0).rx = true ∧ (takenFrom 0 s'.world.log).length = 64 ∧
        (s'.world.entry 1).any (fun conn => conn.fromNet = 0) ∧
        (s'.step (.service [(1, [])])).any (fun t =>
          t.world.entry 1 = none ∧ (takenFrom 0 t.world.log).length = 64))) = true := by
    decide +kernel
  obtain ⟨s, hs, hfacts⟩ := (Option.any_eq_true _ _).mp hrun
  have hreach : Reachable s := run_reachable labels (.init ⟨1280, 0, none, rfl⟩) hs
  obtain ⟨hsock, hpoll⟩ := of_decide_eq_true hfacts
  obtain ⟨sock, htcp, hlast⟩ := (Option.any_eq_true _ _).mp hsock
  obtain ⟨s', hs', hfacts'⟩ := (Option.any_eq_true _ _).mp hpoll
  obtain ⟨hsock', hrx, htaken, hentry, hpass⟩ := of_decide_eq_true hfacts'
  obtain ⟨sock', htcp', hclosed⟩ := (Option.any_eq_true _ _).mp hsock'
  obtain ⟨hbuf, hstate⟩ := of_decide_eq_true hclosed
  obtain ⟨conn, hconn, hfrom⟩ := (Option.any_eq_true _ _).mp hentry
  obtain ⟨t, ht, hend⟩ := (Option.any_eq_true _ _).mp hpass
  obtain ⟨hgone, htaken'⟩ := of_decide_eq_true hend
  have hzero : conn.fromNet = 0 := of_decide_eq_true hfrom
  have hwhole := hdelivers s s' t 4 [(1, [])] 1 conn sock sock' hreach hs' ht hconn htcp htcp'
    (of_decide_eq_true hlast) hstate (hzero ▸ hrx) hgone
  have hlength := congrArg List.length hwhole
  rw [hzero, List.length_append, htaken, htaken', hbuf] at hlength
  exact absurd hlength (by decide)

end WarpProxy.Netstack
