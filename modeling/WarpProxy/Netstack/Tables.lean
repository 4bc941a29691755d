/-
# `WarpProxy.Netstack.Tables` — the tables of the actor stay in step

`sockets` and `conns` are written separately: a connect adds a slot before it is
known whether there will be an entry, a refused connect takes the slot back, and a
removal takes both.  `InStep` is what relates them between two functions of the
actor; where it holds nothing the actor looks up is missing, so that no function
panics and the relation holds after it.

A query is the third table: `dns_pending` names queries of the DNS socket, and asking
for the result of one that has been given out panics too (`Asked`).
-/
import WarpProxy.Netstack.Runs

namespace WarpProxy.Netstack

section
variable {D : Deps}

/-- Polling the interface leaves in every slot a socket of the same type. -/
structure Deps.PollLaws (D : Deps) : Prop where
  tcp_poll : ∀ now iface device s h,
    (D.tcp (D.poll now iface device s).2.2 h).isSome = (D.tcp s h).isSome
  dns_poll : ∀ now iface device s h,
    (D.dns (D.poll now iface device s).2.2 h).isSome = (D.dns s h).isSome

/-- `get_query_result` panics on the handle of a free query slot only, and frees the slot it
is asked about unless the query is pending; `live` are the slots in use. -/
structure Deps.DnsLaws (D : Deps) (live : D.Dns → D.Query → Prop) : Prop where
  result : ∀ dns q, live dns q → D.getQueryResult dns q ≠ none
  pending : ∀ dns q dns', D.getQueryResult dns q = some (.pending, dns') →
    ∀ q', live dns q' → live dns' q'
  finished : ∀ dns q r dns', D.getQueryResult dns q = some (r, dns') →
    ∀ q', q' ≠ q → live dns q' → live dns' q'
  started : ∀ iface dns name iface' q dns',
    D.startQuery iface dns name = (iface', .ok (q, dns')) →
      ¬ live dns q ∧ live dns' q ∧ ∀ q', live dns q' → live dns' q'
  polled : ∀ now iface device s h dns dns', D.dns s h = some dns →
    D.dns (D.poll now iface device s).2.2 h = some dns' → ∀ q, live dns q → live dns' q

/-- What the slot holds. -/
def World.slot (w : World D) (h : Handle) : Option (D.Tcp ⊕ D.Dns) := D.get w.actor.sockets h

/-- Exactly the keys of `conns` have a TCP socket, and the DNS socket is the one other. -/
structure InStep (w : World D) : Prop where
  tcp : ∀ h, (D.tcp w.actor.sockets h).isSome = (w.entry h).isSome
  dns : ∀ h, (D.dns w.actor.sockets h).isSome ↔ h = w.actor.dnsHandle

/-- The queries of `dns_pending` are distinct, and in use. -/
structure Asked (live : D.Dns → D.Query → Prop) (w : World D) : Prop where
  live : ∀ dns, D.dns w.actor.sockets w.actor.dnsHandle = some dns →
    ∀ p ∈ w.actor.dnsPending, live dns p.query
  nodup : (w.actor.dnsPending.map PendingDns.query).Nodup

/-! ## What a slot holds -/

theorem tcp_slot (w : World D) (h : Handle) (sock : D.Tcp) :
    D.tcp w.actor.sockets h = some sock ↔ w.slot h = some (.inl sock) := by
  simp only [Deps.tcp, World.slot]
  constructor
  · intro htcp
    split at htcp
    · next hget => rw [hget, Option.some.inj htcp]
    · cases htcp
  · intro hget
    rw [hget]

theorem dns_slot (w : World D) (h : Handle) (sock : D.Dns) :
    D.dns w.actor.sockets h = some sock ↔ w.slot h = some (.inr sock) := by
  simp only [Deps.dns, World.slot]
  constructor
  · intro hdns
    split at hdns
    · next hget => rw [hget, Option.some.inj hdns]
    · cases hdns
  · intro hget
    rw [hget]

theorem tcp_of_slot {w : World D} {h : Handle} {x : Option (D.Tcp ⊕ D.Dns)}
    (hx : w.slot h = x) : (D.tcp w.actor.sockets h).isSome = (x.bind Sum.getLeft?).isSome := by
  subst hx
  simp only [Deps.tcp, World.slot]
  cases D.get w.actor.sockets h with
  | none => rfl
  | some sock => cases sock <;> rfl

theorem dns_of_slot {w : World D} {h : Handle} {x : Option (D.Tcp ⊕ D.Dns)}
    (hx : w.slot h = x) : (D.dns w.actor.sockets h).isSome = (x.bind Sum.getRight?).isSome := by
  subst hx
  simp only [Deps.dns, World.slot]
  cases D.get w.actor.sockets h with
  | none => rfl
  | some sock => cases sock <;> rfl

theorem Deps.tcp_of_get {D : Deps} {s : D.SocketSet} {h : Handle} {sock : D.Tcp}
    (hs : D.get s h = some (.inl sock)) : D.tcp s h = some sock := by
  rw [Deps.tcp, hs]

theorem Deps.tcp_of_inr {D : Deps} {s : D.SocketSet} {h : Handle} {sock : D.Dns}
    (hs : D.get s h = some (.inr sock)) : D.tcp s h = none := by
  rw [Deps.tcp, hs]

theorem Deps.dns_of_inl {D : Deps} {s : D.SocketSet} {h : Handle} {sock : D.Tcp}
    (hs : D.get s h = some (.inl sock)) : D.dns s h = none := by
  rw [Deps.dns, hs]

theorem Deps.dns_congr {D : Deps} {s s' : D.SocketSet} {h h' : Handle}
    (heq : D.get s h = D.get s' h') : D.dns s h = D.dns s' h' := by
  simp only [Deps.dns, heq]

theorem Deps.removeSlot_some {D : Deps} {s : D.SocketSet} {h : Handle}
    (hs : D.get s h ≠ none) : D.removeSlot s h = some (D.remove s h) := by
  rw [Deps.removeSlot]
  split
  · rfl
  · next hnone => exact absurd hnone hs

/-! ## A write to one slot -/

/-- One slot, its entry, and nothing else of the tables is written. -/
structure Rewrote (w w' : World D) (h : Handle) (x : Option (D.Tcp ⊕ D.Dns)) : Prop where
  slot_self : w'.slot h = x
  slot_ne : ∀ k, k ≠ h → w'.slot k = w.slot k
  entry_ne : ∀ k, k ≠ h → w'.entry k = w.entry k
  dnsHandle : w'.actor.dnsHandle = w.actor.dnsHandle
  dnsPending : w'.actor.dnsPending = w.actor.dnsPending

/-- The slot held no DNS socket and holds a TCP socket exactly if there is an entry. -/
theorem Rewrote.inStep {w w' : World D} {h : Handle} {x : Option D.Tcp}
    (hr : Rewrote w w' h (x.map .inl)) (hentry : (w'.entry h).isSome = x.isSome)
    (hh : h ≠ w.actor.dnsHandle) (hs : InStep w) : InStep w' := by
  constructor
  · intro k
    by_cases hk : k = h
    · subst hk
      rw [tcp_of_slot hr.slot_self, hentry]
      cases x <;> rfl
    · rw [tcp_of_slot (hr.slot_ne k hk), hr.entry_ne k hk, ← hs.tcp k]
      exact (tcp_of_slot rfl).symm
  · intro k
    rw [hr.dnsHandle]
    by_cases hk : k = h
    · subst hk
      rw [dns_of_slot hr.slot_self]
      constructor
      · intro hsome
        cases x <;> cases hsome
      · exact fun heq => absurd heq hh
    · rw [dns_of_slot (hr.slot_ne k hk), ← hs.dns k, dns_of_slot rfl]

theorem Rewrote.asked {live : D.Dns → D.Query → Prop} {w w' : World D} {h : Handle}
    {x : Option (D.Tcp ⊕ D.Dns)} (hr : Rewrote w w' h x) (hh : h ≠ w.actor.dnsHandle)
    (ha : Asked live w) : Asked live w' := by
  constructor
  · intro dns hdns p hp
    rw [hr.dnsHandle, dns_slot, hr.slot_ne _ (Ne.symm hh), ← dns_slot] at hdns
    exact ha.live dns hdns p (hr.dnsPending ▸ hp)
  · rw [hr.dnsPending]; exact ha.nodup

/-- An entry is not in the slot of the DNS socket. -/
theorem InStep.ne_dns {w : World D} (hs : InStep w) {h : Handle}
    (hentry : (w.entry h).isSome = true) : h ≠ w.actor.dnsHandle := by
  intro heq
  have htcp := (hs.tcp h).trans hentry
  have hdns := (hs.dns h).mpr heq
  rw [tcp_of_slot rfl] at htcp
  rw [dns_of_slot rfl] at hdns
  cases hslot : w.slot h with
  | none => rw [hslot] at htcp; cases htcp
  | some sock =>
      rw [hslot] at htcp hdns
      cases sock with
      | inl sock => cases hdns
      | inr sock => cases htcp

/-- The DNS socket. -/
theorem InStep.dns_some {w : World D} (hs : InStep w) :
    ∃ dns, D.dns w.actor.sockets w.actor.dnsHandle = some dns :=
  Option.isSome_iff_exists.mp ((hs.dns _).mpr rfl)

/-! ## The functions of the actor -/

/-- The three tables are in step. -/
structure Sound (live : D.Dns → D.Query → Prop) (w : World D) : Prop where
  inStep : InStep w
  asked : Asked live w

section
variable {live : D.Dns → D.Query → Prop} {w : World D}

theorem Rewrote.sound {w' : World D} {h : Handle} {x : Option D.Tcp}
    (hr : Rewrote w w' h (x.map .inl)) (hentry : (w'.entry h).isSome = x.isSome)
    (hh : h ≠ w.actor.dnsHandle) (hs : Sound live w) : Sound live w' :=
  ⟨hr.inStep hentry hh hs.inStep, hr.asked hh hs.asked⟩

/-- Nothing but entries already there is written. -/
theorem Sound.of_conns {w' : World D} (hsockets : w'.actor.sockets = w.actor.sockets)
    (hentry : ∀ h, (w'.entry h).isSome = (w.entry h).isSome)
    (hdns : w'.actor.dnsHandle = w.actor.dnsHandle)
    (hpending : w'.actor.dnsPending = w.actor.dnsPending) (hs : Sound live w) :
    Sound live w' := by
  refine ⟨⟨?_, ?_⟩, ⟨?_, ?_⟩⟩
  · intro h; rw [hsockets, hentry]; exact hs.inStep.tcp h
  · intro h; rw [hsockets, hdns]; exact hs.inStep.dns h
  · rw [hsockets, hdns, hpending]; exact hs.asked.live
  · rw [hpending]; exact hs.asked.nodup

/-! ### Connect -/

/-- A new slot is none of those in use. -/
theorem nextSlot_free (hD : D.SocketSetLaws) (w : World D) : w.slot w.nextSlot = none :=
  hD.add_free ..

theorem Sound.nextSlot_ne (hD : D.SocketSetLaws) (hs : Sound live w) :
    w.nextSlot ≠ w.actor.dnsHandle := by
  intro heq
  obtain ⟨dns, hdns⟩ := hs.inStep.dns_some
  rw [dns_slot, ← heq, nextSlot_free hD] at hdns
  cases hdns

/-- A connect that smoltcp takes writes the next slot, and one that it refuses takes the slot
back. -/
theorem handleConnect_rewrote (hD : D.SocketSetLaws) (w : World D) (remote : SocketAddr)
    (c : ConnId) : ∃ w' x, w.handleConnect remote c = some w' ∧
      Rewrote w w' w.nextSlot (x.map .inl) ∧
      (∀ sock, x = some sock → ∃ iface, D.connect w.actor.iface (D.newTcp sockBuf sockBuf) remote
        w.actor.nextPort = (iface, .ok sock)) ∧
      w'.entry w.nextSlot =
        if x.isSome then some (w.newConn remote c) else w.entry w.nextSlot := by
  have hadd : ∀ k, D.get (D.add w.actor.sockets (.inl (D.newTcp sockBuf sockBuf))).2 k =
      if k = w.nextSlot then some (.inl (D.newTcp sockBuf sockBuf)) else w.slot k :=
    fun k => hD.get_add ..
  have hself := hadd w.nextSlot
  rw [if_pos rfl] at hself
  have hocc : D.get (D.add w.actor.sockets (.inl (D.newTcp sockBuf sockBuf))).2 w.nextSlot ≠
      none := by
    rw [hself]
    exact Option.some_ne_none _
  have htcp : D.tcp (D.add w.actor.sockets (.inl (D.newTcp sockBuf sockBuf))).2 w.nextSlot =
      some (D.newTcp sockBuf sockBuf) := Deps.tcp_of_get hself
  have hne : ∀ k, k ≠ w.nextSlot →
      D.get (D.add w.actor.sockets (.inl (D.newTcp sockBuf sockBuf))).2 k = w.slot k :=
    fun k hk => (hadd k).trans (if_neg hk)
  rw [World.nextSlot] at hocc htcp
  simp only [World.handleConnect, htcp]
  split
  · next iface sock hconnect =>
      refine ⟨_, some sock, rfl, ⟨?_, ?_, ?_, ?_, ?_⟩, ?_, ?_⟩
      · rw [World.slot, insertConn_actor]
        exact (hD.get_set _ _ _ _ hocc).trans (if_pos rfl)
      · intro k hk
        rw [World.slot, insertConn_actor]
        exact ((hD.get_set _ _ _ _ hocc).trans (if_neg hk)).trans (hne k hk)
      · intro k hk
        rw [World.entry, insertConn_actor]
        exact AList.lookup_insert_ne hk
      · rw [insertConn_actor]; rfl
      · rw [insertConn_actor]; rfl
      · intro sock' hsock'
        cases hsock'
        exact ⟨iface, hconnect⟩
      · rw [World.entry, insertConn_actor]
        exact AList.lookup_insert _
  · next iface e hconnect =>
      rw [Deps.removeSlot_some hocc]
      refine ⟨_, none, rfl, ⟨?_, ?_, fun _ _ => rfl, rfl, rfl⟩,
        fun _ h => absurd h.symm (Option.some_ne_none _), rfl⟩
      · exact (hD.get_remove ..).trans (if_pos rfl)
      · intro k hk
        exact ((hD.get_remove ..).trans (if_neg hk)).trans (hne k hk)

theorem handleConnect_sound (hD : D.SocketSetLaws) (hs : Sound live w) (remote : SocketAddr)
    (c : ConnId) : ∃ w', w.handleConnect remote c = some w' ∧ Sound live w' := by
  obtain ⟨w', x, hw', hr, -, hentry⟩ := handleConnect_rewrote hD w remote c
  refine ⟨w', hw', hr.sound ?_ (hs.nextSlot_ne hD) hs⟩
  rw [hentry]
  cases x with
  | some sock => rfl
  | none =>
      -- the slot was free, so there was no entry
      have hfree := hs.inStep.tcp w.nextSlot
      rw [tcp_of_slot (nextSlot_free hD w)] at hfree
      exact hfree.symm

/-! ### Send and Close -/

theorem setConn_isSome (w : World D) {h : Handle} (hentry : (w.entry h).isSome)
    (conn : Conn) (k : Handle) : ((w.setConn h conn).entry k).isSome = (w.entry k).isSome := by
  by_cases hk : k = h
  · subst hk
    rw [hentry]
    exact congrArg Option.isSome (AList.lookup_insert _)
  · exact congrArg Option.isSome (AList.lookup_insert_ne hk)

theorem setConn_sound (hs : Sound live w) {h : Handle} {conn : Conn}
    (hconn : w.entry h = some conn) (conn' : Conn) (e : Event) :
    Sound live ((w.setConn h conn').record e) :=
  Sound.of_conns (w := w) rfl (setConn_isSome w (by rw [hconn]; rfl) conn') rfl rfl hs

theorem handleSend_sound (hs : Sound live w) (h : Handle) (data : List UInt8) (o : ConnId) :
    Sound live (w.handleSend h data o) := by
  rw [World.handleSend]
  split
  · next conn hconn => exact setConn_sound hs hconn _ _
  · exact hs

theorem handleClose_sound (hs : Sound live w) (h : Handle) (o : ConnId) :
    Sound live (w.handleClose h o) := by
  rw [World.handleClose]
  split
  · next conn hconn => exact setConn_sound hs hconn _ _
  · exact hs

/-! ### Queries -/

/-- What is written through `get_mut::<dns::Socket>(dns_handle)`, and the queries after it. -/
def World.setDns (w : World D) (dns : D.Dns) (pending : List (PendingDns D)) : World D :=
  { w with actor := { w.actor with
      sockets := D.set w.actor.sockets w.actor.dnsHandle (.inr dns), dnsPending := pending } }

theorem setDns_slot (hD : D.SocketSetLaws) (hs : InStep w) (dns : D.Dns)
    (pending : List (PendingDns D)) (k : Handle) : (w.setDns dns pending).slot k =
      if k = w.actor.dnsHandle then some (.inr dns) else w.slot k := by
  refine hD.get_set _ _ _ _ ?_
  obtain ⟨dns', hdns⟩ := hs.dns_some
  rw [dns_slot, World.slot] at hdns
  rw [hdns]
  exact Option.some_ne_none _

theorem setDns_inStep (hD : D.SocketSetLaws) (hs : InStep w) (dns : D.Dns)
    (pending : List (PendingDns D)) : InStep (w.setDns dns pending) := by
  have hslot := setDns_slot hD hs dns pending
  constructor
  · intro k
    refine Eq.trans ?_ (hs.tcp k)
    rw [tcp_of_slot (hslot k), tcp_of_slot rfl]
    split
    · next hk =>
        obtain ⟨dns', hdns⟩ := hs.dns_some
        rw [dns_slot, ← hk] at hdns
        rw [hdns]
        rfl
    · rfl
  · intro k
    refine Iff.trans ?_ (hs.dns k)
    rw [dns_of_slot (hslot k), dns_of_slot rfl]
    split
    · next hk =>
        obtain ⟨dns', hdns⟩ := hs.dns_some
        rw [dns_slot, ← hk] at hdns
        rw [hdns]
        exact Iff.rfl
    · exact Iff.rfl

theorem setDns_dns (hD : D.SocketSetLaws) (hs : InStep w) (dns : D.Dns)
    (pending : List (PendingDns D)) :
    D.dns (w.setDns dns pending).actor.sockets w.actor.dnsHandle = some dns := by
  refine (dns_slot (w.setDns dns pending) _ _).mpr ?_
  rw [setDns_slot hD hs, if_pos rfl]

theorem setDns_sound (hD : D.SocketSetLaws) (hs : InStep w) {dns : D.Dns}
    {pending : List (PendingDns D)} (hlive : ∀ p ∈ pending, live dns p.query)
    (hnodup : (pending.map PendingDns.query).Nodup) : Sound live (w.setDns dns pending) := by
  refine ⟨setDns_inStep hD hs dns pending, ?_, hnodup⟩
  intro dns' hdns p hp
  rw [show (w.setDns dns pending).actor.dnsHandle = w.actor.dnsHandle from rfl,
    setDns_dns hD hs, Option.some.injEq] at hdns
  exact hdns ▸ hlive p hp

/-- The TCP sockets stay where they are. -/
theorem setDns_tcp (hD : D.SocketSetLaws) (hs : InStep w) (dns : D.Dns)
    (pending : List (PendingDns D)) (k : Handle) :
    D.tcp (w.setDns dns pending).actor.sockets k = D.tcp w.actor.sockets k := by
  by_cases hk : k = w.actor.dnsHandle
  · obtain ⟨dns', hdns⟩ := hs.dns_some
    have hold : D.tcp w.actor.sockets k = none := by
      have hslot : w.slot k = some (.inr dns') := hk ▸ (dns_slot w _ _).mp hdns
      exact Deps.tcp_of_inr hslot
    rw [hold]
    exact Deps.tcp_of_inr ((setDns_slot hD hs dns pending k).trans (if_pos hk))
  · exact Deps.tcp_congr ((setDns_slot hD hs dns pending k).trans (if_neg hk))

theorem handleResolve_tcp (hD : D.SocketSetLaws) (hs : InStep w) {w' : World D} {name : String}
    {r : ResolveId} (h : w.handleResolve name r = some w') (k : Handle) :
    D.tcp w'.actor.sockets k = D.tcp w.actor.sockets k := by
  rw [World.handleResolve] at h
  split at h
  · cases h
    rfl
  · split at h
    · cases h
    · next dns hdns =>
        split at h
        · cases h
          exact setDns_tcp hD hs _ w.actor.dnsPending k
        · cases h
          rfl

theorem handleResolve_sound (hD : D.SocketSetLaws) (hQ : D.DnsLaws live) (hs : Sound live w)
    (name : String) (r : ResolveId) :
    ∃ w', w.handleResolve name r = some w' ∧ Sound live w' := by
  obtain ⟨dns, hdns⟩ := hs.inStep.dns_some
  have hlive := hs.asked.live dns hdns
  rw [World.handleResolve]
  split
  · exact ⟨_, rfl, Sound.of_conns (w := w) rfl (fun _ => rfl) rfl rfl hs⟩
  · simp only [hdns]
    split
    · next iface query dns' hstart =>
        obtain ⟨hfresh, hnew, hold⟩ := hQ.started _ _ _ _ _ _ hstart
        have hiface : Sound live { w with actor := { w.actor with iface := iface } } :=
          Sound.of_conns (w := w) rfl (fun _ => rfl) rfl rfl hs
        refine ⟨_, rfl, setDns_sound hD hiface.inStep ?_ ?_⟩
        · intro p hp
          rcases List.mem_append.mp hp with hp | hp
          · exact hold _ (hlive p hp)
          · rw [List.mem_singleton.mp hp]; exact hnew
        · -- the query just given out is none of the pending ones
          rw [List.map_append]
          refine List.nodup_append.mpr ⟨hs.asked.nodup, List.nodup_singleton _, ?_⟩
          intro q hq q' hq' heq
          obtain ⟨p, hp, rfl⟩ := List.mem_map.mp hq
          have hquery : p.query = query := heq.trans (List.mem_singleton.mp hq')
          exact hfresh (hquery ▸ hlive p hp)
    · exact ⟨_, rfl, Sound.of_conns (w := w) rfl (fun _ => rfl) rfl rfl hs⟩

theorem handleCmd_sound (hD : D.SocketSetLaws) (hQ : D.DnsLaws live) (hs : Sound live w)
    (cmd : Cmd) : ∃ w', w.handleCmd cmd = some w' ∧ Sound live w' := by
  cases cmd with
  | inbound pkt => exact ⟨_, rfl, Sound.of_conns (w := w) rfl (fun _ => rfl) rfl rfl hs⟩
  | connect remote c => exact handleConnect_sound hD hs remote c
  | send h data o => exact ⟨_, rfl, handleSend_sound hs h data o⟩
  | close h o => exact ⟨_, rfl, handleClose_sound hs h o⟩
  | resolve name r => exact handleResolve_sound hD hQ hs name r

/-! ### `service_sockets` -/

theorem writeBack_slot (hD : D.SocketSetLaws) {h : Handle} (hocc : w.slot h ≠ none)
    (v : Visit D) (k : Handle) :
    (w.writeBack h v).slot k = if k = h then some (.inl v.sock) else w.slot k := by
  rw [World.slot, writeBack_actor]
  exact hD.get_set _ _ _ _ hocc

/-- A turn of the loop for a key of `conns` writes its slot and its entry. -/
theorem serviceSocket_rewrote (hD : D.SocketSetLaws) {h : Handle} {sock : D.Tcp} {conn : Conn}
    (hsock : D.tcp w.actor.sockets h = some sock) (hconn : w.entry h = some conn)
    (seams : List Nat) : ∃ w', w.serviceSocket h seams = some w' ∧
      Serviced w w' h (visit D h seams sock conn (w.chans conn.fromNet)) ∧
      Rewrote w w' h ((if (visit D h seams sock conn (w.chans conn.fromNet)).remove then none
        else some (visit D h seams sock conn (w.chans conn.fromNet)).sock).map .inl) := by
  have hocc : w.slot h ≠ none := by
    rw [(tcp_slot w h sock).mp hsock]
    exact Option.some_ne_none _
  simp only [World.serviceSocket, hsock]
  rw [show w.actor.conns.lookup h = some conn from hconn]
  simp only
  generalize visit D h seams sock conn (w.chans conn.fromNet) = v
  have hslot := writeBack_slot hD hocc v
  cases hv : v.remove with
  | false =>
      have hw := writeBack_serviced w h v hv
      simp only [Bool.false_eq_true, if_false]
      refine ⟨_, rfl, hw, ⟨?_, ?_, hw.entry_ne, ?_, ?_⟩⟩
      · exact (hslot h).trans (if_pos rfl)
      · exact fun k hk => (hslot k).trans (if_neg hk)
      · rw [writeBack_actor]
      · rw [writeBack_actor]
  | true =>
      have hget : D.get (w.writeBack h v).actor.sockets h ≠ none := by
        have hself := (hslot h).trans (if_pos rfl)
        rw [World.slot] at hself
        rw [hself]
        exact Option.some_ne_none _
      have hremove : (w.writeBack h v).removeConn h v.conn = some (World.dropConn
          { w.writeBack h v with actor := { (w.writeBack h v).actor with
            sockets := D.remove (w.writeBack h v).actor.sockets h
            conns := (w.writeBack h v).actor.conns.erase h } } v.conn) := by
        rw [World.removeConn, Deps.removeSlot_some hget]
      have hw := removeConn_serviced hv hremove
      simp only [if_true]
      refine ⟨_, hremove, hw, ⟨?_, ?_, hw.entry_ne, ?_, ?_⟩⟩
      · rw [World.slot, dropConn_actor]
        exact (hD.get_remove ..).trans (if_pos rfl)
      · intro k hk
        rw [World.slot, dropConn_actor]
        exact ((hD.get_remove ..).trans (if_neg hk)).trans ((hslot k).trans (if_neg hk))
      · rw [dropConn_actor, writeBack_actor]
      · rw [dropConn_actor, writeBack_actor]

theorem serviceSocket_sound (hD : D.SocketSetLaws) (hs : Sound live w) {h : Handle}
    (hentry : (w.entry h).isSome = true) (seams : List Nat) :
    ∃ w', w.serviceSocket h seams = some w' ∧ Sound live w' ∧
      ∀ k, k ≠ h → w'.entry k = w.entry k := by
  obtain ⟨sock, hsock⟩ := Option.isSome_iff_exists.mp ((hs.inStep.tcp h).trans hentry)
  obtain ⟨conn, hconn⟩ := Option.isSome_iff_exists.mp hentry
  obtain ⟨w', hw', hserviced, hr⟩ := serviceSocket_rewrote hD hsock hconn seams
  refine ⟨w', hw', hr.sound ?_ (hs.inStep.ne_dns hentry) hs, hserviced.entry_ne⟩
  rw [hserviced.entry_self]
  split <;> rfl

/-- A pass over distinct keys of `conns`: a turn removes no entry but its own. -/
theorem serviceSockets_sound (hD : D.SocketSetLaws) (order : List (Handle × List Nat))
    {w : World D} (hs : Sound live w) (hnodup : (order.map Prod.fst).Nodup)
    (hkeys : ∀ k ∈ order.map Prod.fst, (w.entry k).isSome = true) :
    ∃ w', w.serviceSockets order = some w' ∧ Sound live w' := by
  induction order generalizing w with
  | nil => exact ⟨w, rfl, hs⟩
  | cons p order ih =>
      obtain ⟨h, seams⟩ := p
      obtain ⟨hnot, hnodup⟩ := List.nodup_cons.mp hnodup
      obtain ⟨w₁, hturn, hs₁, hne⟩ :=
        serviceSocket_sound hD hs (hkeys h List.mem_cons_self) seams
      have hkeys₁ : ∀ k ∈ order.map Prod.fst, (w₁.entry k).isSome = true := by
        intro k hk
        have hkh : k ≠ h := fun heq => hnot (heq ▸ hk)
        rw [hne k hkh]
        exact hkeys k (List.mem_cons_of_mem _ hk)
      obtain ⟨w', hpass, hs'⟩ := ih hs₁ hnodup hkeys₁
      refine ⟨w', ?_, hs'⟩
      rw [World.serviceSockets, hturn]
      exact hpass

theorem serviceSockets_keys (hD : D.SocketSetLaws) (hs : Sound live w)
    {order : List (Handle × List Nat)}
    (hperm : (order.map Prod.fst).Perm w.actor.conns.keys) :
    ∃ w', w.serviceSockets order = some w' ∧ Sound live w' := by
  refine serviceSockets_sound hD order hs (hperm.nodup_iff.mpr w.actor.conns.nodupKeys) ?_
  intro k hk
  exact AList.lookup_isSome.mpr (AList.mem_keys.mp (hperm.mem_iff.mp hk))

/-! ### `service_dns` and `poll` -/

/-- From some index on: the queries kept and those to come are distinct and in use. -/
theorem serviceDnsFrom_sound (hD : D.SocketSetLaws) (hQ : D.DnsLaws live)
    (pending kept : List (PendingDns D)) {w : World D} (hs : InStep w)
    (hlive : ∀ dns, D.dns w.actor.sockets w.actor.dnsHandle = some dns →
      ∀ p ∈ kept ++ pending, live dns p.query)
    (hnodup : ((kept ++ pending).map PendingDns.query).Nodup) :
    ∃ w', w.serviceDnsFrom kept pending = some w' ∧ Sound live w' := by
  induction pending generalizing kept w with
  | nil =>
      rw [List.append_nil] at hlive hnodup
      exact ⟨_, rfl, ⟨hs.tcp, hs.dns⟩, hlive, hnodup⟩
  | cons p pending ih =>
      obtain ⟨dns, hdns⟩ := hs.dns_some
      have hold := hlive dns hdns
      have hp : live dns p.query := hold p (by simp)
      -- once the result of `p` is written the rest of the loop is sound
      have hrest : ∀ (dns' : D.Dns) (w' : World D) (kept' : List (PendingDns D)),
          w'.actor = (w.setDns dns' w.actor.dnsPending).actor →
          (∀ p' ∈ kept' ++ pending, live dns' p'.query) →
          ((kept' ++ pending).map PendingDns.query).Nodup →
          ∃ w'', w'.serviceDnsFrom kept' pending = some w'' ∧ Sound live w'' := by
        intro dns' w' kept' hactor hlive' hnodup'
        have hset := setDns_inStep hD hs dns' w.actor.dnsPending
        refine ih kept' ⟨?_, ?_⟩ ?_ hnodup'
        · intro k; rw [World.entry, hactor]; exact hset.tcp k
        · intro k; rw [hactor]; exact hset.dns k
        · intro dns'' hdns''
          rw [hactor] at hdns''
          exact Option.some.inj (hdns''.symm.trans (setDns_dns hD hs dns' _)) ▸ hlive'
      have hdrop : ((kept ++ pending).map PendingDns.query).Nodup ∧
          ∀ p' ∈ kept ++ pending, p'.query ≠ p.query := by
        have hperm : (kept ++ p :: pending).Perm (p :: (kept ++ pending)) := List.perm_middle
        have hnd := (hperm.map PendingDns.query).nodup_iff.mp hnodup
        obtain ⟨hnot, hnd⟩ := List.nodup_cons.mp hnd
        exact ⟨hnd, fun p' hp' heq => hnot (heq ▸ List.mem_map_of_mem hp')⟩
      have hmem : ∀ p' ∈ kept ++ pending, p' ∈ kept ++ p :: pending := by
        intro p' hp'
        rcases List.mem_append.mp hp' with hp' | hp'
        · exact List.mem_append_left _ hp'
        · exact List.mem_append_right _ (List.mem_cons_of_mem _ hp')
      rw [World.serviceDnsFrom]
      simp only [hdns]
      split
      · next hnone => exact absurd hnone (hQ.result dns p.query hp)
      · next result dns' hresult =>
          have hothers : ∀ p' ∈ kept ++ pending, live dns' p'.query := fun p' hp' =>
            hQ.finished _ _ _ _ hresult _ (hdrop.2 p' hp') (hold p' (hmem p' hp'))
          split
          · exact hrest dns' _ kept rfl hothers hdrop.1
          · refine hrest dns' _ (kept ++ [p]) rfl (fun p' hp' => ?_) ?_
            · rw [List.append_assoc] at hp'
              exact hQ.pending _ _ _ hresult _ (hold p' hp')
            · rw [List.append_assoc]
              exact hnodup
          · exact hrest dns' _ kept rfl hothers hdrop.1

theorem serviceDnsFrom_tcp (hD : D.SocketSetLaws) (pending kept : List (PendingDns D))
    {w w' : World D} (hs : InStep w) (h : w.serviceDnsFrom kept pending = some w')
    (k : Handle) : D.tcp w'.actor.sockets k = D.tcp w.actor.sockets k := by
  induction pending generalizing kept w with
  | nil =>
      cases h
      rfl
  | cons p pending ih =>
      rw [World.serviceDnsFrom] at h
      split at h
      · cases h
      · split at h
        · cases h
        · next result dns' hresult =>
            have hset := setDns_inStep hD hs dns' w.actor.dnsPending
            have htcp := setDns_tcp hD hs dns' w.actor.dnsPending k
            split at h
            all_goals
              refine (ih _ ?_ h).trans htcp
              exact ⟨hset.tcp, hset.dns⟩

theorem serviceDns_sound (hD : D.SocketSetLaws) (hQ : D.DnsLaws live) (hs : Sound live w) :
    ∃ w', w.serviceDns = some w' ∧ Sound live w' :=
  serviceDnsFrom_sound hD hQ _ [] hs.inStep hs.asked.live hs.asked.nodup

theorem poll_sound (hP : D.PollLaws) (hQ : D.DnsLaws live) (hs : Sound live w) (now : Int) :
    Sound live (w.poll now) := by
  refine ⟨⟨?_, ?_⟩, ?_, hs.asked.nodup⟩
  · exact fun h => (hP.tcp_poll ..).trans (hs.inStep.tcp h)
  · intro h
    refine Iff.trans ?_ (hs.inStep.dns h)
    exact iff_of_eq (congrArg (· = true) (hP.dns_poll ..))
  · intro dns' hdns' p hp
    obtain ⟨dns, hdns⟩ := hs.inStep.dns_some
    exact hQ.polled _ _ _ _ _ _ _ hdns hdns' _ (hs.asked.live dns hdns p hp)

/-! ## Every run -/

/-- What may happen next to the actor's world: one of its functions, whatever the command and
the order of the keys, or a step of the rest of the program. -/
inductive Act where
  | poll (now : Int)
  | service (order : List (Handle × List Nat))
  | dns
  | cmd (cmd : Cmd)
  | outside
  deriving DecidableEq

/-- `none` where the actor panics. -/
inductive Does (w : World D) : Act → Option (World D) → Prop
  | poll (now : Int) : Does w (.poll now) (some (w.poll now))
  | service {order : List (Handle × List Nat)} :
      (order.map Prod.fst).Perm w.actor.conns.keys →
      Does w (.service order) (w.serviceSockets order)
  | dns : Does w .dns w.serviceDns
  | cmd (cmd : Cmd) : Does w (.cmd cmd) (w.handleCmd cmd)
  | outside {w' : World D} : w'.actor = w.actor → Does w .outside (some w')

/-- What any sequence of commands and passes leads to. -/
abbrev World.Reachable (w : World D) : Prop :=
  Transition.Reachable (fun w l w' => Does w l (some w'))
    (fun w => ∃ mtu v4 v6, w.actor = Actor.new D mtu v4 v6) w

theorem Sound.of_actor {w' : World D} (hactor : w'.actor = w.actor) (hs : Sound live w) :
    Sound live w' :=
  Sound.of_conns (w := w) (by rw [hactor])
    (fun h => by rw [World.entry, World.entry, hactor]) (by rw [hactor]) (by rw [hactor]) hs

theorem new_sound (hD : D.SocketSetLaws) {mtu : Nat} {v4 : Ipv4Addr} {v6 : Option Ipv6Addr}
    (hw : w.actor = Actor.new D mtu v4 v6) : Sound live w := by
  have hslot : ∀ k, w.slot k =
      if k = w.actor.dnsHandle then some (.inr (D.newDns [.v4 0x01010101])) else none := by
    intro k
    rw [World.slot, hw]
    refine (hD.get_add ..).trans ?_
    rw [hD.get_new]
    rfl
  refine ⟨⟨?_, ?_⟩, ⟨?_, ?_⟩⟩
  · intro h
    rw [tcp_of_slot (hslot h), World.entry, hw]
    split <;> rfl
  · intro h
    rw [dns_of_slot (hslot h)]
    split
    · next hh => exact ⟨fun _ => hh, fun _ => rfl⟩
    · next hh => exact ⟨fun hnone => (by cases hnone), fun heq => absurd heq hh⟩
  · intro _ _ p hp
    rw [hw] at hp
    exact absurd hp List.not_mem_nil
  · rw [hw]
    exact List.nodup_nil

/-- **One step**: where the tables are in step nothing panics, and they are in step after. -/
theorem Does.sound (hD : D.SocketSetLaws) (hP : D.PollLaws) (hQ : D.DnsLaws live)
    {l : Act} {o : Option (World D)} (h : Does w l o) (hs : Sound live w) :
    ∃ w', o = some w' ∧ Sound live w' := by
  cases h with
  | poll now => exact ⟨_, rfl, poll_sound hP hQ hs now⟩
  | service hperm => exact serviceSockets_keys hD hs hperm
  | dns => exact serviceDns_sound hD hQ hs
  | cmd cmd => exact handleCmd_sound hD hQ hs cmd
  | outside hactor => exact ⟨_, rfl, hs.of_actor hactor⟩

theorem World.Reachable.sound (hD : D.SocketSetLaws) (hP : D.PollLaws) (hQ : D.DnsLaws live)
    (h : w.Reachable) : Sound live w := by
  refine Transition.Reachable.invariant (Sound live) h ?_ fun w l w' hs hstep => ?_
  · rintro w ⟨mtu, v4, v6, hw⟩
    exact new_sound hD hw
  · obtain ⟨w'', heq, hs'⟩ := Does.sound hD hP hQ hstep hs
    exact Option.some.inj heq ▸ hs'

/-! ### Of the whole system -/

/-- The async side has no access to the actor's tables. -/
theorem stepAsync_actor {s t : System D} {l : Label} (h : s.stepAsync l = some t) :
    t.world.actor = s.world.actor ∧ t.pc = s.pc := by
  cases AsyncStep.of_eq h <;> exact ⟨rfl, rfl⟩

/-- A step of the actor is one of its functions, or only moves its program counter. -/
theorem stepActor_does {s t : System D} {l : Label} (h : s.stepActor l = some t) :
    (t.world = s.world ∧ (t.pc = .panicked → s.pc = .panicked)) ∨
      ∃ l o, Does s.world l o ∧ ∀ w, o = some w → t.world = w ∧ (t.pc = .panicked → False) := by
  cases ActorStep.of_eq h with
  | poll now =>
      refine .inr ⟨_, _, .poll now, fun w hw => ?_⟩
      cases hw
      exact ⟨rfl, Pc.noConfusion⟩
  | service _ hperm =>
      refine .inr ⟨_, _, .service hperm, fun w hw => ?_⟩
      rw [hw]
      exact ⟨rfl, Pc.noConfusion⟩
  | dns =>
      refine .inr ⟨_, _, .dns, fun w hw => ?_⟩
      rw [hw]
      exact ⟨rfl, Pc.noConfusion⟩
  | @recv cmd =>
      refine .inr ⟨_, _, .cmd cmd, fun w hw => ?_⟩
      rw [hw]
      exact ⟨rfl, Pc.noConfusion⟩
  | timeout | drained => exact .inl ⟨rfl, Pc.noConfusion⟩

/-- The world of the system is one that the actor's own steps lead to, and it runs on. -/
structure Runs (live : D.Dns → D.Query → Prop) (s : System D) : Prop where
  world : s.world.Reachable
  running : s.pc ≠ .panicked

theorem Step.runs (hD : D.SocketSetLaws) (hP : D.PollLaws) (hQ : D.DnsLaws live)
    {s t : System D} {l : Label} (h : Step s l t) (hs : Runs live s) : Runs live t := by
  rcases step_cases h with h | h
  · rcases stepActor_does h with ⟨hworld, hpc⟩ | ⟨l, o, hdoes, hthen⟩
    · exact ⟨hworld ▸ hs.world, fun hpanicked => hs.running (hpc hpanicked)⟩
    · obtain ⟨w, rfl, -⟩ := Does.sound hD hP hQ hdoes (hs.world.sound hD hP hQ)
      obtain ⟨hworld, hpc⟩ := hthen w rfl
      exact ⟨hworld ▸ hs.world.tail hdoes, hpc⟩
  · obtain ⟨hactor, hpc⟩ := stepAsync_actor h
    exact ⟨hs.world.tail (.outside hactor), hpc ▸ hs.running⟩

theorem Reachable.runs (hD : D.SocketSetLaws) (hP : D.PollLaws) (hQ : D.DnsLaws live)
    {s : System D} (h : Reachable s) : Runs live s := by
  refine Transition.Reachable.invariant (Runs live) h ?_ fun _ _ _ hs hstep =>
    hstep.runs hD hP hQ hs
  rintro s ⟨mtu, v4, v6, rfl⟩
  exact ⟨.init ⟨mtu, v4, v6, rfl⟩, nofun⟩

/-- **The tables stay in step.**  Whatever commands and passes have led to it, the keys of
`conns` are the handles of the TCP sockets, the DNS handle is not one of them, and nothing the
actor does next panics; so no run of the system has its actor panicked. -/
theorem tables_in_step (hD : D.SocketSetLaws) (hP : D.PollLaws) (hQ : D.DnsLaws live) :
    (∀ w : World D, w.Reachable → InStep w ∧ w.entry w.actor.dnsHandle = none ∧
      ∀ l o, Does w l o → o ≠ none) ∧
    (∀ (h : Handle) seams (sock : D.Tcp) conn chan r,
      (visit D h seams sock conn chan).outcome = some r → conn.connectReply = true) ∧
    ∀ s : System D, Netstack.Reachable s → InStep s.world ∧ s.pc ≠ .panicked := by
  refine ⟨fun w hw => ?_, fun h seams sock conn chan r hr => ?_, fun s hs => ?_⟩
  · have hsound := hw.sound hD hP hQ
    refine ⟨hsound.inStep, ?_, fun l o hdoes => ?_⟩
    · cases hentry : w.entry w.actor.dnsHandle with
      | none => rfl
      | some conn => exact absurd rfl (hsound.inStep.ne_dns (by rw [hentry]; rfl))
    · obtain ⟨w', rfl, -⟩ := hdoes.sound hD hP hQ hsound
      exact Option.some_ne_none _
  · exact (visit_outcome h seams sock conn chan hr).1
  · have hruns := hs.runs hD hP hQ
    exact ⟨(hruns.world.sound hD hP hQ).inStep, hruns.running⟩

end

end

/-! ## The small netstack -/

namespace Toy

/-- The query has been given out and its result has not been taken. -/
def Live (dns : Dns) (q : Nat) : Prop := ∃ r, dns[q]? = some (some r)

/-- What a segment does to a socket: its receive buffer grows, its transmit buffer loses its
front, and it stays closed. -/
structure Grows (sock sock' : Tcp) : Prop where
  rx : sock.rx <+: sock'.rx
  tx : sock'.tx <:+ sock.tx
  closed : sock.state = .closed → sock'.state = .closed

theorem Grows.trans {sock sock' sock'' : Tcp} (h : Grows sock sock') (h' : Grows sock' sock'') :
    Grows sock sock'' :=
  ⟨h.rx.trans h'.rx, h'.tx.trans h.tx, fun hclosed => h'.closed (h.closed hclosed)⟩

theorem segment_grows (kind : UInt8) (payload : List UInt8) (sock : Tcp) :
    Grows sock (segment kind payload sock) := by
  unfold segment
  split
  · next hstate =>
      exact ⟨List.prefix_rfl, List.suffix_rfl, fun hclosed => nomatch hstate.symm.trans hclosed⟩
  · exact ⟨List.prefix_append _ _, List.suffix_rfl, id⟩
  · next hstate =>
      exact ⟨List.prefix_rfl, List.suffix_rfl, fun hclosed => nomatch hstate.symm.trans hclosed⟩
  · exact ⟨List.prefix_rfl, List.suffix_rfl, fun _ => rfl⟩
  · exact ⟨List.prefix_rfl, List.drop_suffix _ _, id⟩
  · exact ⟨List.prefix_rfl, List.suffix_rfl, id⟩

/-- The slot is as it was, or its TCP socket has had segments. -/
def Kept (s s' : Slots) (h : Handle) : Prop :=
  (∃ sock sock', get s h = some (.inl sock) ∧ get s' h = some (.inl sock') ∧
    Grows sock sock') ∨ get s' h = get s h

theorem Kept.trans {s s' s'' : Slots} {h : Handle} (hk : Kept s s' h) (hk' : Kept s' s'' h) :
    Kept s s'' h := by
  rcases hk with ⟨sock, sock', hs, hs', hgrows⟩ | hsame
  · rcases hk' with ⟨sock₁, sock₂, h₁, h₂, hgrows'⟩ | hsame
    · rw [hs', Option.some.injEq, Sum.inl.injEq] at h₁
      exact .inl ⟨sock, sock₂, hs, h₂, hgrows.trans (h₁ ▸ hgrows')⟩
    · exact .inl ⟨sock, sock', hs, hsame.trans hs', hgrows⟩
  · rw [Kept, ← hsame]
    exact hk'

theorem kept_foldl {f : Slots → List UInt8 → Slots} (hf : ∀ s pkt h, Kept s (f s pkt) h)
    (pkts : List (List UInt8)) (s : Slots) (h : Handle) : Kept s (pkts.foldl f s) h := by
  induction pkts generalizing s with
  | nil => exact .inr rfl
  | cons pkt pkts ih => exact (hf s pkt h).trans (ih (f s pkt))

/-- A write to a TCP socket that a segment explains. -/
theorem kept_set {s : Slots} {k : Handle} {sock sock' : Tcp} (hsock : get s k = some (.inl sock))
    (hgrows : Grows sock sock') (h : Handle) : Kept s (set s k (.inl sock')) h := by
  have hset := get_set s k (.inl sock') h (by rw [hsock]; exact Option.some_ne_none _)
  rw [Kept, hset]
  split
  · next hk => exact .inl ⟨sock, sock', hk ▸ hsock, rfl, hgrows⟩
  · exact .inr rfl

/-- A packet changes TCP sockets only. -/
theorem get_deliver (s : Slots) (pkt : List UInt8) (h : Handle) : Kept s (deliver s pkt) h := by
  unfold deliver
  split
  · next k kind payload =>
      split
      · next sock hsock => exact kept_set hsock (segment_grows kind payload sock) h
      · exact .inr rfl
  · exact .inr rfl

theorem get_delivers (pkts : List (List UInt8)) (s : Slots) (h : Handle) :
    Kept s (pkts.foldl deliver s) h :=
  kept_foldl get_deliver pkts s h

theorem Kept.grows {s s' : Slots} {h : Handle} (hk : Kept s s' h) {sock sock' : Tcp}
    (hs : Deps.toy.tcp s h = some sock) (hs' : Deps.toy.tcp s' h = some sock') :
    Grows sock sock' := by
  rcases hk with ⟨sock₁, sock₂, h₁, h₂, hgrows⟩ | hsame
  · have heq₁ : some sock = some sock₁ := hs.symm.trans (Deps.tcp_of_get h₁)
    have heq₂ : some sock' = some sock₂ := hs'.symm.trans (Deps.tcp_of_get h₂)
    rw [Option.some.inj heq₁, Option.some.inj heq₂]
    exact hgrows
  · have heq : some sock' = some sock := hs'.symm.trans ((Deps.tcp_congr hsame).trans hs)
    rw [Option.some.inj heq]
    exact ⟨List.prefix_rfl, List.suffix_rfl, id⟩

theorem Kept.tcp {s s' : Slots} {h : Handle} (hk : Kept s s' h) :
    (Deps.toy.tcp s' h).isSome = (Deps.toy.tcp s h).isSome := by
  rcases hk with ⟨sock, sock', hs, hs', -⟩ | hsame
  · have hold : Deps.toy.tcp s h = some sock := Deps.tcp_of_get hs
    have hnew : Deps.toy.tcp s' h = some sock' := Deps.tcp_of_get hs'
    rw [hold, hnew]
    rfl
  · exact congrArg Option.isSome (Deps.tcp_congr (D := Deps.toy) hsame)

/-- The DNS sockets stay. -/
theorem Kept.dns {s s' : Slots} {h : Handle} (hk : Kept s s' h) :
    Deps.toy.dns s' h = Deps.toy.dns s h := by
  rcases hk with ⟨sock, sock', hs, hs', -⟩ | hsame
  · have hold : Deps.toy.dns s h = none := Deps.dns_of_inl hs
    have hnew : Deps.toy.dns s' h = none := Deps.dns_of_inl hs'
    rw [hold, hnew]
  · exact Deps.dns_congr (D := Deps.toy) hsame

theorem live_set {dns : Dns} {q q' : Nat} (hq : q' ≠ q) (h : Live dns q') :
    Live (dns.set q none) q' := by
  obtain ⟨r, hr⟩ := h
  exact ⟨r, (List.getElem?_set_ne hq.symm).trans hr⟩

/-- A query gets a slot of its own. -/
theorem live_push (dns : Dns) : ¬ Live dns dns.length ∧
    Live (dns ++ [some .pending]) dns.length ∧
    ∀ q, Live dns q → Live (dns ++ [some .pending]) q := by
  refine ⟨?_, ⟨.pending, by simp⟩, ?_⟩
  · rintro ⟨r, hr⟩
    rw [List.getElem?_eq_none (Nat.le_refl _)] at hr
    cases hr
  · rintro q ⟨r, hr⟩
    have hlt := (List.getElem?_eq_some_iff.mp hr).1
    exact ⟨r, (List.getElem?_append_left hlt).trans hr⟩

end Toy

theorem Deps.toy_pollLaws : Deps.toy.PollLaws where
  tcp_poll _ _ device s h := (Toy.get_delivers device.rx s h).tcp
  dns_poll _ _ device s h := congrArg Option.isSome (Toy.get_delivers device.rx s h).dns

theorem Deps.toy_dnsLaws : Deps.toy.DnsLaws Toy.Live where
  result dns q h := by
    obtain ⟨r, hr⟩ := h
    simp only [Deps.toy, hr, Option.getD_some]
    cases r <;> exact Option.some_ne_none _
  pending dns q dns' h q' hq' := by
    simp only [Deps.toy] at h
    split at h
    · cases h
      exact hq'
    · next r hne hr =>
        cases h
        exact absurd rfl hne
    · cases h
  finished dns q r dns' h q' hne hq' := by
    simp only [Deps.toy] at h
    split at h
    · cases h
      exact hq'
    · cases h
      exact Toy.live_set hne hq'
    · cases h
  started iface dns name iface' q dns' h := by
    cases h
    exact Toy.live_push dns
  polled _ _ device s h dns dns' hdns hdns' q hq := by
    have heq : some dns' = some dns :=
      hdns'.symm.trans ((Toy.get_delivers device.rx s h).dns.trans hdns)
    exact Option.some.inj heq ▸ hq

/-- A connect is refused and its slot goes to the next one, which is reset. -/
theorem tables_in_step_reset : ∃ s : System Deps.toy, .replied 0 false ∈ s.world.log ∧
    .removed 1 ∈ s.world.log ∧ InStep s.world ∧ s.pc ≠ .panicked := by
  let labels : List Label :=
    [.connect ⟨.v4 1, 0⟩, .connect ⟨.v4 1, 80⟩, .poll 0, .service [], .dns, .recv, .recv,
      .inbound [1, 3], .recv, .drained, .poll 1, .service [(1, [])], .dns]
  have hrun : ((System.init Deps.toy 1280 0 none).run labels).any (fun s =>
      .replied 0 false ∈ s.world.log ∧ .removed 1 ∈ s.world.log) = true := by
    decide +kernel
  obtain ⟨s, hs, hfacts⟩ := (Option.any_eq_true _ _).mp hrun
  obtain ⟨hreplied, hremoved⟩ := of_decide_eq_true hfacts
  have hr : Reachable s := run_reachable labels (.init ⟨1280, 0, none, rfl⟩) hs
  exact ⟨s, hreplied, hremoved, (tables_in_step Deps.toy_socketSetLaws Deps.toy_pollLaws
    Deps.toy_dnsLaws).2.2 s hr⟩

end WarpProxy.Netstack
