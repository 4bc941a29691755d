/-
# `WarpProxy.Netstack.Ports` — local ports and four-tuples

`next_ephemeral_port` counts through 49152..=65535 and wraps, and never looks at
the table.  The port of the `n`-th connect is 49152 + n mod 16384 (`Ports`), so
two entries to one remote share it when their connects are a multiple of 16384
apart: the four-tuples stay unique along the runs in which no connect meets such
an entry, and one that does breaks it (`four_tuples`).
-/
import Mathlib.Data.Nat.ModEq
import WarpProxy.Netstack.Ends

namespace WarpProxy.Netstack

open Transition (guarded)

/-- The number of ephemeral ports. -/
def portCount : Nat := 16384

section
variable {D : Deps}

/-! ## The counter -/

structure Ports (w : World D) : Prop where
  next : w.actor.nextPort.toNat = 49152 + w.connects % portCount
  localPort : ∀ {h conn}, w.entry h = some conn →
    conn.localPort.toNat = 49152 + conn.serial % portCount
  serial : ∀ {h conn}, w.entry h = some conn → conn.serial < w.connects

/-- The counter goes on by one, from 65535 to 49152. -/
theorem nextPort_toNat {p : UInt16} {n : Nat} (h : p.toNat = 49152 + n % portCount) :
    (if p = 65535 then 49152 else p + 1).toNat = 49152 + (n + 1) % portCount := by
  simp only [portCount] at h ⊢
  split
  · next hp =>
      subst hp
      have h₀ : (65535 : UInt16).toNat = 65535 := rfl
      have h₁ : (49152 : UInt16).toNat = 49152 := rfl
      omega
  · next hp =>
      have hne : p.toNat ≠ 65535 := fun heq => hp (UInt16.toNat_inj.mp heq)
      have hone : (1 : UInt16).toNat = 1 := rfl
      rw [UInt16.toNat_add, hone]
      omega

theorem Ports.same {w w' : World D} (hp : Ports w) (hs : SameConns w w') : Ports w' where
  next := by rw [hs.nextPort, hs.connects]; exact hp.next
  localPort he := hp.localPort (hs.entry ▸ he)
  serial he := hs.connects ▸ hp.serial (hs.entry ▸ he)

/-- What keeps the connections and the counter keeps the ports. -/
theorem Ports.retains {w w' : World D} (hr : Retains w w')
    (hnext : w'.actor.nextPort = w.actor.nextPort) (hconnects : w'.connects = w.connects)
    (hp : Ports w) : Ports w' := by
  constructor
  · rw [hnext, hconnects]; exact hp.next
  · intro h conn he
    obtain ⟨old, ho, halike⟩ := hr h conn he
    rw [halike.localPort, halike.serial]
    exact hp.localPort ho
  · intro h conn he
    obtain ⟨old, ho, halike⟩ := hr h conn he
    rw [halike.serial, hconnects]
    exact hp.serial ho

/-- A connect counts, whether or not smoltcp takes it. -/
theorem Ports.connect {w w' : World D} (remote : SocketAddr) (c : ConnId)
    (hnext : w'.actor.nextPort = w.portAfter) (hconnects : w'.connects = w.connects + 1)
    (hentry : ∀ k conn, w'.entry k = some conn →
      w.entry k = some conn ∨ conn = w.newConn remote c)
    (hp : Ports w) : Ports w' := by
  constructor
  · rw [hnext, hconnects]
    exact nextPort_toNat hp.next
  · intro k conn he
    rcases hentry k conn he with ho | rfl
    · exact hp.localPort ho
    · exact hp.next
  · intro k conn he
    rw [hconnects]
    rcases hentry k conn he with ho | rfl
    · exact Nat.lt_succ_of_lt (hp.serial ho)
    · exact Nat.lt_succ_self _

theorem Ports.cmd {w w' : World D} {cmd : Cmd} (h : Handled w w' cmd) (hp : Ports w) :
    Ports w' := by
  cases h with
  | untouched _ hw _ => exact hp.same hw.sameConns
  | @inserted remote c _ hi =>
      refine hp.connect remote c hi.nextPort hi.connects fun k conn he => ?_
      rcases hi.entry_cases he with ⟨-, hnew⟩ | ⟨-, ho⟩
      · exact .inr hnew
      · exact .inl ho
  | @rejected remote c _ hr =>
      refine hp.connect remote c hr.nextPort hr.connects fun k conn he => ?_
      exact .inl (hr.entry ▸ he)
  | sent hconn hw =>
      exact hp.retains (hw.retains hconn ⟨rfl, rfl, rfl, rfl, id⟩) hw.nextPort hw.connects
  | closed hconn hw =>
      exact hp.retains (hw.retains hconn ⟨rfl, rfl, rfl, rfl, fun _ => rfl⟩) hw.nextPort
        hw.connects

theorem ports_invariant : WorldInvariant (Ports (D := D)) where
  same hs hp := hp.same hs
  turn := by
    rintro w w' h conn _ hconn ⟨seams, sock, chan, rfl⟩ hs hp
    exact hp.retains (hs.retains hconn) hs.nextPort hs.connects
  cmd _ := Ports.cmd

theorem Reachable.ports {s : System D} (h : Reachable s) : Ports s.world := by
  refine h.world_invariant ports_invariant fun s hs => ?_
  have hnone := hs.entry
  obtain ⟨mtu, v4, v6, rfl⟩ := hs
  refine ⟨rfl, fun he => ?_, fun he => ?_⟩
  · rw [hnone] at he; cases he
  · rw [hnone] at he; cases he

/-- An entry has the port that the next connect gets when it was made a multiple of 16384
connects ago. -/
theorem Ports.localPort_eq {w : World D} (hp : Ports w) {h : Handle} {conn : Conn}
    (hconn : w.entry h = some conn) :
    conn.localPort = w.actor.nextPort ↔ portCount ∣ w.connects - conn.serial := by
  have hlt := hp.serial hconn
  rw [← UInt16.toNat_inj, hp.localPort hconn, hp.next, Nat.add_left_cancel_iff]
  exact ⟨fun h => (Nat.modEq_iff_dvd' (Nat.le_of_lt hlt)).mp h,
    fun h => (Nat.modEq_iff_dvd' (Nat.le_of_lt hlt)).mpr h⟩

/-! ## Four-tuples -/

/-- The port the next connect gets and the ports of the entries are ephemeral. -/
def InRange (w : World D) : Prop :=
  (49152 ≤ w.actor.nextPort.toNat ∧ w.actor.nextPort.toNat ≤ 65535) ∧
    ∀ h conn, w.entry h = some conn →
      49152 ≤ conn.localPort.toNat ∧ conn.localPort.toNat ≤ 65535

theorem Ports.inRange {w : World D} (hp : Ports w) : InRange w := by
  have hlt : ∀ n, n % portCount < portCount := fun n => Nat.mod_lt n (by decide)
  refine ⟨?_, fun h conn he => ?_⟩
  · rw [hp.next]
    exact ⟨Nat.le_add_right .., Nat.add_le_add_left (Nat.le_of_lt_succ (hlt _)) _⟩
  · rw [hp.localPort he]
    exact ⟨Nat.le_add_right .., Nat.add_le_add_left (Nat.le_of_lt_succ (hlt _)) _⟩

/-- No two entries have the same local port and remote. -/
def Unique (w : World D) : Prop :=
  ∀ h h' conn conn', w.entry h = some conn → w.entry h' = some conn' →
    conn.localPort = conn'.localPort → conn.remote = conn'.remote → h = h'

/-- No connect that smoltcp takes finds an entry to its remote that was made a multiple of
16384 connects earlier. -/
def Spaced (s : System D) (l : Label) : Prop :=
  l = .recv → ∀ remote c queue, s.queue = .connect remote c :: queue →
    s.world.Accepts remote → ∀ h conn, h ≠ s.world.nextSlot → s.world.entry h = some conn →
      conn.remote = remote → ¬ portCount ∣ s.world.connects - conn.serial

theorem Retains.unique {w w' : World D} (hr : Retains w w') (hu : Unique w) : Unique w' := by
  intro h h' conn conn' he he' hport hremote
  obtain ⟨old, ho, halike⟩ := hr h conn he
  obtain ⟨old', ho', halike'⟩ := hr h' conn' he'
  refine hu h h' old old' ho ho' ?_ ?_
  · rw [← halike.localPort, ← halike'.localPort, hport]
  · rw [← halike.remote, ← halike'.remote, hremote]

/-- A new entry keeps the four-tuples unique when no other has its own. -/
theorem Inserted.unique {w w' : World D} {remote : SocketAddr} {c : ConnId}
    (hi : Inserted w w' remote c) (hu : Unique w)
    (hnew : ∀ h conn, h ≠ w.nextSlot → w.entry h = some conn → conn.remote = remote →
      conn.localPort ≠ w.actor.nextPort) : Unique w' := by
  intro h h' conn conn' he he' hport hremote
  rcases hi.entry_cases he with ⟨rfl, rfl⟩ | ⟨hne, ho⟩
  · rcases hi.entry_cases he' with ⟨rfl, -⟩ | ⟨hne', ho'⟩
    · rfl
    · exact absurd hport.symm (hnew h' conn' hne' ho' hremote.symm)
  · rcases hi.entry_cases he' with ⟨rfl, rfl⟩ | ⟨-, ho'⟩
    · exact absurd hport (hnew h conn hne ho hremote)
    · exact hu h h' conn conn' ho ho' hport hremote

theorem unique_invariant : SystemInvariant (Spaced (D := D)) (fun s => Unique s.world) where
  same hw _ _ _ hu := (Retains.of_eq hw.entry).unique hu
  turn _ _ hconn hs hu := (hs.retains hconn).unique hu
  panicked _ _ hw _ _ hu := hw ▸ hu
  handled hr hok hq hw _ _ hu := by
    rcases hw.retains with hretains | ⟨remote, c, rfl, haccepts, hi⟩
    · exact hretains.unique hu
    · refine hi.unique hu fun h conn hne hconn hremote hport => ?_
      exact hok rfl remote c _ hq haccepts h conn hne hconn hremote
        ((hr.ports.localPort_eq hconn).mp hport)
  opened remote _ hu := (Retains.of_eq (opened_same _ remote).entry).unique hu
  moved _ _ _ hb hu := (Retains.of_eq hb.same.entry).unique hu

/-- A connect that meets such an entry makes a second one with its four-tuple. -/
theorem not_unique_of_not_spaced {s t : System D} {l : Label} (hr : Reachable s)
    (hstep : Step s l t) (hnot : ¬ Spaced s l) : ¬ Unique t.world := by
  simp only [Spaced, Classical.not_forall, not_not] at hnot
  obtain ⟨rfl, remote, c, queue, hq, haccepts, h, conn, hne, hconn, hremote, hdvd⟩ := hnot
  obtain ⟨-, -, hi⟩ := recv_inserted hstep hq haccepts
  have hport : conn.localPort = s.world.actor.nextPort := (hr.ports.localPort_eq hconn).mpr hdvd
  intro hu
  exact hne (hu h s.world.nextSlot conn _ ((hi.entry_ne h hne).trans hconn) hi.entry_self hport
    hremote)

/-- **Four-tuples.**  The ports are always in range; along a run whose connects are spaced no
two entries share port and remote, and its next step keeps that exactly when it is spaced. -/
theorem four_tuples (s : System D) : (Reachable s → InRange s.world) ∧
    (Transition.Reachable (guarded Step Spaced) Init s → Unique s.world ∧
      ∀ l t, Step s l t → (Unique t.world ↔ Spaced s l)) := by
  refine ⟨fun hr => hr.ports.inRange, fun hr => ?_⟩
  have hinit : ∀ s : System D, Init s → Unique s.world := by
    intro s hs h h' conn conn' he
    rw [hs.entry] at he
    cases he
  have hu : Unique s.world := unique_invariant.reachable hinit hr
  refine ⟨hu, fun l t hstep => ⟨fun ht => ?_, fun hok => ?_⟩⟩
  · exact Classical.not_not.mp fun hnot =>
      not_unique_of_not_spaced hr.unguarded hstep hnot ht
  · exact unique_invariant.step hr.unguarded hu hok hstep

/-- A sufficient check of `Spaced` at one state. -/
def spaced (s : System D) : Label → Bool
  | .recv =>
      match s.queue with
      | .connect remote _ :: _ =>
          s.world.actor.conns.entries.all fun e =>
            e.2.remote ≠ remote ∨ ¬ portCount ∣ s.world.connects - e.2.serial
      | _ => true
  | _ => true

theorem spaced_sound (s : System D) (l : Label) (h : spaced s l = true) : Spaced s l := by
  rintro rfl remote c queue hq - k conn - hconn hremote hdvd
  simp only [spaced, hq] at h
  have hmem : (⟨k, conn⟩ : Sigma fun _ : Handle => Conn) ∈ s.world.actor.conns.entries :=
    AList.mem_lookup_iff.mp hconn
  rcases of_decide_eq_true (List.all_eq_true.mp h _ hmem) with hne | hnot
  · exact hne hremote
  · exact hnot hdvd

/-- Two connects to one remote, one after the other. -/
theorem four_tuples_two : ∃ s : System Deps.toy, (s.world.entry 1).isSome ∧
    (s.world.entry 2).isSome ∧ Unique s.world ∧ InRange s.world := by
  let labels : List Label :=
    [.connect ⟨.v4 1, 80⟩, .connect ⟨.v4 1, 80⟩, .poll 0, .service [], .dns, .recv, .recv]
  have hrun : (Transition.exec System.step spaced (System.init Deps.toy 1280 0 none)
      labels).any (fun s => (s.world.entry 1).isSome ∧ (s.world.entry 2).isSome) = true := by
    decide +kernel
  obtain ⟨s, hs, hfacts⟩ := (Option.any_eq_true _ _).mp hrun
  have hguarded : Transition.Reachable (guarded Step Spaced) Init s :=
    Transition.Reachable.exec (fun _ _ _ h => h) (fun s l _ => spaced_sound s l) labels
      (.init ⟨1280, 0, none, rfl⟩) hs
  obtain ⟨h₁, h₂⟩ := of_decide_eq_true hfacts
  obtain ⟨hrange, hunique⟩ := four_tuples s
  exact ⟨s, h₁, h₂, (hunique hguarded).1, hrange hguarded.unguarded⟩

/-! ## A run around the range -/

/-- A connect that smoltcp refuses gives its slot back. -/
theorem handleConnect_refused (hD : D.SocketSetLaws) (w : World D) (remote : SocketAddr)
    (c : ConnId) {iface : D.Iface} {e : String}
    (h : D.connect w.actor.iface (D.newTcp sockBuf sockBuf) remote w.actor.nextPort =
      (iface, .error e)) :
    ∃ w', w.handleConnect remote c = some w' ∧
      ∀ k, D.get w.actor.sockets k ≠ none → D.get w'.actor.sockets k ≠ none := by
  generalize hslot : D.add w.actor.sockets (.inl (D.newTcp sockBuf sockBuf)) = slot
  have hget : ∀ k, D.get slot.2 k =
      if k = slot.1 then some (.inl (D.newTcp sockBuf sockBuf)) else D.get w.actor.sockets k := by
    rw [← hslot]
    exact hD.get_add _ _
  have hself : D.get slot.2 slot.1 = some (.inl (D.newTcp sockBuf sockBuf)) := by
    rw [hget, if_pos rfl]
  have htcp : D.tcp slot.2 slot.1 = some (D.newTcp sockBuf sockBuf) := by
    rw [Deps.tcp, hself]
  have hremove : D.removeSlot slot.2 slot.1 = some (D.remove slot.2 slot.1) := by
    rw [Deps.removeSlot, hself]
  have hport : w.actor.nextEphemeralPort.1 = w.actor.nextPort := rfl
  rw [World.handleConnect]
  simp only [hslot, htcp, hport, h, hremove]
  refine ⟨_, rfl, fun k hk => ?_⟩
  have hne : k ≠ slot.1 := by
    rintro rfl
    exact hk (hslot ▸ hD.add_free _ _)
  show D.get (D.remove slot.2 slot.1) k ≠ none
  rw [hD.get_remove, if_neg hne, hget, if_neg hne]
  exact hk

theorem recv_step {s : System D} {cmd : Cmd} {queue : List Cmd} (hq : s.queue = cmd :: queue)
    (hpc : s.pc = .draining) :
    Step s .recv ({ s with queue := queue }.resume .draining (s.world.handleCmd cmd)) := by
  have hactor : s.stepActor .recv =
      some ({ s with queue := queue }.resume .draining (s.world.handleCmd cmd)) := by
    simp only [System.stepActor, hq, hpc, or_true, if_true]
  rw [Step, System.step, hactor, Option.some_or]

end

/-- Between two commands of a drain, with the entry of slot 1 in place. -/
structure Draining (s : System Deps.toy) (conn : Conn) (n : Nat) : Prop where
  reachable : Reachable s
  pc : s.pc = .draining
  queue : s.queue = []
  entry : s.world.entry 1 = some conn
  slot : Deps.toy.get s.world.actor.sockets 1 ≠ none
  connects : s.world.connects = n

/-- A connect to port 0 uses up a port. -/
theorem Draining.refused {s : System Deps.toy} {conn : Conn} {n : Nat} (h : Draining s conn n) :
    ∃ t, Draining t conn (n + 1) := by
  let remote : SocketAddr := ⟨.v4 1, 0⟩
  have hopen : Step s (.connect remote) (s.opened remote) := rfl
  have hq : (s.opened remote).queue = [.connect remote s.nextConn] := by
    show s.queue ++ _ = _
    rw [h.queue, List.nil_append]
  obtain ⟨w, hw, hslot⟩ := handleConnect_refused Deps.toy_socketSetLaws (s.opened remote).world
    remote s.nextConn rfl
  have hrecv := recv_step hq h.pc
  have hcmd : (s.opened remote).world.handleCmd (.connect remote s.nextConn) = some w := hw
  rw [hcmd] at hrecv
  have hr : Rejected (s.opened remote).world w s.nextConn := by
    rcases handleConnect_cases hw with ⟨⟨_, _, _, -, hconnect⟩, -⟩ | ⟨-, hr⟩
    · cases (Prod.mk.inj hconnect).2
    · exact hr
  exact ⟨_, (h.reachable.tail hopen).tail hrecv, rfl, rfl, (congrFun hr.entry 1).trans h.entry,
    hslot 1 h.slot, hr.connects.trans (congrArg (· + 1) h.connects)⟩

theorem Draining.refusals {s : System Deps.toy} {conn : Conn} {n : Nat}
    (h : Draining s conn n) (m : Nat) : ∃ t, Draining t conn (n + m) := by
  induction m with
  | zero => exact ⟨s, h⟩
  | succ m ih =>
      obtain ⟨t, ht⟩ := ih
      exact ht.refused

/-- One connection, 16383 connects that fail, and one more to the first one's remote. -/
theorem four_tuples_wrap : ¬ ∀ s : System Deps.toy, Reachable s → Unique s.world := by
  intro hunique
  let remote : SocketAddr := ⟨.v4 1, 80⟩
  let labels : List Label := [.connect remote, .poll 0, .service [], .dns, .recv]
  have hrun : ((System.init Deps.toy 1280 0 none).run labels).any (fun s =>
      s.pc = .draining ∧ s.queue = [] ∧ s.world.connects = 1 ∧
      (Toy.get s.world.actor.sockets 1).isSome ∧
      (s.world.entry 1).any fun conn => conn.serial = 0 ∧ conn.remote = remote) = true := by
    decide +kernel
  obtain ⟨s₀, hs, hfacts⟩ := (Option.any_eq_true _ _).mp hrun
  have hr : Reachable s₀ := run_reachable labels (.init ⟨1280, 0, none, rfl⟩) hs
  obtain ⟨hpc, hq, hconnects, hslot, hentry⟩ := of_decide_eq_true hfacts
  obtain ⟨conn, hconn, hold⟩ := (Option.any_eq_true _ _).mp hentry
  obtain ⟨hserial, hremote⟩ := of_decide_eq_true hold
  have hdrain : Draining s₀ conn 1 :=
    ⟨hr, hpc, hq, hconn, Option.isSome_iff_ne_none.mp hslot, hconnects⟩
  obtain ⟨s, h⟩ := hdrain.refusals 16383
  have hopen : Step s (.connect remote) (s.opened remote) := rfl
  have hopened : Reachable (s.opened remote) := h.reachable.tail hopen
  have hqueue : (s.opened remote).queue = [.connect remote s.nextConn] := by
    show s.queue ++ _ = _
    rw [h.queue, List.nil_append]
  have hrecv := recv_step hqueue h.pc
  refine not_unique_of_not_spaced hopened hrecv ?_ (hunique _ (hopened.tail hrecv))
  intro hspaced
  have haccepts : (s.opened remote).world.Accepts remote := by
    refine ⟨⟨.closed, [], []⟩, (), ⟨.synSent, [], []⟩, ?_, rfl⟩
    rw [Deps.tcp, World.nextSlot, Deps.toy_socketSetLaws.get_add, if_pos rfl]
    rfl
  have hne : 1 ≠ (s.opened remote).world.nextSlot := by
    intro heq
    refine h.slot ?_
    rw [heq]
    exact Deps.toy_socketSetLaws.add_free _ _
  refine hspaced rfl remote s.nextConn [] hqueue haccepts 1 conn hne h.entry hremote ?_
  have hnow : (s.opened remote).world.connects = 1 + 16383 := h.connects
  rw [hnow, hserial]
  exact Nat.dvd_refl _

end WarpProxy.Netstack
