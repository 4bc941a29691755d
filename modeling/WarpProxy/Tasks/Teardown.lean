/-
# `WarpProxy.Tasks.Teardown` — what is left when everybody has let go of a tunnel

The tasks hold each other: the feeder a sender of the actor's queue, feeder and actor the
`TunnelIo`, writer and reader the two ends of the CONNECT stream.  Dropping the tunnel breaks
the circle in one place only, the `SendRequest` of HTTP/3: the driver closes the connection,
`recv_ip` fails, the feeder stops, and then the actor.  With HTTP/2 the circle is broken by the
remote or not at all (`running_h2`); `teardown_iff` is the exact condition.
-/
import WarpProxy.Tasks.Noticed

namespace WarpProxy.Tasks

open Netstack (Deps)

/-- The writer has a packet that the remote gives it no window for. -/
def H2.Starved (w : H2) : Prop :=
  w.writer = true ∧ w.sendOpen = true ∧
    ∃ pkt out, w.out = pkt :: out ∧ w.capacity < (encodeDatagramCapsule pkt).length

/-- The transport ends with its user: always with HTTP/3, and with HTTP/2 if the remote has ended
the CONNECT stream, or the connection, and lets the writer send what is queued. -/
def Wire.Releases : Wire → Prop
  | .h3 _ => True
  | .h2 w => w.recvEnded = true ∧ ¬ w.Starved

section
variable {D : Deps} {s : System D}

namespace System
variable (s : System D)

/-- The `Tunnel`, every `NetHandle` and every `TcpConn` are gone, and so are the futures of
calls. -/
structure Dropped : Prop where
  tunnel : s.tunnel = false
  handles : s.handles = 0
  conns : ∀ c, holdsCmd (s.net.endpoints c) = false
  calls : ∀ r, s.net.resolvers r = false

/-- No task of the transport runs. -/
def WireEnded : Prop :=
  match s.wire with
  | .h3 w => w.driver = false ∧ w.watcher = false
  | .h2 w => w.driver = false ∧ w.writer = false ∧ w.reader = none

/-- Nothing of it runs any more. -/
def Torn : Prop := ¬ s.FeederRuns ∧ ¬ s.ActorRuns ∧ s.WireEnded

/-- All five tasks of HTTP/2 run. -/
def AllRun (w : H2) : Prop :=
  s.FeederRuns ∧ s.ActorRuns ∧ w.driver = true ∧ w.writer = true ∧ ∃ buf, w.reader = some buf

end System

theorem System.Dropped.not_held (h : s.Dropped) (hf : ¬ s.FeederRuns) : ¬ s.CmdHeld := by
  rintro (hhandles | hruns | ⟨c, hc⟩ | ⟨r, hr⟩)
  · exact absurd h.handles (Nat.ne_of_gt hhandles)
  · exact hf hruns
  · cases (h.conns c).symm.trans hc
  · cases (h.calls r).symm.trans hr

/-! ## One task after the other -/

/-- Wherever the actor is in its loop, it can go on, or waits for a command. -/
theorem actor_goes_on (n : Netstack.System D) (hpc : n.pc ≠ .panicked) :
    (n.pc = .receiving ∧ n.queue = []) ∨ n.step (.poll 0) ≠ none ∨
      ∃ l, ofActor l ∧ Label.Own (.net l) ∧ n.step l ≠ none := by
  have hrecv : n.queue ≠ [] → n.pc = .receiving ∨ n.pc = .draining → n.step .recv ≠ none := by
    intro hqueue hat
    obtain ⟨cmd, queue, hcons⟩ := List.exists_cons_of_ne_nil hqueue
    simp [Netstack.System.step, Netstack.System.stepActor, hcons, hat]
  cases hat : n.pc with
  | polling =>
      refine .inr (.inl ?_)
      simp [Netstack.System.step, Netstack.System.stepActor, hat]
  | servicing =>
      let order := n.world.actor.conns.keys.map fun h => (h, ([] : List Nat))
      have hkeys : order.map Prod.fst = n.world.actor.conns.keys := by
        rw [List.map_map]
        exact List.map_id _
      refine .inr (.inr ⟨.service order, trivial, trivial, ?_⟩)
      rw [Netstack.System.step, Netstack.System.stepActor, if_pos ⟨hat, hkeys ▸ .refl _⟩]
      exact Option.some_ne_none _
  | resolving =>
      refine .inr (.inr ⟨.dns, trivial, trivial, ?_⟩)
      simp [Netstack.System.step, Netstack.System.stepActor, hat]
  | receiving =>
      by_cases hqueue : n.queue = []
      · exact .inl ⟨rfl, hqueue⟩
      · exact .inr (.inr ⟨.recv, trivial, trivial, hrecv hqueue (.inl hat)⟩)
  | draining =>
      by_cases hqueue : n.queue = []
      · refine .inr (.inr ⟨.drained, trivial, trivial, ?_⟩)
        simp [Netstack.System.step, Netstack.System.stepActor, hat, hqueue]
      · exact .inr (.inr ⟨.recv, trivial, trivial, hrecv hqueue (.inr hat)⟩)
  | panicked => exact absurd hat hpc

/-- The actor leaves its loop once no sender is left. -/
theorem Quiescent.actor_exited (h : s.Quiescent) (hheld : ¬ s.CmdHeld) : ¬ s.ActorRuns := by
  rintro ⟨hexited, hpc⟩
  rcases actor_goes_on s.net hpc with ⟨hat, hqueue⟩ | hpoll | ⟨l, hl, hown, hstep⟩
  · exact h .exit _ trivial (.exit hexited hat hqueue hheld)
  · obtain ⟨n, hn⟩ := Option.ne_none_iff_exists'.mp hpoll
    exact h (.net (.poll 0)) _ trivial (.poll hexited hn)
  · obtain ⟨n, hn⟩ := Option.ne_none_iff_exists'.mp hstep
    exact h _ _ hown (.actor hl hexited hn)

/-- The feeder stops once `recv_ip` does not wait. -/
theorem Quiescent.feeder_stopped (h : s.Quiescent) (hrecv : s.wire.recvIp ≠ none) :
    ¬ s.FeederRuns := by
  intro hruns
  cases hf : s.feeder with
  | receiving => exact hrecv (Quiescent.receiving h hf)
  | sending pkt => exact Quiescent.not_sending h hf
  | stopped failed => exact hruns failed hf

/-- On a closed connection it does not. -/
theorem H3.recvIp_closed {w : H3} (h : w.closed = true) : (Wire.h3 w).recvIp ≠ none := by
  obtain ⟨r, rest, hr⟩ := recvIpLoop_closed w.io h w.io.quic.delivered
  simp [Wire.recvIp, H3Io.recvIp, hr]

/-- Nor without a reader. -/
theorem H2.recvIp_ended {w : H2} (h : w.reader = none) : (Wire.h2 w).recvIp ≠ none := by
  rw [Wire.recvIp]
  split
  · exact Option.some_ne_none _
  · rw [h]
    exact Option.some_ne_none _

/-- The writer, alone, ends unless the remote holds it up. -/
theorem Quiescent.writer_ended (h : s.Quiescent) {w : H2} (hw : s.wire = .h2 w)
    (hio : ¬ s.IoHeld) (hfed : ¬ w.Starved) : w.writer = false := by
  by_contra hwriter
  rw [Bool.not_eq_false] at hwriter
  have hwait : w.write false = none := Option.eq_none_iff_forall_ne_some.mpr fun _ hd =>
    h .writer _ trivial (.writer hw (iff_of_false Bool.false_ne_true hio) hd)
  rw [H2.write, if_pos hwriter] at hwait
  split at hwait
  · next pkt out hout =>
      dsimp only at hwait
      split at hwait
      · cases hwait
      · next hopen =>
          split at hwait
          · cases hwait
          · next hneed =>
              exact hfed ⟨hwriter, Bool.not_eq_false _ ▸ hopen, pkt, out, hout,
                Nat.lt_of_not_le hneed⟩
  · cases hwait

/-! ## The whole -/

/-- **HTTP/2 does not let go**: as long as the remote has not ended the CONNECT stream, all five
tasks run, whoever has dropped what. -/
theorem running_h2 {live : D.Dns → D.Query → Prop} (hD : D.SocketSetLaws) (hP : D.PollLaws)
    (hQ : D.DnsLaws live) (h : Reachable s) {w : H2} (hw : s.wire = .h2 w)
    (hended : w.recvEnded = false) : s.AllRun w := by
  obtain ⟨hpc, hi⟩ := h.inv hD hP hQ
  have hsound := hi.h2 hw
  have hnot : ∀ {P : Prop}, (P → w.recvEnded = true) → ¬ P := fun himp hp => by
    rw [himp hp] at hended
    cases hended
  have hreader : w.reader ≠ none := hnot hsound.reader
  have hruns : s.FeederRuns := by
    by_contra hruns
    exact hreader (hsound.failed (hi.stopped hruns))
  refine ⟨hruns, ⟨Bool.eq_false_iff.mpr fun he => hi.exited he hruns, hpc⟩, ?_, ?_,
    Option.ne_none_iff_exists'.mp hreader⟩
  · exact Bool.eq_true_of_not_eq_false (hnot hsound.driver)
  · exact Bool.eq_true_of_not_eq_false (hnot hsound.writer)

/-- A feeder that has stopped takes the actor with it, and then nobody holds the `TunnelIo`. -/
theorem System.Dropped.actor (h : s.Dropped) (hq : s.Quiescent) (hf : ¬ s.FeederRuns) :
    ¬ s.ActorRuns ∧ ¬ s.IoHeld := by
  have hactor := Quiescent.actor_exited hq (h.not_held hf)
  refine ⟨hactor, ?_⟩
  rintro (htunnel | hruns | hruns)
  · cases h.tunnel.symm.trans htunnel
  · exact hf hruns
  · exact hactor hruns

theorem System.Dropped.torn_h3 (h : s.Dropped) (hq : s.Quiescent) (hi : Inv s) {w : H3}
    (hw : s.wire = .h3 w) : s.Torn := by
  -- with the `SendRequest` gone, the driver closes the connection
  have hdriver : w.driver = false := by
    have hwait := Quiescent.h3_driver hq hw
    rw [h.tunnel, H3.drive] at hwait
    split at hwait
    · cases hwait
    · next hnot => exact Bool.eq_false_iff.mpr fun hd => hnot ⟨hd, .inl rfl⟩
  have hclosed := (hi.h3 hw).driver hdriver
  have hwatcher : w.watcher = false := by
    have hwait := Quiescent.h3_watcher hq hw
    rw [H3.watch] at hwait
    split at hwait
    · cases hwait
    · next hnot => exact Bool.eq_false_iff.mpr fun hd => hnot ⟨hd, hclosed⟩
  have hfeeder := Quiescent.feeder_stopped hq (hw ▸ H3.recvIp_closed hclosed)
  refine ⟨hfeeder, (h.actor hq hfeeder).1, ?_⟩
  rw [System.WireEnded, hw]
  exact ⟨hdriver, hwatcher⟩

theorem System.Dropped.torn_h2 (h : s.Dropped) (hq : s.Quiescent) {w : H2}
    (hw : s.wire = .h2 w) (hended : w.recvEnded = true) (hfed : ¬ w.Starved) : s.Torn := by
  have hreader : w.reader = none := by
    cases hbuf : w.reader with
    | none => rfl
    | some buf => cases (Quiescent.reader hq hw hbuf).symm.trans hended
  have hfeeder := Quiescent.feeder_stopped hq (hw ▸ H2.recvIp_ended hreader)
  obtain ⟨hactor, hio⟩ := h.actor hq hfeeder
  have hwriter := Quiescent.writer_ended hq hw hio hfed
  have hdriver : w.driver = false := by
    have hwait := Quiescent.h2_driver hq hw
    rw [H2.drive] at hwait
    split at hwait
    · cases hwait
    · next hnot => exact Bool.eq_false_iff.mpr fun hd => hnot ⟨hd, .inr ⟨hwriter, hreader⟩⟩
  refine ⟨hfeeder, hactor, ?_⟩
  rw [System.WireEnded, hw]
  exact ⟨hdriver, hwriter, hreader⟩

/-- **Dropping a tunnel tears it down with HTTP/3 only.**  Once the tunnel, its handles and its
connections are dropped and nothing can go on, no task runs exactly if the transport is HTTP/3, or
the remote of HTTP/2 has ended the stream and does not hold up the writer.  While the remote of
HTTP/2 is silent and keeps the connection, all five tasks run, in every reachable state. -/
theorem teardown_iff {live : D.Dns → D.Query → Prop} (hD : D.SocketSetLaws) (hP : D.PollLaws)
    (hQ : D.DnsLaws live) (h : Reachable s) :
    (s.Dropped → s.Quiescent → (s.Torn ↔ s.wire.Releases)) ∧
    ∀ w, s.wire = .h2 w → w.recvEnded = false → s.AllRun w := by
  refine ⟨fun hdropped hq => ?_, fun w hw hended => running_h2 hD hP hQ h hw hended⟩
  obtain ⟨-, hi⟩ := h.inv hD hP hQ
  cases hw : s.wire with
  | h3 w => exact iff_of_true (hdropped.torn_h3 hq hi hw) trivial
  | h2 w =>
      constructor
      · rintro ⟨-, -, hwire⟩
        rw [System.WireEnded, hw] at hwire
        obtain ⟨-, hwriter, hreader⟩ := hwire
        refine ⟨(hi.h2 hw).reader hreader, fun hstarved => ?_⟩
        cases hwriter.symm.trans hstarved.1
      · rintro ⟨hended, hfed⟩
        exact hdropped.torn_h2 hq hw hended hfed

end

/-- The user of an idle HTTP/3 tunnel drops it: the driver closes the connection, and everything
ends. -/
theorem teardown_iff_h3 : ∃ s : System Deps.toy, Reachable s ∧ s.Dropped ∧ s.Torn := by
  obtain ⟨n, hpc, hqueue, hends, hcalls, h₀⟩ := first_pass H3.connected_fresh
  have h₁ := (h₀.unguarded.tail .dropTunnel).tail (.dropHandle Nat.one_pos)
  have h₂ := h₁.tail (.h3Driver rfl rfl)
  have h₃ := h₂.tail (.feederFailed rfl rfl)
  have h₄ := h₃.tail (.h3Watcher rfl rfl)
  have hconns : ∀ c, holdsCmd (n.endpoints c) = false := fun c => by rw [hends]; rfl
  have hresolvers : ∀ r, n.resolvers r = false := fun r => by rw [hcalls]
  have h₅ := h₄.tail (.exit rfl hpc hqueue fun hheld => by
    rcases hheld with hhandles | hruns | ⟨c, hc⟩ | ⟨r, hr⟩
    · exact absurd hhandles (Nat.lt_irrefl 0)
    · exact hruns true rfl
    · cases (hconns c).symm.trans hc
    · cases (hresolvers r).symm.trans hr)
  have hdone : ∀ {s : System Deps.toy} {w : H3}, Reachable s → s.wire = .h3 w → s.Waiting →
      s.Dropped → ∃ s : System Deps.toy, Reachable s ∧ s.Dropped ∧ s.Torn := by
    intro s w h hw hwait hdropped
    have hiff := (teardown_iff Deps.toy_socketSetLaws Deps.toy_pollLaws Deps.toy_dnsLaws h).1
      hdropped hwait.quiescent
    exact ⟨s, h, hdropped, hiff.mpr (by rw [hw]; exact trivial)⟩
  refine hdone h₅ rfl ⟨hpc, hqueue, .inl rfl, nofun, nofun, fun w hw => ?_, nofun⟩
    ⟨rfl, rfl, hconns, hresolvers⟩
  cases hw
  exact ⟨rfl, rfl⟩

/-- The user of an idle HTTP/2 tunnel drops it: nothing can go on, and everything runs. -/
theorem dropped_running : ∃ (s : System Deps.toy) (w : H2), Reachable s ∧ s.Dropped ∧
    s.Quiescent ∧ s.wire = .h2 w ∧ w.connOpen = true ∧ w.recvEnded = false ∧ s.AllRun w ∧
    ¬ s.Torn := by
  obtain ⟨n, hpc, hqueue, hends, hcalls, h₀⟩ := first_pass H2.connected_fresh
  have h₁ := (h₀.unguarded.tail .dropTunnel).tail (.dropHandle Nat.one_pos)
  have hruns : ∀ failed, Feeder.receiving ≠ .stopped failed := nofun
  refine ⟨_, _, h₁, ⟨rfl, rfl, fun c => by rw [hends]; rfl, fun r => by rw [hcalls]⟩, ?_, rfl, rfl,
    rfl, ⟨hruns, ⟨rfl, fun hp => by cases hpc.symm.trans hp⟩, rfl, rfl, _, rfl⟩,
    fun htorn => htorn.1 hruns⟩
  refine System.Waiting.quiescent
    ⟨hpc, hqueue, .inr (.inr (.inl hruns)), fun _ => rfl, nofun, nofun, fun w hw => ?_⟩
  cases hw
  refine ⟨rfl, fun held hheld => ⟨rfl, ?_⟩⟩
  obtain rfl : held = true := hheld.mpr (.inr (.inl hruns))
  rfl

end WarpProxy.Tasks
