/-
# `WarpProxy.Tasks.Ended` — why a task has ended

Each task ends for a reason that can be read off the state (`Wire.Sound`): the feeder
has failed because the QUIC connection is closed or the reader has ended; the reader and
the writer have ended because the remote ended the stream; a driver has ended because the
connection is closed or nothing uses it.  `Inv` adds that the actor outlives the feeder
and that it never panics, so that the feeder never finds it gone.

Each operation of the transport has one lemma here; `Step.inv` puts them together.
-/
import WarpProxy.Netstack.Tables
import WarpProxy.Tasks.System

namespace WarpProxy.Tasks

open Netstack (Deps)

/-! ## The two transports -/

/-- `failed`: the feeder has stopped on an error of `recv_ip`.  `dead`: death was signalled. -/
structure H3.Sound (w : H3) (failed dead : Prop) : Prop where
  failed : failed → w.closed = true
  watcher : w.watcher = false → dead
  driver : w.driver = false → w.closed = true

structure H2.Sound (w : H2) (failed dead : Prop) : Prop where
  failed : failed → w.reader = none
  reader : w.reader = none → w.recvEnded = true
  writer : w.writer = false → w.recvEnded = true
  error : .error ∈ w.recv → w.recvEnded = true
  sendOpen : w.sendOpen = false → w.recvEnded = true
  connOpen : w.connOpen = false → w.recvEnded = true
  driver : w.driver = false → w.recvEnded = true
  dead : w.driver = false ↔ dead

/-- Once the remote has ended the stream, any of the tasks may have ended. -/
theorem H2.Sound.of_ended {w : H2} {failed dead : Prop} (hended : w.recvEnded = true)
    (hfailed : failed → w.reader = none) (hdead : w.driver = false ↔ dead) :
    w.Sound failed dead :=
  ⟨hfailed, fun _ => hended, fun _ => hended, fun _ => hended, fun _ => hended, fun _ => hended,
    fun _ => hended, hdead⟩

def Wire.Sound (failed dead : Prop) : Wire → Prop
  | .h3 w => w.Sound failed dead
  | .h2 w => w.Sound failed dead

section
variable {failed failed' dead : Prop}

theorem Wire.Sound.mono {wire : Wire} (h : wire.Sound failed dead) (hf : failed' → failed) :
    wire.Sound failed' dead := by
  cases wire with
  | h3 w => exact ⟨fun hf' => H3.Sound.failed h (hf hf'), H3.Sound.watcher h, H3.Sound.driver h⟩
  | h2 w => exact { (h : w.Sound failed dead) with failed := fun hf' => H2.Sound.failed h (hf hf') }

theorem Wire.Fresh.sound {wire : Wire} (h : wire.Fresh) (hf : ¬ failed) (hdead : ¬ dead) :
    wire.Sound failed dead := by
  cases wire with
  | h3 w =>
      obtain ⟨-, hdriver, hwatcher⟩ := h
      refine ⟨fun h => absurd h hf, fun hw => ?_, fun hd => ?_⟩
      · exact absurd (hwatcher.symm.trans hw) (by decide)
      · exact absurd (hdriver.symm.trans hd) (by decide)
  | h2 w =>
      obtain ⟨hconn, hdriver, hrecv, -, hsend, -, hwriter, -, hreader⟩ := h
      -- nothing of it has ended
      have hruns : ∀ {b : Bool}, b = true → b = false → w.recvEnded = true := fun ht hff =>
        absurd (ht.symm.trans hff) (by decide)
      refine ⟨fun h => absurd h hf, fun hr => ?_, hruns hwriter, fun he => ?_, hruns hsend,
        hruns hconn, hruns hdriver, iff_of_false (fun hd => ?_) hdead⟩
      · cases hreader.symm.trans hr
      · rw [hrecv] at he
        cases he
      · cases hdriver.symm.trans hd

theorem Wire.Sound.sendIp {wire : Wire} (h : wire.Sound failed dead) (pkt : List UInt8) :
    (wire.sendIp pkt).Sound failed dead := by
  cases wire with
  | h3 w => exact h
  | h2 w =>
      have hw : w.Sound failed dead := h
      exact ⟨hw.failed, hw.reader, hw.writer, hw.error, hw.sendOpen, hw.connOpen, hw.driver,
        hw.dead⟩

theorem Wire.Sound.sendAll (pkts : List (List UInt8)) {wire : Wire}
    (h : wire.Sound failed dead) : (pkts.foldl Wire.sendIp wire).Sound failed dead := by
  induction pkts generalizing wire with
  | nil => exact h
  | cons pkt pkts ih => exact ih (h.sendIp pkt)

/-- `recv_ip` fails only on a closed connection. -/
theorem recvIpLoop_error (io : H3Io) {e : Error} {queue : List (List UInt8)}
    (h : (io.recvIpLoop queue).1 = .ready (.error e)) :
    io.quic.closeReason.isSome = true := by
  induction queue with
  | nil =>
      rw [H3Io.recvIpLoop] at h
      split at h
      · next hclose => rw [hclose]; rfl
      · cases h
  | cons dg queue ih =>
      cases hflow : flowPayload io.quarterStreamId dg with
      | none =>
          rw [recvIpLoop_skip io queue hflow] at h
          exact ih h
      | some pkt =>
          rw [recvIpLoop_take io queue hflow] at h
          cases h

/-- On a closed connection it does not wait. -/
theorem recvIpLoop_closed (io : H3Io) (hclosed : io.quic.closeReason.isSome = true)
    (queue : List (List UInt8)) : ∃ r rest, io.recvIpLoop queue = (.ready r, rest) := by
  induction queue with
  | nil =>
      obtain ⟨reason, hreason⟩ := Option.isSome_iff_exists.mp hclosed
      exact ⟨_, _, by rw [H3Io.recvIpLoop, hreason]⟩
  | cons dg queue ih =>
      cases hflow : flowPayload io.quarterStreamId dg with
      | none => rw [recvIpLoop_skip io queue hflow]; exact ih
      | some pkt => exact ⟨_, _, recvIpLoop_take io queue hflow⟩

/-- A failure of `recv_ip` has its reason. -/
theorem Wire.Sound.recvIp {wire wire' : Wire} {r : Except Error (List UInt8)}
    (h : wire.Sound failed dead) (hr : wire.recvIp = some (r, wire')) :
    wire'.Sound (failed ∨ ∃ e, r = .error e) dead := by
  cases wire with
  | h3 w =>
      rw [Wire.recvIp] at hr
      split at hr
      · next res io hres =>
          cases hr
          have hw : w.Sound failed dead := h
          have hio : io.quic.closeReason = w.io.quic.closeReason :=
            (congrArg (·.2.quic.closeReason) hres).symm
          have hclosed : H3.closed { w with io := io } = w.closed :=
            congrArg Option.isSome hio
          refine ⟨?_, hw.watcher, fun hd => hclosed.trans (hw.driver hd)⟩
          rintro (hf | ⟨e, rfl⟩)
          · exact hclosed.trans (hw.failed hf)
          · exact hclosed.trans (recvIpLoop_error w.io (congrArg Prod.fst hres))
      · cases hr
  | h2 w =>
      have hw : w.Sound failed dead := h
      rw [Wire.recvIp] at hr
      split at hr
      · cases hr
        refine ⟨?_, hw.reader, hw.writer, hw.error, hw.sendOpen, hw.connOpen, hw.driver, hw.dead⟩
        rintro (hf | ⟨e, he⟩)
        · exact hw.failed hf
        · cases he
      · split at hr
        · cases hr
        · next hreader =>
            cases hr
            exact { hw with failed := fun _ => hreader }

theorem H3.close_closed (w : H3) (reason : String) : (w.close reason).closed = true := by
  simp only [H3.close, H3.closed]
  cases w.io.quic.closeReason <;> rfl

theorem H3.Sound.close {w : H3} (h : w.Sound failed dead) (reason : String) :
    (w.close reason).Sound failed dead :=
  ⟨fun _ => w.close_closed reason, h.watcher, fun _ => w.close_closed reason⟩

theorem H3.Sound.drive {w w' : H3} {sendRequest : Bool} (h : w.Sound failed dead)
    (hd : w.drive sendRequest = some w') : w'.Sound failed dead := by
  rw [H3.drive] at hd
  split at hd
  · cases hd
    have hclosed := w.close_closed "Connection closed by client"
    exact ⟨fun _ => hclosed, h.watcher, fun _ => hclosed⟩
  · cases hd

theorem H3.Sound.watch {w w' : H3} (h : w.Sound failed dead) (hw : w.watch = some w') :
    w'.Sound failed True := by
  rw [H3.watch] at hw
  split at hw
  · cases hw
    exact ⟨h.failed, fun _ => trivial, h.driver⟩
  · cases hw

theorem H2.Sound.read {w w' : H2} {held : Bool} (h : w.Sound failed dead)
    (hheld : held = false → failed) (hr : w.read held = some w') : w'.Sound failed dead := by
  rw [H2.read] at hr
  split at hr
  · cases hr
  · next buf hbuf =>
      -- a reader that runs has a receiver
      have hrun : held = true := by
        by_contra hlost
        rw [h.failed (hheld (Bool.eq_false_iff.mpr hlost))] at hbuf
        cases hbuf
      have hnot : ¬ failed := by
        intro hf
        rw [h.failed hf] at hbuf
        cases hbuf
      subst hrun
      split at hr
      · next chunk recv hrecv =>
          have herror : .error ∈ recv → w.recvEnded = true := by
            intro hmem
            refine h.error ?_
            rw [hrecv]
            exact List.mem_cons_of_mem _ hmem
          have hdrain := drainCapsules_opened (drain_capsuleStream (buf ++ chunk)) []
          rw [PacketSender.opened] at hdrain
          simp only [hdrain, Option.some.injEq] at hr
          subst hr
          exact ⟨fun hf => absurd hf hnot, nofun, h.writer, herror, h.sendOpen, h.connOpen,
            h.driver, h.dead⟩
      · next recv hrecv =>
          cases hr
          exact .of_ended (h.error (hrecv ▸ List.mem_cons_self)) (fun _ => rfl) h.dead
      · split at hr
        · next hended =>
            cases hr
            exact .of_ended hended (fun _ => rfl) h.dead
        · cases hr

theorem H2.Sound.write {w w' : H2} {held : Bool} (h : w.Sound failed dead)
    (hheld : held = false → failed) (hw : w.write held = some w') : w'.Sound failed dead := by
  rw [H2.write] at hw
  split at hw
  · split at hw
    · dsimp only at hw
      split at hw
      · next hsend =>
          cases hw
          exact .of_ended (h.sendOpen hsend) h.failed h.dead
      · split at hw
        · cases hw
          exact ⟨h.failed, h.reader, h.writer, h.error, h.sendOpen, h.connOpen, h.driver, h.dead⟩
        · cases hw
    · split at hw
      · cases hw
      · next hlost =>
          cases hw
          have hreader := h.failed (hheld (Bool.eq_false_iff.mpr hlost))
          exact .of_ended (h.reader hreader) h.failed h.dead
  · cases hw

theorem H2.Sound.drive {w w' : H2} (h : w.Sound failed dead) (hd : w.drive = some w') :
    w'.Sound failed True := by
  rw [H2.drive] at hd
  split at hd
  · next hend =>
      cases hd
      have hended : w.recvEnded = true := by
        rcases hend.2 with hconn | ⟨hwriter, -⟩
        · exact h.connOpen hconn
        · exact h.writer hwriter
      exact .of_ended hended h.failed (iff_of_true rfl trivial)
  · cases hd

theorem Wire.Sound.remote {wire wire' : Wire} {r : Remote} (h : wire.Sound failed dead)
    (hr : wire.remote r = some wire') : wire'.Sound failed dead := by
  cases wire with
  | h3 w =>
      have hw : w.Sound failed dead := h
      cases r with
      | datagram dg =>
          rw [Wire.remote] at hr
          split at hr
          · cases hr
          · cases hr
            exact ⟨hw.failed, hw.watcher, hw.driver⟩
      | finish | reset =>
          cases hr
          exact ⟨hw.failed, hw.watcher, hw.driver⟩
      | close reason =>
          cases hr
          exact hw.close reason
      | data | window => cases hr
  | h2 w =>
      have hw : w.Sound failed dead := h
      cases r with
      | data chunk =>
          rw [Wire.remote] at hr
          split at hr
          · cases hr
            refine { hw with error := fun hmem => hw.error ?_ }
            simpa using hmem
          · cases hr
      | window n =>
          cases hr
          exact ⟨hw.failed, hw.reader, hw.writer, hw.error, hw.sendOpen, hw.connOpen, hw.driver,
            hw.dead⟩
      | finish | reset | close =>
          cases hr
          exact H2.Sound.of_ended rfl hw.failed hw.dead
      | datagram dg => cases hr

end

/-! ## The system -/

section
variable {D : Deps}

/-- The actor does not leave while the feeder runs, the feeder does not find it gone, and the
transport's tasks have ended for their reasons. -/
structure Inv (s : System D) : Prop where
  exited : s.exited = true → ¬ s.FeederRuns
  gone : s.feeder ≠ .stopped false
  wire : s.wire.Sound (s.feeder = .stopped true) (s.dead = true)

variable {s t : System D}

theorem Inv.h3 (hi : Inv s) {w : H3} (hw : s.wire = .h3 w) :
    w.Sound (s.feeder = .stopped true) (s.dead = true) := by
  have hwire := hi.wire
  rw [hw] at hwire
  exact hwire

theorem Inv.h2 (hi : Inv s) {w : H2} (hw : s.wire = .h2 w) :
    w.Sound (s.feeder = .stopped true) (s.dead = true) := by
  have hwire := hi.wire
  rw [hw] at hwire
  exact hwire

/-- The only way for the feeder to stop. -/
theorem Inv.stopped (hi : Inv s) (h : ¬ s.FeederRuns) : s.feeder = .stopped true := by
  cases hf : s.feeder with
  | receiving => exact absurd (fun b hb => by rw [hf] at hb; cases hb) h
  | sending pkt => exact absurd (fun b hb => by rw [hf] at hb; cases hb) h
  | stopped failed =>
      cases failed with
      | true => rfl
      | false => exact absurd hf hi.gone

/-- A transport's task that is left alone knows that the feeder has stopped. -/
theorem Inv.lost (hi : Inv s) {held : Bool} (hheld : held = true ↔ s.IoHeld)
    (h : held = false) : s.feeder = .stopped true := by
  refine hi.stopped fun hruns => ?_
  rw [h] at hheld
  exact Bool.false_ne_true (hheld.mpr (.inr (.inl hruns)))

/-- Nothing of the feeder, the actor's loop and the transport changes. -/
theorem Inv.same (hi : Inv s) (hexited : t.exited = s.exited) (hfeeder : t.feeder = s.feeder)
    (hwire : t.wire.Sound (s.feeder = .stopped true) (s.dead = true)) (hdead : t.dead = s.dead) :
    Inv t where
  exited he := by
    rw [System.FeederRuns, hfeeder]
    exact hi.exited (hexited ▸ he)
  gone := hfeeder ▸ hi.gone
  wire := by rw [hfeeder, hdead]; exact hwire

theorem Step.inv {l : Label} (h : Step s l t) (hpc : s.net.pc ≠ .panicked) (hi : Inv s) :
    Inv t := by
  cases h with
  | @poll now n _ _ => exact hi.same rfl rfl (hi.wire.sendAll (s.polled now)) rfl
  | actor | timeout | call | owner => exact hi.same rfl rfl hi.wire rfl
  | cloneHandle | dropHandle | dropTunnel => exact hi.same rfl rfl hi.wire rfl
  | exit _ _ _ hheld => exact ⟨fun _ hruns => hheld (.inr (.inl hruns)), hi.gone, hi.wire⟩
  | remote hr => exact hi.same rfl rfl (hi.wire.remote hr) rfl
  | @feederRecv pkt wire hf hr =>
      have hnot : s.exited ≠ true := fun he =>
        hi.exited he fun b hb => by rw [hf] at hb; cases hb
      refine ⟨fun he => absurd he hnot, nofun, (hi.wire.recvIp hr).mono nofun⟩
  | @feederFailed e wire hf hr =>
      refine ⟨fun _ hruns => hruns true rfl, nofun, (hi.wire.recvIp hr).mono fun _ => ?_⟩
      exact .inr ⟨e, rfl⟩
  | feederSend hf hruns _ =>
      exact ⟨fun he => absurd (hruns.1.symm.trans he) nofun, nofun, hi.wire.mono nofun⟩
  | @feederGone pkt hf hgone =>
      -- the actor is still there
      have hexited : s.exited = false := Bool.eq_false_iff.mpr fun he =>
        hi.exited he fun b hb => by rw [hf] at hb; cases hb
      exact absurd ⟨hexited, hpc⟩ hgone
  | h3Driver hw hd => exact hi.same rfl rfl ((hi.h3 hw).drive hd) rfl
  | h3Watcher hw hd =>
      have hdone := (hi.h3 hw).watch hd
      exact ⟨hi.exited, hi.gone, hdone.failed, fun _ => rfl, hdone.driver⟩
  | h2Driver hw hd =>
      have hdone := (hi.h2 hw).drive hd
      exact ⟨hi.exited, hi.gone, { hdone with dead := iff_of_true (hdone.dead.mpr trivial) rfl }⟩
  | reader hw hheld hd => exact hi.same rfl rfl ((hi.h2 hw).read (hi.lost hheld) hd) rfl
  | writer hw hheld hd => exact hi.same rfl rfl ((hi.h2 hw).write (hi.lost hheld) hd) rfl

theorem Init.inv (h : Init s) : Inv s := by
  obtain ⟨mtu, v4, v6, wire, hfresh, rfl⟩ := h
  exact ⟨nofun, nofun, hfresh.sound nofun nofun⟩

/-- With a netstack that does not panic, in every reachable state. -/
theorem Reachable.inv {live : D.Dns → D.Query → Prop} (hD : D.SocketSetLaws) (hP : D.PollLaws)
    (hQ : D.DnsLaws live) (h : Reachable s) : s.net.pc ≠ .panicked ∧ Inv s := by
  have hpc : ∀ {u : System D}, Reachable u → u.net.pc ≠ .panicked := fun hu =>
    (hu.netstack.runs hD hP hQ).running
  refine ⟨hpc h, ?_⟩
  induction h with
  | init hs => exact Init.inv hs
  | tail hr hstep ih => exact hstep.inv (hpc hr) ih

end

end WarpProxy.Tasks
