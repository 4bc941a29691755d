/-
# `WarpProxy.Netstack.Abandoned` — entries whose reader is gone

`try_reserve` fails on a full channel and on a closed one alike, so for an entry
whose reader has been dropped the receive loop takes nothing, ever.  What the
remote has sent stays in the receive buffer while `close()` leads the socket to
`FinWait1`, where it waits for a remote that cannot send on: the entry is freed
exactly when the pass removes it, or finds the receive buffer empty
(`pass_frees`).
-/
import WarpProxy.Netstack.Inbound
import WarpProxy.Netstack.Answered

namespace WarpProxy.Netstack

open Transition (guarded)

section
variable {D : Deps}

/-- An entry to be closed, with nobody to read from it. -/
structure Abandoned (w : World D) (conn : Conn) : Prop where
  closing : conn.closing = true
  reader : (w.chans conn.fromNet).rx = false

section
variable (recvBuf : D.Tcp → List UInt8)

/-- The entry of `k` is gone, or nothing is left in its socket, or the socket is aborted. -/
def Freed (w : World D) (k : Handle) : Prop :=
  w.entry k = none ∨ ∃ sock, D.tcp w.actor.sockets k = some sock ∧
    (recvBuf sock = [] ∨ D.state sock = .closed)

/-- The pass finds no abandoned entry that it keeps with something in its socket. -/
def Unheld (s : System D) (l : Label) : Prop :=
  ∀ order, l = .service order → ∀ k conn sock, s.world.entry k = some conn →
    Abandoned s.world conn → D.tcp s.world.actor.sockets k = some sock →
      Leaves D conn sock ∨ recvBuf sock = []

end

variable {recvBuf : D.Tcp → List UInt8}

/-- Nothing is taken for a reader that is gone. -/
theorem visit_unread (hR : D.RecvLaws recvBuf) (h : Handle) (seams : List Nat) (sock : D.Tcp)
    (conn : Conn) {chan : Chan} (hrx : chan.rx = false) :
    recvBuf (visit D h seams sock conn chan).sock = recvBuf sock := by
  have hfull : chan.reservable = false := by rw [Chan.reservable, hrx, Bool.false_and]
  have hvisit := visit_recvBuf hR h seams sock conn chan
  rwa [(visit_full h seams sock conn hfull).1, List.nil_append] at hvisit

section
variable {live : D.Dns → D.Query → Prop} (hD : D.SocketSetLaws) (hP : D.PollLaws)
  (hQ : D.DnsLaws live) (hC : D.CloseLaws) (hS : D.StateLaws) (hR : D.RecvLaws recvBuf)
include hD hP hQ hC hS hR

/-- A pass frees an abandoned entry exactly when it removes it or finds its socket empty. -/
theorem pass_frees {s t : System D} (hr : Reachable s) {order : List (Handle × List Nat)}
    (hstep : Step s (.service order) t) {k : Handle} {conn : Conn}
    (hconn : s.world.entry k = some conn) (ha : Abandoned s.world conn) {sock : D.Tcp}
    (hsock : D.tcp s.world.actor.sockets k = some sock) :
    Freed recvBuf t.world k ↔ Leaves D conn sock ∨ recvBuf sock = [] := by
  have ht : Reachable t := hr.tail hstep
  obtain ⟨horder, hpass⟩ := service_pass hstep (ht.runs hD hP hQ).running
  obtain ⟨seams, hv⟩ := serviceSockets_visited hD hr.outbound horder hpass hconn hsock
  have hunread := visit_unread hR k seams sock conn ha.reader
  rw [Freed, hv.gone, visit_leaves hC hS]
  refine or_congr_right' fun hkeep => ?_
  have hremove : (visit D k seams sock conn (s.world.chans conn.fromNet)).remove = false := by
    rwa [← Bool.not_eq_true, visit_leaves hC hS]
  rw [hv.tcp hremove]
  constructor
  · rintro ⟨sock', hsock', hempty | hclosed⟩
    · rw [← Option.some.inj hsock', hunread] at hempty
      exact hempty
    · -- a visit that leaves the socket closed removes the entry
      rw [← Option.some.inj hsock'] at hclosed
      rw [(visit_remove ..).mpr (.inr hclosed)] at hremove
      cases hremove
  · exact fun hempty => ⟨_, rfl, .inl (hunread.trans hempty)⟩

/-- **Abandoned entries.**  A pass removes an entry whose reader is gone and whose close has been
requested, or leaves its socket empty or aborted, exactly when it was going to remove it anyway
or nothing was in the receive buffer, whether or not `out_buf` is empty after it; so in a run
whose passes find no such entry with something unread, no pass leaves one. -/
theorem abandoned_freed :
    (∀ (s t : System D) order, Reachable s → Step s (.service order) t →
      ∀ k conn sock, s.world.entry k = some conn → Abandoned s.world conn →
        D.tcp s.world.actor.sockets k = some sock →
        (Freed recvBuf t.world k ↔ Leaves D conn sock ∨ recvBuf sock = [])) ∧
    ∀ (s t : System D) order, Transition.Reachable (guarded Step (Unheld recvBuf)) Init s →
      guarded Step (Unheld recvBuf) s (.service order) t →
      ∀ k conn, s.world.entry k = some conn → Abandoned s.world conn →
        Freed recvBuf t.world k := by
  constructor
  · intro s t order hr hstep k conn sock hconn ha hsock
    exact pass_frees hD hP hQ hC hS hR hr hstep hconn ha hsock
  · intro s t order hs hstep k conn hconn ha
    have hr : Reachable s := hs.unguarded
    have hin := ((hr.runs hD hP hQ).world.sound hD hP hQ).inStep
    obtain ⟨sock, hsock⟩ := Option.isSome_iff_exists.mp ((hin.tcp k).trans (by rw [hconn]; rfl))
    exact (pass_frees hD hP hQ hC hS hR hr hstep.1 hconn ha hsock).mpr
      (hstep.2 order rfl k conn sock hconn ha hsock)

end

/-- The reader and the writer of an established connection are dropped with nothing unread: the
pass leaves the socket empty. -/
theorem abandoned_freed_empty : ∃ s t : System Deps.toy, Reachable s ∧
    Step s (.service [(1, [])]) t ∧ t.world.entry 1 ≠ none ∧ Freed Toy.Tcp.rx t.world 1 := by
  let labels : List Label :=
    [.connect ⟨.v4 1, 80⟩, .poll 0, .service [], .dns, .recv, .inbound [1, 0], .recv, .drained,
      .poll 1, .service [(1, [])], .dns, .connected 0, .split 0, .dropReader 0, .dropWriter 0,
      .recv, .drained, .poll 2]
  have hrun : ((System.init Deps.toy 1280 0 none).run labels).any (fun s =>
      (s.step (.service [(1, [])])).any (fun t => (t.world.entry 1).isSome) ∧
      (s.world.entry 1).any (fun conn => conn.closing ∧
        (s.world.chans conn.fromNet).rx = false) ∧
      (Deps.toy.tcp s.world.actor.sockets 1).any fun sock => (Toy.Tcp.rx sock).isEmpty) = true := by
    decide +kernel
  obtain ⟨s, hs, hfacts⟩ := (Option.any_eq_true _ _).mp hrun
  have hreach : Reachable s := run_reachable labels (.init ⟨1280, 0, none, rfl⟩) hs
  obtain ⟨hstep, hentry, hsock⟩ := of_decide_eq_true hfacts
  obtain ⟨t, ht, hend⟩ := (Option.any_eq_true _ _).mp hstep
  obtain ⟨conn, hconn, hgone⟩ := (Option.any_eq_true _ _).mp hentry
  obtain ⟨sock, htcp, hempty⟩ := (Option.any_eq_true _ _).mp hsock
  obtain ⟨hclosing, hrx⟩ := of_decide_eq_true hgone
  have hall := abandoned_freed Deps.toy_socketSetLaws Deps.toy_pollLaws Deps.toy_dnsLaws
    Deps.toy_closeLaws Deps.toy_stateLaws Deps.toy_recvLaws
  refine ⟨s, t, hreach, ht, Option.isSome_iff_ne_none.mp hend, ?_⟩
  exact (hall.1 s t _ hreach ht 1 conn sock hconn ⟨hclosing, hrx⟩ htcp).mpr
    (.inr (List.isEmpty_iff.mp hempty))

/-- A byte has arrived before the pass: it keeps the entry, in `FinWait1`, with the byte. -/
theorem abandoned_held : ¬ ∀ (s t : System Deps.toy) (order : List (Handle × List Nat))
    (k : Handle) (conn : Conn), Reachable s → Step s (.service order) t →
    s.world.entry k = some conn → Abandoned s.world conn →
    (∀ conn', t.world.entry k = some conn' → conn'.outBuf = []) →
    Freed Toy.Tcp.rx t.world k := by
  intro hfrees
  let labels : List Label :=
    [.connect ⟨.v4 1, 80⟩, .poll 0, .service [], .dns, .recv, .inbound [1, 0], .recv, .drained,
      .poll 1, .service [(1, [])], .dns, .connected 0, .split 0, .dropReader 0, .dropWriter 0,
      .inbound [1, 1, 9], .recv, .recv, .drained, .poll 2]
  have hrun : ((System.init Deps.toy 1280 0 none).run labels).any (fun s =>
      (s.step (.service [(1, [])])).any (fun t =>
        (t.world.entry 1).any (fun conn => conn.outBuf.isEmpty) ∧
        (Deps.toy.tcp t.world.actor.sockets 1).any fun sock =>
          Toy.Tcp.rx sock = [9] ∧ Deps.toy.state sock = .finWait1) ∧
      (s.world.entry 1).any fun conn => conn.closing ∧
        (s.world.chans conn.fromNet).rx = false) = true := by
    decide +kernel
  obtain ⟨s, hs, hfacts⟩ := (Option.any_eq_true _ _).mp hrun
  have hreach : Reachable s := run_reachable labels (.init ⟨1280, 0, none, rfl⟩) hs
  obtain ⟨hstep, hentry⟩ := of_decide_eq_true hfacts
  obtain ⟨t, ht, hend⟩ := (Option.any_eq_true _ _).mp hstep
  obtain ⟨conn, hconn, hgone⟩ := (Option.any_eq_true _ _).mp hentry
  obtain ⟨hclosing, hrx⟩ := of_decide_eq_true hgone
  obtain ⟨hkept, hsock⟩ := of_decide_eq_true hend
  obtain ⟨conn', hconn', hout⟩ := (Option.any_eq_true _ _).mp hkept
  obtain ⟨sock, htcp, hheld⟩ := (Option.any_eq_true _ _).mp hsock
  obtain ⟨hbuf, hstate⟩ := of_decide_eq_true hheld
  have hflushed : ∀ conn'', t.world.entry 1 = some conn'' → conn''.outBuf = [] := by
    intro conn'' h
    rw [hconn', Option.some.injEq] at h
    exact h ▸ List.isEmpty_iff.mp hout
  rcases hfrees s t _ 1 conn hreach ht hconn ⟨hclosing, hrx⟩ hflushed with
    hnone | ⟨sock', hsock', hempty | hclosed⟩
  · rw [hconn'] at hnone
    cases hnone
  · have hsame : sock = sock' := Option.some.inj (htcp.symm.trans hsock')
    subst hsame
    cases hbuf.symm.trans hempty
  · have hsame : sock = sock' := Option.some.inj (htcp.symm.trans hsock')
    subst hsame
    cases hstate.symm.trans hclosed

end

end WarpProxy.Netstack
