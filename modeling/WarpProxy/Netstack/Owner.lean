/-
# `WarpProxy.Netstack.Owner` — who will close a connection

An entry of the table goes when its socket closes, and the local side closes it
only on a `Close`.  So each entry should have someone who still can send one: the
caller of the connect, a `TcpConn` or a `TcpWriter`; or have the `Close` in the
queue or behind it (`Owned`).  A `TcpWriter` hands the entry over when it is
dropped.  The future of a connect and an unsplit `TcpConn` do not, and a connect
whose caller is gone is still carried out (`Orderly` rules the three out).

    every entry is owned along an orderly run, and a step that
    is not orderly leaves one without owner                     (`owners`)
-/
import WarpProxy.Netstack.Ends

namespace WarpProxy.Netstack

open Transition (guarded)

section
variable {D : Deps}

/-- The reply to a connect is ahead of its caller while it is in the table or the oneshot. -/
inductive Owned (s : System D) (h : Handle) (conn : Conn) : Prop
  | awaited : s.endpoints conn.fromNet = .awaiting →
      (conn.connectReply = true ∨ (s.world.replies conn.fromNet).value = some (.ok h)) →
      Owned s h conn
  | held (c : ConnId) : (s.endpoints c).handle = some h → Owned s h conn
  | queued (o : ConnId) : .close h o ∈ s.queue → Owned s h conn
  | closing : conn.closing = true → Owned s h conn

def Owners (s : System D) : Prop :=
  ∀ h conn, s.world.entry h = some conn → Owned s h conn

/-- An owner of the entry other than the endpoint of `c`. -/
inductive Spare (s : System D) (c : ConnId) (h : Handle) (conn : Conn) : Prop
  | awaited : conn.fromNet ≠ c → s.endpoints conn.fromNet = .awaiting → Spare s c h conn
  | held (c' : ConnId) : c' ≠ c → (s.endpoints c').handle = some h → Spare s c h conn
  | queued (o : ConnId) : .close h o ∈ s.queue → Spare s c h conn
  | closing : conn.closing = true → Spare s c h conn

/-- The future of a connect is not dropped while the table has its entry, nor an unsplit
`TcpConn`, nor is a connect carried out whose caller is gone, unless the entry has another
owner. -/
def Orderly (s : System D) : Label → Prop
  | .cancel c => ∀ h conn, s.world.entry h = some conn → conn.fromNet = c → Spare s c h conn
  | .dropConn c => ∀ h conn, s.world.entry h = some conn → (s.endpoints c).handle = some h →
      Spare s c h conn
  | .recv => ∀ remote c queue, s.queue = .connect remote c :: queue →
      s.world.Accepts remote → s.endpoints c ≠ .awaiting →
      (∃ o, .close s.world.nextSlot o ∈ queue) ∨
        ∃ c', (s.endpoints c').handle = some s.world.nextSlot
  | _ => True

/-- Where the reply of an awaited connect is. -/
theorem Ends.owned {s : System D} (he : Ends s) {h : Handle} {conn : Conn}
    (hconn : s.world.entry h = some conn) (hawait : s.endpoints conn.fromNet = .awaiting) :
    Owned s h conn := by
  cases hreply : conn.connectReply with
  | true => exact .awaited hawait (.inl hreply)
  | false => exact .awaited hawait (.inr (he.replied hconn hreply hawait))

theorem Endpoint.not_awaiting {e : Endpoint} {h : Handle} (he : e.handle = some h) :
    e ≠ .awaiting := by
  rintro rfl
  cases he

/-! ## What the steps keep -/

/-- Where no endpoint and no queued command is lost, the owners of what stays are kept. -/
theorem Owners.retains {s t : System D} (hr : Retains s.world t.world)
    (hends : t.endpoints = s.endpoints) (hq : ∀ {h conn o}, t.world.entry h = some conn →
      .close h o ∈ s.queue → Owned t h conn) (he : Ends t) (ho : Owners s) : Owners t := by
  intro h conn hconn
  obtain ⟨old, hold, halike⟩ := hr h conn hconn
  cases ho h old hold with
  | awaited hawait _ =>
      refine he.owned hconn ?_
      rw [hends, halike.fromNet]
      exact hawait
  | held c hc => exact .held c (hends ▸ hc)
  | queued o hmem => exact hq hconn hmem
  | closing hclosing => exact .closing (halike.closing hclosing)

/-- A `Close` that finds its entry sets `closing`. -/
theorem Handled.closing {w w' : World D} {h : Handle} {o : ConnId}
    (hw : Handled w w' (.close h o)) {conn : Conn} (hconn : w'.entry h = some conn) :
    conn.closing = true := by
  cases hw with
  | untouched _ hu hnone =>
      rw [hu.entry, hnone h o rfl] at hconn
      cases hconn
  | closed _ hwrote =>
      rw [hwrote.entry_self, Option.some.injEq] at hconn
      exact hconn ▸ rfl

/-- A `Close` taken off the queue has set `closing`. -/
theorem Owners.handled {s t : System D} {cmd : Cmd} (hok : Orderly s .recv)
    (hq : s.queue = cmd :: t.queue) (hw : Handled s.world t.world cmd)
    (hends : t.endpoints = s.endpoints) (he : Ends t) (ho : Owners s) : Owners t := by
  have hqueued : ∀ {h conn o}, t.world.entry h = some conn → .close h o ∈ s.queue →
      Owned t h conn := by
    intro h conn o hconn hmem
    rw [hq] at hmem
    rcases List.mem_cons.mp hmem with rfl | hmem
    · exact .closing (hw.closing hconn)
    · exact .queued o hmem
  rcases hw.retains with hretains | ⟨remote, c, rfl, haccepts, hi⟩
  · exact ho.retains hretains hends hqueued he
  · intro h conn hconn
    rcases hi.entry_cases hconn with ⟨rfl, rfl⟩ | ⟨-, hold⟩
    · by_cases hawait : s.endpoints c = .awaiting
      · exact he.owned hconn (hends ▸ hawait)
      · rcases hok remote c _ hq haccepts hawait with ⟨o, hmem⟩ | ⟨c', hc'⟩
        · exact .queued o hmem
        · exact .held c' (hends ▸ hc')
    · cases ho h conn hold with
      | awaited hawait _ => exact he.owned hconn (hends ▸ hawait)
      | held c' hc' => exact .held c' (hends ▸ hc')
      | queued o hmem => exact hqueued hconn hmem
      | closing hclosing => exact .closing hclosing

theorem Owners.opened {s : System D} (remote : SocketAddr) (hi : Ids s) (hs : Ends s)
    (he : Ends (s.opened remote)) (ho : Owners s) : Owners (s.opened remote) := by
  have hend : ∀ {c}, c ≠ s.nextConn → (s.opened remote).endpoints c = s.endpoints c :=
    fun hc => Function.update_of_ne hc ..
  intro h conn hconn
  have hold : s.world.entry h = some conn := hconn
  cases ho h conn hold with
  | awaited hawait _ =>
      have hne : conn.fromNet ≠ s.nextConn := (hi.unborn _ (Nat.le_refl _)).2 h conn hold
      exact he.owned hconn ((hend hne).trans hawait)
  | held c hc =>
      have hne : c ≠ s.nextConn := by
        rintro rfl
        rw [hs.unused (Nat.le_refl _)] at hc
        cases hc
      exact .held c (hend hne ▸ hc)
  | queued o hmem => exact .queued o (List.mem_append_left _ hmem)
  | closing hclosing => exact .closing hclosing

/-- The endpoint of `c` goes, and another owner stays. -/
theorem Spare.owned {s t : System D} {c : ConnId} {e : Endpoint} {cmds : List Cmd} {h : Handle}
    {conn : Conn} (hb : Beside s t c e cmds) (he : Ends t) (hconn : t.world.entry h = some conn)
    (hs : Spare s c h conn) : Owned t h conn := by
  cases hs with
  | awaited hne hawait =>
      refine he.owned hconn ?_
      rw [hb.endpoints, Function.update_of_ne hne]
      exact hawait
  | held c' hne hc' =>
      refine .held c' ?_
      rw [hb.endpoints, Function.update_of_ne hne]
      exact hc'
  | queued o hmem =>
      refine .queued o ?_
      rw [hb.queue]
      exact List.mem_append_left _ hmem
  | closing hclosing => exact .closing hclosing

/-- What a step makes of the entry whose connect the endpoint of `c` awaits. -/
theorem Moved.awaited_owned {s t : System D} {l : Label} {c : ConnId} {e : Endpoint}
    {cmds : List Cmd} (hok : Orderly s l) (hm : Moved s l c e cmds) (hb : Beside s t c e cmds)
    (hs : Ends s) (he : Ends t) {h : Handle} {conn : Conn}
    (hold : s.world.entry h = some conn) (hconn : t.world.entry h = some conn)
    (hfrom : conn.fromNet = c) (hawait : s.endpoints c = .awaiting)
    (hreply : conn.connectReply = true ∨ (s.world.replies c).value = some (.ok h)) :
    Owned t h conn := by
  have hself : t.endpoints c = e := by
    rw [hb.endpoints, Function.update_self]
  have hpending : conn.connectReply = true →
      (s.world.replies c).value = none ∧ (s.world.replies c).tx = true := by
    intro h
    rw [← hfrom]
    exact hs.pending hold h
  cases hm with
  | still | send | close =>
      refine he.owned hconn ?_
      rw [hfrom, hself]
      exact hawait
  | connected _ hvalue =>
      rcases hreply with hreply | hreply
      · rw [(hpending hreply).1] at hvalue
        cases hvalue
      · rw [hreply, Option.some.injEq, Except.ok.injEq] at hvalue
        subst hvalue
        exact .held c (hself ▸ rfl)
  | failed _ hfail =>
      rcases hreply with hreply | hreply
      · obtain ⟨hnone, htx⟩ := hpending hreply
        rcases hfail with ⟨e, hvalue⟩ | ⟨-, hgone⟩
        · rw [hnone] at hvalue; cases hvalue
        · rw [htx] at hgone; cases hgone
      · rcases hfail with ⟨e, hvalue⟩ | ⟨hnone, -⟩
        · rw [hreply] at hvalue; cases hvalue
        · rw [hreply] at hnone; cases hnone
  | cancel _ => exact (hok h conn hold hfrom).owned hb he hconn
  | keeps _ hheld _ _ => rw [hawait] at hheld; exact hheld.elim
  | dropConn hc | dropWriter hc => rw [hawait] at hc; cases hc

/-- What a step makes of the entry whose handle the endpoint of `c` carries. -/
theorem Moved.held_owned {s t : System D} {l : Label} {c : ConnId} {e : Endpoint}
    {cmds : List Cmd} (hok : Orderly s l) (hm : Moved s l c e cmds) (hb : Beside s t c e cmds)
    (he : Ends t) {h : Handle} {conn : Conn} (hold : s.world.entry h = some conn)
    (hconn : t.world.entry h = some conn) (hc : (s.endpoints c).handle = some h) :
    Owned t h conn := by
  have hself : t.endpoints c = e := by
    rw [hb.endpoints, Function.update_self]
  cases hm with
  | still | send | close => exact .held c (hself ▸ hc)
  | keeps _ _ _ hhandle => exact .held c (hself ▸ hhandle.trans hc)
  | connected hawait _ | failed hawait _ | cancel hawait =>
      exact absurd hawait (Endpoint.not_awaiting hc)
  | dropConn _ => exact (hok h conn hold hc).owned hb he hconn
  | dropWriter hwriter =>
      -- the writer's `Drop` sends the `Close`
      rw [hwriter] at hc
      cases hc
      exact .queued c (hb.queue ▸ List.mem_append_right _ (List.mem_singleton_self _))

theorem Owners.moved {s t : System D} {l : Label} {c : ConnId} {e : Endpoint} {cmds : List Cmd}
    (hok : Orderly s l) (hm : Moved s l c e cmds) (hb : Beside s t c e cmds) (hs : Ends s)
    (he : Ends t) (ho : Owners s) : Owners t := by
  intro h conn hconn
  have hold : s.world.entry h = some conn := hb.same.entry ▸ hconn
  cases ho h conn hold with
  | awaited hawait hreply =>
      by_cases hfrom : conn.fromNet = c
      · rw [hfrom] at hawait hreply
        exact hm.awaited_owned hok hb hs he hold hconn hfrom hawait hreply
      · exact (Spare.awaited hfrom hawait).owned hb he hconn
  | held c' hc' =>
      by_cases hcc : c' = c
      · exact hm.held_owned hok hb he hold hconn (hcc ▸ hc')
      · exact (Spare.held c' hcc hc').owned hb he hconn
  | queued o hmem => exact (Spare.queued (c := c) o hmem).owned hb he hconn
  | closing hclosing => exact .closing hclosing

theorem owners_invariant :
    SystemInvariant (Orderly (D := D)) (fun s => Ends s ∧ Owners s) where
  same {s t} hw hends hnext hq h := by
    have he : Ends t := ends_invariant.same hw hends hnext hq h.1
    exact ⟨he, h.2.retains (.of_eq hw.entry) hends (fun _ hmem => .queued _ (hq ▸ hmem)) he⟩
  turn {s w _ _ _ _} hi hout hconn hs h := by
    have he : Ends { s with world := w } := ends_invariant.turn hi hout hconn hs h.1
    exact ⟨he, Owners.retains (s := s) (hs.retains hconn) rfl (fun _ hmem => .queued _ hmem) he
      h.2⟩
  panicked {s t cmd} hq hnone hw hends hnext h := by
    have he : Ends t := ends_invariant.panicked hq hnone hw hends hnext h.1
    refine ⟨he, h.2.retains (.of_eq (by rw [hw])) hends (fun {k _ o} _ hmem => ?_) he⟩
    rw [hq] at hmem
    rcases List.mem_cons.mp hmem with rfl | hmem
    · cases hnone
    · exact .queued o hmem
  handled {s t _} hr hok hq hw hends hnext h := by
    have he : Ends t := ends_invariant.handled hr trivial hq hw hends hnext h.1
    exact ⟨he, h.2.handled hok hq hw hends he⟩
  opened {s} remote hr h := by
    have he : Ends (s.opened remote) := ends_invariant.opened remote hr h.1
    exact ⟨he, h.2.opened remote hr.ids h.1 he⟩
  moved {s t _ _ _ _} hr hok hm hb h := by
    have he : Ends t := ends_invariant.moved hr trivial hm hb h.1
    exact ⟨he, h.2.moved hok hm hb h.1 he⟩

/-! ## What a step that is not orderly does -/

/-- An owner that is there without the endpoint of `c` was there before. -/
theorem Owned.spare {s t : System D} {c : ConnId} {h : Handle} {conn : Conn}
    (hends : t.endpoints = Function.update s.endpoints c .none) (hq : t.queue = s.queue)
    (ho : Owned t h conn) : Spare s c h conn := by
  have hne : ∀ {k}, t.endpoints k ≠ .none → k ≠ c ∧ t.endpoints k = s.endpoints k := by
    intro k hk
    have hkc : k ≠ c := by
      rintro rfl
      rw [hends, Function.update_self] at hk
      exact hk rfl
    exact ⟨hkc, by rw [hends, Function.update_of_ne hkc]⟩
  cases ho with
  | awaited hawait _ =>
      obtain ⟨hkc, heq⟩ := hne (k := conn.fromNet) (by rw [hawait]; exact fun h => nomatch h)
      exact .awaited hkc (heq ▸ hawait)
  | held c' hc' =>
      obtain ⟨hkc, heq⟩ := hne (k := c') (by intro hnone; rw [hnone] at hc'; cases hc')
      exact .held c' hkc (heq ▸ hc')
  | queued o hmem => exact .queued o (hq ▸ hmem)
  | closing hclosing => exact .closing hclosing

theorem step_gone {s t : System D} {l : Label} {c : ConnId} (hl : l = .cancel c ∨ l = .dropConn c)
    (h : Step s l t) : t.endpoints = Function.update s.endpoints c .none ∧
      t.queue = s.queue ∧ t.world.entry = s.world.entry := by
  rcases step_cases h with h | h
  · rcases hl with rfl | rfl <;> cases h
  · rcases hl with rfl | rfl
    all_goals
      cases AsyncStep.of_eq h
      exact ⟨rfl, rfl, rfl⟩

/-- If every entry has an owner after the step, it was orderly. -/
theorem orderly_of_owners {s t : System D} {l : Label} (hstep : Step s l t) (ho : Owners t) :
    Orderly s l := by
  cases l with
  | cancel c =>
      obtain ⟨hends, hq, hentry⟩ := step_gone (.inl rfl) hstep
      intro h conn hconn _
      exact (ho h conn (hentry ▸ hconn)).spare hends hq
  | dropConn c =>
      obtain ⟨hends, hq, hentry⟩ := step_gone (.inr rfl) hstep
      intro h conn hconn _
      exact (ho h conn (hentry ▸ hconn)).spare hends hq
  | recv =>
      intro remote c queue hq haccepts hgone
      obtain ⟨hends, hrest, hi⟩ := recv_inserted hstep hq haccepts
      cases ho _ _ hi.entry_self with
      | awaited hawait _ => exact absurd (hends ▸ hawait) hgone
      | held c' hc' => exact .inr ⟨c', hends ▸ hc'⟩
      | queued o hmem => exact .inl ⟨o, hrest ▸ hmem⟩
      | closing hclosing => cases hclosing
  | _ => trivial

/-- **Owners.**  Along an orderly run every entry has an owner, and the next step keeps that
exactly when it is orderly. -/
theorem owners {s : System D} (h : Transition.Reachable (guarded Step Orderly) Init s) :
    Owners s ∧ ∀ l t, Step s l t → (Owners t ↔ Orderly s l) := by
  have hinit : ∀ s : System D, Init s → Ends s ∧ Owners s := by
    intro s hs
    refine ⟨hs.ends, fun h conn hconn => ?_⟩
    rw [hs.entry] at hconn
    cases hconn
  have hboth : Ends s ∧ Owners s := owners_invariant.reachable hinit h
  refine ⟨hboth.2, fun l t hstep => ⟨orderly_of_owners hstep, fun hok => ?_⟩⟩
  exact (owners_invariant.step h.unguarded hboth hok hstep).2

/-- A sufficient check of `Orderly` at one state. -/
def orderly (s : System D) : Label → Bool
  | .cancel _ | .dropConn _ => false
  | .recv =>
      match s.queue with
      | .connect _ c :: _ => s.endpoints c = .awaiting
      | _ => true
  | _ => true

theorem orderly_sound (s : System D) (l : Label) (h : orderly s l = true) : Orderly s l := by
  cases l with
  | cancel c | dropConn c => cases h
  | recv =>
      intro remote c queue hq _ hgone
      simp only [orderly, hq] at h
      exact absurd (of_decide_eq_true h) hgone
  | _ => trivial

/-- A connection split, its halves dropped, and the `Close` handled. -/
theorem owners_split : ∃ s : System Deps.toy,
    (s.world.entry 1).any (fun conn => conn.closing) = true ∧ Owners s := by
  let labels : List Label :=
    [.connect ⟨.v4 1, 80⟩, .poll 0, .service [], .dns, .recv, .inbound [1, 0], .recv, .drained,
      .poll 1, .service [(1, [])], .dns, .connected 0, .split 0, .send 0 [7], .dropReader 0,
      .dropWriter 0, .recv, .recv]
  have hrun : (Transition.exec System.step orderly (System.init Deps.toy 1280 0 none)
      labels).any (fun s => (s.world.entry 1).any fun conn => conn.closing) = true := by
    decide +kernel
  obtain ⟨s, hs, hentry⟩ := (Option.any_eq_true _ _).mp hrun
  have hguarded : Transition.Reachable (guarded Step Orderly) Init s :=
    Transition.Reachable.exec (fun _ _ _ h => h) (fun s l _ => orderly_sound s l) labels
      (.init ⟨1280, 0, none, rfl⟩) hs
  exact ⟨s, hentry, (owners hguarded).1⟩

/-- A `TcpConn` dropped before it is split, as a TLS stream over it is: its connection stays
established, and nobody can close it. -/
theorem dropped_without_close : ¬ ∀ s : System Deps.toy, Reachable s → Owners s := by
  intro howned
  let labels : List Label :=
    [.connect ⟨.v4 1, 80⟩, .poll 0, .service [], .dns, .recv, .inbound [1, 0], .recv, .drained,
      .poll 1, .service [(1, [])], .dns, .connected 0, .dropConn 0]
  have hrun : ((System.init Deps.toy 1280 0 none).run labels).any (fun s =>
      s.queue = [] ∧ s.nextConn = 1 ∧ s.endpoints 0 = .none ∧
      (s.world.entry 1).any fun conn => conn.closing = false) = true := by
    decide +kernel
  obtain ⟨s, hs, hfacts⟩ := (Option.any_eq_true _ _).mp hrun
  have hr : Reachable s := run_reachable labels (.init ⟨1280, 0, none, rfl⟩) hs
  obtain ⟨hq, hnext, hend, hentry⟩ := of_decide_eq_true hfacts
  obtain ⟨conn, hconn, hopen⟩ := (Option.any_eq_true _ _).mp hentry
  have hnone : ∀ c, s.endpoints c = .none := by
    intro c
    rcases Nat.eq_zero_or_pos c with rfl | hpos
    · exact hend
    · exact hr.ends.unused (hnext ▸ hpos)
  cases howned s hr 1 conn hconn with
  | awaited hawait _ => rw [hnone] at hawait; cases hawait
  | held c hc => rw [hnone] at hc; cases hc
  | queued o hmem => rw [hq] at hmem; cases hmem
  | closing hclosing => rw [of_decide_eq_true hopen] at hclosing; cases hclosing

end

end WarpProxy.Netstack
