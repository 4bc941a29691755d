/-
# `WarpProxy.Netstack.Ends` — who holds the ends of a channel

A rule for properties of the whole system, kept by each kind of step
(`SystemInvariant`), along runs whose steps meet a guard.  With it: an entry has
its sender, and an entry whose connect is still awaited has its reply ahead of
it, in the actor's table or in the oneshot (`Ends`).
-/
import WarpProxy.Netstack.Outbound

namespace WarpProxy.Netstack

open Transition (guarded)

section
variable {D : Deps}

/-! ## The rule for the system -/

/-- What each kind of step keeps; the steps of the actor and of the endpoints meet `ok`. -/
structure SystemInvariant (ok : System D → Label → Prop) (P : System D → Prop) : Prop where
  /-- the actor did not touch its connections -/
  same : ∀ {s t}, Untouched s.world t.world → t.endpoints = s.endpoints →
    t.nextConn = s.nextConn → t.queue = s.queue → P s → P t
  /-- one turn of the loop of `service_sockets` -/
  turn : ∀ {s w h seams sock conn}, Ids s → Outbound s.world → s.world.entry h = some conn →
    Serviced s.world w h (visit D h seams sock conn (s.world.chans conn.fromNet)) →
    P s → P { s with world := w }
  /-- a command that panics -/
  panicked : ∀ {s t cmd}, s.queue = cmd :: t.queue → s.world.handleCmd cmd = none →
    t.world = s.world → t.endpoints = s.endpoints → t.nextConn = s.nextConn → P s → P t
  /-- a command handled -/
  handled : ∀ {s t cmd}, Reachable s → ok s .recv → s.queue = cmd :: t.queue →
    Handled s.world t.world cmd → t.endpoints = s.endpoints → t.nextConn = s.nextConn →
    P s → P t
  opened : ∀ {s} remote, Reachable s → P s → P (s.opened remote)
  moved : ∀ {s t l c e cmds}, Reachable s → ok s l → Moved s l c e cmds →
    Beside s t c e cmds → P s → P t

theorem Serviced.ids {s : System D} {w : World D} {h : Handle} {seams : List Nat} {sock : D.Tcp}
    {conn : Conn} {chan : Chan} (hs : Serviced s.world w h (visit D h seams sock conn chan))
    (hconn : s.world.entry h = some conn) (hi : Ids s) : Ids { s with world := w } where
  unborn c hc := hs.unborn hconn rfl (hi.unborn c hc)
  queued c hc := ⟨(hi.queued c hc).1, hs.unborn hconn rfl (hi.queued c hc).2⟩
  nodup := hi.nodup

/-- A pass keeps what its turns keep. -/
theorem SystemInvariant.pass {ok : System D → Label → Prop} {P : System D → Prop}
    (hP : SystemInvariant ok P) {s : System D} (hr : Reachable s) (hs : P s)
    {order : List (Handle × List Nat)} {w : World D}
    (hpass : s.world.serviceSockets order = some w) : P { s with world := w } := by
  have hall : Ids { s with world := w } ∧ Outbound w ∧ P { s with world := w } := by
    refine serviceSockets_invariant
      (fun w => Ids { s with world := w } ∧ Outbound w ∧ P { s with world := w }) order ?_
      ⟨hr.ids, hr.outbound, hs⟩ hpass
    intro w h seams w' _ ⟨hi, hout, hw⟩ hturn
    obtain ⟨sock, conn, -, hconn, hserviced⟩ := serviceSocket_cases hturn
    exact ⟨Serviced.ids (s := { s with world := w }) hserviced hconn hi,
      hout.turn hconn ⟨seams, sock, _, rfl⟩ hserviced,
      hP.turn (s := { s with world := w }) hi hout hconn hserviced hw⟩
  exact hall.2.2

theorem SystemInvariant.step {ok : System D → Label → Prop} {P : System D → Prop}
    (hP : SystemInvariant ok P) {s t : System D} {l : Label} (hr : Reachable s) (hs : P s)
    (hok : ok s l) (h : Step s l t) : P t := by
  rcases step_cases h with h | h
  · obtain ⟨hends, hnext, hcases⟩ := stepActor_cases h
    rcases hcases with ⟨hw, hq⟩ | ⟨order, hq, -, hpass⟩ | ⟨cmd, rfl, hq, ⟨hnone, hw⟩ | hcmd⟩
    · exact hP.same hw hends hnext hq hs
    · exact hP.same (s := { s with world := t.world }) (.refl t.world) hends hnext hq
        (hP.pass hr hs hpass)
    · exact hP.panicked hq hnone hw hends hnext hs
    · exact hP.handled hr hok hq (handleCmd_handled hcmd) hends hnext hs
  · rcases stepAsync_cases h with ⟨remote, -, rfl⟩ | ⟨c, e, cmds, hm, hb⟩
    · exact hP.opened remote hr hs
    · exact hP.moved hr hok hm hb hs

/-- **The rule.**  Along a run whose steps meet `ok`, what holds initially and is kept holds. -/
theorem SystemInvariant.reachable {ok : System D → Label → Prop} {P : System D → Prop}
    (hP : SystemInvariant ok P) (hinit : ∀ s, Init s → P s) {s : System D}
    (h : Transition.Reachable (guarded Step ok) Init s) : P s := by
  have hboth : Reachable s ∧ P s :=
    h.invariant (fun s => Reachable s ∧ P s) (fun s hs => ⟨.init hs, hinit s hs⟩)
      fun s l t hs hstep => ⟨hs.1.tail hstep.1, hP.step hs.1 hs.2 hstep.2 hstep.1⟩
  exact hboth.2

theorem SystemInvariant.unguarded {P : System D → Prop}
    (hP : SystemInvariant (fun _ _ => True) P) (hinit : ∀ s, Init s → P s) {s : System D}
    (h : Reachable s) : P s :=
  hP.reachable hinit (h.mono fun _ _ _ hs => ⟨hs, trivial⟩)

/-! ## The invariant -/

structure Ends (s : System D) : Prop where
  sender : ∀ {h conn}, s.world.entry h = some conn → (s.world.chans conn.fromNet).tx = true
  queued : ∀ {c}, c ∈ s.queue.filterMap Cmd.connId → (s.world.chans c).tx = true ∧
    (s.world.replies c).value = none ∧ (s.world.replies c).tx = true
  receiver : ∀ {c}, s.endpoints c = .awaiting → (s.world.replies c).rx = true
  pending : ∀ {h conn}, s.world.entry h = some conn → conn.connectReply = true →
    (s.world.replies conn.fromNet).value = none ∧ (s.world.replies conn.fromNet).tx = true
  replied : ∀ {h conn}, s.world.entry h = some conn → conn.connectReply = false →
    s.endpoints conn.fromNet = .awaiting → (s.world.replies conn.fromNet).value = some (.ok h)
  unused : ∀ {c}, s.nextConn ≤ c → s.endpoints c = .none

/-- The connections, the ends and the endpoints are as they were, and no connect has come. -/
theorem Ends.same {s t : System D} (hw : Untouched s.world t.world)
    (hends : t.endpoints = s.endpoints) (hnext : t.nextConn = s.nextConn)
    (hq : ∀ c, c ∈ t.queue.filterMap Cmd.connId → c ∈ s.queue.filterMap Cmd.connId)
    (he : Ends s) : Ends t := by
  constructor
  · intro h conn hconn
    rw [hw.entry] at hconn
    exact hw.chans ▸ he.sender hconn
  · intro c hc
    rw [hw.chans, hw.replies]
    exact he.queued (hq c hc)
  · intro c hc
    rw [hends] at hc
    exact hw.replies ▸ he.receiver hc
  · intro h conn hconn
    rw [hw.entry] at hconn
    exact hw.replies ▸ he.pending hconn
  · intro h conn hconn
    rw [hw.entry] at hconn
    rw [hends, hw.replies]
    exact he.replied hconn
  · intro c hc
    exact hends ▸ he.unused (hnext ▸ hc)

/-- A visit that replies `Ok` leaves the handle in the oneshot; one that refuses removes the
entry. -/
theorem Ends.turn {s : System D} {w : World D} {h : Handle} {seams : List Nat} {sock : D.Tcp}
    {conn : Conn} (hi : Ids s) (hout : Outbound s.world) (hconn : s.world.entry h = some conn)
    (hs : Serviced s.world w h (visit D h seams sock conn (s.world.chans conn.fromNet)))
    (he : Ends s) : Ends { s with world := w } := by
  have hother : ∀ {k conn'}, k ≠ h → w.entry k = some conn' →
      s.world.entry k = some conn' ∧ conn'.fromNet ≠ conn.fromNet := by
    intro k conn' hk hentry
    rw [hs.entry_ne k hk] at hentry
    exact ⟨hentry, fun heq => hk (hout.inj hentry hconn heq)⟩
  have hself : ∀ {conn'}, w.entry h = some conn' →
      (visit D h seams sock conn (s.world.chans conn.fromNet)).remove = false ∧
      conn' = (visit D h seams sock conn (s.world.chans conn.fromNet)).conn := by
    intro conn' hentry
    rw [hs.entry_self] at hentry
    split at hentry
    · cases hentry
    · next hkeep => exact ⟨Bool.not_eq_true _ ▸ hkeep, (Option.some.inj hentry).symm⟩
  constructor
  · intro k conn' hentry
    by_cases hk : k = h
    · subst hk
      obtain ⟨hkeep, rfl⟩ := hself hentry
      rw [hs.chan_self, hkeep, (visit_chan ..).1, Bool.not_false, Bool.and_true]
      exact he.sender hconn
    · obtain ⟨hold, hne⟩ := hother hk hentry
      rw [hs.chan_ne _ hne]
      exact he.sender hold
  · intro c hc
    have hne : c ≠ conn.fromNet := Ne.symm ((hi.queued c hc).2.2 h conn hconn)
    rw [hs.chan_ne c hne, hs.reply_ne c hne]
    exact he.queued hc
  · intro c hc
    rw [hs.reply_rx]
    exact he.receiver hc
  · intro k conn' hentry hreply
    by_cases hk : k = h
    · subst hk
      obtain ⟨hkeep, rfl⟩ := hself hentry
      obtain ⟨hold, hnone⟩ := (visit_connectReply ..).mp hreply
      have hpending := he.pending hconn hold
      rw [hs.value_self, hs.reply_tx hnone hkeep, hnone]
      exact hpending
    · obtain ⟨hold, hne⟩ := hother hk hentry
      rw [hs.reply_ne _ hne]
      exact he.pending hold hreply
  · intro k conn' hentry hreply hawait
    by_cases hk : k = h
    · subst hk
      obtain ⟨hkeep, rfl⟩ := hself hentry
      rw [hs.value_self]
      cases ho : (visit D k seams sock conn (s.world.chans conn.fromNet)).outcome with
      | none =>
          have hold : conn.connectReply = false := by
            rw [← Bool.not_eq_true] at hreply ⊢
            exact fun hold => hreply ((visit_connectReply ..).mpr ⟨hold, ho⟩)
          have hvalue := he.replied hconn hold hawait
          exact hvalue
      | some r =>
          have hrx : (s.world.replies conn.fromNet).rx = true := he.receiver hawait
          rcases (visit_outcome _ _ _ _ _ ho).2 with ⟨-, rfl⟩ | ⟨-, rfl⟩
          · exact if_pos hrx
          · have hremove := (visit_remove k seams sock conn _).mpr (.inl ⟨_, ho⟩)
            rw [hremove] at hkeep
            cases hkeep
    · obtain ⟨hold, hne⟩ := hother hk hentry
      rw [hs.reply_ne _ hne]
      exact he.replied hold hreply hawait
  · exact he.unused

/-- A `Send` or a `Close` changes an entry, not its ends. -/
theorem Ends.wrote {s t : System D} {h : Handle} {conn conn' : Conn} {e : Event}
    (hw : Wrote s.world t.world h conn' e) (hconn : s.world.entry h = some conn)
    (hfrom : conn'.fromNet = conn.fromNet) (hreply : conn'.connectReply = conn.connectReply)
    (hends : t.endpoints = s.endpoints) (hnext : t.nextConn = s.nextConn)
    (hq : ∀ c, c ∈ t.queue.filterMap Cmd.connId → c ∈ s.queue.filterMap Cmd.connId)
    (he : Ends s) : Ends t := by
  have hold : ∀ {k conn''}, t.world.entry k = some conn'' → ∃ old, s.world.entry k = some old ∧
      conn''.fromNet = old.fromNet ∧ conn''.connectReply = old.connectReply := by
    intro k conn'' hentry
    by_cases hk : k = h
    · subst hk
      rw [hw.entry_self, Option.some.injEq] at hentry
      subst hentry
      exact ⟨conn, hconn, hfrom, hreply⟩
    · rw [hw.entry_ne k hk] at hentry
      exact ⟨conn'', hentry, rfl, rfl⟩
  constructor
  · intro k conn'' hentry
    obtain ⟨old, ho, hf, -⟩ := hold hentry
    rw [hw.chans, hf]
    exact he.sender ho
  · intro c hc
    rw [hw.chans, hw.replies]
    exact he.queued (hq c hc)
  · intro c hc
    rw [hends] at hc
    exact hw.replies ▸ he.receiver hc
  · intro k conn'' hentry hr
    obtain ⟨old, ho, hf, hreply'⟩ := hold hentry
    rw [hw.replies, hf]
    exact he.pending ho (hreply' ▸ hr)
  · intro k conn'' hentry hr
    obtain ⟨old, ho, hf, hreply'⟩ := hold hentry
    rw [hends, hw.replies, hf]
    exact he.replied ho (hreply' ▸ hr)
  · intro c hc
    exact hends ▸ he.unused (hnext ▸ hc)

/-- The number of a connect taken off the queue: no entry has it, and no other connect. -/
theorem Ids.head {s t : System D} {remote : SocketAddr} {c : ConnId} (hi : Ids s)
    (hq : s.queue = .connect remote c :: t.queue) : c ∈ s.queue.filterMap Cmd.connId ∧
      s.world.Unborn c ∧ ∀ j, j ∈ t.queue.filterMap Cmd.connId →
        j ∈ s.queue.filterMap Cmd.connId ∧ j ≠ c := by
  have hids : s.queue.filterMap Cmd.connId = c :: t.queue.filterMap Cmd.connId := by
    rw [hq]; rfl
  have hmem : c ∈ s.queue.filterMap Cmd.connId := hids ▸ List.mem_cons_self
  refine ⟨hmem, (hi.queued c hmem).2, fun j hj => ⟨hids ▸ List.mem_cons_of_mem _ hj, ?_⟩⟩
  rintro rfl
  exact (List.nodup_cons.mp (hids ▸ hi.nodup)).1 hj

/-- The new entry takes the ends that came with the connect. -/
theorem Ends.inserted {s t : System D} {remote : SocketAddr} {c : ConnId} (hi : Ids s)
    (hout : Outbound s.world) (hq : s.queue = .connect remote c :: t.queue)
    (hin : Inserted s.world t.world remote c) (hends : t.endpoints = s.endpoints)
    (hnext : t.nextConn = s.nextConn) (he : Ends s) : Ends t := by
  obtain ⟨hmem, hunborn, hrest⟩ := hi.head hq
  -- the entry dropped from the slot, if any, is of another connect than the others
  have hother : ∀ {k conn}, k ≠ s.world.nextSlot → s.world.entry k = some conn →
      ∀ old, s.world.entry s.world.nextSlot = some old → old.fromNet ≠ conn.fromNet :=
    fun hk hentry old ho heq => hk (hout.inj hentry ho heq.symm)
  have hnew : ∀ old, s.world.entry s.world.nextSlot = some old → old.fromNet ≠ c :=
    fun old ho => hunborn.2 _ old ho
  constructor
  · intro k conn hentry
    rcases hin.entry_cases hentry with ⟨-, rfl⟩ | ⟨hk, ho⟩
    · show (t.world.chans c).tx = true
      rw [hin.chan c hnew]
      exact (he.queued hmem).1
    · rw [hin.chan _ (hother hk ho)]
      exact he.sender ho
  · intro j hj
    obtain ⟨hj, -⟩ := hrest j hj
    have hne : ∀ old, s.world.entry s.world.nextSlot = some old → old.fromNet ≠ j :=
      fun old ho => (hi.queued j hj).2.2 _ old ho
    rw [hin.chan j hne, hin.reply j hne]
    exact he.queued hj
  · intro j hj
    rw [hends] at hj
    rw [hin.reply_rx]
    exact he.receiver hj
  · intro k conn hentry hreply
    rcases hin.entry_cases hentry with ⟨-, rfl⟩ | ⟨hk, ho⟩
    · show (t.world.replies c).value = none ∧ (t.world.replies c).tx = true
      rw [hin.reply c hnew]
      exact (he.queued hmem).2
    · rw [hin.reply _ (hother hk ho)]
      exact he.pending ho hreply
  · intro k conn hentry hreply
    rcases hin.entry_cases hentry with ⟨-, rfl⟩ | ⟨-, ho⟩
    · cases hreply
    · rw [hends, hin.value]
      exact he.replied ho hreply
  · intro j hj
    exact hends ▸ he.unused (hnext ▸ hj)

/-- No entry had the ends of a refused connect. -/
theorem Ends.rejected {s t : System D} {remote : SocketAddr} {c : ConnId} (hi : Ids s)
    (hq : s.queue = .connect remote c :: t.queue) (hr : Rejected s.world t.world c)
    (hends : t.endpoints = s.endpoints) (hnext : t.nextConn = s.nextConn) (he : Ends s) :
    Ends t := by
  obtain ⟨-, hunborn, hrest⟩ := hi.head hq
  have hother : ∀ {k conn}, t.world.entry k = some conn →
      s.world.entry k = some conn ∧ conn.fromNet ≠ c := by
    intro k conn hentry
    rw [hr.entry] at hentry
    exact ⟨hentry, hunborn.2 k conn hentry⟩
  constructor
  · intro k conn hentry
    obtain ⟨ho, hne⟩ := hother hentry
    rw [hr.chan_ne _ hne]
    exact he.sender ho
  · intro j hj
    obtain ⟨hj, hne⟩ := hrest j hj
    rw [hr.chan_ne j hne, hr.reply_ne j hne]
    exact he.queued hj
  · intro j hj
    rw [hends] at hj
    rw [hr.reply_rx]
    exact he.receiver hj
  · intro k conn hentry hreply
    obtain ⟨ho, hne⟩ := hother hentry
    rw [hr.reply_ne _ hne]
    exact he.pending ho hreply
  · intro k conn hentry hreply
    obtain ⟨ho, hne⟩ := hother hentry
    rw [hends, hr.reply_ne _ hne]
    exact he.replied ho hreply
  · intro j hj
    exact hends ▸ he.unused (hnext ▸ hj)

theorem Ends.handled {s t : System D} {cmd : Cmd} (hi : Ids s) (hout : Outbound s.world)
    (hq : s.queue = cmd :: t.queue) (hw : Handled s.world t.world cmd)
    (hends : t.endpoints = s.endpoints) (hnext : t.nextConn = s.nextConn) (he : Ends s) :
    Ends t := by
  have hsub : ∀ c, c ∈ t.queue.filterMap Cmd.connId → c ∈ s.queue.filterMap Cmd.connId := by
    rw [hq, ← List.singleton_append, List.filterMap_append]
    exact fun c hc => List.mem_append_right _ hc
  cases hw with
  | untouched _ hw _ => exact he.same hw hends hnext hsub
  | inserted _ hin => exact he.inserted hi hout hq hin hends hnext
  | rejected _ hr => exact he.rejected hi hq hr hends hnext
  | sent hconn hw | closed hconn hw => exact he.wrote hw hconn rfl rfl hends hnext hsub

/-- A connect opens a channel and a oneshot under a new number. -/
theorem Ends.opened {s : System D} (remote : SocketAddr) (hi : Ids s) (he : Ends s) :
    Ends (s.opened remote) := by
  have hchan : ∀ {c}, c ≠ s.nextConn → (s.opened remote).world.chans c = s.world.chans c :=
    fun hc => Function.update_of_ne hc ..
  have hreply : ∀ {c}, c ≠ s.nextConn →
      (s.opened remote).world.replies c = s.world.replies c :=
    fun hc => Function.update_of_ne hc ..
  have hend : ∀ {c}, c ≠ s.nextConn → (s.opened remote).endpoints c = s.endpoints c :=
    fun hc => Function.update_of_ne hc ..
  have hchanNew : (s.opened remote).world.chans s.nextConn = .new := Function.update_self ..
  have hreplyNew : (s.opened remote).world.replies s.nextConn = .new := Function.update_self ..
  have hne : ∀ {h conn}, s.world.entry h = some conn → conn.fromNet ≠ s.nextConn :=
    fun hconn => (hi.unborn _ (Nat.le_refl _)).2 _ _ hconn
  constructor
  · intro h conn hconn
    rw [hchan (hne hconn)]
    exact he.sender hconn
  · intro c hc
    by_cases hnew : c = s.nextConn
    · rw [hnew, hchanNew, hreplyNew]
      exact ⟨rfl, rfl, rfl⟩
    · rw [hchan hnew, hreply hnew]
      refine he.queued ?_
      have hsplit : (s.opened remote).queue.filterMap Cmd.connId =
          s.queue.filterMap Cmd.connId ++ [s.nextConn] := List.filterMap_append ..
      rw [hsplit] at hc
      exact (List.mem_append.mp hc).resolve_right fun h => hnew (List.mem_singleton.mp h)
  · intro c hc
    by_cases hnew : c = s.nextConn
    · rw [hnew, hreplyNew]; rfl
    · rw [hend hnew] at hc
      rw [hreply hnew]
      exact he.receiver hc
  · intro h conn hconn
    rw [hreply (hne hconn)]
    exact he.pending hconn
  · intro h conn hconn
    rw [hreply (hne hconn), hend (hne hconn)]
    exact he.replied hconn
  · intro c hc
    have hlt : s.nextConn < c := hc
    rw [hend (Nat.ne_of_gt hlt)]
    exact he.unused (Nat.le_of_lt hlt)

/-- An endpoint awaits only what it awaited before. -/
theorem Moved.awaiting {s t : System D} {l : Label} {c : ConnId} {e : Endpoint}
    {cmds : List Cmd} (hm : Moved s l c e cmds) (hb : Beside s t c e cmds) {k : ConnId}
    (hk : t.endpoints k = .awaiting) : s.endpoints k = .awaiting := by
  rw [hb.endpoints] at hk
  by_cases hkc : k = c
  · subst hkc
    rw [Function.update_self] at hk
    cases hm with
    | still | send | close => exact hk
    | keeps _ _ he _ => rw [hk] at he; exact he.elim
    | _ => cases hk
  · rwa [Function.update_of_ne hkc] at hk

/-- Nothing comes of an endpoint that is not there. -/
theorem Moved.unused {s t : System D} {l : Label} {c : ConnId} {e : Endpoint}
    {cmds : List Cmd} (hm : Moved s l c e cmds) (hb : Beside s t c e cmds) {k : ConnId}
    (hk : s.endpoints k = .none) : t.endpoints k = .none := by
  rw [hb.endpoints]
  by_cases hkc : k = c
  · subst hkc
    rw [Function.update_self]
    cases hm with
    | still | send | close => exact hk
    | keeps _ hold _ _ => rw [hk] at hold; exact hold.elim
    | dropWriter hc | connected hc _ => rw [hk] at hc; cases hc
    | failed | cancel | dropConn => rfl
  · rw [Function.update_of_ne hkc]; exact hk

theorem Ends.moved {s t : System D} {l : Label} {c : ConnId} {e : Endpoint} {cmds : List Cmd}
    (hm : Moved s l c e cmds) (hb : Beside s t c e cmds) (he : Ends s) : Ends t := by
  constructor
  · intro h conn hconn
    rw [hb.same.entry] at hconn
    rw [hb.chan_tx]
    exact he.sender hconn
  · intro k hk
    rw [hb.queue, List.filterMap_append, hm.connIds, List.append_nil] at hk
    rw [hb.chan_tx, hb.value, hb.reply_tx]
    exact he.queued hk
  · intro k hk
    rw [hb.reply_rx k hk]
    exact he.receiver (hm.awaiting hb hk)
  · intro h conn hconn
    rw [hb.same.entry] at hconn
    rw [hb.value, hb.reply_tx]
    exact he.pending hconn
  · intro h conn hconn hreply hawait
    rw [hb.same.entry] at hconn
    rw [hb.value]
    exact he.replied hconn hreply (hm.awaiting hb hawait)
  · intro k hk
    exact hm.unused hb (he.unused (hb.nextConn ▸ hk))

theorem ends_invariant : SystemInvariant (fun _ _ => True) (Ends (D := D)) where
  same hw hends hnext hq := Ends.same hw hends hnext fun c hc => hq ▸ hc
  turn hi hout hconn hs := Ends.turn hi hout hconn hs
  panicked hq _ hw hends hnext := by
    refine Ends.same (hw ▸ .refl _) hends hnext fun c hc => ?_
    rw [hq, ← List.singleton_append, List.filterMap_append]
    exact List.mem_append_right _ hc
  handled hr _ hq hw hends hnext := Ends.handled hr.ids hr.outbound hq hw hends hnext
  opened remote hr := Ends.opened remote hr.ids
  moved _ _ hm hb := Ends.moved hm hb

theorem Init.ends {s : System D} (h : Init s) : Ends s := by
  have hnone := h.entry
  obtain ⟨mtu, v4, v6, rfl⟩ := h
  constructor
  · intro k conn hconn; rw [hnone] at hconn; cases hconn
  · intro c hc; exact absurd hc List.not_mem_nil
  · intro c hc; cases hc
  · intro k conn hconn; rw [hnone] at hconn; cases hconn
  · intro k conn hconn; rw [hnone] at hconn; cases hconn
  · intro c _; rfl

theorem Reachable.ends {s : System D} (h : Reachable s) : Ends s :=
  ends_invariant.unguarded (fun _ => Init.ends) h

end

end WarpProxy.Netstack
