/-
# `WarpProxy.Netstack.Isolation` — handles and the connections they lead to

A `Send` or a `Close` finds its connection by the slot of the socket set, and the
set gives a slot out again once it is free.  A handle is rightful when it leads
to the connection it was given out for, or nowhere (`Rightful`).  While every
handle is, a connection gets bytes and a `Close` from its own endpoint only
(`Isolated`).  What can go wrong is a connect that gets a slot whose handle
somebody still carries: an endpoint, a command in the queue, a reply not yet
collected (`Vacant` rules it out).

    rightful and isolated along a run whose connects get vacant slots, down to the
    transmit buffers; the next step keeps the handles rightful exactly when it does
    so                                                                 (`isolation`)
-/
import WarpProxy.Netstack.Ends
import WarpProxy.Netstack.Sent

namespace WarpProxy.Netstack

open Transition (guarded)

/-! ## Reading the log -/

/-- A command processed for a connection was issued by its own endpoint. -/
def Event.Own : Event → Prop
  | .sent c o _ | .closed c o => o = c
  | _ => True

/-- The payloads of the `Send`s of the endpoint `o` processed for `c`. -/
def sentBy (o c : ConnId) (log : List Event) : List UInt8 :=
  log.flatMap fun
    | .sent k p data => if k = c ∧ p = o then data else []
    | _ => []

/-- In a log of own commands, what was sent to a connection is what its endpoint sent. -/
theorem sentBy_own {log : List Event} (c : ConnId) (h : ∀ e ∈ log, e.Own) :
    sentBy c c log = sentTo c log := by
  induction log with
  | nil => rfl
  | cons e log ih =>
      have hlog : ∀ e' ∈ log, e'.Own := fun e' he' => h e' (List.mem_cons_of_mem _ he')
      have he : e.Own := h e List.mem_cons_self
      rw [sentBy, sentTo, List.flatMap_cons, List.flatMap_cons]
      refine congrArg₂ (· ++ ·) ?_ (ih hlog)
      cases e with
      | sent k o data =>
          have ho : o = k := he
          subst ho
          simp only [and_self]
      | _ => rfl

section
variable {D : Deps}

/-- Nothing in the log of a visit is a command. -/
theorem Visit.events_own (v : Visit D) (c : ConnId) : ∀ e ∈ v.events c, e.Own := by
  intro e he
  simp only [Visit.events, List.mem_append, List.mem_cons, List.not_mem_nil, or_false] at he
  rcases he with ((he | rfl | rfl) | he) | he
  · cases ho : v.outcome with
    | none => rw [ho] at he; cases he
    | some r => rw [ho] at he; rw [List.mem_singleton.mp he]; trivial
  · trivial
  · trivial
  · split at he
    · rw [List.mem_singleton.mp he]; trivial
    · cases he
  · split at he
    · rw [List.mem_singleton.mp he]; trivial
    · cases he

/-! ## The properties -/

structure Isolated (w : World D) : Prop where
  sent : ∀ c o data, .sent c o data ∈ w.log → o = c
  closed : ∀ c o, .closed c o ∈ w.log → o = c
  stream : ∀ h conn, w.entry h = some conn →
    acceptedBy conn.fromNet w.log ++ conn.outBuf = sentBy conn.fromNet conn.fromNet w.log
  accepted : ∀ c, acceptedBy c w.log <+: sentBy c c w.log
  closing : ∀ h conn, w.entry h = some conn → conn.closing = true →
    .closed conn.fromNet conn.fromNet ∈ w.log

structure Rightful (s : System D) : Prop where
  held : ∀ {c h conn}, (s.endpoints c).handle = some h → s.world.entry h = some conn →
    conn.fromNet = c
  queued : ∀ {cmd h o conn}, cmd ∈ s.queue → cmd.target = some (h, o) →
    s.world.entry h = some conn → conn.fromNet = o
  promised : ∀ {c h conn}, s.endpoints c = .awaiting →
    (s.world.replies c).value = some (.ok h) → s.world.entry h = some conn → conn.fromNet = c

/-- A connect that smoltcp takes gets a slot whose handle nobody carries. -/
def Vacant (s : System D) (l : Label) : Prop :=
  l = .recv → ∀ remote c queue, s.queue = .connect remote c :: queue →
    s.world.Accepts remote →
    (∀ c', (s.endpoints c').handle ≠ some s.world.nextSlot) ∧
    (∀ cmd ∈ queue, ∀ o, cmd.target ≠ some (s.world.nextSlot, o)) ∧
    ∀ c', s.endpoints c' = .awaiting →
      (s.world.replies c').value ≠ some (.ok s.world.nextSlot)

/-- When the log has own commands only, the rest follows from what they amount to. -/
theorem Outbound.isolated {w : World D} (hw : Outbound w) (hlog : ∀ e ∈ w.log, e.Own) :
    Isolated w where
  sent _ _ _ he := hlog _ he
  closed _ _ he := hlog _ he
  stream _ _ he := by rw [sentBy_own _ hlog]; exact hw.stream he
  accepted c := by rw [sentBy_own _ hlog]; exact hw.passed c
  closing _ conn he hclosing := by
    obtain ⟨o, ho⟩ := (hw.closing he).mp hclosing
    have hown : o = conn.fromNet := hlog _ ho
    exact hown ▸ ho

/-! ## What the steps keep -/

/-- Handles stay rightful while no entry, endpoint or command comes in and no reply is
sent. -/
theorem Rightful.retains {s t : System D} (hr : Retains s.world t.world)
    (hends : t.endpoints = s.endpoints) (hq : ∀ cmd ∈ t.queue, cmd ∈ s.queue)
    (hvalue : ∀ c h, (t.world.replies c).value = some (.ok h) →
      (s.world.replies c).value = some (.ok h)) (hs : Rightful s) : Rightful t := by
  constructor
  · intro c h conn hc hconn
    obtain ⟨old, hold, halike⟩ := hr h conn hconn
    rw [halike.fromNet]
    exact hs.held (hends ▸ hc) hold
  · intro cmd h o conn hmem htarget hconn
    obtain ⟨old, hold, halike⟩ := hr h conn hconn
    rw [halike.fromNet]
    exact hs.queued (hq cmd hmem) htarget hold
  · intro c h conn hc hv hconn
    obtain ⟨old, hold, halike⟩ := hr h conn hconn
    rw [halike.fromNet]
    exact hs.promised (hends ▸ hc) (hvalue c h hv) hold

/-- A visit that replies gives out the handle of the entry it visits. -/
theorem Rightful.turn {s : System D} {w : World D} {h : Handle} {seams : List Nat} {sock : D.Tcp}
    {conn : Conn} (hconn : s.world.entry h = some conn)
    (hserviced : Serviced s.world w h (visit D h seams sock conn (s.world.chans conn.fromNet)))
    (hs : Rightful s) : Rightful { s with world := w } := by
  have hr : Retains s.world w := hserviced.retains hconn
  constructor
  · intro c k conn' hc hentry
    obtain ⟨old, hold, halike⟩ := hr k conn' hentry
    rw [halike.fromNet]
    exact hs.held hc hold
  · intro cmd k o conn' hmem htarget hentry
    obtain ⟨old, hold, halike⟩ := hr k conn' hentry
    rw [halike.fromNet]
    exact hs.queued hmem htarget hold
  · intro c k conn' hc hvalue hentry
    obtain ⟨old, hold, halike⟩ := hr k conn' hentry
    rw [halike.fromNet]
    rcases hserviced.value_ok hvalue with hvalue | ⟨hcc, rfl⟩
    · exact hs.promised hc hvalue hold
    · rw [hconn, Option.some.injEq] at hold
      rw [← hold, hcc]

/-- A connect in a vacant slot: nobody carries the handle of the new entry. -/
theorem Rightful.handled {s t : System D} {cmd : Cmd} (hok : Vacant s .recv)
    (hq : s.queue = cmd :: t.queue) (hw : Handled s.world t.world cmd)
    (hends : t.endpoints = s.endpoints) (hs : Rightful s) : Rightful t := by
  have hmem : ∀ cmd ∈ t.queue, cmd ∈ s.queue := fun _ h => hq ▸ List.mem_cons_of_mem _ h
  have hvalue : ∀ c h, (t.world.replies c).value = some (.ok h) →
      (s.world.replies c).value = some (.ok h) := fun _ _ h => hw.value_ok h
  rcases hw.retains with hretains | ⟨remote, c, rfl, haccepts, hi⟩
  · exact hs.retains hretains hends hmem hvalue
  · obtain ⟨hheld, hqueued, hpromised⟩ := hok rfl remote c _ hq haccepts
    constructor
    · intro c' h conn hc hconn
      rw [hends] at hc
      have hne : h ≠ s.world.nextSlot := fun heq => hheld c' (heq ▸ hc)
      exact hs.held hc (hi.entry_ne h hne ▸ hconn)
    · intro cmd h o conn hcmd htarget hconn
      have hne : h ≠ s.world.nextSlot := fun heq => hqueued cmd hcmd o (heq ▸ htarget)
      exact hs.queued (hmem cmd hcmd) htarget (hi.entry_ne h hne ▸ hconn)
    · intro c' h conn hc hv hconn
      rw [hends] at hc
      have hv := hvalue c' h hv
      have hne : h ≠ s.world.nextSlot := fun heq => hpromised c' hc (heq ▸ hv)
      exact hs.promised hc hv (hi.entry_ne h hne ▸ hconn)

theorem Rightful.opened {s : System D} (remote : SocketAddr) (hs : Rightful s) :
    Rightful (s.opened remote) := by
  have hend : ∀ {c}, c ≠ s.nextConn → (s.opened remote).endpoints c = s.endpoints c :=
    fun hc => Function.update_of_ne hc ..
  constructor
  · intro c h conn hc hconn
    by_cases hnew : c = s.nextConn
    · have hself : (s.opened remote).endpoints s.nextConn = .awaiting := Function.update_self ..
      rw [hnew, hself] at hc
      cases hc
    · exact hs.held (hend hnew ▸ hc) hconn
  · intro cmd h o conn hmem htarget hconn
    rcases List.mem_append.mp hmem with hmem | hmem
    · exact hs.queued hmem htarget hconn
    · rw [List.mem_singleton.mp hmem] at htarget
      cases htarget
  · intro c h conn hc hvalue hconn
    by_cases hnew : c = s.nextConn
    · have hself : (s.opened remote).world.replies s.nextConn = .new := Function.update_self ..
      rw [hnew, hself] at hvalue
      cases hvalue
    · have hreply : (s.opened remote).world.replies c = s.world.replies c :=
        Function.update_of_ne hnew ..
      exact hs.promised (hend hnew ▸ hc) (hreply ▸ hvalue) hconn

/-- What an endpoint sends carries its own handle. -/
theorem Moved.target {s : System D} {l : Label} {c : ConnId} {e : Endpoint} {cmds : List Cmd}
    (hm : Moved s l c e cmds) {cmd : Cmd} (hmem : cmd ∈ cmds) {h : Handle} {o : ConnId}
    (htarget : cmd.target = some (h, o)) : o = c ∧ (s.endpoints c).handle = some h := by
  cases hm with
  | still _ _ hcmds =>
      rw [(hcmds cmd hmem).1] at htarget
      cases htarget
  | send data hhandle | close hhandle =>
      rw [List.mem_singleton.mp hmem] at htarget
      cases htarget
      exact ⟨rfl, hhandle⟩
  | dropWriter hc =>
      rw [List.mem_singleton.mp hmem] at htarget
      cases htarget
      exact ⟨rfl, by rw [hc]; rfl⟩
  | _ => cases hmem

theorem Rightful.moved {s t : System D} {l : Label} {c : ConnId} {e : Endpoint}
    {cmds : List Cmd} (hm : Moved s l c e cmds) (hb : Beside s t c e cmds) (hs : Rightful s) :
    Rightful t := by
  have hentry : t.world.entry = s.world.entry := hb.same.entry
  constructor
  · intro c' h conn hc hconn
    rw [hentry] at hconn
    rw [hb.endpoints] at hc
    by_cases hcc : c' = c
    · subst hcc
      rw [Function.update_self] at hc
      cases hm with
      | connected hawait hvalue =>
          cases hc
          exact hs.promised hawait hvalue hconn
      | still | send | close => exact hs.held hc hconn
      | keeps _ _ _ hhandle => exact hs.held (hhandle ▸ hc) hconn
      | failed | cancel | dropConn | dropWriter => cases hc
    · rw [Function.update_of_ne hcc] at hc
      exact hs.held hc hconn
  · intro cmd h o conn hmem htarget hconn
    rw [hentry] at hconn
    rw [hb.queue] at hmem
    rcases List.mem_append.mp hmem with hmem | hmem
    · exact hs.queued hmem htarget hconn
    · obtain ⟨rfl, hhandle⟩ := hm.target hmem htarget
      exact hs.held hhandle hconn
  · intro c' h conn hc hvalue hconn
    rw [hb.value] at hvalue
    exact hs.promised (hm.awaiting hb hc) hvalue (hentry ▸ hconn)

/-- A rightful command is an own one. -/
theorem Handled.own {w w' : World D} {cmd : Cmd} (h : Handled w w' cmd)
    (htarget : ∀ k o conn, cmd.target = some (k, o) → w.entry k = some conn →
      conn.fromNet = o) (hlog : ∀ e ∈ w.log, e.Own) : ∀ e ∈ w'.log, e.Own := by
  have happend : ∀ {e}, w'.log = w.log ++ [e] → e.Own → ∀ e ∈ w'.log, e.Own := by
    intro e heq hown e' he'
    rw [heq] at he'
    rcases List.mem_append.mp he' with he' | he'
    · exact hlog e' he'
    · exact List.mem_singleton.mp he' ▸ hown
  cases h with
  | untouched _ hw _ => exact hw.log ▸ hlog
  | inserted _ hi => exact hi.log ▸ hlog
  | rejected _ hr => exact happend hr.log trivial
  | sent hconn hw | closed hconn hw => exact happend hw.log (htarget _ _ _ rfl hconn).symm

theorem rightful_invariant : SystemInvariant (Vacant (D := D))
    (fun s => Rightful s ∧ ∀ e ∈ s.world.log, e.Own) where
  same hw hends _ hq h := by
    refine ⟨h.1.retains (.of_eq hw.entry) hends (fun _ hmem => hq ▸ hmem)
      (fun c k hvalue => hw.replies ▸ hvalue), ?_⟩
    rw [hw.log]
    exact h.2
  turn _ _ hconn hs h := by
    refine ⟨h.1.turn hconn hs, fun e he => ?_⟩
    rw [hs.log] at he
    rcases List.mem_append.mp he with he | he
    · exact h.2 e he
    · exact Visit.events_own _ _ e he
  panicked hq _ hw hends _ h := by
    refine ⟨h.1.retains (.of_eq (by rw [hw])) hends
      (fun _ hmem => hq ▸ List.mem_cons_of_mem _ hmem) (fun c k hvalue => hw ▸ hvalue), ?_⟩
    rw [hw]
    exact h.2
  handled _ hok hq hw hends _ h := by
    refine ⟨h.1.handled hok hq hw hends, hw.own ?_ h.2⟩
    exact fun k o conn htarget hconn =>
      h.1.queued (hq ▸ List.mem_cons_self) htarget hconn
  opened remote _ h := ⟨h.1.opened remote, h.2⟩
  moved _ _ hm hb h := by
    refine ⟨h.1.moved hm hb, ?_⟩
    rw [hb.same.log]
    exact h.2

/-! ## What a connect in a slot that is not vacant does -/

/-- While a connect is in the queue its endpoint has no handle and has sent nothing. -/
structure Issued (s : System D) : Prop where
  queued : ∀ {c}, c ∈ s.queue.filterMap Cmd.connId → (s.endpoints c).handle = none ∧
    ∀ cmd ∈ s.queue, ∀ h, cmd.target ≠ some (h, c)
  below : ∀ {cmd h o}, cmd ∈ s.queue → cmd.target = some (h, o) → o < s.nextConn

theorem Issued.shrinks {s t : System D} (hends : t.endpoints = s.endpoints)
    (hnext : t.nextConn = s.nextConn) (hq : t.queue.Sublist s.queue) (hs : Issued s) :
    Issued t := by
  constructor
  · intro c hc
    obtain ⟨hhandle, hcmds⟩ := hs.queued ((hq.filterMap _).subset hc)
    exact ⟨hends ▸ hhandle, fun cmd hmem => hcmds cmd (hq.subset hmem)⟩
  · intro cmd h o hmem htarget
    exact hnext ▸ hs.below (hq.subset hmem) htarget

theorem Issued.opened {s : System D} (remote : SocketAddr) (hi : Ids s) (hs : Issued s) :
    Issued (s.opened remote) := by
  constructor
  · intro c hc
    have hsplit : (s.opened remote).queue.filterMap Cmd.connId =
        s.queue.filterMap Cmd.connId ++ [s.nextConn] := List.filterMap_append ..
    rw [hsplit] at hc
    have hcmds : (∀ cmd ∈ s.queue, ∀ h, cmd.target ≠ some (h, c)) →
        ∀ cmd ∈ (s.opened remote).queue, ∀ h, cmd.target ≠ some (h, c) := by
      intro hold cmd hmem h htarget
      rcases List.mem_append.mp hmem with hmem | hmem
      · exact hold cmd hmem h htarget
      · rw [List.mem_singleton.mp hmem] at htarget
        cases htarget
    rcases List.mem_append.mp hc with hc | hc
    · have hne : c ≠ s.nextConn := Nat.ne_of_lt (hi.queued c hc).1
      have hend : (s.opened remote).endpoints c = s.endpoints c := Function.update_of_ne hne ..
      exact ⟨hend ▸ (hs.queued hc).1, hcmds (hs.queued hc).2⟩
    · rw [List.mem_singleton.mp hc] at hcmds ⊢
      have hend : (s.opened remote).endpoints s.nextConn = .awaiting := Function.update_self ..
      refine ⟨hend ▸ rfl, hcmds fun cmd hmem h htarget => ?_⟩
      exact Nat.lt_irrefl _ (hs.below hmem htarget)
  · intro cmd h o hmem htarget
    rcases List.mem_append.mp hmem with hmem | hmem
    · exact Nat.lt_succ_of_lt (hs.below hmem htarget)
    · rw [List.mem_singleton.mp hmem] at htarget
      cases htarget

theorem Issued.moved {s t : System D} {l : Label} {c : ConnId} {e : Endpoint} {cmds : List Cmd}
    (hm : Moved s l c e cmds) (hb : Beside s t c e cmds) (he : Ends s) (hs : Issued s) :
    Issued t := by
  constructor
  · intro k hk
    rw [hb.queue, List.filterMap_append, hm.connIds, List.append_nil] at hk
    obtain ⟨hhandle, hcmds⟩ := hs.queued hk
    constructor
    · rw [hb.endpoints]
      by_cases hkc : k = c
      · subst hkc
        rw [Function.update_self]
        cases hm with
        | connected _ hvalue =>
            rw [(he.queued hk).2.1] at hvalue
            cases hvalue
        | still | send | close => exact hhandle
        | keeps _ _ _ hkeep => exact hkeep.trans hhandle
        | failed | cancel | dropConn | dropWriter => rfl
      · rw [Function.update_of_ne hkc]; exact hhandle
    · intro cmd hmem h htarget
      rw [hb.queue] at hmem
      rcases List.mem_append.mp hmem with hmem | hmem
      · exact hcmds cmd hmem h htarget
      · obtain ⟨rfl, hhas⟩ := hm.target hmem htarget
        rw [hhandle] at hhas
        cases hhas
  · intro cmd h o hmem htarget
    rw [hb.nextConn]
    rw [hb.queue] at hmem
    rcases List.mem_append.mp hmem with hmem | hmem
    · exact hs.below hmem htarget
    · obtain ⟨rfl, hhas⟩ := hm.target hmem htarget
      refine Nat.lt_of_not_le fun hle => ?_
      rw [he.unused hle] at hhas
      cases hhas

theorem issued_invariant : SystemInvariant (fun _ _ => True) (Issued (D := D)) where
  same _ hends hnext hq hs := hs.shrinks hends hnext (hq ▸ List.Sublist.refl _)
  turn {s _ _ _ _ _} _ _ _ _ hs := Issued.shrinks (s := s) rfl rfl (List.Sublist.refl _) hs
  panicked hq _ _ hends hnext hs :=
    hs.shrinks hends hnext (hq ▸ List.sublist_cons_self _ _)
  handled _ _ hq _ hends hnext hs :=
    hs.shrinks hends hnext (hq ▸ List.sublist_cons_self _ _)
  opened remote hr hs := hs.opened remote hr.ids
  moved hr _ hm hb hs := hs.moved hm hb hr.ends

theorem Reachable.issued {s : System D} (h : Reachable s) : Issued s := by
  refine issued_invariant.unguarded (fun s hs => ?_) h
  obtain ⟨mtu, v4, v6, rfl⟩ := hs
  exact ⟨fun hc => absurd hc List.not_mem_nil, fun hmem => absurd hmem List.not_mem_nil⟩

/-- If the handles are rightful after the step, its connect got a vacant slot. -/
theorem vacant_of_rightful {s t : System D} {l : Label} (hr : Reachable s) (hstep : Step s l t)
    (ht : Rightful t) : Vacant s l := by
  rintro rfl remote c queue hq haccepts
  obtain ⟨hends, hrest, hi⟩ := recv_inserted hstep hq haccepts
  have hmem : c ∈ s.queue.filterMap Cmd.connId := by
    rw [hq]
    exact List.mem_cons_self
  obtain ⟨hhandle, hcmds⟩ := hr.issued.queued hmem
  refine ⟨fun c' hc' => ?_, fun cmd hcmd o htarget => ?_, fun c' hc' hvalue => ?_⟩
  · have hcc : c = c' := ht.held (hends ▸ hc') hi.entry_self
    rw [← hcc, hhandle] at hc'
    cases hc'
  · have hco : c = o := ht.queued (hrest ▸ hcmd) htarget hi.entry_self
    exact hcmds cmd (hq ▸ List.mem_cons_of_mem _ hcmd) _ (hco ▸ htarget)
  · have hcc : c = c' :=
      ht.promised (hends ▸ hc') ((hi.value c').trans hvalue) hi.entry_self
    rw [← hcc, (hr.ends.queued hmem).2.1] at hvalue
    cases hvalue

/-- The transmit buffer and `out_buf` of every entry hold the end of what its own endpoint sent. -/
def HoldsOwn (sendBuf : D.Tcp → List UInt8) (w : World D) : Prop :=
  ∀ k conn sock, w.entry k = some conn → D.tcp w.actor.sockets k = some sock →
    sendBuf sock ++ conn.outBuf <:+ sentBy conn.fromNet conn.fromNet w.log

theorem Isolated.holdsOwn {live : D.Dns → D.Query → Prop} {sendBuf : D.Tcp → List UInt8}
    (hD : D.SocketSetLaws) (hP : D.PollLaws) (hQ : D.DnsLaws live) (hS : D.SendLaws sendBuf)
    {s : System D} (hr : Reachable s) (hi : Isolated s.world) : HoldsOwn sendBuf s.world := by
  intro k conn sock hconn hsock
  obtain ⟨left, hleft⟩ := hr.sendBuf_suffix hD hP hQ hS hconn hsock
  refine ⟨left, ?_⟩
  rw [← hi.stream k conn hconn, ← hleft, List.append_assoc]

/-- **Isolation.**  Along a run whose connects get vacant slots every connection has bytes and
a `Close` from its own endpoint only, in `out_buf` and in its socket; and the next step leaves
every handle with its connection exactly when it is such a step. -/
theorem isolation {s : System D} (h : Transition.Reachable (guarded Step Vacant) Init s) :
    Isolated s.world ∧ Rightful s ∧ (∀ l t, Step s l t → (Rightful t ↔ Vacant s l)) ∧
      ∀ live sendBuf, D.SocketSetLaws → D.PollLaws → D.DnsLaws live → D.SendLaws sendBuf →
        HoldsOwn sendBuf s.world := by
  have hinit : ∀ s : System D, Init s → Rightful s ∧ ∀ e ∈ s.world.log, e.Own := by
    intro s hs
    have hnone := hs.entry
    obtain ⟨mtu, v4, v6, rfl⟩ := hs
    refine ⟨⟨fun _ he => ?_, fun _ _ he => ?_, fun _ _ he => ?_⟩,
      fun e he => absurd he List.not_mem_nil⟩
    all_goals
      rw [hnone] at he
      cases he
  have hboth := rightful_invariant.reachable hinit h
  have hr : Reachable s := h.unguarded
  have hisolated : Isolated s.world := hr.outbound.isolated hboth.2
  refine ⟨hisolated, hboth.1, fun l t hstep => ⟨vacant_of_rightful hr hstep, fun hok => ?_⟩,
    fun _ _ hD hP hQ hS => hisolated.holdsOwn hD hP hQ hS hr⟩
  exact (rightful_invariant.step hr hboth hok hstep).1

/-- The oneshot has the handle `h` in it. -/
def Oneshot.gives (o : Oneshot Handle) (h : Handle) : Bool :=
  match o.value with
  | some (.ok k) => k == h
  | _ => false

/-- A sufficient check of `Vacant` at one state. -/
def vacant (s : System D) : Label → Bool
  | .recv =>
      match s.queue with
      | .connect _ _ :: queue =>
          (List.range s.nextConn).all (fun c =>
            (s.endpoints c).handle != some s.world.nextSlot &&
              !(s.endpoints c == .awaiting && (s.world.replies c).gives s.world.nextSlot)) &&
          queue.all fun cmd => cmd.target.map Prod.fst != some s.world.nextSlot
      | _ => true
  | _ => true

theorem vacant_sound (s : System D) (l : Label) (hr : Reachable s) (h : vacant s l = true) :
    Vacant s l := by
  rintro rfl remote c queue hq -
  simp only [vacant, hq, Bool.and_eq_true, List.all_eq_true, bne_iff_ne, ne_eq,
    Bool.not_eq_true', Bool.and_eq_false_imp, beq_iff_eq] at h
  obtain ⟨hends, hcmds⟩ := h
  have hcalled : ∀ c', s.endpoints c' ≠ .none → c' ∈ List.range s.nextConn := by
    intro c' hc'
    exact List.mem_range.mpr (Nat.lt_of_not_le fun hle => hc' (hr.ends.unused hle))
  refine ⟨fun c' hc' => ?_, fun cmd hcmd o htarget => ?_, fun c' hc' hvalue => ?_⟩
  · have hmem := hcalled c' (by intro hnone; rw [hnone] at hc'; cases hc')
    exact (hends c' hmem).1 hc'
  · refine hcmds cmd hcmd ?_
    rw [htarget]
    rfl
  · have hmem := hcalled c' (by rw [hc']; exact fun h => nomatch h)
    have hgives := (hends c' hmem).2 hc'
    rw [Oneshot.gives, hvalue] at hgives
    simp only [beq_self_eq_true, Bool.true_eq_false] at hgives

/-- A connection closed by its own writer and reset, and another one in its slot: what that one
sent is in the transmit buffer. -/
theorem isolation_reuse : ∃ s : System Deps.toy, .closed 0 0 ∈ s.world.log ∧
    Isolated s.world ∧ ∃ conn sock, s.world.entry 1 = some conn ∧
      Deps.toy.tcp s.world.actor.sockets 1 = some sock ∧ Toy.Tcp.tx sock = [2] ∧
      Toy.Tcp.tx sock ++ conn.outBuf <:+ sentBy 1 1 s.world.log := by
  let labels : List Label :=
    [.connect ⟨.v4 1, 80⟩, .poll 0, .service [], .dns, .recv, .inbound [1, 0], .recv, .drained,
      .poll 1, .service [(1, [])], .dns, .connected 0, .split 0, .dropWriter 0, .recv,
      .inbound [1, 3], .recv, .drained, .poll 2, .service [(1, [])], .dns,
      .connect ⟨.v4 2, 80⟩, .recv, .inbound [1, 0], .recv, .drained, .poll 3,
      .service [(1, [])], .dns, .connected 1, .send 1 [2], .recv, .drained, .poll 4,
      .service [(1, [])]]
  have hrun : (Transition.exec System.step vacant (System.init Deps.toy 1280 0 none)
      labels).any (fun s => .closed 0 0 ∈ s.world.log ∧
        (s.world.entry 1).any (fun conn => conn.fromNet = 1) ∧
        (Deps.toy.tcp s.world.actor.sockets 1).any (fun sock => Toy.Tcp.tx sock = [2])) =
      true := by
    decide +kernel
  obtain ⟨s, hs, hfacts⟩ := (Option.any_eq_true _ _).mp hrun
  have hguarded : Transition.Reachable (guarded Step Vacant) Init s :=
    Transition.Reachable.exec (fun _ _ _ h => h) vacant_sound labels
      (.init ⟨1280, 0, none, rfl⟩) hs
  obtain ⟨hclosed, hentry, htcp⟩ := of_decide_eq_true hfacts
  obtain ⟨conn, hconn, hfrom⟩ := (Option.any_eq_true _ _).mp hentry
  obtain ⟨sock, hsock, htx⟩ := (Option.any_eq_true _ _).mp htcp
  obtain ⟨hisolated, -, -, hholds⟩ := isolation hguarded
  have hown := hholds _ _ Deps.toy_socketSetLaws Deps.toy_pollLaws Deps.toy_dnsLaws
    Deps.toy_sendLaws 1 conn sock hconn hsock
  rw [show conn.fromNet = 1 from of_decide_eq_true hfrom] at hown
  exact ⟨s, hclosed, hisolated, conn, sock, hconn, hsock, of_decide_eq_true htx, hown⟩

/-- The first connection is reset while its `TcpConn` lives; what that one sends next goes out
on the second connection, which has the slot. -/
theorem foreign_bytes : ¬ ∀ s : System Deps.toy, Reachable s → Isolated s.world := by
  intro hisolated
  let labels : List Label :=
    [.connect ⟨.v4 1, 80⟩, .poll 0, .service [], .dns, .recv, .inbound [1, 0], .recv, .drained,
      .poll 1, .service [(1, [])], .dns, .connected 0, .inbound [1, 3], .recv, .drained, .poll 2,
      .service [(1, [])], .dns, .connect ⟨.v4 2, 80⟩, .recv, .send 0 [9], .recv]
  have hrun : ((System.init Deps.toy 1280 0 none).run labels).any (fun s =>
      .sent 1 0 [9] ∈ s.world.log) = true := by
    decide +kernel
  obtain ⟨s, hs, hfacts⟩ := (Option.any_eq_true _ _).mp hrun
  have hr : Reachable s := run_reachable labels (.init ⟨1280, 0, none, rfl⟩) hs
  have hsent : .sent 1 0 [9] ∈ s.world.log := of_decide_eq_true hfacts
  exact absurd ((hisolated s hr).sent 1 0 [9] hsent) (by decide)

end

end WarpProxy.Netstack
