/-
# `WarpProxy.Netstack.Answered` — the answer to a connect

A pass looks at the socket of a pending connect and answers `Ok` in `Established`,
`Err` when the socket is out of use.  `repliesTo` reads the answers off the log:
there is at most one, an `Ok` comes from an established socket, and after an `Err`
nothing of the connect is left (`Answered`).

The pass tests for one state, though, and a poll may lead through several: a SYN
ACK and a FIN in one batch leave the socket in `CloseWait`, which is neither
established nor out of use.  Such a connect is `Overtaken`, and a pass leaves the
pending connects in their handshakes exactly when none is (`pass_pending`).
-/
import WarpProxy.Netstack.Pass

namespace WarpProxy.Netstack

open Transition (guarded)

/-! ## Reading the log -/

/-- The replies sent to the connect `c`: whether each was an `Ok`. -/
def repliesTo (c : ConnId) (log : List Event) : List Bool :=
  log.flatMap fun
    | .replied k ok => if k = c then [ok] else []
    | _ => []

theorem repliesTo_append (c : ConnId) (log es : List Event) :
    repliesTo c (log ++ es) = repliesTo c log ++ repliesTo c es :=
  List.flatMap_append

theorem repliesTo_other {c : ConnId} {es : List Event} (h : ∀ e ∈ es, e.conn ≠ c) :
    repliesTo c es = [] := by
  refine List.flatMap_eq_nil_iff.mpr fun e he => ?_
  have hne := h e he
  cases e with
  | replied k ok => exact if_neg hne
  | _ => rfl

theorem repliesTo_append_other {c : ConnId} (log : List Event) {es : List Event}
    (h : ∀ e ∈ es, e.conn ≠ c) : repliesTo c (log ++ es) = repliesTo c log := by
  rw [repliesTo_append, repliesTo_other h, List.append_nil]

theorem mem_repliesTo {c : ConnId} {ok : Bool} {log : List Event} :
    ok ∈ repliesTo c log ↔ .replied c ok ∈ eventsOf c log := by
  rw [mem_eventsOf, repliesTo, List.mem_flatMap]
  constructor
  · rintro ⟨e, he, hmem⟩
    cases e with
    | replied k ok' =>
        dsimp only at hmem
        split at hmem
        · next hk =>
            rw [List.mem_singleton] at hmem
            rw [hmem, ← hk]
            exact ⟨he, rfl⟩
        · cases hmem
    | _ => cases hmem
  · rintro ⟨he, -⟩
    refine ⟨_, he, ?_⟩
    dsimp only
    rw [if_pos rfl]
    exact List.mem_singleton_self ok

section
variable {D : Deps}

theorem Visit.events_replies (v : Visit D) (c : ConnId) : repliesTo c (v.events c) =
    match v.outcome with
    | some r => [r.isOk]
    | none => [] := by
  rw [Visit.events]
  cases v.outcome <;> cases v.closes <;> cases v.remove <;> simp [repliesTo]

/-! ## One answer, and nothing left after an error -/

/-- An entry has been answered `Ok` or not at all, and no connect twice. -/
structure Answered (w : World D) : Prop where
  entry : ∀ {h conn}, w.entry h = some conn →
    repliesTo conn.fromNet w.log = if conn.connectReply then [] else [true]
  once : ∀ c, (repliesTo c w.log).length ≤ 1

theorem Answered.same {w w' : World D} (hs : SameConns w w') (ha : Answered w) : Answered w' := by
  constructor
  · intro h conn he
    rw [hs.entry] at he
    rw [hs.log]
    exact ha.entry he
  · rw [hs.log]
    exact ha.once

/-- A visit answers a pending connect, and goes on with the entry only after an `Ok`. -/
theorem Answered.turn {w w' : World D} {h : Handle} {conn : Conn} {v : Visit D}
    (hconn : w.entry h = some conn)
    (hv : ∃ seams sock chan, v = visit D h seams sock conn chan)
    (hs : Serviced w w' h v) (hout : Outbound w) (ha : Answered w) : Answered w' := by
  obtain ⟨seams, sock, chan, rfl⟩ := hv
  have hlog := hs.log
  simp only [visit_fromNet] at hlog
  have hself := ha.entry hconn
  have hother : ∀ c, c ≠ conn.fromNet → repliesTo c w'.log = repliesTo c w.log := by
    intro c hc
    rw [hlog]
    refine repliesTo_append_other _ fun e he => ?_
    rw [Visit.events_conn _ _ e he]
    exact Ne.symm hc
  constructor
  · intro k conn' he
    by_cases hk : k = h
    · subst hk
      rw [hs.entry_self] at he
      split at he
      · cases he
      · next hkeep =>
          cases he
          rw [visit_fromNet, hlog, repliesTo_append, hself, Visit.events_replies]
          cases ho : (visit D k seams sock conn chan).outcome with
          | none =>
              have hreply : (visit D k seams sock conn chan).conn.connectReply =
                  conn.connectReply :=
                Bool.eq_iff_iff.mpr ((visit_connectReply ..).trans (and_iff_left ho))
              rw [hreply, List.append_nil]
          | some r =>
              obtain ⟨hpending, ⟨-, rfl⟩ | ⟨-, rfl⟩⟩ := visit_outcome k seams sock conn chan ho
              · have hreply : (visit D k seams sock conn chan).conn.connectReply = false := by
                  rw [← Bool.not_eq_true, visit_connectReply, ho]
                  exact fun h => nomatch h.2
                rw [hreply, hpending]
                rfl
              · exact absurd ((visit_remove ..).mpr (.inl ⟨_, ho⟩)) hkeep
    · rw [hs.entry_ne k hk] at he
      rw [hother _ fun heq => hk (hout.inj he hconn heq)]
      exact ha.entry he
  · intro c
    by_cases hc : c = conn.fromNet
    · subst hc
      rw [hlog, repliesTo_append, hself, Visit.events_replies]
      cases ho : (visit D h seams sock conn chan).outcome with
      | none => cases conn.connectReply <;> simp
      | some r =>
          rw [(visit_outcome h seams sock conn chan ho).1]
          exact Nat.le_refl 1
    · rw [hother c hc]
      exact ha.once c

/-- A `Send` or a `Close` says nothing of replies. -/
theorem Answered.wrote {w w' : World D} {h : Handle} {conn conn' : Conn} {e : Event}
    (hconn : w.entry h = some conn) (hw : Wrote w w' h conn' e)
    (hfrom : conn'.fromNet = conn.fromNet) (hreply : conn'.connectReply = conn.connectReply)
    (he : ∀ c, repliesTo c [e] = []) (ha : Answered w) : Answered w' := by
  have hlog : ∀ c, repliesTo c w'.log = repliesTo c w.log := fun c => by
    rw [hw.log, repliesTo_append, he, List.append_nil]
  constructor
  · intro k conn'' hentry
    rw [hlog]
    by_cases hk : k = h
    · subst hk
      rw [hw.entry_self, Option.some.injEq] at hentry
      subst hentry
      rw [hfrom, hreply]
      exact ha.entry hconn
    · rw [hw.entry_ne k hk] at hentry
      exact ha.entry hentry
  · intro c
    rw [hlog]
    exact ha.once c

theorem Answered.cmd {w w' : World D} {cmd : Cmd}
    (hc : ∀ remote c, cmd = .connect remote c → w.Unborn c) (h : Handled w w' cmd)
    (ha : Answered w) : Answered w' := by
  cases h with
  | untouched _ hw _ => exact ha.same hw.sameConns
  | @inserted _ c _ hi =>
      have hunborn := hc _ _ rfl
      constructor
      · intro k conn he
        rw [hi.log]
        rcases hi.entry_cases he with ⟨-, rfl⟩ | ⟨-, he⟩
        · exact repliesTo_other hunborn.1
        · exact ha.entry he
      · rw [hi.log]
        exact ha.once
  | @rejected _ c _ hr =>
      have hunborn := hc _ _ rfl
      have hother : ∀ c', c' ≠ c → repliesTo c' w'.log = repliesTo c' w.log := by
        intro c' hne
        rw [hr.log]
        refine repliesTo_append_other _ fun e he => ?_
        rw [List.mem_singleton.mp he]
        exact Ne.symm hne
      constructor
      · intro k conn he
        rw [hr.entry] at he
        rw [hother _ (hunborn.2 k conn he)]
        exact ha.entry he
      · intro c'
        by_cases hne : c' = c
        · subst hne
          rw [hr.log, repliesTo_append, repliesTo_other hunborn.1]
          simp [repliesTo]
        · rw [hother c' hne]
          exact ha.once c'
  | sent hconn hw | closed hconn hw => exact ha.wrote hconn hw rfl rfl fun _ => rfl

theorem answered_invariant : WorldInvariant fun w : World D => Outbound w ∧ Answered w where
  same hs hw := ⟨hw.1.same hs, hw.2.same hs⟩
  turn hconn hv hs hw := ⟨hw.1.turn hconn hv hs, hw.2.turn hconn hv hs hw.1⟩
  cmd hc h hw := ⟨hw.1.cmd hc h, hw.2.cmd hc h⟩

theorem Reachable.answered {s : System D} (h : Reachable s) : Answered s.world := by
  refine (h.world_invariant answered_invariant fun s hs => ⟨hs.outbound, ?_⟩).2
  refine ⟨fun he => ?_, fun c => ?_⟩
  · rw [hs.entry] at he
    cases he
  · obtain ⟨mtu, v4, v6, rfl⟩ := hs
    exact Nat.zero_le 1

/-! ## The pending connects after a pass -/

/-- The handshake is under way. -/
def TcpState.Handshaking (st : TcpState) : Prop := st = .synSent ∨ st = .synReceived

/-- The socket of a pending connect has left its handshake for a state that is neither
established nor out of use; or it is about to, by the `close()` of this pass. -/
def Overtaken (conn : Conn) (st : TcpState) : Prop :=
  st = .finWait1 ∨ st = .finWait2 ∨ st = .closeWait ∨ st = .closing ∨ st = .lastAck ∨
    (st = .synReceived ∧ conn.closing = true ∧ conn.outBuf = [])

instance (st : TcpState) : Decidable st.Handshaking := inferInstanceAs (Decidable (_ ∨ _))

instance (conn : Conn) (st : TcpState) : Decidable (Overtaken conn st) :=
  inferInstanceAs (Decidable (_ ∨ _ ∨ _ ∨ _ ∨ _ ∨ _))

/-- What holds of the pending connects, by their entries and the states of their sockets. -/
def World.Pending (w : World D) (P : Conn → TcpState → Prop) : Prop :=
  ∀ k conn sock, w.entry k = some conn → conn.connectReply = true →
    D.tcp w.actor.sockets k = some sock → P conn (D.state sock)

section
variable (h : Handle) (seams : List Nat) {sock : D.Tcp} {conn : Conn} (chan : Chan)

/-- A pending connect is left unanswered when its socket is in use and not established. -/
theorem visit_unanswered (hpending : conn.connectReply = true) :
    (visit D h seams sock conn chan).outcome = none ↔
      D.state sock ≠ .established ∧ D.isActive sock = true := by
  simp only [visit, connectOutcome, hpending, if_true]
  split
  · next hest => exact ⟨fun h => (by cases h), fun h => absurd hest h.1⟩
  · next hest =>
      split
      · next hactive => exact ⟨fun _ => ⟨hest, hactive⟩, fun _ => rfl⟩
      · next hactive => exact ⟨fun h => (by cases h), fun h => absurd h.2 hactive⟩

variable (hC : D.CloseLaws) (hS : D.StateLaws)
include hC hS

/-- A connect that a visit leaves pending is in its handshake, unless it was overtaken. -/
theorem visit_handshaking (hpending : conn.connectReply = true)
    (hkeep : (visit D h seams sock conn chan).remove = false)
    (hstill : (visit D h seams sock conn chan).conn.connectReply = true)
    (hnot : ¬ Overtaken conn (D.state sock)) :
    (D.state (visit D h seams sock conn chan).sock).Handshaking := by
  obtain ⟨hest, hactive⟩ :=
    (visit_unanswered h seams chan hpending).mp ((visit_connectReply ..).mp hstill).2
  have hleaves : ¬ Leaves D conn sock := by
    rw [← visit_leaves hC hS h seams sock conn chan, hkeep]
    exact Bool.false_ne_true
  have hused : ¬ (D.state sock = .closed ∨ D.state sock = .timeWait ∨ D.state sock = .listen) := by
    rw [← hS.isActive, hactive]
    exact fun h => nomatch h
  have hwait : D.state sock ≠ .closeWait := fun heq => hnot (.inr (.inr (.inl heq)))
  have hcloses := visit_closes_idle hS h seams conn chan hest hwait
  rw [visit_state_eq hC hS]
  cases hst : D.state sock with
  | synSent =>
      -- a `close()` here would have removed the entry
      rw [if_neg]
      · exact .inl rfl
      · rw [hcloses]
        rintro ⟨hclosing, hempty⟩
        exact hleaves (.inr (.inr ⟨hclosing, hempty, by rw [hst]; rfl⟩))
  | synReceived =>
      rw [if_neg]
      · exact .inr rfl
      · rw [hcloses]
        rintro ⟨hclosing, hempty⟩
        exact hnot (.inr (.inr (.inr (.inr (.inr ⟨hst, hclosing, hempty⟩)))))
  | established => exact absurd hst hest
  | closed | listen | timeWait =>
      rw [hst] at hused
      exact absurd (by decide) hused
  | finWait1 | finWait2 | closeWait | closing | lastAck =>
      rw [hst] at hnot
      refine absurd ?_ hnot
      simp only [Overtaken, reduceCtorEq, false_and, or_false, or_true]

/-- A connect that is overtaken stays pending, outside its handshake. -/
theorem visit_overtaken (hpending : conn.connectReply = true)
    (hover : Overtaken conn (D.state sock)) :
    (visit D h seams sock conn chan).remove = false ∧
      (visit D h seams sock conn chan).conn.connectReply = true ∧
      ¬ (D.state (visit D h seams sock conn chan).sock).Handshaking := by
  have hactive : D.isActive sock = true := by
    rw [← Bool.not_eq_false, hS.isActive]
    rcases hover with hst | hst | hst | hst | hst | ⟨hst, -⟩ <;> rw [hst] <;> decide
  have hest : D.state sock ≠ .established := by
    rcases hover with hst | hst | hst | hst | hst | ⟨hst, -⟩ <;> rw [hst] <;> decide
  refine ⟨?_, (visit_connectReply ..).mpr
    ⟨hpending, (visit_unanswered h seams chan hpending).mpr ⟨hest, hactive⟩⟩, ?_⟩
  · rw [← Bool.not_eq_true, visit_leaves hC hS, Leaves, hactive]
    rcases hover with hst | hst | hst | hst | hst | ⟨hst, -⟩ <;> rw [hst] <;>
      simp [TcpState.afterClose]
  · rw [visit_state_eq hC hS]
    rcases hover with hst | hst | hst | hst | hst | ⟨hst, hclosing, hempty⟩
    · rw [hst]; split <;> decide
    · rw [hst]; split <;> decide
    · rw [hst]; split <;> decide
    · rw [hst]; split <;> decide
    · rw [hst]; split <;> decide
    · have hwait : D.state sock ≠ .closeWait := by rw [hst]; decide
      rw [if_pos ((visit_closes_idle hS h seams conn chan hest hwait).mpr ⟨hclosing, hempty⟩), hst]
      decide

end

section
variable {live : D.Dns → D.Query → Prop} (hD : D.SocketSetLaws) (hC : D.CloseLaws)
  (hS : D.StateLaws)
include hD hC hS

/-- **A pass.**  It leaves every pending connect in its handshake exactly when it found none
overtaken. -/
theorem pass_pending {w w' : World D} {order : List (Handle × List Nat)} (hin : InStep w)
    (hout : Outbound w) (horder : (order.map Prod.fst).Perm w.actor.conns.keys)
    (hpass : w.serviceSockets order = some w') :
    w'.Pending (fun _ st => st.Handshaking) ↔ w.Pending fun conn st => ¬ Overtaken conn st := by
  constructor
  · intro hafter k conn sock hconn hpending hsock hover
    obtain ⟨seams, hv⟩ := serviceSockets_visited hD hout horder hpass hconn hsock
    obtain ⟨hkeep, hstill, hnot⟩ := visit_overtaken k seams (w.chans conn.fromNet) hC hS hpending
      hover
    refine hnot (hafter k _ _ ?_ hstill (hv.tcp hkeep))
    rw [hv.entry, hkeep]
    rfl
  · intro hbefore k conn' sock' hconn' hstill hsock'
    obtain ⟨conn, hconn, -⟩ := serviceSockets_retains hpass k conn' hconn'
    obtain ⟨sock, hsock⟩ := Option.isSome_iff_exists.mp ((hin.tcp k).trans (by rw [hconn]; rfl))
    obtain ⟨seams, hv⟩ := serviceSockets_visited hD hout horder hpass hconn hsock
    obtain ⟨hkeep, rfl⟩ := hv.kept hconn'
    rw [hv.tcp hkeep, Option.some.injEq] at hsock'
    subst hsock'
    have hpending : conn.connectReply = true := ((visit_connectReply ..).mp hstill).1
    exact visit_handshaking k seams _ hC hS hpending hkeep hstill
      (hbefore k conn sock hconn hpending hsock)

end

/-- An `Ok` is sent in a pass that finds the socket of the connect established. -/
theorem Step.replied_ok (hD : D.SocketSetLaws) {s t : System D} {l : Label} (hr : Reachable s)
    (hin : InStep s.world) (h : Step s l t) {c : ConnId}
    (hnew : true ∈ repliesTo c t.world.log) :
    true ∈ repliesTo c s.world.log ∨ ∃ k conn sock, s.world.entry k = some conn ∧
      conn.fromNet = c ∧ conn.connectReply = true ∧
      D.tcp s.world.actor.sockets k = some sock ∧ D.state sock = .established := by
  rcases step_cases h with h | h
  · obtain ⟨-, -, ⟨hsame, -⟩ | ⟨order, -, horder, hpass⟩ | ⟨cmd, -, -, ⟨-, hw⟩ | hcmd⟩⟩ :=
      stepActor_cases h
    · exact .inl (hsame.log ▸ hnew)
    · by_cases hentry : ∃ k conn, s.world.entry k = some conn ∧ conn.fromNet = c
      · obtain ⟨k, conn, hconn, rfl⟩ := hentry
        obtain ⟨sock, hsock⟩ :=
          Option.isSome_iff_exists.mp ((hin.tcp k).trans (by rw [hconn]; rfl))
        obtain ⟨seams, hv⟩ := serviceSockets_visited hD hr.outbound horder hpass hconn hsock
        have hlog := hv.log
        simp only [visit_fromNet] at hlog
        rw [mem_repliesTo, hlog, List.mem_append, ← mem_repliesTo] at hnew
        refine hnew.imp_right fun hmem => ?_
        have hreply : true ∈ repliesTo conn.fromNet
            ((visit D k seams sock conn (s.world.chans conn.fromNet)).events conn.fromNet) :=
          mem_repliesTo.mpr (mem_eventsOf.mpr ⟨hmem, rfl⟩)
        rw [Visit.events_replies] at hreply
        cases ho : (visit D k seams sock conn (s.world.chans conn.fromNet)).outcome with
        | none =>
            rw [ho] at hreply
            cases hreply
        | some r =>
            rw [ho] at hreply
            obtain ⟨hpending, ⟨hest, -⟩ | ⟨-, rfl⟩⟩ := visit_outcome k seams sock conn _ ho
            · exact ⟨k, conn, sock, hconn, rfl, hpending, hsock, hest⟩
            · cases List.mem_singleton.mp hreply
      · have hsilent := serviceSockets_silent hpass fun k conn hconn heq =>
          hentry ⟨k, conn, hconn, heq⟩
        rw [mem_repliesTo, hsilent, ← mem_repliesTo] at hnew
        exact .inl hnew
    · exact .inl (hw ▸ hnew)
    · refine .inl ?_
      cases handleCmd_handled hcmd with
      | untouched _ hw _ => exact hw.log ▸ hnew
      | inserted _ hi => exact hi.log ▸ hnew
      | @rejected _ c' _ hr =>
          rw [hr.log, repliesTo_append] at hnew
          refine (List.mem_append.mp hnew).resolve_right fun hmem => ?_
          have hself := (mem_eventsOf.mp (mem_repliesTo.mp hmem)).1
          cases List.mem_singleton.mp hself
      | sent _ hw | closed _ hw =>
          rw [hw.log, repliesTo_append] at hnew
          exact (List.mem_append.mp hnew).resolve_right List.not_mem_nil
  · refine .inl ?_
    rcases stepAsync_cases h with ⟨remote, -, rfl⟩ | ⟨k, e, cmds, -, hb⟩
    · exact hnew
    · exact hb.same.log ▸ hnew

/-! ## Runs -/

/-- A pass finds no pending connect overtaken. -/
def InTime (s : System D) (l : Label) : Prop :=
  ∀ order, l = .service order → s.world.Pending fun conn st => ¬ Overtaken conn st

section
variable {live : D.Dns → D.Query → Prop} (hD : D.SocketSetLaws) (hP : D.PollLaws)
  (hQ : D.DnsLaws live) (hC : D.CloseLaws) (hS : D.StateLaws)
include hD hP hQ hC hS

/-- From a pass to the next step of the actor, the pending connects are in their handshakes. -/
theorem InTime.handshaking {s : System D}
    (h : Transition.Reachable (guarded Step InTime) Init s) (hpc : s.pc = .resolving) :
    s.world.Pending fun _ st => st.Handshaking := by
  induction h with
  | init hs =>
      obtain ⟨mtu, v4, v6, rfl⟩ := hs
      cases hpc
  | @tail s t l hs hstep ih =>
      have hr : Reachable s := hs.unguarded
      rcases step_cases hstep.1 with h | h
      · cases ActorStep.of_eq h with
        | @service order _ horder =>
            have hin := ((hr.runs hD hP hQ).world.sound hD hP hQ).inStep
            cases hpass : s.world.serviceSockets order with
            | none =>
                rw [hpass] at hpc
                cases hpc
            | some w =>
                refine (pass_pending hD hC hS hin hr.outbound horder hpass).mpr ?_
                exact hstep.2 order rfl
        | poll now => cases hpc
        | dns =>
            cases hw : s.world.serviceDns with
            | none => rw [hw] at hpc; cases hpc
            | some w => rw [hw] at hpc; cases hpc
        | @recv cmd =>
            cases hw : s.world.handleCmd cmd with
            | none => rw [hw] at hpc; cases hpc
            | some w => rw [hw] at hpc; cases hpc
        | timeout => cases hpc
        | drained => cases hpc
      · -- the async side has neither the tables nor the sockets
        obtain ⟨hactor, hsame⟩ := stepAsync_actor h
        intro k conn sock hconn
        rw [World.entry, hactor] at hconn
        rw [hactor]
        exact ih (hsame ▸ hpc) k conn sock hconn

/-- **The answer to a connect.**  In every run a connect is answered at most once, `Ok` only in
a pass that finds its socket established, and after an `Err` there is neither an entry nor a
socket of it.  A pass leaves the pending connects in SynSent or SynReceived exactly when it
finds none overtaken; so in a run whose passes find none, they are so after every pass. -/
theorem connects_answered :
    (∀ s : System D, Reachable s →
      (∀ c, (repliesTo c s.world.log).length ≤ 1) ∧
      (∀ c, false ∈ repliesTo c s.world.log →
        (∀ k conn, s.world.entry k = some conn → conn.fromNet ≠ c) ∧
        ∀ k, (D.tcp s.world.actor.sockets k).isSome = (s.world.entry k).isSome) ∧
      ∀ l t, Step s l t →
        (∀ c, true ∈ repliesTo c t.world.log → true ∈ repliesTo c s.world.log ∨
          ∃ k conn sock, s.world.entry k = some conn ∧ conn.fromNet = c ∧
            conn.connectReply = true ∧ D.tcp s.world.actor.sockets k = some sock ∧
            D.state sock = .established) ∧
        ∀ order, l = .service order → ((t.world.Pending fun _ st => st.Handshaking) ↔
          s.world.Pending fun conn st => ¬ Overtaken conn st)) ∧
    ∀ s : System D, Transition.Reachable (guarded Step InTime) Init s → s.pc = .resolving →
      s.world.Pending fun _ st => st.Handshaking := by
  refine ⟨fun s hr => ?_, fun s h hpc => InTime.handshaking hD hP hQ hC hS h hpc⟩
  have hin := ((hr.runs hD hP hQ).world.sound hD hP hQ).inStep
  refine ⟨hr.answered.once, fun c hfalse => ⟨fun k conn hconn heq => ?_, hin.tcp⟩,
    fun l t hstep => ⟨fun c => hstep.replied_ok hD hr hin, ?_⟩⟩
  · have hreplies := hr.answered.entry hconn
    rw [← heq, hreplies] at hfalse
    split at hfalse
    · cases hfalse
    · cases List.mem_singleton.mp hfalse
  · rintro order rfl
    have ht : Reachable t := hr.tail hstep
    obtain ⟨horder, hpass⟩ := service_pass hstep (ht.runs hD hP hQ).running
    exact pass_pending hD hC hS hin hr.outbound horder hpass

end

/-! ## The small netstack -/

theorem Deps.toy_stateLaws : Deps.toy.StateLaws where
  isActive sock := by
    show (!(sock.state == .closed || sock.state == .timeWait || sock.state == .listen)) = false ↔
      sock.state = .closed ∨ sock.state = .timeWait ∨ sock.state = .listen
    rw [Bool.not_eq_false', Bool.or_eq_true, Bool.or_eq_true, beq_iff_eq, beq_iff_eq, beq_iff_eq,
      or_assoc]
  canSend sock h := by
    have hsend : Toy.canSend sock = true := h
    simp only [Toy.canSend, Bool.and_eq_true, Bool.or_eq_true, beq_iff_eq] at hsend
    exact hsend.1
  close sock := by
    show (Toy.close sock).state = sock.state.afterClose
    cases hst : sock.state <;> simp only [Toy.close, hst, TcpState.afterClose]

/-- A sufficient check of `InTime` at one state. -/
def inTime (s : System D) : Label → Bool
  | .service _ => s.world.actor.conns.entries.all fun e =>
      !e.2.connectReply || (D.tcp s.world.actor.sockets e.1).all fun sock =>
        ¬ Overtaken e.2 (D.state sock)
  | _ => true

theorem inTime_sound (s : System D) (l : Label) (h : inTime s l = true) : InTime s l := by
  rintro order rfl k conn sock hconn hpending hsock
  have hmem : (⟨k, conn⟩ : Sigma fun _ : Handle => Conn) ∈ s.world.actor.conns.entries :=
    AList.mem_lookup_iff.mp hconn
  have hcheck := List.all_eq_true.mp h _ hmem
  rw [hpending, hsock] at hcheck
  exact of_decide_eq_true hcheck

/-- Two connects, and a SYN ACK for the first: the next pass answers that one, and leaves the other
in its handshake. -/
theorem connects_answered_established : ∃ s : System Deps.toy, true ∈ repliesTo 0 s.world.log ∧
    (repliesTo 0 s.world.log).length ≤ 1 ∧
    (s.world.entry 2).any (fun conn => conn.connectReply) ∧
    s.world.Pending fun _ st => st.Handshaking := by
  let labels : List Label :=
    [.connect ⟨.v4 1, 80⟩, .connect ⟨.v4 2, 80⟩, .poll 0, .service [], .dns, .recv, .recv,
      .inbound [1, 0], .recv, .drained, .poll 1, .service [(1, []), (2, [])]]
  have hrun : (Transition.exec System.step inTime (System.init Deps.toy 1280 0 none) labels).any
      (fun s => s.pc = .resolving ∧ true ∈ repliesTo 0 s.world.log ∧
        (s.world.entry 2).any (fun conn => conn.connectReply)) = true := by
    decide +kernel
  obtain ⟨s, hs, hfacts⟩ := (Option.any_eq_true _ _).mp hrun
  have hguarded : Transition.Reachable (guarded Step InTime) Init s :=
    Transition.Reachable.exec (fun _ _ _ h => h) (fun s l _ => inTime_sound s l) labels
      (.init ⟨1280, 0, none, rfl⟩) hs
  obtain ⟨hpc, hreply, hpending⟩ := of_decide_eq_true hfacts
  obtain ⟨hall, hruns⟩ := connects_answered Deps.toy_socketSetLaws Deps.toy_pollLaws
    Deps.toy_dnsLaws Deps.toy_closeLaws Deps.toy_stateLaws
  exact ⟨s, hreply, (hall s hguarded.unguarded).1 0, hpending, hruns s hguarded hpc⟩

/-- A SYN ACK and a FIN in one batch: the pass after them finds the socket in `CloseWait` and
leaves the connect pending. -/
theorem connect_unanswered : ¬ ∀ s : System Deps.toy, Reachable s → s.pc = .resolving →
    s.world.Pending fun _ st => st.Handshaking := by
  intro hanswered
  let labels : List Label :=
    [.connect ⟨.v4 1, 80⟩, .poll 0, .service [], .dns, .recv, .inbound [1, 0], .inbound [1, 2],
      .recv, .recv, .drained, .poll 1, .service [(1, [])]]
  have hrun : ((System.init Deps.toy 1280 0 none).run labels).any (fun s =>
      s.pc = .resolving ∧ (s.world.entry 1).any (fun conn => conn.connectReply) ∧
      (Deps.toy.tcp s.world.actor.sockets 1).any fun sock =>
        Deps.toy.state sock = .closeWait) = true := by
    decide +kernel
  obtain ⟨s, hs, hfacts⟩ := (Option.any_eq_true _ _).mp hrun
  have hreach : Reachable s := run_reachable labels (.init ⟨1280, 0, none, rfl⟩) hs
  obtain ⟨hpc, hentry, hsock⟩ := of_decide_eq_true hfacts
  obtain ⟨conn, hconn, hpending⟩ := (Option.any_eq_true _ _).mp hentry
  obtain ⟨sock, htcp, hstate⟩ := (Option.any_eq_true _ _).mp hsock
  have hwait : Deps.toy.state sock = .closeWait := of_decide_eq_true hstate
  have hshaking := hanswered s hreach hpc 1 conn sock hconn hpending htcp
  rw [hwait] at hshaking
  exact absurd hshaking (by decide)

end

end WarpProxy.Netstack
