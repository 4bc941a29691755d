/-
# `WarpProxy.Netstack.Pass` — what a pass does to one connection

`service_sockets` visits every entry once, and the turns for the other keys leave
an entry, its slot, its channel and what the log says of it alone.  So a pass is
read entry by entry: what it leaves of one is its visit (`Visited`), from the
socket, the entry and the channel as they were before the pass.

The second half is about the states of the socket: which state a visit leaves it
in (`visit_state_eq`), and when it removes the entry (`visit_leaves`).
-/
import WarpProxy.Netstack.Ends
import WarpProxy.Netstack.Tables

namespace WarpProxy.Netstack

/-- What the log says of `c`. -/
def eventsOf (c : ConnId) (log : List Event) : List Event := log.filter fun e => e.conn = c

theorem eventsOf_append (c : ConnId) (log es : List Event) :
    eventsOf c (log ++ es) = eventsOf c log ++ eventsOf c es :=
  List.filter_append ..

theorem eventsOf_other {c : ConnId} {es : List Event} (h : ∀ e ∈ es, e.conn ≠ c) :
    eventsOf c es = [] :=
  List.filter_eq_nil_iff.mpr fun e he heq => h e he (of_decide_eq_true heq)

theorem eventsOf_append_other {c : ConnId} (log : List Event) {es : List Event}
    (h : ∀ e ∈ es, e.conn ≠ c) : eventsOf c (log ++ es) = eventsOf c log := by
  rw [eventsOf_append, eventsOf_other h, List.append_nil]

theorem eventsOf_self {c : ConnId} {es : List Event} (h : ∀ e ∈ es, e.conn = c) :
    eventsOf c es = es :=
  List.filter_eq_self.mpr fun e he => decide_eq_true (h e he)

theorem mem_eventsOf {c : ConnId} {e : Event} {log : List Event} :
    e ∈ eventsOf c log ↔ e ∈ log ∧ e.conn = c := by
  rw [eventsOf, List.mem_filter, decide_eq_true_eq]

section
variable {D : Deps}

/-! ## One connection in a pass -/

/-- The part of the world that belongs to the entry of `k`, for the connection `c`, is as it
was, and no other entry is for `c`. -/
structure Aside (w w' : World D) (k : Handle) (c : ConnId) : Prop where
  others : ∀ h conn, h ≠ k → w'.entry h = some conn → conn.fromNet ≠ c
  entry : w'.entry k = w.entry k
  slot : w'.slot k = w.slot k
  chan : w'.chans c = w.chans c
  log : eventsOf c w'.log = eventsOf c w.log

/-- The turns for other keys leave an entry, its socket and its channel alone. -/
theorem serviceSockets_aside (hD : D.SocketSetLaws) {order : List (Handle × List Nat)}
    {w w' : World D} {k : Handle} {c : ConnId} (hk : k ∉ order.map Prod.fst)
    (hne : ∀ h conn, h ≠ k → w.entry h = some conn → conn.fromNet ≠ c)
    (hw : w.serviceSockets order = some w') : Aside w w' k c := by
  refine serviceSockets_invariant (fun w' => Aside w w' k c) order ?_
    ⟨hne, rfl, rfl, rfl, rfl⟩ hw
  intro w₁ h seams w₂ hmem ha hturn
  have hkh : k ≠ h := by
    rintro rfl
    exact hk (List.mem_map_of_mem hmem)
  obtain ⟨sock, conn, hsock, hconn, -⟩ := serviceSocket_cases hturn
  obtain ⟨w₂', hw₂, hs, hr⟩ := serviceSocket_rewrote hD hsock hconn seams
  rw [hturn, Option.some.injEq] at hw₂
  subst hw₂
  have hc : conn.fromNet ≠ c := ha.others h conn (Ne.symm hkh) hconn
  constructor
  · intro j conn' hj he
    obtain ⟨old, ho, halike⟩ := hs.retains hconn j conn' he
    rw [halike.fromNet]
    exact ha.others j old hj ho
  · exact (hs.entry_ne k hkh).trans ha.entry
  · exact (hr.slot_ne k hkh).trans ha.slot
  · exact (hs.chan_ne c (Ne.symm hc)).trans ha.chan
  · rw [hs.log, eventsOf_append_other, ha.log]
    intro e he
    rw [Visit.events_conn _ _ e he]
    exact hc

/-- What a pass leaves of the entry of `k`, after its visit `v`. -/
structure Visited (w w' : World D) (k : Handle) (v : Visit D) : Prop where
  entry : w'.entry k = if v.remove then none else some v.conn
  slot : w'.slot k = if v.remove then none else some (.inl v.sock)
  chan : w'.chans v.conn.fromNet = { v.chan with tx := v.chan.tx && !v.remove }
  log : eventsOf v.conn.fromNet w'.log =
    eventsOf v.conn.fromNet w.log ++ v.events v.conn.fromNet

theorem Visited.tcp {w w' : World D} {k : Handle} {v : Visit D} (hv : Visited w w' k v)
    (hkeep : v.remove = false) : D.tcp w'.actor.sockets k = some v.sock := by
  have hslot := hv.slot
  rw [hkeep] at hslot
  exact Deps.tcp_of_get hslot

theorem Visited.gone {w w' : World D} {k : Handle} {v : Visit D} (hv : Visited w w' k v) :
    w'.entry k = none ↔ v.remove = true := by
  rw [hv.entry]
  cases v.remove with
  | true => exact ⟨fun _ => rfl, fun _ => rfl⟩
  | false => exact ⟨fun h => (nomatch h), fun h => (nomatch h)⟩

theorem Visited.kept {w w' : World D} {k : Handle} {v : Visit D} (hv : Visited w w' k v)
    {conn : Conn} (hconn : w'.entry k = some conn) : v.remove = false ∧ conn = v.conn := by
  rw [hv.entry] at hconn
  split at hconn
  · cases hconn
  · next hkeep => exact ⟨Bool.not_eq_true _ ▸ hkeep, (Option.some.inj hconn).symm⟩

section
variable {w w' : World D} {order : List (Handle × List Nat)}

/-- **A pass, entry by entry.** -/
theorem serviceSockets_visited (hD : D.SocketSetLaws) (hout : Outbound w)
    (horder : (order.map Prod.fst).Perm w.actor.conns.keys)
    (hpass : w.serviceSockets order = some w') {k : Handle} {conn : Conn}
    (hconn : w.entry k = some conn) {sock : D.Tcp} (hsock : D.tcp w.actor.sockets k = some sock) :
    ∃ seams, Visited w w' k (visit D k seams sock conn (w.chans conn.fromNet)) := by
  have hinj : ∀ h conn', h ≠ k → w.entry h = some conn' → conn'.fromNet ≠ conn.fromNet :=
    fun h conn' hh he heq => hh (hout.inj he hconn heq)
  have hmem : k ∈ order.map Prod.fst := by
    refine horder.mem_iff.mpr (AList.mem_keys.mp ?_)
    exact AList.lookup_isSome.mp (Option.isSome_iff_exists.mpr ⟨conn, hconn⟩)
  obtain ⟨⟨k', seams⟩, hp, rfl⟩ := List.mem_map.mp hmem
  obtain ⟨before, after, rfl⟩ := List.append_of_mem hp
  have hnodup : ((before ++ (k', seams) :: after).map Prod.fst).Nodup :=
    horder.nodup_iff.mpr (AList.keys_nodup _)
  rw [List.map_append, List.map_cons, List.nodup_append, List.nodup_cons] at hnodup
  obtain ⟨-, ⟨hafter, -⟩, hdisj⟩ := hnodup
  have hbefore : k' ∉ before.map Prod.fst :=
    fun h => hdisj k' h k' List.mem_cons_self rfl
  obtain ⟨w₁, w₂, h₁, hturn, h₂⟩ := serviceSockets_split before hpass
  have ha₁ := serviceSockets_aside hD hbefore hinj h₁
  have hsock₁ : D.tcp w₁.actor.sockets k' = some sock :=
    (Deps.tcp_congr ha₁.slot).trans hsock
  obtain ⟨w₂', hw₂, hs, hr⟩ :=
    serviceSocket_rewrote hD hsock₁ (ha₁.entry.trans hconn) seams
  rw [hturn, Option.some.injEq] at hw₂
  subst hw₂
  rw [ha₁.chan] at hs hr
  have hinj₂ : ∀ h conn', h ≠ k' → w₂.entry h = some conn' → conn'.fromNet ≠ conn.fromNet := by
    intro h conn' hh he
    rw [hs.entry_ne h hh] at he
    exact ha₁.others h conn' hh he
  have ha₂ := serviceSockets_aside hD hafter hinj₂ h₂
  refine ⟨seams, ha₂.entry.trans hs.entry_self, (ha₂.slot.trans hr.slot_self).trans ?_,
    ha₂.chan.trans hs.chan_self, ?_⟩
  · split <;> rfl
  · have hlog := hs.log
    simp only [visit_fromNet] at hlog ⊢
    rw [ha₂.log, hlog, eventsOf_append, ha₁.log, eventsOf_self (Visit.events_conn _ _)]

/-- A pass says nothing of a connection without an entry. -/
theorem serviceSockets_silent (hpass : w.serviceSockets order = some w') {c : ConnId}
    (hnone : ∀ h conn, w.entry h = some conn → conn.fromNet ≠ c) :
    eventsOf c w'.log = eventsOf c w.log := by
  have hboth : eventsOf c w'.log = eventsOf c w.log ∧
      ∀ h conn, w'.entry h = some conn → conn.fromNet ≠ c := by
    refine serviceSockets_invariant (fun w' => eventsOf c w'.log = eventsOf c w.log ∧
      ∀ h conn, w'.entry h = some conn → conn.fromNet ≠ c) order ?_ ⟨rfl, hnone⟩ hpass
    rintro w₁ h seams w₂ - ⟨hlog, hne⟩ hturn
    obtain ⟨sock, conn, -, hconn, hs⟩ := serviceSocket_cases hturn
    refine ⟨?_, fun k conn' he => ?_⟩
    · rw [hs.log, eventsOf_append_other, hlog]
      intro e he
      rw [Visit.events_conn _ _ e he]
      exact hne h conn hconn
    · obtain ⟨old, hold, halike⟩ := hs.retains hconn k conn' he
      rw [halike.fromNet]
      exact hne k old hold
  exact hboth.1

end

/-! ## The state a visit leaves -/

/-- Where `close()` leads from each state. -/
def TcpState.afterClose : TcpState → TcpState
  | .listen | .synSent => .closed
  | .synReceived | .established => .finWait1
  | .closeWait => .lastAck
  | st => st

/-- Which sockets are in use, which may send, and what `close()` does. -/
structure Deps.StateLaws (D : Deps) : Prop where
  isActive : ∀ sock, D.isActive sock = false ↔
    D.state sock = .closed ∨ D.state sock = .timeWait ∨ D.state sock = .listen
  canSend : ∀ sock, D.canSend sock = true →
    D.state sock = .established ∨ D.state sock = .closeWait
  close : ∀ sock, D.state (D.close sock) = (D.state sock).afterClose

/-- The pass is going to remove the entry. -/
def Leaves (D : Deps) (conn : Conn) (sock : D.Tcp) : Prop :=
  D.state sock = .closed ∨ (conn.connectReply = true ∧ D.isActive sock = false) ∨
    (conn.closing = true ∧ conn.outBuf = [] ∧ (D.state sock).afterClose = .closed)

instance (conn : Conn) (sock : D.Tcp) : Decidable (Leaves D conn sock) :=
  inferInstanceAs (Decidable (_ ∨ (_ ∧ _) ∨ (_ ∧ _ ∧ _)))

/-- A connect is refused in a pass when its reply is pending and its socket is out of use. -/
theorem visit_refused (h : Handle) (seams : List Nat) (sock : D.Tcp) (conn : Conn)
    (chan : Chan) : (∃ e, (visit D h seams sock conn chan).outcome = some (.error e)) ↔
      conn.connectReply = true ∧ D.state sock ≠ .established ∧ D.isActive sock = false := by
  simp only [visit, connectOutcome]
  cases conn.connectReply with
  | false =>
      constructor
      · rintro ⟨_, h⟩; cases h
      · rintro ⟨h, -⟩; cases h
  | true =>
      by_cases hest : D.state sock = .established
      · rw [if_pos rfl, if_pos hest]
        constructor
        · rintro ⟨_, h⟩; cases h
        · rintro ⟨-, hne, -⟩; exact absurd hest hne
      · rw [if_pos rfl, if_neg hest]
        cases D.isActive sock with
        | true =>
            constructor
            · rintro ⟨_, h⟩; cases h
            · rintro ⟨-, -, h⟩; cases h
        | false =>
            constructor
            · rintro -; exact ⟨rfl, hest, rfl⟩
            · rintro -; exact ⟨_, rfl⟩

section
variable (hC : D.CloseLaws) (hS : D.StateLaws)
include hS

/-- A socket that may not send leaves `out_buf` as it was. -/
theorem flush_idle (seams : List Nat) {sock : D.Tcp} (outBuf : List UInt8)
    (h₁ : D.state sock ≠ .established) (h₂ : D.state sock ≠ .closeWait) :
    flush seams sock outBuf = ⟨sock, outBuf, []⟩ := by
  rw [flush, if_neg]
  rintro ⟨hsend, -⟩
  exact (hS.canSend sock hsend).elim h₁ h₂

/-- Then `close()` is called when `closing` is set and `out_buf` empty already. -/
theorem visit_closes_idle (h : Handle) (seams : List Nat) {sock : D.Tcp} (conn : Conn)
    (chan : Chan) (h₁ : D.state sock ≠ .established) (h₂ : D.state sock ≠ .closeWait) :
    (visit D h seams sock conn chan).closes = true ↔ conn.closing = true ∧ conn.outBuf = [] := by
  rw [visit_closes]
  simp only [visit, flush_idle hS seams conn.outBuf h₁ h₂]

include hC

/-- A visit changes the state of the socket by `close()` only. -/
theorem visit_state_eq (h : Handle) (seams : List Nat) (sock : D.Tcp) (conn : Conn)
    (chan : Chan) : D.state (visit D h seams sock conn chan).sock =
      if (visit D h seams sock conn chan).closes then (D.state sock).afterClose
      else D.state sock := by
  have hpumped : D.state (pump (flush seams sock conn.outBuf).sock chan).sock = D.state sock :=
    (pump_state hC ..).trans (flush_state hC ..)
  simp only [visit]
  split
  · rw [hS.close, hpumped]
  · exact hpumped

/-- When a visit removes the entry. -/
theorem visit_leaves (h : Handle) (seams : List Nat) (sock : D.Tcp) (conn : Conn)
    (chan : Chan) : (visit D h seams sock conn chan).remove = true ↔ Leaves D conn sock := by
  rw [visit_remove, visit_refused, visit_state_eq hC hS, Leaves]
  by_cases hopen : D.state sock = .established ∨ D.state sock = .closeWait
  · -- neither is left by a pass, and both are in use
    have hactive : ¬ D.isActive sock = false := by
      rw [hS.isActive]
      rcases hopen with hst | hst <;> rw [hst] <;> decide
    have hafter : (D.state sock).afterClose ≠ .closed ∧ D.state sock ≠ .closed := by
      rcases hopen with hst | hst <;> rw [hst] <;> decide
    constructor
    · rintro (⟨-, -, hin⟩ | hclosed)
      · exact absurd hin hactive
      · split at hclosed
        · exact absurd hclosed hafter.1
        · exact absurd hclosed hafter.2
    · rintro (hclosed | ⟨-, hin⟩ | ⟨-, -, hclosed⟩)
      · exact absurd hclosed hafter.2
      · exact absurd hin hactive
      · exact absurd hclosed hafter.1
  · obtain ⟨hest, hwait⟩ := not_or.mp hopen
    have hcloses := visit_closes_idle hS h seams conn chan hest hwait
    constructor
    · rintro (⟨hpending, -, hin⟩ | hclosed)
      · exact .inr (.inl ⟨hpending, hin⟩)
      · split at hclosed
        · next hc =>
            obtain ⟨hclosing, hempty⟩ := hcloses.mp hc
            exact .inr (.inr ⟨hclosing, hempty, hclosed⟩)
        · exact .inl hclosed
    · rintro (hclosed | ⟨hpending, hin⟩ | ⟨hclosing, hempty, hclosed⟩)
      · refine .inr ?_
        rw [hclosed]
        split <;> rfl
      · exact .inl ⟨hpending, hest, hin⟩
      · refine .inr ?_
        rw [if_pos (hcloses.mpr ⟨hclosing, hempty⟩)]
        exact hclosed

end

end

end WarpProxy.Netstack
