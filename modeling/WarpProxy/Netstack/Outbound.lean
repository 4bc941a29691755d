/-
# `WarpProxy.Netstack.Outbound` — the outbound byte stream

What `Send` commands put into `out_buf` leaves through the socket unchanged:
`sentTo` is what they brought for a connection, `acceptedBy` what its socket took,
both read off the log.  The invariant (`Outbound`) says that the second followed
by `out_buf` is the first, that it stays a part of it when the entry is gone, and
that `sock.close()` is called when nothing is left between them.

    a turn of the loop keeps it        (`Outbound.turn`)
    so does a command                  (`Outbound.cmd`)
    every reachable state has it       (`Reachable.outbound`)
-/
import WarpProxy.Netstack.Runs

namespace WarpProxy.Netstack

/-! ## Reading the log -/

/-- The payloads of the `Send`s processed for `c`, one after the other. -/
def sentTo (c : ConnId) (log : List Event) : List UInt8 :=
  log.flatMap fun
    | .sent k _ data => if k = c then data else []
    | _ => []

/-- The bytes the socket of `c` has accepted. -/
def acceptedBy (c : ConnId) (log : List Event) : List UInt8 :=
  log.flatMap fun
    | .accepted k data => if k = c then data else []
    | _ => []

/-- A `Close` was processed for `c`. -/
def CloseSent (c : ConnId) (log : List Event) : Prop := ∃ origin, .closed c origin ∈ log

theorem sentTo_append (c : ConnId) (log es : List Event) :
    sentTo c (log ++ es) = sentTo c log ++ sentTo c es :=
  List.flatMap_append

theorem acceptedBy_append (c : ConnId) (log es : List Event) :
    acceptedBy c (log ++ es) = acceptedBy c log ++ acceptedBy c es :=
  List.flatMap_append

theorem closeSent_append (c : ConnId) (log es : List Event) :
    CloseSent c (log ++ es) ↔ CloseSent c log ∨ CloseSent c es := by
  simp only [CloseSent, List.mem_append, exists_or]

/-- Events of other connections say nothing on `c`. -/
theorem reads_other {c : ConnId} {es : List Event} (h : ∀ e ∈ es, e.conn ≠ c) :
    sentTo c es = [] ∧ acceptedBy c es = [] ∧ ¬ CloseSent c es := by
  induction es with
  | nil => exact ⟨rfl, rfl, fun ⟨_, h⟩ => absurd h List.not_mem_nil⟩
  | cons e es ih =>
      have hes : ∀ e' ∈ es, e'.conn ≠ c := fun e' he' => h e' (List.mem_cons_of_mem _ he')
      obtain ⟨hsent, hacc, hclose⟩ := ih hes
      have he : e.conn ≠ c := h e List.mem_cons_self
      refine ⟨?_, ?_, ?_⟩
      · rw [sentTo, List.flatMap_cons]
        refine List.append_eq_nil_iff.mpr ⟨?_, hsent⟩
        cases e with
        | sent k o data => exact if_neg he
        | _ => rfl
      · rw [acceptedBy, List.flatMap_cons]
        refine List.append_eq_nil_iff.mpr ⟨?_, hacc⟩
        cases e with
        | accepted k data => exact if_neg he
        | _ => rfl
      · rintro ⟨o, ho⟩
        rcases List.mem_cons.mp ho with rfl | ho
        · exact he rfl
        · exact hclose ⟨o, ho⟩

section
variable {D : Deps}

/-- The log of a visit up to the close. -/
def Visit.front (v : Visit D) (c : ConnId) : List Event :=
  (match v.outcome with
    | some r => [.replied c r.isOk]
    | none => []) ++ [.accepted c v.accepted, .taken c v.taken]

theorem Visit.events_eq (v : Visit D) (c : ConnId) : v.events c =
    v.front c ++ (if v.closes then [.fin c] else []) ++ (if v.remove then [.removed c] else []) :=
  rfl

theorem Visit.front_reads (v : Visit D) (c : ConnId) : sentTo c (v.front c) = [] ∧
    acceptedBy c (v.front c) = v.accepted ∧ (∀ k, ¬ CloseSent k (v.front c)) ∧
    ∀ k, .fin k ∉ v.front c := by
  rw [Visit.front]
  cases v.outcome <;> simp [sentTo, acceptedBy, CloseSent]

theorem Visit.events_reads (v : Visit D) (c : ConnId) : sentTo c (v.events c) = [] ∧
    acceptedBy c (v.events c) = v.accepted ∧ ∀ k, ¬ CloseSent k (v.events c) := by
  rw [Visit.events]
  cases v.outcome <;> cases v.closes <;> cases v.remove <;>
    simp [sentTo, acceptedBy, CloseSent]

/-! ## Where `close()` is called -/

/-- Each call of `close()` finds a `Close` processed and everything sent accepted. -/
def Fins (log : List Event) : Prop :=
  ∀ pre c, pre ++ [.fin c] <+: log → CloseSent c pre ∧ acceptedBy c pre = sentTo c pre

theorem fins_append {log es : List Event} (h : Fins log) (hes : ∀ c, .fin c ∉ es) :
    Fins (log ++ es) := by
  induction es generalizing log with
  | nil =>
      rw [List.append_nil]
      exact h
  | cons e es ih =>
      rw [List.append_cons]
      refine ih (fun pre c hpre => ?_) fun c hc => hes c (List.mem_cons_of_mem _ hc)
      rcases List.prefix_concat_iff.mp hpre with heq | hpre
      · have hlast := (List.append_inj' heq rfl).2
        rw [List.cons.injEq] at hlast
        exact absurd (hlast.1 ▸ List.mem_cons_self) (hes c)
      · exact h pre c hpre

theorem fins_fin {log : List Event} {c : ConnId} (h : Fins log) (hclose : CloseSent c log)
    (hacc : acceptedBy c log = sentTo c log) : Fins (log ++ [.fin c]) := by
  intro pre k hpre
  rcases List.prefix_concat_iff.mp hpre with heq | hpre
  · obtain ⟨rfl, hlast⟩ := List.append_inj' heq rfl
    rw [List.cons.injEq, Event.fin.injEq] at hlast
    exact hlast.1 ▸ ⟨hclose, hacc⟩
  · exact h pre k hpre

/-! ## The invariant -/

structure Outbound (w : World D) : Prop where
  inj : ∀ {h h' conn conn'}, w.entry h = some conn → w.entry h' = some conn' →
    conn.fromNet = conn'.fromNet → h = h'
  stream : ∀ {h conn}, w.entry h = some conn →
    acceptedBy conn.fromNet w.log ++ conn.outBuf = sentTo conn.fromNet w.log
  closing : ∀ {h conn}, w.entry h = some conn →
    (conn.closing = true ↔ CloseSent conn.fromNet w.log)
  passed : ∀ c, acceptedBy c w.log <+: sentTo c w.log
  fins : Fins w.log

theorem Outbound.same {w w' : World D} (hw : Outbound w) (hs : SameConns w w') :
    Outbound w' := by
  constructor
  · intro h h' conn conn' he he'
    rw [hs.entry] at he he'
    exact hw.inj he he'
  · intro h conn he
    rw [hs.entry] at he
    rw [hs.log]
    exact hw.stream he
  · intro h conn he
    rw [hs.entry] at he
    rw [hs.log]
    exact hw.closing he
  · rw [hs.log]; exact hw.passed
  · rw [hs.log]; exact hw.fins

/-- The log grows by events about one connection: what they say there is given, and the
other connections are as they were. -/
theorem Outbound.extend {w w' : World D} {k : Handle} {conn : Conn} {es : List Event}
    (hw : Outbound w) (hconn : w.entry k = some conn) (hlog : w'.log = w.log ++ es)
    (hes : ∀ e ∈ es, e.conn = conn.fromNet) (hne : ∀ h, h ≠ k → w'.entry h = w.entry h)
    (hself : ∀ conn', w'.entry k = some conn' → conn'.fromNet = conn.fromNet ∧
      acceptedBy conn.fromNet w'.log ++ conn'.outBuf = sentTo conn.fromNet w'.log ∧
      (conn'.closing = true ↔ CloseSent conn.fromNet w'.log))
    (hpassed : acceptedBy conn.fromNet w'.log <+: sentTo conn.fromNet w'.log)
    (hfins : Fins w'.log) : Outbound w' := by
  have hold : ∀ {h conn'}, h ≠ k → w.entry h = some conn' → ∀ e ∈ es, e.conn ≠ conn'.fromNet := by
    intro h conn' hh hentry e he heq
    rw [hes e he] at heq
    exact hh (hw.inj hentry hconn heq.symm)
  have hfrom : ∀ {h conn'}, w'.entry h = some conn' →
      ∃ conn'', w.entry h = some conn'' ∧ conn'.fromNet = conn''.fromNet := by
    intro h conn' he
    by_cases hh : h = k
    · subst hh; exact ⟨conn, hconn, (hself conn' he).1⟩
    · rw [hne h hh] at he; exact ⟨conn', he, rfl⟩
  constructor
  · intro h h' conn₁ conn₂ he he' heq
    obtain ⟨old₁, ho₁, h₁⟩ := hfrom he
    obtain ⟨old₂, ho₂, h₂⟩ := hfrom he'
    exact hw.inj ho₁ ho₂ (h₁.symm.trans (heq.trans h₂))
  · intro h conn' he
    by_cases hh : h = k
    · subst hh
      obtain ⟨hf, hstream, -⟩ := hself conn' he
      rw [hf]
      exact hstream
    · rw [hne h hh] at he
      obtain ⟨hsent, hacc, -⟩ := reads_other (hold hh he)
      rw [hlog, acceptedBy_append, sentTo_append, hsent, hacc, List.append_nil, List.append_nil]
      exact hw.stream he
  · intro h conn' he
    by_cases hh : h = k
    · subst hh
      obtain ⟨hf, -, hclosing⟩ := hself conn' he
      rw [hf]
      exact hclosing
    · rw [hne h hh] at he
      obtain ⟨-, -, hclose⟩ := reads_other (hold hh he)
      rw [hw.closing he, hlog, closeSent_append, or_iff_left hclose]
  · intro c
    by_cases hc : c = conn.fromNet
    · rw [hc]; exact hpassed
    · obtain ⟨hsent, hacc, -⟩ := reads_other fun e he => hes e he ▸ Ne.symm hc
      rw [hlog, acceptedBy_append, sentTo_append, hsent, hacc, List.append_nil, List.append_nil]
      exact hw.passed c
  · exact hfins

/-- The log of a visit keeps `Fins`: `close()` is called with everything accepted. -/
theorem Outbound.visit_fins {w : World D} {h : Handle} {conn : Conn} (hw : Outbound w)
    (hconn : w.entry h = some conn) (seams : List Nat) (sock : D.Tcp) (chan : Chan) :
    Fins (w.log ++ (visit D h seams sock conn chan).events conn.fromNet) := by
  have hout := visit_outBuf h seams sock conn chan
  have hcloses := visit_closes h seams sock conn chan
  generalize visit D h seams sock conn chan = v at hout hcloses ⊢
  obtain ⟨hsent, hacc, -, hnofin⟩ := v.front_reads conn.fromNet
  rw [v.events_eq, ← List.append_assoc, ← List.append_assoc]
  refine fins_append ?_ ?_
  · have hfront : Fins (w.log ++ v.front conn.fromNet) := fins_append hw.fins hnofin
    cases hc : v.closes with
    | false => simpa only [Bool.false_eq_true, if_false, List.append_nil] using hfront
    | true =>
        simp only [if_true]
        obtain ⟨hclosing, hempty⟩ := hcloses.mp hc
        refine fins_fin hfront
          ((closeSent_append ..).mpr (.inl ((hw.closing hconn).mp hclosing))) ?_
        rw [hempty, List.append_nil] at hout
        rw [acceptedBy_append, sentTo_append, hsent, hacc, hout, List.append_nil]
        exact hw.stream hconn
  · intro c
    split
    · exact fun hmem => nomatch List.mem_singleton.mp hmem
    · exact List.not_mem_nil

theorem Outbound.turn {w w' : World D} {h : Handle} {conn : Conn} {v : Visit D}
    (hconn : w.entry h = some conn)
    (hv : ∃ seams sock chan, v = visit D h seams sock conn chan)
    (hs : Serviced w w' h v) (hw : Outbound w) : Outbound w' := by
  obtain ⟨seams, sock, chan, rfl⟩ := hv
  have hout := visit_outBuf h seams sock conn chan
  have hfins := hw.visit_fins hconn seams sock chan
  obtain ⟨hsent, hacc, hclose⟩ := (visit D h seams sock conn chan).events_reads conn.fromNet
  have hpassed : acceptedBy conn.fromNet w'.log <+: sentTo conn.fromNet w'.log := by
    rw [hs.log, acceptedBy_append, sentTo_append]
    simp only [visit_fromNet]
    rw [hsent, hacc, List.append_nil, ← hw.stream hconn, ← hout, ← List.append_assoc]
    exact List.prefix_append ..
  refine hw.extend hconn hs.log (Visit.events_conn _ _) hs.entry_ne ?_ hpassed (hs.log ▸ hfins)
  intro conn' he
  rw [hs.entry_self] at he
  split at he
  · cases he
  · rw [Option.some.injEq] at he
    subst he
    refine ⟨rfl, ?_, ?_⟩
    · rw [hs.log, acceptedBy_append, sentTo_append]
      simp only [visit_fromNet]
      rw [hsent, hacc, List.append_nil, List.append_assoc, hout]
      exact hw.stream hconn
    · rw [hs.log]
      simp only [visit_closing, visit_fromNet]
      rw [hw.closing hconn, closeSent_append, or_iff_left (hclose _)]

/-- A `Send` adds to `out_buf` what it adds to the log, and a `Close` sets `closing`. -/
theorem Outbound.wrote {w w' : World D} {h : Handle} {conn conn' : Conn} {e : Event}
    (hw : Outbound w) (hconn : w.entry h = some conn) (hs : Wrote w w' h conn' e)
    (hfrom : conn'.fromNet = conn.fromNet) (he : e.conn = conn.fromNet)
    (hacc : acceptedBy conn.fromNet [e] = [])
    (hsent : conn'.outBuf = conn.outBuf ++ sentTo conn.fromNet [e])
    (hclosing : conn'.closing = true ↔ conn.closing = true ∨ CloseSent conn.fromNet [e])
    (hnofin : ∀ c, e ≠ .fin c) : Outbound w' := by
  have hfins : Fins w'.log :=
    hs.log ▸ fins_append hw.fins fun c hc => hnofin c (List.mem_singleton.mp hc).symm
  have hpassed : acceptedBy conn.fromNet w'.log <+: sentTo conn.fromNet w'.log := by
    rw [hs.log, acceptedBy_append, sentTo_append, hacc, List.append_nil]
    exact (hw.passed conn.fromNet).trans (List.prefix_append ..)
  refine hw.extend hconn hs.log ?_ hs.entry_ne ?_ hpassed hfins
  · intro e' he'
    rw [List.mem_singleton.mp he']
    exact he
  · intro conn'' hentry
    rw [hs.entry_self, Option.some.injEq] at hentry
    subst hentry
    refine ⟨hfrom, ?_, ?_⟩
    · rw [hs.log, acceptedBy_append, sentTo_append, hacc, List.append_nil, hsent,
        ← List.append_assoc, hw.stream hconn]
    · rw [hclosing, hs.log, closeSent_append, hw.closing hconn]

/-- A connect under a new number: nothing has been sent, accepted or closed there. -/
theorem Outbound.inserted {w w' : World D} {remote : SocketAddr} {c : ConnId} (hw : Outbound w)
    (hc : w.Unborn c) (hi : Inserted w w' remote c) : Outbound w' := by
  obtain ⟨hsent, hacc, hclose⟩ := reads_other hc.1
  constructor
  · intro k k' conn conn' he he' heq
    rcases hi.entry_cases he with ⟨rfl, rfl⟩ | ⟨-, he⟩
    · rcases hi.entry_cases he' with ⟨rfl, -⟩ | ⟨-, he'⟩
      · rfl
      · exact absurd heq.symm (hc.2 k' conn' he')
    · rcases hi.entry_cases he' with ⟨rfl, rfl⟩ | ⟨-, he'⟩
      · exact absurd heq (hc.2 k conn he)
      · exact hw.inj he he' heq
  · intro k conn he
    rw [hi.log]
    rcases hi.entry_cases he with ⟨-, rfl⟩ | ⟨-, he⟩
    · show acceptedBy c w.log ++ [] = sentTo c w.log
      rw [hsent, hacc, List.append_nil]
    · exact hw.stream he
  · intro k conn he
    rw [hi.log]
    rcases hi.entry_cases he with ⟨-, rfl⟩ | ⟨-, he⟩
    · exact ⟨fun h => (nomatch h), fun h => absurd h hclose⟩
    · exact hw.closing he
  · rw [hi.log]; exact hw.passed
  · rw [hi.log]; exact hw.fins

/-- The answer to a refused connect says nothing on any stream. -/
theorem Outbound.rejected {w w' : World D} {c : ConnId} (hw : Outbound w)
    (hr : Rejected w w' c) : Outbound w' := by
  have hsent : ∀ k, sentTo k w'.log = sentTo k w.log := fun k => by
    rw [hr.log, sentTo_append]
    exact List.append_nil _
  have hacc : ∀ k, acceptedBy k w'.log = acceptedBy k w.log := fun k => by
    rw [hr.log, acceptedBy_append]
    exact List.append_nil _
  constructor
  · rw [hr.entry]; exact hw.inj
  · intro k conn he
    rw [hr.entry] at he
    rw [hsent, hacc]
    exact hw.stream he
  · intro k conn he
    rw [hr.entry] at he
    rw [hw.closing he, hr.log, closeSent_append, or_iff_left]
    rintro ⟨o, ho⟩
    cases List.mem_singleton.mp ho
  · intro k
    rw [hsent, hacc]
    exact hw.passed k
  · rw [hr.log]
    exact fins_append hw.fins fun k hk => nomatch List.mem_singleton.mp hk

theorem Outbound.cmd {w w' : World D} {cmd : Cmd}
    (hc : ∀ remote c, cmd = .connect remote c → w.Unborn c) (h : Handled w w' cmd)
    (hw : Outbound w) : Outbound w' := by
  cases h with
  | untouched _ hs _ => exact hw.same hs.sameConns
  | inserted _ hi => exact hw.inserted (hc _ _ rfl) hi
  | rejected _ hr => exact hw.rejected hr
  | @sent _ data _ conn hconn hs =>
      refine hw.wrote hconn hs rfl rfl rfl ?_ ?_ fun _ => Event.noConfusion
      · simp only [sentTo, List.flatMap_cons, if_true, List.flatMap_nil, List.append_nil]
      · refine (or_iff_left ?_).symm
        rintro ⟨o, ho⟩
        cases List.mem_singleton.mp ho
  | @closed _ o conn hconn hs =>
      refine hw.wrote hconn hs rfl rfl rfl (List.append_nil _).symm ?_ fun _ => Event.noConfusion
      exact ⟨fun _ => .inr ⟨o, List.mem_singleton_self _⟩, fun _ => rfl⟩

theorem outbound_invariant : WorldInvariant (Outbound (D := D)) where
  same hs hw := hw.same hs
  turn := Outbound.turn
  cmd := Outbound.cmd

theorem Init.outbound {s : System D} (h : Init s) : Outbound s.world := by
  have hnone := h.entry
  obtain ⟨mtu, v4, v6, rfl⟩ := h
  constructor
  · intro k k' conn conn' he; rw [hnone] at he; cases he
  · intro k conn he; rw [hnone] at he; cases he
  · intro k conn he; rw [hnone] at he; cases he
  · intro c; exact List.prefix_rfl
  · intro pre c hpre
    have hnil := List.prefix_nil.mp hpre
    exact absurd hnil (List.append_ne_nil_of_right_ne_nil _ (List.cons_ne_nil _ _))

theorem Reachable.outbound {s : System D} (h : Reachable s) : Outbound s.world :=
  h.world_invariant outbound_invariant fun _ => Init.outbound

end

end WarpProxy.Netstack
