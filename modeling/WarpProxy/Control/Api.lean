/-
# `WarpProxy.Control.Api` — the control API at work

`serve`: connections that are read, decided on and answered at the same time, beside the pool
they operate on.  A connection is at one of the awaits of its `handle`; the operation it has
called is a call of the pool like any other, whose steps are the pool's own.  Besides the
connections only the rotator calls operations, and only `rotate`.

Each connection is answered as `handle` answers its own reads, with what `route` has returned to
it: the outcome of the one operation it has called, or the status afterwards
(`served_by_handle`).  What the pool is set to stays as it is unless some connection presents the
token (`changes_authorised`).
-/
import WarpProxy.Control.Route
import WarpProxy.Control.StatusBody
import WarpProxy.Pool.Passive

namespace WarpProxy.Control

open Pool (Op Connected)
open Transition (Once)

/-! ## One connection -/

/-- Where `handle` stands. -/
inductive Conn where
  | reading (buf : List UInt8)
  | decided (d : Decision)
  /-- awaiting the call `c` of the pool -/
  | calling (path query : List Char) (c : Nat)
  /-- in `status`, which has read the pin -/
  | telling (path query : List Char) (pinned : WorkerId)
  | answered (r : Response)
  | failed

/-- What a connection does: it gets what a read gives, or the error of one; it calls an operation,
which is the call `c` of the pool; it sends its answer; or it goes on by itself. -/
inductive Act where
  | read (chunk : List UInt8)
  | fail
  | call (c : Nat) (op : Op)
  | answer
  | next

/-- The read loop after a read of `chunk`. -/
def afterRead (token : List Char) (buf chunk : List UInt8) : Conn :=
  if chunk = [] then .decided (decision token buf)
  else
    let buf := buf ++ chunk
    if hasBlankLine buf || maxHead < buf.length then .decided (decision token buf)
    else .reading buf

/-- One step of a connection, beside a pool in the state `p`. -/
inductive ConnStep (json : SerdeJson) (token : List Char) (p : Pool.State) :
    Conn → Act → Conn → Prop
  | read {buf chunk : List UInt8} : chunk.length ≤ readSize →
      ConnStep json token p (.reading buf) (.read chunk) (afterRead token buf chunk)
  | fail {buf : List UInt8} : ConnStep json token p (.reading buf) .fail .failed
  /-- `OPTIONS`, and what has not the token -/
  | refuse {d : Decision} : d.calls = none →
      ConnStep json token p (.decided d) .answer (.answered (respond (fun _ _ => .ok []) d))
  | bad {path query msg : List Char} {registered : Except Error WarpConfig}
      {connected : Except Error Connected} : route path query registered connected = .error msg →
      ConnStep json token p (.decided (.route path query)) .answer
        (.answered (respond (fun _ _ => .error msg) (.route path query)))
  | status {path query : List Char} {registered : Except Error WarpConfig}
      {connected : Except Error Connected} : route path query registered connected = .ok none →
      ConnStep json token p (.decided (.route path query)) .next
        (.telling path query p.pool.pinned)
  | call {path query : List Char} {op : Op} {registered : Except Error WarpConfig}
      {connected : Except Error Connected} :
      route path query registered connected = .ok (some op) →
      ConnStep json token p (.decided (.route path query)) (.call p.nextCall op)
        (.calling path query p.nextCall)
  | done {path query : List Char} {c : Nat} {id : Option WorkerId} :
      p.calls c = some (.done (.ok id)) →
      ConnStep json token p (.calling path query c) .next (.telling path query p.pool.pinned)
  | refused {path query : List Char} {c : Nat} {e : Error} :
      p.calls c = some (.done (.error e)) →
      ConnStep json token p (.calling path query c) .answer
        (.answered (respond (fun _ _ => .error e.display.toList) (.route path query)))
  | told {path query : List Char} {pinned : WorkerId} :
      ConnStep json token p (.telling path query pinned) .answer
        (.answered (respond (fun _ _ => statusBody json (p.status pinned)) (.route path query)))

/-! ## The system -/

structure Api where
  pool : Pool.State
  conns : Nat → Option Conn
  next : Nat

/-- `c` is the call of the pool by which the rotator rotates. -/
inductive Label where
  | accept
  | conn (k : Nat) (a : Act)
  | rotator (c : Nat) (id : WorkerId)
  | pool (l : Pool.Label)

namespace Api

def setConn (s : Api) (k : Nat) (x : Conn) : Api :=
  { s with conns := Function.update s.conns k (some x) }

inductive Step (json : SerdeJson) (token : List Char) (s : Api) : Label → Api → Prop
  | accept :
      Step json token s .accept { s.setConn s.next (.reading []) with next := s.next + 1 }
  | conn {k : Nat} {x y : Conn} {a : Act} : s.conns k = some x →
      ConnStep json token s.pool x a y → (∀ c op, a ≠ .call c op) →
      Step json token s (.conn k a) (s.setConn k y)
  | call {k : Nat} {x y : Conn} {c : Nat} {op : Op} {t : Pool.State} : s.conns k = some x →
      ConnStep json token s.pool x (.call c op) y → Pool.Step s.pool (.start c op) t →
      Step json token s (.conn k (.call c op)) { s.setConn k y with pool := t }
  | rotator {c : Nat} {id : WorkerId} {registered : Except Error WarpConfig} {t : Pool.State} :
      Pool.Step s.pool (.start c (.rotate id registered)) t →
      Step json token s (.rotator c id) { s with pool := t }
  | pool {l : Pool.Label} {t : Pool.State} : (∀ c op, l ≠ .start c op) → Pool.Step s.pool l t →
      Step json token s (.pool l) { s with pool := t }

/-- `serve` is called. -/
structure Init (s : Api) : Prop where
  conns : ∀ k, s.conns k = none

end Api

/-! ## What a connection has done -/

/-- What the connection `k` does in a step. -/
def Label.actOf (k : Nat) : Label → Option Act
  | .conn j a => if j = k then some a else none
  | _ => none

/-- The call of the pool that begins in a step. -/
def Label.started : Label → Option Nat
  | .conn _ (.call c _) => some c
  | .rotator c _ => some c
  | _ => none

def Act.chunk : Act → Option (List UInt8)
  | .read chunk => some chunk
  | _ => none

def Act.called : Act → Option (Nat × Op)
  | .call c op => some (c, op)
  | _ => none

def actsOf (k : Nat) (ls : List Label) : List Act := ls.filterMap (Label.actOf k)

/-- The reads of the connection. -/
def readsOf (acts : List Act) : List (List UInt8) := acts.filterMap Act.chunk

/-- The calls it has made of the pool. -/
def callsOf (acts : List Act) : List (Nat × Op) := acts.filterMap Act.called

/-- Their operations. -/
def opsOf (acts : List Act) : List Op := (callsOf acts).map Prod.snd

/-- These reads, and whatever comes after them, are decided on so. -/
def Decides (token : List Char) (reads : List (List UInt8)) (d : Decision) : Prop :=
  ∃ buf, (∀ fails more, readHead fails [] (reads ++ more) = some buf) ∧ decision token buf = d

/-- No call, or the one that the decision calls for. -/
inductive CallsOk : Decision → List (Nat × Op) → Prop
  | none (d : Decision) : CallsOk d []
  | one {path query : List Char} {op : Op} {registered : Except Error WarpConfig}
      {connected : Except Error Connected} (c : Nat) :
      route path query registered connected = .ok (some op) → CallsOk (.route path query) [(c, op)]

theorem Decides.handle {token : List Char} {reads : List (List UInt8)} {d : Decision}
    (h : Decides token reads d) (bodyOf : List Char → List Char → Except (List Char) (List Char))
    (fails : Bool) (more : List (List UInt8)) :
    handle token bodyOf fails (reads ++ more) = some (respond bodyOf d, d.calls) := by
  obtain ⟨buf, hbuf, rfl⟩ := h
  rw [Control.handle, hbuf]
  rfl

/-- `route` is called for a request with the token only. -/
theorem decision_route {token : List Char} {buf : List UInt8} {path query : List Char}
    (h : decision token buf = .route path query) :
    (requestLine ((linesOf buf).headD [])).1 ≠ "OPTIONS".toList
      ∧ (presented (linesOf buf).tail).getD [] = token := by
  by_cases hmethod : (requestLine ((linesOf buf).headD [])).1 = "OPTIONS".toList
  · have hpreflight : decision token buf = .preflight := if_pos hmethod
    rw [hpreflight] at h
    cases h
  · refine ⟨hmethod, ?_⟩
    by_contra hvalue
    have hforbidden : decision token buf = .forbidden := (if_neg hmethod).trans (if_pos hvalue)
    rw [hforbidden] at h
    cases h

/-! ## What `route` returns to it -/

namespace Api

/-- In the run of `ls` from `s` to `t`, the one call of the connection `k` has been begun as `op`
and has ended with `out`. -/
def Ended (json : SerdeJson) (token : List Char) (s : Api) (k : Nat) (op : Op)
    (out : Pool.Outcome) (ls : List Label) (t : Api) : Prop :=
  ∃ c, callsOf (actsOf k ls) = [(c, op)]
    ∧ Once (Step json token) s ls t (fun _ u => u.pool.calls c = some op.begin)
    ∧ t.pool.calls c = some (.done out)

/-- It has called nothing and need not, or what it has called has succeeded. -/
inductive CarriedOut (json : SerdeJson) (token : List Char) (s : Api) (k : Nat)
    (path query : List Char) (ls : List Label) (t : Api) : Prop
  | nothing {registered : Except Error WarpConfig} {connected : Except Error Connected} :
      route path query registered connected = .ok none → callsOf (actsOf k ls) = [] →
      CarriedOut json token s k path query ls t
  | operation {op : Op} {id : Option WorkerId} {registered : Except Error WarpConfig}
      {connected : Except Error Connected} :
      route path query registered connected = .ok (some op) →
      Ended json token s k op (.ok id) ls t → CarriedOut json token s k path query ls t

/-- What `route(path, query)` returns to the connection `k` at the end of the run: its own error,
that of the operation, or else the status, whose pin it has read before. -/
inductive Returned (json : SerdeJson) (token : List Char) (s : Api) (k : Nat)
    (path query : List Char) (ls : List Label) (t : Api) : Except (List Char) (List Char) → Prop
  | bad {msg : List Char} {registered : Except Error WarpConfig}
      {connected : Except Error Connected} :
      route path query registered connected = .error msg → callsOf (actsOf k ls) = [] →
      Returned json token s k path query ls t (.error msg)
  | refused {op : Op} {e : Error} {registered : Except Error WarpConfig}
      {connected : Except Error Connected} :
      route path query registered connected = .ok (some op) →
      Ended json token s k op (.error e) ls t →
      Returned json token s k path query ls t (.error e.display.toList)
  | told (pinned : WorkerId) :
      Once (Step json token) s ls t (fun ls' u =>
        u.pool.pool.pinned = pinned ∧ CarriedOut json token s k path query ls' u) →
      Returned json token s k path query ls t (statusBody json (t.pool.status pinned))

end Api

open Api (CarriedOut Returned)

/-- What the connection `k` has done until it got there, in the run of `ls` from `s` to `t`. -/
def Conn.Served (json : SerdeJson) (token : List Char) (s : Api) (k : Nat) (ls : List Label)
    (t : Api) : Conn → Prop
  | .reading buf =>
      (∀ fails more, readHead fails [] (readsOf (actsOf k ls) ++ more) = readHead fails buf more)
        ∧ callsOf (actsOf k ls) = []
  | .decided d => Decides token (readsOf (actsOf k ls)) d ∧ callsOf (actsOf k ls) = []
  | .calling path query c =>
      Decides token (readsOf (actsOf k ls)) (.route path query)
        ∧ ∃ op registered connected, route path query registered connected = .ok (some op)
          ∧ callsOf (actsOf k ls) = [(c, op)]
          ∧ Once (Api.Step json token) s ls t (fun _ u => u.pool.calls c = some op.begin)
  | .telling path query pinned =>
      Decides token (readsOf (actsOf k ls)) (.route path query)
        ∧ CallsOk (.route path query) (callsOf (actsOf k ls))
        ∧ Once (Api.Step json token) s ls t (fun ls' u =>
          u.pool.pool.pinned = pinned ∧ CarriedOut json token s k path query ls' u)
  | .answered r => ∃ d result, Decides token (readsOf (actsOf k ls)) d
      ∧ CallsOk d (callsOf (actsOf k ls)) ∧ r = respond (fun _ _ => result) d
      ∧ ∀ path query, d = .route path query →
        Once (Api.Step json token) s ls t fun ls' u =>
          Returned json token s k path query ls' u result
  | .failed => callsOf (actsOf k ls) = []

section
variable {json : SerdeJson} {token : List Char} {s t u : Api} {k : Nat} {ls : List Label}

theorem Conn.Served.callsOk {x : Conn} (h : x.Served json token s k ls t) :
    callsOf (actsOf k ls) = [] ∨ ∃ d, Decides token (readsOf (actsOf k ls)) d
      ∧ CallsOk d (callsOf (actsOf k ls)) := by
  cases x with
  | reading buf | decided d => exact .inl h.2
  | calling path query c =>
      obtain ⟨hd, op, registered, connected, hroute, hcalls, -⟩ := h
      rw [hcalls]
      exact .inr ⟨_, hd, .one c hroute⟩
  | telling path query pinned => exact .inr ⟨_, h.1, h.2.1⟩
  | answered r =>
      obtain ⟨d, result, hd, hok, -⟩ := h
      exact .inr ⟨d, hd, hok⟩
  | failed => exact .inl h

theorem actsOf_append (k : Nat) (ls : List Label) (l : Label) :
    actsOf k (ls ++ [l]) = actsOf k ls ++ (l.actOf k).toList := by
  rw [actsOf, actsOf, List.filterMap_append, List.filterMap_cons]
  cases l.actOf k <;> rfl

theorem readsOf_append (acts : List Act) (a : Option Act) :
    readsOf (acts ++ a.toList) = readsOf acts ++ (a.bind Act.chunk).toList := by
  rw [readsOf, readsOf, List.filterMap_append]
  cases a with
  | none => rfl
  | some a => cases a <;> rfl

theorem callsOf_append (acts : List Act) (a : Option Act) :
    callsOf (acts ++ a.toList) = callsOf acts ++ (a.bind Act.called).toList := by
  rw [callsOf, callsOf, List.filterMap_append]
  cases a with
  | none => rfl
  | some a => cases a <;> rfl

theorem actsOf_idle {l : Label} (hl : l.actOf k = none) : actsOf k (ls ++ [l]) = actsOf k ls := by
  rw [actsOf_append, hl, Option.toList_none, List.append_nil]

theorem actsOf_conn (k : Nat) (ls : List Label) (a : Act) :
    actsOf k (ls ++ [.conn k a]) = actsOf k ls ++ (some a).toList := by
  have hself : (Label.conn k a).actOf k = some a := if_pos rfl
  rw [actsOf_append, hself]

theorem readsOf_conn (k : Nat) (ls : List Label) (a : Act) :
    readsOf (actsOf k (ls ++ [.conn k a])) = readsOf (actsOf k ls) ++ a.chunk.toList := by
  rw [actsOf_conn, readsOf_append]
  rfl

theorem callsOf_conn (k : Nat) (ls : List Label) (a : Act) :
    callsOf (actsOf k (ls ++ [.conn k a])) = callsOf (actsOf k ls) ++ a.called.toList := by
  rw [actsOf_conn, callsOf_append]
  rfl

/-- What the others do is nothing to it. -/
theorem Conn.Served.idle {x : Conn} (h : x.Served json token s k ls t) {l : Label}
    (hl : l.actOf k = none) (hstep : Api.Step json token t l u) :
    x.Served json token s k (ls ++ [l]) u := by
  have hacts : actsOf k (ls ++ [l]) = actsOf k ls := actsOf_idle hl
  cases x with
  | reading buf | decided d | failed =>
      simp only [Served, hacts] at h ⊢
      exact h
  | calling path query c =>
      obtain ⟨hd, op, registered, connected, hroute, hcalls, hbegun⟩ := h
      simp only [Served, hacts]
      exact ⟨hd, op, registered, connected, hroute, hcalls, hbegun.tail hstep⟩
  | telling path query pinned =>
      obtain ⟨hd, hok, hread⟩ := h
      simp only [Served, hacts]
      exact ⟨hd, hok, hread.tail hstep⟩
  | answered r =>
      obtain ⟨d, result, hd, hok, hr, hreturned⟩ := h
      simp only [Served, hacts]
      exact ⟨d, result, hd, hok, hr, fun path query hroute =>
        (hreturned path query hroute).tail hstep⟩

theorem afterRead_served {buf : List UInt8} (chunk : List UInt8)
    (h : (Conn.reading buf).Served json token s k ls t) :
    (afterRead token buf chunk).Served json token s k (ls ++ [.conn k (.read chunk)]) u := by
  obtain ⟨hreads, hcalls⟩ := h
  have hnext : ∀ fails more,
      readHead fails [] (readsOf (actsOf k (ls ++ [.conn k (.read chunk)])) ++ more)
        = readHead fails buf (chunk :: more) := by
    intro fails more
    rw [readsOf_conn, List.append_assoc]
    exact hreads fails (chunk :: more)
  have hnone : callsOf (actsOf k (ls ++ [.conn k (.read chunk)])) = [] := by
    rw [callsOf_conn, hcalls]
    rfl
  rw [afterRead]
  split
  · next hnil =>
      refine ⟨⟨buf, fun fails more => ?_, rfl⟩, hnone⟩
      rw [hnext, readHead, if_pos hnil]
  · next hne =>
      dsimp only
      split
      · next hends =>
          refine ⟨⟨buf ++ chunk, fun fails more => ?_, rfl⟩, hnone⟩
          rw [hnext, readHead, if_neg hne]
          exact if_pos hends
      · next hends =>
          refine ⟨fun fails more => ?_, hnone⟩
          rw [hnext, readHead, if_neg hne]
          exact if_neg hends

/-- The pool has begun what a connection calls. -/
theorem Api.Step.begun {c : Nat} {op : Op}
    (h : Api.Step json token t (.conn k (.call c op)) u) : u.pool.calls c = some op.begin := by
  cases h with
  | conn _ _ hcall => exact absurd rfl (hcall c op)
  | call _ _ hstart =>
      cases hstart with
      | start _ _ _ => exact Pool.State.calls_setCall_self ..

/-- A step in which nothing is read decides nothing. -/
theorem Decides.conn {d : Decision} (h : Decides token (readsOf (actsOf k ls)) d) {a : Act}
    (ha : a.chunk = none) : Decides token (readsOf (actsOf k (ls ++ [.conn k a]))) d := by
  rw [readsOf_conn, ha, Option.toList_none, List.append_nil]
  exact h

theorem callsOf_quiet (k : Nat) (ls : List Label) {a : Act} (ha : a.called = none) :
    callsOf (actsOf k (ls ++ [.conn k a])) = callsOf (actsOf k ls) := by
  rw [callsOf_conn, ha, Option.toList_none, List.append_nil]

/-- **One step of a connection.** -/
theorem ConnStep.served {x y : Conn} {a : Act} (h : ConnStep json token t.pool x a y)
    (hrun : Transition.Run (Api.Step json token) s ls t)
    (hstep : Api.Step json token t (.conn k a) u) (hx : x.Served json token s k ls t) :
    y.Served json token s k (ls ++ [.conn k a]) u := by
  cases h with
  | @read buf chunk hlen => exact afterRead_served chunk hx
  | fail => exact (callsOf_quiet k ls rfl).trans hx.2
  | @refuse d hnone =>
      obtain ⟨hd, hcalls⟩ := hx
      refine ⟨d, .ok [], hd.conn rfl, ?_, rfl, ?_⟩
      · rw [callsOf_quiet k ls rfl, hcalls]
        exact .none d
      · rintro path query rfl
        cases hnone
  | @bad path query msg registered connected hroute =>
      obtain ⟨hd, hcalls⟩ := hx
      have hreturned : Returned json token s k path query ls t (.error msg) := .bad hroute hcalls
      refine ⟨_, .error msg, hd.conn rfl, ?_, rfl, ?_⟩
      · rw [callsOf_quiet k ls rfl, hcalls]
        exact .none _
      · rintro path' query' heq
        cases heq
        exact (Once.now hrun hreturned).tail hstep
  | @status path query registered connected hroute =>
      obtain ⟨hd, hcalls⟩ := hx
      have hcarried : CarriedOut json token s k path query ls t := .nothing hroute hcalls
      refine ⟨hd.conn rfl, ?_, (Once.now hrun ⟨rfl, hcarried⟩).tail hstep⟩
      rw [callsOf_quiet k ls rfl, hcalls]
      exact .none _
  | @call path query op registered connected hroute =>
      obtain ⟨hd, hcalls⟩ := hx
      refine ⟨hd.conn rfl, op, registered, connected, hroute, ?_,
        Once.now (hrun.tail hstep) hstep.begun⟩
      rw [callsOf_conn, hcalls]
      rfl
  | @done path query c id hdone =>
      obtain ⟨hd, op, registered, connected, hroute, hcalls, hbegun⟩ := hx
      have hcarried : CarriedOut json token s k path query ls t :=
        .operation hroute ⟨c, hcalls, hbegun, hdone⟩
      refine ⟨hd.conn rfl, ?_, (Once.now hrun ⟨rfl, hcarried⟩).tail hstep⟩
      rw [callsOf_quiet k ls rfl, hcalls]
      exact .one c hroute
  | @refused path query c e hdone =>
      obtain ⟨hd, op, registered, connected, hroute, hcalls, hbegun⟩ := hx
      have hreturned : Returned json token s k path query ls t (.error e.display.toList) :=
        .refused hroute ⟨c, hcalls, hbegun, hdone⟩
      refine ⟨_, .error e.display.toList, hd.conn rfl, ?_, rfl, ?_⟩
      · rw [callsOf_quiet k ls rfl, hcalls]
        exact .one c hroute
      · rintro path' query' heq
        cases heq
        exact (Once.now hrun hreturned).tail hstep
  | @told path query pinned =>
      obtain ⟨hd, hok, hread⟩ := hx
      refine ⟨_, statusBody json (t.pool.status pinned), hd.conn rfl, ?_, rfl, ?_⟩
      · rw [callsOf_quiet k ls rfl]
        exact hok
      · rintro path' query' heq
        cases heq
        exact (Once.now hrun (Returned.told pinned hread)).tail hstep

end

/-! ## Runs -/

namespace Api

/-- Each connection has been served on its own, and those to come have done nothing. -/
structure Inv (json : SerdeJson) (token : List Char) (s : Api) (ls : List Label) (t : Api) :
    Prop where
  served : ∀ k x, t.conns k = some x → x.Served json token s k ls t
  absent : ∀ k, t.conns k = none → actsOf k ls = []
  next : ∀ k, t.next ≤ k → t.conns k = none

section
variable {json : SerdeJson} {token : List Char} {s t u : Api} {ls : List Label}

theorem Init.inv (h : Init s) : Inv json token s [] s where
  served := fun k x hx => absurd ((h.conns k).symm.trans hx) (Option.some_ne_none x).symm
  absent := fun _ _ => rfl
  next := fun k _ => h.conns k

/-- A step that is no connection's. -/
theorem Inv.idle (hi : Inv json token s ls t) {l : Label} (hstep : Step json token t l u)
    (hl : ∀ k, l.actOf k = none) (hconns : u.conns = t.conns) (hnext : u.next = t.next) :
    Inv json token s (ls ++ [l]) u := by
  constructor
  · intro k x hx
    rw [hconns] at hx
    exact (hi.served k x hx).idle (hl k) hstep
  · intro k hk
    rw [actsOf_idle (hl k)]
    exact hi.absent k (hconns ▸ hk)
  · intro k hk
    rw [hconns]
    exact hi.next k (hnext ▸ hk)

/-- A step of the connection `k`. -/
theorem Inv.conn (hi : Inv json token s ls t) (hrun : Transition.Run (Step json token) s ls t)
    {k : Nat} {x y : Conn} {a : Act} (hstep : Step json token t (.conn k a) u)
    (hx : t.conns k = some x) (h : ConnStep json token t.pool x a y)
    (hconns : u.conns = Function.update t.conns k (some y)) (hnext : u.next = t.next) :
    Inv json token s (ls ++ [.conn k a]) u := by
  have hother : ∀ j, j ≠ k → (Label.conn k a).actOf j = none := fun j hj => if_neg hj.symm
  constructor
  · intro j z hz
    rw [hconns] at hz
    by_cases hj : j = k
    · subst hj
      rw [Function.update_self, Option.some.injEq] at hz
      subst hz
      exact h.served hrun hstep (hi.served j x hx)
    · rw [Function.update_of_ne hj] at hz
      exact (hi.served j z hz).idle (hother j hj) hstep
  · intro j hj
    rw [hconns] at hj
    have hne : j ≠ k := by
      rintro rfl
      rw [Function.update_self] at hj
      cases hj
    rw [Function.update_of_ne hne] at hj
    rw [actsOf_idle (hother j hne)]
    exact hi.absent j hj
  · intro j hj
    rw [hnext] at hj
    have hne : j ≠ k := by
      rintro rfl
      rw [hi.next j hj] at hx
      cases hx
    rw [hconns, Function.update_of_ne hne]
    exact hi.next j hj

theorem Inv.accept (hi : Inv json token s ls t) : Inv json token s (ls ++ [.accept])
    { t.setConn t.next (.reading []) with next := t.next + 1 } := by
  have hacts : ∀ k, actsOf k (ls ++ [.accept]) = actsOf k ls := fun k => actsOf_idle rfl
  constructor
  · intro k x hx
    by_cases hk : k = t.next
    · subst hk
      have hread : x = .reading [] := by
        have hself : Function.update t.conns t.next (some (.reading [])) t.next = some x := hx
        rw [Function.update_self, Option.some.injEq] at hself
        exact hself.symm
      have hnothing : actsOf t.next (ls ++ [.accept]) = [] :=
        (hacts _).trans (hi.absent _ (hi.next _ (Nat.le_refl _)))
      rw [hread]
      simp only [Conn.Served, hnothing]
      exact ⟨fun fails more => rfl, rfl⟩
    · have hold : t.conns k = some x := by
        rw [← hx]
        exact (Function.update_of_ne hk _ _).symm
      exact (hi.served k x hold).idle rfl .accept
  · intro k hk
    rw [hacts]
    have hne : k ≠ t.next := by
      rintro rfl
      exact absurd hk (by simp [setConn])
    refine hi.absent k ?_
    rw [← hk]
    exact (Function.update_of_ne hne _ _).symm
  · intro k hk
    have hlt : t.next + 1 ≤ k := hk
    have hne : k ≠ t.next := by omega
    exact (Function.update_of_ne hne _ _).trans (hi.next k (by omega))

/-- **A step keeps every connection's account right.** -/
theorem Step.inv {l : Label} (h : Step json token t l u)
    (hrun : Transition.Run (Step json token) s ls t) (hi : Inv json token s ls t) :
    Inv json token s (ls ++ [l]) u := by
  have hstep := h
  cases h with
  | accept => exact hi.accept
  | conn hx hconn hcall => exact hi.conn hrun hstep hx hconn rfl rfl
  | call hx hconn hstart => exact hi.conn hrun hstep hx hconn rfl rfl
  | rotator hstart => exact hi.idle hstep (fun _ => rfl) rfl rfl
  | pool hl hpool => exact hi.idle hstep (fun _ => rfl) rfl rfl

theorem Inv.calls (hi : Inv json token s ls t) (k : Nat) : callsOf (actsOf k ls) = [] ∨
    ∃ d, Decides token (readsOf (actsOf k ls)) d ∧ CallsOk d (callsOf (actsOf k ls)) := by
  cases hk : t.conns k with
  | none =>
      rw [hi.absent k hk]
      exact .inl rfl
  | some x => exact (hi.served k x hk).callsOk

theorem run_inv (hs : Init s) (h : Transition.Run (Step json token) s ls t) :
    Inv json token s ls t := by
  induction h with
  | refl => exact hs.inv
  | tail hrun hstep ih => exact hstep.inv hrun ih

/-- A call gets the next number. -/
theorem Step.nextCall {l : Label} (h : Step json token t l u) :
    t.pool.nextCall ≤ u.pool.nextCall
      ∧ ∀ c, l.started = some c → c = t.pool.nextCall ∧ c < u.pool.nextCall := by
  have hstart : ∀ {p : Pool.State} {c : Nat} {op : Op}, Pool.Step t.pool (.start c op) p →
      c = t.pool.nextCall ∧ p.nextCall = t.pool.nextCall + 1 := by
    intro p c op h
    cases h with
    | start _ _ _ => exact ⟨rfl, rfl⟩
  cases h with
  | accept => exact ⟨Nat.le_refl _, nofun⟩
  | @conn k x y a hx hconn hcall =>
      refine ⟨Nat.le_refl _, fun c hc => ?_⟩
      cases a with
      | call c' op => exact absurd rfl (hcall c' op)
      | read | fail | answer | next => cases hc
  | call hx hconn hpool =>
      obtain ⟨rfl, hnext⟩ := hstart hpool
      refine ⟨Nat.le_of_lt (hnext ▸ Nat.lt_succ_self _), fun c hc => ?_⟩
      cases hc
      exact ⟨rfl, hnext ▸ Nat.lt_succ_self _⟩
  | rotator hpool =>
      obtain ⟨rfl, hnext⟩ := hstart hpool
      refine ⟨Nat.le_of_lt (hnext ▸ Nat.lt_succ_self _), fun c hc => ?_⟩
      cases hc
      exact ⟨rfl, hnext ▸ Nat.lt_succ_self _⟩
  | pool hl hpool => exact ⟨hpool.nextCall_le, nofun⟩

/-- **No two calls of a run have the same number.** -/
theorem started_nodup (h : Transition.Run (Step json token) s ls t) :
    (ls.filterMap Label.started).Nodup
      ∧ ∀ c ∈ ls.filterMap Label.started, c < t.pool.nextCall := by
  induction h with
  | refl => exact ⟨List.nodup_nil, nofun⟩
  | @tail t u ls l _ hstep ih =>
      obtain ⟨hnodup, hlt⟩ := ih
      obtain ⟨hle, hfresh⟩ := hstep.nextCall
      have hold : ∀ c ∈ ls.filterMap Label.started, c < u.pool.nextCall :=
        fun c hc => Nat.lt_of_lt_of_le (hlt c hc) hle
      rw [List.filterMap_append]
      cases hl : l.started with
      | none =>
          have hnil : [l].filterMap Label.started = [] := by
            rw [List.filterMap_cons, hl]
            rfl
          rw [hnil, List.append_nil]
          exact ⟨hnodup, hold⟩
      | some c =>
          have hone : [l].filterMap Label.started = [c] := by
            rw [List.filterMap_cons, hl]
            rfl
          obtain ⟨rfl, hless⟩ := hfresh c hl
          rw [hone]
          constructor
          · refine List.nodup_append.mpr ⟨hnodup, List.nodup_singleton _, ?_⟩
            rintro c hc _ hmem rfl
            rw [List.mem_singleton.mp hmem] at hc
            exact Nat.lt_irrefl _ (hlt _ hc)
          · intro c hc
            rcases List.mem_append.mp hc with hc | hc
            · exact hold c hc
            · rw [List.mem_singleton.mp hc]
              exact hless

/-- Some connection has called an operation that changes it. -/
def Changed (ls : List Label) : Prop := ∃ k, ∃ op ∈ opsOf (actsOf k ls), ¬ op.Passive

theorem Changed.tail (h : Changed ls) (l : Label) : Changed (ls ++ [l]) := by
  obtain ⟨k, op, hop, hchanges⟩ := h
  refine ⟨k, op, ?_, hchanges⟩
  rw [actsOf_append, opsOf, callsOf_append, List.map_append]
  exact List.mem_append_left _ hop

/-- With passive calls only, it takes such an operation to change the pool's record. -/
theorem Step.passive {l : Label} (h : Step json token t l u) (ht : t.pool.Passive) :
    u.pool.pool = t.pool.pool ∧ u.pool.Passive ∨ Changed (ls ++ [l]) := by
  cases h with
  | accept | conn => exact .inl ⟨rfl, ht⟩
  | @call k x y c op p hx hconn hstart =>
      by_cases hop : op.Passive
      · refine .inl (hstart.passive ht ?_)
        rintro c' op' heq
        rw [Pool.Label.start.injEq] at heq
        exact heq.2 ▸ hop
      · refine .inr ⟨k, op, ?_, hop⟩
        rw [opsOf, callsOf_conn, List.map_append]
        exact List.mem_append_right _ List.mem_cons_self
  | @rotator c id registered p hstart =>
      refine .inl (hstart.passive ht ?_)
      rintro c' op' heq
      rw [Pool.Label.start.injEq] at heq
      exact heq.2 ▸ trivial
  | pool hl hpool => exact .inl (hpool.passive ht fun c op heq => absurd heq (hl c op))

theorem run_passive (hs : s.pool.Passive) (h : Transition.Run (Step json token) s ls t) :
    t.pool.pool = s.pool.pool ∧ t.pool.Passive ∨ Changed ls := by
  induction h with
  | refl => exact .inl ⟨rfl, hs⟩
  | tail _ hstep ih =>
      rcases ih with ⟨hpool, hpassive⟩ | hchanged
      · rcases hstep.passive hpassive with ⟨hpool', hpassive'⟩ | hchanged
        · exact .inl ⟨hpool'.trans hpool, hpassive'⟩
        · exact .inr hchanged
      · exact .inr (hchanged.tail _)

/-- **Nothing is changed without the token**: in every run from a pool that nobody is changing, if a
setting or the list of the accounts is another at the end, some connection has called an operation
that changes them, on a request that is not `OPTIONS` and has a line that gives the token. -/
theorem changes_authorised (hs : Init s) (hpassive : s.pool.Passive)
    (h : Transition.Run (Step json token) s ls t) (hne : t.pool.pool ≠ s.pool.pool) :
    ∃ k op buf, opsOf (actsOf k ls) = [op] ∧ ¬ op.Passive
      ∧ (∀ fails more, readHead fails [] (readsOf (actsOf k ls) ++ more) = some buf)
      ∧ (requestLine ((linesOf buf).headD [])).1 ≠ "OPTIONS".toList
      ∧ (presented (linesOf buf).tail).getD [] = token := by
  rcases run_passive hpassive h with ⟨hsame, -⟩ | ⟨k, op, hop, hchanges⟩
  · exact absurd hsame hne
  · rw [opsOf] at hop
    rcases (run_inv hs h).calls k with hnone | ⟨d, ⟨buf, hbuf, hd⟩, hok⟩
    · rw [hnone] at hop
      cases hop
    · generalize hgen : callsOf (actsOf k ls) = calls at hok hop
      cases hok with
      | none => cases hop
      | one c hroute =>
          obtain rfl := List.mem_singleton.mp hop
          exact ⟨k, _, buf, congrArg (List.map Prod.snd) hgen, hchanges, hbuf, decision_route hd⟩

end

/-! ## A run -/

/-- A pool without accounts, and nobody connected. -/
def idle : Api where
  pool := { Pool.State.init [] false (.new 0 .blank) with calls := fun _ => none, ready := true }
  conns := fun _ => none
  next := 0

def selectHead : List UInt8 :=
  Utf8.ascii "GET /api/select?slot=5 HTTP/1.1\r\nX-Warp-Token: s\r\n\r\n"

/-- One connection, whose operation the pool then carries out, and which is told the status. -/
def selectRun : List Label :=
  [.accept, .conn 0 (.read selectHead), .conn 0 (.call 1 (.select 5)), .pool (.call 1),
    .conn 0 .next, .conn 0 .answer]

def selectAnswer : Response :=
  respond (fun _ _ => statusBody compactJson ⟨true, "pinned", 5, false, 0, []⟩)
    (.route "/api/select".toList "slot=5".toList)

theorem run_selectRun : ∃ t, Transition.Run (Step compactJson ['s']) idle selectRun t
    ∧ t.conns 0 = some (.answered selectAnswer) ∧ t.pool.pool.pinned = 5 := by
  have hdecision : decision ['s'] selectHead =
      .route "/api/select".toList "slot=5".toList := by decide
  have hread : afterRead ['s'] [] selectHead =
      .decided (.route "/api/select".toList "slot=5".toList) := by
    have hne : selectHead ≠ [] := by decide
    have hends : (hasBlankLine selectHead || maxHead < selectHead.length) = true := by
      decide
    rw [afterRead, if_neg hne, ← hdecision]
    exact if_pos hends
  have hroute : route "/api/select".toList "slot=5".toList (.ok .blank) (.error (.tunnel ""))
      = .ok (some (.select 5)) := rfl
  have hlen : selectHead.length ≤ readSize := by decide
  have h₁ : Transition.Run (Step compactJson ['s']) idle [.accept] _ :=
    (Transition.Run.refl idle).tail .accept
  have h₂ := h₁.tail (.conn (k := 0) rfl (.read hlen) nofun)
  rw [hread] at h₂
  have h₃ := h₂.tail (.call (k := 0) rfl (.call hroute) (.start _ rfl Nat.one_pos))
  have h₄ := h₃.tail (.pool (l := .call 1) nofun (.call rfl .select))
  have h₅ := h₄.tail (.conn (k := 0) rfl (.done rfl) nofun)
  have h₆ := h₅.tail (.conn (k := 0) rfl .told nofun)
  exact ⟨_, h₆, rfl, rfl⟩

theorem idle_init : Init idle := ⟨fun _ => rfl⟩

theorem changes_authorised_select : ∃ k op buf,
    opsOf (actsOf k selectRun) = [op] ∧ ¬ op.Passive
      ∧ (∀ fails more, readHead fails [] (readsOf (actsOf k selectRun) ++ more) = some buf)
      ∧ (requestLine ((linesOf buf).headD [])).1 ≠ "OPTIONS".toList
      ∧ (presented (linesOf buf).tail).getD [] = ['s'] := by
  obtain ⟨t, hrun, -, hpinned⟩ := run_selectRun
  have hpassive : idle.pool.Passive := nofun
  refine changes_authorised idle_init hpassive hrun ?_
  intro hsame
  rw [hsame] at hpinned
  cases hpinned

end Api

end WarpProxy.Control
