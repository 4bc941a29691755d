/-
# `WarpProxy.Pool.Step` — every interleaving of the pool's tasks

One step is one access to shared state by one task: a line of `build_tunnel`
(`BuildStep`), of a supervisor (`SupStep`), of a control operation or of
`Pool::new` (`CallStep`), of a trace fetch (`TraceStep`), or an event outside the
pool: a tunnel dies, an `Arc<Pool>` is cloned or dropped (`Step`).  What an await
on the outside gives is arbitrary, or the outcome the operation was called with.

The atomics are sequentially consistent, a critical section is one step, and
only `remove_account` holds the workers lock over more than one.
-/
import WarpProxy.Lib.Transition
import WarpProxy.Pool.State

namespace WarpProxy.Pool

/-! ## `build_tunnel` -/

/-- Where a step of `build_tunnel` leaves it. -/
inductive Progress where
  | more (b : Build)
  | ok
  | failed (e : Error)

/-- One step of `build_tunnel(w)`, whose `connect_with` (or key parsing) will give `out`. -/
inductive BuildStep (w : Ref) (out : Except Error Connected) :
    State → Build → Progress → State → Prop
  | config (s : State) :
      BuildStep w out s .start (.more (.haveConfig (s.heap w).inner.config)) s
  | badKey {e : Error} (s : State) (config : WarpConfig) : out = .error e →
      BuildStep w out s (.haveConfig config) (.failed e) s
  | transport (s : State) (config : WarpConfig) :
      BuildStep w out s (.haveConfig config) (.more (.connecting config s.pool.transport)) s
  | refused {e : Error} (s : State) (config : WarpConfig) (tr : Transport) : out = .error e →
      BuildStep w out s (.connecting config tr) (.failed e) s
  | connected {r : Connected} (s : State) (config : WarpConfig) (tr : Transport)
      (died : Bool) : out = .ok r →
      BuildStep w out s (.connecting config tr) .ok (s.install w config tr r died)

/-! ## The supervisor -/

/-- What the supervisor of `w` does after a step of its `build_tunnel`. -/
def State.supAfter (s : State) (w : Ref) (backoff : Nat) : Progress → State
  | .more b => s.setSup w (.building backoff b)
  | .ok => (s.setSup w .top).spawnTrace w
  | .failed _ => s.setSup w (.sleeping backoff)

inductive SupStep (w : Ref) (s : State) : State → Prop
  | up {b : BuildId} : s.sups w = some .top → (s.heap w).inner.dead = some b →
      SupStep w s (s.setSup w (.waiting b))
  | down : s.sups w = some .top → (s.heap w).inner.dead = none →
      SupStep w s (s.setSup w (.upgrading 1))
  | dead {b : BuildId} : s.sups w = some (.waiting b) → s.deadWatch b = true →
      SupStep w s (s.setSup w .clearing)
  | notified {b : BuildId} : s.sups w = some (.waiting b) → (s.heap w).rebuild = true →
      SupStep w s ((s.setWorker w (s.heap w).takePermit).setSup w .clearing)
  | clear : s.sups w = some .clearing →
      SupStep w s ((s.setWorker w (s.heap w).clearNet).setSup w (.upgrading 1))
  | upgrade {k : Nat} : s.sups w = some (.upgrading k) → s.Alive →
      SupStep w s (s.setSup w (.building k .start))
  | exit {k : Nat} : s.sups w = some (.upgrading k) → ¬ s.Alive →
      SupStep w s (s.setSup w .exited)
  | build {k : Nat} {b : Build} {out : Except Error Connected} {p : Progress} {s₁ : State} :
      s.sups w = some (.building k b) → BuildStep w out s b p s₁ →
      SupStep w s (s₁.supAfter w k p)
  | slept {k : Nat} : s.sups w = some (.sleeping k) →
      SupStep w s (s.setSup w (.upgrading (min (k * 2) maxBackoff)))
  | woken {k : Nat} : s.sups w = some (.sleeping k) → (s.heap w).rebuild = true →
      SupStep w s ((s.setWorker w (s.heap w).takePermit).setSup w
        (.upgrading (min (k * 2) maxBackoff)))

/-! ## Control operations -/

/-- `Pool::new` after a step of its `build_tunnel`; a failure is only reported. -/
def State.newAfter (s : State) (c : Nat) (configs : List WarpConfig) (w : Ref) :
    Progress → State
  | .more b => s.setCall c (.newBuild configs w b)
  | .ok | .failed _ => s.setCall c (.newSpawn configs w)

/-- `add_account` after a step of its `build_tunnel`; a failure is returned. -/
def State.addAfter (s : State) (c : Nat) (id : WorkerId) (w : Ref)
    (connected : Except Error Connected) : Progress → State
  | .more b => s.setCall c (.addBuild id w b connected)
  | .ok => s.setCall c (.addSpawn id w)
  | .failed e => s.setCall c (.done (.error e))

/-- What the loop of `reconnect` does to the next worker. -/
def State.notifyIf (s : State) (id : WorkerId) (w : Ref) : State :=
  if id = 0 ∨ (s.heap w).id = id then s.setWorker w (s.heap w).notifyOne else s

/-- The workers `remove_account(id)` retains. -/
def State.retained (s : State) (id : WorkerId) : List Ref :=
  s.pool.workers.filter fun w => (s.heap w).id != id

def lastAccount : Error := .config "cannot remove the last account"

def noSuchAccount : Error := .config "no such account"

def noSuchAccountId (id : WorkerId) : Error := .config ("no such account " ++ toString id)

/-- One step of the call `c`, which is at `call`. -/
inductive CallStep (c : Nat) (s : State) : Call → State → Prop
  | newNext {config : WarpConfig} {configs : List WarpConfig} : s.locked = false →
      CallStep c s (.new (config :: configs))
        ({ s.push s.pool.nextId config with
            pool := (s.push s.pool.nextId config).pool.bumpId }.setCall c
          (.newBuild configs s.nextRef .start))
  | newBuild {configs : List WarpConfig} {w : Ref} {b : Build} {out : Except Error Connected}
      {p : Progress} {s₁ : State} : BuildStep w out s b p s₁ →
      CallStep c s (.newBuild configs w b) (s₁.newAfter c configs w p)
  | newSpawn {configs : List WarpConfig} {w : Ref} :
      CallStep c s (.newSpawn configs w) ((s.setSup w .top).setCall c (.new configs))
  | newDone :
      CallStep c s (.new []) ({ s with ready := true }.setCall c (.done (.ok none)))
  | select {id : WorkerId} :
      CallStep c s (.select id)
        ({ s with pool := { s.pool with pinned := id } }.setCall c (.done (.ok none)))
  | setEnabled {on : Bool} :
      CallStep c s (.setEnabled on)
        ({ s with pool := { s.pool with enabled := on } }.setCall c (.done (.ok none)))
  | setRotateInterval {secs : Nat} :
      CallStep c s (.setRotateInterval secs)
        ({ s with pool := { s.pool with rotateSecs := clampRotate secs } }.setCall c
          (.done (.ok none)))
  | setHttp2 {on : Bool} :
      CallStep c s (.setHttp2 on)
        ({ s with pool := { s.pool with http2 := on } }.setCall c (.reconnect true 0))
  | reconnect {stored : Bool} {id : WorkerId} : s.locked = false →
      CallStep c s (.reconnect stored id) (s.setCall c (.notifying stored id s.pool.workers))
  | notify {stored : Bool} {id : WorkerId} {w : Ref} {todo : List Ref} :
      CallStep c s (.notifying stored id (w :: todo))
        ((s.notifyIf id w).setCall c (.notifying stored id todo))
  | notified {stored : Bool} {id : WorkerId} :
      CallStep c s (.notifying stored id []) (s.setCall c (.done (.ok none)))
  | rotate {id : WorkerId} {registered : Except Error WarpConfig} : s.locked = false →
      CallStep c s (.rotate id registered) (s.setCall c (.rotatePick id registered s.pool.workers))
  | rotateNone {id : WorkerId} {registered : Except Error WarpConfig} {snap : List Ref} :
      s.rotateTarget snap id = none →
      CallStep c s (.rotatePick id registered snap) (s.setCall c (.done (.error noSuchAccount)))
  | rotatePick {id : WorkerId} {registered : Except Error WarpConfig} {snap : List Ref}
      {w : Ref} : s.rotateTarget snap id = some w →
      CallStep c s (.rotatePick id registered snap) (s.setCall c (.rotateRegister w registered))
  | rotateFailed {w : Ref} {e : Error} :
      CallStep c s (.rotateRegister w (.error e)) (s.setCall c (.done (.error e)))
  | rotateRegister {w : Ref} {fresh : WarpConfig} :
      CallStep c s (.rotateRegister w (.ok fresh)) (s.setCall c (.rotateStore w fresh))
  | rotateStore {w : Ref} {fresh : WarpConfig} :
      CallStep c s (.rotateStore w fresh)
        ((s.setWorker w ((s.heap w).setConfig fresh)).setCall c (.rotateNotify w))
  | rotateNotify {w : Ref} :
      CallStep c s (.rotateNotify w)
        ((s.setWorker w (s.heap w).notifyOne).setCall c (.done (.ok none)))
  | add {registered : Except Error WarpConfig} {connected : Except Error Connected} :
      CallStep c s (.add registered connected)
        ({ s with pool := s.pool.bumpId }.setCall c
          (.addRegister s.pool.nextId registered connected))
  | addFailed {id : WorkerId} {e : Error} {connected : Except Error Connected} :
      CallStep c s (.addRegister id (.error e) connected) (s.setCall c (.done (.error e)))
  | addRegister {id : WorkerId} {config : WarpConfig} {connected : Except Error Connected} :
      CallStep c s (.addRegister id (.ok config) connected)
        (s.setCall c (.addPush id config connected))
  | addPush {id : WorkerId} {config : WarpConfig} {connected : Except Error Connected} :
      s.locked = false →
      CallStep c s (.addPush id config connected)
        ((s.push id config).setCall c (.addBuild id s.nextRef .start connected))
  | addBuild {id : WorkerId} {w : Ref} {b : Build} {connected : Except Error Connected}
      {p : Progress} {s₁ : State} : BuildStep w connected s b p s₁ →
      CallStep c s (.addBuild id w b connected) (s₁.addAfter c id w connected p)
  | addSpawn {id : WorkerId} {w : Ref} :
      CallStep c s (.addSpawn id w)
        (((s.setSup w .top).spawnTrace w).setCall c (.done (.ok (some id))))
  | removeLast {id : WorkerId} : s.locked = false → s.pool.workers.length ≤ 1 →
      CallStep c s (.remove id) (s.setCall c (.done (.error lastAccount)))
  | removeNone {id : WorkerId} : s.locked = false → 1 < s.pool.workers.length →
      (s.retained id).length = s.pool.workers.length →
      CallStep c s (.remove id)
        ({ s with pool := { s.pool with workers := s.retained id } }.setCall c
          (.done (.error (noSuchAccountId id))))
  | remove {id : WorkerId} : s.locked = false → 1 < s.pool.workers.length →
      (s.retained id).length ≠ s.pool.workers.length →
      CallStep c s (.remove id)
        ({ s with pool := { s.pool with workers := s.retained id }, locked := true }.setCall c
          (.removePinned id))
  | removeKeep {id : WorkerId} : s.pool.pinned ≠ id →
      CallStep c s (.removePinned id)
        ({ s with locked := false }.setCall c (.done (.ok none)))
  | removePinned {id : WorkerId} : s.pool.pinned = id →
      CallStep c s (.removePinned id) (s.setCall c (.removeUnpin id))
  | removeUnpin {id : WorkerId} :
      CallStep c s (.removeUnpin id)
        ({ s with pool := { s.pool with pinned := 0 }, locked := false }.setCall c
          (.done (.ok none)))
  | refreshTrace {id : WorkerId} : s.locked = false →
      CallStep c s (.refreshTrace id) (s.setCall c (.refreshing id s.pool.workers))
  | refreshSkip {id : WorkerId} {w : Ref} {todo : List Ref} :
      (id ≠ 0 ∧ (s.heap w).id ≠ id) ∨ (s.heap w).inner.net = none →
      CallStep c s (.refreshing id (w :: todo)) (s.setCall c (.refreshing id todo))
  | refresh {id : WorkerId} {w : Ref} {net : NetHandle} {todo : List Ref} :
      (id = 0 ∨ (s.heap w).id = id) → (s.heap w).inner.net = some net →
      CallStep c s (.refreshing id (w :: todo)) (s.setCall c (.refreshFetch id w net todo))
  | refreshed {id : WorkerId} {w : Ref} {net : NetHandle} {todo : List Ref}
      (info : TraceInfo) :
      CallStep c s (.refreshFetch id w net todo)
        ((s.setWorker w ((s.heap w).setTrace info net.build)).setCall c (.refreshing id todo))
  | refreshDone {id : WorkerId} :
      CallStep c s (.refreshing id []) (s.setCall c (.done (.ok none)))

/-! ## Background traces -/

/-- One step of the trace fetch `k`, which is at `t`. -/
inductive TraceStep (k : Nat) (s : State) : TraceTask → State → Prop
  | none {w : Ref} : (s.heap w).inner.net = none → TraceStep k s (.start w) (s.setTrace k .done)
  | fetch {w : Ref} {net : NetHandle} : (s.heap w).inner.net = some net →
      TraceStep k s (.start w) (s.setTrace k (.fetching w net))
  | store {w : Ref} {net : NetHandle} (info : TraceInfo) :
      TraceStep k s (.fetching w net)
        ((s.setWorker w ((s.heap w).setTrace info net.build)).setTrace k .done)

/-! ## The system -/

/-- Whose step it is. -/
inductive Label where
  | sup (w : Ref)
  | start (c : Nat) (op : Op)
  | call (c : Nat)
  | trace (k : Nat)
  | die (b : BuildId)
  | cloneHandle
  | dropHandle

/-- No control operation is under way. -/
def State.Idle (s : State) : Prop := ∀ c call, s.calls c = some call → ∃ r, call = .done r

inductive Step (s : State) : Label → State → Prop
  | sup {w : Ref} {t : State} : SupStep w s t → Step s (.sup w) t
  | start (op : Op) : s.ready = true → 0 < s.handles →
      Step s (.start s.nextCall op)
        { s.setCall s.nextCall op.begin with nextCall := s.nextCall + 1 }
  | call {c : Nat} {call : Call} {t : State} : s.calls c = some call → CallStep c s call t →
      Step s (.call c) t
  | trace {k : Nat} {task : TraceTask} {t : State} : s.traces k = some task →
      TraceStep k s task t → Step s (.trace k) t
  | die {b : BuildId} : b < s.nextBuild →
      Step s (.die b) { s with deadWatch := Function.update s.deadWatch b true }
  /-- also the upgrade of the rotator's `Weak` -/
  | cloneHandle : s.Alive → Step s .cloneHandle { s with handles := s.handles + 1 }
  | dropHandle : 0 < s.handles → 1 < s.handles ∨ s.Idle →
      Step s .dropHandle { s with handles := s.handles - 1 }

/-- `Pool::new(configs, http2)` is being called. -/
def Init (s : State) : Prop := ∃ configs http2 blank, s = .init configs http2 blank

abbrev Reachable (s : State) : Prop := Transition.Reachable Step Init s

end WarpProxy.Pool
