/-
# `WarpProxy.Pool.State` — the account pool and the tasks that share it

The records of `pool.rs` (`Worker`, `WorkerInner`, `Pool`) and, around them, the
state of everything that runs concurrently on them: one supervisor task per
worker, the control operations in progress, the trace fetches in the background.

An `Arc<Worker>` is an index into `heap`; a `Notify` is its permit; a tunnel is
named by the build that made it, and so are its netstack handle and the watch
channel that signals its death.  `Tunnel.config` and `Tunnel.transport` record
what the build read; nothing in the program looks at them.

A task is a program counter with its local variables.  Each value of `Sup`,
`Build` and `Call` stands just before one access to shared state, so that every
interleaving of these accesses is a run of `WarpProxy.Pool.Step`.
-/
import Mathlib.Algebra.Group.Nat.Defs
import Mathlib.Logic.Function.Basic
import WarpProxy.Types

namespace WarpProxy

/-- A `usize` account id; 0 stands for "auto" or "all". -/
abbrev WorkerId := Nat

/-- Which `Arc<Worker>`. -/
abbrev Ref := Nat

/-- Which successful `build_tunnel`. -/
abbrev BuildId := Nat

/-- What `Tunnel::connect_with` returns, and what its build had read. -/
structure Tunnel where
  build : BuildId
  status : UInt16
  assignedV4 : Ipv4Addr
  assignedV6 : Option Ipv6Addr
  config : WarpConfig
  transport : Transport
  deriving DecidableEq

/-- The handle `netstack::spawn` returns: the tunnel whose I/O half it runs on, and the
addresses it was given. -/
structure NetHandle where
  build : BuildId
  v4 : Ipv4Addr
  v6 : Option Ipv6Addr
  deriving DecidableEq

/-- `netstack::spawn(tunnel.io(), v4, tunnel.assigned_v6())` -/
def Tunnel.spawnNet (t : Tunnel) : NetHandle := ⟨t.build, t.assignedV4, t.assignedV6⟩

/-- `dead` holds the watch receiver of a build; `traceVia` records through which netstack
the trace was obtained. -/
structure WorkerInner where
  config : WarpConfig
  net : Option NetHandle
  tunnel : Option Tunnel
  dead : Option BuildId
  assignedV4 : Ipv4Addr
  trace : Option TraceInfo
  traceVia : Option BuildId

/-- `rebuild` is the permit of the `Notify`: at most one is kept. -/
structure Worker where
  id : WorkerId
  rebuild : Bool
  inner : WorkerInner

/-! ## Operations on a worker, each under its lock -/

def Worker.new (id : WorkerId) (config : WarpConfig) : Worker where
  id := id
  rebuild := false
  inner :=
    { config := config, net := none, tunnel := none, dead := none,
      assignedV4 := 0, trace := none, traceVia := none }

def Worker.clearNet (w : Worker) : Worker :=
  { w with inner := { w.inner with net := none, dead := none } }

def Worker.setTrace (w : Worker) (info : TraceInfo) (via : BuildId) : Worker :=
  { w with inner := { w.inner with trace := some info, traceVia := some via } }

/-- The critical section at the end of `build_tunnel`. -/
def Worker.install (w : Worker) (t : Tunnel) : Worker :=
  { w with inner := { w.inner with
      tunnel := some t, net := some t.spawnNet, assignedV4 := t.assignedV4,
      dead := some t.build } }

/-- The store of `rotate`. -/
def Worker.setConfig (w : Worker) (fresh : WarpConfig) : Worker :=
  { w with inner := { w.inner with config := fresh } }

def Worker.notifyOne (w : Worker) : Worker := { w with rebuild := true }

/-- A `notified().await` that completes takes the permit. -/
def Worker.takePermit (w : Worker) : Worker := { w with rebuild := false }

/-! ## The pool -/

structure Pool where
  workers : List Ref
  enabled : Bool
  pinned : WorkerId
  http2 : Bool
  rr : UInt64
  nextId : WorkerId
  rotateSecs : Nat
  deviceName : String
  deriving DecidableEq

namespace Pool

/-- The pool `Pool::new` starts from. -/
def empty (http2 : Bool) : Pool where
  workers := []
  enabled := true
  pinned := 0
  http2 := http2
  rr := 0
  nextId := 1
  rotateSecs := 0
  deviceName := "warp-proxy"

/-- The transport the next build uses. -/
def transport (p : Pool) : Transport := if p.http2 then .http2 else .http3

/-- `next_id.fetch_add(1)` on a 64-bit `usize`: the pool after it. -/
def bumpId (p : Pool) : Pool := { p with nextId := (p.nextId + 1) % 2 ^ 64 }

def minRotateSecs : Nat := 60

/-- The value `set_rotate_interval` stores. -/
def clampRotate (secs : Nat) : Nat := if secs = 0 then 0 else max secs minRotateSecs

/-! ## Tasks -/

/-- Inside `build_tunnel`: before the config is cloned, before the transport is read,
awaiting `connect_with`. -/
inductive Build where
  | start
  | haveConfig (config : WarpConfig)
  | connecting (config : WarpConfig) (transport : Transport)

/-- The supervisor of a worker.  `backoff` is in seconds. -/
inductive Sup where
  /-- before `w.dead_signal()` -/
  | top
  /-- in the first select, holding the watch receiver of a build -/
  | waiting (dead : BuildId)
  /-- before `w.clear_net()` -/
  | clearing
  /-- before `weak.upgrade()` -/
  | upgrading (backoff : Nat)
  /-- inside `build_tunnel`, holding the upgraded `Arc<Pool>` -/
  | building (backoff : Nat) (b : Build)
  /-- in the second select -/
  | sleeping (backoff : Nat)
  | exited

def maxBackoff : Nat := 30

/-- What connecting gives besides its identity. -/
structure Connected where
  status : UInt16
  assignedV4 : Ipv4Addr
  assignedV6 : Option Ipv6Addr
  deriving DecidableEq

/-- A control operation as it is called, with the outcomes its awaits will have. -/
inductive Op where
  | select (id : WorkerId)
  | setEnabled (on : Bool)
  | setRotateInterval (secs : Nat)
  | reconnect (id : WorkerId)
  | setHttp2 (on : Bool)
  | rotate (id : WorkerId) (registered : Except Error WarpConfig)
  | addAccount (registered : Except Error WarpConfig) (connected : Except Error Connected)
  | removeAccount (id : WorkerId)
  | refreshTrace (id : WorkerId)

/-- What a finished operation returned; `add_account` returns the id. -/
abbrev Outcome := Except Error (Option WorkerId)

/-- A control operation in progress. -/
inductive Call where
  /-- `Pool::new`: the configs to come -/
  | new (configs : List WarpConfig)
  | newBuild (configs : List WarpConfig) (w : Ref) (b : Build)
  | newSpawn (configs : List WarpConfig) (w : Ref)
  | select (id : WorkerId)
  | setEnabled (on : Bool)
  | setRotateInterval (secs : Nat)
  /-- `set_http2` before its store -/
  | setHttp2 (on : Bool)
  /-- `reconnect` before its snapshot; `stored` when it is the one `set_http2` runs -/
  | reconnect (stored : Bool) (id : WorkerId)
  /-- the notify loop -/
  | notifying (stored : Bool) (id : WorkerId) (todo : List Ref)
  | rotate (id : WorkerId) (registered : Except Error WarpConfig)
  /-- `rotate` with its snapshot, before it reads the pin -/
  | rotatePick (id : WorkerId) (registered : Except Error WarpConfig) (snap : List Ref)
  | rotateRegister (w : Ref) (registered : Except Error WarpConfig)
  | rotateStore (w : Ref) (fresh : WarpConfig)
  | rotateNotify (w : Ref)
  | add (registered : Except Error WarpConfig) (connected : Except Error Connected)
  | addRegister (id : WorkerId) (registered : Except Error WarpConfig)
      (connected : Except Error Connected)
  | addPush (id : WorkerId) (config : WarpConfig) (connected : Except Error Connected)
  | addBuild (id : WorkerId) (w : Ref) (b : Build) (connected : Except Error Connected)
  | addSpawn (id : WorkerId) (w : Ref)
  | remove (id : WorkerId)
  /-- `remove_account` holding the workers lock, before it reads and before it clears the pin -/
  | removePinned (id : WorkerId)
  | removeUnpin (id : WorkerId)
  | refreshTrace (id : WorkerId)
  | refreshing (id : WorkerId) (todo : List Ref)
  | refreshFetch (id : WorkerId) (w : Ref) (net : NetHandle) (todo : List Ref)
  | done (r : Outcome)

/-- Where a call to a control operation begins. -/
def Op.begin : Op → Call
  | .select id => .select id
  | .setEnabled on => .setEnabled on
  | .setRotateInterval secs => .setRotateInterval secs
  | .reconnect id => .reconnect false id
  | .setHttp2 on => .setHttp2 on
  | .rotate id registered => .rotate id registered
  | .addAccount registered connected => .add registered connected
  | .removeAccount id => .remove id
  | .refreshTrace id => .refreshTrace id

/-- A trace fetch started by `spawn_trace`. -/
inductive TraceTask where
  | start (w : Ref)
  | fetching (w : Ref) (net : NetHandle)
  | done

/-- The pool and all tasks.  `locked` is held by a `remove_account` in progress; `ready`
once `Pool::new` has returned; `handles` counts the `Arc<Pool>` outside the supervisors. -/
structure State where
  pool : Pool
  heap : Ref → Worker
  nextRef : Ref
  nextBuild : BuildId
  deadWatch : BuildId → Bool
  sups : Ref → Option Sup
  calls : Nat → Option Call
  nextCall : Nat
  traces : Nat → Option TraceTask
  nextTrace : Nat
  locked : Bool
  ready : Bool
  handles : Nat

/-- The state in which `Pool::new(configs, http2)` is called. -/
def State.init (configs : List WarpConfig) (http2 : Bool) (blank : Worker) : State where
  pool := .empty http2
  heap := fun _ => blank
  nextRef := 0
  nextBuild := 0
  deadWatch := fun _ => false
  sups := fun _ => none
  calls := Function.update (fun _ => none) 0 (some (.new configs))
  nextCall := 1
  traces := fun _ => none
  nextTrace := 0
  locked := false
  ready := false
  handles := 1

namespace State

def setWorker (s : State) (w : Ref) (x : Worker) : State :=
  { s with heap := Function.update s.heap w x }

def setSup (s : State) (w : Ref) (p : Sup) : State :=
  { s with sups := Function.update s.sups w (some p) }

def setCall (s : State) (c : Nat) (call : Call) : State :=
  { s with calls := Function.update s.calls c (some call) }

def setTrace (s : State) (k : Nat) (t : TraceTask) : State :=
  { s with traces := Function.update s.traces k (some t) }

/-- `Worker::new` and `workers.push`. -/
def push (s : State) (id : WorkerId) (config : WarpConfig) : State :=
  { s.setWorker s.nextRef (.new id config) with
    nextRef := s.nextRef + 1
    pool := { s.pool with workers := s.pool.workers ++ [s.nextRef] } }

/-- The end of a successful `build_tunnel`: the netstack is spawned and everything is
installed under the worker's lock.  `died` if the transport has gone meanwhile. -/
def install (s : State) (w : Ref) (config : WarpConfig) (transport : Transport)
    (r : Connected) (died : Bool) : State :=
  { s.setWorker w ((s.heap w).install
      ⟨s.nextBuild, r.status, r.assignedV4, r.assignedV6, config, transport⟩) with
    nextBuild := s.nextBuild + 1
    deadWatch := Function.update s.deadWatch s.nextBuild died }

def spawnTrace (s : State) (w : Ref) : State :=
  { s.setTrace s.nextTrace (.start w) with nextTrace := s.nextTrace + 1 }

/-- Some strong `Arc<Pool>` is left: a handle outside, or a supervisor's upgraded one. -/
def Alive (s : State) : Prop :=
  0 < s.handles ∨ ∃ w k b, s.sups w = some (.building k b)

/-- The worker `rotate` is about: the one with this id or, for 0, the pinned or first one. -/
def rotateTarget (s : State) (snap : List Ref) (id : WorkerId) : Option Ref :=
  if id ≠ 0 then snap.find? fun w => (s.heap w).id == id
  else (snap.find? fun w => (s.heap w).id == s.pool.pinned).or snap.head?

end State

end Pool

end WarpProxy
