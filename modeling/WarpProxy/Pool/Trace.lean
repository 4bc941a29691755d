/-
# `WarpProxy.Pool.Trace` — how old a trace is

A fetch takes its time, and `set_trace` stores what it gives without asking through
which netstack it came.  Builds are numbered as they are installed, so a trace is
older than another of the same worker if its build is.

    what a step does to the trace of a worker        (`Step.via`)
    what a step does to the fetches under way        (`Step.fetching`)
    a trace is stored through its fetch's netstack   (`Fetching.stored`)

Nothing keeps a fetch through an older netstack from ending last.  As long as none is
under way when a fetch of the same worker ends (`InOrder`), no trace gives way to an
older one; and where one is, the next step may be its end.
-/
import WarpProxy.Pool.Ids
import WarpProxy.Pool.Tended

namespace WarpProxy.Pool

open Transition

/-- Through which netstack the trace of the worker came. -/
def viaOf (x : Worker) : Option BuildId := x.inner.traceVia

def State.via (s : State) (w : Ref) : Option BuildId := viaOf (s.heap w)

/-- The task of the label is fetching a trace of `w` through the netstack of the build. -/
inductive Fetching (s : State) : Label → Ref → BuildId → Prop
  | spawned {k : Nat} {w : Ref} {net : NetHandle} : s.traces k = some (.fetching w net) →
      Fetching s (.trace k) w net.build
  | refresh {c : Nat} {id : WorkerId} {w : Ref} {net : NetHandle} {todo : List Ref} :
      s.calls c = some (.refreshFetch id w net todo) → Fetching s (.call c) w net.build

/-- The workers whose netstack a `refresh_trace` has still to look up. -/
def Call.toFetch : Call → List Ref
  | .refreshing _ todo | .refreshFetch _ _ _ todo => todo
  | _ => []

/-- Some task is going to look up the netstack of the worker. -/
def ToFetch (s : State) (w : Ref) : Prop :=
  (∃ k, s.traces k = some (.start w)) ∨ ∃ c call, s.calls c = some call ∧ w ∈ call.toFetch

/-- A fetch ends only when none of the same worker through an older netstack is under way. -/
def InOrder (s : State) (l : Label) : Prop :=
  ∀ w b, Fetching s l w b → ∀ l' b', Fetching s l' w b' → b ≤ b'

/-- No worker shows a trace that came through an older netstack than before. -/
def NoOlder (s t : State) : Prop :=
  ∀ w, w < s.nextRef → ∀ b, s.via w = some b → ∃ b', t.via w = some b' ∧ b ≤ b'

section
variable {s t : State} {l : Label} {w : Ref} {b : BuildId}

theorem NoOlder.refl (s : State) : NoOlder s s := fun _ _ b hb => ⟨b, hb, Nat.le_refl b⟩

theorem NoOlder.trans {u : State} (h : NoOlder s t) (h' : NoOlder t u)
    (hnext : s.nextRef ≤ t.nextRef) : NoOlder s u := by
  intro w hw b hb
  obtain ⟨b', hb', hle⟩ := h w hw b hb
  obtain ⟨b'', hb'', hle'⟩ := h' w (Nat.lt_of_lt_of_le hw hnext) b' hb'
  exact ⟨b'', hb'', Nat.le_trans hle hle'⟩

/-- A task fetches one trace at a time. -/
theorem Fetching.unique {w' : Ref} {b' : BuildId} (h : Fetching s l w b)
    (h' : Fetching s l w' b') : w' = w ∧ b' = b := by
  cases h with
  | spawned hk =>
      cases h' with
      | spawned hk' =>
          cases hk.symm.trans hk'
          exact ⟨rfl, rfl⟩
  | refresh hc =>
      cases h' with
      | refresh hc' =>
          cases hc.symm.trans hc'
          exact ⟨rfl, rfl⟩

/-! ## The trace of a worker -/

/-- Nothing happens to the trace of `v`. -/
def SameVia (s t : State) (v : Ref) : Prop := t.via v = s.via v ∧ (v < t.nextRef → v < s.nextRef)

theorem SameVia.of_eq {v : Ref} (hheap : t.heap = s.heap) (hnext : t.nextRef = s.nextRef) :
    SameVia s t v := by
  refine ⟨?_, fun hv => hnext ▸ hv⟩
  rw [State.via, hheap]
  rfl

/-- A worker is written and keeps its trace. -/
theorem SameVia.of_heap {v : Ref} {x : Worker} (hheap : t.heap = Function.update s.heap w x)
    (hx : viaOf x = viaOf (s.heap w)) (hnext : t.nextRef = s.nextRef) : SameVia s t v := by
  have hpart : viaOf ((s.setWorker w x).heap v) = viaOf (s.heap v) :=
    State.heap_setWorker_part s v viaOf hx
  refine ⟨?_, fun hv => hnext ▸ hv⟩
  rw [State.via, hheap]
  exact hpart

/-- Storing a trace is writing to one worker. -/
theorem setTrace_via (info : TraceInfo)
    (hheap : t.heap = Function.update s.heap w ((s.heap w).setTrace info b))
    (hnext : t.nextRef = s.nextRef) (v : Ref) :
    SameVia s t v ∨ (v = w ∧ t.via v = some b) := by
  by_cases hv : v = w
  · subst hv
    refine .inr ⟨rfl, ?_⟩
    rw [State.via, hheap]
    exact congrArg viaOf (State.heap_setWorker_self ..)
  · refine .inl ⟨?_, fun hlt => hnext ▸ hlt⟩
    rw [State.via, hheap]
    exact congrArg viaOf (Function.update_of_ne hv ..)

/-- A new worker has no trace. -/
theorem push_via {id : WorkerId} {config : WarpConfig}
    (hheap : t.heap = (s.push id config).heap) (hnext : t.nextRef = s.nextRef + 1) (v : Ref) :
    SameVia s t v ∨ (v = s.nextRef ∧ t.via v = none) := by
  by_cases hv : v = s.nextRef
  · subst hv
    refine .inr ⟨rfl, ?_⟩
    rw [State.via, hheap]
    exact congrArg viaOf (State.heap_setWorker_self ..)
  · refine .inl ⟨?_, fun hlt => ?_⟩
    · rw [State.via, hheap]
      exact congrArg viaOf (State.heap_setWorker_ne s _ hv)
    · rw [hnext] at hlt
      exact Nat.lt_of_le_of_ne (Nat.le_of_lt_succ hlt) hv

theorem BuildStep.via {out : Except Error Connected} {x : Build} {p : Progress}
    (h : BuildStep w out s x p t) (v : Ref) : SameVia s t v := by
  cases h with
  | connected => exact .of_heap rfl (by rfl) rfl
  | _ => exact .of_eq rfl rfl

theorem SupStep.via (h : SupStep w s t) (v : Ref) : SameVia s t v := by
  cases h with
  | notified | woken | clear => exact .of_heap rfl (by rfl) rfl
  | @build k x out p s₁ _ hb =>
      have hsame := hb.via v
      cases p <;> exact hsame
  | _ => exact .of_eq rfl rfl

theorem CallStep.via {c : Nat} {call : Call} (h : CallStep c s call t)
    (hc : s.calls c = some call) (v : Ref) :
    SameVia s t v ∨ (v = s.nextRef ∧ t.via v = none) ∨
      ∃ b, Fetching s (.call c) v b ∧ t.via v = some b := by
  cases h with
  | newNext | addPush => exact (push_via rfl rfl v).imp_right .inl
  | @newBuild configs w x out p s₁ hb | @addBuild id w x out p s₁ hb =>
      have hsame := hb.via v
      cases p <;> exact .inl hsame
  | @notify stored id w todo =>
      have hsame : SameVia s (s.notifyIf id w) v := by
        rw [State.notifyIf]
        split
        · exact .of_heap rfl (by rfl) rfl
        · exact .of_eq rfl rfl
      exact .inl hsame
  | rotateStore | rotateNotify => exact .inl (.of_heap rfl (by rfl) rfl)
  | @refreshed id w net todo info =>
      refine Or.imp_right ?_
        (setTrace_via (w := w) (b := net.build) info (by rfl) (by rfl) v)
      rintro ⟨rfl, hvia⟩
      exact .inr ⟨net.build, .refresh hc, hvia⟩
  | _ => exact .inl (.of_eq rfl rfl)

/-- **One step** leaves the trace of a worker, or makes the worker, or ends a fetch of it. -/
theorem Step.via (h : Step s l t) (v : Ref) :
    SameVia s t v ∨ (v = s.nextRef ∧ t.via v = none) ∨
      ∃ b, Fetching s l v b ∧ t.via v = some b := by
  cases h with
  | sup hs => exact .inl (hs.via v)
  | call hc hs => exact hs.via hc v
  | trace hk hs =>
      cases hs with
      | @store w net info =>
          refine Or.imp_right ?_
            (setTrace_via (w := w) (b := net.build) info (by rfl) (by rfl) v)
          rintro ⟨rfl, hvia⟩
          exact .inr ⟨net.build, .spawned hk, hvia⟩
      | _ => exact .inl (.of_eq rfl rfl)
  | _ => exact .inl (.of_eq rfl rfl)

/-! ## The fetches under way -/

theorem spawnTrace_traces (s : State) {w : Ref} {k : Nat} {x : TraceTask}
    (hx : (s.spawnTrace w).traces k = some x) : s.traces k = some x ∨ x = .start w := by
  by_cases hk : k = s.nextTrace
  · subst hk
    have hself : (s.spawnTrace w).traces s.nextTrace = some (.start w) := Function.update_self ..
    exact .inr (Option.some.inj (hx.symm.trans hself))
  · exact .inl ((Function.update_of_ne hk ..).symm.trans hx)

theorem BuildStep.traces {out : Except Error Connected} {x : Build} {p : Progress}
    (h : BuildStep w out s x p t) : t.traces = s.traces := by
  cases h <;> rfl

/-- A supervisor starts a fetch of its own worker, after a build. -/
theorem SupStep.traces (h : SupStep w s t) {k : Nat} {x : TraceTask} (hx : t.traces k = some x) :
    s.traces k = some x ∨ (x = .start w ∧ s.stage w none ≠ none) := by
  cases h with
  | @build k' x' out p s₁ hq hb =>
      have hsame := hb.traces
      cases p with
      | ok =>
          refine (spawnTrace_traces _ hx).imp (fun hx => ?_) fun hstart => ⟨hstart, ?_⟩
          · rw [← hsame]
            exact hx
          · rw [State.stage, hq]
            exact Option.some_ne_none _
      | _ => exact .inl (hsame ▸ hx)
  | _ => exact .inl hx

theorem CallStep.traces {c : Nat} {call : Call} (h : CallStep c s call t)
    (hc : s.calls c = some call) {k : Nat} {x : TraceTask} (hx : t.traces k = some x) :
    s.traces k = some x ∨ ∃ v, x = .start v ∧ s.stage v (some c) ≠ none := by
  cases h with
  | @newBuild configs w x' out p s₁ hb | @addBuild id w x' out p s₁ hb =>
      have hsame := hb.traces
      cases p <;> exact .inl (hsame ▸ hx)
  | @addSpawn id w =>
      refine (spawnTrace_traces _ hx).imp_right fun hstart => ⟨w, hstart, ?_⟩
      simp [State.stage, hc, Call.stage]
  | @notify stored id w todo =>
      have hsame : (s.notifyIf id w).traces = s.traces := by
        rw [State.notifyIf]
        split <;> rfl
      exact .inl (hsame ▸ hx)
  | _ => exact .inl hx

/-- Where a task of `spawn_trace` has come from. -/
theorem Step.traces (h : Step s l t) (hi : Inv s) {k : Nat} {x : TraceTask}
    (hx : t.traces k = some x) :
    s.traces k = some x ∨ (∃ v, x = .start v ∧ v < s.nextRef) ∨ x = .done ∨
      (l = .trace k ∧ ∃ w net, x = .fetching w net ∧ s.traces k = some (.start w) ∧
        s.net w = some net) := by
  have hlt : ∀ {v o}, s.stage v o ≠ none → v < s.nextRef := by
    intro v o hne
    obtain ⟨st, hst⟩ := Option.ne_none_iff_exists'.mp hne
    exact (hi.worker v).lt hst
  cases h with
  | @sup w _ hs =>
      refine (hs.traces hx).imp_right fun hstart => .inl ⟨w, hstart.1, hlt hstart.2⟩
  | call hc hs =>
      refine (hs.traces hc hx).imp_right fun hstart => .inl ?_
      obtain ⟨v, rfl, hstage⟩ := hstart
      exact ⟨v, rfl, hlt hstage⟩
  | @trace k' task _ hk hs =>
      have hmove : ∀ {new : TraceTask}, t.traces = Function.update s.traces k' (some new) →
          s.traces k = some x ∨ (k = k' ∧ x = new) := by
        intro new htraces
        rw [htraces] at hx
        by_cases heq : k = k'
        · subst heq
          rw [Function.update_self, Option.some.injEq] at hx
          exact .inr ⟨rfl, hx.symm⟩
        · rw [Function.update_of_ne heq] at hx
          exact .inl hx
      cases hs with
      | none _ | store => exact (hmove rfl).imp_right fun h => .inr (.inl h.2)
      | fetch hnet =>
          refine (hmove rfl).imp_right ?_
          rintro ⟨rfl, rfl⟩
          exact .inr (.inr ⟨rfl, _, _, rfl, hk, hnet⟩)
  | _ => exact .inl hx

/-- What a call may be after a step of it: it fetches what it has looked up, and what it is still
to look up it was to before, or it has just taken its snapshot. -/
structure Next (s : State) (call new : Call) : Prop where
  fetch : ∀ id w net todo, new = .refreshFetch id w net todo →
    call = .refreshing id (w :: todo) ∧ s.net w = some net
  look : ∀ w ∈ new.toFetch, w ∈ call.toFetch ∨ w ∈ s.pool.workers

theorem Next.of_none {call new : Call} (hlook : new.toFetch = [])
    (hfetch : ∀ id w net todo, new ≠ .refreshFetch id w net todo) : Next s call new where
  fetch id w net todo h := absurd h (hfetch id w net todo)
  look w hw := by
    rw [hlook] at hw
    exact absurd hw List.not_mem_nil

theorem CallStep.next {c : Nat} {call : Call} (h : CallStep c s call t) :
    ∃ new, t.calls = Function.update s.calls c (some new) ∧ Next s call new := by
  cases h with
  | @newBuild configs w x' out p s₁ hb | @addBuild id w x' out p s₁ hb =>
      obtain ⟨-, hcalls, -, -, -⟩ := hb.frame
      cases p
      all_goals
        exact ⟨_, congrArg (Function.update · c _) hcalls, .of_none rfl (by simp)⟩
  | @notify stored id w todo =>
      have hcalls : (s.notifyIf id w).calls = s.calls := by
        rw [State.notifyIf]
        split <;> rfl
      exact ⟨_, congrArg (Function.update · c _) hcalls, .of_none rfl (by simp)⟩
  | refreshTrace => exact ⟨_, rfl, ⟨by simp, fun w hw => .inr hw⟩⟩
  | refreshSkip _ => exact ⟨_, rfl, ⟨by simp, fun w hw => .inl (List.mem_cons_of_mem _ hw)⟩⟩
  | refreshed => exact ⟨_, rfl, ⟨by simp, fun w hw => .inl hw⟩⟩
  | refresh _ hnet =>
      refine ⟨_, rfl, ⟨fun _ _ _ _ h => ?_, fun w hw => .inl (List.mem_cons_of_mem _ hw)⟩⟩
      cases h
      exact ⟨rfl, hnet⟩
  | _ => exact ⟨_, rfl, .of_none rfl (by simp)⟩

/-- Where a call has come from. -/
theorem Step.calls (h : Step s l t) {c : Nat} {new : Call} (hnew : t.calls c = some new) :
    s.calls c = some new ∨ (∃ op : Op, new = op.begin) ∨
      (l = .call c ∧ ∃ call, s.calls c = some call ∧ Next s call new) := by
  cases h with
  | sup hs =>
      rw [hs.frame.2.1] at hnew
      exact .inl hnew
  | trace _ hs =>
      rw [hs.frame.2.1] at hnew
      exact .inl hnew
  | start op _ _ =>
      rcases calls_of_update (c := s.nextCall) rfl hnew with ⟨-, rfl⟩ | ⟨-, hold⟩
      · exact .inr (.inl ⟨op, rfl⟩)
      · exact .inl hold
  | @call c' call _ hc hs =>
      obtain ⟨new', hcalls, hnext⟩ := hs.next
      rcases calls_of_update hcalls hnew with ⟨rfl, rfl⟩ | ⟨-, hold⟩
      · exact .inr (.inr ⟨rfl, call, hc, hnext⟩)
      · exact .inl hold
  | _ => exact .inl hnew

/-- **One step** leaves a fetch under way, or begins it through the netstack of the worker. -/
theorem Step.fetching {l' : Label} (h : Step s l t) (hi : Inv s) (hf : Fetching t l' w b) :
    Fetching s l' w b ∨ (l' = l ∧ ToFetch s w ∧ (∃ net, s.net w = some net ∧ net.build = b) ∧
      ∀ v b, ¬ Fetching s l v b) := by
  cases hf with
  | @spawned k _ net hk =>
      rcases h.traces hi hk with hold | ⟨v, hstart, -⟩ | hdone | ⟨rfl, w', net', heq, hstart, hnet⟩
      · exact .inl (.spawned hold)
      · cases hstart
      · cases hdone
      · cases heq
        refine .inr ⟨rfl, .inl ⟨k, hstart⟩, ⟨net, hnet, rfl⟩, fun v b hf => ?_⟩
        cases hf with
        | spawned hk' => cases hstart.symm.trans hk'
  | @refresh c id _ net todo hc =>
      rcases h.calls hc with hold | ⟨op, hop⟩ | ⟨rfl, call, hcall, hnext⟩
      · exact .inl (.refresh hold)
      · cases op <;> cases hop
      · obtain ⟨rfl, hnet⟩ := hnext.fetch id w net todo rfl
        refine .inr ⟨rfl, .inr ⟨c, _, hcall, List.mem_cons_self⟩, ⟨net, hnet, rfl⟩,
          fun v b hf => ?_⟩
        cases hf with
        | refresh hc' => cases hcall.symm.trans hc'

theorem Step.toFetch (h : Step s l t) (hi : Inv s) (hw : ToFetch t w) :
    ToFetch s w ∨ w < s.nextRef := by
  rcases hw with ⟨k, hk⟩ | ⟨c, call, hc, hmem⟩
  · rcases h.traces hi hk with hold | ⟨v, hstart, hlt⟩ | hdone | ⟨-, w', net, heq, -, -⟩
    · exact .inl (.inl ⟨k, hold⟩)
    · cases hstart
      exact .inr hlt
    · cases hdone
    · cases heq
  · rcases h.calls hc with hold | ⟨op, rfl⟩ | ⟨-, call', hcall, hnext⟩
    · exact .inl (.inr ⟨c, call, hold, hmem⟩)
    · have hnone : op.begin.toFetch = [] := by cases op <;> rfl
      rw [hnone] at hmem
      exact absurd hmem List.not_mem_nil
    · exact (hnext.look w hmem).imp (fun hmem => .inr ⟨c, call', hcall, hmem⟩) (hi.pooled_lt w)

/-! ## A fetch that ends -/

/-- The trace is stored, and the other fetches go on. -/
theorem Fetching.stored (hf : Fetching s l w b) (h : Step s l t) :
    t.via w = some b ∧ t.nextRef = s.nextRef ∧
      ∀ l' w' b', l' ≠ l → Fetching s l' w' b' → Fetching t l' w' b' := by
  cases hf with
  | @spawned k _ net hk =>
      cases h with
      | trace hk' hs =>
          cases hk.symm.trans hk'
          cases hs with
          | store info =>
              refine ⟨congrArg viaOf (State.heap_setWorker_self ..), rfl, ?_⟩
              rintro l' w' b' hne (@⟨k', _, _, hk''⟩ | hc)
              · have hk' : k' ≠ k := fun heq => hne (congrArg Label.trace heq)
                exact .spawned ((Function.update_of_ne hk' ..).trans hk'')
              · exact .refresh hc
  | @refresh c id _ net todo hc =>
      cases h with
      | call hc' hs =>
          cases hc.symm.trans hc'
          cases hs with
          | refreshed info =>
              refine ⟨congrArg viaOf (State.heap_setWorker_self ..), rfl, ?_⟩
              rintro l' w' b' hne (hk | @⟨c', _, _, _, _, hc''⟩)
              · exact .spawned hk
              · have hc' : c' ≠ c := fun heq => hne (congrArg Label.call heq)
                exact .refresh ((Function.update_of_ne hc' ..).trans hc'')

/-- A fetch may end at any time. -/
theorem Fetching.ends (hf : Fetching s l w b) : ∃ t, Step s l t := by
  let info : TraceInfo := ⟨"", "", "", some "trace timeout"⟩
  cases hf with
  | spawned hk => exact ⟨_, .trace hk (.store info)⟩
  | refresh hc => exact ⟨_, .call hc (.refreshed info)⟩

/-! ## What holds -/

/-- A trace of the worker has come through the netstack, or is coming. -/
def Known (s : State) (w : Ref) (b : BuildId) : Prop := s.via w = some b ∨ ∃ l, Fetching s l w b

structure TraceInv (s : State) : Prop where
  toFetch : ∀ w, ToFetch s w → w < s.nextRef
  fetching : ∀ l w b, Fetching s l w b → w < s.nextRef
  known : ∀ w b, w < s.nextRef → Known s w b →
    b < s.nextBuild ∧ ∀ n, s.net w = some n → b ≤ n.build
  fresh : ∀ w b, w < s.nextRef → s.via w = some b → ∀ l b', Fetching s l w b' → b ≤ b'

theorem Step.nextRef_le (h : Step s l t) : s.nextRef ≤ t.nextRef := by
  cases h with
  | sup hs => exact Nat.le_of_eq hs.frame.2.2.1.symm
  | trace _ hs => exact Nat.le_of_eq hs.frame.2.2.1.symm
  | start | die | cloneHandle | dropHandle => exact Nat.le_refl _
  | call hc hs =>
      cases hs.membership with
      | still hsame => exact Nat.le_of_eq hsame.nextRef.symm
      | made hp | pushed hp => exact hp.nextRef ▸ Nat.le_succ _
      | drew ht | removed _ _ ht => rw [ht]; exact Nat.le_refl _

/-- A finished build is newer than all before. -/
theorem Finishes.newest {r : Connected} (h : Finishes s l t w r) {n : NetHandle}
    (hn : t.net w = some n) : n.build = s.nextBuild ∧ s.nextBuild < t.nextBuild := by
  have hbuilt : ∀ config tr died, t.link w = (s.install w config tr r died).link w →
      n.build = s.nextBuild := by
    intro config tr died hlink
    rw [install_link] at hlink
    have hnet : t.net w = some (s.built config tr r).spawnNet := congrArg Prod.fst hlink
    obtain rfl := Option.some.inj (hnet.symm.trans hn)
    rfl
  cases h with
  | @sup _ k config tr _ died _ | @new c configs _ config tr _ died _
  | @add c id _ config tr _ died _ =>
      exact ⟨hbuilt config tr died rfl, Nat.lt_succ_self _⟩

/-- A trace that is known after a step was before, or comes through the netstack of the
worker. -/
theorem Step.known (h : Step s l t) (hi : Inv s) (ht : TraceInv s) (hw : w < t.nextRef)
    (hk : Known t w b) :
    w < s.nextRef ∧ (Known s w b ∨ ∃ net, s.net w = some net ∧ net.build = b) := by
  rcases hk with hvia | ⟨l', hf⟩
  · rcases h.via w with ⟨hsame, hlt⟩ | ⟨-, hnone⟩ | ⟨b', hf, hvia'⟩
    · exact ⟨hlt hw, .inl (.inl (hsame ▸ hvia))⟩
    · rw [hnone] at hvia
      cases hvia
    · obtain rfl := Option.some.inj (hvia'.symm.trans hvia)
      exact ⟨ht.fetching _ _ _ hf, .inl (.inr ⟨l, hf⟩)⟩
  · rcases h.fetching hi hf with hf | ⟨-, hlook, hnet, -⟩
    · exact ⟨ht.fetching _ _ _ hf, .inl (.inr ⟨l', hf⟩)⟩
    · exact ⟨ht.toFetch w hlook, .inr hnet⟩

/-- **One step**, with nothing older under way when it ends a fetch. -/
theorem TraceInv.step (ht : TraceInv s) (h : Step s l t) (hr : Reachable s)
    (hok : InOrder s l) : TraceInv t := by
  have hi := Reachable.inv hr
  refine ⟨fun w hw => ?_, fun l' w b hf => ?_, fun w b hw hk => ?_, fun w b hw hvia l' b' hf => ?_⟩
  · refine Nat.lt_of_lt_of_le ?_ h.nextRef_le
    exact (h.toFetch hi hw).elim (ht.toFetch w) id
  · refine Nat.lt_of_lt_of_le ?_ h.nextRef_le
    rcases h.fetching hi hf with hf | ⟨-, hlook, -, -⟩
    · exact ht.fetching _ _ _ hf
    · exact ht.toFetch w hlook
  · obtain ⟨hold, hbefore⟩ := h.known hi ht hw hk
    have hborn : b < s.nextBuild := by
      rcases hbefore with hk | ⟨net, hnet, rfl⟩
      · exact (ht.known w b hold hk).1
      · exact (hr.tended w hold net hnet).born
    refine ⟨Nat.lt_of_lt_of_le hborn h.nextBuild_le, fun n hn => ?_⟩
    rcases h.link w with hsame | hnone | ⟨r, hfin⟩
    · rw [hsame.net] at hn
      rcases hbefore with hk | ⟨net, hnet, rfl⟩
      · exact (ht.known w b hold hk).2 n hn
      · rw [Option.some.inj (hnet.symm.trans hn)]
    · rw [hnone] at hn
      cases hn
    · rw [(hfin.newest hn).1]
      exact Nat.le_of_lt hborn
  · obtain ⟨hold, -⟩ := h.known hi ht hw (.inl hvia)
    rcases h.via w with ⟨hsame, -⟩ | ⟨-, hnone⟩ | ⟨b₀, hf₀, hvia₀⟩
    · rw [hsame] at hvia
      rcases h.fetching hi hf with hf | ⟨-, -, ⟨net, hnet, rfl⟩, -⟩
      · exact ht.fresh w b hold hvia l' b' hf
      · exact (ht.known w b hold (.inl hvia)).2 net hnet
    · rw [hnone] at hvia
      cases hvia
    · obtain rfl := Option.some.inj (hvia₀.symm.trans hvia)
      rcases h.fetching hi hf with hf | ⟨-, -, -, hidle⟩
      · exact hok w b₀ hf₀ l' b' hf
      · exact absurd hf₀ (hidle w b₀)

theorem Init.traceInv (h : Init s) : TraceInv s := by
  obtain ⟨configs, http2, blank, rfl⟩ := h
  have hzero : ∀ {w : Ref}, ¬ w < (State.init configs http2 blank).nextRef :=
    Nat.not_lt_zero _
  have hcall : ∀ {c call}, (State.init configs http2 blank).calls c = some call →
      call = .new configs := by
    intro c call hc
    rcases Decidable.em (c = 0) with rfl | hne
    · exact (Option.some.inj hc).symm
    · simp only [State.init, Function.update_of_ne hne] at hc
      cases hc
  refine ⟨?_, ?_, fun w b hw => absurd hw hzero, fun w b hw => absurd hw hzero⟩
  · rintro w (⟨k, hk⟩ | ⟨c, call, hc, hmem⟩)
    · cases hk
    · rw [hcall hc] at hmem
      exact absurd hmem List.not_mem_nil
  · rintro l w b (hk | hc)
    · cases hk
    · cases hcall hc

/-- In every run in which the fetches of a worker end in order. -/
theorem ordered_traceInv (h : Transition.Reachable (guarded Step InOrder) Init s) :
    Reachable s ∧ TraceInv s := by
  refine Transition.Reachable.invariant (fun s => Reachable s ∧ TraceInv s) h ?_ ?_
  · exact fun s hs => ⟨.init hs, hs.traceInv⟩
  · rintro s l t ⟨hr, ht⟩ ⟨hstep, hok⟩
    exact ⟨hr.tail hstep, ht.step hstep hr hok⟩

/-- Where nothing is known through an older netstack, no step shows an older trace. -/
theorem TraceInv.noOlder (ht : TraceInv s) (h : Step s l t) : NoOlder s t := by
  intro w hw b hb
  rcases h.via w with ⟨hsame, -⟩ | ⟨rfl, -⟩ | ⟨b', hf, hvia⟩
  · exact ⟨b, hsame.trans hb, Nat.le_refl b⟩
  · exact absurd hw (Nat.lt_irrefl _)
  · exact ⟨b', hvia, ht.fresh w b hw hb l b' hf⟩

/-- **Traces are as fresh as their fetches end in order.**  In every run in which a fetch ends
only when none of the same worker through an older netstack is under way, no worker ever shows
a trace that came through an older netstack than one it has shown.  After such a run, the
condition is exact: a step meets it if and only if no step after it shows an older trace. -/
theorem trace_freshness (h : Transition.Reachable (guarded Step InOrder) Init s) :
    (∀ ls t, Run (guarded Step InOrder) s ls t → NoOlder s t) ∧
    ∀ l t, Step s l t → (InOrder s l ↔ ∀ l' u, Step t l' u → NoOlder t u) := by
  obtain ⟨hr, ht⟩ := ordered_traceInv h
  constructor
  · intro ls t hrun
    refine (hrun.invariant (fun t => (Reachable t ∧ TraceInv t) ∧ NoOlder s t ∧
      s.nextRef ≤ t.nextRef) ⟨⟨hr, ht⟩, .refl s, Nat.le_refl _⟩ ?_).2.1
    rintro u l v - ⟨⟨hru, hu⟩, hold, hle⟩ ⟨hstep, hok⟩
    exact ⟨⟨hru.tail hstep, hu.step hstep hru hok⟩, hold.trans (hu.noOlder hstep) hle,
      Nat.le_trans hle hstep.nextRef_le⟩
  · intro l t hstep
    constructor
    · intro hok l' u hnext
      exact (ht.step hstep hr hok).noOlder hnext
    · intro hall w b hf l' b' hf'
      by_contra hlt
      obtain ⟨hvia, hnextRef, hothers⟩ := hf.stored hstep
      have hne : l' ≠ l := by
        rintro rfl
        exact hlt (Nat.le_of_eq (hf.unique hf').2.symm)
      -- the older fetch is still under way, and ends next
      have hlate := hothers l' w b' hne hf'
      obtain ⟨u, hnext⟩ := hlate.ends
      have hw : w < t.nextRef := hnextRef ▸ ht.fetching l w b hf
      obtain ⟨b'', hvia', hle⟩ := hall l' u hnext w hw b hvia
      have heq : b'' = b' := Option.some.inj (hvia'.symm.trans (hlate.stored hnext).1)
      exact hlt (heq ▸ hle)

/-! ## One account -/

theorem InOrder.of_idle (h : ∀ w b, ¬ Fetching s l w b) : InOrder s l :=
  fun w b hf => absurd hf (h w b)

theorem inOrder_sup (s : State) (w : Ref) : InOrder s (.sup w) := by
  rintro v b ⟨⟩

theorem inOrder_start (s : State) (c : Nat) (op : Op) : InOrder s (.start c op) := by
  rintro v b ⟨⟩

theorem inOrder_die (s : State) (b : BuildId) : InOrder s (.die b) := by
  rintro v b' ⟨⟩

theorem inOrder_call {c : Nat} {call : Call} (hc : s.calls c = some call)
    (hcall : ∀ id w net todo, call ≠ .refreshFetch id w net todo) : InOrder s (.call c) := by
  refine .of_idle fun w b hf => ?_
  cases hf with
  | refresh hc' => exact hcall _ _ _ _ (Option.some.inj (hc.symm.trans hc'))

theorem inOrder_trace {k : Nat} (hk : s.traces k = some (.start w)) : InOrder s (.trace k) := by
  refine .of_idle fun w b hf => ?_
  cases hf with
  | spawned hk' => cases hk.symm.trans hk'

/-- One connected account, waited for, and no other task than the call `c`. -/
structure Alone (s : State) (c : Nat) : Prop where
  handles : 0 < s.handles
  waiting : s.sups 0 = some (.waiting 0)
  nextRef : s.nextRef = 1
  nextBuild : s.nextBuild = 1
  done : ∀ c' call, s.calls c' = some call → c' ≠ c → ∃ r, call = .done r
  traces : ∀ k, s.traces k = none

/-- `refresh_trace` is fetching through the first netstack. -/
theorem exists_refreshing : ∃ s net, Transition.Reachable (guarded Step InOrder) Init s ∧
    Alone s 1 ∧ s.calls 1 = some (.refreshFetch 0 0 net []) ∧ net.build = 0 := by
  let out : Except Error Connected := .ok ⟨200, 0, none⟩
  have h₀ : Transition.Reachable (guarded Step InOrder) Init
      (.init [.blank] false (.new 0 .blank)) := .init ⟨_, _, _, rfl⟩
  have h₁ := h₀.tail ⟨.call (c := 0) rfl (.newNext rfl), inOrder_call rfl (by simp)⟩
  have h₂ := h₁.tail ⟨.call (c := 0) rfl
    (.newBuild (show BuildStep 0 out _ _ _ _ from .config _)), inOrder_call rfl (by simp)⟩
  have h₃ := h₂.tail ⟨.call (c := 0) rfl
    (.newBuild (show BuildStep 0 out _ _ _ _ from .transport _ _)), inOrder_call rfl (by simp)⟩
  have h₄ := h₃.tail ⟨.call (c := 0) rfl
    (.newBuild (show BuildStep 0 out _ _ _ _ from .connected _ _ _ false rfl)),
    inOrder_call rfl (by simp)⟩
  have h₅ := h₄.tail ⟨.call (c := 0) rfl .newSpawn, inOrder_call rfl (by simp)⟩
  have h₆ := h₅.tail ⟨.call (c := 0) rfl .newDone, inOrder_call rfl (by simp)⟩
  have h₇ := h₆.tail ⟨.sup (w := 0) (.up (b := 0) rfl rfl), inOrder_sup _ _⟩
  have h₈ := h₇.tail ⟨.start (.refreshTrace 0) rfl Nat.one_pos, inOrder_start _ _ _⟩
  have h₉ := h₈.tail ⟨.call (c := 1) rfl (.refreshTrace rfl),
    @inOrder_call _ 1 (.refreshTrace 0) rfl (by simp)⟩
  have h₁₀ := h₉.tail ⟨.call (c := 1) rfl (.refresh (.inl rfl) rfl), inOrder_call rfl (by simp)⟩
  have hi : Inv _ := Reachable.inv h₁₀.unguarded
  refine ⟨_, _, h₁₀, ⟨Nat.one_pos, rfl, rfl, rfl, fun c call hc hne => ?_, fun _ => rfl⟩, rfl, rfl⟩
  have hlt : c < 2 := hi.call_lt hc
  obtain rfl : c = 0 := by omega
  exact ⟨_, (Option.some.inj hc).symm⟩

/-- The tunnel dies, and the next one is built. -/
theorem Alone.reconnects {c : Nat} (ha : Alone s c) : ∃ ls t net,
    Run (guarded Step InOrder) s ls t ∧ t.traces = (s.setTrace s.nextTrace (.start 0)).traces ∧
      t.net 0 = some net ∧ net.build = 1 ∧ t.calls = s.calls ∧ t.via 0 = s.via 0 := by
  let out : Except Error Connected := .ok ⟨200, 0, none⟩
  have h₀ : Run (guarded Step InOrder) s _ _ := .refl s
  have hborn : 0 < s.nextBuild := by rw [ha.nextBuild]; exact Nat.one_pos
  have h₁ := h₀.tail ⟨.die (b := 0) hborn, inOrder_die _ _⟩
  have h₂ := h₁.tail ⟨.sup (w := 0) (.dead ha.waiting rfl), inOrder_sup _ _⟩
  have h₃ := h₂.tail ⟨.sup (w := 0) (.clear rfl), inOrder_sup _ _⟩
  have h₄ := h₃.tail ⟨.sup (w := 0) (.upgrade rfl (.inl ha.handles)), inOrder_sup _ _⟩
  have h₅ := h₄.tail ⟨.sup (w := 0) (.build rfl (show BuildStep 0 out _ _ _ _ from .config _)),
    inOrder_sup _ _⟩
  have h₆ := h₅.tail ⟨.sup (w := 0)
    (.build rfl (show BuildStep 0 out _ _ _ _ from .transport _ _)), inOrder_sup _ _⟩
  have h₇ := h₆.tail ⟨.sup (w := 0)
    (.build rfl (show BuildStep 0 out _ _ _ _ from .connected _ _ _ false rfl)), inOrder_sup _ _⟩
  exact ⟨_, _, _, h₇, rfl, rfl, ha.nextBuild, rfl, rfl⟩

/-- And a fetch through it begins. -/
theorem Alone.rebuilds {c : Nat} (ha : Alone s c) : ∃ ls t k net,
    Run (guarded Step InOrder) s ls t ∧ t.traces k = some (.fetching 0 net) ∧ net.build = 1 ∧
      t.calls = s.calls ∧ t.via 0 = s.via 0 ∧ ∀ k', k' ≠ k → t.traces k' = none := by
  obtain ⟨ls, t, net, hrun, htraces, hnet, hbuild, hcalls, hvia⟩ := ha.reconnects
  have hstart : t.traces s.nextTrace = some (.start 0) := by
    rw [htraces]
    exact Function.update_self ..
  refine ⟨_, _, s.nextTrace, net, hrun.tail ⟨.trace hstart (.fetch hnet), inOrder_trace hstart⟩,
    Function.update_self .., hbuild, hcalls, hvia, fun k hk => ?_⟩
  refine (Function.update_of_ne hk ..).trans ?_
  rw [htraces]
  exact (Function.update_of_ne hk ..).trans (ha.traces k)

theorem fetching_refresh {c : Nat} {id : WorkerId} {net : NetHandle} {todo : List Ref}
    (hc : s.calls c = some (.refreshFetch id w net todo)) (hb : net.build = b) :
    Fetching s (.call c) w b := hb ▸ .refresh hc

theorem fetching_spawned {k : Nat} {net : NetHandle} (hk : s.traces k = some (.fetching w net))
    (hb : net.build = b) : Fetching s (.trace k) w b := hb ▸ .spawned hk

/-- A trace through the first netstack, then a rebuild, then one through the second. -/
theorem trace_freshness_rotated : ∃ s t : State, s.via 0 = some 0 ∧ t.via 0 = some 1 ∧
    NoOlder s t := by
  let info : TraceInfo := ⟨"", "", "", none⟩
  obtain ⟨r, net, h₀, ha, hcall, hbuild⟩ := exists_refreshing
  have hf := fetching_refresh hcall hbuild
  have hfirst : InOrder r (.call 1) := fun w b hb _ _ _ => (hf.unique hb).2 ▸ Nat.zero_le _
  obtain ⟨s, hs⟩ : ∃ s, s = (r.setWorker 0 ((r.heap 0).setTrace info net.build)).setCall 1
    (.refreshing 0 []) := ⟨_, rfl⟩
  have hstep : Step r (.call 1) s := hs ▸ .call hcall (.refreshed info)
  have h₁ := h₀.tail ⟨hstep, hfirst⟩
  have hdone : ∀ c call, s.calls c = some call → c ≠ 1 → ∃ r, call = .done r := by
    rw [hs]
    exact fun c call hc hne =>
      ha.done c call ((State.calls_setCall_ne _ _ hne).symm.trans hc) hne
  have ha₁ : Alone s 1 := by
    refine ⟨?_, ?_, ?_, ?_, hdone, ?_⟩
    all_goals rw [hs]
    · exact ha.handles
    · exact ha.waiting
    · exact ha.nextRef
    · exact ha.nextBuild
    · exact ha.traces
  obtain ⟨ls, t, k, net', hrun, htrace, hnext, hcalls, -, hothers⟩ := ha₁.rebuilds
  have hf' := fetching_spawned htrace hnext
  obtain ⟨u, hu⟩ := hf'.ends
  have hone : s.calls 1 = some (.refreshing 0 []) := by
    rw [hs]
    exact State.calls_setCall_self ..
  have hsecond : InOrder t (.trace k) := by
    intro w b hb l' b' hb'
    obtain ⟨rfl, rfl⟩ := hf'.unique hb
    cases hb' with
    | @spawned k' _ net'' hk' =>
        by_cases hk : k' = k
        · subst hk
          exact Nat.le_of_eq (hf'.unique (.spawned hk')).2.symm
        · rw [hothers k' hk] at hk'
          cases hk'
    | @refresh c _ _ _ _ hc =>
        rw [hcalls] at hc
        by_cases hcc : c = 1
        · subst hcc
          cases hone.symm.trans hc
        · obtain ⟨out, hout⟩ := hdone c _ hc hcc
          cases hout
  exact ⟨s, u, (hf.stored hstep).1, (hf'.stored hu).1,
    (trace_freshness h₁).1 _ u (hrun.tail ⟨hu, hsecond⟩)⟩

/-- The fetch of `refresh_trace` ends after that through the next netstack. -/
theorem trace_goes_back : ¬ ∀ s l t, Reachable s → Step s l t → NoOlder s t := by
  intro hnoOlder
  obtain ⟨r, net, h₀, ha, hcall, hbuild⟩ := exists_refreshing
  obtain ⟨ls, s, k, net', hrun, htrace, hnext, hcalls, -, -⟩ := ha.rebuilds
  have h₁ : Transition.Reachable (guarded Step InOrder) Init s :=
    hrun.invariant _ h₀ fun _ _ _ _ h hs => h.tail hs
  obtain ⟨hr, hi⟩ := ordered_traceInv h₁
  have hold : Fetching s (.call 1) 0 0 := fetching_refresh (hcalls ▸ hcall) hbuild
  have hnew := fetching_spawned htrace hnext
  obtain ⟨t, ht⟩ := hnew.ends
  obtain ⟨hvia, hnextRef, hothers⟩ := hnew.stored ht
  have hlate : Fetching t (.call 1) 0 0 := hothers _ _ _ (by simp) hold
  obtain ⟨u, hu⟩ := hlate.ends
  have hlt : 0 < t.nextRef := hnextRef ▸ hi.fetching _ _ _ hnew
  obtain ⟨b, hb, hle⟩ := hnoOlder t _ u (hr.tail ht) hu 0 hlt 1 hvia
  rw [(hlate.stored hu).1, Option.some.injEq] at hb
  exact absurd hle (hb ▸ by decide)

end

end WarpProxy.Pool
