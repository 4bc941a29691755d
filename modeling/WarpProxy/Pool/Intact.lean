/-
# `WarpProxy.Pool.Intact` — what a failed control operation leaves behind

`add_account`, `rotate` and `remove_account`, each run with no other control
operation interleaved (`Returns`), from any reachable state, while supervisors,
trace fetches and tunnels do what they like.  When such an operation returns an
error the pool is as it was (`Intact`), with one exception: `add_account` pushes
the worker before it builds the tunnel, and gives up without spawning the
supervisor when the build fails.

    the other tasks change nothing of what is compared        (`Step.quiet`)
    intact  ⟺  not an `add_account` whose build failed        (`failed_intact_iff`)
-/
import WarpProxy.Control.Handle
import WarpProxy.Pool.Settled

namespace WarpProxy.Pool

/-! ## The statement -/

/-- The worker has a supervisor, and it has not exited. -/
def State.Running (s : State) (w : Ref) : Prop := ∃ p, s.sups w = some p ∧ p ≠ .exited

/-- Only `next_id` may differ, and no pooled worker is left without a running supervisor that
was not so before. -/
structure Intact (s t : State) : Prop where
  pool : { t.pool with nextId := s.pool.nextId } = s.pool
  config : ∀ w ∈ s.pool.workers, (t.heap w).inner.config = (s.heap w).inner.config
  running : ∀ w ∈ t.pool.workers, t.Running w ∨ (w ∈ s.pool.workers ∧ ¬ s.Running w)

/-- The steps of the call `c` until it returns, and of everything that is no control
operation. -/
def Solo (c : Nat) (s : State) (l : Label) : Prop :=
  (∀ r, s.calls c ≠ some (.done r)) ∧
    match l with
    | .call c' => c' = c
    | .start _ _ => False
    | _ => True

/-- Called in `s` with no other control operation interleaved, `op` returns `r` in `t`. -/
def Returns (s : State) (op : Op) (r : Outcome) (t : State) : Prop :=
  ∃ s₁ ls, Step s (.start s.nextCall op) s₁ ∧
    Transition.Run (Transition.guarded Step (Solo s.nextCall)) s₁ ls t ∧
    t.calls s.nextCall = some (.done r)

/-- The operations whose failures are compared. -/
def Op.Account : Op → Prop
  | .addAccount _ _ | .rotate _ _ | .removeAccount _ => True
  | _ => False

/-- An `add_account` that registers, and whose tunnel is not established. -/
def Op.BuildFails : Op → Prop
  | .addAccount (.ok _) (.error _) => True
  | _ => False

/-- What `route` returns once its operation has; `body` is the status then. -/
def routed (body : List Char) : Outcome → Except (List Char) (List Char)
  | .ok _ => .ok body
  | .error e => .error e.display.toList

/-- What `handle` answers to the request that has called it. -/
def answer (path query body : List Char) (r : Outcome) : Control.Response :=
  Control.respond (fun _ _ => routed body r) (.route path query)

/-! ## The other tasks -/

/-- Nothing that is compared, and nothing of the calls, changes. -/
structure Quiet (s t : State) : Prop where
  pool : t.pool = s.pool
  config : ∀ w, (t.heap w).inner.config = (s.heap w).inner.config
  calls : t.calls = s.calls
  bare : ∀ w, s.sups w = none → t.sups w = none
  running : ∀ w, s.Running w → t.Running w
  handles : 0 < s.handles → 0 < t.handles

section
variable {s t u : State}

theorem BuildStep.config_eq {w : Ref} {out : Except Error Connected} {b : Build} {p : Progress}
    (h : BuildStep w out s b p t) (v : Ref) :
    (t.heap v).inner.config = (s.heap v).inner.config := by
  cases h with
  | connected s config tr died _ => exact State.heap_setWorker_part s v (·.inner.config) rfl
  | _ => rfl

theorem setWorker_config {w : Ref} {x : Worker} (hx : x.inner.config = (s.heap w).inner.config)
    (v : Ref) : ((s.setWorker w x).heap v).inner.config = (s.heap v).inner.config :=
  State.heap_setWorker_part s v (·.inner.config) hx

/-- A supervisor that moves on, other than by exiting. -/
theorem setSup_running {w : Ref} {p : Sup} (hp : p ≠ .exited) (v : Ref) (h : s.Running v) :
    (s.setSup w p).Running v := by
  by_cases hv : v = w
  · subst hv; exact ⟨p, Function.update_self .., hp⟩
  · obtain ⟨q, hq, hne⟩ := h
    exact ⟨q, (Function.update_of_ne hv ..).trans hq, hne⟩

theorem setSup_bare {w : Ref} {p q : Sup} (hq : s.sups w = some q) (v : Ref)
    (h : s.sups v = none) : (s.setSup w p).sups v = none := by
  by_cases hv : v = w
  · subst hv; rw [hq] at h; cases h
  · exact (Function.update_of_ne hv ..).trans h

theorem SupStep.quiet {w : Ref} (h : SupStep w s t) (hh : 0 < s.handles) : Quiet s t := by
  have mk : ∀ {u : State} {p q : Sup}, s.sups w = some q → p ≠ .exited → u.pool = s.pool →
      (∀ v, (u.heap v).inner.config = (s.heap v).inner.config) → u.calls = s.calls →
      u.sups = s.sups → u.handles = s.handles → Quiet s (u.setSup w p) := by
    intro u p q hq hp hpool hconfig hcalls hsups hhandles
    refine ⟨hpool, hconfig, hcalls, fun v hv => ?_, fun v hv => ?_, fun h => ?_⟩
    · exact setSup_bare (s := u) ((congrFun hsups w).trans hq) v ((congrFun hsups v).trans hv)
    · obtain ⟨p', hp', hne⟩ := hv
      exact setSup_running (s := u) hp v ⟨p', (congrFun hsups v).trans hp', hne⟩
    · exact hhandles.symm ▸ h
  cases h with
  | up hq _ | down hq _ | dead hq _ | upgrade hq _ | slept hq =>
      exact mk hq (fun h => nomatch h) rfl (fun _ => rfl) rfl rfl rfl
  | notified hq _ | clear hq | woken hq _ =>
      exact mk hq (fun h => nomatch h) rfl (setWorker_config rfl) rfl rfl rfl
  | exit hq hdead => exact absurd (.inl hh) hdead
  | @build k b out p s₁ hq hb =>
      obtain ⟨hsups, hcalls, hpool, -, -⟩ := hb.frame
      have hhandles : s₁.handles = s.handles := by cases hb <;> rfl
      cases p with
      | more b' =>
          exact mk hq (fun h => nomatch h) hpool hb.config_eq hcalls hsups hhandles
      | ok =>
          have hmk : Quiet s (s₁.setSup w .top) :=
            mk hq (fun h => nomatch h) hpool hb.config_eq hcalls hsups hhandles
          exact ⟨hmk.pool, hmk.config, hmk.calls, hmk.bare, hmk.running, hmk.handles⟩
      | failed e =>
          exact mk hq (fun h => nomatch h) hpool hb.config_eq hcalls hsups hhandles

/-- A step that is not the call's own is quiet for as long as the call runs. -/
theorem Step.quiet {l : Label} {c : Nat} (h : Step s l t) (hsolo : Solo c s l)
    (hl : l ≠ .call c) {call : Call} (hc : s.calls c = some call) (hh : 0 < s.handles) :
    Quiet s t := by
  cases h with
  | sup hs => exact hs.quiet hh
  | start op _ _ => exact hsolo.2.elim
  | call _ _ => exact absurd (congrArg Label.call hsolo.2) hl
  | trace _ hs =>
      cases hs with
      | store info =>
          exact ⟨rfl, setWorker_config rfl, rfl, fun _ h => h, fun _ h => h, fun h => h⟩
      | _ => exact ⟨rfl, fun _ => rfl, rfl, fun _ h => h, fun _ h => h, fun h => h⟩
  | die _ => exact ⟨rfl, fun _ => rfl, rfl, fun _ h => h, fun _ h => h, fun h => h⟩
  | cloneHandle _ =>
      exact ⟨rfl, fun _ => rfl, rfl, fun _ h => h, fun _ h => h, fun _ => Nat.succ_pos _⟩
  | dropHandle _ hlast =>
      refine ⟨rfl, fun _ => rfl, rfl, fun _ h => h, fun _ h => h, fun _ => ?_⟩
      rcases hlast with hlast | hidle
      · exact Nat.sub_pos_of_lt hlast
      · obtain ⟨r, rfl⟩ := hidle c call hc
        exact absurd hc (hsolo.1 r)

end

/-! ## The call's own steps -/

/-- The call has pushed `w` and `w` has no supervisor. -/
structure Half (s u : State) (w : Ref) : Prop where
  workers : u.pool.workers = s.pool.workers ++ [w]
  new : w ∉ s.pool.workers
  bare : u.sups w = none

/-- What holds of `s`, in which `op` was called, and of the state `u` in which it has come to a
call state.  No error is returned from where nothing is said. -/
def Phase (s : State) (op : Op) (u : State) : Call → Prop
  | .rotate _ _ | .rotatePick _ _ _ | .rotateRegister _ _ | .remove _ =>
      Intact s u ∧ ¬ op.BuildFails
  | .add registered connected | .addRegister _ registered connected =>
      Intact s u ∧ op = .addAccount registered connected
  | .addPush _ config connected => Intact s u ∧ op = .addAccount (.ok config) connected
  | .addBuild _ w _ connected =>
      Half s u w ∧ ∃ config, op = .addAccount (.ok config) connected
  | .done (.error _) => (Intact s u ∧ ¬ op.BuildFails) ∨ ((∃ w, Half s u w) ∧ op.BuildFails)
  | .rotateStore _ _ | .rotateNotify _ | .addSpawn _ _ | .removePinned _ | .removeUnpin _
  | .done (.ok _) => True
  | _ => False

section
variable {s t u : State} {op : Op} {c : Nat} {call : Call}

theorem Intact.refl (s : State) : Intact s s := by
  refine ⟨rfl, fun _ _ => rfl, fun w hw => ?_⟩
  by_cases hrun : s.Running w
  · exact .inl hrun
  · exact .inr ⟨hw, hrun⟩

theorem Intact.workers (h : Intact s t) : t.pool.workers = s.pool.workers := by
  have hworkers := congrArg Pool.workers h.pool
  exact hworkers

/-- Half an account is not as before. -/
theorem Half.not_intact {w : Ref} (h : Half s u w) : ¬ Intact s u := by
  intro hi
  have hw : w ∈ u.pool.workers := by
    rw [h.workers]
    exact List.mem_append_right _ (List.mem_singleton_self w)
  rcases hi.running w hw with ⟨p, hp, -⟩ | ⟨hmem, -⟩
  · rw [h.bare] at hp; cases hp
  · exact h.new hmem

theorem Intact.quiet (h : Intact s t) (hq : Quiet t u) : Intact s u := by
  refine ⟨hq.pool.symm ▸ h.pool, fun w hw => (hq.config w).trans (h.config w hw), ?_⟩
  intro w hw
  rw [hq.pool] at hw
  rcases h.running w hw with hrun | hrun
  · exact .inl (hq.running w hrun)
  · exact .inr hrun

theorem Half.quiet {w : Ref} (h : Half s t w) (hq : Quiet t u) : Half s u w :=
  ⟨(congrArg Pool.workers hq.pool).trans h.workers, h.new, hq.bare w h.bare⟩

theorem Phase.quiet (hq : Quiet t u) : ∀ {call : Call}, Phase s op t call → Phase s op u call
  | .rotate _ _, h | .rotatePick _ _ _, h | .rotateRegister _ _, h | .remove _, h
  | .add _ _, h | .addRegister _ _ _, h | .addPush _ _ _, h => ⟨h.1.quiet hq, h.2⟩
  | .addBuild _ _ _ _, h => ⟨h.1.quiet hq, h.2⟩
  | .done (.error _), .inl h => .inl ⟨h.1.quiet hq, h.2⟩
  | .done (.error _), .inr ⟨⟨w, h⟩, hop⟩ => .inr ⟨⟨w, h.quiet hq⟩, hop⟩
  | .rotateStore _ _, h | .rotateNotify _, h | .addSpawn _ _, h | .removePinned _, h
  | .removeUnpin _, h | .done (.ok _), h => h

/-- Where the call is next, and what holds there. -/
theorem CallStep.phase (h : CallStep c t call u) (hi : Inv t) (hp : Phase s op t call) :
    ∃ call', u.calls c = some call' ∧ Phase s op u call' := by
  have goes : ∀ {v : State} {new : Call}, Phase s op (v.setCall c new) new →
      ∃ call', (v.setCall c new).calls c = some call' ∧ Phase s op (v.setCall c new) call' :=
    fun h => ⟨_, State.calls_setCall_self .., h⟩
  -- `t` and the state after differ in the calls only
  have same : Intact s t → ∀ {new : Call}, Intact s (t.setCall c new) :=
    fun h => ⟨h.pool, h.config, h.running⟩
  cases h with
  | rotate _ | rotatePick _ => exact goes ⟨same hp.1, hp.2⟩
  | rotateNone _ | rotateFailed | removeLast _ _ => exact goes (.inl ⟨same hp.1, hp.2⟩)
  | rotateRegister | rotateStore | rotateNotify | remove _ _ _ | removeKeep _ | removePinned _
  | removeUnpin | addSpawn => exact goes trivial
  | add => exact goes ⟨⟨hp.1.pool, hp.1.config, hp.1.running⟩, hp.2⟩
  | addFailed =>
      refine goes (.inl ⟨same hp.1, ?_⟩)
      rw [hp.2]
      exact id
  | addRegister => exact goes ⟨same hp.1, hp.2⟩
  | @addPush id config connected _ =>
      have hworkers : t.pool.workers = s.pool.workers := hp.1.workers
      refine goes ⟨⟨?_, ?_, ?_⟩, config, hp.2⟩
      · show t.pool.workers ++ [t.nextRef] = _
        rw [hworkers]
      · rw [← hworkers]
        exact fun hmem => Nat.lt_irrefl _ (hi.pooled_lt _ hmem)
      · show t.sups t.nextRef = none
        cases hs : t.sups t.nextRef with
        | none => rfl
        | some p =>
            have hst : t.stage t.nextRef none = some p.stage := by
              simp only [State.stage, hs, Option.map_some]
            exact absurd ((hi.worker _).lt hst) (Nat.lt_irrefl _)
  | @addBuild id w b connected p s₁ hb =>
      obtain ⟨hhalf, config, rfl⟩ := hp
      obtain ⟨hsups, -, hpool, -, -⟩ := hb.frame
      have hhalf₁ : ∀ {new : Call}, Half s (s₁.setCall c new) w :=
        ⟨(congrArg Pool.workers hpool).trans hhalf.workers, hhalf.new,
          (congrFun hsups w).trans hhalf.bare⟩
      cases hb with
      | config | transport => exact goes ⟨hhalf₁, config, rfl⟩
      | badKey _ _ hout | refused _ _ _ hout =>
          subst hout
          exact goes (.inr ⟨⟨w, hhalf₁⟩, trivial⟩)
      | connected => exact goes trivial
  | @removeNone id _ _ hlen =>
      have hsame : t.retained id = t.pool.workers := List.filter_eq_self.mpr
        (List.length_filter_eq_length_iff.mp hlen)
      rw [hsame]
      exact goes (.inl ⟨same hp.1, hp.2⟩)
  | _ => exact hp.elim

/-- What holds while the call runs alone. -/
structure Under (s : State) (op : Op) (u : State) : Prop where
  inv : Inv u
  handles : 0 < u.handles
  phase : ∃ call, u.calls s.nextCall = some call ∧ Phase s op u call

theorem CallStep.handles (h : CallStep c t call u) : u.handles = t.handles := by
  cases h with
  | @notify _ id w _ => rw [State.notifyIf]; split <;> rfl
  | @newBuild _ _ _ _ p _ hb | @addBuild _ _ _ _ p _ hb => cases hb <;> rfl
  | _ => rfl

theorem Under.step {l : Label} (h : Under s op t)
    (hs : Transition.guarded Step (Solo s.nextCall) t l u) : Under s op u := by
  obtain ⟨hstep, hsolo⟩ := hs
  obtain ⟨call, hc, hp⟩ := h.phase
  by_cases hl : l = .call s.nextCall
  · subst hl
    have hinv := hstep.inv h.inv
    cases hstep with
    | call hc' hcs =>
        rw [hc, Option.some.injEq] at hc'
        subst hc'
        exact ⟨hinv, hcs.handles.symm ▸ h.handles, hcs.phase h.inv hp⟩
  · have hq := hstep.quiet hsolo hl hc h.handles
    exact ⟨hstep.inv h.inv, hq.handles h.handles, call,
      (congrFun hq.calls s.nextCall).trans hc, hp.quiet hq⟩

theorem Under.start (h : Reachable s) (hop : op.Account)
    (hs : Step s (.start s.nextCall op) u) : Under s op u := by
  have hinv := hs.inv h.inv
  cases hs with
  | start _ _ hh =>
      refine ⟨hinv, hh, op.begin, State.calls_setCall_self .., ?_⟩
      have hi : Intact s { s.setCall s.nextCall op.begin with nextCall := s.nextCall + 1 } := by
        have hr := Intact.refl s
        exact ⟨hr.pool, hr.config, hr.running⟩
      cases op with
      | addAccount | rotate | removeAccount => exact ⟨hi, by first | rfl | exact id⟩
      | _ => exact hop.elim

/-- The phase in which a call that ran alone has returned. -/
theorem Returns.phase {r : Outcome} (hret : Returns s op r t) (h : Reachable s)
    (hop : op.Account) : Phase s op t (.done r) := by
  obtain ⟨s₁, ls, hstart, hrun, hdone⟩ := hret
  have hunder : Under s op t :=
    hrun.invariant (Under s op) (.start h hop hstart) fun _ _ _ _ hu hs => hu.step hs
  obtain ⟨call, hc, hp⟩ := hunder.phase
  rw [hdone, Option.some.injEq] at hc
  subst hc
  exact hp

/-! ## The exception is reached from every pool in use -/

/-- A solo run goes on with a step of its call. -/
theorem solo_tail {ls : List Label} {v : State}
    (h : Transition.Run (Transition.guarded Step (Solo c)) s ls t) (hc : t.calls c = some call)
    (hs : CallStep c t call v) (hrun : ∀ r, call ≠ .done r) :
    Transition.Run (Transition.guarded Step (Solo c)) s (ls ++ [.call c]) v := by
  refine h.tail ⟨.call hc hs, fun r hr => ?_, rfl⟩
  rw [hc, Option.some.injEq] at hr
  exact hrun r hr

/-- With the workers lock free, `add_account` comes back with the error of a build that fails. -/
theorem add_returns (config : WarpConfig) (e : Error) (hready : s.ready = true)
    (hh : 0 < s.handles) (hl : s.locked = false) :
    ∃ t, Returns s (.addAccount (.ok config) (.error e)) (.error e) t := by
  have hself : ∀ (u : State) (call : Call),
      (u.setCall s.nextCall call).calls s.nextCall = some call :=
    fun u call => State.calls_setCall_self ..
  have h₀ : Transition.Run (Transition.guarded Step (Solo s.nextCall)) _ []
      { s.setCall s.nextCall (Op.addAccount (.ok config) (.error e)).begin with
        nextCall := s.nextCall + 1 } := .refl _
  have h₁ := solo_tail h₀ (hself s _) .add fun _ h => nomatch h
  have h₂ := solo_tail h₁ (hself _ _) .addRegister fun _ h => nomatch h
  have h₃ := solo_tail h₂ (hself _ _) (.addPush hl) fun _ h => nomatch h
  have h₄ := solo_tail h₃ (hself _ _) (.addBuild (.config _)) fun _ h => nomatch h
  have h₅ := solo_tail h₄ (hself _ _) (.addBuild (.transport _ _)) fun _ h => nomatch h
  have h₆ := solo_tail h₅ (hself _ _) (.addBuild (.refused _ _ _ rfl)) fun _ h => nomatch h
  exact ⟨_, _, _, .start _ hready hh, h₆, hself _ _⟩

/-- `Pool::new` returns, its tunnels connected. -/
theorem new_returns (configs : List WarpConfig) {s : State} (h : Reachable s)
    (hc : s.calls 0 = some (.new configs)) (hh : 0 < s.handles) (hl : s.locked = false) :
    ∃ t, Reachable t ∧ t.ready = true ∧ 0 < t.handles ∧ t.locked = false ∧
      t.pool.workers.length = s.pool.workers.length + configs.length := by
  induction configs generalizing s with
  | nil => exact ⟨_, h.tail (.call hc .newDone), rfl, hh, hl, rfl⟩
  | cons config configs ih =>
      have hself : ∀ (u : State) (call : Call), (u.setCall 0 call).calls 0 = some call :=
        fun u call => State.calls_setCall_self ..
      have h₁ := h.tail (.call hc (.newNext hl))
      have h₂ := h₁.tail (.call (hself _ _)
        (.newBuild (show BuildStep _ (.ok ⟨200, 0, none⟩) _ _ _ _ from .config _)))
      have h₃ := h₂.tail (.call (hself _ _)
        (.newBuild (show BuildStep _ (.ok ⟨200, 0, none⟩) _ _ _ _ from .transport _ _)))
      have h₄ := h₃.tail (.call (hself _ _)
        (.newBuild (show BuildStep _ (.ok ⟨200, 0, none⟩) _ _ _ _ from
          .connected _ _ _ false rfl)))
      have h₅ := h₄.tail (.call (hself _ _) .newSpawn)
      obtain ⟨t, ht, hready, hh', hl', hlen⟩ := ih h₅ (hself _ _) hh hl
      have hpushed : (s.pool.workers ++ [s.nextRef]).length = s.pool.workers.length + 1 :=
        List.length_append
      refine ⟨t, ht, hready, hh', hl', hlen.trans ?_⟩
      rw [List.length_cons]
      show (s.pool.workers ++ [s.nextRef]).length + _ = _
      omega

/-- **A failed operation leaves the pool intact**, and is answered with 400, exactly when it
is not an `add_account` whose registration succeeded and whose build failed. -/
theorem failed_intact_iff {e : Error} (h : Reachable s) (hop : op.Account)
    (hret : Returns s op (.error e) t) :
    (∀ path query body, (answer path query body (.error e)).status = "400 Bad Request") ∧
      (Intact s t ↔ ¬ op.BuildFails) := by
  refine ⟨fun path query body => rfl, ?_⟩
  rcases hret.phase h hop with ⟨hi, hnot⟩ | ⟨⟨w, hhalf⟩, hfails⟩
  · exact ⟨fun _ => hnot, fun _ => hi⟩
  · exact ⟨fun hi => absurd hi hhalf.not_intact, fun hnot => absurd hfails hnot⟩

/-- An `add_account` whose registration fails, on a pool of two connected accounts. -/
theorem failed_intact_registration :
    ∃ s t : State, Reachable s ∧ s.pool.workers.length = 2 ∧
      Returns s (.addAccount (.error (.api 429 "")) (.ok ⟨200, 0, none⟩))
        (.error (.api 429 "")) t ∧ Intact s t := by
  have hself : ∀ (u : State) (c : Nat) (call : Call), (u.setCall c call).calls c = some call :=
    fun u c call => State.calls_setCall_self ..
  obtain ⟨s, hs, hready, hh, hl, hlen⟩ := new_returns [.blank, .blank]
    (.init ⟨[.blank, .blank], false, .new 0 .blank, rfl⟩) rfl Nat.one_pos rfl
  have h₀ : Transition.Run (Transition.guarded Step (Solo s.nextCall)) _ []
      { s.setCall s.nextCall
          (Op.addAccount (.error (.api 429 "")) (.ok ⟨200, 0, none⟩)).begin with
        nextCall := s.nextCall + 1 } := .refl _
  have h₁ := solo_tail h₀ (hself s _ _) .add fun _ h => nomatch h
  have h₂ := solo_tail h₁ (hself _ _ _) .addFailed fun _ h => nomatch h
  have hret : ∃ t, Returns s (.addAccount (.error (.api 429 "")) (.ok ⟨200, 0, none⟩))
      (.error (.api 429 "")) t := ⟨_, _, _, .start _ hready hh, h₂, hself _ _ _⟩
  obtain ⟨t, hret⟩ := hret
  have hop : (Op.addAccount (.error (.api 429 "")) (.ok ⟨200, 0, none⟩)).Account := trivial
  exact ⟨s, t, hs, hlen, hret, (failed_intact_iff hs hop hret).2.mpr fun h => h⟩

/-- A pool of one connected account; the account that is added registers, and its endpoint
cannot be reached. -/
theorem add_account_not_intact :
    ¬ ∀ (s t : State) (op : Op) (e : Error), Reachable s → op.Account →
      Returns s op (.error e) t → Intact s t := by
  intro hkeeps
  obtain ⟨s, hs, hready, hh, hl, -⟩ := new_returns [.blank]
    (.init ⟨[.blank], false, .new 0 .blank, rfl⟩) rfl Nat.one_pos rfl
  obtain ⟨t, hret⟩ := add_returns .blank (.tunnel "no route to host") hready hh hl
  have hop : (Op.addAccount (.ok .blank) (.error (.tunnel "no route to host"))).Account :=
    trivial
  have hintact := hkeeps s t _ _ hs hop hret
  rcases hret.phase hs trivial with ⟨-, hnot⟩ | ⟨⟨w, hhalf⟩, -⟩
  · exact hnot trivial
  · exact hhalf.not_intact hintact

end

end WarpProxy.Pool
