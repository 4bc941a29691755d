/-
# `WarpProxy.Pool.Tended` — a ready worker has somebody who waits for its tunnel

A worker with a netstack handle has the dead signal of the same build, and either a
supervisor that has not cleared it or a call that is about to start one (`Tends`).  So when the
signal comes, the supervisor, or that call, can go on (`Tends.enabled`).
-/
import WarpProxy.Pool.Accepted

namespace WarpProxy.Pool

/-- The supervisor stands between an installed tunnel and its removal. -/
def Sup.tends : Sup → Prop
  | .top | .waiting _ | .clearing => True
  | _ => False

/-- What a netstack handle comes with. -/
structure State.Tends (s : State) (w : Ref) (n : NetHandle) : Prop where
  dead : (s.heap w).inner.dead = some n.build
  born : n.build < s.nextBuild
  hands : (∃ q, s.sups w = some q ∧ q.tends) ∨ ∃ c, s.stage w (some c) = some .built

/-- What holds of a worker if it has a netstack handle. -/
def State.Tended (s : State) (w : Ref) : Prop := ∀ n, s.net w = some n → s.Tends w n

section
variable {s t : State} {v : Ref} {n : NetHandle}

/-! ## The dead signals -/

/-- The signals of the tunnels so far stay as they are. -/
def SameWatch (s t : State) : Prop :=
  s.nextBuild ≤ t.nextBuild ∧ ∀ b < s.nextBuild, t.deadWatch b = s.deadWatch b

theorem SameWatch.of_eq (hwatch : t.deadWatch = s.deadWatch) (hnext : t.nextBuild = s.nextBuild) :
    SameWatch s t :=
  ⟨Nat.le_of_eq hnext.symm, fun _ _ => by rw [hwatch]⟩

theorem BuildStep.watch {w : Ref} {out : Except Error Connected} {b : Build} {p : Progress}
    (h : BuildStep w out s b p t) : SameWatch s t := by
  cases h with
  | connected s config tr died _ =>
      exact ⟨Nat.le_succ _, fun b hb => Function.update_of_ne (Nat.ne_of_lt hb) ..⟩
  | _ => exact .of_eq rfl rfl

/-- Only a tunnel that dies changes a signal. -/
theorem Step.watch {l : Label} (h : Step s l t) (hl : ∀ b, l ≠ .die b) : SameWatch s t := by
  cases h with
  | die => exact absurd rfl (hl _)
  | sup hs =>
      cases hs with
      | @build k b out p s₁ _ hb =>
          have hsame := hb.watch
          cases p <;> exact hsame
      | _ => exact .of_eq rfl rfl
  | call _ hs =>
      cases hs with
      | @newBuild configs w b out p s₁ hb | @addBuild id w b connected p s₁ hb =>
          have hsame := hb.watch
          cases p <;> exact hsame
      | @notify stored id w todo =>
          have hsame : SameWatch s (s.notifyIf id w) := by
            rw [State.notifyIf]
            split <;> exact .of_eq rfl rfl
          exact hsame
      | _ => exact .of_eq rfl rfl
  | trace _ hs => cases hs <;> exact .of_eq rfl rfl
  | _ => exact .of_eq rfl rfl

theorem Step.nextBuild_le {l : Label} (h : Step s l t) : s.nextBuild ≤ t.nextBuild := by
  cases l with
  | die b =>
      cases h with
      | die _ => exact Nat.le_refl _
  | _ => exact (h.watch nofun).1

/-! ## Who waits -/

theorem SameLink.dead (h : SameLink s t v) : (t.heap v).inner.dead = (s.heap v).inner.dead :=
  congrArg (·.2.2) h.1

theorem SameLink.net (h : SameLink s t v) : t.net v = s.net v := congrArg Prod.fst h.1

theorem State.Tends.same (h : s.Tends v n) (hlink : SameLink s t v) (hhands : SameHands s t v)
    (hle : s.nextBuild ≤ t.nextBuild) : t.Tends v n where
  dead := hlink.dead.trans h.dead
  born := Nat.lt_of_lt_of_le h.born hle
  hands := by
    rw [hhands.sup]
    exact h.hands.imp_right fun ⟨c, hc⟩ => ⟨c, (hhands.call c).trans hc⟩

/-- A worker whose build has just ended. -/
theorem Finishes.tended {l : Label} {r : Connected} (h : Finishes s l t v r) : t.Tended v := by
  intro n hn
  have hinstalled : ∀ config tr died, t.link v = (s.install v config tr r died).link v →
      t.nextBuild = s.nextBuild + 1 →
      (t.heap v).inner.dead = some n.build ∧ n.build < t.nextBuild := by
    intro config tr died hlink hnext
    rw [install_link] at hlink
    have hnet : t.net v = some (s.built config tr r).spawnNet := congrArg Prod.fst hlink
    obtain rfl := Option.some.inj (hnet.symm.trans hn)
    exact ⟨congrArg (·.2.2) hlink, hnext ▸ Nat.lt_succ_self _⟩
  cases h with
  | @sup _ k config tr _ died _ =>
      obtain ⟨hdead, hborn⟩ := hinstalled config tr died rfl rfl
      exact ⟨hdead, hborn, .inl ⟨.top, Function.update_self .., trivial⟩⟩
  | @new c configs _ config tr _ died _ | @add c id _ config tr _ died _ =>
      obtain ⟨hdead, hborn⟩ := hinstalled config tr died rfl rfl
      exact ⟨hdead, hborn, .inr ⟨c, (State.stage_setCall_self ..).trans (if_pos rfl)⟩⟩

/-- What the supervisor does with a worker that has a handle, and keeps it. -/
theorem SupStep.tends (h : SupStep v s t) (hi : WInv s v) (hlink : SameLink s t v)
    (hle : s.nextBuild ≤ t.nextBuild) (hn : s.net v = some n) (hs : s.Tends v n) :
    t.Tends v n := by
  refine ⟨hlink.dead.trans hs.dead, Nat.lt_of_lt_of_le hs.born hle, .inl ?_⟩
  have hself : ∀ {q : Sup}, s.sups v = some q → q.tends := by
    intro q hq
    rcases hs.hands with ⟨q', hq', htends⟩ | ⟨c, hc⟩
    · obtain rfl := Option.some.inj (hq'.symm.trans hq)
      exact htends
    · rw [hi.alone_sup hq c] at hc
      cases hc
  cases h with
  | up => exact ⟨_, Function.update_self .., trivial⟩
  | down _ hdead =>
      rw [hs.dead] at hdead
      cases hdead
  | dead | notified => exact ⟨_, Function.update_self .., trivial⟩
  | clear =>
      -- the handle is gone
      rw [← hlink.net] at hn
      have hnone : ((s.setWorker v (s.heap v).clearNet).heap v).inner.net = none :=
        congrArg (·.inner.net) (State.heap_setWorker_self ..)
      cases hnone.symm.trans hn
  | upgrade hq | exit hq | build hq | slept hq | woken hq => exact absurd (hself hq) id

/-- What the call that has the worker does. -/
theorem CallStep.tends {c : Nat} {call : Call} {st : Stage} (h : CallStep c s call t)
    (hc : s.calls c = some call) (hst : call.stage v = some st) (hi : WInv s v)
    (hlink : SameLink s t v) (hle : s.nextBuild ≤ t.nextBuild) (hs : s.Tends v n) :
    t.Tends v n := by
  refine ⟨hlink.dead.trans hs.dead, Nat.lt_of_lt_of_le hs.born hle, ?_⟩
  have hstage : s.stage v (some c) = some st := by
    rw [State.stage, hc, Option.bind_some, hst]
  have hborn : ∀ {b : Build}, st ≠ .building b := by
    rintro b rfl
    have hdead := hi.unborn hstage
    rw [hs.dead] at hdead
    cases hdead
  cases h with
  | @newSpawn configs w | @addSpawn id w =>
      obtain rfl : w = v := by
        by_contra hw
        rw [Call.stage, if_neg hw] at hst
        cases hst
      exact .inl ⟨.top, Function.update_self .., trivial⟩
  | @newBuild configs w b | @addBuild id w b =>
      rw [Call.stage] at hst
      split at hst
      · exact absurd (Option.some.inj hst).symm hborn
      · cases hst
  | _ => cases hst

/-- **One step** keeps every worker tended. -/
theorem Step.tended {l : Label} (h : Step s l t) (hi : Inv s)
    (hs : ∀ w, w < s.nextRef → s.Tended w) : ∀ w, w < t.nextRef → t.Tended w := by
  intro v hv
  rcases h.link v with hlink | hnone | ⟨r, hfin⟩
  · intro n hn
    have hlt := hlink.2 hv
    have hnet : s.net v = some n := hlink.net.symm.trans hn
    have htends := hs v hlt n hnet
    rcases h.hands hi hlt with hhands | rfl | ⟨c, call, st, rfl, hc, hst⟩
    · exact htends.same hlink hhands h.nextBuild_le
    · have hle := h.nextBuild_le
      cases h with
      | sup hstep => exact hstep.tends (hi.worker v) hlink hle hnet htends
    · have hle := h.nextBuild_le
      cases h with
      | call hc' hstep =>
          obtain rfl := Option.some.inj (hc'.symm.trans hc)
          exact hstep.tends hc hst (hi.worker v) hlink hle htends
  · intro n hn
    rw [hnone] at hn
    cases hn
  · exact hfin.tended

/-- In every reachable state. -/
theorem Reachable.tended (h : Reachable s) : ∀ w, w < s.nextRef → s.Tended w := by
  induction h with
  | init hs =>
      obtain ⟨configs, http2, blank, rfl⟩ := hs
      exact fun w hw => absurd hw (Nat.not_lt_zero _)
  | tail hr hstep ih => exact hstep.tended (Reachable.inv hr) ih

/-- Whoever looks after the worker can take its next step. -/
def State.TenderEnabled (s : State) (w : Ref) : Prop :=
  (∃ t, Step s (.sup w) t) ∨
    ∃ c t, s.stage w (some c) = some .built ∧ Step s (.call c) t

/-- **When the tunnel dies**, the supervisor is enabled, or the call that is about to start it. -/
theorem State.Tends.enabled (h : s.Tends v n) (hi : WInv s v)
    (hdead : s.deadWatch n.build = true) : s.TenderEnabled v := by
  rcases h.hands with ⟨q, hq, htends⟩ | ⟨c, hc⟩
  · left
    cases q with
    | top => exact ⟨_, .sup (.up hq h.dead)⟩
    | waiting b =>
        have hb : b = n.build := Option.some.inj ((hi.waiting hq).symm.trans h.dead)
        exact ⟨_, .sup (.dead hq (hb ▸ hdead))⟩
    | clearing => exact ⟨_, .sup (.clear hq)⟩
    | upgrading | building | sleeping | exited => exact absurd htends id
  · right
    obtain ⟨call, hcall, hst⟩ := Option.bind_eq_some_iff.mp hc
    refine ⟨c, ?_⟩
    cases call with
    | newSpawn configs w => exact ⟨_, hc, .call hcall .newSpawn⟩
    | addSpawn id w => exact ⟨_, hc, .call hcall .addSpawn⟩
    | newBuild configs w b | addBuild id w b =>
        rw [Call.stage] at hst
        split at hst <;> cases hst
    | _ => cases hst

end

end WarpProxy.Pool
