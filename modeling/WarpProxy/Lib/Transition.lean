/-
# `WarpProxy.Lib.Transition` — runs of a labelled transition relation

A system is a relation `step : σ → ε → σ → Prop`.  `Run` collects the labels of a
finite run, `Reachable` is what some run from an initial state ends in, and
`guarded` restricts a relation to the steps that meet a condition on the state
before the step and the label, so that "every run whose steps all meet the
condition" is `Reachable (guarded step ok)`.  A state is `Quiescent` if only its
surroundings can make a step.  `Once` speaks of a time in the past of a run.

The rules are `Reachable.invariant` (initially and by every step) and
`Run.invariant` (the same from a given state, with the label list at hand); a variant
bounds how often a kind of step is taken (`Run.count_le`), and a system whose own
steps leave it less and less to do comes to rest (`Run.exists_quiescent`).
-/
import Mathlib.Logic.Basic

namespace Transition

variable {σ ε : Type}

/-- A finite run, with the labels of its steps in order. -/
inductive Run (step : σ → ε → σ → Prop) : σ → List ε → σ → Prop
  | refl (s : σ) : Run step s [] s
  | tail {s t u : σ} {ls : List ε} {l : ε} :
      Run step s ls t → step t l u → Run step s (ls ++ [l]) u

/-- What a run from an initial state ends in. -/
inductive Reachable (step : σ → ε → σ → Prop) (init : σ → Prop) : σ → Prop
  | init {s : σ} : init s → Reachable step init s
  | tail {s t : σ} {l : ε} : Reachable step init s → step s l t → Reachable step init t

/-- The steps whose state before and label meet `ok`. -/
def guarded (step : σ → ε → σ → Prop) (ok : σ → ε → Prop) : σ → ε → σ → Prop :=
  fun s l t => step s l t ∧ ok s l

/-- None of the steps that the system takes by itself is enabled. -/
def Quiescent (step : σ → ε → σ → Prop) (own : ε → Prop) (s : σ) : Prop :=
  ∀ l t, own l → ¬ step s l t

section
variable {step : σ → ε → σ → Prop} {init : σ → Prop}

/-- A relation that holds at the start and is kept by the steps whose labels occur. -/
theorem Run.invariant {s t : σ} {ls : List ε} (P : σ → Prop) (h : Run step s ls t)
    (h₀ : P s) (hstep : ∀ u l v, l ∈ ls → P u → step u l v → P v) : P t := by
  induction h with
  | refl => exact h₀
  | tail _ hs ih =>
      refine hstep _ _ _ (List.mem_append_right _ List.mem_cons_self) ?_ hs
      exact ih fun u l v hl => hstep u l v (List.mem_append_left _ hl)

/-- **The invariant rule.** -/
theorem Reachable.invariant {s : σ} (P : σ → Prop) (h : Reachable step init s)
    (h₀ : ∀ s, init s → P s) (hstep : ∀ s l t, P s → step s l t → P t) : P s := by
  induction h with
  | init hs => exact h₀ _ hs
  | tail _ hs ih => exact hstep _ _ _ ih hs

/-- Fewer steps reach less. -/
theorem Reachable.mono {step' : σ → ε → σ → Prop} {s : σ} (h : Reachable step init s)
    (hsub : ∀ s l t, step s l t → step' s l t) : Reachable step' init s := by
  induction h with
  | init hs => exact .init hs
  | tail _ hs ih => exact .tail ih (hsub _ _ _ hs)

theorem Run.mono {step' : σ → ε → σ → Prop} {s t : σ} {ls : List ε} (h : Run step s ls t)
    (hsub : ∀ s l t, step s l t → step' s l t) : Run step' s ls t := by
  induction h with
  | refl => exact .refl _
  | tail _ hs ih => exact .tail ih (hsub _ _ _ hs)

theorem Run.unguarded {ok : σ → ε → Prop} {s t : σ} {ls : List ε}
    (h : Run (guarded step ok) s ls t) : Run step s ls t :=
  h.mono fun _ _ _ h => h.1

/-- The steps of a guarded run are steps. -/
theorem Reachable.unguarded {ok : σ → ε → Prop} {s : σ}
    (h : Reachable (guarded step ok) init s) : Reachable step init s :=
  h.mono fun _ _ _ h => h.1

/-- **The variant rule**: the labels that leave less to do occur no more often than there is to do,
if the others leave no more. -/
theorem Run.count_le (own : ε → Bool) (P : σ → Prop) (work : σ → Nat)
    (hP : ∀ s l t, P s → step s l t → P t)
    (hown : ∀ s l t, P s → step s l t → own l = true → work t < work s)
    (hother : ∀ s l t, P s → step s l t → own l = false → work t ≤ work s)
    {s t : σ} {ls : List ε} (h : Run step s ls t) (hs : P s) :
    P t ∧ ls.countP own + work t ≤ work s := by
  induction h with
  | refl => exact ⟨hs, Nat.le_of_eq (Nat.zero_add _)⟩
  | @tail t u ls l _ hstep ih =>
      obtain ⟨ht, hle⟩ := ih
      refine ⟨hP _ _ _ ht hstep, ?_⟩
      rw [List.countP_append, List.countP_singleton]
      cases hl : own l with
      | true =>
          have hlt := hown _ _ _ ht hstep hl
          rw [if_pos rfl]
          omega
      | false =>
          have hmore := hother _ _ _ ht hstep hl
          rw [if_neg Bool.false_ne_true]
          omega

/-- Steps of its own that leave less to do, and come to an end. -/
theorem Run.exists_quiescent {own : ε → Prop} (work : σ → Nat)
    (hwork : ∀ s l t, own l → step s l t → work t < work s) {s t : σ} {ls : List ε}
    (h : Run step s ls t) (hown : ∀ l ∈ ls, own l) :
    ∃ ls u, Run step s ls u ∧ (∀ l ∈ ls, own l) ∧ Quiescent step own u := by
  induction hn : work t using Nat.strongRecOn generalizing t ls with
  | _ n ih =>
    by_cases hquiet : Quiescent step own t
    · exact ⟨ls, t, h, hown, hquiet⟩
    · simp only [Quiescent, not_forall, not_not] at hquiet
      obtain ⟨l, u, hl, hstep⟩ := hquiet
      refine ih (work u) (hn ▸ hwork t l u hl hstep) (h.tail hstep) (fun l' hmem => ?_) rfl
      rcases List.mem_append.mp hmem with hmem | hmem
      · exact hown l' hmem
      · rw [List.mem_singleton.mp hmem]
        exact hl

end

/-! ## The past of a run -/

/-- At some time of the run `P` held, of the labels until then and of the state. -/
def Once (step : σ → ε → σ → Prop) (s : σ) (ls : List ε) (t : σ) (P : List ε → σ → Prop) : Prop :=
  ∃ ls₁ ls₂ u, ls = ls₁ ++ ls₂ ∧ Run step s ls₁ u ∧ Run step u ls₂ t ∧ P ls₁ u

section
variable {step : σ → ε → σ → Prop} {s t u : σ} {ls : List ε} {l : ε} {P : List ε → σ → Prop}

theorem Once.now (h : Run step s ls t) (hP : P ls t) : Once step s ls t P :=
  ⟨ls, [], t, (List.append_nil ls).symm, h, .refl t, hP⟩

theorem Once.tail (h : Once step s ls t P) (hstep : step t l u) : Once step s (ls ++ [l]) u P := by
  obtain ⟨ls₁, ls₂, v, rfl, hbefore, hafter, hP⟩ := h
  exact ⟨ls₁, ls₂ ++ [l], v, List.append_assoc .., hbefore, hafter.tail hstep, hP⟩

end

/-! ## Running a step function -/

/-- The state after the labels, if `check` passes at each of them. -/
def exec (next : σ → ε → Option σ) (check : σ → ε → Bool) : σ → List ε → Option σ
  | s, [] => some s
  | s, l :: ls =>
      if check s l then
        match next s l with
        | some s => exec next check s ls
        | none => none
      else none

/-- A run that passes a sound check meets the guard. -/
theorem Reachable.exec {step : σ → ε → σ → Prop} {init : σ → Prop} {ok : σ → ε → Prop}
    {next : σ → ε → Option σ} {check : σ → ε → Bool}
    (hnext : ∀ s l t, next s l = some t → step s l t)
    (hcheck : ∀ s l, Reachable step init s → check s l = true → ok s l)
    (ls : List ε) {s t : σ} (hs : Reachable (guarded step ok) init s)
    (h : exec next check s ls = some t) : Reachable (guarded step ok) init t := by
  induction ls generalizing s with
  | nil =>
      rw [Transition.exec, Option.some.injEq] at h
      exact h ▸ hs
  | cons l ls ih =>
      rw [Transition.exec] at h
      split at h
      · next hl =>
          split at h
          · next s' hstep =>
              have hok : ok s l := hcheck s l hs.unguarded hl
              exact ih (hs.tail ⟨hnext s l s' hstep, hok⟩) h
          · cases h
      · cases h

end Transition
