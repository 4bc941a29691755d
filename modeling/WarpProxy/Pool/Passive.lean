/-
# `WarpProxy.Pool.Passive` — what leaves the pool as it is set

The operations that change neither a setting nor the list of the accounts: `reconnect`, `rotate`
and `refresh_trace` work on what is in the workers.  With no other call under way the pool's own
record stays as it is, whatever the supervisors do (`Step.passive`).
-/
import WarpProxy.Pool.Ids

namespace WarpProxy.Pool

def Op.Passive : Op → Prop
  | .reconnect _ | .rotate _ _ | .refreshTrace _ => True
  | .select _ | .setEnabled _ | .setRotateInterval _ | .setHttp2 _ | .addAccount _ _
  | .removeAccount _ => False

/-- A call that will not change it any more. -/
def Call.Passive : Call → Prop
  | .reconnect _ _ | .notifying _ _ _ | .rotate _ _ | .rotatePick _ _ _ | .rotateRegister _ _
  | .rotateStore _ _ | .rotateNotify _ | .refreshTrace _ | .refreshing _ _
  | .refreshFetch _ _ _ _ | .done _ => True
  | .new _ | .newBuild _ _ _ | .newSpawn _ _ | .select _ | .setEnabled _ | .setRotateInterval _
  | .setHttp2 _ | .add _ _ | .addRegister _ _ _ | .addPush _ _ _ | .addBuild _ _ _ _
  | .addSpawn _ _ | .remove _ | .removePinned _ | .removeUnpin _ => False

def State.Passive (s : State) : Prop := ∀ c call, s.calls c = some call → call.Passive

theorem Op.Passive.begin {op : Op} (h : op.Passive) : op.begin.Passive := by
  cases op with
  | reconnect | rotate | refreshTrace => exact trivial
  | select | setEnabled | setRotateInterval | setHttp2 | addAccount | removeAccount => cases h

section
variable {s t : State}

theorem CallStep.passive {c : Nat} {call : Call} (h : CallStep c s call t) (hp : call.Passive) :
    t.pool = s.pool ∧ ∃ call', t.calls = Function.update s.calls c (some call')
      ∧ call'.Passive := by
  cases h with
  | newNext | newBuild | newSpawn | newDone => cases hp
  | select | setEnabled | setRotateInterval | setHttp2 => cases hp
  | add | addFailed | addRegister | addPush | addBuild | addSpawn => cases hp
  | removeLast | removeNone | remove | removeKeep | removePinned | removeUnpin => cases hp
  | @notify stored id w todo =>
      have hkept : (s.notifyIf id w).pool = s.pool ∧ (s.notifyIf id w).calls = s.calls := by
        rw [State.notifyIf]
        split <;> exact ⟨rfl, rfl⟩
      obtain ⟨hpool, hcalls⟩ := hkept
      exact ⟨hpool, .notifying stored id todo, congrArg (Function.update · c _) hcalls, trivial⟩
  | _ => exact ⟨rfl, _, rfl, trivial⟩

theorem State.Passive.of_eq (hs : s.Passive) (h : t.calls = s.calls) : t.Passive := by
  intro c call hc
  exact hs c call (h ▸ hc)

theorem State.Passive.update (hs : s.Passive) {c : Nat} {call : Call} (hcall : call.Passive)
    (h : t.calls = Function.update s.calls c (some call)) : t.Passive := by
  intro c' call' hc'
  rcases calls_of_update h hc' with ⟨-, rfl⟩ | ⟨-, hold⟩
  · exact hcall
  · exact hs c' call' hold

/-- **A step beside passive calls.** -/
theorem Step.passive {l : Label} (h : Step s l t) (hs : s.Passive)
    (hl : ∀ c op, l = .start c op → op.Passive) : t.pool = s.pool ∧ t.Passive := by
  cases h with
  | sup hsup => exact ⟨hsup.frame.1, hs.of_eq hsup.frame.2.1⟩
  | start op _ _ => exact ⟨rfl, hs.update (hl _ op rfl).begin rfl⟩
  | call hc hstep =>
      obtain ⟨hpool, call', hcalls, hcall'⟩ := hstep.passive (hs _ _ hc)
      exact ⟨hpool, hs.update hcall' hcalls⟩
  | trace _ htrace => exact ⟨htrace.frame.1, hs.of_eq htrace.frame.2.1⟩
  | die | cloneHandle | dropHandle => exact ⟨rfl, hs.of_eq rfl⟩

end

end WarpProxy.Pool
