/-
# `WarpProxy.Control.Route` — from a path and a query to an operation

`route` of `control.rs` up to the call it makes, with `param`, `int_param` and `bool_param`.

A slot is parsed as an `i64` and cast to `usize`: the ids from `2^63` on are reached by negative
numbers.  What is no number counts as 0, which stands for "all" or "auto", except where an account
is to be removed.
-/
import Mathlib.Algebra.Group.Int.Defs
import WarpProxy.Control.ErrorBody
import WarpProxy.Pool.Step

namespace WarpProxy.Control

open Pool (Op Connected)

/-! ## Parameters -/

/-- `param` -/
def param (query key : List Char) : Option (List Char) :=
  (Text.splitStr ['&'] query).findSome? fun pair =>
    (Text.splitOnce '=' pair).bind fun (k, v) => if k = key then some v else none

/-- `bool_param` -/
def boolParam (query key : List Char) (default : Bool) : Bool :=
  match param query key with
  | some v =>
      if v ∈ ["1".toList, "true".toList, "on".toList, "yes".toList] then true
      else if v ∈ ["0".toList, "false".toList, "off".toList, "no".toList] then false
      else default
  | none => default

/-- The value of a text of decimal digits. -/
def digitsNat (cs : List Char) : Option Nat :=
  if cs ≠ [] ∧ cs.all Char.isDigit then some (Nat.ofDigitChars 10 cs 0) else none

/-- The value of decimal digits, after a sign or not. -/
def signedInt : List Char → Option Int
  | '-' :: ds => (digitsNat ds).map fun n => -(n : Int)
  | '+' :: ds => (digitsNat ds).map fun n => (n : Int)
  | ds => (digitsNat ds).map fun n => (n : Int)

/-- What an `i64` holds. -/
def I64 (i : Int) : Prop := -2 ^ 63 ≤ i ∧ i < 2 ^ 63

instance (i : Int) : Decidable (I64 i) := inferInstanceAs (Decidable (_ ∧ _))

/-- `str::parse::<i64>` -/
def parseI64 (cs : List Char) : Option Int := (signedInt cs).filter fun i => I64 i

/-- `int_param` -/
def intParam (query key : List Char) : Option Int := (param query key).bind parseI64

/-- `i as usize` -/
def asUsize (i : Int) : Nat := (i % 2 ^ 64).toNat

def slotKey : List Char := "slot".toList
def onKey : List Char := "on".toList
def secondsKey : List Char := "seconds".toList

/-- `int_param(query, "slot").unwrap_or(0) as usize` -/
def slotParam (query : List Char) : Nat := asUsize ((intParam query slotKey).getD 0)

/-! ## Dispatch -/

/-- The operation that `route` calls, if any, with what its awaits will give; or its error. -/
def route (path query : List Char) (registered : Except Error WarpConfig)
    (connected : Except Error Connected) : Except (List Char) (Option Op) :=
  if path = "/api/status".toList then .ok none
  else if path = "/api/toggle".toList then .ok (some (.setEnabled (boolParam query onKey true)))
  else if path = "/api/select".toList then .ok (some (.select (slotParam query)))
  else if path = "/api/reconnect".toList then .ok (some (.reconnect (slotParam query)))
  else if path = "/api/rotate".toList then .ok (some (.rotate (slotParam query) registered))
  else if path = "/api/http2".toList then .ok (some (.setHttp2 (boolParam query onKey false)))
  else if path = "/api/interval".toList then
    .ok (some (.setRotateInterval (max ((intParam query secondsKey).getD 0) 0).toNat))
  else if path = "/api/trace".toList then .ok (some (.refreshTrace (slotParam query)))
  else if path = "/api/account/add".toList then .ok (some (.addAccount registered connected))
  else if path = "/api/account/remove".toList then
    match intParam query slotKey with
    | some i => .ok (some (.removeAccount (asUsize i)))
    | none => .error "missing slot".toList
  else .error (noSuchEndpoint path)

/-! ## Queries of a client -/

/-- `name=value` pairs with `&` between them. -/
def render : List (List Char × List Char) → List Char
  | [] => []
  | [p] => p.1 ++ '=' :: p.2
  | p :: ps => p.1 ++ '=' :: (p.2 ++ '&' :: render ps)

/-- A pair that can be told in a query. -/
structure Plain (p : List Char × List Char) : Prop where
  name_eq : '=' ∉ p.1
  name_amp : '&' ∉ p.1
  value_amp : '&' ∉ p.2

instance (p : List Char × List Char) : Decidable (Plain p) :=
  decidable_of_iff ('=' ∉ p.1 ∧ '&' ∉ p.1 ∧ '&' ∉ p.2)
    ⟨fun h => ⟨h.1, h.2.1, h.2.2⟩, fun h => ⟨h.name_eq, h.name_amp, h.value_amp⟩⟩

theorem splitStr_amp_nil {cs : List Char} (h : '&' ∉ cs) : Text.splitStr ['&'] cs = [cs] := by
  refine Text.splitStr_of_not_infix ?_
  rintro ⟨before, after, rfl⟩
  exact h (by simp)

theorem splitStr_amp {cs : List Char} (h : '&' ∉ cs) (rest : List Char) :
    Text.splitStr ['&'] (cs ++ '&' :: rest) = cs :: Text.splitStr ['&'] rest := by
  induction cs with
  | nil => rfl
  | cons c cs ih =>
      simp only [List.mem_cons, not_or] at h
      have hnot : ['&'].isPrefixOf (c :: (cs ++ '&' :: rest)) = false := by
        simp [List.isPrefixOf, h.1]
      exact Text.splitStr_cons hnot (ih h.2)

/-- **The value of a name** is that of the first pair with it. -/
theorem param_render {ps : List (List Char × List Char)} (h : ∀ p ∈ ps, Plain p)
    (key : List Char) : param (render ps) key = (ps.find? fun p => p.1 = key).map Prod.snd := by
  have hpair : ∀ p : List Char × List Char, Plain p →
      ((Text.splitOnce '=' (p.1 ++ '=' :: p.2)).bind fun (k, v) => if k = key then some v else none)
        = if p.1 = key then some p.2 else none := by
    intro p hp
    rw [Text.splitOnce_eq_some.mpr ⟨rfl, hp.name_eq⟩]
    rfl
  have hamp : ∀ p : List Char × List Char, Plain p → '&' ∉ p.1 ++ '=' :: p.2 := by
    intro p hp
    simp [hp.name_amp, hp.value_amp]
  induction ps with
  | nil => rfl
  | cons p ps ih =>
      have hp := h p List.mem_cons_self
      have hrest := ih fun q hq => h q (List.mem_cons_of_mem _ hq)
      have hcons : param (render (p :: ps)) key
          = (if p.1 = key then some p.2 else none).or (param (render ps) key) := by
        cases ps with
        | nil =>
            have htext : render [p] = p.1 ++ '=' :: p.2 := rfl
            rw [htext, param, splitStr_amp_nil (hamp p hp), List.findSome?_cons, hpair p hp]
            cases (if p.1 = key then some p.2 else none) <;> rfl
        | cons q qs =>
            have htext :
                render (p :: q :: qs) = (p.1 ++ '=' :: p.2) ++ '&' :: render (q :: qs) := by
              simp [render]
            rw [htext, param, splitStr_amp (hamp p hp), List.findSome?_cons, hpair p hp]
            cases (if p.1 = key then some p.2 else none) <;> rfl
      rw [hcons, hrest, List.find?_cons]
      by_cases hkey : p.1 = key <;> simp [hkey]

/-! ## Numbers -/

/-- The number that is cast to the id `n`. -/
def slotText (n : Nat) : List Char :=
  if n < 2 ^ 63 then Nat.toDigits 10 n else '-' :: Nat.toDigits 10 (2 ^ 64 - n)

theorem digitsNat_toDigits (n : Nat) : digitsNat (Nat.toDigits 10 n) = some n := by
  have hall : (Nat.toDigits 10 n).all Char.isDigit = true :=
    List.all_eq_true.mpr fun c hc => Nat.isDigit_of_mem_toDigits (by decide) (by decide) hc
  rw [digitsNat, if_pos ⟨Nat.toDigits_ne_nil, hall⟩, Nat.ofDigitChars_ten_toDigits]

theorem signedInt_toDigits (n : Nat) : signedInt (Nat.toDigits 10 n) = some (n : Int) := by
  obtain ⟨d, ds, hds⟩ := List.exists_cons_of_ne_nil (Nat.toDigits_ne_nil (n := n) (b := 10))
  have hdigit : d.isDigit = true :=
    Nat.isDigit_of_mem_toDigits (b := 10) (n := n) (by decide) (by decide)
      (by rw [hds]; exact List.mem_cons_self)
  have hminus : d ≠ '-' := by
    rintro rfl
    exact absurd hdigit (by decide)
  have hplus : d ≠ '+' := by
    rintro rfl
    exact absurd hdigit (by decide)
  have hnat := digitsNat_toDigits n
  rw [hds] at hnat ⊢
  unfold signedInt
  split
  · next heq => exact absurd (List.cons.inj heq).1 hminus
  · next heq => exact absurd (List.cons.inj heq).1 hplus
  · rw [hnat]
    rfl

theorem parseI64_eq_some {cs : List Char} {i : Int} :
    parseI64 cs = some i ↔ signedInt cs = some i ∧ I64 i := by
  simp [parseI64, Option.filter_eq_some_iff]

theorem parseI64_toDigits {n : Nat} (h : n < 2 ^ 63) :
    parseI64 (Nat.toDigits 10 n) = some (n : Int) :=
  parseI64_eq_some.mpr ⟨signedInt_toDigits n, by unfold I64; omega⟩

/-- **Every id can be told**, those from `2^63` on by a negative number. -/
theorem parseI64_slotText {n : Nat} (h : n < 2 ^ 64) :
    ∃ i, parseI64 (slotText n) = some i ∧ asUsize i = n := by
  unfold slotText
  split
  · next hlt =>
      refine ⟨n, parseI64_toDigits hlt, ?_⟩
      rw [asUsize]
      omega
  · next hge =>
      have hsigned : signedInt ('-' :: Nat.toDigits 10 (2 ^ 64 - n))
          = some (-((2 ^ 64 - n : Nat) : Int)) := by
        rw [signedInt, digitsNat_toDigits]
        rfl
      refine ⟨_, parseI64_eq_some.mpr ⟨hsigned, by unfold I64; omega⟩, ?_⟩
      rw [asUsize]
      omega

theorem asUsize_lt (i : Int) : asUsize i < 2 ^ 64 := by
  unfold asUsize
  omega

theorem secs_lt {query : List Char} :
    (max ((intParam query secondsKey).getD 0) 0).toNat < 2 ^ 63 := by
  cases hparam : intParam query secondsKey with
  | none => exact Nat.two_pow_pos 63
  | some i =>
      obtain ⟨v, -, hv⟩ := Option.bind_eq_some_iff.mp hparam
      obtain ⟨-, -, hlt⟩ := parseI64_eq_some.mp hv
      rw [Option.getD_some]
      omega

/-! ## What can be called -/

/-- A call that some request makes, given what its awaits will give. -/
def Callable (registered : Except Error WarpConfig) (connected : Except Error Connected) :
    Option Op → Prop
  | some (.select id) | some (.reconnect id) | some (.removeAccount id)
  | some (.refreshTrace id) => id < 2 ^ 64
  | some (.rotate id r) => id < 2 ^ 64 ∧ r = registered
  | some (.setRotateInterval secs) => secs < 2 ^ 63
  | some (.addAccount r c) => r = registered ∧ c = connected
  | some (.setEnabled _) | some (.setHttp2 _) | none => True

def pathOf : Option Op → List Char
  | none => "/api/status".toList
  | some (.setEnabled _) => "/api/toggle".toList
  | some (.select _) => "/api/select".toList
  | some (.reconnect _) => "/api/reconnect".toList
  | some (.rotate _ _) => "/api/rotate".toList
  | some (.setHttp2 _) => "/api/http2".toList
  | some (.setRotateInterval _) => "/api/interval".toList
  | some (.refreshTrace _) => "/api/trace".toList
  | some (.addAccount _ _) => "/api/account/add".toList
  | some (.removeAccount _) => "/api/account/remove".toList

def switchText (on : Bool) : List Char := if on then ['1'] else ['0']

/-- The parameter that the call is read from. -/
def paramOf : Option Op → Option (List Char × List Char)
  | some (.setEnabled on) | some (.setHttp2 on) => some (onKey, switchText on)
  | some (.select id) | some (.reconnect id) | some (.rotate id _) | some (.removeAccount id)
  | some (.refreshTrace id) => some (slotKey, slotText id)
  | some (.setRotateInterval secs) => some (secondsKey, Nat.toDigits 10 secs)
  | some (.addAccount _ _) | none => none

theorem boolParam_switch {query key : List Char} {on : Bool}
    (h : param query key = some (switchText on)) (default : Bool) :
    boolParam query key default = on := by
  rw [boolParam, h]
  cases on <;> rfl

theorem intParam_slot {query : List Char} {id : Nat} (hid : id < 2 ^ 64)
    (h : param query slotKey = some (slotText id)) :
    ∃ i, intParam query slotKey = some i ∧ asUsize i = id := by
  obtain ⟨i, hi, hcast⟩ := parseI64_slotText hid
  exact ⟨i, by rw [intParam, h, Option.bind_some, hi], hcast⟩

theorem slotParam_slot {query : List Char} {id : Nat} (hid : id < 2 ^ 64)
    (h : param query slotKey = some (slotText id)) : slotParam query = id := by
  obtain ⟨i, hi, hcast⟩ := intParam_slot hid h
  rw [slotParam, hi, Option.getD_some, hcast]

section
variable {registered : Except Error WarpConfig} {connected : Except Error Connected}

/-- A query with the parameter of a call leads to the call. -/
theorem route_pathOf {call : Option Op} (h : Callable registered connected call)
    {query : List Char} (hquery : ∀ p, paramOf call = some p → param query p.1 = some p.2) :
    route (pathOf call) query registered connected = .ok call := by
  cases call with
  | none => rfl
  | some op =>
      cases op with
      | select id =>
          exact congrArg (fun n => Except.ok (some (Op.select n))) (slotParam_slot h (hquery _ rfl))
      | setEnabled on =>
          exact congrArg (fun b => Except.ok (some (Op.setEnabled b)))
            (boolParam_switch (hquery _ rfl) true)
      | setRotateInterval secs =>
          have hsecs : intParam query secondsKey = some (secs : Int) := by
            rw [intParam, hquery _ rfl, Option.bind_some, parseI64_toDigits h]
          have hmax : (max ((intParam query secondsKey).getD 0) 0).toNat = secs := by
            rw [hsecs, Option.getD_some]
            omega
          exact congrArg (fun n => Except.ok (some (Op.setRotateInterval n))) hmax
      | reconnect id =>
          exact congrArg (fun n => Except.ok (some (Op.reconnect n)))
            (slotParam_slot h (hquery _ rfl))
      | setHttp2 on =>
          exact congrArg (fun b => Except.ok (some (Op.setHttp2 b)))
            (boolParam_switch (hquery _ rfl) false)
      | rotate id r =>
          obtain ⟨hid, rfl⟩ := h
          exact congrArg (fun n => Except.ok (some (Op.rotate n r)))
            (slotParam_slot hid (hquery _ rfl))
      | addAccount r c =>
          obtain ⟨rfl, rfl⟩ := h
          rfl
      | removeAccount id =>
          obtain ⟨i, hi, hcast⟩ := intParam_slot h (hquery _ rfl)
          have hroute : route (pathOf (some (.removeAccount id))) query registered connected =
              match intParam query slotKey with
              | some i => .ok (some (.removeAccount (asUsize i)))
              | none => .error "missing slot".toList := rfl
          rw [hroute, hi, ← hcast]
      | refreshTrace id =>
          exact congrArg (fun n => Except.ok (some (Op.refreshTrace n)))
            (slotParam_slot h (hquery _ rfl))

/-- And no request leads to any other. -/
theorem callable_of_route {path query : List Char} {call : Option Op}
    (h : route path query registered connected = .ok call) :
    Callable registered connected call := by
  unfold route at h
  split_ifs at h
  -- `/api/account/remove` is the last; before it one bullet for each endpoint in the source's order
  · obtain rfl := Except.ok.inj h
    exact trivial
  · obtain rfl := Except.ok.inj h
    exact trivial
  · obtain rfl := Except.ok.inj h
    exact asUsize_lt _
  · obtain rfl := Except.ok.inj h
    exact asUsize_lt _
  · obtain rfl := Except.ok.inj h
    exact ⟨asUsize_lt _, rfl⟩
  · obtain rfl := Except.ok.inj h
    exact trivial
  · obtain rfl := Except.ok.inj h
    exact secs_lt
  · obtain rfl := Except.ok.inj h
    exact asUsize_lt _
  · obtain rfl := Except.ok.inj h
    exact ⟨rfl, rfl⟩
  · split at h
    · obtain rfl := Except.ok.inj h
      exact asUsize_lt _
    · cases h

/-- The query of a call among other parameters. -/
theorem param_paramOf {call : Option Op} {before after : List (List Char × List Char)}
    (hplain : ∀ p ∈ before ++ (paramOf call).toList ++ after, Plain p)
    (hbefore : ∀ p, paramOf call = some p → ∀ q ∈ before, q.1 ≠ p.1) {p : List Char × List Char}
    (hp : paramOf call = some p) :
    param (render (before ++ (paramOf call).toList ++ after)) p.1 = some p.2 := by
  have hnone : (before.find? fun q => q.1 = p.1) = none := by
    refine List.find?_eq_none.mpr fun q hq => ?_
    simpa using hbefore p hp q hq
  rw [param_render hplain, hp, List.append_assoc, List.find?_append, hnone, Option.none_or]
  simp

end

end WarpProxy.Control
