/-
# `WarpProxy.Control.StatusBody` — the body of a successful answer

`serde_json::to_string(&pool.status())`.  What it is given is in the code, the `Serialize`
instances of `PoolStatus`, `AccountStatus` and `TraceInfo`: the fields in their order, an
account without a trace, and the `err` of a trace left out if there is none.  The printer
itself is a parameter (`SerdeJson`).

The texts of a trace come from outside.  Whatever they are, the body is a JSON text with
one meaning, and everything that `status` shows can be read off it (`status_told`).
-/
import WarpProxy.Lib.JsonData
import WarpProxy.Control.Handle
import WarpProxy.Pool.View

namespace WarpProxy

open Json (Data)

/-! ## `serde_json` -/

/-- The two printers that the control API uses. -/
structure SerdeJson where
  /-- `to_string`, with the text of its error -/
  toString : Data → Except (List Char) (List Char)
  /-- what `json!` makes of an object's fields, as `Display` prints it -/
  display : List (List Char × Data) → List Char

/-- What is printed denotes the data and nothing else; nothing is said of the order in which an
object of `json!` is printed. -/
structure SerdeJson.Laws (json : SerdeJson) : Prop where
  to_string : ∀ d, ∃ text, json.toString d = .ok text ∧ ∀ v, Json.Denotes text v ↔ v = d.value
  display : ∀ fields, (fields.map Prod.fst).Nodup → ∃ fields', fields'.Perm fields
    ∧ ∀ v, Json.Denotes (json.display fields) v ↔ v = (Data.struct fields').value

/-- Printers that write no white space and keep the order. -/
def compactJson : SerdeJson where
  toString d := .ok d.print
  display fields := (Data.struct fields).print

theorem compactJson_laws : compactJson.Laws where
  to_string d := ⟨d.print, rfl, d.print_denotes_iff⟩
  display fields _ := ⟨fields, .refl _, (Data.struct fields).print_denotes_iff⟩

/-! ## `Serialize` -/

def str (s : String) : Data := .str s.toList

/-- The `err` is left out if there is none. -/
def TraceInfo.serialize (t : TraceInfo) : Data :=
  .struct ([("ip".toList, str t.ip), ("colo".toList, str t.colo), ("warp".toList, str t.warp)]
    ++ (t.err.map fun err => ("err".toList, str err)).toList)

namespace Pool

def AccountStatus.serialize (a : AccountStatus) : Data :=
  .struct [("id".toList, .nat a.id), ("ready".toList, .bool a.ready), ("ip".toList, str a.ip),
    ("trace".toList, a.trace.elim .none TraceInfo.serialize)]

def PoolStatus.serialize (s : PoolStatus) : Data :=
  .struct [("enabled".toList, .bool s.enabled), ("mode".toList, str s.mode),
    ("pinned".toList, .nat s.pinned), ("http2".toList, .bool s.http2),
    ("rotate_seconds".toList, .nat s.rotateSeconds),
    ("accounts".toList, .seq (s.accounts.map AccountStatus.serialize))]

end Pool

open Pool (AccountStatus PoolStatus)

/-! ## What is serialized tells everything -/

theorem str_injective : Function.Injective str := by
  intro s s' h
  rw [str, str, Data.str.injEq] at h
  exact String.toList_injective h

theorem TraceInfo.serialize_injective : Function.Injective TraceInfo.serialize := by
  intro t t' h
  obtain ⟨ip, colo, warp, err⟩ := t
  obtain ⟨ip', colo', warp', err'⟩ := t'
  simp only [serialize, Data.struct.injEq, List.cons_append, List.nil_append, List.cons.injEq,
    Prod.mk.injEq, true_and] at h
  obtain ⟨hip, hcolo, hwarp, herr⟩ := h
  have herr' : err = err' := by
    cases err with
    | none =>
        cases err' with
        | none => rfl
        | some e' => cases herr
    | some e =>
        cases err' with
        | none => cases herr
        | some e' =>
            simp only [Option.map_some, Option.toList_some, List.cons.injEq, Prod.mk.injEq,
              true_and, and_true] at herr
            rw [str_injective herr]
  rw [str_injective hip, str_injective hcolo, str_injective hwarp, herr']

theorem AccountStatus.serialize_injective : Function.Injective AccountStatus.serialize := by
  intro a a' h
  obtain ⟨id, ready, ip, trace⟩ := a
  obtain ⟨id', ready', ip', trace'⟩ := a'
  simp only [AccountStatus.serialize, Data.struct.injEq, List.cons.injEq, Prod.mk.injEq, true_and,
    Data.nat.injEq, Data.bool.injEq, and_true] at h
  obtain ⟨hid, hready, hip, htrace⟩ := h
  have htrace' : trace = trace' := by
    cases trace with
    | none =>
        cases trace' with
        | none => rfl
        | some t' => cases htrace
    | some t =>
        cases trace' with
        | none => cases htrace
        | some t' => rw [TraceInfo.serialize_injective htrace]
  rw [hid, hready, str_injective hip, htrace']

theorem PoolStatus.serialize_injective : Function.Injective PoolStatus.serialize := by
  intro s s' h
  obtain ⟨enabled, mode, pinned, http2, rotateSeconds, accounts⟩ := s
  obtain ⟨enabled', mode', pinned', http2', rotateSeconds', accounts'⟩ := s'
  simp only [PoolStatus.serialize, Data.struct.injEq, List.cons.injEq, Prod.mk.injEq, true_and,
    Data.nat.injEq, Data.bool.injEq, Data.seq.injEq, and_true] at h
  obtain ⟨henabled, hmode, hpinned, hhttp2, hsecs, haccounts⟩ := h
  rw [henabled, str_injective hmode, hpinned, hhttp2, hsecs,
    (List.map_injective_iff.mpr AccountStatus.serialize_injective) haccounts]

namespace Control

/-- The end of `route`: the body, or the text of the error. -/
def statusBody (json : SerdeJson) (s : PoolStatus) : Except (List Char) (List Char) :=
  json.toString s.serialize

/-- **What a successful answer tells**: its body is a JSON text that denotes the status and
nothing else, and no other status has that value, whatever the trace host has sent. -/
theorem status_told {json : SerdeJson} (hjson : json.Laws) (s : PoolStatus)
    (path query : List Char) :
    ∃ body, respond (fun _ _ => statusBody json s) (.route path query) = ⟨"200 OK", body⟩
      ∧ (∀ v, Json.Denotes body v ↔ v = s.serialize.value)
      ∧ ∀ s' : PoolStatus, s'.serialize.value = s.serialize.value → s' = s := by
  obtain ⟨body, hbody, hvalue⟩ := hjson.to_string s.serialize
  refine ⟨body, ?_, hvalue, ?_⟩
  · simp only [respond, statusBody, hbody]
  · intro s' h
    exact PoolStatus.serialize_injective (Data.value_injective h)

/-- A pinned account, with a text from outside that has a line break in it. -/
def toldStatus : PoolStatus :=
  ⟨true, "pinned", 2, false, 0,
    [⟨2, true, "10.0.0.1", some ⟨"1.2.3.4", "FRA\n", "on", none⟩⟩, ⟨3, false, "10.0.0.2", none⟩]⟩

theorem status_told_compact :
    ∃ body, respond (fun _ _ => statusBody compactJson toldStatus) (.route "/api/status".toList [])
        = ⟨"200 OK", body⟩
      ∧ (∀ v, Json.Denotes body v ↔ v = toldStatus.serialize.value)
      ∧ ∀ s' : PoolStatus, s'.serialize.value = toldStatus.serialize.value → s' = toldStatus :=
  status_told compactJson_laws toldStatus "/api/status".toList []

end Control

end WarpProxy
