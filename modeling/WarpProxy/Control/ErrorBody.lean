/-
# `WarpProxy.Control.ErrorBody` — the body of an error response

`json_string` escapes a message by three replacements, one after the other.  None of them touches
what an earlier one wrote, so they are one replacement, character by character
(`jsonString_eq`).  A quote and a backslash come out escaped and a newline as a space; every
other control character stays, and JSON has no such character in a string.  The body of an error
is therefore well formed exactly for the messages without one (`error_json_iff`).
-/
import WarpProxy.Control.Handle
import WarpProxy.Lib.Json

namespace WarpProxy.Control

/-! ## One replacement -/

/-- What becomes of a character. -/
def escapeChar (c : Char) : List Char :=
  if c = '\\' then ['\\', '\\']
  else if c = '"' then ['\\', '"']
  else if c = '\n' then [' ']
  else [c]

theorem replace_flatMap (c : Char) (text : List Char) (f : Char → List Char) (s : List Char) :
    Text.replace c text (s.flatMap f) = s.flatMap fun d => Text.replace c text (f d) :=
  List.flatMap_assoc

/-- **The three replacements together.** -/
theorem jsonString_eq (s : List Char) :
    jsonString s = '"' :: (s.flatMap escapeChar ++ ['"']) := by
  have hone : ∀ c : Char, Text.replace '\n' [' '] (Text.replace '"' ['\\', '"']
      (if c = '\\' then ['\\', '\\'] else [c])) = escapeChar c := by
    intro c
    rw [escapeChar]
    by_cases hback : c = '\\'
    · rw [if_pos hback, if_pos hback]
      decide
    · rw [if_neg hback, if_neg hback]
      by_cases hquote : c = '"'
      · rw [if_pos hquote, hquote]
        decide
      · rw [if_neg hquote]
        simp [Text.replace, hquote]
  have hall : Text.replace '\n' [' '] (Text.replace '"' ['\\', '"']
      (Text.replace '\\' ['\\', '\\'] s)) = s.flatMap escapeChar := by
    rw [Text.replace.eq_1 '\\' _ s, replace_flatMap, replace_flatMap]
    exact congrArg s.flatMap (funext hone)
  rw [jsonString, hall]
  rfl

/-! ## The string -/

/-- No control character but newlines. -/
def OnlyNewlines (msg : List Char) : Prop := ∀ c ∈ msg, c.toNat < 0x20 → c = '\n'

/-- `msg` with each newline as a space. -/
def spaced (msg : List Char) : List Char := Text.replace '\n' [' '] msg

theorem spaced_cons {c : Char} (hc : c ≠ '\n') (msg : List Char) :
    spaced (c :: msg) = c :: spaced msg := by
  simp [spaced, Text.replace, hc]

theorem onlyNewlines_of_all {msg : List Char}
    (h : (msg.all fun c => decide (c.toNat < 0x20 → c = '\n')) = true) : OnlyNewlines msg :=
  fun c hc => of_decide_eq_true (List.all_eq_true.mp h c hc)

theorem onlyNewlines_cons {c : Char} (hc : 0x20 ≤ c.toNat ∨ c = '\n') {msg : List Char} :
    OnlyNewlines (c :: msg) ↔ OnlyNewlines msg := by
  rw [OnlyNewlines, List.forall_mem_cons]
  refine and_iff_right fun hlt => ?_
  rcases hc with hle | hnl
  · omega
  · exact hnl

/-- A character that is written as `text` and read as `d`, before the rest of the message. -/
theorem chars_cons_iff {c d : Char} {msg text rest rest' : List Char} {units : List Nat}
    (htext : ∀ (cs : List Char) (units : List Nat), Json.Chars (text ++ cs) units rest' ↔
      ∃ units', units = Json.utf16Char d ++ units' ∧ Json.Chars cs units' rest')
    (hspaced : spaced (c :: msg) = d :: spaced msg) (hc : 0x20 ≤ c.toNat ∨ c = '\n')
    (ih : ∀ {units : List Nat}, Json.Chars (msg.flatMap escapeChar ++ '"' :: rest) units rest' ↔
      OnlyNewlines msg ∧ units = Json.utf16 (spaced msg) ∧ rest' = rest) :
    Json.Chars (text ++ (msg.flatMap escapeChar ++ '"' :: rest)) units rest' ↔
      OnlyNewlines (c :: msg) ∧ units = Json.utf16 (spaced (c :: msg)) ∧ rest' = rest := by
  rw [htext, hspaced, onlyNewlines_cons hc]
  constructor
  · rintro ⟨units', rfl, hrest⟩
    obtain ⟨honly, rfl, heq⟩ := ih.mp hrest
    exact ⟨honly, rfl, heq⟩
  · rintro ⟨honly, rfl, hrest⟩
    exact ⟨_, rfl, ih.mpr ⟨honly, rfl, hrest⟩⟩

/-- **An escaped message up to the closing quote.** -/
theorem chars_escaped_msg_iff (msg : List Char) {rest rest' : List Char} {units : List Nat} :
    Json.Chars (msg.flatMap escapeChar ++ '"' :: rest) units rest' ↔
      OnlyNewlines msg ∧ units = Json.utf16 (spaced msg) ∧ rest' = rest := by
  induction msg generalizing units with
  | nil =>
      rw [List.flatMap_nil, List.nil_append, Json.chars_quote_iff]
      exact ⟨fun h => ⟨fun c hc => absurd hc List.not_mem_nil, h⟩, fun h => h.2⟩
  | cons c msg ih =>
      rw [List.flatMap_cons, List.append_assoc]
      by_cases hback : c = '\\'
      · subst hback
        exact chars_cons_iff (fun cs units => Json.chars_escaped_iff (Or.inr rfl))
          (spaced_cons (by decide) msg) (Or.inl (by decide)) ih
      · by_cases hquote : c = '"'
        · subst hquote
          exact chars_cons_iff (fun cs units => Json.chars_escaped_iff (Or.inl rfl))
            (spaced_cons (by decide) msg) (Or.inl (by decide)) ih
        · by_cases hnl : c = '\n'
          · subst hnl
            exact chars_cons_iff (fun cs units => Json.chars_unescaped_iff (by decide)) rfl
              (Or.inr rfl) ih
          · have hesc : escapeChar c = [c] := by
              rw [escapeChar, if_neg hback, if_neg hquote, if_neg hnl]
            rw [hesc]
            by_cases hctrl : c.toNat < 0x20
            · refine iff_of_false (Json.not_chars_control hctrl) fun h => ?_
              exact hnl (h.1 c List.mem_cons_self hctrl)
            · have hle : 0x20 ≤ c.toNat := by omega
              have hun : Json.isUnescaped c = true := by simp [Json.isUnescaped, *]
              exact chars_cons_iff (fun cs units => Json.chars_unescaped_iff hun)
                (spaced_cons hnl msg) (Or.inl hle) ih

/-! ## The body -/

/-- `format!("{{\"error\":{}}}", json_string(&msg))` -/
def errorBody (msg : List Char) : List Char :=
  "\x7b\"error\":".toList ++ jsonString msg ++ "\x7d".toList

theorem respond_error {route : List Char → List Char → Except (List Char) (List Char)}
    {path query msg : List Char} (h : route path query = .error msg) :
    respond route (.route path query) = ⟨"400 Bad Request", errorBody msg⟩ := by
  rw [respond, h]
  rfl

/-- What the body denotes, if anything. -/
def errorValue (msg : List Char) : Json.Value :=
  .object [(Json.utf16 "error".toList, .string (Json.utf16 (spaced msg)))]

theorem errorBody_eq (msg : List Char) : errorBody msg =
    '\x7b' :: '"' :: (['e', 'r', 'r', 'o', 'r'].flatMap escapeChar ++ '"' ::
      (':' :: '"' :: (msg.flatMap escapeChar ++ '"' :: ['\x7d']))) := by
  have hname : ['e', 'r', 'r', 'o', 'r'].flatMap escapeChar = ['e', 'r', 'r', 'o', 'r'] := by decide
  have hopen : "\x7b\"error\":".toList = ['\x7b', '"', 'e', 'r', 'r', 'o', 'r', '"', ':'] := by
    decide
  have hclose : "\x7d".toList = ['\x7d'] := by decide
  have hbody : errorBody msg = ['\x7b', '"', 'e', 'r', 'r', 'o', 'r', '"', ':'] ++
      jsonString msg ++ ['\x7d'] := congrArg₂ (· ++ jsonString msg ++ ·) hopen hclose
  rw [hbody, jsonString_eq, hname]
  simp only [List.cons_append, List.nil_append, List.append_assoc]

theorem denotes_errorBody_iff {msg : List Char} {v : Json.Value} :
    Json.Denotes (errorBody msg) v ↔ OnlyNewlines msg ∧ v = errorValue msg := by
  rw [errorBody_eq]
  constructor
  · rintro ⟨start, stop, hstart, hreads, hstop⟩
    obtain rfl := hstart.of_not (by decide)
    obtain ⟨members, rfl, hmembers⟩ := hreads.of_brace
    obtain ⟨name, v, colon, value, mid, hname, hcolon, hvalue, hnext⟩ := hmembers.of_last
    obtain ⟨-, rfl, rfl⟩ := (chars_escaped_msg_iff _).mp hname
    obtain ⟨-, rfl⟩ := hcolon.of_next (by decide) (by decide)
    obtain ⟨units, rfl, hchars⟩ := hvalue.of_quote
    obtain ⟨honly, rfl, rfl⟩ := (chars_escaped_msg_iff msg).mp hchars
    rcases hnext with ⟨-, rfl⟩ | ⟨next, hcomma⟩
    · exact ⟨honly, rfl⟩
    · exact absurd (hcomma.head (by decide)) (by decide)
  · rintro ⟨honly, rfl⟩
    have hname : OnlyNewlines "error".toList := onlyNewlines_of_all (by decide)
    exact ⟨_, _, .done, .object (.next _) (.last
      ((chars_escaped_msg_iff _).mpr ⟨hname, rfl, rfl⟩) (.next _)
      (.string ((chars_escaped_msg_iff msg).mpr ⟨honly, rfl, rfl⟩)) (.next _)), .done⟩

/-- The body is a JSON text, and its `error` is the message with each newline as a space. -/
def TellsError (body msg : List Char) : Prop :=
  Json.WellFormed body ∧ ∀ v, Json.Denotes body v → ∀ text : List Char,
    v.member "error".toList = some (.string (Json.utf16 text)) ↔ text = spaced msg

theorem errorValue_member {msg text : List Char} :
    (errorValue msg).member "error".toList = some (.string (Json.utf16 text)) ↔
      text = spaced msg := by
  rw [errorValue, Json.Value.member, List.find?_cons_of_pos (by simp)]
  simp only [Option.map_some, Option.some.injEq, Json.Value.string.injEq]
  exact Json.utf16_injective.eq_iff.trans eq_comm

/-- **When an error response tells the error**: the body is a well-formed JSON text whose `error` is
the message, with spaces for newlines, exactly if the message has no other control character. -/
theorem error_json_iff {route : List Char → List Char → Except (List Char) (List Char)}
    {path query msg : List Char} (h : route path query = .error msg) :
    TellsError (respond route (.route path query)).body msg ↔
      ∀ c ∈ msg, c.toNat < 0x20 → c = '\n' := by
  rw [respond_error h]
  constructor
  · rintro ⟨⟨v, hv⟩, -⟩
    exact (denotes_errorBody_iff.mp hv).1
  · intro honly
    refine ⟨⟨_, denotes_errorBody_iff.mpr ⟨honly, rfl⟩⟩, fun v hv text => ?_⟩
    rw [(denotes_errorBody_iff.mp hv).2]
    exact errorValue_member

/-- The last branch of `route`: `format!("no such endpoint {path}")`. -/
def noSuchEndpoint (path : List Char) : List Char := "no such endpoint ".toList ++ path

theorem error_json_iff_quoted : TellsError
    (respond (fun path _ => .error (noSuchEndpoint path)) (.route "/\"\\\n".toList [])).body
    "no such endpoint /\"\\\n".toList :=
  (error_json_iff rfl).mpr (onlyNewlines_of_all (by decide))

/-- A request for a path with a control character that is no white space: the error response says
so, and its body is no JSON text. -/
theorem error_not_json : ∃ response call,
    handle ['s'] (fun path _ => .error (noSuchEndpoint path)) false
        [Utf8.ascii "GET /\x01 HTTP/1.1\r\nX-Warp-Token: s\r\n\r\n"] = some (response, call) ∧
      response.status = "400 Bad Request" ∧
      response.body = errorBody "no such endpoint /\x01".toList ∧
      ¬ Json.WellFormed response.body := by
  have hread : readHead false []
      [Utf8.ascii "GET /\x01 HTTP/1.1\r\nX-Warp-Token: s\r\n\r\n"] =
        some (Utf8.ascii "GET /\x01 HTTP/1.1\r\nX-Warp-Token: s\r\n\r\n") := by decide +kernel
  have hdecision : decision ['s'] (Utf8.ascii "GET /\x01 HTTP/1.1\r\nX-Warp-Token: s\r\n\r\n") =
      .route "/\x01".toList [] := by decide +kernel
  rw [handle, hread, Option.map_some, hdecision]
  refine ⟨_, _, rfl, rfl, rfl, ?_⟩
  rintro ⟨v, hv⟩
  have honly := (denotes_errorBody_iff.mp hv).1
  exact absurd (honly (Char.ofNat 1) (by decide) (by decide)) (by decide)

end WarpProxy.Control
