/-
# `WarpProxy.Control.Request` — what a client has to send for an operation

A request as a client writes it, and the operation that `handle` and `route` make of its bytes
(`request_calls`).  The parameter of the operation may stand among others, the token among other
fields with white space around it, and the bytes may arrive in any pieces and with any body.
-/
import WarpProxy.Control.Route

namespace WarpProxy.Control

open Text (isWhitespace)
open Pool (Op Connected)

/-- `fields` are names and what stands behind their colons. -/
structure Request where
  method : List Char
  path : List Char
  params : List (List Char × List Char)
  fields : List (List Char × List Char)

/-- Something without white space in it. -/
structure Word (cs : List Char) : Prop where
  ne_nil : cs ≠ []
  solid : ∀ c ∈ cs, isWhitespace c = false

theorem solid_of_all {cs : List Char} (h : cs.all (fun c => !isWhitespace c) = true) :
    ∀ c ∈ cs, isWhitespace c = false := by
  intro c hc
  have hsolid := List.all_eq_true.mp h c hc
  rwa [Bool.not_eq_true'] at hsolid

instance (cs : List Char) : Decidable (Word cs) :=
  decidable_of_iff (cs ≠ [] ∧ cs.all (fun c => !isWhitespace c) = true)
    ⟨fun h => ⟨h.1, solid_of_all h.2⟩,
      fun h => ⟨h.ne_nil, List.all_eq_true.mpr fun c hc => by rw [h.solid c hc]; rfl⟩⟩

def fieldLine (f : List Char × List Char) : List Char := f.1 ++ ':' :: f.2

def isTokenField (f : List Char × List Char) : Bool :=
  Text.eqIgnoreAsciiCase (Text.trim f.1) "x-warp-token".toList

namespace Request

def target (r : Request) : List Char := r.path ++ '?' :: render r.params

def line (r : Request) : List Char := r.method ++ ' ' :: (r.target ++ ' ' :: "HTTP/1.1".toList)

def lines (r : Request) : List (List Char) := r.line :: r.fields.map fieldLine

/-- The bytes up to the body. -/
def head (r : Request) : List UInt8 := Utf8.encode (Text.joinCrlf r.lines) ++ blankLine

/-- The token that the first field of the name gives. -/
def token (r : Request) : Option (List Char) := (r.fields.find? isTokenField).map (Text.trim ·.2)

structure WellFormed (r : Request) : Prop where
  method : Word r.method
  not_options : r.method ≠ "OPTIONS".toList
  path : Word r.path
  path_query : '?' ∉ r.path
  params : ∀ p ∈ r.params, Plain p
  params_solid : ∀ p ∈ r.params, ∀ c ∈ p.1 ++ p.2, isWhitespace c = false
  names : ∀ f ∈ r.fields, ':' ∉ f.1
  one_line : ∀ f ∈ r.fields, '\n' ∉ fieldLine f

/-- The request is for this call of `route`. -/
structure Asks (r : Request) (call : Option Op) : Prop where
  path : r.path = pathOf call
  params : ∃ before after, r.params = before ++ (paramOf call).toList ++ after
    ∧ ∀ p, paramOf call = some p → ∀ q ∈ before, q.1 ≠ p.1

end Request

/-! ## Reading the lines back -/

theorem presented_fields {fields : List (List Char × List Char)}
    (hnames : ∀ f ∈ fields, ':' ∉ f.1) :
    presented (fields.map fieldLine) = (fields.find? isTokenField).map (Text.trim ·.2) := by
  induction fields with
  | nil => rfl
  | cons f fields ih =>
      have hrest := ih fun g hg => hnames g (List.mem_cons_of_mem _ hg)
      have htoken : tokenOf (fieldLine f)
          = if isTokenField f then some (Text.trim f.2) else none := by
        have hcut : Text.splitOnce ':' (fieldLine f) = some (f.1, f.2) :=
          Text.splitOnce_eq_some.mpr ⟨rfl, hnames f List.mem_cons_self⟩
        rw [tokenOf, hcut]
        rfl
      rw [presented] at hrest ⊢
      rw [List.map_cons, List.findSome?_cons, htoken, hrest, List.find?_cons]
      cases isTokenField f <;> rfl

section
variable {r : Request}

theorem render_solid {ps : List (List Char × List Char)}
    (h : ∀ p ∈ ps, ∀ c ∈ p.1 ++ p.2, isWhitespace c = false) :
    ∀ c ∈ render ps, isWhitespace c = false := by
  fun_induction render ps with
  | case1 => exact fun c hc => absurd hc List.not_mem_nil
  | case2 p =>
      intro c hc
      have hp := h p List.mem_cons_self c
      simp only [List.mem_append, List.mem_cons] at hc hp
      rcases hc with hc | rfl | hc
      · exact hp (.inl hc)
      · rfl
      · exact hp (.inr hc)
  | case3 p ps hmore ih =>
      intro c hc
      have hp := h p List.mem_cons_self c
      simp only [List.mem_append, List.mem_cons] at hc hp
      rcases hc with hc | rfl | hc | rfl | hc
      · exact hp (.inl hc)
      · rfl
      · exact hp (.inr hc)
      · rfl
      · exact ih (fun q hq => h q (List.mem_cons_of_mem _ hq)) c hc

namespace Request

theorem WellFormed.target_word (hr : r.WellFormed) : Word r.target where
  ne_nil := by
    rw [target]
    exact List.append_ne_nil_of_right_ne_nil _ (List.cons_ne_nil _ _)
  solid := by
    intro c hc
    rw [target, List.mem_append, List.mem_cons] at hc
    rcases hc with hc | rfl | hc
    · exact hr.path.solid c hc
    · rfl
    · exact render_solid hr.params_solid c hc

theorem WellFormed.requestLine_line (hr : r.WellFormed) :
    requestLine r.line = (r.method, r.target) := by
  have hversion : Word "HTTP/1.1".toList := by decide
  rw [requestLine, line, Text.splitWhitespace_word hr.method.ne_nil hr.method.solid,
    Text.splitWhitespace_word hr.target_word.ne_nil hr.target_word.solid,
    Text.splitWhitespace_last hversion.ne_nil hversion.solid]

theorem WellFormed.lines_no_newline (hr : r.WellFormed) : ∀ l ∈ r.lines, '\n' ∉ l := by
  have hword : ∀ cs, Word cs → '\n' ∉ cs := by
    intro cs hcs hmem
    exact absurd (hcs.solid _ hmem) (by decide)
  intro l hl
  rcases List.mem_cons.mp hl with rfl | hl
  · have hversion : '\n' ∉ "HTTP/1.1".toList := by decide
    rw [line]
    simp only [List.mem_append, List.mem_cons, not_or]
    exact ⟨hword _ hr.method, by decide, hword _ hr.target_word, by decide, hversion⟩
  · obtain ⟨f, hf, rfl⟩ := List.mem_map.mp hl
    exact hr.one_line f hf

theorem WellFormed.lines_ne_nil (hr : r.WellFormed) : [] ∉ r.lines := by
  intro hmem
  rcases List.mem_cons.mp hmem with hline | hfield
  · exact List.append_ne_nil_of_left_ne_nil hr.method.ne_nil _ hline.symm
  · obtain ⟨f, -, hf⟩ := List.mem_map.mp hfield
    exact List.append_ne_nil_of_right_ne_nil _ (List.cons_ne_nil _ _) hf

theorem WellFormed.linesOf_lines (hr : r.WellFormed) :
    linesOf (Utf8.encode (Text.joinCrlf r.lines)) = r.lines := by
  have hne : r.lines ≠ [] := List.cons_ne_nil _ _
  rw [linesOf, Utf8.lossy_encode, Text.splitCrlf_joinCrlf hne hr.lines_no_newline]

/-- No line is blank, so the blank line behind them is the first. -/
theorem WellFormed.isHead (hr : r.WellFormed) : IsHead r.head where
  ends := ⟨_, rfl⟩
  first := by
    refine Bool.eq_false_iff.mpr fun hblank => ?_
    obtain ⟨before, after, hcut⟩ := hasBlankLine_iff.mp hblank
    have hlast : r.head.dropLast = Utf8.encode (Text.joinCrlf r.lines) ++ 13 :: 10 :: [13] := by
      rw [head, blankLine, List.dropLast_append_of_ne_nil (List.cons_ne_nil _ _)]
      rfl
    have hlines : linesOf r.head.dropLast = r.lines ++ [['\r']] := by
      rw [hlast, linesOf, Utf8.lossy_crlf, Text.splitCrlf_append]
      exact congrArg (· ++ _) hr.linesOf_lines
    rw [← hcut, linesOf_append] at hlines
    have hmem : [] ∈ r.lines ++ [['\r']] :=
      hlines ▸ List.mem_append_right _ List.mem_cons_self
    rcases List.mem_append.mp hmem with hmem | hmem
    · exact hr.lines_ne_nil hmem
    · exact absurd (List.mem_singleton.mp hmem) (by decide)

theorem WellFormed.headLines_head (hr : r.WellFormed) : headLines r.head = r.lines := by
  have htake : r.head.take (r.head.length - 4) = Utf8.encode (Text.joinCrlf r.lines) := by
    simp [head, blankLine]
  rw [headLines, htake, hr.linesOf_lines]

/-- **What `handle` decides**: with the right token, the path and the parameters as they were
written, whatever follows the head. -/
theorem WellFormed.decision_head (hr : r.WellFormed) {given : List Char}
    (hgiven : r.token = some given) (token : List Char) (rest : List UInt8) :
    decision token (r.head ++ rest) =
      if given = token then .route r.path (render r.params) else .forbidden := by
  have hrequest : requestOf r.head = (r.method, r.target) := by
    rw [requestOf, hr.headLines_head, lines, List.headD_cons, hr.requestLine_line]
  have htoken : headToken r.head = some given := by
    rw [headToken, hr.headLines_head, lines, List.tail_cons, presented_fields hr.names]
    exact hgiven
  have hcut : Text.splitOnce '?' r.target = some (r.path, render r.params) :=
    Text.splitOnce_eq_some.mpr ⟨rfl, hr.path_query⟩
  rw [hr.isHead.decision_eq, hrequest, if_neg hr.not_options, htoken, Option.some_or, checkToken,
    Option.getD_some, hcut, Option.getD_some]
  by_cases heq : given = token
  · rw [if_pos heq, if_neg (not_not.mpr heq)]
  · rw [if_neg heq, if_pos heq]

theorem WellFormed.route_params {registered : Except Error WarpConfig}
    {connected : Except Error Connected} (hr : r.WellFormed) {call : Option Op}
    (hasks : r.Asks call) (hcall : Callable registered connected call) :
    route r.path (render r.params) registered connected = .ok call := by
  obtain ⟨before, after, hparams, hbefore⟩ := hasks.params
  have hplain := hr.params
  rw [hparams] at hplain ⊢
  rw [hasks.path]
  exact route_pathOf hcall fun p hp => param_paramOf hplain hbefore hp

end Request

end

/-- For the last id of all, with another parameter before it. -/
def selectLast : Request where
  method := "POST".toList
  path := "/api/select".toList
  params := [("v".toList, "1".toList), (slotKey, "-1".toList)]
  fields := [("Host".toList, " 127.0.0.1".toList), ("x-WARP-token".toList, "  s ".toList)]

theorem selectLast_wellFormed : selectLast.WellFormed where
  method := by decide
  not_options := by decide
  path := by decide
  path_query := by decide
  params := by decide
  params_solid := by
    intro p hp
    have hall : ∀ p ∈ selectLast.params, (p.1 ++ p.2).all (fun c => !isWhitespace c) = true := by
      decide
    exact solid_of_all (hall p hp)
  names := by decide
  one_line := by decide

def refused : Error := .tunnel "refused"

end WarpProxy.Control
