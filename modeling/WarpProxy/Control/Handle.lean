/-
# `WarpProxy.Control.Handle` — one request of the control API

`handle` of `control.rs`: it reads until its buffer holds a blank line, takes the buffer for
the head of a request, and decides from it whether to answer at once or to call `route`.

The buffer is the head and whatever of the body came with its last byte (`readHead_delivers`).
The lines of the body are searched for the token like those of the head, so the decision depends
on the head alone only where the search ends in the head, or finds nothing in the body
(`decides_on_head_iff`).
-/
import WarpProxy.Lib.Text
import WarpProxy.Lib.Utf8

namespace WarpProxy.Control

/-! ## Reading -/

/-- `b"\r\n\r\n"` -/
def blankLine : List UInt8 := [13, 10, 13, 10]

/-- `windows(4).any(|w| w == b"\r\n\r\n")` -/
def hasBlankLine : List UInt8 → Bool
  | [] => false
  | b :: bs => blankLine.isPrefixOf (b :: bs) || hasBlankLine bs

/-- The buffer of a `read`. -/
def readSize : Nat := 2048

def maxHead : Nat := 16 * 1024

/-- The read loop, with what each `read` gives; after them the stream ends, or a read fails. -/
def readHead (fails : Bool) (buf : List UInt8) : List (List UInt8) → Option (List UInt8)
  | [] => if fails then none else some buf
  | chunk :: reads =>
      if chunk = [] then some buf
      else
        let buf := buf ++ chunk
        if hasBlankLine buf || maxHead < buf.length then some buf else readHead fails buf reads

/-! ## Deciding -/

/-- `String::from_utf8_lossy` and `split("\r\n")` -/
def linesOf (buf : List UInt8) : List (List Char) := Text.splitCrlf (Utf8.lossy buf)

/-- The method and the target of a request line. -/
def requestLine (line : List Char) : List Char × List Char :=
  match Text.splitWhitespace line with
  | method :: target :: _ => (method, target)
  | [method] => (method, [])
  | [] => ([], [])

/-- The value of a line named `x-warp-token`. -/
def tokenOf (line : List Char) : Option (List Char) :=
  (Text.splitOnce ':' line).bind fun (k, v) =>
    if Text.eqIgnoreAsciiCase (Text.trim k) "x-warp-token".toList then some (Text.trim v) else none

/-- The first such value. -/
def presented (lines : List (List Char)) : Option (List Char) := lines.findSome? tokenOf

inductive Decision where
  /-- `OPTIONS` needs no token -/
  | preflight
  | forbidden
  | route (path query : List Char)
  deriving DecidableEq

/-- Behind the token check, whose value is empty if none is presented. -/
def checkToken (token target : List Char) (value : Option (List Char)) : Decision :=
  if value.getD [] ≠ token then .forbidden
  else
    let (path, query) := (Text.splitOnce '?' target).getD (target, [])
    .route path query

/-- What `handle` decides on what it has read. -/
def decision (token : List Char) (buf : List UInt8) : Decision :=
  let lines := linesOf buf
  let (method, target) := requestLine (lines.headD [])
  if method = "OPTIONS".toList then .preflight else checkToken token target (presented lines.tail)

/-! ## Answering -/

/-- `json_string` -/
def jsonString (s : List Char) : List Char :=
  let escaped := Text.replace '\n' [' '] (Text.replace '"' ['\\', '"']
    (Text.replace '\\' ['\\', '\\'] s))
  ['"'] ++ escaped ++ ['"']

structure Response where
  status : String
  body : List Char
  deriving DecidableEq

/-- The response, given what `route` returns. -/
def respond (route : List Char → List Char → Except (List Char) (List Char)) :
    Decision → Response
  | .preflight => ⟨"204 No Content", []⟩
  | .forbidden => ⟨"403 Forbidden", "\x7b\"error\":\"forbidden\"\x7d".toList⟩
  | .route path query =>
      match route path query with
      | .ok body => ⟨"200 OK", body⟩
      | .error msg =>
          ⟨"400 Bad Request", "\x7b\"error\":".toList ++ jsonString msg ++ "\x7d".toList⟩

/-- The call of `route`, if there is one. -/
def Decision.calls : Decision → Option (List Char × List Char)
  | .route path query => some (path, query)
  | _ => none

/-- `handle`: the response and the call of `route`, or nothing where reading fails. -/
def handle (token : List Char) (route : List Char → List Char → Except (List Char) (List Char))
    (fails : Bool) (reads : List (List UInt8)) :
    Option (Response × Option (List Char × List Char)) :=
  (readHead fails [] reads).map fun buf =>
    let d := decision token buf
    (respond route d, d.calls)

theorem handle_of_readHead {token : List Char}
    {route : List Char → List Char → Except (List Char) (List Char)} {fails : Bool}
    {reads : List (List UInt8)} {buf : List UInt8} (h : readHead fails [] reads = some buf) :
    handle token route fails reads =
      some (respond route (decision token buf), (decision token buf).calls) := by
  rw [handle, h]
  rfl

/-! ## The head -/

/-- Everything up to the first blank line, with it. -/
structure IsHead (head : List UInt8) : Prop where
  ends : ∃ pre, head = pre ++ blankLine
  first : hasBlankLine head.dropLast = false

/-- The lines above the blank line. -/
def headLines (head : List UInt8) : List (List Char) := linesOf (head.take (head.length - 4))

/-- The reads deliver the stream. -/
def Delivers (reads : List (List UInt8)) (stream : List UInt8) : Prop :=
  reads.flatten = stream ∧ ∀ chunk ∈ reads, chunk ≠ [] ∧ chunk.length ≤ readSize

theorem hasBlankLine_iff {bs : List UInt8} : hasBlankLine bs = true ↔ blankLine <:+: bs := by
  induction bs with
  | nil => exact iff_of_false Bool.false_ne_true (by simp [blankLine])
  | cons b bs ih =>
      rw [hasBlankLine, Bool.or_eq_true, ih, List.infix_cons_iff, List.isPrefixOf_iff_prefix]

theorem hasBlankLine_mono {bs bs' : List UInt8} (h : hasBlankLine bs = true) (hpre : bs <+: bs') :
    hasBlankLine bs' = true :=
  hasBlankLine_iff.mpr ((hasBlankLine_iff.mp h).trans hpre.isInfix)

section
variable {head body : List UInt8}

/-- A prefix of the stream holds a blank line exactly from the end of the head on. -/
theorem IsHead.hasBlankLine_iff (h : IsHead head) (body : List UInt8) {buf : List UInt8}
    (hbuf : buf <+: head ++ body) : hasBlankLine buf = true ↔ head.length ≤ buf.length := by
  constructor
  · intro hblank
    by_contra hshort
    have hpre : buf <+: head.dropLast := by
      rw [List.dropLast_eq_take]
      refine List.prefix_take_iff.mpr ⟨?_, by omega⟩
      exact List.prefix_of_prefix_length_le hbuf (List.prefix_append head body) (by omega)
    cases h.first.symm.trans (hasBlankLine_mono hblank hpre)
  · intro hle
    have hhead : hasBlankLine head = true := by
      obtain ⟨pre, rfl⟩ := h.ends
      exact Control.hasBlankLine_iff.mpr (List.suffix_append pre blankLine).isInfix
    exact hasBlankLine_mono hhead
      (List.prefix_of_prefix_length_le (List.prefix_append head body) hbuf hle)

/-- **The buffer** is the head, and at most what else fits into the read of its last byte. -/
theorem IsHead.readHead_from (h : IsHead head) (hlen : head.length ≤ maxHead) {fails : Bool}
    {reads : List (List UInt8)} (hreads : ∀ chunk ∈ reads, chunk ≠ [] ∧ chunk.length ≤ readSize)
    {buf : List UInt8} (hstream : buf ++ reads.flatten = head ++ body)
    (hbuf : buf.length < head.length) :
    ∃ k < readSize, readHead fails buf reads = some (head ++ body.take k) := by
  induction reads generalizing buf with
  | nil =>
      have hlength := congrArg List.length hstream
      simp only [List.flatten_nil, List.append_nil, List.length_append] at hlength
      omega
  | cons chunk reads ih =>
      obtain ⟨hne, hsize⟩ := hreads chunk List.mem_cons_self
      rw [List.flatten_cons, ← List.append_assoc] at hstream
      have hpre : buf ++ chunk <+: head ++ body := ⟨reads.flatten, hstream⟩
      have hblank := h.hasBlankLine_iff body hpre
      rw [readHead, if_neg hne]
      dsimp only
      by_cases hle : head.length ≤ (buf ++ chunk).length
      · rw [hblank.mpr hle, Bool.true_or, if_pos rfl]
        refine ⟨(buf ++ chunk).length - head.length, ?_, congrArg some ?_⟩
        · rw [List.length_append] at hle ⊢
          omega
        · obtain ⟨rest, hrest⟩ := hpre
          have htake := congrArg (List.take (buf ++ chunk).length) hrest
          rw [List.take_left, List.take_append, List.take_of_length_le hle] at htake
          exact htake
      · have hnot : hasBlankLine (buf ++ chunk) = false :=
          Bool.eq_false_iff.mpr fun hb => hle (hblank.mp hb)
        have hshort : ¬ maxHead < (buf ++ chunk).length := by omega
        rw [hnot, Bool.false_or, decide_eq_false hshort, if_neg Bool.false_ne_true]
        exact ih (fun c hc => hreads c (List.mem_cons_of_mem _ hc)) hstream (by omega)

theorem IsHead.readHead_delivers (h : IsHead head) (hlen : head.length ≤ maxHead) {fails : Bool}
    {reads : List (List UInt8)} (hreads : Delivers reads (head ++ body)) :
    ∃ k < readSize, readHead fails [] reads = some (head ++ body.take k) := by
  refine h.readHead_from hlen hreads.2 hreads.1 ?_
  obtain ⟨pre, rfl⟩ := h.ends
  simp [blankLine]

/-- Bytes that come one by one and do not complete the head are kept. -/
theorem IsHead.readHead_singles (h : IsHead head) (hlen : head.length ≤ maxHead) {fails : Bool}
    (xs : List UInt8) {buf : List UInt8} (hpre : buf ++ xs <+: head)
    (hshort : (buf ++ xs).length < head.length) (reads : List (List UInt8)) :
    readHead fails buf (xs.map ([·]) ++ reads) = readHead fails (buf ++ xs) reads := by
  induction xs generalizing buf with
  | nil => rw [List.map_nil, List.nil_append, List.append_nil]
  | cons x xs ih =>
      rw [List.append_cons] at hpre hshort
      have hblank := h.hasBlankLine_iff []
        ((List.prefix_append (buf ++ [x]) xs).trans (hpre.trans (List.prefix_append head [])))
      have hlt : (buf ++ [x]).length < head.length := by
        rw [List.length_append] at hshort
        omega
      have hnot : hasBlankLine (buf ++ [x]) = false :=
        Bool.eq_false_iff.mpr fun hb => absurd (hblank.mp hb) (Nat.not_le.mpr hlt)
      have hmax : ¬ maxHead < (buf ++ [x]).length := by omega
      rw [List.map_cons, List.cons_append, readHead, if_neg (List.cons_ne_nil x [])]
      dsimp only
      rw [hnot, Bool.false_or, decide_eq_false hmax, if_neg Bool.false_ne_true, ih hpre hshort,
        ← List.append_cons]

/-- Any such buffer comes up: the head but one byte in reads of one byte, then that byte with the
beginning of the body. -/
theorem IsHead.exists_delivers (h : IsHead head) (hlen : head.length ≤ maxHead) (fails : Bool)
    (body : List UInt8) {k : Nat} (hk : k < readSize) : ∃ reads, Delivers reads (head ++ body) ∧
      readHead fails [] reads = some (head ++ body.take k) := by
  have hne : head ≠ [] := by
    obtain ⟨pre, rfl⟩ := h.ends
    exact List.append_ne_nil_of_right_ne_nil pre (by decide)
  have hlast := List.dropLast_append_getLast hne
  have hsingles : ∀ xs : List UInt8, (xs.map ([·])).flatten = xs := fun xs => by
    rw [← List.flatMap_def, List.flatMap_singleton']
  have hone : ∀ (xs : List UInt8), ∀ chunk ∈ xs.map ([·]),
      chunk ≠ [] ∧ chunk.length ≤ readSize := by
    intro xs chunk hchunk
    obtain ⟨x, -, rfl⟩ := List.mem_map.mp hchunk
    exact ⟨List.cons_ne_nil x [], (by decide : 1 ≤ readSize)⟩
  let chunk := head.getLast hne :: body.take k
  have hbuf : head.dropLast ++ chunk = head ++ body.take k := by
    rw [List.append_cons, hlast]
  refine ⟨head.dropLast.map ([·]) ++ chunk :: (body.drop k).map ([·]), ⟨?_, ?_⟩, ?_⟩
  · rw [List.flatten_append, List.flatten_cons, hsingles, hsingles, ← List.append_assoc, hbuf,
      List.append_assoc, List.take_append_drop]
  · intro c hc
    rcases List.mem_append.mp hc with hc | hc
    · exact hone _ c hc
    · rcases List.mem_cons.mp hc with rfl | hc
      · refine ⟨List.cons_ne_nil _ _, ?_⟩
        have hle := List.length_take_le k body
        rw [List.length_cons]
        omega
      · exact hone _ c hc
  · have hshort : ([] ++ head.dropLast).length < head.length := by
      have hpos := List.length_pos_of_ne_nil hne
      rw [List.nil_append, List.length_dropLast]
      omega
    have hblank : hasBlankLine (head ++ body.take k) = true :=
      (h.hasBlankLine_iff body
        ((List.prefix_append_right_inj head).mpr (List.take_prefix k body))).mpr
        (by rw [List.length_append]; omega)
    rw [h.readHead_singles hlen head.dropLast (List.dropLast_prefix head) hshort, readHead,
      if_neg (List.cons_ne_nil _ _), List.nil_append, hbuf]
    dsimp only
    rw [hblank, Bool.true_or, if_pos rfl]

/-! ## What the decision reads -/

theorem linesOf_append (pre rest : List UInt8) :
    linesOf (pre ++ blankLine ++ rest) = linesOf pre ++ [] :: linesOf rest := by
  have hcrlf : ∀ xs ys : List UInt8, linesOf (xs ++ 13 :: 10 :: ys) = linesOf xs ++ linesOf ys := by
    intro xs ys
    rw [linesOf, Utf8.lossy_crlf]
    exact Text.splitCrlf_append ..
  rw [blankLine, List.append_assoc]
  exact (hcrlf pre (13 :: 10 :: rest)).trans
    (congrArg (linesOf pre ++ ·) (hcrlf [] rest))

theorem IsHead.linesOf_append (h : IsHead head) (rest : List UInt8) :
    linesOf (head ++ rest) = headLines head ++ [] :: linesOf rest := by
  obtain ⟨pre, rfl⟩ := h.ends
  have htake : (pre ++ blankLine).take ((pre ++ blankLine).length - 4) = pre := by
    simp [blankLine]
  rw [headLines, htake]
  exact Control.linesOf_append pre rest

theorem headLines_ne_nil (head : List UInt8) : headLines head ≠ [] := Text.splitCrlf_ne_nil _

/-- The request line, cut into its method and its target. -/
def requestOf (head : List UInt8) : List Char × List Char :=
  requestLine ((headLines head).headD [])

/-- The token among the header lines. -/
def headToken (head : List UInt8) : Option (List Char) := presented (headLines head).tail

/-- **What the decision depends on**: request line and header lines, and the lines of what follows
if no header line presents a token. -/
theorem IsHead.decision_eq (h : IsHead head) (token : List Char) (rest : List UInt8) :
    decision token (head ++ rest) =
      if (requestOf head).1 = "OPTIONS".toList then .preflight
      else checkToken token (requestOf head).2
        ((headToken head).or (presented (linesOf rest))) := by
  obtain ⟨line, lines, hlines⟩ := List.exists_cons_of_ne_nil (headLines_ne_nil head)
  have hbuf := h.linesOf_append rest
  rw [hlines, List.cons_append] at hbuf
  have hpresented : presented (lines ++ [] :: linesOf rest) =
      (presented lines).or (presented (linesOf rest)) := by
    rw [presented, List.findSome?_append]
    rfl
  rw [decision, hbuf, requestOf, headToken, hlines]
  simp only [List.headD_cons, List.tail_cons, hpresented]
  rfl

theorem checkToken_forbidden {token target : List Char} {value : Option (List Char)}
    (htoken : token ≠ []) (hvalue : value ≠ some token) :
    checkToken token target value = .forbidden := by
  rw [checkToken, if_pos]
  cases value with
  | none => exact htoken.symm
  | some v => exact fun hv => hvalue (congrArg some hv)

theorem checkToken_calls {token target : List Char} {value : Option (List Char)}
    {call : List Char × List Char} (htoken : token ≠ [])
    (h : (checkToken token target value).calls = some call) : value = some token := by
  by_contra hvalue
  rw [checkToken_forbidden htoken hvalue] at h
  cases h

/-! ## Whether the head decides -/

/-- The method is not `OPTIONS`, and the first header line named `x-warp-token` has the token. -/
def Authorised (token : List Char) (head : List UInt8) : Prop :=
  (requestOf head).1 ≠ "OPTIONS".toList ∧ headToken head = some token

/-- `OPTIONS`, or a header line presents some token, or no beginning of the body that can come with
the head presents the right one. -/
def DecidedByHead (token : List Char) (head body : List UInt8) : Prop :=
  (requestOf head).1 = "OPTIONS".toList ∨ headToken head ≠ none ∨
    ∀ k < readSize, presented (linesOf (body.take k)) ≠ some token

/-- The response status and the call of `route`. -/
def outcome (token : List Char) (route : List Char → List Char → Except (List Char) (List Char))
    (fails : Bool) (reads : List (List UInt8)) :
    Option (String × Option (List Char × List Char)) :=
  (handle token route fails reads).map fun (response, call) => (response.status, call)

theorem outcome_eq {fails : Bool} {reads : List (List UInt8)} {buf : List UInt8}
    (h : readHead fails [] reads = some buf) (token : List Char)
    (route : List Char → List Char → Except (List Char) (List Char)) :
    outcome token route fails reads =
      some ((respond route (decision token buf)).status, (decision token buf).calls) := by
  rw [outcome, handle, h]
  rfl

/-- Where the head decides, what follows does not matter. -/
theorem IsHead.decision_head (h : IsHead head) {token : List Char} (htoken : token ≠ [])
    (hdec : DecidedByHead token head body) {k : Nat} (hk : k < readSize) :
    decision token (head ++ body.take k) = decision token (head ++ body.take 0) := by
  rw [h.decision_eq, h.decision_eq]
  rcases hdec with hmethod | hhead | hbody
  · rw [if_pos hmethod, if_pos hmethod]
  · obtain ⟨v, hv⟩ := Option.ne_none_iff_exists'.mp hhead
    rw [hv, Option.some_or, Option.some_or]
  · cases headToken head with
    | some v => rw [Option.some_or, Option.some_or]
    | none =>
        rw [Option.none_or, Option.none_or, checkToken_forbidden htoken (hbody k hk),
          checkToken_forbidden htoken (hbody 0 (by decide))]

/-- And a call of `route` is for an authorised head. -/
theorem IsHead.authorised (h : IsHead head) {token : List Char} (htoken : token ≠ [])
    (hdec : DecidedByHead token head body) {k : Nat} (hk : k < readSize)
    {call : List Char × List Char}
    (hcall : (decision token (head ++ body.take k)).calls = some call) : Authorised token head := by
  rw [h.decision_eq] at hcall
  split at hcall
  · cases hcall
  · next hmethod =>
      have hvalue := checkToken_calls htoken hcall
      refine ⟨hmethod, ?_⟩
      rcases hdec with hoptions | hhead | hbody
      · exact absurd hoptions hmethod
      · obtain ⟨v, hv⟩ := Option.ne_none_iff_exists'.mp hhead
        rw [hv, Option.some_or] at hvalue
        exact hv.trans hvalue
      · cases hhead : headToken head with
        | some v =>
            rw [hhead, Option.some_or] at hvalue
            exact hvalue
        | none =>
            rw [hhead, Option.none_or] at hvalue
            exact absurd hvalue (hbody k hk)

/-- **When the control API decides on the head only**: for a head of at most 16 KiB and a token that
is not empty, every two ways in which the stream can arrive have the same status and the same call
of `route`, and `route` is called for authorised heads only, exactly if the head decides. -/
theorem decides_on_head_iff {token : List Char} (htoken : token ≠ []) {head : List UInt8}
    (h : IsHead head) (hlen : head.length ≤ maxHead) (body : List UInt8)
    (route : List Char → List Char → Except (List Char) (List Char)) (fails : Bool) :
    ((∀ reads reads', Delivers reads (head ++ body) → Delivers reads' (head ++ body) →
        outcome token route fails reads = outcome token route fails reads') ∧
      ∀ reads, Delivers reads (head ++ body) → ∀ status call,
        outcome token route fails reads = some (status, some call) → Authorised token head) ↔
      DecidedByHead token head body := by
  constructor
  · rintro ⟨-, hauth⟩
    by_contra hdec
    simp only [DecidedByHead, not_or, not_forall, not_not] at hdec
    obtain ⟨hmethod, hnone, k, hk, hpresented⟩ := hdec
    obtain ⟨reads, hreads, hbuf⟩ := h.exists_delivers hlen fails body hk
    have hdecision := h.decision_eq token (body.take k)
    rw [if_neg hmethod, hnone, Option.none_or, hpresented, checkToken, Option.getD_some,
      if_neg (not_not.mpr rfl)] at hdecision
    have hout := outcome_eq hbuf token route
    rw [hdecision] at hout
    obtain ⟨-, hsome⟩ := hauth reads hreads _ _ hout
    rw [hnone] at hsome
    cases hsome
  · intro hdec
    have hall : ∀ reads, Delivers reads (head ++ body) → ∃ k < readSize,
        outcome token route fails reads =
          some ((respond route (decision token (head ++ body.take k))).status,
            (decision token (head ++ body.take k)).calls) := by
      intro reads hreads
      obtain ⟨k, hk, hbuf⟩ := h.readHead_delivers hlen hreads
      exact ⟨k, hk, outcome_eq hbuf token route⟩
    constructor
    · intro reads reads' hreads hreads'
      obtain ⟨k, hk, hout⟩ := hall reads hreads
      obtain ⟨k', hk', hout'⟩ := hall reads' hreads'
      rw [hout, hout', h.decision_head htoken hdec hk, h.decision_head htoken hdec hk']
    · intro reads hreads status call hcall
      obtain ⟨k, hk, hout⟩ := hall reads hreads
      rw [hcall, Option.some.injEq, Prod.mk.injEq] at hout
      exact h.authorised htoken hdec hk hout.2.symm

end

/-- A header line presents the token; another line of the kind in the body is not looked at, whether
it comes with the head or after it. -/
theorem decides_on_head_iff_header :
    outcome ['s'] (fun _ _ => .ok []) false
        [Utf8.ascii "GET /api/toggle\r\nX-Warp-Token: s\r\n\r\n", Utf8.ascii "x-warp-token: t"] =
      outcome ['s'] (fun _ _ => .ok []) false
        [Utf8.ascii "GET /api/toggle\r\nX-Warp-Token: s\r\n\r\n" ++ Utf8.ascii "x-warp-token: t"]
    := by
  let head := Utf8.ascii "GET /api/toggle\r\nX-Warp-Token: s\r\n\r\n"
  let body := Utf8.ascii "x-warp-token: t"
  have hhead : IsHead head :=
    ⟨⟨Utf8.ascii "GET /api/toggle\r\nX-Warp-Token: s", by decide +kernel⟩, by decide +kernel⟩
  have htoken : headToken head ≠ none := by decide +kernel
  have halone : Delivers [head, body] (head ++ body) := ⟨by decide +kernel, by decide +kernel⟩
  have htogether : Delivers [head ++ body] (head ++ body) := ⟨by decide +kernel, by decide +kernel⟩
  exact ((decides_on_head_iff (by decide) hhead (by decide +kernel) body (fun _ _ => .ok [])
    false).mpr (.inr (.inl htoken))).1 _ _ halone htogether

/-- A request without a token whose body begins with a line that presents one: it is refused if the
body comes by itself, and let through if the body comes with the end of the head. -/
theorem body_authorises : ∃ (token : List Char) (head body : List UInt8)
    (reads reads' : List (List UInt8)) (path query : List Char), token ≠ [] ∧ IsHead head ∧
      head.length ≤ maxHead ∧ Delivers reads (head ++ body) ∧ Delivers reads' (head ++ body) ∧
      ¬ Authorised token head ∧
      ∀ (route : List Char → List Char → Except (List Char) (List Char)) (fails : Bool),
        outcome token route fails reads = some ("403 Forbidden", none) ∧
        ∃ status, outcome token route fails reads' = some (status, some (path, query)) := by
  let head := Utf8.ascii "GET /api/toggle?on=0\r\n\r\n"
  let body := Utf8.ascii "x-warp-token: s"
  refine ⟨['s'], head, body, [head, body], [head ++ body], "/api/toggle".toList, "on=0".toList,
    by decide, ⟨⟨Utf8.ascii "GET /api/toggle?on=0", by decide +kernel⟩, by decide +kernel⟩,
    by decide +kernel, ⟨by decide +kernel, by decide +kernel⟩,
    ⟨by decide +kernel, by decide +kernel⟩, ?_, fun route fails => ?_⟩
  · rintro ⟨-, h⟩
    exact absurd h (by decide +kernel)
  · have halone : readHead fails [] [head, body] = some head := by
      cases fails <;> decide +kernel
    have htogether : readHead fails [] [head ++ body] = some (head ++ body) := by
      cases fails <;> decide +kernel
    have hforbidden : decision ['s'] head = .forbidden := by decide +kernel
    have hroute : decision ['s'] (head ++ body) = .route "/api/toggle".toList "on=0".toList := by
      decide +kernel
    rw [outcome_eq halone, outcome_eq htogether, hforbidden, hroute]
    exact ⟨rfl, _, rfl⟩

end WarpProxy.Control
