/-
# `WarpProxy.Trace` — the egress trace of `trace.rs`

`doFetch` asks `cdn-cgi/trace` over a TLS connection through the tunnel, reads to
the end of the connection, and takes what follows the first blank line for the
body: lines `key=value`, of which it keeps `ip`, `warp` and `colo`.

The framing of the response is not undone.  A body delimited by its length or by
the end of the connection is read as it is.  Of a chunked body the size lines and
the field lines say nothing, but each chunk is read as lines of its own, up to the
first blank line (`cutLines`): a chunk boundary is a line end.
-/
import Mathlib.Data.List.Induction
import Mathlib.Data.List.TakeWhile
import WarpProxy.Types
import WarpProxy.Lib.Http

namespace WarpProxy

/-- What is called on the way to the response, and what it returns. -/
structure TraceNet where
  resolve : String → Except String IpAddr
  connect : SocketAddr → Except String Unit
  clientConfig : List String → Except String Unit
  serverName : String → Except String Unit
  handshake : Except String Unit
  writeAll : String → Except String Unit
  readToEnd : Except String (List UInt8)

def traceHost : String := "www.cloudflare.com"

def traceRequest : String :=
  "GET /cdn-cgi/trace HTTP/1.1\r\nHost: " ++ traceHost ++
    "\r\nUser-Agent: warp-proxy\r\nAccept: */*\r\nConnection: close\r\n\r\n"

/-- One line of the body. -/
def TraceInfo.readLine (info : TraceInfo) (line : List Char) : TraceInfo :=
  match Text.splitOnce '=' line with
  | some (k, v) =>
      if k = "ip".toList then { info with ip := String.ofList (Text.trim v) }
      else if k = "warp".toList then { info with warp := String.ofList (Text.trim v) }
      else if k = "colo".toList then { info with colo := String.ofList (Text.trim v) }
      else info
  | none => info

/-- `TraceInfo::default()` -/
def TraceInfo.blank : TraceInfo := ⟨"", "", "", none⟩

def TraceInfo.outcome (info : TraceInfo) : Except String TraceInfo :=
  if info.ip = "" ∧ info.warp = "" then .error "no trace fields in response" else .ok info

def doFetch (net : TraceNet) : Except String TraceInfo := do
  let ip ← net.resolve traceHost
  net.connect ⟨ip, 443⟩
  net.clientConfig ["http/1.1"]
  net.serverName traceHost
  net.handshake
  net.writeAll traceRequest
  let buf ← net.readToEnd
  let text := Utf8.lossy buf
  let body := ((Text.splitStr "\r\n\r\n".toList text)[1]?).getD []
  ((Text.lines body).foldl TraceInfo.readLine .blank).outcome

/-! ## What is read from lines -/

/-- The value of the last line with the key, or nothing. -/
def lastValue (key : String) (lines : List (List Char)) : List Char :=
  lines.foldl (fun v line =>
    match Text.splitOnce '=' line with
    | some (k, v') => if k = key.toList then Text.trim v' else v
    | none => v) []

/-- The fields read from the two lists of lines are the same; with neither an `ip` nor a `warp`
the `colo` does not count. -/
structure SameFields (lines lines' : List (List Char)) : Prop where
  ip : lastValue "ip" lines = lastValue "ip" lines'
  warp : lastValue "warp" lines = lastValue "warp" lines'
  colo : lastValue "colo" lines = lastValue "colo" lines' ∨
    (lastValue "ip" lines' = [] ∧ lastValue "warp" lines' = [])

/-- The body, read as it is. -/
def traceOf (body : List UInt8) : Except String TraceInfo :=
  ((Text.lines (Utf8.lossy body)).foldl TraceInfo.readLine .blank).outcome

/-- The lines of the chunks, each cut into lines of its own, up to the first blank one. -/
def cutLines (chunks : List Http.Chunk) : List (List Char) :=
  ((chunks.flatMap fun c => Http.textLines c.data).takeWhile (· ≠ [])).flatMap Text.lines

theorem readLine_cr (info : TraceInfo) (line : List Char) :
    info.readLine (line ++ ['\r']) = info.readLine line := by
  have hws : ['\r'].all Text.isWhitespace = true := by decide
  rw [TraceInfo.readLine, TraceInfo.readLine]
  match hline : Text.splitOnce '=' line with
  | some (k, v) =>
      obtain ⟨rfl, hk⟩ := Text.splitOnce_eq_some.mp hline
      have hcr : Text.splitOnce '=' (k ++ '=' :: v ++ ['\r']) = some (k, v ++ ['\r']) :=
        Text.splitOnce_eq_some.mpr ⟨List.append_assoc .., hk⟩
      simp only [hcr, Text.trim_right hws]
  | none =>
      have hcr : Text.splitOnce '=' (line ++ ['\r']) = none := by
        rw [Text.splitOnce_eq_none] at hline ⊢
        simp [hline]
      simp only [hcr]

theorem readLine_blind : Text.Blind TraceInfo.readLine where
  cr := readLine_cr
  nil _ := rfl

/-- The three fields, each by itself. -/
theorem foldl_readLine (lines : List (List Char)) :
    lines.foldl TraceInfo.readLine .blank = ⟨String.ofList (lastValue "ip" lines),
      String.ofList (lastValue "colo" lines), String.ofList (lastValue "warp" lines), none⟩ := by
  induction lines using List.reverseRecOn with
  | nil => rfl
  | append_singleton lines line ih =>
      rw [List.foldl_append, ih]
      simp only [lastValue, List.foldl_append, List.foldl_cons, List.foldl_nil,
        TraceInfo.readLine]
      split
      · next k v _ =>
          by_cases hip : k = "ip".toList
          · subst hip
            rfl
          · by_cases hwarp : k = "warp".toList
            · subst hwarp
              rfl
            · by_cases hcolo : k = "colo".toList
              · subst hcolo
                rfl
              · simp only [if_neg hip, if_neg hwarp, if_neg hcolo]
      · rfl

theorem ofList_eq_empty {cs : List Char} : String.ofList cs = "" ↔ cs = [] :=
  @String.ofList_inj cs []

theorem outcome_eq_iff (lines lines' : List (List Char)) :
    (lines.foldl TraceInfo.readLine .blank).outcome =
      (lines'.foldl TraceInfo.readLine .blank).outcome ↔ SameFields lines lines' := by
  rw [foldl_readLine, foldl_readLine, TraceInfo.outcome, TraceInfo.outcome]
  simp only [ofList_eq_empty]
  constructor
  · intro h
    split at h
    · next hnone =>
        split at h
        · next hnone' =>
            exact ⟨hnone.1.trans hnone'.1.symm, hnone.2.trans hnone'.2.symm, .inr hnone'⟩
        · cases h
    · split at h
      · cases h
      · simp only [Except.ok.injEq, TraceInfo.mk.injEq, String.ofList_inj, and_true] at h
        exact ⟨h.1, h.2.2, .inl h.2.1⟩
  · rintro ⟨hip, hwarp, hcolo⟩
    rw [hip, hwarp]
    split
    · rfl
    · next hsome =>
        rw [hcolo.resolve_right hsome]

/-! ## Lines that say nothing -/

/-- A line whose key is none of the three. -/
theorem readLine_foreign (info : TraceInfo) {line : List Char}
    (h : ∀ k v, line = k ++ '=' :: v → '=' ∉ k →
      k ≠ "ip".toList ∧ k ≠ "warp".toList ∧ k ≠ "colo".toList) : info.readLine line = info := by
  rw [TraceInfo.readLine]
  match hline : Text.splitOnce '=' line with
  | some (k, v) =>
      obtain ⟨heq, hk⟩ := Text.splitOnce_eq_some.mp hline
      obtain ⟨hip, hwarp, hcolo⟩ := h k v heq hk
      simp only [if_neg hip, if_neg hwarp, if_neg hcolo]
  | none => rfl

/-- A size line begins like no key: none begins with a hexadecimal digit but `colo`, and no size
line goes on with an `o`. -/
theorem sizeLine_silent (l : Http.SizeLine) (info : TraceInfo) :
    Text.foldLines TraceInfo.readLine info (Utf8.lossy l.bytes) = info := by
  rw [readLine_blind.foldLines_line l.clean.lf_not_mem]
  refine readLine_foreign info fun k v heq _ => ⟨?_, ?_, ?_⟩
  · rintro rfl
    obtain ⟨bs, hbs, -⟩ := Utf8.lossy_head (c := 'i') (by constructor <;> decide) heq
    exact absurd (l.front hbs).1 (by decide)
  · rintro rfl
    obtain ⟨bs, hbs, -⟩ := Utf8.lossy_head (c := 'w') (by constructor <;> decide) heq
    exact absurd (l.front hbs).1 (by decide)
  · rintro rfl
    obtain ⟨bs, hbs, hrest⟩ := Utf8.lossy_head (c := 'c') (by constructor <;> decide) heq
    obtain ⟨bs', rfl, -⟩ := Utf8.lossy_head (c := 'o') (by constructor <;> decide) hrest
    exact absurd ((l.front hbs).2 _ _ rfl) (by decide)

/-- The key of a field line has the `:` in it, if there is a key. -/
theorem trailer_silent (t : Http.Trailer) (info : TraceInfo) :
    Text.foldLines TraceInfo.readLine info (Utf8.lossy t.bytes) = info := by
  have hname : '=' ∉ Utf8.lossy t.name := fun hmem =>
    t.name_not_mem (by decide) (Utf8.lossy_mem (by constructor <;> decide) hmem)
  have htext : Utf8.lossy t.bytes = Utf8.lossy t.name ++ ':' :: Utf8.lossy t.value :=
    Utf8.lossy_append_ascii _ (by decide) _
  rw [readLine_blind.foldLines_line t.bytes_clean.lf_not_mem]
  refine readLine_foreign info fun k v heq _ => ?_
  have hcolon : ':' ∈ k := by
    rw [htext] at heq
    rcases List.append_eq_append_iff.mp heq with ⟨cs, rfl, hrest⟩ | ⟨cs, hcs, hrest⟩
    · cases cs with
      | nil => exact absurd (List.cons.inj hrest).1 (by decide)
      | cons c cs =>
          rw [← (List.cons.inj hrest).1]
          exact List.mem_append_right _ List.mem_cons_self
    · cases cs with
      | nil => exact absurd (List.cons.inj hrest).1 (by decide)
      | cons c cs =>
          obtain rfl : '=' = c := (List.cons.inj hrest).1
          exact absurd (hcs ▸ List.mem_append_right _ List.mem_cons_self) hname
  refine ⟨?_, ?_, ?_⟩
  all_goals
    rintro rfl
    exact absurd hcolon (by decide)

/-! ## The body of a response -/

/-- Reading the body, whatever carries it: what follows the first blank line, up to the next. -/
def readBody (buf : List UInt8) : TraceInfo :=
  Text.foldLines TraceInfo.readLine .blank
    (((Text.splitStr Text.blank (Utf8.lossy buf))[1]?).getD [])

/-- What the fetch sees of the network: every call succeeds, and `buf` is read to the end. -/
structure TraceNet.Gives (net : TraceNet) (buf : List UInt8) : Prop where
  connected : ∃ ip, net.resolve traceHost = .ok ip ∧ net.connect ⟨ip, 443⟩ = .ok ()
  config : net.clientConfig ["http/1.1"] = .ok ()
  name : net.serverName traceHost = .ok ()
  handshake : net.handshake = .ok ()
  written : net.writeAll traceRequest = .ok ()
  read : net.readToEnd = .ok buf

theorem TraceNet.Gives.doFetch {net : TraceNet} {buf : List UInt8} (h : net.Gives buf) :
    doFetch net = (readBody buf).outcome := by
  obtain ⟨ip, hip, hconn⟩ := h.connected
  simp only [WarpProxy.doFetch, bind, Except.bind, hip, hconn, h.config, h.name, h.handshake,
    h.written, h.read]
  rfl

/-- A body as it is. -/
theorem readBody_whole {r : Http.Response} {body : List UInt8} (hr : r.payload = .whole body)
    (hbody : ¬ Http.crlf ++ Http.crlf <:+: body) :
    readBody r.bytes = Text.foldLines TraceInfo.readLine .blank (Utf8.lossy body) := by
  have hone := Text.splitStr_of_not_infix (Http.not_blank_lossy hbody)
  rw [readBody, r.splitStr, hr, Http.Payload.bytes, hone]
  rfl

/-- Lines that say nothing, up to a blank one. -/
theorem foldl_silent {f : TraceInfo → List Char → TraceInfo} {silent : List (List Char)}
    (h : ∀ line ∈ silent, ∀ info, f info line = info) (rest : List (List Char))
    (info : TraceInfo) : ((silent ++ [] :: rest).takeWhile (· ≠ [])).foldl f info = info := by
  induction silent with
  | nil => rfl
  | cons line silent ih =>
      rw [List.cons_append, List.takeWhile_cons]
      split
      · rw [List.foldl_cons, h line List.mem_cons_self]
        exact ih fun l hl => h l (List.mem_cons_of_mem _ hl)
      · rfl

/-- **The lines of a chunked body**: each chunk has its own, the others say nothing. -/
theorem foldl_chunked (chunks : List Http.Chunk) (last : { l : Http.SizeLine // l.value = 0 })
    (trailers : List Http.Trailer) (info : TraceInfo) :
    ((Http.textLines (Http.Payload.chunked chunks last trailers).bytes).takeWhile
        (· ≠ [])).foldl (Text.foldLines TraceInfo.readLine) info =
      ((chunks.flatMap fun c => Http.textLines c.data).takeWhile
        (· ≠ [])).foldl (Text.foldLines TraceInfo.readLine) info := by
  rw [Http.Payload.bytes]
  induction chunks generalizing info with
  | nil =>
      rw [List.flatMap_nil, List.nil_append, Http.last_lines]
      refine foldl_silent (fun line hline info => ?_) [[]] info
      rcases List.mem_cons.mp hline with rfl | hline
      · exact sizeLine_silent last.1 info
      · obtain ⟨t, -, rfl⟩ := List.mem_map.mp hline
        exact trailer_silent t info
  | cons c chunks ih =>
      have hne : decide (Utf8.lossy c.line.bytes ≠ []) = true :=
        decide_eq_true (Utf8.lossy_ne_nil c.line.bytes_ne)
      rw [List.flatMap_cons, List.append_assoc, c.lines, List.takeWhile_cons, if_pos hne,
        List.foldl_cons, sizeLine_silent, List.flatMap_cons, List.takeWhile_append,
        List.takeWhile_append]
      split
      · rw [List.foldl_append, List.foldl_append, ih]
      · rfl

theorem readBody_chunked {r : Http.Response} {chunks : List Http.Chunk}
    {last : { l : Http.SizeLine // l.value = 0 }} {trailers : List Http.Trailer}
    (hr : r.payload = .chunked chunks last trailers) :
    readBody r.bytes = (cutLines chunks).foldl TraceInfo.readLine .blank := by
  have hfirst : ∃ line lines, Http.textLines r.payload.bytes = line :: lines ∧ line ≠ [] := by
    rw [hr, Http.Payload.bytes]
    cases chunks with
    | nil => exact ⟨_, _, Http.last_lines .., Utf8.lossy_ne_nil last.1.bytes_ne⟩
    | cons c chunks =>
        rw [List.flatMap_cons, List.append_assoc, c.lines]
        exact ⟨_, _, rfl, Utf8.lossy_ne_nil c.line.bytes_ne⟩
  obtain ⟨line, lines, hlines, hne⟩ := hfirst
  obtain ⟨p, ps, hps, hfold⟩ := Text.foldl_paragraph (Text.foldLines TraceInfo.readLine)
    (fun _ => rfl) .blank line lines
  have hbody : Text.splitStr Text.blank (Utf8.lossy r.payload.bytes) =
      Text.joinCrlf p :: ps.map Text.joinCrlf := by
    rw [Text.splitStr_blank, show Text.splitCrlf _ = _ from hlines, hps]
    rfl
  have hwhile : line :: lines.takeWhile (· ≠ []) = (line :: lines).takeWhile (· ≠ []) := by
    rw [List.takeWhile_cons, if_pos (decide_eq_true hne)]
  rw [readBody, r.splitStr, hbody]
  show Text.foldLines TraceInfo.readLine .blank (Text.joinCrlf p) = _
  rw [readLine_blind.foldLines_joinCrlf, hfold, hwhile, ← hlines, hr, foldl_chunked, cutLines,
    List.foldl_flatMap]
  rfl

/-- The outcome for a body as it is, spelled out. -/
theorem traceOf_eq (body : List UInt8) :
    traceOf body =
      let lines := Text.lines (Utf8.lossy body)
      if lastValue "ip" lines = [] ∧ lastValue "warp" lines = [] then
        .error "no trace fields in response"
      else .ok ⟨String.ofList (lastValue "ip" lines), String.ofList (lastValue "colo" lines),
        String.ofList (lastValue "warp" lines), none⟩ := by
  rw [traceOf, foldl_readLine, TraceInfo.outcome]
  simp only [ofList_eq_empty]

/-- **The framing of the response.**  Carried as it is, a body is read as it is; carried in
chunks, it is read so exactly when cutting its lines at the chunk boundaries too, up to the first
blank line this makes, leaves the fields the same. -/
theorem doFetch_framing {net : TraceNet} (r : Http.Response) (hnet : net.Gives r.bytes)
    (hbody : ¬ Http.crlf ++ Http.crlf <:+: r.payload.body) :
    doFetch net = traceOf r.payload.body ↔ ∀ chunks last trailers,
      r.payload = .chunked chunks last trailers →
        SameFields (cutLines chunks) (Text.lines (Utf8.lossy r.payload.body)) := by
  rw [hnet.doFetch]
  match hr : r.payload with
  | .whole body =>
      rw [readBody_whole hr (by rw [hr] at hbody; exact hbody)]
      exact ⟨fun _ _ _ _ h => (by cases h), fun _ => rfl⟩
  | .chunked chunks last trailers =>
      rw [readBody_chunked hr, traceOf, outcome_eq_iff]
      constructor
      · intro h chunks' last' trailers' heq
        obtain ⟨rfl, -, -⟩ := Http.Payload.chunked.inj heq
        exact h
      · exact fun h => h chunks last trailers rfl

/-- A network that gives the bytes. -/
def TraceNet.giving (buf : List UInt8) : TraceNet where
  resolve _ := .ok (.v4 0)
  connect _ := .ok ()
  clientConfig _ := .ok ()
  serverName _ := .ok ()
  handshake := .ok ()
  writeAll _ := .ok ()
  readToEnd := .ok buf

theorem gives_giving (buf : List UInt8) : (TraceNet.giving buf).Gives buf :=
  ⟨⟨.v4 0, rfl, rfl⟩, rfl, rfl, rfl, rfl, rfl⟩

/-- A response in two chunks. -/
def inTwoChunks (c₁ c₂ : Http.Chunk) : Http.Response where
  head := [Utf8.ascii "HTTP/1.1 200 OK", Utf8.ascii "Transfer-Encoding: chunked"]
  payload := .chunked [c₁, c₂] ⟨.bare [0x30] 0 (by decide) (by decide), rfl⟩ []
  head_ne := List.cons_ne_nil _ _
  line_ne := by decide +kernel
  line_clean := by decide +kernel

/-- Cut between two lines. -/
theorem doFetch_framing_lines :
    let r := inTwoChunks
      ⟨.bare [0x42] 11 (by decide) (by decide), Utf8.ascii "ip=1.2.3.4\n", by decide +kernel,
        by decide +kernel⟩
      ⟨.bare [0x38] 8 (by decide) (by decide), Utf8.ascii "warp=on\n", by decide +kernel,
        by decide +kernel⟩
    doFetch (.giving r.bytes) = traceOf r.payload.body := by
  intro r
  refine (doFetch_framing r (gives_giving r.bytes) (by decide +kernel)).mpr ?_
  intro chunks last trailers heq
  obtain ⟨rfl, -, -⟩ := Http.Payload.chunked.inj heq
  exact ⟨by decide +kernel, by decide +kernel, .inl (by decide +kernel)⟩

/-- Cut inside the address: the front of it is taken for the whole. -/
theorem doFetch_cuts_value :
    let r := inTwoChunks
      ⟨.bare [0x35] 5 (by decide) (by decide), Utf8.ascii "ip=1.", by decide +kernel,
        by decide +kernel⟩
      ⟨.bare [0x65] 14 (by decide) (by decide), Utf8.ascii "2.3.4\nwarp=on\n",
        by decide +kernel, by decide +kernel⟩
    doFetch (.giving r.bytes) ≠ traceOf r.payload.body := by
  intro r h
  have hfront : (doFetch (.giving r.bytes)).toOption.map (·.ip) = some "1." := by
    decide +kernel
  have hwhole : (traceOf r.payload.body).toOption.map (·.ip) = some "1.2.3.4" := by
    decide +kernel
  rw [h, hwhole] at hfront
  exact absurd hfront (by decide)

/-! ## Chunks of whole lines -/

/-- Every chunk ends with a line end of the body that is not taken for one of the framing. -/
def WholeLines (chunks : List Http.Chunk) : Prop :=
  ∀ c ∈ chunks, (∃ bs, c.data = bs ++ [10]) ∧ [] ∉ Http.textLines c.data

theorem foldl_textLines (info : TraceInfo) (bs : List UInt8) :
    (Http.textLines bs).foldl (Text.foldLines TraceInfo.readLine) info =
      Text.foldLines TraceInfo.readLine info (Utf8.lossy bs) := by
  rw [← readLine_blind.foldLines_joinCrlf, Http.textLines, Text.joinCrlf_splitCrlf]

/-- **Chunks of whole lines do no harm.** -/
theorem WholeLines.sameFields {chunks : List Http.Chunk} (h : WholeLines chunks) :
    SameFields (cutLines chunks)
      (Text.lines (Utf8.lossy (chunks.flatMap Http.Chunk.data))) := by
  have hall : (chunks.flatMap fun c => Http.textLines c.data).takeWhile (· ≠ []) =
      chunks.flatMap fun c => Http.textLines c.data := by
    refine List.takeWhile_eq_self_iff.mpr fun line hline => decide_eq_true ?_
    obtain ⟨c, hc, hmem⟩ := List.mem_flatMap.mp hline
    exact fun heq => (h c hc).2 (heq ▸ hmem)
  have hfold : ∀ info : TraceInfo,
      (chunks.flatMap fun c => Http.textLines c.data).foldl
        (Text.foldLines TraceInfo.readLine) info =
          Text.foldLines TraceInfo.readLine info
            (Utf8.lossy (chunks.flatMap Http.Chunk.data)) := by
    clear hall
    induction chunks with
    | nil => exact fun _ => rfl
    | cons c chunks ih =>
        intro info
        obtain ⟨⟨bs, hbs⟩, -⟩ := h c List.mem_cons_self
        have hend : Text.foldLines TraceInfo.readLine info (Utf8.lossy (bs ++ [10])) =
            Text.foldLines TraceInfo.readLine info (Utf8.lossy bs) := by
          rw [Utf8.lossy_append_ascii bs (by decide) []]
          exact readLine_blind.foldLines_newline info (Utf8.lossy bs) []
        rw [List.flatMap_cons, List.foldl_append, foldl_textLines,
          ih fun c hc => h c (List.mem_cons_of_mem _ hc), List.flatMap_cons, hbs, hend,
          List.append_assoc, List.singleton_append, Utf8.lossy_append_ascii bs (by decide)]
        exact (readLine_blind.foldLines_newline info (Utf8.lossy bs) _).symm
  refine (outcome_eq_iff _ _).mp (congrArg TraceInfo.outcome ?_)
  rw [cutLines, hall, List.foldl_flatMap]
  exact hfold .blank

end WarpProxy
