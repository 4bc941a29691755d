/-
# `WarpProxy.Control.Message` — the bytes of a response

`write_json` and `write_resp` of `control.rs`, and with them what `handle` sends.

The path of a request and the texts of other servers end up in bodies.  None of it gets into the
head: whatever was asked and whatever `route` returned, what is sent is one message with a fixed
head but for its length, and nothing is left behind it (`answer_framed`).
-/
import WarpProxy.Control.Handle
import WarpProxy.Lib.HttpMessage

namespace WarpProxy.Control

open Http (Message lengthBytes)
open Utf8 (ascii)

/-! ## Writing -/

/-- `write_json` -/
def writeJson (status : String) (body : List Char) : List UInt8 :=
  Utf8.encode ("HTTP/1.1 ".toList ++ status.toList ++
    "\r\nContent-Type: application/json\r\nContent-Length: ".toList ++
    Nat.toDigits 10 (Utf8.encode body).length ++
    ("\r\nAccess-Control-Allow-Origin: *\r\n" ++
      "Access-Control-Allow-Headers: content-type, x-warp-token\r\n" ++
      "Access-Control-Allow-Methods: GET, POST, OPTIONS\r\nCache-Control: no-store\r\n" ++
      "Connection: close\r\n\r\n").toList ++ body)

/-- `write_resp` -/
def writeResp (status : String) (body : List Char) : List UInt8 :=
  Utf8.encode ("HTTP/1.1 ".toList ++ status.toList ++ "\r\nContent-Length: ".toList ++
    Nat.toDigits 10 (Utf8.encode body).length ++
    ("\r\nAccess-Control-Allow-Origin: *\r\n" ++
      "Access-Control-Allow-Headers: content-type, x-warp-token\r\n" ++
      "Access-Control-Allow-Methods: GET, POST, OPTIONS\r\nConnection: close\r\n\r\n").toList ++
    body)

/-- Which of the two `handle` calls. -/
def Decision.write : Decision → Response → List UInt8
  | .preflight, r => writeResp r.status r.body
  | .forbidden, r | .route _ _, r => writeJson r.status r.body

/-- The bytes that `handle` sends, or nothing where reading fails. -/
def answer (token : List Char) (route : List Char → List Char → Except (List Char) (List Char))
    (fails : Bool) (reads : List (List UInt8)) : Option (List UInt8) :=
  (readHead fails [] reads).map fun buf =>
    let d := decision token buf
    d.write (respond route d)

/-! ## The messages -/

/-- The fields behind the length. -/
def corsFields : List (List UInt8 × List UInt8) :=
  [(ascii "Access-Control-Allow-Origin", ascii "*"),
    (ascii "Access-Control-Allow-Headers", ascii "content-type, x-warp-token"),
    (ascii "Access-Control-Allow-Methods", ascii "GET, POST, OPTIONS")]

def statusLine (status : String) : List UInt8 := ascii ("HTTP/1.1 " ++ status)

/-- What `write_json` sends. -/
def jsonMessage (status : String) (body : List Char) : Message where
  start := statusLine status
  fields := [(ascii "Content-Type", ascii "application/json"),
      (ascii "Content-Length", lengthBytes (Utf8.encode body).length)] ++ corsFields ++
    [(ascii "Cache-Control", ascii "no-store"), (ascii "Connection", ascii "close")]
  body := Utf8.encode body

/-- What `write_resp` sends. -/
def respMessage (status : String) (body : List Char) : Message where
  start := statusLine status
  fields := [(ascii "Content-Length", lengthBytes (Utf8.encode body).length)] ++ corsFields ++
    [(ascii "Connection", ascii "close")]
  body := Utf8.encode body

/-- What is sent for a response: there is none with this status but to a preflight. -/
def Response.message (r : Response) : Message :=
  if r.status = "204 No Content" then respMessage r.status r.body else jsonMessage r.status r.body

/-- The status lines that there are. -/
def statuses : List String :=
  ["204 No Content", "403 Forbidden", "200 OK", "400 Bad Request"]

theorem respond_status (route : List Char → List Char → Except (List Char) (List Char))
    (d : Decision) : (respond route d).status ∈ statuses := by
  cases d with
  | preflight => simp [respond, statuses]
  | forbidden => simp [respond, statuses]
  | route path query =>
      simp only [respond]
      split <;> simp [statuses]

/-! ## They are what is written -/

theorem encode_append (xs ys : List Char) :
    Utf8.encode (xs ++ ys) = Utf8.encode xs ++ Utf8.encode ys := List.flatMap_append

theorem encode_statusLine : ∀ status ∈ statuses,
    Utf8.encode "HTTP/1.1 ".toList ++ Utf8.encode status.toList = statusLine status := by
  simp (disch := exact rfl) only [statuses, statusLine, List.forall_mem_cons, ascii,
    String.toList_append, Text.toList_literal]
  exact ⟨rfl, rfl, rfl, rfl, fun _ h => absurd h List.not_mem_nil⟩

-- the equations compare the bytes of the head one by one
set_option maxRecDepth 4000 in
theorem writeJson_eq {status : String} (h : status ∈ statuses) (body : List Char) :
    writeJson status body = (jsonMessage status body).bytes := by
  have hbefore : Utf8.encode "\r\nContent-Type: application/json\r\nContent-Length: ".toList =
      Http.crlf ++ (Http.fieldLine (ascii "Content-Type", ascii "application/json") ++
        (Http.crlf ++ (ascii "Content-Length" ++ [0x3A, 0x20]))) := by
    simp (disch := exact rfl) only [Http.fieldLine, ascii, Text.toList_literal]
    rfl
  have hafter : Utf8.encode ("\r\nAccess-Control-Allow-Origin: *\r\n" ++
      "Access-Control-Allow-Headers: content-type, x-warp-token\r\n" ++
      "Access-Control-Allow-Methods: GET, POST, OPTIONS\r\nCache-Control: no-store\r\n" ++
      "Connection: close\r\n\r\n").toList =
      Http.crlf ++ (((corsFields ++ [(ascii "Cache-Control", ascii "no-store"),
        (ascii "Connection", ascii "close")]).map Http.fieldLine).flatMap (· ++ Http.crlf) ++
        Http.crlf) := by
    simp (disch := exact rfl) only [corsFields, ascii, String.toList_append,
      Text.toList_literal]
    rfl
  rw [writeJson, encode_append, encode_append, encode_append, encode_append, encode_append,
    encode_statusLine status h, hbefore, hafter]
  simp only [Message.bytes, Message.lines, jsonMessage, List.cons_append, List.nil_append,
    List.map_cons, List.flatMap_cons, Http.fieldLine, lengthBytes, List.append_assoc]

set_option maxRecDepth 4000 in
theorem writeResp_eq {status : String} (h : status ∈ statuses) (body : List Char) :
    writeResp status body = (respMessage status body).bytes := by
  have hbefore : Utf8.encode "\r\nContent-Length: ".toList =
      Http.crlf ++ (ascii "Content-Length" ++ [0x3A, 0x20]) := by
    simp (disch := exact rfl) only [ascii, Text.toList_literal]
    rfl
  have hafter : Utf8.encode ("\r\nAccess-Control-Allow-Origin: *\r\n" ++
      "Access-Control-Allow-Headers: content-type, x-warp-token\r\n" ++
      "Access-Control-Allow-Methods: GET, POST, OPTIONS\r\nConnection: close\r\n\r\n").toList =
      Http.crlf ++ (((corsFields ++ [(ascii "Connection", ascii "close")]).map
        Http.fieldLine).flatMap (· ++ Http.crlf) ++ Http.crlf) := by
    simp (disch := exact rfl) only [corsFields, ascii, String.toList_append,
      Text.toList_literal]
    rfl
  rw [writeResp, encode_append, encode_append, encode_append, encode_append, encode_append,
    encode_statusLine status h, hbefore, hafter]
  simp only [Message.bytes, Message.lines, respMessage, List.cons_append, List.nil_append,
    List.map_cons, List.flatMap_cons, Http.fieldLine, lengthBytes, List.append_assoc]

/-! ## They can be read -/

theorem statusLine_sound : ∀ status ∈ statuses,
    statusLine status ≠ [] ∧ Http.Clean (statusLine status) := by
  simp (disch := exact rfl) only [statuses, statusLine, ascii, String.toList_append,
    Text.toList_literal]
  decide

theorem soundField_contentLength (n : Nat) :
    Http.SoundField (ascii "Content-Length", lengthBytes n) := by
  rw [ascii, Text.toList_literal rfl]
  exact Http.soundField_length (by decide) (List.all_eq_true.mp (by decide)) n

theorem contentLength_one (before : List (List UInt8 × List UInt8))
    {after : List (List UInt8 × List UInt8)} (n : Nat)
    (hbefore : before.filter Http.isContentLength = [])
    (hafter : after.filter Http.isContentLength = []) :
    Http.contentLength (before ++ (ascii "Content-Length", lengthBytes n) :: after) = some n := by
  have hname : Http.isContentLength (ascii "Content-Length", lengthBytes n) = true := by
    have hlower : (ascii "Content-Length").map Http.lowerByte = ascii "content-length" := by
      rw [ascii, ascii, Text.toList_literal rfl, Text.toList_literal rfl]
      rfl
    simp [Http.isContentLength, hlower]
  rw [Http.contentLength, List.filter_append, hbefore, List.filter_cons_of_pos hname, hafter]
  simp only [List.nil_append, if_neg (Http.lengthBytes_digits n).1, Http.decimal_lengthBytes]

/-- A field that can be written and is not the length. -/
def Fixed (f : List UInt8 × List UInt8) : Prop :=
  Http.SoundField f ∧ Http.isContentLength f = false

theorem fixed_type : Fixed (ascii "Content-Type", ascii "application/json") := by
  simp (disch := exact rfl) only [Fixed, Http.isContentLength, ascii, Text.toList_literal]
  decide

theorem fixed_rest : ∀ f ∈ corsFields ++ [(ascii "Cache-Control", ascii "no-store"),
    (ascii "Connection", ascii "close")], Fixed f := by
  simp (disch := exact rfl) only [corsFields, Fixed, Http.isContentLength, ascii,
    Text.toList_literal]
  decide

theorem filter_fixed {fields : List (List UInt8 × List UInt8)} (h : ∀ f ∈ fields, Fixed f) :
    fields.filter Http.isContentLength = [] :=
  List.filter_eq_nil_iff.mpr fun f hf => ne_true_of_eq_false (h f hf).2

theorem jsonMessage_sound {status : String} (h : status ∈ statuses) (body : List Char) :
    (jsonMessage status body).Sound := by
  obtain ⟨hne, hclean⟩ := statusLine_sound status h
  refine ⟨hne, hclean, ?_, ?_⟩
  · intro f hf
    simp only [jsonMessage, List.cons_append, List.nil_append, List.mem_cons] at hf
    rcases hf with rfl | rfl | hf
    · exact fixed_type.1
    · exact soundField_contentLength _
    · exact (fixed_rest f hf).1
  · have hbefore : ∀ f ∈ [(ascii "Content-Type", ascii "application/json")], Fixed f := by
      intro f hf
      rw [List.mem_singleton.mp hf]
      exact fixed_type
    exact contentLength_one [_] _ (filter_fixed hbefore) (filter_fixed fixed_rest)

theorem respMessage_sound {status : String} (h : status ∈ statuses) (body : List Char) :
    (respMessage status body).Sound := by
  obtain ⟨hne, hclean⟩ := statusLine_sound status h
  have hrest : ∀ f ∈ corsFields ++ [(ascii "Connection", ascii "close")], Fixed f := by
    intro f hf
    refine fixed_rest f ?_
    rcases List.mem_append.mp hf with hf | hf
    · exact List.mem_append_left _ hf
    · exact List.mem_append_right _ (List.mem_cons_of_mem _ hf)
  refine ⟨hne, hclean, ?_, ?_⟩
  · intro f hf
    simp only [respMessage, List.cons_append, List.nil_append, List.mem_cons] at hf
    rcases hf with rfl | hf
    · exact soundField_contentLength _
    · exact (hrest f hf).1
  · exact contentLength_one [] _ rfl (filter_fixed hrest)

theorem Decision.readMessage_write (route : List Char → List Char → Except (List Char) (List Char))
    (d : Decision) (more : List UInt8) :
    Http.readMessage (d.write (respond route d) ++ more)
      = some ((respond route d).message, more) := by
  have hstatus := respond_status route d
  cases d with
  | preflight =>
      rw [Decision.write, writeResp_eq hstatus]
      exact Http.readMessage_bytes (respMessage_sound hstatus _) more
  | forbidden =>
      rw [Decision.write, writeJson_eq hstatus]
      exact Http.readMessage_bytes (jsonMessage_sound hstatus _) more
  | route path query =>
      have hne : (respond route (.route path query)).status ≠ "204 No Content" := by
        simp only [respond]
        split <;> simp
      rw [Decision.write, writeJson_eq hstatus, Response.message, if_neg hne]
      exact Http.readMessage_bytes (jsonMessage_sound hstatus _) more

/-- **What a client reads**: whatever the stream brought and whatever `route` returned, one message
with the status and the body of the response, with nothing else of them in its head and nothing
left behind it. -/
theorem answer_framed {token : List Char}
    {route : List Char → List Char → Except (List Char) (List Char)} {fails : Bool}
    {reads : List (List UInt8)} {bytes : List UInt8}
    (h : answer token route fails reads = some bytes) :
    ∃ response call, handle token route fails reads = some (response, call)
      ∧ response.status ∈ statuses
      ∧ ∀ more, Http.readMessage (bytes ++ more) = some (response.message, more) := by
  obtain ⟨buf, hbuf, rfl⟩ := Option.map_eq_some_iff.mp h
  exact ⟨_, _, handle_of_readHead hbuf, respond_status route (decision token buf),
    Decision.readMessage_write route (decision token buf)⟩

/-- What a registration server may answer. -/
def splitText : List Char := "no\r\n\r\nHTTP/1.1 200 OK\r\nContent-Length: 0\r\n\r\n".toList

/-- An error with another message in its text. -/
theorem answer_framed_split : ∃ response call,
    handle ['s'] (fun _ _ => .error splitText) false
        [ascii "GET /api/rotate\r\nX-Warp-Token: s\r\n\r\n"] = some (response, call)
      ∧ response.status ∈ statuses
      ∧ ∀ more, Http.readMessage (writeJson "400 Bad Request"
          ("\x7b\"error\":".toList ++ jsonString splitText ++ "\x7d".toList) ++ more)
          = some (response.message, more) := by
  let buf := ascii "GET /api/rotate\r\nX-Warp-Token: s\r\n\r\n"
  have hbuf : readHead false [] [buf] = some buf := by decide +kernel
  have hdecision : decision ['s'] buf = .route "/api/rotate".toList [] := by decide +kernel
  refine answer_framed ?_
  rw [answer, hbuf, Option.map_some, hdecision]
  rfl

end WarpProxy.Control
