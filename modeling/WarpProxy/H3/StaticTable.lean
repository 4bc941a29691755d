/-
# `WarpProxy.H3.StaticTable` — the static table of the vendored `h3`

`qpack/static_.rs` has the table three times: as an array, for `get`, and twice as
a `match`, from a field (`find`) and from a name alone (`find_name`) to an index.
`find_eq` and `findName_eq` say that the three agree.
-/
import Mathlib.Data.List.Basic
import WarpProxy.Lib.Text

namespace WarpProxy.H3

/-- A byte string literal. -/
def bytes (s : String) : List UInt8 := s.toList.map fun c => UInt8.ofNat c.toNat

/-! ## `field.rs` -/

structure HeaderField where
  name : List UInt8
  value : List UInt8
  deriving DecidableEq, Repr

namespace HeaderField

def estimatedOverheadBytes : Nat := 32

def memSize (f : HeaderField) : Nat := f.name.length + f.value.length + estimatedOverheadBytes

def withValue (f : HeaderField) (value : List UInt8) : HeaderField := { f with value := value }

end HeaderField

/-! ## `static_.rs` -/

namespace StaticTable

inductive Error where
  | unknown (index : Nat)
  deriving DecidableEq, Repr

def field (name value : String) : HeaderField := ⟨bytes name, bytes value⟩

def predefinedHeaders : List HeaderField :=
  [
    field ":authority" "",
    field ":path" "/",
    field "age" "0",
    field "content-disposition" "",
    field "content-length" "0",
    field "cookie" "",
    field "date" "",
    field "etag" "",
    field "if-modified-since" "",
    field "if-none-match" "",
    field "last-modified" "",
    field "link" "",
    field "location" "",
    field "referer" "",
    field "set-cookie" "",
    field ":method" "CONNECT",
    field ":method" "DELETE",
    field ":method" "GET",
    field ":method" "HEAD",
    field ":method" "OPTIONS",
    field ":method" "POST",
    field ":method" "PUT",
    field ":scheme" "http",
    field ":scheme" "https",
    field ":status" "103",
    field ":status" "200",
    field ":status" "304",
    field ":status" "404",
    field ":status" "503",
    field "accept" "*/*",
    field "accept" "application/dns-message",
    field "accept-encoding" "gzip, deflate, br",
    field "accept-ranges" "bytes",
    field "access-control-allow-headers" "cache-control",
    field "access-control-allow-headers" "content-type",
    field "access-control-allow-origin" "*",
    field "cache-control" "max-age=0",
    field "cache-control" "max-age=2592000",
    field "cache-control" "max-age=604800",
    field "cache-control" "no-cache",
    field "cache-control" "no-store",
    field "cache-control" "public, max-age=31536000",
    field "content-encoding" "br",
    field "content-encoding" "gzip",
    field "content-type" "application/dns-message",
    field "content-type" "application/javascript",
    field "content-type" "application/json",
    field "content-type" "application/x-www-form-urlencoded",
    field "content-type" "image/gif",
    field "content-type" "image/jpeg",
    field "content-type" "image/png",
    field "content-type" "text/css",
    field "content-type" "text/html; charset=utf-8",
    field "content-type" "text/plain",
    field "content-type" "text/plain;charset=utf-8",
    field "range" "bytes=0-",
    field "strict-transport-security" "max-age=31536000",
    field "strict-transport-security" "max-age=31536000; includesubdomains",
    field "strict-transport-security" "max-age=31536000; includesubdomains; preload",
    field "vary" "accept-encoding",
    field "vary" "origin",
    field "x-content-type-options" "nosniff",
    field "x-xss-protection" "1; mode=block",
    field ":status" "100",
    field ":status" "204",
    field ":status" "206",
    field ":status" "302",
    field ":status" "400",
    field ":status" "403",
    field ":status" "421",
    field ":status" "425",
    field ":status" "500",
    field "accept-language" "",
    field "access-control-allow-credentials" "FALSE",
    field "access-control-allow-credentials" "TRUE",
    field "access-control-allow-headers" "*",
    field "access-control-allow-methods" "get",
    field "access-control-allow-methods" "get, post, options",
    field "access-control-allow-methods" "options",
    field "access-control-expose-headers" "content-length",
    field "access-control-request-headers" "content-type",
    field "access-control-request-method" "get",
    field "access-control-request-method" "post",
    field "alt-svc" "clear",
    field "authorization" "",
    field "content-security-policy" "script-src 'none'; object-src 'none'; base-uri 'none'",
    field "early-data" "1",
    field "expect-ct" "",
    field "forwarded" "",
    field "if-range" "",
    field "origin" "",
    field "purpose" "prefetch",
    field "server" "",
    field "timing-allow-origin" "*",
    field "upgrade-insecure-requests" "1",
    field "user-agent" "",
    field "x-forwarded-for" "",
    field "x-frame-options" "deny",
    field "x-frame-options" "sameorigin"
  ]

def get (index : Nat) : Except Error HeaderField :=
  match predefinedHeaders[index]? with
  | some f => .ok f
  | none => .error (.unknown index)

/-- The arms of `find`. -/
def findArms : List (HeaderField × Nat) :=
  [
    (field ":authority" "", 0),
    (field ":path" "/", 1),
    (field "age" "0", 2),
    (field "content-disposition" "", 3),
    (field "content-length" "0", 4),
    (field "cookie" "", 5),
    (field "date" "", 6),
    (field "etag" "", 7),
    (field "if-modified-since" "", 8),
    (field "if-none-match" "", 9),
    (field "last-modified" "", 10),
    (field "link" "", 11),
    (field "location" "", 12),
    (field "referer" "", 13),
    (field "set-cookie" "", 14),
    (field ":method" "CONNECT", 15),
    (field ":method" "DELETE", 16),
    (field ":method" "GET", 17),
    (field ":method" "HEAD", 18),
    (field ":method" "OPTIONS", 19),
    (field ":method" "POST", 20),
    (field ":method" "PUT", 21),
    (field ":scheme" "http", 22),
    (field ":scheme" "https", 23),
    (field ":status" "103", 24),
    (field ":status" "200", 25),
    (field ":status" "304", 26),
    (field ":status" "404", 27),
    (field ":status" "503", 28),
    (field "accept" "*/*", 29),
    (field "accept" "application/dns-message", 30),
    (field "accept-encoding" "gzip, deflate, br", 31),
    (field "accept-ranges" "bytes", 32),
    (field "access-control-allow-headers" "cache-control", 33),
    (field "access-control-allow-headers" "content-type", 34),
    (field "access-control-allow-origin" "*", 35),
    (field "cache-control" "max-age=0", 36),
    (field "cache-control" "max-age=2592000", 37),
    (field "cache-control" "max-age=604800", 38),
    (field "cache-control" "no-cache", 39),
    (field "cache-control" "no-store", 40),
    (field "cache-control" "public, max-age=31536000", 41),
    (field "content-encoding" "br", 42),
    (field "content-encoding" "gzip", 43),
    (field "content-type" "application/dns-message", 44),
    (field "content-type" "application/javascript", 45),
    (field "content-type" "application/json", 46),
    (field "content-type" "application/x-www-form-urlencoded", 47),
    (field "content-type" "image/gif", 48),
    (field "content-type" "image/jpeg", 49),
    (field "content-type" "image/png", 50),
    (field "content-type" "text/css", 51),
    (field "content-type" "text/html; charset=utf-8", 52),
    (field "content-type" "text/plain", 53),
    (field "content-type" "text/plain;charset=utf-8", 54),
    (field "range" "bytes=0-", 55),
    (field "strict-transport-security" "max-age=31536000", 56),
    (field "strict-transport-security" "max-age=31536000; includesubdomains", 57),
    (field "strict-transport-security" "max-age=31536000; includesubdomains; preload", 58),
    (field "vary" "accept-encoding", 59),
    (field "vary" "origin", 60),
    (field "x-content-type-options" "nosniff", 61),
    (field "x-xss-protection" "1; mode=block", 62),
    (field ":status" "100", 63),
    (field ":status" "204", 64),
    (field ":status" "206", 65),
    (field ":status" "302", 66),
    (field ":status" "400", 67),
    (field ":status" "403", 68),
    (field ":status" "421", 69),
    (field ":status" "425", 70),
    (field ":status" "500", 71),
    (field "accept-language" "", 72),
    (field "access-control-allow-credentials" "FALSE", 73),
    (field "access-control-allow-credentials" "TRUE", 74),
    (field "access-control-allow-headers" "*", 75),
    (field "access-control-allow-methods" "get", 76),
    (field "access-control-allow-methods" "get, post, options", 77),
    (field "access-control-allow-methods" "options", 78),
    (field "access-control-expose-headers" "content-length", 79),
    (field "access-control-request-headers" "content-type", 80),
    (field "access-control-request-method" "get", 81),
    (field "access-control-request-method" "post", 82),
    (field "alt-svc" "clear", 83),
    (field "authorization" "", 84),
    (field "content-security-policy" "script-src 'none'; object-src 'none'; base-uri 'none'", 85),
    (field "early-data" "1", 86),
    (field "expect-ct" "", 87),
    (field "forwarded" "", 88),
    (field "if-range" "", 89),
    (field "origin" "", 90),
    (field "purpose" "prefetch", 91),
    (field "server" "", 92),
    (field "timing-allow-origin" "*", 93),
    (field "upgrade-insecure-requests" "1", 94),
    (field "user-agent" "", 95),
    (field "x-forwarded-for" "", 96),
    (field "x-frame-options" "deny", 97),
    (field "x-frame-options" "sameorigin", 98)
  ]

def find (f : HeaderField) : Option Nat := findArms.lookup f

/-- The arms of `find_name`. -/
def findNameArms : List (List UInt8 × Nat) :=
  [
    (bytes ":authority", 0),
    (bytes ":path", 1),
    (bytes "age", 2),
    (bytes "content-disposition", 3),
    (bytes "content-length", 4),
    (bytes "cookie", 5),
    (bytes "date", 6),
    (bytes "etag", 7),
    (bytes "if-modified-since", 8),
    (bytes "if-none-match", 9),
    (bytes "last-modified", 10),
    (bytes "link", 11),
    (bytes "location", 12),
    (bytes "referer", 13),
    (bytes "set-cookie", 14),
    (bytes ":method", 15),
    (bytes ":scheme", 22),
    (bytes ":status", 24),
    (bytes "accept", 29),
    (bytes "accept-encoding", 31),
    (bytes "accept-ranges", 32),
    (bytes "access-control-allow-headers", 33),
    (bytes "access-control-allow-origin", 35),
    (bytes "cache-control", 36),
    (bytes "content-encoding", 42),
    (bytes "content-type", 44),
    (bytes "range", 55),
    (bytes "strict-transport-security", 56),
    (bytes "vary", 59),
    (bytes "x-content-type-options", 61),
    (bytes "x-xss-protection", 62),
    (bytes "accept-language", 72),
    (bytes "access-control-allow-credentials", 73),
    (bytes "access-control-allow-methods", 76),
    (bytes "access-control-expose-headers", 79),
    (bytes "access-control-request-headers", 80),
    (bytes "access-control-request-method", 81),
    (bytes "alt-svc", 83),
    (bytes "authorization", 84),
    (bytes "content-security-policy", 85),
    (bytes "early-data", 86),
    (bytes "expect-ct", 87),
    (bytes "forwarded", 88),
    (bytes "if-range", 89),
    (bytes "origin", 90),
    (bytes "purpose", 91),
    (bytes "server", 92),
    (bytes "timing-allow-origin", 93),
    (bytes "upgrade-insecure-requests", 94),
    (bytes "user-agent", 95),
    (bytes "x-forwarded-for", 96),
    (bytes "x-frame-options", 97)
  ]

def findName (name : List UInt8) : Option Nat := findNameArms.lookup name

/-! ### One table -/

/-- The row of each arm is the first that there is for its field. -/
theorem findArms_first :
    ∀ arm ∈ findArms, predefinedHeaders.findIdx? (· == arm.1) = some arm.2 := by
  simp (disch := exact rfl) only [findArms, predefinedHeaders, field, bytes, Text.toList_literal]
  decide +kernel

theorem findArms_all : ∀ f ∈ predefinedHeaders, (findArms.lookup f).isSome := by
  simp (disch := exact rfl) only [findArms, predefinedHeaders, field, bytes, Text.toList_literal]
  decide +kernel

theorem findNameArms_first :
    ∀ arm ∈ findNameArms, predefinedHeaders.findIdx? (·.name == arm.1) = some arm.2 := by
  simp (disch := exact rfl) only [findNameArms, predefinedHeaders, field, bytes,
    Text.toList_literal]
  decide +kernel

theorem findNameArms_all : ∀ f ∈ predefinedHeaders, (findNameArms.lookup f.name).isSome := by
  simp (disch := exact rfl) only [findNameArms, predefinedHeaders, field, bytes,
    Text.toList_literal]
  decide +kernel

section Lookup

variable {α κ : Type} [BEq κ] [LawfulBEq κ]

theorem mem_of_lookup {arms : List (κ × α)} {k : κ} {a : α} (h : arms.lookup k = some a) :
    (k, a) ∈ arms := by
  obtain ⟨before, after, rfl, -⟩ := List.lookup_eq_some_iff.mp h
  simp

/-- Arms that name the first row for each key, and every key, search the rows. -/
theorem lookup_eq_findIdx? {rows : List α} {key : α → κ} {arms : List (κ × Nat)}
    (hfirst : ∀ arm ∈ arms, rows.findIdx? (key · == arm.1) = some arm.2)
    (hall : ∀ row ∈ rows, (arms.lookup (key row)).isSome) (k : κ) :
    arms.lookup k = rows.findIdx? (key · == k) := by
  cases harm : arms.lookup k with
  | some i => exact (hfirst _ (mem_of_lookup harm)).symm
  | none =>
      refine (List.findIdx?_eq_none_iff.mpr fun row hrow => ?_).symm
      by_contra hkey
      have hk : key row = k := by simpa using hkey
      have hsome := hall row hrow
      rw [hk, harm] at hsome
      simp at hsome

end Lookup

/-- **`find` is a search in the table** for the field. -/
theorem find_eq (f : HeaderField) : find f = predefinedHeaders.findIdx? (· == f) :=
  @lookup_eq_findIdx? _ _ _ _ _ id _ findArms_first findArms_all f

/-- **`find_name` is a search in the table** for the first field of that name. -/
theorem findName_eq (name : List UInt8) :
    findName name = predefinedHeaders.findIdx? (·.name == name) :=
  @lookup_eq_findIdx? _ _ _ _ _ HeaderField.name _ findNameArms_first findNameArms_all name

theorem get_eq_ok_iff {index : Nat} {f : HeaderField} :
    get index = .ok f ↔ predefinedHeaders[index]? = some f := by
  unfold get
  split <;> simp_all

theorem get_find {f : HeaderField} {index : Nat} (h : find f = some index) :
    get index = .ok f := by
  rw [find_eq, List.findIdx?_eq_some_iff_getElem] at h
  obtain ⟨hlt, heq, -⟩ := h
  rw [get_eq_ok_iff, List.getElem?_eq_getElem hlt]
  simpa using heq

theorem get_findName {name : List UInt8} {index : Nat} (h : findName name = some index) :
    ∃ f, get index = .ok f ∧ f.name = name := by
  rw [findName_eq, List.findIdx?_eq_some_iff_getElem] at h
  obtain ⟨hlt, heq, -⟩ := h
  exact ⟨predefinedHeaders[index], get_eq_ok_iff.mpr (List.getElem?_eq_getElem hlt),
    by simpa using heq⟩

theorem find_lt {f : HeaderField} {index : Nat} (h : find f = some index) : index < 99 := by
  rw [find_eq, List.findIdx?_eq_some_iff_getElem] at h
  exact h.1

theorem findName_lt {name : List UInt8} {index : Nat} (h : findName name = some index) :
    index < 99 := by
  rw [findName_eq, List.findIdx?_eq_some_iff_getElem] at h
  exact h.1

end StaticTable

end WarpProxy.H3
