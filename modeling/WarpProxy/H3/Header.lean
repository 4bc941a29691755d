/-
# `WarpProxy.H3.Header` — the fields of a request and of an answer

`proto/headers.rs` of the vendored `h3`: the pseudo-header fields of a message and the
map of the others, as the list of fields that QPACK encodes, and back.  Methods, URIs,
status codes, field names and maps of fields are those of the `http` crate, which is a
parameter (`Http`) with what its documentation says of it (`HttpLaws`).

`tryFrom_iter` is the round trip, for every header.
-/
import WarpProxy.Lib.Multimap
import WarpProxy.H3.StaticTable

namespace WarpProxy.H3

/-! ## The `http` crate -/

/-- `uri::Parts`; a `PathAndQuery` is its path and the whole of `as_str`. -/
structure UriParts where
  scheme : Option (List UInt8)
  authority : Option (List UInt8)
  pathAndQuery : Option (List UInt8 × List UInt8)
  deriving DecidableEq

/-- What the code calls, on a `Uri` and a `HeaderMap`; a value of any other type is the text
that it is printed as.  The first six are parsers, and those of `try_value` include the check
that the bytes are UTF-8. -/
structure Http (Uri HeaderMap : Type) where
  method : List UInt8 → Option (List UInt8)
  scheme : List UInt8 → Option (List UInt8)
  authority : List UInt8 → Option (List UInt8)
  pathAndQuery : List UInt8 → Option (List UInt8)
  name : List UInt8 → Option (List UInt8)
  value : List UInt8 → Option (List UInt8)
  /-- `StatusCode::from_bytes` -/
  status : List UInt8 → Option Nat
  /-- `StatusCode::as_str` -/
  statusText : Nat → List UInt8
  /-- `Uri::authority` -/
  uriAuthority : Uri → Option (List UInt8)
  /-- `uri::Parts::from` -/
  parts : Uri → UriParts
  /-- the most that `with_capacity` takes -/
  maxCapacity : Nat
  /-- `with_capacity`; `none` is its panic -/
  withCapacity : Nat → Option HeaderMap
  append : HeaderMap → List UInt8 → List UInt8 → HeaderMap
  get : HeaderMap → List UInt8 → Option (List UInt8)
  getAll : HeaderMap → List UInt8 → List (List UInt8)
  intoIter : HeaderMap → List (Option (List UInt8) × List UInt8)

section
variable {Uri HeaderMap : Type}

/-- What the crate says of itself.  What is printed is parsed again; nothing is said of the
order in which a map is gone over, but that the values of a name come one after the other in
theirs, the first of them with the name. -/
structure HttpLaws (http : Http Uri HeaderMap) : Prop where
  /-- a name is a token, so that it is not empty and has no colon -/
  name_token : ∀ s t, http.name s = some t → t ≠ [] ∧ t.head? ≠ some 0x3A
  status_text : ∀ n, 100 ≤ n → n ≤ 999 → http.status (http.statusText n) = some n
  https : http.scheme (bytes "https") = some (bytes "https")
  root : http.pathAndQuery (bytes "/") = some (bytes "/")
  parts_scheme : ∀ uri s, (http.parts uri).scheme = some s → http.scheme s = some s
  parts_authority : ∀ uri a, (http.parts uri).authority = some a → http.authority a = some a
  parts_path : ∀ uri p, (http.parts uri).pathAndQuery = some p → http.pathAndQuery p.2 = some p.2
  entry : ∀ m k v, v ∈ http.getAll m k → http.name k = some k ∧ http.value v = some v
  with_capacity : ∀ n, n ≤ http.maxCapacity →
    ∃ m, http.withCapacity n = some m ∧ ∀ k, http.getAll m k = []
  append : ∀ m k v, http.name k = some k → http.value v = some v → ∀ k',
    http.getAll (http.append m k v) k'
      = if k' = k then http.getAll m k ++ [v] else http.getAll m k'
  into_iter : ∀ m, ∃ entries : Multimap (List UInt8) (List UInt8),
    http.intoIter m = entries.yielded ∧ ∀ k, http.getAll m k = entries.getAll k

end

/-! ## `ext.rs` -/

inductive Protocol where
  | webTransport
  | connectUdp
  | cfConnectIp
  deriving DecidableEq

namespace Protocol

def asStr : Protocol → List UInt8
  | webTransport => bytes "webtransport"
  | connectUdp => bytes "connect-udp"
  | cfConnectIp => bytes "cf-connect-ip"

def fromStr (s : List UInt8) : Option Protocol :=
  if s = bytes "webtransport" then some webTransport
  else if s = bytes "connect-udp" then some connectUdp
  else if s = bytes "cf-connect-ip" then some cfConnectIp
  else none

theorem fromStr_asStr (p : Protocol) : fromStr p.asStr = some p := by
  cases p <;> decide

end Protocol

/-! ## `proto/headers.rs` -/

structure Pseudo where
  method : Option (List UInt8)
  scheme : Option (List UInt8)
  authority : Option (List UInt8)
  path : Option (List UInt8)
  status : Option Nat
  protocol : Option Protocol
  len : Nat
  deriving DecidableEq

/-- The texts of the first two are not read; what they are about is kept. -/
inductive HeaderError where
  | invalidHeaderName (name : List UInt8)
  | invalidHeaderValue (name value : List UInt8)
  | missingStatus
  | missingAuthority
  | contradictedAuthority
  deriving DecidableEq

namespace Pseudo

def default : Pseudo := ⟨none, none, none, none, none, none, 0⟩

/-- `Pseudo::request`, with the parts of the URI and the `Protocol` of the extensions. -/
def request (method : List UInt8) (uri : UriParts) (ext : Option Protocol) : Pseudo :=
  let path := match uri.pathAndQuery with
    | none => bytes "/"
    | some (path, text) => if path = [] ∧ method ≠ bytes "OPTIONS" then bytes "/" else text
  let protocol := if method = bytes "CONNECT" then ext else none
  let len := 3 + uri.authority.toList.length + protocol.toList.length
  ⟨some method, uri.scheme.or (some (bytes "https")), uri.authority, some path, none, protocol, len⟩

def response (status : Nat) : Pseudo := ⟨none, none, none, none, some status, none, 1⟩

/-- The part of `HeaderIter` before the other fields; `statusText` is `StatusCode::as_str`. -/
def iter (statusText : Nat → List UInt8) (p : Pseudo) : List HeaderField :=
  (p.method.map fun m => ⟨bytes ":method", m⟩).toList
    ++ (p.scheme.map fun s => ⟨bytes ":scheme", s⟩).toList
    ++ (p.authority.map fun a => ⟨bytes ":authority", a⟩).toList
    ++ (p.path.map fun s => ⟨bytes ":path", s⟩).toList
    ++ (p.status.map fun s => ⟨bytes ":status", statusText s⟩).toList
    ++ (p.protocol.map fun s => ⟨bytes ":protocol", s.asStr⟩).toList

end Pseudo

structure Header (HeaderMap : Type) where
  pseudo : Pseudo
  fields : HeaderMap

/-- The loop of `HeaderIter::next` over the other fields, with `last_header_name`. -/
def HeaderIter.fields : Option (List UInt8) → List (Option (List UInt8) × List UInt8) →
    List HeaderField
  | _, [] => []
  | lastHeaderName, (newHeaderName, headerValue) :: items =>
      match newHeaderName.or lastHeaderName with
      | none => HeaderIter.fields none items
      | some n => ⟨n, headerValue⟩ :: HeaderIter.fields (some n) items

section
variable {Uri HeaderMap : Type}

namespace Header

def request (http : Http Uri HeaderMap) (method : List UInt8) (uri : Uri) (fields : HeaderMap)
    (ext : Option Protocol) : Except HeaderError (Header HeaderMap) :=
  match http.uriAuthority uri, http.get fields (bytes "host") with
  | none, none => .error .missingAuthority
  | some a, some h =>
      if a ≠ h then .error .contradictedAuthority
      else .ok ⟨.request method (http.parts uri) ext, fields⟩
  | _, _ => .ok ⟨.request method (http.parts uri) ext, fields⟩

def response (status : Nat) (fields : HeaderMap) : Header HeaderMap := ⟨.response status, fields⟩

def intoResponseParts (h : Header HeaderMap) : Except HeaderError (Nat × HeaderMap) :=
  match h.pseudo.status with
  | none => .error .missingStatus
  | some status => .ok (status, h.fields)

/-- `IntoIterator`: the pseudo-header fields first. -/
def iter (http : Http Uri HeaderMap) (h : Header HeaderMap) : List HeaderField :=
  h.pseudo.iter http.statusText ++ HeaderIter.fields none (http.intoIter h.fields)

end Header

end

inductive Field where
  | method (m : List UInt8)
  | scheme (s : List UInt8)
  | authority (a : List UInt8)
  | path (p : List UInt8)
  | status (s : Nat)
  | protocol (p : Protocol)
  | header (name value : List UInt8)
  deriving DecidableEq

section
variable {Uri HeaderMap : Type} (http : Http Uri HeaderMap)

/-- A parser that fails with `invalid_value`. -/
def tryValue {α : Type} (parsed : Option α) (name value : List UInt8) : Except HeaderError α :=
  match parsed with
  | some a => .ok a
  | none => .error (.invalidHeaderValue name value)

/-- `Field::parse` -/
def Field.parse (name value : List UInt8) : Except HeaderError Field :=
  match name with
  | [] => .error (.invalidHeaderName name)
  | first :: _ =>
      if first ≠ 0x3A then
        match http.name name with
        | none => .error (.invalidHeaderName name)
        | some n =>
            match http.value value with
            | none => .error (.invalidHeaderValue name value)
            | some v => .ok (.header n v)
      else if name = bytes ":scheme" then .scheme <$> tryValue (http.scheme value) name value
      else if name = bytes ":authority" then
        .authority <$> tryValue (http.authority value) name value
      else if name = bytes ":path" then .path <$> tryValue (http.pathAndQuery value) name value
      else if name = bytes ":method" then .method <$> tryValue (http.method value) name value
      else if name = bytes ":status" then
        .status <$> tryValue (http.status value) name value
      else if name = bytes ":protocol" then
        .protocol <$> tryValue (Protocol.fromStr value) name value
      else .error (.invalidHeaderName name)

namespace Header

/-- One round of the loop of `try_from`. -/
def add (h : Header HeaderMap) : Field → Header HeaderMap
  | .method m => { h with pseudo := { h.pseudo with method := some m, len := h.pseudo.len + 1 } }
  | .scheme s => { h with pseudo := { h.pseudo with scheme := some s, len := h.pseudo.len + 1 } }
  | .authority a =>
      { h with pseudo := { h.pseudo with authority := some a, len := h.pseudo.len + 1 } }
  | .path p => { h with pseudo := { h.pseudo with path := some p, len := h.pseudo.len + 1 } }
  | .status s => { h with pseudo := { h.pseudo with status := some s, len := h.pseudo.len + 1 } }
  | .protocol p =>
      { h with pseudo := { h.pseudo with protocol := some p, len := h.pseudo.len + 1 } }
  | .header n v => { h with fields := http.append h.fields n v }

def addAll (h : Header HeaderMap) : List HeaderField → Except HeaderError (Header HeaderMap)
  | [] => .ok h
  | field :: fields =>
      match Field.parse http field.name field.value with
      | .error err => .error err
      | .ok f => addAll (h.add http f) fields

/-- `TryFrom<Vec<HeaderField>>`; `none` is the panic of `with_capacity`. -/
def tryFrom (fields : List HeaderField) : Option (Except HeaderError (Header HeaderMap)) :=
  (http.withCapacity fields.length).map fun m => addAll http ⟨.default, m⟩ fields

/-! ## The round trip -/

/-- Each part of the header is a value of its type in the `http` crate: its parser gives it
back. -/
structure Valid (h : Header HeaderMap) : Prop where
  method : ∀ m, h.pseudo.method = some m → http.method m = some m
  scheme : ∀ s, h.pseudo.scheme = some s → http.scheme s = some s
  authority : ∀ a, h.pseudo.authority = some a → http.authority a = some a
  path : ∀ p, h.pseudo.path = some p → http.pathAndQuery p = some p
  status : ∀ s, h.pseudo.status = some s → 100 ≤ s ∧ s ≤ 999
  len : h.pseudo.len = (h.pseudo.iter http.statusText).length

/-- Two headers that are equal: a map is its values for each name. -/
structure Same (h h' : Header HeaderMap) : Prop where
  pseudo : h.pseudo = h'.pseudo
  fields : ∀ k, http.getAll h.fields k = http.getAll h'.fields k

variable {http}

theorem addAll_append (h : Header HeaderMap) (xs ys : List HeaderField) :
    addAll http h (xs ++ ys) = (addAll http h xs).bind fun h => addAll http h ys := by
  induction xs generalizing h with
  | nil => rfl
  | cons field xs ih =>
      rw [List.cons_append, addAll, addAll]
      cases Field.parse http field.name field.value with
      | error err => rfl
      | ok f => exact ih (h.add http f)

/-- A pseudo-header field, if it is there. -/
theorem addAll_option {α : Type} (h : Header HeaderMap) (o : Option α) (field : α → Field)
    {line : α → HeaderField}
    (hparse : ∀ a, o = some a → Field.parse http (line a).name (line a).value = .ok (field a)) :
    addAll http h (o.map line).toList = .ok (o.elim h fun a => h.add http (field a)) := by
  cases o with
  | none => rfl
  | some a => simp [addAll, hparse a rfl]

/-- A name with a colon at its front. -/
theorem parse_pseudo {name : List UInt8} (hname : name.head? = some 0x3A) (value : List UInt8) :
    Field.parse http name value
      = if name = bytes ":scheme" then .scheme <$> tryValue (http.scheme value) name value
        else if name = bytes ":authority" then
          .authority <$> tryValue (http.authority value) name value
        else if name = bytes ":path" then .path <$> tryValue (http.pathAndQuery value) name value
        else if name = bytes ":method" then .method <$> tryValue (http.method value) name value
        else if name = bytes ":status" then
          .status <$> tryValue (http.status value) name value
        else if name = bytes ":protocol" then
          .protocol <$> tryValue (Protocol.fromStr value) name value
        else .error (.invalidHeaderName name) := by
  cases name with
  | nil => cases hname
  | cons first tail =>
      obtain rfl : first = 0x3A := by simpa using hname
      rw [Field.parse, if_neg (by simp)]

theorem parse_scheme {s : List UInt8} (h : http.scheme s = some s) :
    Field.parse http (bytes ":scheme") s = .ok (.scheme s) := by
  rw [parse_pseudo (by decide), if_pos rfl, h]
  rfl

theorem parse_authority {a : List UInt8} (h : http.authority a = some a) :
    Field.parse http (bytes ":authority") a = .ok (.authority a) := by
  rw [parse_pseudo (by decide), if_neg (by decide), if_pos rfl, h]
  rfl

theorem parse_path {p : List UInt8} (h : http.pathAndQuery p = some p) :
    Field.parse http (bytes ":path") p = .ok (.path p) := by
  rw [parse_pseudo (by decide), if_neg (by decide), if_neg (by decide), if_pos rfl, h]
  rfl

theorem parse_method {m : List UInt8} (h : http.method m = some m) :
    Field.parse http (bytes ":method") m = .ok (.method m) := by
  rw [parse_pseudo (by decide), if_neg (by decide), if_neg (by decide), if_neg (by decide),
    if_pos rfl, h]
  rfl

theorem parse_status (hlaws : HttpLaws http) {s : Nat} (h : 100 ≤ s ∧ s ≤ 999) :
    Field.parse http (bytes ":status") (http.statusText s) = .ok (.status s) := by
  rw [parse_pseudo (by decide), if_neg (by decide), if_neg (by decide), if_neg (by decide),
    if_neg (by decide), if_pos rfl, hlaws.status_text s h.1 h.2]
  rfl

theorem parse_protocol (p : Protocol) :
    Field.parse http (bytes ":protocol") p.asStr = .ok (.protocol p) := by
  rw [parse_pseudo (by decide), if_neg (by decide), if_neg (by decide), if_neg (by decide),
    if_neg (by decide), if_neg (by decide), if_pos rfl, Protocol.fromStr_asStr]
  rfl

/-- The other fields go into the map one after the other, each after those of its name. -/
theorem addAll_fields (hlaws : HttpLaws http) (h : Header HeaderMap)
    {pairs : List (List UInt8 × List UInt8)}
    (hpairs : ∀ p ∈ pairs, http.name p.1 = some p.1 ∧ http.value p.2 = some p.2) :
    ∃ m, addAll http h (pairs.map fun p => ⟨p.1, p.2⟩) = .ok { h with fields := m }
      ∧ ∀ k, http.getAll m k
          = http.getAll h.fields k ++ (pairs.filter (·.1 = k)).map Prod.snd := by
  induction pairs generalizing h with
  | nil => exact ⟨h.fields, rfl, fun k => (List.append_nil _).symm⟩
  | cons p pairs ih =>
      obtain ⟨hname, hvalue⟩ := hpairs p (List.mem_cons_self ..)
      obtain ⟨hne, hcolon⟩ := hlaws.name_token p.1 p.1 hname
      have hparse : Field.parse http p.1 p.2 = .ok (.header p.1 p.2) := by
        obtain ⟨first, tail, heq⟩ := List.exists_cons_of_ne_nil hne
        rw [heq] at hname hcolon ⊢
        have hfirst : first ≠ 0x3A := by simpa using hcolon
        rw [Field.parse, if_pos hfirst, hname, hvalue]
      obtain ⟨m, hadd, hall⟩ :=
        ih (h.add http (.header p.1 p.2)) fun q hq => hpairs q (List.mem_cons_of_mem _ hq)
      refine ⟨m, ?_, ?_⟩
      · rw [List.map_cons, addAll, hparse]
        exact hadd
      · intro k
        have happend := hlaws.append h.fields p.1 p.2 hname hvalue k
        rw [hall k, add, happend]
        by_cases hk : k = p.1
        · simp [hk]
        · have hne' : ¬ p.1 = k := fun heq => hk heq.symm
          simp [hk, hne']

/-- The pseudo-header fields. -/
theorem addAll_pseudo (hlaws : HttpLaws http) {h : Header HeaderMap} (hv : h.Valid http)
    (m : HeaderMap) :
    addAll http ⟨.default, m⟩ (h.pseudo.iter http.statusText) = .ok ⟨h.pseudo, m⟩ := by
  have hlen := hv.len
  unfold Pseudo.iter at hlen ⊢
  rw [addAll_append, addAll_append, addAll_append, addAll_append, addAll_append,
    addAll_option _ _ .method fun m hm => parse_method (hv.method m hm)]
  simp only [Except.bind]
  rw [addAll_option _ _ .scheme fun s hs => parse_scheme (hv.scheme s hs)]
  simp only
  rw [addAll_option _ _ .authority fun a ha => parse_authority (hv.authority a ha)]
  simp only
  rw [addAll_option _ _ .path fun p hp => parse_path (hv.path p hp)]
  simp only
  rw [addAll_option _ _ .status fun s hs => parse_status hlaws (hv.status s hs)]
  simp only
  rw [addAll_option _ _ .protocol fun p _ => parse_protocol p]
  obtain ⟨⟨method, scheme, authority, path, status, protocol, len⟩, fields⟩ := h
  simp only [List.length_append] at hlen
  rw [hlen]
  cases method <;> cases scheme <;> cases authority <;> cases path <;> cases status
    <;> cases protocol <;> rfl

/-- The last name is carried along. -/
theorem fields_named (last : Option (List UInt8))
    (items : List (Option (List UInt8) × List UInt8)) :
    HeaderIter.fields last items = (Multimap.named last items).map fun p => ⟨p.1, p.2⟩ := by
  induction items generalizing last with
  | nil => rfl
  | cons item items ih =>
      obtain ⟨k, v⟩ := item
      rw [HeaderIter.fields, Multimap.named]
      cases k.or last with
      | none => exact ih none
      | some n => exact congrArg (_ :: ·) (ih (some n))

/-- What the header of a request is made of. -/
theorem request_eq {method : List UInt8} {uri : Uri} {fields : HeaderMap} {ext : Option Protocol}
    {h : Header HeaderMap} (hheader : request http method uri fields ext = .ok h) :
    h = ⟨.request method (http.parts uri) ext, fields⟩ := by
  unfold request at hheader
  split at hheader
  · cases hheader
  · split at hheader
    · cases hheader
    · exact (Except.ok.inj hheader).symm
  · exact (Except.ok.inj hheader).symm

/-- The header of a request is valid. -/
theorem valid_request (hlaws : HttpLaws http) {method : List UInt8}
    (hmethod : http.method method = some method) {uri : Uri} {fields : HeaderMap}
    {ext : Option Protocol} {h : Header HeaderMap}
    (hheader : request http method uri fields ext = .ok h) : h.Valid http := by
  obtain rfl := request_eq hheader
  refine ⟨fun m hm => Option.some.inj hm ▸ hmethod, ?_, hlaws.parts_authority uri, ?_,
    fun _ h => (nomatch h), ?_⟩
  · intro s hs
    cases hscheme : (http.parts uri).scheme with
    | none =>
        simp only [Pseudo.request, hscheme, Option.none_or, Option.some.injEq] at hs
        rw [← hs]
        exact hlaws.https
    | some scheme =>
        simp only [Pseudo.request, hscheme, Option.some_or, Option.some.injEq] at hs
        rw [← hs]
        exact hlaws.parts_scheme uri scheme hscheme
  · intro p hp
    cases hpath : (http.parts uri).pathAndQuery with
    | none =>
        simp only [Pseudo.request, hpath, Option.some.injEq] at hp
        rw [← hp]
        exact hlaws.root
    | some path =>
        simp only [Pseudo.request, hpath, Option.some.injEq] at hp
        split at hp
        · rw [← hp]
          exact hlaws.root
        · rw [← hp]
          exact hlaws.parts_path uri path hpath
  · simp only [Pseudo.request, Pseudo.iter]
    cases (http.parts uri).scheme <;> cases (http.parts uri).authority <;> split <;>
      cases ext <;> rfl

/-- The header of an answer is valid if its status is. -/
theorem valid_response {status : Nat} (hstatus : 100 ≤ status ∧ status ≤ 999) (fields : HeaderMap) :
    (response status fields).Valid http where
  method _ h := nomatch h
  scheme _ h := nomatch h
  authority _ h := nomatch h
  path _ h := nomatch h
  status _ h := Option.some.inj h ▸ hstatus
  len := rfl

/-- **The round trip**: the list of fields gives the header back, with all its fields, if a map
can be made for so many. -/
theorem tryFrom_iter (hlaws : HttpLaws http) {h : Header HeaderMap} (hv : h.Valid http)
    (hlen : (h.iter http).length ≤ http.maxCapacity) :
    ∃ h', tryFrom http (h.iter http) = some (.ok h') ∧ h'.Same http h := by
  obtain ⟨m, hm, hempty⟩ := hlaws.with_capacity _ hlen
  obtain ⟨entries, hiter, hentries⟩ := hlaws.into_iter h.fields
  have hpairs : ∀ p ∈ entries.toList, http.name p.1 = some p.1 ∧ http.value p.2 = some p.2 := by
    intro p hp
    refine hlaws.entry h.fields p.1 p.2 ?_
    rw [hentries]
    exact Multimap.mem_getAll.mpr hp
  obtain ⟨m', hadd, hall⟩ := addAll_fields hlaws ⟨h.pseudo, m⟩ hpairs
  refine ⟨⟨h.pseudo, m'⟩, ?_, ⟨rfl, fun k => (hall k).trans ?_⟩⟩
  · rw [tryFrom, hm, Option.map_some, iter, addAll_append, addAll_pseudo hlaws hv, fields_named,
      hiter, Multimap.named_yielded]
    exact congrArg some hadd
  · rw [hempty, List.nil_append, Multimap.filter_toList, hentries]

end Header

end

end WarpProxy.H3
