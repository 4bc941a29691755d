/-
# `WarpProxy.Register` — from the enroll response to the dial

The addresses of a device pass through three cutters on their way.  `buildConfig`
takes the port off the IPv4 endpoint (at the last colon) and the brackets off the
IPv6 one (at the outer ones), `quicEndpoint` reads what is left, IPv4 first, and
the assigned addresses are cut at the first slash when the netstack is set up.

What an endpoint text carries is said apart from the cutters (`Carries4`,
`Carries6`), and the cutters find it.  A text in the one family never keeps the
other from being used, with one exception: a blank text in either is refused,
though an absent field is read as one.
-/
import WarpProxy.Types
import WarpProxy.Lib.Text
import WarpProxy.Lib.IpRead

namespace WarpProxy

open IpText Text

namespace Register

/-! ## The response -/

/-- `#[serde(default)]`: an absent text is the empty one. -/
structure Endpoint where
  v4 : String := ""
  v6 : String := ""

structure Peer where
  publicKey : String := ""
  endpoint : Endpoint := {}

structure Addresses where
  v4 : String := ""
  v6 : String := ""

structure Interface where
  addresses : Addresses := {}

structure RegConfig where
  peers : List Peer := []
  interface : Interface := {}

structure AccountData where
  id : String
  config : RegConfig := {}

/-! ## The cutters -/

def masquePort : UInt16 := 443

def defaultEndpointH2V4 : String := "162.159.198.2"

/-- What is before the last colon, unless that is nothing. -/
def beforePort (s : List Char) : Option (List Char) :=
  match rsplitOnce ':' s with
  | some (host, _) => if host ≠ [] then some host else none
  | none => none

/-- What is between the first `[` and the last `]`. -/
def insideBrackets (s : List Char) : Option (List Char) :=
  match find '[' s, rfind ']' s with
  | some start, some stop =>
      if start < stop then some ((s.take stop).drop (start + 1)) else none
  | _, _ => none

section
-- how a text prints with `{:?}`
variable (debug : String → String)

def stripWith (cut : List Char → Option (List Char)) (family : String) (s : String) :
    Except Error String :=
  let s := trim s.toList
  match cut s with
  | some host => .ok (String.ofList host)
  | none =>
      if s ≠ [] then .ok (String.ofList s)
      else .error (.response ("empty " ++ family ++ " endpoint " ++ debug (String.ofList s)))

def stripV4Port (s : String) : Except Error String := stripWith debug beforePort "IPv4" s

def stripV6Brackets (s : String) : Except Error String := stripWith debug insideBrackets "IPv6" s

/-- From `keypair.private_b64()`, the token and the enroll response. -/
def buildConfig (privateB64 : Except Error String) (token : String) (data : AccountData) :
    Except Error WarpConfig :=
  match data.config.peers.head? with
  | none => .error (.response "enroll response had no peers")
  | some peer => do
      let privateKey ← privateB64
      let endpointV4 ← stripV4Port debug peer.endpoint.v4
      let endpointV6 ← stripV6Brackets debug peer.endpoint.v6
      .ok
        { privateKey
          endpointV4
          endpointV6
          endpointH2V4 := defaultEndpointH2V4
          endpointH2V6 := ""
          endpointPubKey := peer.publicKey
          id := data.id
          accessToken := token
          ipv4 := data.config.interface.addresses.v4
          ipv6 := data.config.interface.addresses.v6 }

def quicEndpoint (cfg : WarpConfig) : Except Error SocketAddr :=
  match parseV4 (trim cfg.endpointV4.toList) with
  | some v4 => .ok ⟨.v4 v4, masquePort⟩
  | none =>
      match parseV6 (trim cfg.endpointV6.toList) with
      | some v6 => .ok ⟨.v6 v6, masquePort⟩
      | none =>
          .error (.config ("no usable endpoint (v4=" ++ debug cfg.endpointV4 ++ ", v6=" ++
            debug cfg.endpointV6 ++ ")"))

def parseAssignedV4 (s : String) : Except Error Ipv4Addr :=
  match parseV4 (trim (splitFirst '/' (trim s.toList))) with
  | some a => .ok a
  | none => .error (.config ("assigned ipv4 " ++ debug s ++ ": invalid IPv4 address syntax"))

end

def parseAssignedV6 (s : String) : Option Ipv6Addr :=
  parseV6 (trim (splitFirst '/' (trim s.toList)))

/-! ## What an endpoint text carries -/

/-- An IPv4 address, alone or before the last colon. -/
def Carries4 (t : String) (a : Ipv4Addr) : Prop :=
  ∃ host, (trim t.toList = host ∨ ∃ port, ':' ∉ port ∧ trim t.toList = host ++ ':' :: port) ∧
    parseV4 (trim host) = some a

/-- An IPv6 address, alone or in brackets. -/
def Carries6 (t : String) (b : Ipv6Addr) : Prop :=
  ∃ host, (trim t.toList = host ∨
      ∃ port, ']' ∉ port ∧ trim t.toList = '[' :: (host ++ ']' :: port)) ∧
    parseV6 (trim host) = some b

/-! ## The cutters find it -/

section
variable (debug : String → String) {cut : List Char → Option (List Char)} {family s : String}

theorem stripWith_ok (h : trim s.toList ≠ []) :
    stripWith debug cut family s =
      .ok (String.ofList ((cut (trim s.toList)).getD (trim s.toList))) := by
  rw [stripWith]
  cases cut (trim s.toList) with
  | some host => rfl
  | none => exact if_pos h

theorem stripWith_blank (hcut : cut [] = none) (h : trim s.toList = []) :
    ∃ e, stripWith debug cut family s = .error e := by
  rw [stripWith, h]
  simp only [hcut]
  exact ⟨_, rfl⟩

end

theorem not_whitespace_of_v6 {c : Char} (h : V6Char c) : isWhitespace c = false := by
  have hrange := h.range
  simp only [isWhitespace, Bool.or_eq_false_iff, Bool.and_eq_false_iff, decide_eq_false_iff_not,
    beq_eq_false_iff_ne]
  omega

/-- What is no character of an address is not in a text that reads as one. -/
theorem not_mem_of_parseV4 {cs : List Char} {a : Ipv4Addr} (h : parseV4 (trim cs) = some a)
    {d : Char} (hd : ¬ V4Char d) (hws : isWhitespace d = false) : d ∉ cs :=
  fun hmem => hd (parseV4_chars h d (mem_trim hmem hws))

theorem not_mem_of_parseV6 {cs : List Char} {b : Ipv6Addr} (h : parseV6 (trim cs) = some b)
    {d : Char} (hd : ¬ V6Char d) (hws : isWhitespace d = false) : d ∉ cs :=
  fun hmem => hd (parseV6_chars h d (mem_trim hmem hws))

/-- **The address before the last colon.** -/
theorem carries4_iff (s : String) (a : Ipv4Addr) :
    Carries4 s a ↔
      parseV4 (trim ((beforePort (trim s.toList)).getD (trim s.toList))) = some a := by
  constructor
  · rintro ⟨host, heq | ⟨port, hport, heq⟩, hparse⟩
    · -- a text that is an address has no colon
      rw [heq]
      have hcolon : ':' ∉ host := not_mem_of_parseV4 hparse (by decide) (by decide)
      rw [beforePort, rsplitOnce_eq_none.mpr hcolon]
      exact hparse
    · have hhost : host ≠ [] := by
        rintro rfl
        cases parseV4_nil.symm.trans hparse
      rw [beforePort, rsplitOnce_eq_some.mpr ⟨heq, hport⟩]
      simp only [if_pos hhost, Option.getD_some]
      exact hparse
  · intro hparse
    rw [beforePort] at hparse
    split at hparse
    · next host port hsplit =>
        obtain ⟨heq, hport⟩ := rsplitOnce_eq_some.mp hsplit
        split at hparse
        · exact ⟨host, .inr ⟨port, hport, heq⟩, hparse⟩
        · exact ⟨_, .inl rfl, hparse⟩
    · exact ⟨_, .inl rfl, hparse⟩

/-- **The address between the outer brackets.** -/
theorem parseV6_of_carries {s : String} {b : Ipv6Addr} (h : Carries6 s b) :
    parseV6 (trim ((insideBrackets (trim s.toList)).getD (trim s.toList))) = some b := by
  obtain ⟨host, heq | ⟨port, hport, heq⟩, hparse⟩ := h
  · rw [heq]
    have hopen : '[' ∉ host := not_mem_of_parseV6 hparse (by decide) (by decide)
    rw [insideBrackets, find, splitOnce_eq_none.mpr hopen]
    exact hparse
  · have hstart : find '[' (trim s.toList) = some 0 := by
      rw [find, splitOnce_eq_some.mpr ⟨heq, List.not_mem_nil⟩]
      rfl
    have hstop : rfind ']' (trim s.toList) = some (host.length + 1) := by
      have hsplit := rsplitOnce_eq_some.mpr (And.intro (b := ']' ∉ port)
        (heq.trans (List.cons_append ..).symm) hport)
      rw [rfind, hsplit]
      rfl
    have hslice : ((trim s.toList).take (host.length + 1)).drop 1 = host := by
      rw [heq, List.take_succ_cons, List.drop_succ_cons, List.drop_zero, List.take_left]
    rw [insideBrackets, hstart, hstop]
    simp only [Nat.zero_lt_succ, if_true, Nat.zero_add, hslice, Option.getD_some]
    exact hparse

/-! ## One family is enough -/

/-- There is a configuration, and its dial goes to the IPv4 address, or to the IPv6 one where there
is no other. -/
def OneFamily (debug : String → String) (endpoint : Endpoint)
    (result : Except Error WarpConfig) : Prop :=
  ∃ cfg, result = .ok cfg ∧
    (∀ a, Carries4 endpoint.v4 a → quicEndpoint debug cfg = .ok ⟨.v4 a, 443⟩) ∧
    ((∀ a, ¬ Carries4 endpoint.v4 a) → ∀ b, Carries6 endpoint.v6 b →
      quicEndpoint debug cfg = .ok ⟨.v6 b, 443⟩)

section
variable (debug : String → String) {data : AccountData} {peer : Peer}
  (hpeer : data.config.peers.head? = some peer) (key token : String)
include hpeer

/-- **A response with two texts.** -/
theorem buildConfig_ok (h4 : trim peer.endpoint.v4.toList ≠ [])
    (h6 : trim peer.endpoint.v6.toList ≠ []) :
    ∃ cfg, buildConfig debug (.ok key) token data = .ok cfg ∧
      cfg.endpointV4.toList =
        (beforePort (trim peer.endpoint.v4.toList)).getD (trim peer.endpoint.v4.toList) ∧
      cfg.endpointV6.toList =
        (insideBrackets (trim peer.endpoint.v6.toList)).getD (trim peer.endpoint.v6.toList) ∧
      cfg.ipv4 = data.config.interface.addresses.v4 ∧
      cfg.ipv6 = data.config.interface.addresses.v6 := by
  have hstrip4 : stripV4Port debug peer.endpoint.v4 = _ := stripWith_ok debug h4
  have hstrip6 : stripV6Brackets debug peer.endpoint.v6 = _ := stripWith_ok debug h6
  simp only [buildConfig, hpeer, hstrip4, hstrip6]
  exact ⟨_, rfl, String.toList_ofList, String.toList_ofList, rfl, rfl⟩

/-- **A blank text in either family is refused.** -/
theorem buildConfig_blank
    (h : trim peer.endpoint.v4.toList = [] ∨ trim peer.endpoint.v6.toList = []) :
    ∃ e, buildConfig debug (.ok key) token data = .error e := by
  simp only [buildConfig, hpeer]
  have h4 : trim peer.endpoint.v4.toList = [] →
      ∃ e, stripV4Port debug peer.endpoint.v4 = .error e := stripWith_blank debug rfl
  have h6 : trim peer.endpoint.v6.toList = [] →
      ∃ e, stripV6Brackets debug peer.endpoint.v6 = .error e := stripWith_blank debug rfl
  cases hv4 : stripV4Port debug peer.endpoint.v4 with
  | error e => exact ⟨e, rfl⟩
  | ok v4 =>
      rcases h with h | h
      · obtain ⟨e, he⟩ := h4 h
        cases hv4.symm.trans he
      · obtain ⟨e, he⟩ := h6 h
        exact ⟨e, by rw [he]; rfl⟩

/-- **A configuration with both texts dials what they carry.** -/
theorem buildConfig_dials (h4 : trim peer.endpoint.v4.toList ≠ [])
    (h6 : trim peer.endpoint.v6.toList ≠ []) :
    OneFamily debug peer.endpoint (buildConfig debug (.ok key) token data) := by
  obtain ⟨cfg, hcfg, hhost4, hhost6, -, -⟩ := buildConfig_ok debug hpeer key token h4 h6
  refine ⟨cfg, hcfg, fun a ha => ?_, fun hnone b hb => ?_⟩
  · have hparse := (carries4_iff peer.endpoint.v4 a).mp ha
    rw [quicEndpoint, hhost4, hparse]
    rfl
  · have hparse4 : parseV4 (trim cfg.endpointV4.toList) = none := by
      rw [hhost4]
      exact Option.eq_none_iff_forall_ne_some.mpr fun a ha => hnone a ((carries4_iff _ a).mpr ha)
    rw [quicEndpoint, hparse4, hhost6, parseV6_of_carries hb]
    rfl

/-- **One family is enough where the other text is not blank.**  It may say anything; one that is
absent, or only white space, makes the registration fail. -/
theorem buildConfig_oneFamily_iff :
    OneFamily debug peer.endpoint (buildConfig debug (.ok key) token data) ↔
      trim peer.endpoint.v4.toList ≠ [] ∧ trim peer.endpoint.v6.toList ≠ [] := by
  constructor
  · rintro ⟨cfg, hcfg, -⟩
    by_contra hblank
    have h : trim peer.endpoint.v4.toList = [] ∨ trim peer.endpoint.v6.toList = [] := by
      rwa [not_and_or, not_not, not_not] at hblank
    obtain ⟨e, he⟩ := buildConfig_blank debug hpeer key token h
    cases hcfg.symm.trans he
  · rintro ⟨h4, h6⟩
    exact buildConfig_dials debug hpeer key token h4 h6

end

/-- `{:?}` of a text in which nothing is escaped. -/
def quoted (s : String) : String := "\"" ++ s ++ "\""

/-- The account has an IPv4 endpoint, and this in the place of the IPv6 one. -/
def accountV4 (v6 : String) : AccountData :=
  { id := "dev", config := { peers := [{ endpoint := { v4 := "162.159.198.1:0", v6 } }] } }

theorem buildConfig_oneFamily_iff_word :
    OneFamily quoted ⟨"162.159.198.1:0", "none"⟩
      (buildConfig quoted (.ok "key") "token" (accountV4 "none")) :=
  (@buildConfig_oneFamily_iff quoted (accountV4 "none") ⟨"", ⟨"162.159.198.1:0", "none"⟩⟩ rfl "key"
    "token").mpr (by decide +kernel)

/-- The IPv4 endpoint is usable, and the IPv6 one is absent. -/
theorem buildConfig_refuses_absent :
    Carries4 "162.159.198.1:0" 0xa29fc601 ∧
      ¬ OneFamily quoted ⟨"162.159.198.1:0", ""⟩
        (buildConfig quoted (.ok "key") "token" (accountV4 "")) := by
  constructor
  · exact ⟨"162.159.198.1".toList, .inr ⟨"0".toList, by decide +kernel, by decide +kernel⟩,
      by decide +kernel⟩
  · rintro ⟨cfg, hcfg, -⟩
    have hrefused : buildConfig quoted (.ok "key") "token" (accountV4 "") =
        .error (.response "empty IPv6 endpoint \"\"") := by decide +kernel
    cases hcfg.symm.trans hrefused

/-! ## Addresses as they are written -/

/-- White space around a text. -/
def Padded (core : List Char) (t : String) : Prop :=
  ∃ ws ws', ws.all isWhitespace = true ∧ ws'.all isWhitespace = true ∧
    t.toList = ws ++ core ++ ws'

/-- Digits behind a mark, or nothing. -/
def Number (mark : Char) (cs : List Char) : Prop :=
  cs = [] ∨ ∃ digits, (∀ c ∈ digits, (digit 10 c).isSome) ∧ cs = mark :: digits

/-- `a:port`, or `a`. -/
def WritesV4 (a : Ipv4Addr) (t : String) : Prop :=
  ∃ host port, parseV4 host = some a ∧ Number ':' port ∧ Padded (host ++ port) t

/-- `[b]:port`, or `b`. -/
def WritesV6 (b : Ipv6Addr) (t : String) : Prop :=
  ∃ host, parseV6 host = some b ∧
    (Padded host t ∨ ∃ port, Number ':' port ∧ Padded ('[' :: (host ++ ']' :: port)) t)

/-- `x/prefix`, or `x`. -/
def AssignsV4 (x : Ipv4Addr) (t : String) : Prop :=
  ∃ host len, parseV4 host = some x ∧ Number '/' len ∧ Padded (host ++ len) t

def AssignsV6 (y : Ipv6Addr) (t : String) : Prop :=
  ∃ host len, parseV6 host = some y ∧ Number '/' len ∧ Padded (host ++ len) t

/-! Printed addresses are among them. -/

theorem writesV4_showV4 (a : Ipv4Addr) {port : List Char} {t : String} (hport : Number ':' port)
    (hpad : Padded (showV4 a ++ port) t) : WritesV4 a t :=
  ⟨showV4 a, port, parseV4_showV4 a, hport, hpad⟩

theorem writesV6_showV6 (b : Ipv6Addr) {t : String} (hpad : Padded (showV6 b) t ∨
    ∃ port, Number ':' port ∧ Padded ('[' :: (showV6 b ++ ']' :: port)) t) : WritesV6 b t :=
  ⟨showV6 b, parseV6_showV6 b, hpad⟩

theorem assignsV4_showV4 (x : Ipv4Addr) {len : List Char} {t : String} (hlen : Number '/' len)
    (hpad : Padded (showV4 x ++ len) t) : AssignsV4 x t :=
  ⟨showV4 x, len, parseV4_showV4 x, hlen, hpad⟩

theorem assignsV6_showV6 (y : Ipv6Addr) {len : List Char} {t : String} (hlen : Number '/' len)
    (hpad : Padded (showV6 y ++ len) t) : AssignsV6 y t :=
  ⟨showV6 y, len, parseV6_showV6 y, hlen, hpad⟩

/-- The characters of a number with its mark. -/
theorem Number.chars {mark : Char} {cs : List Char} (h : Number mark cs) :
    ∀ c ∈ cs, c = mark ∨ V6Char c := by
  rcases h with rfl | ⟨digits, hdigits, rfl⟩
  · exact fun c hc => absurd hc List.not_mem_nil
  · intro c hc
    rcases List.mem_cons.mp hc with rfl | hc
    · exact .inl rfl
    · exact .inr (V4Char.v6 (.inl (hdigits c hc)))

theorem Number.not_whitespace {mark : Char} {cs : List Char} (h : Number mark cs)
    (hmark : isWhitespace mark = false) : ∀ c ∈ cs, isWhitespace c = false := by
  intro c hc
  rcases h.chars c hc with rfl | hc
  · exact hmark
  · exact not_whitespace_of_v6 hc

theorem trim_of_padded {core : List Char} {t : String} (h : Padded core t)
    (hcore : ∀ c ∈ core, isWhitespace c = false) : trim t.toList = core := by
  obtain ⟨ws, ws', hws, hws', heq⟩ := h
  rw [heq, trim_between hws hws' hcore]

theorem parseV4_not_whitespace {host : List Char} {a : Ipv4Addr} (h : parseV4 host = some a) :
    ∀ c ∈ host, isWhitespace c = false :=
  fun c hc => not_whitespace_of_v6 (parseV4_chars h c hc).v6

theorem parseV6_not_whitespace {host : List Char} {b : Ipv6Addr} (h : parseV6 host = some b) :
    ∀ c ∈ host, isWhitespace c = false :=
  fun c hc => not_whitespace_of_v6 (parseV6_chars h c hc)

theorem not_whitespace_append {xs ys : List Char} (hxs : ∀ c ∈ xs, isWhitespace c = false)
    (hys : ∀ c ∈ ys, isWhitespace c = false) : ∀ c ∈ xs ++ ys, isWhitespace c = false :=
  fun c hc => (List.mem_append.mp hc).elim (hxs c) (hys c)

theorem WritesV4.carries {a : Ipv4Addr} {t : String} (h : WritesV4 a t) : Carries4 t a := by
  obtain ⟨host, port, hparse, hport, hpad⟩ := h
  have hhost := parseV4_not_whitespace hparse
  have htrim := trim_of_padded hpad
    (not_whitespace_append hhost (hport.not_whitespace (by decide)))
  refine ⟨host, ?_, by rw [trim_eq_self hhost]; exact hparse⟩
  rcases hport with rfl | ⟨digits, hdigits, rfl⟩
  · exact .inl (by rw [htrim, List.append_nil])
  · refine .inr ⟨digits, fun hmem => ?_, htrim⟩
    exact absurd (hdigits ':' hmem) (by decide)

theorem WritesV6.carries {b : Ipv6Addr} {t : String} (h : WritesV6 b t) : Carries6 t b := by
  obtain ⟨host, hparse, hform⟩ := h
  have hhost := parseV6_not_whitespace hparse
  refine ⟨host, ?_, by rw [trim_eq_self hhost]; exact hparse⟩
  rcases hform with hpad | ⟨port, hport, hpad⟩
  · exact .inl (trim_of_padded hpad hhost)
  · have hclose : ∀ c ∈ ']' :: port, isWhitespace c = false :=
      List.forall_mem_cons.mpr ⟨by decide, hport.not_whitespace (by decide)⟩
    refine .inr ⟨port, fun hmem => ?_, trim_of_padded hpad
      (List.forall_mem_cons.mpr ⟨by decide, not_whitespace_append hhost hclose⟩)⟩
    rcases hport.chars ']' hmem with h | h
    · exact absurd h (by decide)
    · exact absurd h (by decide)

/-- **The first slash ends an assigned address.** -/
theorem splitFirst_assigned {host len : List Char} {t : String}
    (hhost : ∀ c ∈ host, V6Char c) (hlen : Number '/' len) (hpad : Padded (host ++ len) t) :
    trim (splitFirst '/' (trim t.toList)) = host := by
  have hspace : ∀ c ∈ host, isWhitespace c = false := fun c hc => not_whitespace_of_v6 (hhost c hc)
  have hslash : '/' ∉ host := fun hmem => absurd (hhost '/' hmem) (by decide)
  rw [trim_of_padded hpad (not_whitespace_append hspace (hlen.not_whitespace (by decide)))]
  rcases hlen with rfl | ⟨digits, -, rfl⟩
  · rw [List.append_nil, splitFirst_of_not_mem hslash, trim_eq_self hspace]
  · rw [splitFirst_append hslash, trim_eq_self hspace]

theorem AssignsV4.parse {x : Ipv4Addr} {t : String} (h : AssignsV4 x t)
    (debug : String → String) : parseAssignedV4 debug t = .ok x := by
  obtain ⟨host, len, hparse, hlen, hpad⟩ := h
  have hhost := splitFirst_assigned (fun c hc => (parseV4_chars hparse c hc).v6) hlen hpad
  rw [parseAssignedV4, hhost, hparse]

theorem AssignsV6.parse {y : Ipv6Addr} {t : String} (h : AssignsV6 y t) :
    parseAssignedV6 t = some y := by
  obtain ⟨host, len, hparse, hlen, hpad⟩ := h
  rw [parseAssignedV6, splitFirst_assigned (parseV6_chars hparse) hlen hpad, hparse]

theorem Carries4.trim_ne_nil {t : String} {a : Ipv4Addr} (h : Carries4 t a) :
    trim t.toList ≠ [] := by
  intro hnil
  rw [carries4_iff, hnil] at h
  cases parseV4_nil.symm.trans h

theorem Carries6.trim_ne_nil {t : String} {b : Ipv6Addr} (h : Carries6 t b) :
    trim t.toList ≠ [] := by
  intro hnil
  have hparse := parseV6_of_carries h
  rw [hnil] at hparse
  cases parseV6_nil.symm.trans hparse

/-- **The addresses survive to the dial**, in whatever form they are written. -/
theorem buildConfig_survives (debug : String → String) {data : AccountData} {peer : Peer}
    (hpeer : data.config.peers.head? = some peer) (key token : String)
    {a x : Ipv4Addr} {b y : Ipv6Addr}
    (ha : WritesV4 a peer.endpoint.v4) (hb : WritesV6 b peer.endpoint.v6)
    (hx : AssignsV4 x data.config.interface.addresses.v4)
    (hy : AssignsV6 y data.config.interface.addresses.v6) :
    ∃ cfg, buildConfig debug (.ok key) token data = .ok cfg ∧
      quicEndpoint debug cfg = .ok ⟨.v4 a, 443⟩ ∧
      (∀ text : String, parseV4 (trim text.toList) = none →
        quicEndpoint debug { cfg with endpointV4 := text } = .ok ⟨.v6 b, 443⟩) ∧
      parseAssignedV4 debug cfg.ipv4 = .ok x ∧ parseAssignedV6 cfg.ipv6 = some y := by
  obtain ⟨cfg, hcfg, hhost4, hhost6, hipv4, hipv6⟩ :=
    buildConfig_ok debug hpeer key token ha.carries.trim_ne_nil hb.carries.trim_ne_nil
  refine ⟨cfg, hcfg, ?_, fun text htext => ?_, ?_, ?_⟩
  · rw [quicEndpoint, hhost4, (carries4_iff _ a).mp ha.carries]
    rfl
  · simp only [quicEndpoint, htext, hhost6, parseV6_of_carries hb.carries]
    rfl
  · rw [hipv4]
    exact hx.parse debug
  · rw [hipv6]
    exact hy.parse

/-- A response in which every address has white space around it. -/
def enrolled : AccountData :=
  { id := "dev"
    config :=
      { peers := [{ endpoint := { v4 := " 162.159.198.1:0", v6 := "[2606:4700:103::]:0\n" } }]
        interface := { addresses := { v4 := "100.96.0.3/32 ", v6 := "2606:4700:110::1" } } } }

theorem buildConfig_survives_enrolled :
    ∃ cfg, buildConfig quoted (.ok "key") "token" enrolled = .ok cfg ∧
      quicEndpoint quoted cfg = .ok ⟨.v4 0xa29fc601, 443⟩ ∧
      (∀ text : String, parseV4 (trim text.toList) = none →
        quicEndpoint quoted { cfg with endpointV4 := text } =
          .ok ⟨.v6 0x26064700010300000000000000000000, 443⟩) ∧
      parseAssignedV4 quoted cfg.ipv4 = .ok 0x64600003 ∧
      parseAssignedV6 cfg.ipv6 = some 0x26064700011000000000000000000001 := by
  have hblank : Number '/' [] := .inl rfl
  have hzero : Number ':' ":0".toList :=
    .inr ⟨['0'], List.forall_mem_singleton.mpr (by decide), by decide +kernel⟩
  have hdigits : ∀ c ∈ ['3', '2'], (digit 10 c).isSome :=
    List.forall_mem_cons.mpr ⟨by decide, List.forall_mem_singleton.mpr (by decide)⟩
  have hlen : Number '/' "/32".toList := .inr ⟨['3', '2'], hdigits, by decide +kernel⟩
  exact buildConfig_survives quoted rfl "key" "token"
    (writesV4_showV4 0xa29fc601 hzero ⟨[' '], [], by decide +kernel⟩)
    (writesV6_showV6 0x26064700010300000000000000000000
      (.inr ⟨_, hzero, [], ['\n'], by decide +kernel⟩))
    (assignsV4_showV4 0x64600003 hlen ⟨[], [' '], by decide +kernel⟩)
    (assignsV6_showV6 0x26064700011000000000000000000001 hblank ⟨[], [], by decide +kernel⟩)

end Register

end WarpProxy
