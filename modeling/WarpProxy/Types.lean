/-
# `WarpProxy.Types` — the plain data of the client

Records and enumerations that several modules of the source share: addresses
(`std::net`), the error type of `error.rs` with its messages, the device
configuration of `config.rs`, the transports of `tunnel.rs` and the trace of
`trace.rs`.  Errors wrapped from other libraries (`Http`, `Json`, `Io`) are kept
as the text they display.
-/

namespace WarpProxy

abbrev Ipv4Addr := BitVec 32

abbrev Ipv6Addr := BitVec 128

inductive IpAddr where
  | v4 (a : Ipv4Addr)
  | v6 (a : Ipv6Addr)
  deriving DecidableEq, Repr

structure SocketAddr where
  ip : IpAddr
  port : UInt16
  deriving DecidableEq, Repr

inductive Error where
  | key (msg : String)
  | api (status : UInt16) (body : String)
  | response (msg : String)
  | config (msg : String)
  | http (msg : String)
  | json (msg : String)
  | io (msg : String)
  | tunnel (msg : String)
  deriving DecidableEq, Repr

/-- What `Display` prints. -/
def Error.display : Error → String
  | .key msg => "key error: " ++ msg
  | .api status body => "registration API returned HTTP " ++ toString status ++ ": " ++ body
  | .response msg => "unexpected registration response: " ++ msg
  | .config msg => "config error: " ++ msg
  | .http msg => "http transport error: " ++ msg
  | .json msg => "json error: " ++ msg
  | .io msg => "io error: " ++ msg
  | .tunnel msg => "tunnel error: " ++ msg

/-- A registered WARP MASQUE device. -/
structure WarpConfig where
  privateKey : String
  endpointV4 : String
  endpointV6 : String
  endpointH2V4 : String
  endpointH2V6 : String
  endpointPubKey : String
  id : String
  accessToken : String
  ipv4 : String
  ipv6 : String
  deriving DecidableEq, Repr

/-- A device with nothing filled in, for runs in which that does not matter. -/
def WarpConfig.blank : WarpConfig := ⟨"", "", "", "", "", "", "", "", "", ""⟩

inductive Transport where
  | http3
  | http2
  deriving DecidableEq, Repr

/-- Parsed result of `cdn-cgi/trace` for one account. -/
structure TraceInfo where
  ip : String
  colo : String
  warp : String
  err : Option String
  deriving DecidableEq, Repr

end WarpProxy
