/-
# `WarpProxy.Tunnel.Connect` — establishing a tunnel

`connect_h3` and `connect_h2` as chains of steps each of which may fail, up to the
response to CONNECT.  What a step on the outside gives is a field of `H3Awaits` and
`H2Awaits`, in the order of the source; the assigned addresses are what
`parse_assigned_v4` and `parse_assigned_v6` make of the config.

On both paths the status of the response is put into the tunnel and not looked at
(`connectWith_status`).
-/
import WarpProxy.Pool.State

namespace WarpProxy

open Pool (Connected)

/-- The steps of `connect_h3`. -/
structure H3Awaits where
  dialQuic : Except Error Unit
  build : Except String Unit
  request : Except String Unit
  sendRequest : Except String Unit
  /-- the status of the response -/
  recvResponse : Except String UInt16

/-- The steps of `connect_h2`. -/
structure H2Awaits where
  endpoint : Except Error Unit
  tcpConnect : Except String Unit
  tlsConfig : Except Error Unit
  serverName : Except String Unit
  tlsConnect : Except String Unit
  handshake : Except String Unit
  request : Except String Unit
  sendRequest : Except String Unit
  /-- the status of the response -/
  response : Except String UInt16

/-- `map_err(|e| Error::Tunnel(format!("..: {e}")))` -/
def tunnelErr {α : Type} (what : String) (r : Except String α) : Except Error α :=
  r.mapError fun e => .tunnel (what ++ ": " ++ e)

def connectH3 (a : H3Awaits) (v4 : Except Error Ipv4Addr) (v6 : Option Ipv6Addr) :
    Except Error Connected := do
  a.dialQuic
  tunnelErr "h3 connect" a.build
  tunnelErr "build request" a.request
  tunnelErr "send extended CONNECT" a.sendRequest
  let status ← tunnelErr "recv response" a.recvResponse
  let assignedV4 ← v4
  return ⟨status, assignedV4, v6⟩

def connectH2 (a : H2Awaits) (v4 : Except Error Ipv4Addr) (v6 : Option Ipv6Addr) :
    Except Error Connected := do
  a.endpoint
  a.tcpConnect.mapError .io
  a.tlsConfig
  tunnelErr "sni" a.serverName
  tunnelErr "h2 tls handshake" a.tlsConnect
  tunnelErr "h2 handshake" a.handshake
  tunnelErr "build request" a.request
  tunnelErr "send extended CONNECT" a.sendRequest
  let status ← tunnelErr "recv response" a.response
  let assignedV4 ← v4
  return ⟨status, assignedV4, v6⟩

/-- `Tunnel::connect_with` -/
def connectWith (h3 : H3Awaits) (h2 : H2Awaits) (v4 : Except Error Ipv4Addr)
    (v6 : Option Ipv6Addr) : Transport → Except Error Connected
  | .http3 => connectH3 h3 v4 v6
  | .http2 => connectH2 h2 v4 v6

/-- The same exchange, answered with `status`. -/
def H3Awaits.answered (a : H3Awaits) (status : UInt16) : H3Awaits :=
  { a with recvResponse := a.recvResponse.map fun _ => status }

def H2Awaits.answered (a : H2Awaits) (status : UInt16) : H2Awaits :=
  { a with response := a.response.map fun _ => status }

theorem bind_map {α β γ : Type} (x : Except Error α) (k : α → Except Error β) (f : β → γ) :
    (x >>= k).map f = x >>= fun a => (k a).map f := by
  cases x <;> rfl

/-- The end of both: a response with another status. -/
theorem response_map (resp : Except String UInt16) (status : UInt16)
    (v4 : Except Error Ipv4Addr) (v6 : Option Ipv6Addr) :
    (do
      let status ← tunnelErr "recv response" (resp.map fun _ => status)
      let assignedV4 ← v4
      return (⟨status, assignedV4, v6⟩ : Connected)) =
    (do
      let status ← tunnelErr "recv response" resp
      let assignedV4 ← v4
      return (⟨status, assignedV4, v6⟩ : Connected) : Except Error Connected).map fun r =>
        { r with status := status } := by
  cases resp <;> cases v4 <;> rfl

/-- **The status decides nothing**: an exchange answered with another status gives the same
tunnel with that status. -/
theorem connectWith_status (h3 : H3Awaits) (h2 : H2Awaits) (v4 : Except Error Ipv4Addr)
    (v6 : Option Ipv6Addr) (tr : Transport) (status : UInt16) :
    connectWith (h3.answered status) (h2.answered status) v4 v6 tr =
      (connectWith h3 h2 v4 v6 tr).map fun r => { r with status := status } := by
  cases tr with
  | http3 =>
      simp only [connectWith, connectH3, H3Awaits.answered, response_map]
      simp only [bind_map]
  | http2 =>
      simp only [connectWith, connectH2, H2Awaits.answered, response_map]
      simp only [bind_map]

end WarpProxy
