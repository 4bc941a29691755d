import WarpProxy.Lib.Transition
import WarpProxy.Lib.IpText
import WarpProxy.H2Tunnel.Loops
import WarpProxy.Tunnel.Datagram
import WarpProxy.Pool.Step
import WarpProxy.Tunnel.Connect
import WarpProxy.Pool.Settled
import WarpProxy.Pool.Intact
import WarpProxy.Pool.Ids
import WarpProxy.Pool.View
import WarpProxy.Lib.RoundRobin
import WarpProxy.Pool.Pick
import WarpProxy.Netstack.Deps
import WarpProxy.Netstack.Dns
import WarpProxy.Netstack.Actor
import WarpProxy.Netstack.System
import WarpProxy.Netstack.Spec
import WarpProxy.Netstack.Runs
import WarpProxy.Netstack.Outbound
import WarpProxy.Netstack.Ends
import WarpProxy.Netstack.Pass
import WarpProxy.Netstack.Eof
import WarpProxy.Netstack.Answered
import WarpProxy.Netstack.Ports
import WarpProxy.Netstack.Owner
import WarpProxy.Netstack.Isolation
import WarpProxy.Netstack.Tables
import WarpProxy.Netstack.Sockets
import WarpProxy.Netstack.Sent
import WarpProxy.Lib.Slots
import WarpProxy.Netstack.Inbound
import WarpProxy.Netstack.Truncation
import WarpProxy.Netstack.Reading
import WarpProxy.Netstack.Abandoned
import WarpProxy.Pool.Rotator
import WarpProxy.Pool.Pin
import WarpProxy.Pool.Accepted
import WarpProxy.Pool.Orphans
import WarpProxy.Tasks.Wire
import WarpProxy.Tasks.System
import WarpProxy.Tasks.Ended
import WarpProxy.Tasks.Noticed
import WarpProxy.Pool.Tended
import WarpProxy.Pool.Trace
import WarpProxy.Tasks.Joint
import WarpProxy.Tasks.Teardown
import WarpProxy.Lib.Text
import WarpProxy.Lib.Utf8
import WarpProxy.Socks.Request
import WarpProxy.Socks.Session
import WarpProxy.Socks.Encode
import WarpProxy.Lib.Splice
import WarpProxy.Socks.Relay
import WarpProxy.Control.Handle
import WarpProxy.Lib.Json
import WarpProxy.Control.ErrorBody
import WarpProxy.Lib.Http
import WarpProxy.Trace
import WarpProxy.Lib.IpRead
import WarpProxy.Register
import WarpProxy.Lib.Pretty
import WarpProxy.Provision
import WarpProxy.Lib.BitString
import WarpProxy.Lib.PrefixCode
import WarpProxy.H3.HuffmanTable
import WarpProxy.H3.Huffman
import WarpProxy.Lib.Base128
import WarpProxy.H3.PrefixInt
import WarpProxy.H3.PrefixString
import WarpProxy.H3.StaticTable
import WarpProxy.H3.Qpack
import WarpProxy.H3.VarInt
import WarpProxy.H3.Settings
import WarpProxy.H3.Frame
import WarpProxy.H3.FrameStream
import WarpProxy.H3.Errors
import WarpProxy.H3.Connection
import WarpProxy.H3.Driver
import WarpProxy.H3.ControlStream
import WarpProxy.Lib.Multimap
import WarpProxy.H3.Header
import WarpProxy.H3.Request
import WarpProxy.Lib.Compact
import WarpProxy.Lib.JsonData
import WarpProxy.Control.StatusBody
import WarpProxy.Lib.HttpMessage
import WarpProxy.Control.Message
import WarpProxy.Control.Route
import WarpProxy.Control.Request
import WarpProxy.Control.Handshake
import WarpProxy.Pool.Passive
import WarpProxy.Control.Api
import WarpProxy.Pool.Recovery
