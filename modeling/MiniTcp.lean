import MiniTcp.Lib.Serial
import MiniTcp.Lib.Machine
import MiniTcp.Lib.Stream
import MiniTcp.Lib.Cover
import MiniTcp.Lib.Pieces
import MiniTcp.Util.Basic
import MiniTcp.Util.Checksum
import MiniTcp.Util.Flip
import MiniTcp.Util.Verify
import MiniTcp.Net.Ipv4
import MiniTcp.Lib.Decimal
import MiniTcp.Net.Ipv4.Address
import MiniTcp.Net.Ipv4.Wire
import MiniTcp.Net.Ipv4.Fragment
import MiniTcp.Net.Ipv4.Reassembly
import MiniTcp.Net.Ipv4.Restore
import MiniTcp.Net.Ipv4.Completion
import MiniTcp.Net.Ipv4.Legality
import MiniTcp.Net.Ipv4.Memory
import MiniTcp.Net.Ipv4.Interleaving
import MiniTcp.Lib.Tiling
import MiniTcp.Net.Ipv4.Refragment
import MiniTcp.Net.Ipv4.Reencode
import MiniTcp.Net.Ipv4.Netmask
import MiniTcp.Net.Ipv4.Corruption
import MiniTcp.Net.Tcp.Seqno
import MiniTcp.Net.Tcp.State
import MiniTcp.Net.Tcp.Segment
import MiniTcp.Net.Tcp.Reorder
import MiniTcp.Net.Tcp.Buffer
import MiniTcp.Net.Tcp.Retransmit
import MiniTcp.Net.Tcp.Congestion
import MiniTcp.Net.Tcp.Connection
import MiniTcp.Net.Tcp.Frame
import MiniTcp.Net.Tcp.Endpoint
import MiniTcp.Net.Tcp.Action
import MiniTcp.Net.Tcp.ActionStep
import MiniTcp.Net.Tcp.Effects
import MiniTcp.Net.Tcp.Invariant
import MiniTcp.Net.Tcp.Reset
import MiniTcp.Net.Tcp.Acknowledge
import MiniTcp.Net.Tcp.Flight
import MiniTcp.Net.Tcp.Coverage
import MiniTcp.Net.Tcp.Stall
import MiniTcp.Net.Tcp.Reassembly
import MiniTcp.Net.Tcp.Outbound
import MiniTcp.Net.Tcp.Inbound
import MiniTcp.Net.Tcp.Network
import MiniTcp.Net.Tcp.Emission
import MiniTcp.Net.Tcp.SpuriousReset
import MiniTcp.Net.Tcp.SimultaneousOpen
import MiniTcp.Net.Tcp.Close
import MiniTcp.Net.Tcp.FinAck
import MiniTcp.Net.Tcp.Receive
import MiniTcp.Net.Tcp.Delivery
import MiniTcp.Net.Tcp.Holding
import MiniTcp.Net.Tcp.Stale
import MiniTcp.Net.Tcp.EndOfStream
import MiniTcp.Net.Tcp.Calm
import MiniTcp.Net.Tcp.Repeat
import MiniTcp.Net.Tcp.RightEdge
import MiniTcp.Net.Tcp.Negotiation
import MiniTcp.Net.Tcp.Extent
import MiniTcp.Net.Tcp.Intake
import MiniTcp.Net.Tcp.Pacing
import MiniTcp.Net.Tcp.CloseStates
import MiniTcp.Net.Tcp.Footprint
import MiniTcp.Net.Tcp.Flush
import MiniTcp.Net.Tcp.Offer
import MiniTcp.Net.Tcp.AckFlow
import MiniTcp.Net.Tcp.Smooth
import MiniTcp.Net.Tcp.PerfectWire
import MiniTcp.Net.Tcp.Arrival
import MiniTcp.Lib.Dict
import MiniTcp.Net.Ethernet
import MiniTcp.Net.Arp
import MiniTcp.Net.Icmp
import MiniTcp.Net.Udp
import MiniTcp.Net.Tcp.Wire
import MiniTcp.Lib.Tlv
import MiniTcp.Net.Tcp.Options
import MiniTcp.Net.Tcp.Corruption
import MiniTcp.Net.Encapsulation
import MiniTcp.Net.Tcp.Output
import MiniTcp.Net.Tcp.Ending
import MiniTcp.Stack.Interface
import MiniTcp.Stack.Resolution
import MiniTcp.Stack.Link
import MiniTcp.Stack.Tables
import MiniTcp.Stack.Callbacks
import MiniTcp.Stack
import MiniTcp.Stack.Sound
import MiniTcp.Stack.Frames
import MiniTcp.Stack.Survival
import MiniTcp.Stack.Accept
import MiniTcp.Stack.Leaks
import MiniTcp.Net.Tcp.AckDue
import MiniTcp.Net.Tcp.Backoff
import MiniTcp.Net.Tcp.Persistence
import MiniTcp.Net.Tcp.Recovery
import MiniTcp.Net.Tcp.Teardown
import MiniTcp.Net.Tcp.Unread
import MiniTcp.Stack.Release
import MiniTcp.Stack.Operations
import MiniTcp.Stack.Retry
import MiniTcp.Lib.Recency
import MiniTcp.Net.Arp.History
import MiniTcp.Stack.Ports
import MiniTcp.Net.Tcp.Phases
import MiniTcp.Lib.Hull
import MiniTcp.Net.Tcp.Estimate
import MiniTcp.Net.Tcp.WrittenStream
import MiniTcp.Net.Tcp.PeerStream
import MiniTcp.Socket.Recv
import MiniTcp.Stack.Waiting
import MiniTcp.Socket.Datagram
import MiniTcp.Link.Simulated
import MiniTcp.Link.Delivery
import MiniTcp.Stack.Isolation
import MiniTcp.Stack.Departures
import MiniTcp.Stack.Routing
import MiniTcp.Lan
import MiniTcp.Lan.Authentic
import MiniTcp.Lan.Stream
import MiniTcp.Net.Tcp.Lifecycle
import MiniTcp.Net.Tcp.TimeWait
import MiniTcp.Net.Tcp.DeadPeer
import MiniTcp.Lan.Handshake
import MiniTcp.Socket.Recvfrom
