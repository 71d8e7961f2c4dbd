/-
# Koisyn.Channel.Context — the connection context and what a handler does besides writing it

`ConnectionContext` is the source's slot for one peer: the application's channel context, the peer's
sentinel address, the handshake clock, the ports, the datagram channel and four stream channels,
each with a connection or stream we opened (`self`) and one we were given (`peer`), and the
reference count.  `pSession` is not among them: `Start` alone writes it, and it stands with the session.

A handler returns the new context and its `Call`s: the calls it makes on the operating system, on
MsQuic and on the application, in order, and three marks that the properties speak about: a `Reset`
that has run to its end, `StartClient` with the ports it starts from, and a `CONNECTED` that cleared
a handshake time.

`reset` is `ConnectionContext::Reset`: everything but the reference count goes back to its initial
value (`reset_eq`), and every handle held is shut down.
-/
namespace Koisyn.Channel

set_option autoImplicit false

/-- `HQUIC`: a connection or stream handle of MsQuic. -/
abbrev Hquic := Nat

/-- The object a `weak_ptr<void>` of the application points at. -/
abbrev ObjectId := Nat

/-- `maxConnections`. -/
abbrev maxConnections : Nat := 16

/-- A place in `connectionContexts`; its address is what `KoiChan` and MsQuic are given. -/
abbrev Slot := Fin maxConnections

-- named, so that the literals of slots and channel indices are the same terms in every module
instance neZero_maxConnections : @NeZero Nat Zero.ofOfNat0 maxConnections := ⟨by decide⟩

instance neZero_channels : @NeZero Nat Zero.ofOfNat0 4 := ⟨by decide⟩

inductive AddressFamily where
  | unspec | inet | inet6
  deriving DecidableEq, Repr

/-- `QUIC_ADDR`.  `sin_addr` and `sin6_addr` of the union are different bytes, so both are fields;
the port is in host byte order. -/
structure QuicAddr where
  family : AddressFamily := .unspec
  port : UInt16 := 0
  ipv4 : UInt32 := 0
  ipv6 : BitVec 128 := 0
  deriving DecidableEq, Repr

/-- `QuicAddrCompareIp`: by the first address's family. -/
def quicAddrCompareIp (addr1 addr2 : QuicAddr) : Bool :=
  if addr1.family = .inet then addr1.ipv4 == addr2.ipv4 else addr1.ipv6 == addr2.ipv6

/-- `QuicAddrCompare`. -/
def quicAddrCompare (addr1 addr2 : QuicAddr) : Bool :=
  if addr1.family ≠ addr2.family ∨ addr1.port ≠ addr2.port then false
  else quicAddrCompareIp addr1 addr2

@[simp] theorem quicAddrCompare_self (addr : QuicAddr) : quicAddrCompare addr addr = true := by
  simp [quicAddrCompare, quicAddrCompareIp]

/-- `ConnectionContext::Ports`. -/
structure Ports where
  remoteServer : UInt16 := 0
  remoteClient : UInt16 := 0
  localServer : UInt16 := 0
  localClient : UInt16 := 0
  deriving DecidableEq, Repr

/-- `bit_cast<uint64_t>(Ports) == 0`. -/
def Ports.isZero (ports : Ports) : Bool := ports == {}

structure DatagramChannel where
  self : Option Hquic := none
  peer : Option Hquic := none
  nextRecvPacket : UInt32 := 0
  nextSendPacket : UInt32 := 0
  maxSendLength : UInt16 := 0
  deriving DecidableEq, Repr

/-- QUIC keeps stream offsets below `2 ^ 62`, so `NextRecvByte` is a natural. -/
structure StreamChannel where
  buffer : List UInt8 := []
  self : Option Hquic := none
  peer : Option Hquic := none
  nextRecvByte : Nat := 0
  deriving DecidableEq, Repr

/-- `HandshakeBegin` is `none` for the default time point, which the source reads as "not
handshaking"; `transient` is the bound port of the reserved client socket, `none` when closed. -/
structure ConnectionContext where
  channelContext : Option ObjectId := none
  remoteSentinel : QuicAddr := {}
  handshakeBegin : Option Nat := none
  transient : Option UInt16 := none
  ports : Ports := {}
  unreliable : DatagramChannel := {}
  reliable : Fin 4 → StreamChannel := fun _ => {}
  refCount : UInt32 := 0

/-- `RawBuffer`: what a send hands to MsQuic.  `packetLengthOrNumber` are the four bytes just before
`data`, where `Buffer.Buffer` points. -/
structure RawBuffer where
  length : Nat
  refCount : Nat
  packetLengthOrNumber : List UInt8
  data : List UInt8
  deriving DecidableEq, Repr

/-- The bytes from `Data - 4` on. -/
def RawBuffer.bytes (buf : RawBuffer) : List UInt8 :=
  (buf.packetLengthOrNumber ++ buf.data).take buf.length

inductive Call where
  | sentinelSendTo (remote : QuicAddr) (data : List UInt8)
  | listenerSendTo (remote : QuicAddr) (data : List UInt8)
  | onAccept (slot : Slot) (granted : Bool)
  | onDisconnect (slot : Slot) (channelContext : Option ObjectId)
  | onReliableReceive (slot : Slot) (index : Fin 4) (data : List UInt8) (channelContext : ObjectId)
  | onUnreliableReceive (slot : Slot) (data : List UInt8) (channelContext : ObjectId)
  | setLocalAddress (conn : Hquic) (port : UInt16)
  | connectionStart (conn : Hquic) (remote : QuicAddr) (serverPort : UInt16)
  | connectionShutdown (conn : Hquic)
  | connectionClose (conn : Hquic)
  | connectionSetCallbackHandler (conn : Hquic) (slot : Slot)
  | connectionSetConfiguration (conn : Hquic)
  | streamStart (strm : Option Hquic)
  | streamShutdown (strm : Hquic)
  | streamSetCallbackHandler (strm : Hquic) (slot : Slot)
  | streamSend (strm : Hquic) (buf : RawBuffer) (succeeded : Bool)
  | datagramSend (conn : Hquic) (buf : RawBuffer) (succeeded : Bool)
  | deleteBuffer
  | reset (slot : Slot)
  | startClient (slot : Slot) (ports : Ports)
  | handshakeCleared (slot : Slot)
  deriving DecidableEq, Repr

/-- Clearing a `SharedStream` that is the last owner of its handle. -/
def releaseStream (strm : Option Hquic) : List Call := strm.toList.map .streamShutdown

/-- Clearing a `SharedConnection` that is the last owner of its handle. -/
def releaseConnection (conn : Option Hquic) : List Call := conn.toList.map .connectionShutdown

/-- `weak_ptr::lock`, when `alive` says which objects the application still owns. -/
def lockChannelContext (alive : ObjectId → Bool) (channelContext : Option ObjectId) :
    Option ObjectId :=
  channelContext.filter alive

namespace ConnectionContext

/-- `StreamChannel::Reset` on every stream channel, then `DatagramChannel::Reset`. -/
def resetCalls (ctx : ConnectionContext) (slot : Slot) : List Call :=
  .reset slot ::
    ((List.finRange 4).flatMap fun i =>
      releaseStream (ctx.reliable i).self ++ releaseStream (ctx.reliable i).peer) ++
    releaseConnection ctx.unreliable.self ++ releaseConnection ctx.unreliable.peer

/-- `ConnectionContext::Reset`. -/
def reset (ctx : ConnectionContext) : ConnectionContext :=
  { ctx with
    reliable := fun _ => {}
    unreliable := {}
    channelContext := none
    remoteSentinel := {}
    handshakeBegin := none
    transient := none
    ports := {} }

theorem reset_eq (ctx : ConnectionContext) : ctx.reset = { refCount := ctx.refCount } := rfl

end ConnectionContext

end Koisyn.Channel
