/-
# Koisyn.Session.Handshake — the three UDP packets and the half-open check

The functions of `KoiSession` that set a session up over the sentinel's UDP socket, each on the one
context it works on: `connectTo` sends the first packet, `receive1st` answers with the second,
`receive2nd` with the third, and `receive2nd` and `receive3rd` start our QUIC client
(`startClient`).  `doCheck` is one pass of the daemon over one context, which retries or gives up.
`findMatchingEntry` chooses the context; `busy` says whose `ModifyMutex` its `try_lock` misses.

The outcomes of the system's calls are arguments: the port of a socket that `Bind` returns, what
`ConnectionOpen`, `StreamOpen` and `OnAccept` answer, the clock in nanoseconds.

`convertBufferToPorts_portBytes` is the round trip of the packet format: what one side sends as its
local ports the other reads as remote ports.  `startClient_started` and `doCheck_checked` list what
those two functions can do, once for every proof that follows a context through them.
-/
import Koisyn.Channel.Receive

namespace Koisyn.Session

open Koisyn.Channel
open Koisyn.Theory.Bytes

set_option autoImplicit false

/-- An address of the sentinel's IPv6 socket.  The flow label and the scope are left out: nothing
modelled reads them. -/
structure Endpoint where
  port : UInt16
  ip : BitVec 128
  deriving DecidableEq, Repr

def Endpoint.addr (remote : Endpoint) : QuicAddr :=
  { family := .inet6, port := remote.port, ipv6 := remote.ip }

@[simp] theorem quicAddrCompare_addr (a b : Endpoint) :
    quicAddrCompare a.addr b.addr = true ↔ a = b := by
  obtain ⟨portA, ipA⟩ := a
  obtain ⟨portB, ipB⟩ := b
  by_cases same : portA = portB <;> simp [quicAddrCompare, quicAddrCompareIp, Endpoint.addr, same]

@[simp] theorem quicAddrCompare_blank (b : Endpoint) : quicAddrCompare {} b.addr = false := by
  simp [quicAddrCompare, Endpoint.addr]

@[simp] theorem quicAddrCompare_addr_blank (a : Endpoint) : quicAddrCompare a.addr {} = false := by
  simp [quicAddrCompare, Endpoint.addr]

/-! ## The packet format -/

/-- The eight bytes of `SendPorts`. -/
def portBytes (localServer localClient remoteServer remoteClient : UInt16) : List UInt8 :=
  bigEndian 2 localServer.toNat ++ bigEndian 2 localClient.toNat ++
    bigEndian 2 remoteServer.toNat ++ bigEndian 2 remoteClient.toNat

/-- `SendPorts`. -/
def sendPorts (remote : QuicAddr) (localServer localClient remoteServer remoteClient : UInt16) :
    Call :=
  .sentinelSendTo remote (portBytes localServer localClient remoteServer remoteClient)

/-- `ConvertBufferToPorts`. -/
def convertBufferToPorts (data : List UInt8) : Option Ports :=
  if data.length < 8 then none
  else
    let port (i : Nat) : UInt16 := UInt16.ofNat (ofBigEndian ((data.drop (2 * i)).take 2))
    some { remoteServer := port 0, remoteClient := port 1, localServer := port 2
           localClient := port 3 }

/-- `RemoteServer | RemoteClient`, as a condition. -/
def knownPeerPorts (ports : Ports) : Bool := ports.remoteServer ||| ports.remoteClient != 0

/-- `LocalServer | LocalClient`, as a condition. -/
def knownLocalPorts (ports : Ports) : Bool := ports.localServer ||| ports.localClient != 0

@[simp] theorem length_portBytes (ls lc rs rc : UInt16) : (portBytes ls lc rs rc).length = 8 := by
  simp [portBytes]

theorem ofNat_ofBigEndian_port (port : UInt16) :
    UInt16.ofNat (ofBigEndian (bigEndian 2 port.toNat)) = port := by
  rw [ofBigEndian_bigEndian (by simpa using port.toNat_lt), UInt16.ofNat_toNat]

/-- **What one side sends as local the other reads as remote.** -/
theorem convertBufferToPorts_portBytes (ls lc rs rc : UInt16) :
    convertBufferToPorts (portBytes ls lc rs rc) =
      some { remoteServer := ls, remoteClient := lc, localServer := rs, localClient := rc } := by
  have two : ∀ port : UInt16, (bigEndian 2 port.toNat).length = 2 := fun _ => by simp
  have first : (portBytes ls lc rs rc).take 2 = bigEndian 2 ls.toNat := by
    rw [portBytes, List.append_assoc, List.append_assoc, List.take_left' (two ls)]
  have second : ((portBytes ls lc rs rc).drop 2).take 2 = bigEndian 2 lc.toNat := by
    rw [portBytes, List.append_assoc, List.append_assoc, List.drop_left' (two ls),
      List.take_left' (two lc)]
  have third : ((portBytes ls lc rs rc).drop 4).take 2 = bigEndian 2 rs.toNat := by
    rw [portBytes, List.append_assoc, List.drop_left' (by simp), List.take_left' (two rs)]
  have fourth : ((portBytes ls lc rs rc).drop 6).take 2 = bigEndian 2 rc.toNat := by
    rw [portBytes, List.drop_left' (by simp), List.take_of_length_le (two rc).le]
  simp only [convertBufferToPorts, length_portBytes, Nat.lt_irrefl, if_false, Nat.mul_zero,
    List.drop_zero, Nat.mul_one, Nat.reduceMul, first, second, third, fourth,
    ofNat_ofBigEndian_port]

/-! ## Finding a context -/

/-- `RefCount == 0` and all ports zero. -/
def isEmpty (ctx : ConnectionContext) : Bool := ctx.refCount == 0 && ctx.ports.isZero

theorem isEmpty_iff {ctx : ConnectionContext} :
    isEmpty ctx = true ↔ ctx.refCount = 0 ∧ ctx.ports = {} := by
  simp [isEmpty, Ports.isZero]

/-- The loop of `FindMatchingEntry` from a given `firstEmpty` on. -/
def scanEntries (contexts : Slot → ConnectionContext) (busy : Slot → Bool) (remote : QuicAddr) :
    Option Slot → List Slot → Bool × Option Slot
  | firstEmpty, [] => (false, firstEmpty)
  | firstEmpty, i :: rest =>
      if busy i then scanEntries contexts busy remote firstEmpty rest
      else if quicAddrCompare (contexts i).remoteSentinel remote then (true, some i)
      else
        let firstEmpty := if firstEmpty.isNone && isEmpty (contexts i) then some i else firstEmpty
        scanEntries contexts busy remote firstEmpty rest

/-- `FindMatchingEntry`; `none` is the index `-1`. -/
def findMatchingEntry (contexts : Slot → ConnectionContext) (busy : Slot → Bool)
    (remote : QuicAddr) : Bool × Option Slot :=
  scanEntries contexts busy remote none (List.finRange maxConnections)

theorem scanEntries_eq (contexts : Slot → ConnectionContext) (busy : Slot → Bool)
    (remote : QuicAddr) (firstEmpty : Option Slot) (slots : List Slot) :
    scanEntries contexts busy remote firstEmpty slots =
      match slots.find? fun i => !busy i && quicAddrCompare (contexts i).remoteSentinel remote with
      | some i => (true, some i)
      | none => (false, firstEmpty.or (slots.find? fun i => !busy i && isEmpty (contexts i))) := by
  induction slots generalizing firstEmpty with
  | nil => simp [scanEntries]
  | cons i rest ih =>
      cases skipped : busy i with
      | true => simp [scanEntries, skipped, ih]
      | false =>
          cases same : quicAddrCompare (contexts i).remoteSentinel remote with
          | true => simp [scanEntries, skipped, same]
          | false =>
              cases firstEmpty <;> cases empty : isEmpty (contexts i) <;>
                simp [scanEntries, skipped, same, empty, ih]

/-- **What `FindMatchingEntry` returns**: the first context it can lock with this remote, or else the
first it can lock that is empty. -/
theorem findMatchingEntry_eq (contexts : Slot → ConnectionContext) (busy : Slot → Bool)
    (remote : QuicAddr) :
    findMatchingEntry contexts busy remote =
      match (List.finRange maxConnections).find? fun i =>
          !busy i && quicAddrCompare (contexts i).remoteSentinel remote with
      | some i => (true, some i)
      | none => (false, (List.finRange maxConnections).find? fun i =>
          !busy i && isEmpty (contexts i)) := by
  rw [findMatchingEntry, scanEntries_eq]
  split <;> simp

theorem findMatchingEntry_matching {contexts : Slot → ConnectionContext} {busy : Slot → Bool}
    {remote : QuicAddr} {i : Slot}
    (found : findMatchingEntry contexts busy remote = (true, some i)) :
    busy i = false ∧ quicAddrCompare (contexts i).remoteSentinel remote = true := by
  rw [findMatchingEntry_eq] at found
  split at found
  · rename_i j first
    obtain rfl : j = i := by simpa using found
    simpa using List.find?_some first
  · cases found

theorem findMatchingEntry_empty {contexts : Slot → ConnectionContext} {busy : Slot → Bool}
    {remote : QuicAddr} {i : Slot}
    (found : findMatchingEntry contexts busy remote = (false, some i)) :
    busy i = false ∧ isEmpty (contexts i) = true ∧
      ∀ j, busy j = false → quicAddrCompare (contexts j).remoteSentinel remote = false := by
  rw [findMatchingEntry_eq] at found
  split at found
  · cases found
  · rename_i unmatched
    have first := List.find?_some (Prod.mk.inj found).2
    simp only [Bool.and_eq_true, Bool.not_eq_true'] at first
    refine ⟨first.1, first.2, ?_⟩
    intro j free
    have differ := List.find?_eq_none.1 unmatched j (List.mem_finRange j)
    simpa [free] using differ

/-! ## The handlers of one context -/

/-- The outcomes that `StartClient` gets: the connection and the streams it opens, the answer of
`OnAccept`, the channel context it leaves, and the objects the application owns. -/
structure StartEnv where
  connection : Option Hquic
  streams : Fin 4 → Option Hquic
  shouldCreate : Bool
  channelContext : Option ObjectId
  alive : ObjectId → Bool

/-- `OnAccept` returns true and the channel context is not expired. -/
def StartEnv.granted (env : StartEnv) : Bool :=
  env.shouldCreate && (lockChannelContext env.alive env.channelContext).isSome

/-- The context once `StartClient` has opened its connection and its streams. -/
def opened (ctx : ConnectionContext) (conn : Hquic) (streams : Fin 4 → Option Hquic) :
    ConnectionContext :=
  { ctx with
    unreliable := { ctx.unreliable with self := some conn }
    reliable := fun i =>
      { ctx.reliable i with self := (streams i).or (ctx.reliable i).self } }

/-- `StartClient`, in one piece: `Consent` takes it apart. -/
def startClient (slot : Slot) (ctx : ConnectionContext) (remote : Endpoint) (env : StartEnv) :
    ConnectionContext × List Call :=
  let mark := Call.startClient slot ctx.ports
  -- don't start multiple times
  if ctx.unreliable.self.isSome then (ctx, [mark])
  else
    match env.connection with
    | none => (ctx, [mark])
    | some conn =>
        let released := (List.finRange 4).flatMap fun i =>
          if (env.streams i).isSome then releaseStream (ctx.reliable i).self else []
        let ctx := { opened ctx conn env.streams with channelContext := env.channelContext }
        let asked := mark :: released ++ [.onAccept slot env.granted]
        if env.granted then
          ({ ctx with transient := none },
            asked ++ [.setLocalAddress conn ctx.ports.localClient,
              .connectionStart conn { remote.addr with port := ctx.ports.remoteServer }
                ctx.ports.remoteServer] ++
              (List.finRange 4).map fun i => .streamStart (ctx.reliable i).self)
        else (ctx.reset, asked ++ ctx.resetCalls slot)

/-- `ConnectTo` once it has found a free context and bound a socket. -/
def connectTo (ctx : ConnectionContext) (remote : Endpoint) (localServer localClient : UInt16)
    (now : Nat) : ConnectionContext × List Call :=
  ({ ctx with
      ports := { ctx.ports with localServer, localClient }
      handshakeBegin := some now
      transient := some localClient
      remoteSentinel := remote.addr },
    [sendPorts remote.addr localServer localClient 0 0])

/-- "Challenge their firewall": two bytes from the listener to the peer's client port. -/
def challenge (remote : Endpoint) (remoteClient : UInt16) : List Call :=
  if remoteClient ≠ 0 then [.listenerSendTo { remote.addr with port := remoteClient } [0, 0]] else []

/-- `Receive1st`; `sock` is the port of the socket that `Bind` returns. -/
def receive1st (ctx : ConnectionContext) (remoteServer remoteClient : UInt16) (remote : Endpoint)
    (localServer : UInt16) (sock : Option UInt16) (now : Nat) : ConnectionContext × List Call :=
  let saved := { ctx with ports := { ctx.ports with remoteServer, remoteClient } }
  let challenged := challenge remote remoteClient
  match ctx.handshakeBegin with
  | none =>
      match sock with
      | none => (saved, challenged)
      | some localClient =>
          ({ saved with
              ports := { saved.ports with localServer, localClient }
              handshakeBegin := some now
              transient := some localClient
              remoteSentinel := remote.addr },
            challenged ++ [sendPorts remote.addr localServer localClient remoteServer remoteClient])
  | some _ =>
      (saved, challenged ++
        [sendPorts remote.addr ctx.ports.localServer ctx.ports.localClient remoteServer
          remoteClient])

/-- `Receive2nd`, which `Consent` takes apart too. -/
def receive2nd (slot : Slot) (ctx : ConnectionContext) (remoteServer remoteClient : UInt16)
    (remote : Endpoint) (env : StartEnv) : ConnectionContext × List Call :=
  let saved := { ctx with ports := { ctx.ports with remoteServer, remoteClient } }
  let r := startClient slot saved remote env
  (r.1, challenge remote remoteClient ++
    sendPorts remote.addr 0 0 remoteServer remoteClient :: r.2)

/-- `Receive3rd`. -/
def receive3rd (slot : Slot) (ctx : ConnectionContext) (remote : Endpoint) (env : StartEnv) :
    ConnectionContext × List Call :=
  startClient slot ctx remote env

/-! ## The half-open check, in nanoseconds -/

def milliseconds (n : Nat) : Nat := n * 10 ^ 6

def seconds (n : Nat) : Nat := n * 10 ^ 9

def retryTimeout : Nat := seconds 4

def longStopRetryTimeout : Nat := seconds 60

def shortStopRetryTimeout : Nat := seconds 12

/-- The first packet was not received in time. -/
def longStops (elapsed : Nat) : Prop := longStopRetryTimeout - milliseconds 2 < elapsed

/-- The peer's ports are known and its next packet was not received in time. -/
def shortStops (ports : Ports) (elapsed : Nat) : Prop :=
  ¬ longStops elapsed ∧ knownPeerPorts ports = true ∧
    shortStopRetryTimeout - milliseconds 2 < elapsed

instance (elapsed : Nat) : Decidable (longStops elapsed) :=
  inferInstanceAs (Decidable (_ < _))

instance (ports : Ports) (elapsed : Nat) : Decidable (shortStops ports elapsed) :=
  inferInstanceAs (Decidable (_ ∧ _))

/-- `DoCheck`. -/
def doCheck (slot : Slot) (ctx : ConnectionContext) (now : Nat) : ConnectionContext × List Call :=
  match ctx.handshakeBegin with
  | none => (ctx, [])
  | some handshakeBegin =>
      let elapsed := now - handshakeBegin
      if elapsed < retryTimeout - milliseconds 2 then (ctx, [])
      else if longStops elapsed then (ctx.reset, ctx.resetCalls slot)
      else if shortStops ctx.ports elapsed then
        -- the channel context is reset before it is handed to the application
        (ctx.reset, ctx.resetCalls slot ++ [.onDisconnect slot none])
      else
        (ctx, [sendPorts ctx.remoteSentinel ctx.ports.localServer ctx.ports.localClient
          ctx.ports.remoteServer ctx.ports.remoteClient])

/-! ## What they can do -/

/-- The context once `StartClient` has asked the application. -/
def askedFor (ctx : ConnectionContext) (conn : Hquic) (env : StartEnv) : ConnectionContext :=
  { opened ctx conn env.streams with channelContext := env.channelContext }

/-- The streams that those of a new connection take the place of. -/
def replacedCalls (ctx : ConnectionContext) (env : StartEnv) : List Call :=
  (List.finRange 4).flatMap fun i =>
    if (env.streams i).isSome then releaseStream (ctx.reliable i).self else []

/-- **What `StartClient` can do**: leave the context, or open a connection and start it or drop it. -/
inductive StartedClient (slot : Slot) (ctx : ConnectionContext) (remote : Endpoint)
    (env : StartEnv) : ConnectionContext × List Call → Prop
  | unopened (skips : ctx.unreliable.self.isSome ∨ env.connection = none) :
      StartedClient slot ctx remote env (ctx, [.startClient slot ctx.ports])
  | granted (conn : Hquic) (free : ctx.unreliable.self = none) (opens : env.connection = some conn)
      (granted : env.granted = true) :
      StartedClient slot ctx remote env
        ({ askedFor ctx conn env with transient := none },
          .startClient slot ctx.ports :: replacedCalls ctx env ++ [.onAccept slot true] ++
            [.setLocalAddress conn ctx.ports.localClient,
              .connectionStart conn { remote.addr with port := ctx.ports.remoteServer }
                ctx.ports.remoteServer] ++
            (List.finRange 4).map fun i => .streamStart ((askedFor ctx conn env).reliable i).self)
  | refused (conn : Hquic) (free : ctx.unreliable.self = none) (opens : env.connection = some conn)
      (refused : env.granted = false) :
      StartedClient slot ctx remote env
        ((askedFor ctx conn env).reset,
          .startClient slot ctx.ports :: replacedCalls ctx env ++ [.onAccept slot false] ++
            (askedFor ctx conn env).resetCalls slot)

theorem startClient_started (slot : Slot) (ctx : ConnectionContext) (remote : Endpoint)
    (env : StartEnv) : StartedClient slot ctx remote env (startClient slot ctx remote env) := by
  unfold startClient
  split
  · rename_i taken
    exact .unopened (.inl taken)
  · rename_i taken
    have free : ctx.unreliable.self = none := by simpa using taken
    split
    · rename_i failed
      exact .unopened (.inr failed)
    · rename_i conn opens
      cases granted : env.granted with
      | true => exact .granted conn free opens granted
      | false => exact .refused conn free opens granted

/-- **What `DoCheck` can do**: nothing, give the handshake up early or late, or send the ports again. -/
inductive Checked (slot : Slot) (ctx : ConnectionContext) (now : Nat) :
    ConnectionContext × List Call → Prop
  | idle : Checked slot ctx now (ctx, [])
  | longStop {handshakeBegin : Nat} (begun : ctx.handshakeBegin = some handshakeBegin)
      (stops : longStops (now - handshakeBegin)) :
      Checked slot ctx now (ctx.reset, ctx.resetCalls slot)
  | shortStop {handshakeBegin : Nat} (begun : ctx.handshakeBegin = some handshakeBegin)
      (stops : shortStops ctx.ports (now - handshakeBegin)) :
      Checked slot ctx now (ctx.reset, ctx.resetCalls slot ++ [.onDisconnect slot none])
  | retry : Checked slot ctx now
      (ctx, [sendPorts ctx.remoteSentinel ctx.ports.localServer ctx.ports.localClient
        ctx.ports.remoteServer ctx.ports.remoteClient])

theorem doCheck_checked (slot : Slot) (ctx : ConnectionContext) (now : Nat) :
    Checked slot ctx now (doCheck slot ctx now) := by
  unfold doCheck
  split
  · exact .idle
  · rename_i handshakeBegin begun
    dsimp only
    split
    · exact .idle
    · split
      · rename_i stops
        exact .longStop begun stops
      · split
        · rename_i stops
          exact .shortStop begun stops
        · exact .retry

end Koisyn.Session
