/-
# Koisyn.Session.StreamLedger — who holds a stream, from one activation to the next

A `SharedStream` is in a `Reliable[i].Self` or a `Reliable[i].Peer` of some context, or it has been
released.  `holdings` counts the places of one context that hold a handle, and `run_ledger` is the
law of every activation: what was held and what was opened is still held or has been released, as
often as it was; a stream that the activation starts or sends on is one of them (`Ledger`).

`newStreams` are the streams that MsQuic hands out in an activation; `newStreams_of_route` says that
their handles are new, and the next ones.
-/
import Koisyn.Session.History
import Mathlib.Algebra.BigOperators.Fin
import Mathlib.Algebra.Order.BigOperators.Group.Finset

namespace Koisyn.Session

open Koisyn.Channel

set_option autoImplicit false

/-! ## Counting -/

/-- The number of places of a channel that hold a stream. -/
def places (chn : StreamChannel) (strm : Hquic) : Nat :=
  (if chn.self = some strm then 1 else 0) + if chn.peer = some strm then 1 else 0

/-- The number of places of all channels that do. -/
def holdings (reliable : Fin 4 → StreamChannel) (strm : Hquic) : Nat := ∑ i, places (reliable i) strm

theorem holdings_update (reliable : Fin 4 → StreamChannel) (index : Fin 4) (chn : StreamChannel)
    (strm : Hquic) :
    holdings (Function.update reliable index chn) strm + places (reliable index) strm =
      holdings reliable strm + places chn strm := by
  have rest : ∑ i ∈ Finset.univ.erase index, places (Function.update reliable index chn i) strm =
      ∑ i ∈ Finset.univ.erase index, places (reliable i) strm := by
    refine Finset.sum_congr rfl fun i member => ?_
    rw [Function.update_of_ne (Finset.ne_of_mem_erase member)]
  rw [holdings, holdings, ← Finset.add_sum_erase _ _ (Finset.mem_univ index), rest,
    Function.update_self, ← Finset.add_sum_erase _ _ (Finset.mem_univ index)]
  omega

theorem places_le_holdings (reliable : Fin 4 → StreamChannel) (i : Fin 4) (strm : Hquic) :
    places (reliable i) strm ≤ holdings reliable strm :=
  Finset.single_le_sum (f := fun i => places (reliable i) strm) (fun _ _ => Nat.zero_le _)
    (Finset.mem_univ i)

/-- A channel holds a stream as its own or as its peer's. -/
theorem places_pos {chn : StreamChannel} {strm : Hquic} :
    0 < places chn strm ↔ chn.self = some strm ∨ chn.peer = some strm := by
  unfold places
  split <;> split <;> simp_all

theorem holdings_pos {reliable : Fin 4 → StreamChannel} (i : Fin 4) {strm : Hquic}
    (held : (reliable i).self = some strm ∨ (reliable i).peer = some strm) :
    0 < holdings reliable strm :=
  (places_pos.2 held).trans_le (places_le_holdings reliable i strm)

/-- How often a stream has been released. -/
def releases (strm : Hquic) (calls : List Call) : Nat := calls.count (.streamShutdown strm)

/-- The stream that a call starts or sends on. -/
def useOf : Call → Option Hquic
  | .streamStart strm => strm
  | .streamSend strm _ _ => some strm
  | _ => none

def uses (calls : List Call) : List Hquic := calls.filterMap useOf

section Calls

variable {strm : Hquic} {calls more : List Call}

@[simp] theorem releases_nil : releases strm [] = 0 := rfl

@[simp] theorem releases_append :
    releases strm (calls ++ more) = releases strm calls + releases strm more :=
  List.count_append

@[simp] theorem releases_releaseStream (held : Option Hquic) :
    releases strm (releaseStream held) = if held = some strm then 1 else 0 := by
  cases held with
  | none => rfl
  | some other => by_cases same : other = strm <;> simp [releases, releaseStream, same]

@[simp] theorem releases_releaseConnection (conn : Option Hquic) :
    releases strm (releaseConnection conn) = 0 := by
  cases conn <;> simp [releases, releaseConnection]

theorem releases_flatMap (f : Fin 4 → List Call) :
    releases strm ((List.finRange 4).flatMap f) = ∑ i, releases strm (f i) := by
  rw [releases, List.count_flatMap, Fin.sum_univ_def]
  rfl

@[simp] theorem uses_nil : uses [] = [] := rfl

@[simp] theorem uses_append : uses (calls ++ more) = uses calls ++ uses more := List.filterMap_append

@[simp] theorem uses_releaseStream (held : Option Hquic) : uses (releaseStream held) = [] := by
  cases held <;> rfl

@[simp] theorem uses_releaseConnection (conn : Option Hquic) : uses (releaseConnection conn) = [] := by
  cases conn <;> rfl

theorem uses_flatMap_nil {ι : Type} (xs : List ι) (f : ι → List Call) (unused : ∀ x, uses (f x) = []) :
    uses (xs.flatMap f) = [] := by
  rw [uses, List.filterMap_flatMap]
  exact List.flatMap_eq_nil_iff.2 fun x _ => unused x

/-- Calls that neither release, start nor send on a stream. -/
def StreamFree (calls : List Call) : Prop := ∀ call ∈ calls,
  (∀ strm, call ≠ .streamShutdown strm) ∧ useOf call = none

theorem StreamFree.releases (free : StreamFree calls) : releases strm calls = 0 :=
  List.count_eq_zero.2 fun released => (free _ released).1 strm rfl

theorem StreamFree.uses (free : StreamFree calls) : uses calls = [] :=
  List.filterMap_eq_nil_iff.2 fun call member => (free call member).2

end Calls

/-! ## The ledger of an activation -/

/-- **What an activation does with streams.**  Those held before and those opened are held after or have
been released, and no others are started or sent on. -/
structure Ledger (before : Fin 4 → StreamChannel) (opened : List Hquic)
    (after : Fin 4 → StreamChannel) (calls : List Call) : Prop where
  balance : ∀ strm, holdings before strm + opened.count strm =
    holdings after strm + releases strm calls
  used : ∀ strm ∈ uses calls, 0 < holdings before strm + opened.count strm

section Rules

variable {before between after : Fin 4 → StreamChannel} {opened : List Hquic}
variable {calls more : List Call} {slot : Slot} {ctx : ConnectionContext}

theorem Ledger.same (free : StreamFree calls)
    (handles : ∀ i, (after i).self = (before i).self ∧ (after i).peer = (before i).peer) :
    Ledger before [] after calls where
  balance strm := by
    have equal : holdings before strm = holdings after strm := by
      refine Finset.sum_congr rfl fun i _ => ?_
      rw [places, places, (handles i).1, (handles i).2]
    rw [free.releases, List.count_nil, equal]
  used strm member := by
    rw [free.uses] at member
    cases member

/-- One after the other. -/
theorem Ledger.trans (first : Ledger before opened between calls)
    (second : Ledger between [] after more) : Ledger before opened after (calls ++ more) where
  balance strm := by
    have balanced := first.balance strm
    have rest := second.balance strm
    rw [List.count_nil] at rest
    rw [releases_append]
    omega
  used strm member := by
    rw [uses_append] at member
    rcases List.mem_append.1 member with here | later
    · exact first.used strm here
    · have positive := second.used strm later
      have balanced := first.balance strm
      rw [List.count_nil] at positive
      omega

theorem Ledger.before_free (free : StreamFree calls) (ledger : Ledger before opened after more) :
    Ledger before opened after (calls ++ more) where
  balance strm := by
    rw [releases_append, free.releases, Nat.zero_add]
    exact ledger.balance strm
  used strm member := by
    rw [uses_append, free.uses, List.nil_append] at member
    exact ledger.used strm member

theorem Ledger.after_free (ledger : Ledger before opened after calls) (free : StreamFree more) :
    Ledger before opened after (calls ++ more) :=
  ledger.trans (.same free fun _ => ⟨rfl, rfl⟩)

theorem streamFree_nil : StreamFree [] := fun _ member => absurd member List.not_mem_nil

theorem streamFree_challenge (remote : Endpoint) (port : UInt16) :
    StreamFree (challenge remote port) := by
  unfold challenge
  split <;> simp [StreamFree, useOf]

theorem streamFree_releaseConnection (conn : Option Hquic) :
    StreamFree (releaseConnection conn) := by
  cases conn <;> simp [StreamFree, releaseConnection, useOf]

theorem streamFree_append (free : StreamFree calls) (freeToo : StreamFree more) :
    StreamFree (calls ++ more) := by
  intro call member
  rcases List.mem_append.1 member with here | later
  · exact free call here
  · exact freeToo call later

/-- Streams are released from the places that are cleared. -/
theorem ledger_clear {f : Fin 4 → List Call}
    (cleared : ∀ i strm, places (before i) strm = places (after i) strm + releases strm (f i))
    (unused : ∀ i, uses (f i) = []) : Ledger before [] after ((List.finRange 4).flatMap f) where
  balance strm := by
    rw [releases_flatMap, List.count_nil, Nat.add_zero, holdings, holdings,
      ← Finset.sum_add_distrib]
    exact Finset.sum_congr rfl fun i _ => cleared i strm
  used strm member := by
    rw [uses_flatMap_nil _ _ unused] at member
    cases member

theorem ledger_reset (slot : Slot) (ctx : ConnectionContext) :
    Ledger ctx.reliable [] ctx.reset.reliable (ctx.resetCalls slot) := by
  have cleared : Ledger ctx.reliable [] ctx.reset.reliable ((List.finRange 4).flatMap fun i =>
      releaseStream (ctx.reliable i).self ++ releaseStream (ctx.reliable i).peer) :=
    ledger_clear (by simp [places, ConnectionContext.reset]) (by simp)
  have marked : StreamFree [.reset slot] := by simp [StreamFree, useOf]
  have ledger := ((Ledger.before_free marked cleared).after_free
    (streamFree_releaseConnection ctx.unreliable.self)).after_free
      (streamFree_releaseConnection ctx.unreliable.peer)
  exact ledger

theorem ledger_clearSide (ctx : ConnectionContext) (isClient : Bool) :
    Ledger ctx.reliable [] (clearSide ctx isClient).reliable (clearSideCalls ctx isClient) := by
  cases isClient with
  | true =>
      have cleared : Ledger ctx.reliable [] (clearSide ctx true).reliable
          ((List.finRange 4).flatMap fun i => releaseStream (ctx.reliable i).self) :=
        ledger_clear (by simp [places, clearSide, Nat.add_comm]) (by simp)
      exact cleared.after_free (streamFree_releaseConnection _)
  | false =>
      have cleared : Ledger ctx.reliable [] (clearSide ctx false).reliable
          ((List.finRange 4).flatMap fun i => releaseStream (ctx.reliable i).peer) :=
        ledger_clear (by simp [places, clearSide]) (by simp)
      exact cleared.after_free (streamFree_releaseConnection _)

end Rules

/-! ## The handlers -/

theorem shutdownComplete_ledger (slot : Slot) (ctx : ConnectionContext) (conn : Hquic)
    (isClient : Bool) (alive : ObjectId → Bool) :
    Ledger ctx.reliable [] (shutdownComplete slot ctx conn isClient alive).1.reliable
      (shutdownComplete slot ctx conn isClient alive).2 := by
  have closing : StreamFree [.connectionClose conn] := by simp [StreamFree, useOf]
  have cleared := ledger_clearSide ctx isClient
  unfold shutdownComplete
  dsimp only
  split
  · let counted : ConnectionContext := { clearSide ctx isClient with
      refCount := (clearSide ctx isClient).refCount - 1 }
    have told : StreamFree [.onDisconnect slot (lockChannelContext alive counted.channelContext)] := by
      simp [StreamFree, useOf]
    have reset := Ledger.before_free told (ledger_reset slot counted)
    exact (cleared.trans reset).after_free closing
  · exact cleared.after_free closing

theorem peerStreamStarted_ledger {slot : Slot} {ctx : ConnectionContext} {strm : Hquic} {id : Nat}
    (inside : (peerStreamStarted slot ctx strm id).exit ≠ .overruns) :
    Ledger ctx.reliable [strm] (peerStreamStarted slot ctx strm id).ctx.reliable
      (peerStreamStarted slot ctx strm id).calls := by
  unfold peerStreamStarted at inside ⊢
  split
  · rename_i inRange
    let index : Fin 4 := ⟨id >>> 2, inRange⟩
    have registered : StreamFree [.streamSetCallbackHandler strm slot] := by
      simp [StreamFree, useOf]
    have replaced : Ledger ctx.reliable [strm] (Function.update ctx.reliable index
        { ctx.reliable index with peer := some strm }) (releaseStream (ctx.reliable index).peer) := by
      refine ⟨?_, ?_⟩
      · intro other
        have updated := holdings_update ctx.reliable index
          { ctx.reliable index with peer := some strm } other
        simp only [places, Option.some.injEq] at updated
        rw [releases_releaseStream, List.count_singleton]
        simp only [beq_iff_eq]
        omega
      · intro other member
        rw [uses_releaseStream] at member
        cases member
    exact replaced.after_free registered
  · rename_i outside
    rw [dif_neg outside] at inside
    exact absurd rfl inside

theorem count_filterMap_finRange (f : Fin 4 → Option Hquic) (strm : Hquic) :
    ((List.finRange 4).filterMap f).count strm = ∑ i, if f i = some strm then 1 else 0 := by
  rw [Fin.sum_univ_def]
  induction List.finRange 4 with
  | nil => rfl
  | cons i rest ih =>
      cases found : f i with
      | none => simp [found, ih]
      | some other => by_cases same : other = strm <;> simp [found, ih, same, Nat.add_comm]

/-- The streams that `StartClient` opens take the place of any that were there. -/
theorem opened_ledger (ctx : ConnectionContext) (conn : Hquic) (streams : Fin 4 → Option Hquic) :
    Ledger ctx.reliable ((List.finRange 4).filterMap streams) (opened ctx conn streams).reliable
      ((List.finRange 4).flatMap fun i =>
        if (streams i).isSome then releaseStream (ctx.reliable i).self else []) where
  balance strm := by
    rw [count_filterMap_finRange, releases_flatMap, holdings, holdings, ← Finset.sum_add_distrib,
      ← Finset.sum_add_distrib]
    refine Finset.sum_congr rfl fun i _ => ?_
    cases found : streams i with
    | none => simp [opened, places, found]
    | some other =>
        simp only [opened, places, found, Option.some_or, Option.some.injEq, Option.isSome_some,
          if_true, releases_releaseStream]
        omega
  used strm member := by
    rw [uses_flatMap_nil] at member
    · cases member
    · intro i
      split
      · exact uses_releaseStream _
      · rfl

/-- The streams that `StartClient` starts are those of its side. -/
theorem starts_ledger (reliable : Fin 4 → StreamChannel) :
    Ledger reliable [] reliable
      ((List.finRange 4).map fun i => .streamStart (reliable i).self) where
  balance strm := by
    have none_ : releases strm
        ((List.finRange 4).map fun i => Call.streamStart (reliable i).self) = 0 := by
      refine List.count_eq_zero.2 fun member => ?_
      obtain ⟨i, -, same⟩ := List.mem_map.1 member
      cases same
    rw [none_, List.count_nil]
  used strm member := by
    obtain ⟨call, started, isStrm⟩ := List.mem_filterMap.1 member
    obtain ⟨i, -, rfl⟩ := List.mem_map.1 started
    exact Nat.add_pos_left (holdings_pos i (.inl isStrm)) _

/-- The streams that `StartClient` opens. -/
def opensStreams (ctx : ConnectionContext) (env : StartEnv) : List Hquic :=
  if ctx.unreliable.self.isNone && env.connection.isSome then (List.finRange 4).filterMap env.streams
  else []

theorem startClient_ledger (slot : Slot) (ctx : ConnectionContext) (remote : Endpoint)
    (env : StartEnv) :
    Ledger ctx.reliable (opensStreams ctx env) (startClient slot ctx remote env).1.reliable
      (startClient slot ctx remote env).2 := by
  have marked : StreamFree [.startClient slot ctx.ports] := by simp [StreamFree, useOf]
  have asks : ∀ answer, StreamFree [.onAccept slot answer] := by simp [StreamFree, useOf]
  have asked : ∀ (conn : Hquic) (answer : Bool), ctx.unreliable.self = none →
      env.connection = some conn →
      Ledger ctx.reliable (opensStreams ctx env) (askedFor ctx conn env).reliable
        (.startClient slot ctx.ports :: replacedCalls ctx env ++ [.onAccept slot answer]) := by
    intro conn answer free opens
    rw [opensStreams, if_pos (by simp [free, opens])]
    exact (Ledger.before_free marked (opened_ledger ctx conn env.streams)).after_free (asks answer)
  have started := startClient_started slot ctx remote env
  generalize startClient slot ctx remote env = r at started ⊢
  cases started with
  | unopened skips =>
      have none_opened : opensStreams ctx env = [] := by
        rw [opensStreams]
        apply if_neg
        rcases skips with taken | failed
        · simp [Option.isNone_eq_false_iff.2 taken]
        · simp [failed]
      rw [none_opened]
      exact .same marked fun _ => ⟨rfl, rfl⟩
  | granted conn free opens granted =>
      have begins : StreamFree [.setLocalAddress conn ctx.ports.localClient,
          .connectionStart conn { remote.addr with port := ctx.ports.remoteServer }
            ctx.ports.remoteServer] := by simp [StreamFree, useOf]
      exact ((asked conn true free opens).after_free begins).trans (starts_ledger _)
  | refused conn free opens refused =>
      exact (asked conn false free opens).trans (ledger_reset slot (askedFor ctx conn env))

theorem receive1st_ledger (ctx : ConnectionContext) (remoteServer remoteClient : UInt16)
    (remote : Endpoint) (localServer : UInt16) (sock : Option UInt16) (now : Nat) :
    Ledger ctx.reliable []
      (receive1st ctx remoteServer remoteClient remote localServer sock now).1.reliable
      (receive1st ctx remoteServer remoteClient remote localServer sock now).2 := by
  have challenged := streamFree_challenge remote remoteClient
  have sends : ∀ (dest : QuicAddr) (a b c d : UInt16), StreamFree [sendPorts dest a b c d] := by
    simp [StreamFree, useOf, sendPorts]
  unfold receive1st
  dsimp only
  split
  · cases sock with
    | none => exact .same challenged fun _ => ⟨rfl, rfl⟩
    | some localClient =>
        exact .same (streamFree_append challenged (sends _ _ _ _ _)) fun _ => ⟨rfl, rfl⟩
  · exact .same (streamFree_append challenged (sends _ _ _ _ _)) fun _ => ⟨rfl, rfl⟩

theorem doCheck_ledger (slot : Slot) (ctx : ConnectionContext) (now : Nat) :
    Ledger ctx.reliable [] (doCheck slot ctx now).1.reliable (doCheck slot ctx now).2 := by
  have still : Ledger ctx.reliable [] ctx.reliable [] := .same streamFree_nil fun _ => ⟨rfl, rfl⟩
  have checked := doCheck_checked slot ctx now
  generalize doCheck slot ctx now = r at checked ⊢
  cases checked with
  | idle => exact still
  | longStop => exact ledger_reset slot ctx
  | shortStop => exact (ledger_reset slot ctx).after_free (by simp [StreamFree, useOf])
  | retry => exact .same (by simp [StreamFree, useOf, sendPorts]) fun _ => ⟨rfl, rfl⟩

theorem datagramReceived_ledger (slot : Slot) (ctx : ConnectionContext) (buf : List UInt8)
    (alive : ObjectId → Bool) :
    Ledger ctx.reliable [] (datagramReceived slot ctx buf alive).ctx.reliable
      (datagramReceived slot ctx buf alive).calls := by
  have took := datagramReceived_took slot ctx buf alive
  generalize (datagramReceived slot ctx buf alive).ctx = after,
    (datagramReceived slot ctx buf alive).calls = calls at took ⊢
  cases took with
  | dropped => exact ledger_reset slot ctx
  | left => exact .same streamFree_nil fun _ => ⟨rfl, rfl⟩
  | taken => exact .same (by simp [StreamFree, useOf]) fun _ => ⟨rfl, rfl⟩

/-- A `Reset` that stops at a channel has released what the channels up to it held. -/
theorem ledger_resetBlocked (ctx : ConnectionContext) (index : Fin 4) :
    Ledger ctx.reliable [] (ctx.resetBlockedAt index).reliable (ctx.resetBlockedCalls index) := by
  have cleared : Ledger ctx.reliable [] (ctx.resetBlockedAt index).reliable
      ((List.finRange 4).flatMap fun i => if i ≤ index then
        releaseStream (ctx.reliable i).self ++ releaseStream (ctx.reliable i).peer else []) := by
    refine ledger_clear ?_ ?_
    · intro i strm
      rcases lt_trichotomy i index with less | rfl | more
      · simp [ConnectionContext.resetBlockedAt, places, less, less.le]
      · simp [ConnectionContext.resetBlockedAt, places]
      · simp [ConnectionContext.resetBlockedAt, more.not_ge, more.not_gt, more.ne']
    · intro i
      split <;> simp
  have calls : ctx.resetBlockedCalls index = (List.finRange 4).flatMap fun i => if i ≤ index then
      releaseStream (ctx.reliable i).self ++ releaseStream (ctx.reliable i).peer else [] := by
    rw [ConnectionContext.resetBlockedCalls]
    induction List.finRange 4 with
    | nil => rfl
    | cons i rest ih => by_cases within : i ≤ index <;> simp [within, ih]
  rw [calls]
  exact cleared

theorem receive_ledger (slot : Slot) (ctx : ConnectionContext) (id : Nat) (ev : ReceiveEvent)
    (alive : ObjectId → Bool) :
    Ledger ctx.reliable [] (handleReceive slot alive id ev ctx).ctx.reliable
      (handleReceive slot alive id ev ctx).calls := by
  have delivered : ∀ (index : Fin 4) (payloads : List (List UInt8)) (channelCtx : ObjectId),
      StreamFree (payloads.map fun data => .onReliableReceive slot index data channelCtx) := by
    intro index payloads channelCtx call member
    obtain ⟨data, -, rfl⟩ := List.mem_map.1 member
    exact ⟨by simp, rfl⟩
  have received := handleReceive_received slot alive id ev ctx
  generalize (handleReceive slot alive id ev ctx).ctx = after,
    (handleReceive slot alive id ev ctx).calls = calls at received ⊢
  cases received with
  | dropped => exact ledger_reset slot ctx
  | left => exact .same streamFree_nil fun _ => ⟨rfl, rfl⟩
  | read index chn payloads channelCtx named self peer =>
      exact .same (delivered index payloads channelCtx) (ConnectionContext.reads_handles self peer)
  | blocked index chn payloads channelCtx named self peer =>
      have reads := Ledger.same (delivered index payloads channelCtx)
        (ConnectionContext.reads_handles self peer)
      exact reads.trans (ledger_resetBlocked _ _)

theorem unreliablePacketSend_ledger (ctx : ConnectionContext) (data : List UInt8) (env : SendEnv) :
    Ledger ctx.reliable [] (unreliablePacketSend ctx data env).2.1.reliable
      (unreliablePacketSend ctx data env).2.2 := by
  unfold unreliablePacketSend
  dsimp only
  split
  · exact .same streamFree_nil fun _ => ⟨rfl, rfl⟩
  · split
    · exact .same streamFree_nil fun _ => ⟨rfl, rfl⟩
    · refine .same (streamFree_append ?_ ?_) fun _ => ⟨rfl, rfl⟩
      · intro call member
        obtain ⟨conn, -, rfl⟩ := List.mem_map.1 member
        exact ⟨by simp, rfl⟩
      · split <;> simp [StreamFree, useOf]

namespace World

variable (w : World)

/-- The streams that an activation gets from MsQuic. -/
def newStreams (slot : Slot) (act : Activation) : List Hquic :=
  match w.opens slot act, act with
  | some env, _ => (List.finRange 4).filterMap env.streams
  | none, .peerStreamStarted _ strm _ => [strm]
  | none, _ => []

/-- **The ledger of every activation.** -/
theorem run_ledger {slot : Slot} {act : Activation}
    (inside : (act.run slot (w.contexts slot)).exit ≠ .overruns) :
    Ledger (w.contexts slot).reliable (w.newStreams slot act)
      (act.run slot (w.contexts slot)).ctx.reliable (act.run slot (w.contexts slot)).calls := by
  let ctx := w.contexts slot
  have opens : ∀ {ports : Ports} {env : StartEnv}, act.starts ctx.ports = some (ports, env) →
      w.newStreams slot act = opensStreams ctx env := by
    intro ports env starts
    have chosen : w.opens slot act =
        if ctx.unreliable.self.isNone && env.connection.isSome then some env else none := by
      rw [World.opens, starts]
      rfl
    unfold newStreams opensStreams
    rw [chosen]
    by_cases isOpen : (ctx.unreliable.self.isNone && env.connection.isSome) = true
    · rw [if_pos isOpen, if_pos isOpen]
    · rw [if_neg isOpen, if_neg isOpen]
      cases act with
      | peerStreamStarted => cases starts
      | _ => rfl
  cases act with
  | connectTo remote localServer localClient now =>
      exact .same (by simp [StreamFree, useOf, sendPorts, Activation.run, returning, connectTo])
        fun _ => ⟨rfl, rfl⟩
  | receive1st remoteServer remoteClient remote localServer sock now =>
      exact receive1st_ledger ctx remoteServer remoteClient remote localServer sock now
  | receive2nd remoteServer remoteClient remote env =>
      rw [opens rfl]
      let saved : ConnectionContext := { ctx with ports := { ctx.ports with remoteServer, remoteClient } }
      have sent : StreamFree (challenge remote remoteClient ++
          [sendPorts remote.addr 0 0 remoteServer remoteClient]) :=
        streamFree_append (streamFree_challenge _ _) (by simp [StreamFree, useOf, sendPorts])
      have ledger := Ledger.before_free sent (startClient_ledger slot saved remote env)
      rw [List.append_assoc] at ledger
      exact ledger
  | receive3rd remote env =>
      rw [opens rfl]
      exact startClient_ledger slot ctx remote env
  | doCheck now => exact doCheck_ledger slot ctx now
  | newConnection conn configured =>
      refine .same ?_ fun _ => ⟨rfl, rfl⟩
      exact streamFree_append (streamFree_releaseConnection _) (by simp [StreamFree, useOf])
  | connected conn =>
      refine .same ?_ fun _ => ⟨rfl, rfl⟩
      show StreamFree (if _ then _ else _)
      split <;> simp [StreamFree, useOf]
  | shutdownComplete conn isClient alive =>
      exact shutdownComplete_ledger slot ctx conn isClient alive
  | peerStreamStarted conn strm id => exact peerStreamStarted_ledger inside
  | datagramStateChanged maxSendLength => exact .same streamFree_nil fun _ => ⟨rfl, rfl⟩
  | datagramReceived buf alive => exact datagramReceived_ledger slot ctx buf alive
  | receive id ev alive => exact receive_ledger slot ctx id ev alive
  | disconnect => exact ledger_reset slot ctx
  | unreliablePacketSend data env => exact unreliablePacketSend_ledger ctx data env

/-! ## New handles -/

variable {w} {L : Listener} {slot : Slot} {act : Activation}

/-- `StartClient` gets the next handles. -/
theorem startEnv_of_route {l : Label} (route : w.route L l = some (some (slot, act)))
    {ports ports' : Ports} {env : StartEnv} (starts : act.starts ports = some (ports', env)) :
    ∃ start, env = w.startEnv start := by
  cases routed_of_route route with
  | @receive2nd _ _ _ _ _ start => exact ⟨start, (Prod.mk.inj (Option.some.inj starts)).2.symm⟩
  | @receive3rd _ _ _ _ _ start => exact ⟨start, (Prod.mk.inj (Option.some.inj starts)).2.symm⟩
  | _ => cases starts

/-- The peer's stream has the next handle. -/
theorem peerStream_of_route {l : Label} {conn strm : Hquic} {id : Nat}
    (route : w.route L l = some (some (slot, .peerStreamStarted conn strm id))) :
    strm = w.strms.length := by
  cases routed_of_route route
  rfl

/-- The handles of a `StartClient` are consecutive. -/
theorem streams_startEnv (w : World) (start : StartOutcome) :
    (List.finRange 4).filterMap (w.startEnv start).streams =
      List.range' w.strms.length
        ((List.finRange 4).filter fun i => ((w.startEnv start).streams i).isSome).length := by
  have four : List.finRange 4 = [0, 1, 2, 3] := by decide
  cases first : start.streams 0 <;> cases second : start.streams 1 <;>
    cases third : start.streams 2 <;> cases fourth : start.streams 3 <;>
    simp [startEnv, four, first, second, third, fourth, List.range']

/-- **The streams of an activation have new handles**, the next ones. -/
theorem newStreams_of_route {l : Label} (route : w.route L l = some (some (slot, act))) :
    ∃ count, w.newStreams slot act = List.range' w.strms.length count ∧
      (w.after slot act).strms.length = w.strms.length + count := by
  show ∃ count, _ ∧ (w.strmsAfter slot act).length = _
  unfold newStreams strmsAfter
  cases opened : w.opens slot act with
  | some env =>
      obtain ⟨ports, conn, starts, -, -⟩ := opens_some opened
      obtain ⟨start, rfl⟩ := startEnv_of_route route starts
      refine ⟨_, streams_startEnv w start, ?_⟩
      simp
  | none =>
      cases act with
      | peerStreamStarted conn strm id =>
          obtain rfl := peerStream_of_route route
          exact ⟨1, rfl, by simp⟩
      | _ => exact ⟨0, rfl, rfl⟩

theorem count_range' (start count strm : Nat) : (List.range' start count).count strm =
    if start ≤ strm ∧ strm < start + count then 1 else 0 := by
  rw [(List.nodup_range').count]
  simp [List.mem_range'_1]

/-! ## The whole session -/

/-- The number of places that hold a stream. -/
def refs (w : World) (strm : Hquic) : Nat := ∑ slot, holdings (w.contexts slot).reliable strm

theorem holdings_le_refs (slot : Slot) (strm : Hquic) :
    holdings (w.contexts slot).reliable strm ≤ w.refs strm :=
  Finset.single_le_sum (f := fun slot => holdings (w.contexts slot).reliable strm)
    (fun _ _ => Nat.zero_le _) (Finset.mem_univ slot)

/-- The ledger of a step of the session. -/
theorem refs_after (inside : (act.run slot (w.contexts slot)).exit ≠ .overruns) (strm : Hquic) :
    w.refs strm + (w.newStreams slot act).count strm =
      (w.after slot act).refs strm + releases strm (act.run slot (w.contexts slot)).calls := by
  have balance := (w.run_ledger inside).balance strm
  have rest : ∑ i ∈ Finset.univ.erase slot, holdings ((w.after slot act).contexts i).reliable strm =
      ∑ i ∈ Finset.univ.erase slot, holdings (w.contexts i).reliable strm := by
    refine Finset.sum_congr rfl fun i member => ?_
    rw [after_contexts_ne _ (Finset.ne_of_mem_erase member)]
  rw [refs, refs, ← Finset.add_sum_erase _ _ (Finset.mem_univ slot),
    ← Finset.add_sum_erase _ _ (Finset.mem_univ slot), rest, after_contexts_self]
  omega

end World

end Koisyn.Session
