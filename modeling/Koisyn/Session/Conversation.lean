/-
# Koisyn.Session.Conversation — two sessions that talk

The whole of two sessions that have each other: the contexts, the handlers and the calls of both (`World`),
the bytes that `StreamSend` has accepted on each stream, and how much of each stream the other node has been
told of.  A label is a send of one of the applications or any label of one of the worlds.  MsQuic raises the
`RECEIVE` events of the session's streams with the bytes that were accepted on them, in order, cut as it
likes; which of the other node's streams each of them is, and of which channel, the `Line` between the
sessions says.

`sessions_converse`: as long as no connection of the two contexts comes or goes, no application leaves and
the two `StreamSend`s of a send agree, both sessions last, whatever else reaches the nodes; and on every
channel, in both directions, the application is handed what the other has sent, each message once and in
order, as far as either stream has brought it.  So the gap that ends a session (`established_endures`) is
never met, and no handler leaves its memory.
-/
import Koisyn.Session.Endurance
import Koisyn.Session.Calls
import Koisyn.Channel.Delivery

namespace Koisyn.Session

open Koisyn.Channel
open Koisyn.Theory
open Koisyn.Theory.Run

set_option autoImplicit false

/-! ## The machine -/

/-- What disturbs a conversation in this context: a connection or a stream that comes or goes, and an
application that leaves. -/
def Activation.Disturbs (ctx : ConnectionContext) (act : Activation) : Prop :=
  act.ComesOrGoes ∨ act.StartsStream ∨ act.Drops ctx.channelContext

instance decidableStartsStream : ∀ act : Activation, Decidable act.StartsStream
  | .peerStreamStarted _ _ _ => isTrue trivial
  | .connectTo _ _ _ _ | .receive1st _ _ _ _ _ _ | .receive2nd _ _ _ _ | .receive3rd _ _ | .doCheck _
  | .newConnection _ _ | .connected _ | .shutdownComplete _ _ _ | .datagramStateChanged _
  | .datagramReceived _ _ | .receive _ _ _ | .disconnect | .unreliablePacketSend _ _ => isFalse id

instance (ctx : ConnectionContext) (act : Activation) : Decidable (act.Disturbs ctx) :=
  inferInstanceAs (Decidable (_ ∨ _ ∨ _))

/-- Two sessions that have each other in these contexts, on these ports.  `far` says which channel a stream
of a node is of, and which stream of the other node's it is; it knows the session's streams only. -/
structure Line where
  net : Network
  slot : Side → Slot
  ports : Side → Ports
  far : Side → Hquic → Option (Fin 4 × Hquic)

structure Conversation where
  world : Side → World
  /-- The bytes that `StreamSend` accepted on each stream. -/
  accepted : Side → Hquic → List UInt8 := fun _ _ => []
  received : Side → Hquic → Nat := fun _ _ => 0
  /-- The payloads of the calls that returned true on each channel. -/
  sent : Side → Fin 4 → List (List UInt8) := fun _ _ => []

inductive ConversationLabel where
  | world (side : Side) (l : Label)
  | send (side : Side) (channel : Fin 4) (data : List UInt8) (env : SendEnv)

/-- The streams of a channel. -/
def handlesOf (chn : StreamChannel) : List Hquic := chn.peer.toList ++ chn.self.toList

/-- No stream is in two places. -/
def InOnePlace (ctx : ConnectionContext) : Prop := ∀ k, (handlesOf (ctx.reliable k)).Nodup ∧
  ∀ j, ∀ strm ∈ handlesOf (ctx.reliable k), strm ∈ handlesOf (ctx.reliable j) → k = j

instance (ctx : ConnectionContext) : Decidable (InOnePlace ctx) :=
  inferInstanceAs (Decidable (∀ _, _ ∧ ∀ _, ∀ _ ∈ _, _))

/-- What a node has been told of its streams after a label. -/
def receivedAfter (received : Hquic → Nat) : Label → Hquic → Nat
  | .receive strm ev _ => Function.update received strm (ev.absoluteOffset + ev.totalBufferLength)
  | _ => received

namespace Line

variable (line : Line)

/-- The context of a node for the other. -/
def ctx (side : Side) (w : World) : ConnectionContext := w.contexts (line.slot side)

/-- What a `RECEIVE` of one of the session's streams brings is what the other node's `StreamSend` accepted
on it next. -/
def Brings (c : Conversation) (side : Side) : Label → Prop
  | .receive strm ev _ => ∀ far ∈ line.far side strm, ev.absoluteOffset = c.received side strm ∧
      ev.buffers.flatten <+: (c.accepted side.other far.2).drop (c.received side strm)
  | _ => True

instance (c : Conversation) (side : Side) : ∀ l : Label, Decidable (line.Brings c side l)
  | .receive _ _ _ => inferInstanceAs (Decidable (∀ far ∈ _, _ ∧ _))
  | .connectTo _ _ _ _ | .packet _ _ _ _ _ _ | .doCheck _ _ | .newConnection _ _ | .connected _
  | .shutdownComplete _ _ | .peerStreamStarted _ _ | .datagramStateChanged _ _
  | .datagramReceived _ _ _ | .disconnect _ | .unreliablePacketSend _ _ _ => isTrue trivial

/-- One step. -/
def step (c : Conversation) : ConversationLabel → Option Conversation
  | .world side l =>
      if line.Brings c side l then
        ((c.world side).step (line.net.listener side) l).map fun t =>
          { c with
            world := Function.update c.world side t
            received := Function.update c.received side (receivedAfter (c.received side) l) }
      else none
  | .send side channel data env =>
      let r := reliablePacketSend (some (line.ctx side (c.world side))) channel data env
      some { c with
        accepted := Function.update c.accepted side fun strm =>
          c.accepted side strm ++ acceptedOn strm r.2
        sent := Function.update c.sent side
          (if r.1 then Function.update (c.sent side) channel (c.sent side channel ++ [data])
          else c.sent side) }

/-- A stream of which the context hears is one of the session's. -/
def Knows (side : Side) (w : World) : Label → Prop
  | .receive strm _ _ => ∀ s ∈ w.strms[strm]?, ∀ c ∈ w.conns[s.conn]?, c.slot = line.slot side →
      (line.far side strm).isSome = true
  | _ => True

instance (side : Side) (w : World) : ∀ l : Label, Decidable (line.Knows side w l)
  | .receive _ _ _ => inferInstanceAs (Decidable (∀ _ ∈ _, ∀ _ ∈ _, _ → _))
  | .connectTo _ _ _ _ | .packet _ _ _ _ _ _ | .doCheck _ _ | .newConnection _ _ | .connected _
  | .shutdownComplete _ _ | .peerStreamStarted _ _ | .datagramStateChanged _ _
  | .datagramReceived _ _ _ | .disconnect _ | .unreliablePacketSend _ _ _ => isTrue trivial

/-- Nothing disturbs the conversation: see `Activation.Disturbs`; and both streams accept a send, or
neither. -/
def Undisturbed (c : Conversation) : ConversationLabel → Prop
  | .world side l =>
      World.OnActivation (line.net.listener side)
        (fun w slot act => slot = line.slot side → ¬ act.Disturbs (w.contexts slot)) (c.world side) l ∧
      line.Knows side (c.world side) l
  | .send _ _ _ env => env.peerSucceeded = env.selfSucceeded

instance (c : Conversation) : ∀ label : ConversationLabel, Decidable (line.Undisturbed c label)
  | .world _ _ => inferInstanceAs (Decidable (_ ∧ _))
  | .send _ _ _ _ => inferInstanceAs (Decidable (_ = _))

/-! ## What holds at the beginning -/

/-- What the session's streams of a node are: streams of one of the session's two connections, whose ids name
the channel, with the other node's stream in that channel of its context. -/
def Reaches (world : Side → World) (side : Side) (strm : Hquic) (far : Fin 4 × Hquic) : Prop :=
  (∃ s, (world side).strms[strm]? = some s ∧ (s.id >>> 2) % 2 ^ 32 = far.1 ∧
    ((line.ctx side (world side)).unreliable.self = some s.conn ∨
      (line.ctx side (world side)).unreliable.peer = some s.conn)) ∧
  far.2 ∈ handlesOf ((line.ctx side.other (world side.other)).reliable far.1)

instance (world : Side → World) (side : Side) (strm : Hquic) (far : Fin 4 × Hquic) :
    Decidable (line.Reaches world side strm far) :=
  inferInstanceAs (Decidable ((∃ s ∈ (world side).strms[strm]?, _ ∧ _) ∧ _))

/-- Both nodes have the session, and nothing has been sent in it. -/
structure Joins (world : Side → World) : Prop where
  established : ∀ i, (world i).Established (line.net.endpoint i.other) (line.slot i) (line.ports i)
  unread : ∀ i k, ((line.ctx i (world i)).reliable k).buffer = [] ∧
    ((line.ctx i (world i)).reliable k).nextRecvByte = 0
  distinct : ∀ i, InOnePlace (line.ctx i (world i))
  far : ∀ i strm, ∀ far ∈ line.far i strm, line.Reaches world i strm far

/-- What a node has heard on a channel since `start`, as far as the other has `sent`: each message once and
in order, and those that a stream has brought whole, unless a handler of the channel is stuck. -/
def Heard (i : Side) (start : World) (sent : List (List UInt8)) (w : World) (received : Hquic → Nat)
    (k : Fin 4) : Prop :=
  ∃ heard, deliveredTo (line.slot i) k (w.calls (line.slot i)) =
      deliveredTo (line.slot i) k (start.calls (line.slot i)) ++ heard ∧
    heard <+: sent ∧
    ∀ strm p, line.far i strm = some (k, p) → w.held (line.slot i) k = false →
      ∀ n ≤ sent.length, (framing.frames (sent.take n)).length ≤ received strm → n ≤ heard.length

/-- What one of the session's streams brings next can be handled, unless a handler of its channel is stuck or
the application has left: the handler does not leave its memory. -/
def Handles (c : Conversation) (i : Side) : Prop :=
  ∀ strm k p ev alive, line.far i strm = some (k, p) → line.Brings c i (.receive strm ev alive) →
    lockChannelContext alive (line.ctx i (c.world i)).channelContext ≠ none →
    (c.world i).held (line.slot i) k = false →
      (line.step c (.world i (.receive strm ev alive))).isSome = true

/-! ## The listener -/

/-- What a node keeps while it listens. -/
structure Hearing (i : Side) (start : World) (sent : Fin 4 → List (List UInt8)) (w : World)
    (received : Hquic → Nat) : Prop where
  established : w.Established (line.net.endpoint i.other) (line.slot i) (line.ports i)
  handles : SameHandles (line.ctx i start) (line.ctx i w)
  streams : start.strms <+: w.strms
  heard : ∀ k, ∃ heard, deliveredTo (line.slot i) k (w.calls (line.slot i)) =
      deliveredTo (line.slot i) k (start.calls (line.slot i)) ++ heard ∧
    Accounts (framing.frames (sent k)) ((line.ctx i w).reliable k) heard
  upTo : ∀ k, w.held (line.slot i) k = false → ((line.ctx i w).reliable k).buffer.length < 4 ∧
    ∀ strm p, line.far i strm = some (k, p) → received strm ≤ ((line.ctx i w).reliable k).nextRecvByte

variable {line} {i : Side} {start w : World} {sent : Fin 4 → List (List UInt8)}
variable {received : Hquic → Nat} {slot : Slot} {act : Activation}

theorem hearing_start {world : Side → World} (joins : line.Joins world) (i : Side) :
    line.Hearing i (world i) (fun _ => []) (world i) fun _ => 0 where
  established := joins.established i
  handles := sameHandles_refl _
  streams := List.prefix_rfl
  heard k := by
    obtain ⟨empty, unread⟩ := joins.unread i k
    refine ⟨[], (List.append_nil _).symm, fun _ member => absurd member List.not_mem_nil, ?_, ?_⟩
    · rw [empty, unread]
      rfl
    · rw [unread]
      exact Nat.zero_le _
  upTo k _ := by
    obtain ⟨empty, unread⟩ := joins.unread i k
    refine ⟨?_, fun _ _ _ => Nat.zero_le _⟩
    rw [empty]
    exact Nat.zero_lt_succ _

/-- What the node has kept is what it has heard. -/
theorem Hearing.hears (hearing : line.Hearing i start sent w received)
    (small : ∀ k, ∀ payload ∈ sent k, payload.length ≤ 65512) (k : Fin 4) :
    line.Heard i start (sent k) w received k := by
  obtain ⟨heard, told, accounts⟩ := hearing.heard k
  have valid : ∀ payload ∈ sent k, framing.Valid payload := by
    intro payload member
    have := small k payload member
    show payload.length < 2 ^ 32
    omega
  refine ⟨heard, told, framing.prefix_of_frames accounts.valid valid accounts.front, ?_⟩
  intro strm p known unheld n bound brought
  obtain ⟨short, reaches⟩ := hearing.upTo k unheld
  obtain ⟨-, whole⟩ :=
    framing.delivered_iff valid accounts.valid accounts.seen (ReceivingEnd.incomplete_of_short short)
  exact (whole n bound).2 (brought.trans (reaches strm p known))

/-- The other node says more. -/
theorem Hearing.extend (hearing : line.Hearing i start sent w received)
    {more : Fin 4 → List (List UInt8)} (longer : ∀ k, sent k <+: more k) :
    line.Hearing i start more w received where
  established := hearing.established
  handles := hearing.handles
  streams := hearing.streams
  heard k := by
    obtain ⟨heard, told, accounts⟩ := hearing.heard k
    obtain ⟨rest, whole⟩ := longer k
    refine ⟨heard, told, ?_⟩
    rw [← whole, framing.frames_append]
    exact accounts.extend (List.prefix_append _ _)
  upTo := hearing.upTo

/-- MsQuic's streams stay. -/
theorem strms_grow (w : World) (slot : Slot) (act : Activation) : w.strms <+: (w.after slot act).strms := by
  show w.strms <+: w.strmsAfter slot act
  unfold World.strmsAfter
  split
  · exact List.prefix_append _ _
  · exact List.prefix_append _ _
  · exact List.prefix_rfl

/-- A label for another context. -/
theorem Hearing.after_ne {L : Listener} (hearing : line.Hearing i start sent w received)
    (legal : w.Legal L slot act) (other : slot ≠ line.slot i) {received' : Hquic → Nat}
    (unheard : ∀ strm, (line.far i strm).isSome = true → received' strm = received strm) :
    line.Hearing i start sent (w.after slot act) received' := by
  have context : line.ctx i (w.after slot act) = line.ctx i w := World.after_contexts_ne _ other.symm _
  have calls : (w.after slot act).calls (line.slot i) = w.calls (line.slot i) :=
    Function.update_of_ne other.symm _ _
  have held : (w.after slot act).held (line.slot i) = w.held (line.slot i) :=
    Function.update_of_ne other.symm _ _
  refine ⟨hearing.established.after_ne legal other, ?_, hearing.streams.trans (strms_grow _ _ _), ?_, ?_⟩
  · rw [context]
    exact hearing.handles
  · rw [context, calls]
    exact hearing.heard
  · intro k unheld
    rw [held] at unheld
    rw [context]
    obtain ⟨short, reaches⟩ := hearing.upTo k unheld
    refine ⟨short, fun strm p known => ?_⟩
    rw [unheard strm (by rw [known]; rfl)]
    exact reaches strm p known

/-! ## What a node does in its session -/

/-- Only a `RECEIVE` reads from a channel, and what else is done to a session's context leaves them. -/
theorem reliable_run (s : Slot) {ctx : ConnectionContext} (bystander : act.IsBystander)
    (idle : ctx.handshakeBegin = none) (undisturbed : ¬ act.Disturbs ctx)
    (noReceive : ∀ id ev alive, act ≠ .receive id ev alive) :
    (act.run s ctx).ctx.reliable = ctx.reliable ∧
      ∀ k, deliveredTo s k (act.run s ctx).calls = [] := by
  have keeps : ¬ act.Drops ctx.channelContext := fun drops => undisturbed (.inr (.inr drops))
  refine ⟨?_, ?_⟩
  · cases act with
    | connectTo | receive1st | receive2nd | receive3rd | connected | shutdownComplete | disconnect =>
        exact bystander.elim
    | newConnection => exact absurd (.inl trivial) undisturbed
    | peerStreamStarted => exact absurd (.inr (.inl trivial)) undisturbed
    | receive id ev alive => exact absurd rfl (noReceive id ev alive)
    | doCheck now =>
        show (doCheck s ctx now).1.reliable = _
        simp [doCheck, idle]
    | datagramStateChanged => rfl
    | datagramReceived buf alive =>
        have took := datagramReceived_took s ctx buf alive
        show (datagramReceived s ctx buf alive).ctx.reliable = _
        generalize (datagramReceived s ctx buf alive).ctx = after,
          (datagramReceived s ctx buf alive).calls = calls at took ⊢
        cases took with
        | dropped expired => exact absurd expired keeps
        | left => rfl
        | taken => rfl
    | unreliablePacketSend data env =>
        show (unreliablePacketSend ctx data env).2.1.reliable = _
        unfold unreliablePacketSend
        dsimp only
        split
        · rfl
        · split <;> rfl
  · intro k
    refine List.filterMap_eq_nil_iff.2 fun call member => ?_
    have makes := run_makes s ctx act call member
    cases call with
    | onReliableReceive =>
        obtain ⟨id, ev, alive, same⟩ := makes
        exact absurd same (noReceive id ev alive)
    | _ => rfl

/-- A label that is no `RECEIVE`, for the session's context. -/
theorem Hearing.after_quiet {L : Listener} (hearing : line.Hearing i start sent w received)
    (legal : w.Legal L (line.slot i) act) (undisturbed : ¬ act.Disturbs (line.ctx i w))
    (noReceive : ∀ id ev alive, act ≠ .receive id ev alive) :
    line.Hearing i start sent (w.after (line.slot i) act) received := by
  have spared : ¬ act.Ends (line.ctx i w) := by
    rintro (event | drops | gap)
    · exact undisturbed (.inl event)
    · exact undisturbed (.inr (.inr drops))
    · cases act with
      | receive id ev alive => exact noReceive id ev alive rfl
      | _ => exact gap
  obtain ⟨bystander, -⟩ := hearing.established.bystander legal spared
  have idle : (line.ctx i w).handshakeBegin = none := hearing.established.connected.1
  have same := sameHandles_run (line.slot i) bystander idle spared fun strm =>
    undisturbed (.inr (.inl strm))
  obtain ⟨reliable, nothing⟩ := reliable_run (line.slot i) bystander idle undisturbed noReceive
  have context : line.ctx i (w.after (line.slot i) act) =
      (act.run (line.slot i) (line.ctx i w)).ctx := World.after_contexts_self _ _ _
  have calls : (w.after (line.slot i) act).calls (line.slot i) =
      w.calls (line.slot i) ++ (act.run (line.slot i) (line.ctx i w)).calls := Function.update_self _ _ _
  have channels : (line.ctx i (w.after (line.slot i) act)).reliable = (line.ctx i w).reliable := by
    rw [context]
    exact reliable
  refine ⟨hearing.established.after_spared legal spared, ?_, hearing.streams.trans (strms_grow _ _ _),
    ?_, ?_⟩
  · rw [context]
    exact hearing.handles.trans same
  · intro k
    obtain ⟨heard, told, accounts⟩ := hearing.heard k
    refine ⟨heard, ?_, ?_⟩
    · rw [calls, deliveredTo_append, nothing, List.append_nil]
      exact told
    · rw [channels]
      exact accounts
  · intro k unheld
    rw [channels]
    refine hearing.upTo k (Bool.eq_false_of_not_eq_true fun isHeld => ?_)
    have still : (w.after (line.slot i) act).held (line.slot i) k = true := by
      show Function.update w.held (line.slot i) _ (line.slot i) k = true
      rw [Function.update_self, isHeld]
      rfl
    rw [still] at unheld
    cases unheld

/-- **A `RECEIVE` of one of the session's streams.** -/
theorem Hearing.after_receive {L : Listener} (hearing : line.Hearing i start sent w received)
    {id : Nat} {ev : ReceiveEvent} {alive : ObjectId → Bool}
    (legal : w.Legal L (line.slot i) (.receive id ev alive))
    (works : ¬ w.Fails (line.slot i) (.receive id ev alive))
    (live : ¬ (Activation.receive id ev alive).Drops (line.ctx i w).channelContext)
    {strm p : Hquic} {k : Fin 4} (known : line.far i strm = some (k, p)) (named : (id >>> 2) % 2 ^ 32 = k)
    (position : ev.absoluteOffset = received strm)
    (isPiece : ev.buffers.flatten <+: (framing.frames (sent k)).drop (received strm)) :
    line.Hearing i start sent (w.after (line.slot i) (.receive id ev alive))
      (Function.update received strm (ev.absoluteOffset + ev.totalBufferLength)) := by
  let act : Activation := .receive id ev alive
  let r := handleReceive (line.slot i) alive id ev (line.ctx i w)
  have inRange : (id >>> 2) % 2 ^ 32 < 4 := named ▸ k.isLt
  have channel : World.channelOf act = some k := by
    show (if inRange : (id >>> 2) % 2 ^ 32 < 4 then some (⟨_, inRange⟩ : Fin 4) else none) = _
    rw [dif_pos inRange]
    exact congrArg some (Fin.ext named)
  have unheld : w.held (line.slot i) k = false := by
    refine Bool.eq_false_of_not_eq_true fun isHeld => works (.inr (.inr ⟨k, ?_, isHeld⟩))
    rw [channel]
    rfl
  obtain ⟨channelCtx, locked⟩ := Option.ne_none_iff_exists'.1 live
  obtain ⟨heard, told, accounts⟩ := hearing.heard k
  obtain ⟨short, reaches⟩ := hearing.upTo k unheld
  have starts : ev.absoluteOffset ≤ ((line.ctx i w).reliable k).nextRecvByte := by
    rw [position]
    exact reaches strm p known
  rw [← position] at isPiece
  obtain ⟨noCorrupt, account, others, -, returns, -⟩ :=
    handleReceive_spec (line.slot i) locked named accounts starts isPiece
  have noGap : ¬ act.MeetsGap (line.ctx i w) := by
    rintro ⟨index, named', -, gap, -⟩
    obtain rfl : index = k := Fin.ext (named'.symm.trans named)
    omega
  have spared : ¬ act.Ends (line.ctx i w) := by
    rintro (event | drops | gap)
    · exact event
    · exact live drops
    · exact noGap gap
  have context : line.ctx i (w.after (line.slot i) act) = r.ctx := World.after_contexts_self _ _ _
  have calls : (w.after (line.slot i) act).calls (line.slot i) = w.calls (line.slot i) ++ r.calls :=
    Function.update_self _ _ _
  have stuck : ∀ j, (w.after (line.slot i) act).held (line.slot i) j =
      (w.held (line.slot i) j || (decide (World.channelOf act = some j) &&
        decide (r.exit ∈ [Exit.spins, Exit.corrupt]))) := by
    intro j
    show Function.update w.held (line.slot i) _ (line.slot i) j = _
    rw [Function.update_self]
    rfl
  refine ⟨hearing.established.after_spared legal spared, ?_, hearing.streams.trans (strms_grow _ _ _),
    ?_, ?_⟩
  · rw [context]
    exact hearing.handles.trans (handleReceive_sameHandles (line.slot i) live noGap)
  · intro j
    rw [context, calls, deliveredTo_append]
    by_cases here : j = k
    · subst here
      refine ⟨heard ++ deliveredTo (line.slot i) j r.calls, ?_, account⟩
      rw [told, List.append_assoc]
    · obtain ⟨heardToo, toldToo, accountsToo⟩ := hearing.heard j
      refine ⟨heardToo, ?_, ?_⟩
      · rw [(others j here).2, List.append_nil]
        exact toldToo
      · rw [(others j here).1]
        exact accountsToo
  · intro j goesOn
    rw [stuck, Bool.or_eq_false_iff] at goesOn
    obtain ⟨free, ended⟩ := goesOn
    rw [context]
    by_cases here : j = k
    · subst here
      have returned : ∃ status, r.exit = .returned status := by
        cases exit : r.exit with
        | returned status => exact ⟨status, rfl⟩
        | spins => simp [channel, exit] at ended
        | corrupt => exact absurd exit noCorrupt
        | overruns => exact absurd (.inl exit) works
      obtain ⟨status, exit⟩ := returned
      obtain ⟨-, reached, stillShort⟩ := returns status exit
      refine ⟨stillShort short, fun other q knownToo => ?_⟩
      rw [reached]
      by_cases isStrm : other = strm
      · rw [isStrm, Function.update_self, ev.total]
        exact Nat.le_max_right _ _
      · rw [Function.update_of_ne isStrm]
        exact (reaches other q knownToo).trans (Nat.le_max_left _ _)
    · obtain ⟨shortToo, reachesToo⟩ := hearing.upTo j free
      rw [(others j here).1]
      refine ⟨shortToo, fun other q knownToo => ?_⟩
      have otherStrm : other ≠ strm := by
        rintro rfl
        rw [known] at knownToo
        exact here (congrArg Prod.fst (Option.some.inj knownToo)).symm
      rw [Function.update_of_ne otherStrm]
      exact reachesToo other q knownToo

/-! ## The speaker -/

/-- What a node keeps while it speaks: each of its streams has accepted the frames of its channel. -/
structure Speaking (ctx : ConnectionContext) (accepted : Hquic → List UInt8)
    (sent : Fin 4 → List (List UInt8)) : Prop where
  carried : ∀ k, ∀ strm ∈ handlesOf (ctx.reliable k), accepted strm = framing.frames (sent k)
  small : ∀ k, ∀ payload ∈ sent k, payload.length ≤ 65512

/-- **A send on two streams that agree** puts its frame on both and succeeds, or does neither. -/
theorem send_agrees (ctx : ConnectionContext) (k : Fin 4) (data : List UInt8) {env : SendEnv}
    (agree : env.peerSucceeded = env.selfSucceeded) (distinct : (handlesOf (ctx.reliable k)).Nodup)
    (present : (ctx.reliable k).self.isSome = true) (strm : Hquic) :
    let r := reliablePacketSend (some ctx) k data env
    (r.1 = true → data.length ≤ 65512) ∧
      acceptedOn strm r.2 =
        if r.1 = true ∧ strm ∈ handlesOf (ctx.reliable k) then frame data else [] := by
  intro r
  let succeeded := env.selfSucceeded
  have all : targets (ctx.reliable k).peer (ctx.reliable k).self env =
      (handlesOf (ctx.reliable k)).map fun h => (h, succeeded) := by
    rw [targets, handlesOf, List.map_append, agree]
  obtain ⟨self, isSelf⟩ := Option.isSome_iff_exists.1 present
  have target : self ∈ handlesOf (ctx.reliable k) :=
    List.mem_append_right _ (Option.mem_toList.2 isSelf)
  obtain ⟨succeeds, accepts⟩ := reliablePacketSend_streamSend ctx k data env strm
  have nodup : ((targets (ctx.reliable k).peer (ctx.reliable k).self env).map (·.1)).Nodup := by
    rw [all, List.map_map]
    exact (List.map_id _).symm ▸ distinct
  rw [flatMap_accepted nodup, all] at accepts
  rw [all] at succeeds
  have sent_iff : r.1 = true ↔
      (data.length ≤ 65512 ∧ env.allocated = true) ∧ succeeded = true := by
    rw [succeeds, ← and_assoc]
    refine and_congr_right fun _ => ⟨?_, fun ok => ⟨_, List.mem_map_of_mem target, ok⟩⟩
    rintro ⟨t, member, ok⟩
    obtain ⟨h, -, rfl⟩ := List.mem_map.1 member
    exact ok
  refine ⟨fun sent => (sent_iff.1 sent).1.1, accepts.trans ?_⟩
  have member_iff : ((strm, true) ∈ (handlesOf (ctx.reliable k)).map fun h => (h, succeeded)) ↔
      succeeded = true ∧ strm ∈ handlesOf (ctx.reliable k) := by
    constructor
    · intro member
      obtain ⟨h, isHandle, same⟩ := List.mem_map.1 member
      obtain ⟨rfl, ok⟩ := Prod.mk.inj same
      exact ⟨ok, isHandle⟩
    · rintro ⟨ok, isHandle⟩
      exact List.mem_map.2 ⟨strm, isHandle, by rw [ok]⟩
  by_cases guards : data.length ≤ 65512 ∧ env.allocated = true
  · rw [if_pos guards]
    simp only [member_iff, sent_iff, guards, and_self, true_and]
  · rw [if_neg guards, if_neg]
    exact fun both => guards (sent_iff.1 both.1).1

theorem speaking_start (ctx : ConnectionContext) : Speaking ctx (fun _ => []) fun _ => [] where
  carried _ _ _ := rfl
  small _ _ member := absurd member List.not_mem_nil

/-- **A send of an undisturbed conversation.** -/
theorem Speaking.send {ctx now : ConnectionContext} {accepted : Hquic → List UInt8}
    (speaking : Speaking ctx accepted sent) (handles : SameHandles ctx now) (distinct : InOnePlace ctx)
    (streams : ∀ k, (now.reliable k).self.isSome = true) (k : Fin 4) (data : List UInt8) {env : SendEnv}
    (agree : env.peerSucceeded = env.selfSucceeded) :
    let r := reliablePacketSend (some now) k data env
    Speaking ctx (fun strm => accepted strm ++ acceptedOn strm r.2)
      (if r.1 then Function.update sent k (sent k ++ [data]) else sent) := by
  intro r
  have same : ∀ j, handlesOf (now.reliable j) = handlesOf (ctx.reliable j) := by
    intro j
    rw [handlesOf, handlesOf, (handles.streams j).1, (handles.streams j).2]
  have sends : ∀ strm, (r.1 = true → data.length ≤ 65512) ∧ acceptedOn strm r.2 =
      if r.1 = true ∧ strm ∈ handlesOf (ctx.reliable k) then frame data else [] := by
    intro strm
    rw [← same]
    exact send_agrees now k data agree (by rw [same]; exact (distinct k).1) (streams k) strm
  by_cases succeeds : r.1 = true
  · rw [if_pos succeeds]
    refine ⟨?_, ?_⟩
    · intro j strm member
      rw [(sends strm).2, speaking.carried j strm member]
      by_cases here : j = k
      · subst here
        rw [if_pos ⟨succeeds, member⟩, Function.update_self, framing.frames_append]
        simp [Framing.frames, framing]
      · rw [if_neg fun both => here ((distinct j).2 k strm member both.2), Function.update_of_ne here,
          List.append_nil]
    · intro j payload member
      by_cases here : j = k
      · subst here
        rw [Function.update_self] at member
        rcases List.mem_append.1 member with old | new
        · exact speaking.small j payload old
        · rw [List.mem_singleton.1 new]
          exact (sends 0).1 succeeds
      · rw [Function.update_of_ne here] at member
        exact speaking.small j payload member
  · rw [if_neg succeeds]
    refine ⟨?_, speaking.small⟩
    intro j strm member
    rw [(sends strm).2, if_neg fun both => succeeds both.1, List.append_nil]
    exact speaking.carried j strm member

/-! ## Both nodes -/

/-- The invariant: each node hears what the other says. -/
structure Sound (line : Line) (world : Side → World) (c : Conversation) : Prop where
  hearing : ∀ i, line.Hearing i (world i) (c.sent i.other) (c.world i) (c.received i)
  speaking : ∀ i, Speaking (line.ctx i (world i)) (c.accepted i) (c.sent i)

variable {world : Side → World} {c t : Conversation}

theorem sound_start (joins : line.Joins world) : line.Sound world { world } where
  hearing := hearing_start joins
  speaking _ := speaking_start _

theorem sound_send (joins : line.Joins world) (sound : line.Sound world c) {k : Fin 4}
    {data : List UInt8} {env : SendEnv} (agree : env.peerSucceeded = env.selfSucceeded)
    (taken : line.step c (.send i k data env) = some t) : line.Sound world t := by
  have speaks := (sound.speaking i).send (sound.hearing i).handles (joins.distinct i)
    (fun j => ((sound.hearing i).established.streams j).1) k data agree
  have longer : ∀ side j, c.sent side j <+: t.sent side j := by
    intro side j
    obtain rfl := Option.some.inj taken
    by_cases here : side = i
    · subst here
      show _ <+: Function.update c.sent side _ side j
      rw [Function.update_self]
      split
      · by_cases channel : j = k
        · rw [channel, Function.update_self]
          exact List.prefix_append _ _
        · rw [Function.update_of_ne channel]
      · exact List.prefix_rfl
    · show _ <+: Function.update c.sent i _ side j
      rw [Function.update_of_ne here]
  refine ⟨fun side => ?_, fun side => ?_⟩
  · have hears := (sound.hearing side).extend (longer side.other)
    obtain rfl := Option.some.inj taken
    exact hears
  · obtain rfl := Option.some.inj taken
    by_cases here : side = i
    · subst here
      simpa using speaks
    · simpa [here] using sound.speaking side

/-- A node is told of its streams by `RECEIVE` only, which causes an activation of that name. -/
theorem told_of_route {L : Listener} {l : Label} {target : Option (Slot × Activation)}
    (route : w.route L l = some target) :
    (∃ strm ev alive, l = .receive strm ev alive ∧ ∃ s c, w.strms[strm]? = some s ∧
        w.conns[s.conn]? = some c ∧ target = some (c.slot, .receive s.id ev alive)) ∨
      (∀ received, receivedAfter received l = received) ∧
        ∀ slot act, target = some (slot, act) → ∀ id ev alive, act ≠ .receive id ev alive := by
  cases target with
  | none =>
      refine .inr ⟨fun received => ?_, fun _ _ none_ => by cases none_⟩
      cases l with
      | receive strm ev alive => simp [World.route, Option.bind_eq_some_iff] at route
      | _ => rfl
  | some target =>
      obtain ⟨slot, act⟩ := target
      cases World.routed_of_route route with
      | @receive strm ev alive s c found started =>
          exact .inl ⟨strm, ev, alive, rfl, s, c, found, (World.startedConn_some.1 started).1, rfl⟩
      | _ =>
          refine .inr ⟨fun _ => rfl, ?_⟩
          rintro slot act same id ev alive rfl
          cases same

/-- One of the session's streams is of a connection of the session's context. -/
theorem Hearing.inside (hearing : line.Hearing i (world i) sent w received) {strm : Hquic}
    {far : Fin 4 × Hquic} (reaches : line.Reaches world i strm far) :
    ∃ s c, w.strms[strm]? = some s ∧ w.conns[s.conn]? = some c ∧ c.slot = line.slot i ∧
      c.closed = false ∧ c.started = true ∧ (s.id >>> 2) % 2 ^ 32 = far.1 := by
  obtain ⟨⟨s, present, named, ours⟩, -⟩ := reaches
  have there : w.strms[strm]? = some s := by
    obtain ⟨rest, longer⟩ := hearing.streams
    rw [← longer, List.getElem?_append_left (List.getElem?_eq_some_iff.1 present).1, present]
  obtain ⟨client, self, runs⟩ := hearing.established.self
  obtain ⟨server, peer, runsToo⟩ := hearing.established.peer
  rcases ours with isSelf | isPeer
  · rw [← hearing.handles.self] at isSelf
    obtain rfl : client = s.conn := Option.some.inj (self.symm.trans isSelf)
    obtain ⟨c, conn, here, -, started, -, isOpen⟩ := runs
    exact ⟨s, c, there, conn, here, isOpen, started, named⟩
  · rw [← hearing.handles.peer] at isPeer
    obtain rfl : server = s.conn := Option.some.inj (peer.symm.trans isPeer)
    obtain ⟨c, conn, here, -, started, -, isOpen⟩ := runsToo
    exact ⟨s, c, there, conn, here, isOpen, started, named⟩

/-- **A label of a world**, as far as its own node is concerned. -/
theorem Hearing.step (joins : line.Joins world)
    (hearing : line.Hearing i (world i) (c.sent i.other) (c.world i) (c.received i))
    (speaking : Speaking (line.ctx i.other (world i.other)) (c.accepted i.other) (c.sent i.other))
    {l : Label} (brings : line.Brings c i l) (undisturbed : line.Undisturbed c (.world i l)) {u : World}
    (moves : (c.world i).step (line.net.listener i) l = some u) :
    line.Hearing i (world i) (c.sent i.other) u (receivedAfter (c.received i) l) := by
  obtain ⟨spares, knows⟩ := undisturbed
  rcases World.step_cases moves with ⟨quiet, rfl⟩ | ⟨slot, act, route, works, rfl⟩
  · rcases told_of_route quiet with ⟨_, _, _, -, _, _, -, -, none_⟩ | ⟨same, -⟩
    · cases none_
    · rw [same]
      exact hearing
  · have legal := World.route_legal route
    rcases told_of_route route with
      ⟨strm, ev, alive, rfl, s, conn, found, present, target⟩ | ⟨same, other⟩
    · obtain ⟨rfl, rfl⟩ := Prod.mk.inj (Option.some.inj target)
      by_cases here : conn.slot = line.slot i
      · obtain ⟨⟨k, p⟩, known⟩ := Option.isSome_iff_exists.1 (knows s found conn present here)
        have reaches := joins.far i strm (k, p) known
        obtain ⟨s', -, found', -, -, -, -, named⟩ := hearing.inside reaches
        obtain rfl : s = s' := Option.some.inj (found.symm.trans found')
        obtain ⟨position, isPiece⟩ := brings (k, p) known
        rw [speaking.carried k p reaches.2] at isPiece
        rw [here] at legal works ⊢
        refine hearing.after_receive legal works ?_ known named position isPiece
        intro drops
        refine spares _ _ route ?_ here (.inr (.inr ?_))
        · rw [here]
          exact works
        · rw [here]
          exact drops
      · refine hearing.after_ne legal here fun other known => ?_
        refine Function.update_of_ne ?_ _ _
        rintro rfl
        obtain ⟨far, known⟩ := Option.isSome_iff_exists.1 known
        obtain ⟨s', conn', found', present', inside, -⟩ := hearing.inside (joins.far i other far known)
        obtain rfl : s = s' := Option.some.inj (found.symm.trans found')
        obtain rfl : conn = conn' := Option.some.inj (present.symm.trans present')
        exact here inside
    · rw [same]
      by_cases here : slot = line.slot i
      · subst here
        exact hearing.after_quiet legal (spares _ _ route works rfl) (other _ _ rfl)
      · exact hearing.after_ne legal here fun _ _ => rfl

theorem sound_step (joins : line.Joins world) (sound : line.Sound world c) {label : ConversationLabel}
    (undisturbed : line.Undisturbed c label) (taken : line.step c label = some t) : line.Sound world t := by
  cases label with
  | send side k data env => exact sound_send joins sound undisturbed taken
  | world side l =>
      simp only [step] at taken
      split at taken
      · rename_i brings
        obtain ⟨u, moves, rfl⟩ := Option.map_eq_some_iff.1 taken
        have hears := (sound.hearing side).step joins (sound.speaking side.other) brings undisturbed moves
        refine ⟨fun j => ?_, sound.speaking⟩
        by_cases here : j = side
        · subst here
          simpa using hears
        · simpa [here] using sound.hearing j
      · cases taken

/-- **The next bytes of a stream of the session can be handled.** -/
theorem Sound.handles (joins : line.Joins world) (sound : line.Sound world c) (i : Side) :
    line.Handles c i := by
  intro strm k p ev alive known brings live unheld
  have hearing := sound.hearing i
  have reaches := joins.far i strm (k, p) known
  obtain ⟨s, conn, found, present, here, isOpen, started, named⟩ := hearing.inside reaches
  let act : Activation := .receive s.id ev alive
  have route : (c.world i).route (line.net.listener i) (.receive strm ev alive) =
      some (some (line.slot i, act)) := by
    simp [World.route, found, World.startedConn_some.2 ⟨present, isOpen, started⟩, here, act]
  obtain ⟨channelCtx, locked⟩ := Option.ne_none_iff_exists'.1 live
  obtain ⟨heard, -, accounts⟩ := hearing.heard k
  obtain ⟨position, isPiece⟩ := brings (k, p) known
  have starts : ev.absoluteOffset ≤ ((line.ctx i (c.world i)).reliable k).nextRecvByte := by
    rw [position]
    exact (hearing.upTo k unheld).2 strm p known
  rw [(sound.speaking i.other).carried k p reaches.2, ← position] at isPiece
  obtain ⟨noCorrupt, -, -, -, -, noOverrun⟩ :=
    handleReceive_spec (line.slot i) locked named accounts starts isPiece
  have works : ¬ (c.world i).Fails (line.slot i) act := by
    rintro (overruns | ⟨resets | corrupt, -⟩ | ⟨j, takes, isHeld⟩)
    · refine noOverrun _ ?_ rfl overruns
      intro payload member
      have := (sound.speaking i.other).small k payload member
      omega
    · have noted : .reset ∈ marks (line.slot i)
          (act.run (line.slot i) (line.ctx i (c.world i))).calls := mem_marks resets (by simp [markOf])
      have quiet := run_effect (line.slot i) (line.ctx i (c.world i)) act
      rw [(effect_quiet quiet trivial live hearing.established.connected.1).2] at noted
      cases noted
    · exact noCorrupt corrupt
    · have inRange : (s.id >>> 2) % 2 ^ 32 < 4 := named ▸ k.isLt
      have channel : World.channelOf act = some ⟨_, inRange⟩ := dif_pos inRange
      rw [channel] at takes
      obtain rfl : (⟨_, inRange⟩ : Fin 4) = j := Option.some.inj takes
      rw [show (⟨_, inRange⟩ : Fin 4) = k from Fin.ext named, unheld] at isHeld
      cases isHeld
  have moves : (c.world i).step (line.net.listener i) (.receive strm ev alive) =
      some ((c.world i).after (line.slot i) act) := by
    simp only [World.step, route, Option.bind_some, works, if_false]
  simp [step, brings, moves]

/-- **Two sessions that have each other talk** for as long as nothing disturbs them.  Whatever packets reach
the nodes, whatever else they and MsQuic do, in other contexts and in theirs, and however MsQuic cuts and
interleaves the streams: both sessions stay, and on every channel, in both directions, the application has
been handed the first of the messages that the other node has sent, each once and in order, at least those
that either of the channel's two streams has brought whole; and no handler leaves its memory. -/
theorem sessions_converse (line : Line) (world : Side → World) (joins : line.Joins world)
    (labels : List ConversationLabel) (every : EveryStep line.step line.Undisturbed { world } labels) :
    Always line.step (fun c => ∀ i,
        (c.world i).Established (line.net.endpoint i.other) (line.slot i) (line.ports i) ∧
        (∀ k, line.Heard i (world i) (c.sent i.other k) (c.world i) (c.received i) k) ∧
        line.Handles c i)
      { world } labels := by
  have kept : Always line.step (line.Sound world) { world } labels :=
    always_of_everyStep (fun _ _ _ sound undisturbed taken => sound_step joins sound undisturbed taken)
      (sound_start joins) every
  refine kept.mono fun c sound i => ⟨(sound.hearing i).established, fun k => ?_, sound.handles joins i⟩
  exact (sound.hearing i).hears (fun k => (sound.speaking i.other).small k) k

/-- The line between the nodes of `Nodes.sampleSession`: the peer's streams come after our own. -/
def sampleLine : Line where
  net := Nodes.sampleNetwork
  slot _ := 0
  ports i := portsOf (Nodes.sampleOffer i) (some (Nodes.sampleOffer i.other))
  far _ strm := if strm < 8 then some (Fin.ofNat 4 strm, (strm + 4) % 8) else none

/-- Both nodes speak; the left node's message comes on one stream, and then in pieces on the other, with
packets and a send that MsQuic refuses between them. -/
def sampleTalk : List ConversationLabel :=
  [.send .left 0 [1, 2, 3, 4, 5, 6, 7] ⟨true, true, true⟩,
    .world .right (.receive 4 ⟨0, 11, [[0, 0, 0, 7, 1, 2, 3, 4, 5, 6, 7]], rfl⟩ fun _ => true)] ++
  World.sampleNoise.map (.world .left) ++
  [.send .right 1 [2, 3] ⟨true, false, false⟩, .send .right 1 [4, 5, 6] ⟨true, true, true⟩,
    .world .right (.receive 0 ⟨0, 3, [[0], [0, 0]], rfl⟩ fun _ => true),
    .world .left (.receive 1 ⟨0, 7, [[0, 0, 0, 3, 4, 5, 6]], rfl⟩ fun _ => true),
    .world .right (.receive 0 ⟨3, 8, [[7, 1, 2], [3, 4, 5, 6, 7]], rfl⟩ fun _ => true)]

theorem sessions_converse_talk :
    ∃ s, exec (Nodes.step Nodes.sampleNetwork) {} Nodes.sampleSession = some s ∧
      (exec sampleLine.step { world := s.world } sampleTalk).isSome = true ∧
      Always sampleLine.step (fun c => ∀ i,
          (c.world i).Established (sampleLine.net.endpoint i.other) 0 (sampleLine.ports i) ∧
          (∀ k, sampleLine.Heard i (s.world i) (c.sent i.other k) (c.world i) (c.received i) k) ∧
          sampleLine.Handles c i)
        { world := s.world } sampleTalk := by
  have reached : (exec (Nodes.step Nodes.sampleNetwork) {} Nodes.sampleSession).map (fun s =>
        decide ((∀ i ∈ [Side.left, .right],
            (s.world i).Established (sampleLine.net.endpoint i.other) 0 (sampleLine.ports i) ∧
            (∀ k, (((s.world i).contexts 0).reliable k).buffer = [] ∧
              (((s.world i).contexts 0).reliable k).nextRecvByte = 0) ∧
            InOnePlace ((s.world i).contexts 0) ∧
            ∀ strm < 8, ∀ far ∈ sampleLine.far i strm, sampleLine.Reaches s.world i strm far) ∧
          (exec sampleLine.step { world := s.world } sampleTalk).isSome = true ∧
          EveryStep sampleLine.step sampleLine.Undisturbed { world := s.world } sampleTalk)) =
      some true := by
    decide +kernel
  obtain ⟨s, run, facts⟩ := Option.map_eq_some_iff.1 reached
  obtain ⟨both, talks, every⟩ := of_decide_eq_true facts
  have each : ∀ i, i ∈ [Side.left, .right] := by
    intro i
    cases i <;> decide
  have joins : sampleLine.Joins s.world := by
    refine ⟨fun i => (both i (each i)).1, fun i => (both i (each i)).2.1,
      fun i => (both i (each i)).2.2.1, ?_⟩
    intro i strm far known
    refine (both i (each i)).2.2.2 strm ?_ far known
    by_contra outside
    have unknown : sampleLine.far i strm = none := if_neg outside
    rw [unknown] at known
    cases known
  exact ⟨s, run, talks, sessions_converse sampleLine s.world joins sampleTalk every⟩

end Line

end Koisyn.Session
