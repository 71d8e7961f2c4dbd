/-
# Koisyn.Session.ChannelIdentity — which channel a payload comes out of

`ReliablePacketSend` picks its streams by the channel, and the handler of `RECEIVE` at the other side
picks the channel by the stream's id.  Nothing ties the two but the order in which `StartClient` starts
its streams: its loops go on past a stream that fails to open or to start, and MsQuic gives out ids
in the order of the streams that do start.

`Streams` is the context of one peer with MsQuic's streams and their ids, through any sequence of
activations.  `Filed` is what every run keeps: the stream in a `Peer` has the id of its channel, and the
one in a `Self` the id of some channel.  It is that of its own channel exactly if no stream that fails
comes before one that is started, and `channelIdentity_iff` says that this decides over every payload.
-/
import Koisyn.Session.StreamLedger
import Koisyn.Session.StreamIds

namespace Koisyn.Session

open Koisyn.Channel
open Koisyn.Theory.Run

set_option autoImplicit false

/-! ## The handles that an activation leaves -/

/-- `StartClient` gets as far as starting its streams. -/
def getsStarted (ctx : ConnectionContext) (env : StartEnv) : Bool :=
  ctx.unreliable.self.isNone && env.connection.isSome && env.granted

/-- The environment of the `StartClient` that does. -/
def startsStreams (ctx : ConnectionContext) (act : Activation) : Option StartEnv :=
  (act.starts ctx.ports).bind fun (_, env) => if getsStarted ctx env then some env else none

/-- No stream handle is new, and those of our own go with their connection. -/
structure FewerHandles (ctx ctx' : ConnectionContext) : Prop where
  self : ∀ i, (ctx'.reliable i).self = none ∨ (ctx'.reliable i).self = (ctx.reliable i).self
  peer : ∀ i, (ctx'.reliable i).peer = none ∨ (ctx'.reliable i).peer = (ctx.reliable i).peer
  conn : ctx'.unreliable.self = ctx.unreliable.self ∨ ∀ i, (ctx'.reliable i).self = none

section Fewer

variable {ctx between ctx' : ConnectionContext}

theorem FewerHandles.same
    (handles : ∀ i, (ctx'.reliable i).self = (ctx.reliable i).self ∧
      (ctx'.reliable i).peer = (ctx.reliable i).peer)
    (conn : ctx'.unreliable.self = ctx.unreliable.self) : FewerHandles ctx ctx' where
  self i := .inr (handles i).1
  peer i := .inr (handles i).2
  conn := .inl conn

theorem fewerHandles_reset (ctx : ConnectionContext) : FewerHandles ctx ctx.reset where
  self _ := .inl rfl
  peer _ := .inl rfl
  conn := .inr fun _ => rfl

theorem FewerHandles.trans (first : FewerHandles ctx between) (second : FewerHandles between ctx') :
    FewerHandles ctx ctx' where
  self i := by
    rcases second.self i with gone | same
    · exact .inl gone
    · rw [same]
      exact first.self i
  peer i := by
    rcases second.peer i with gone | same
    · exact .inl gone
    · rw [same]
      exact first.peer i
  conn := by
    rcases second.conn with same | gone
    · rcases first.conn with same' | gone
      · exact .inl (same.trans same')
      · refine .inr fun i => ?_
        rcases second.self i with gone' | kept
        · exact gone'
        · rw [kept]
          exact gone i
    · exact .inr gone

theorem fewerHandles_clearSide (ctx : ConnectionContext) (isClient : Bool) :
    FewerHandles ctx (clearSide ctx isClient) := by
  cases isClient with
  | true => exact ⟨fun _ => .inl rfl, fun _ => .inr rfl, .inr fun _ => rfl⟩
  | false => exact ⟨fun _ => .inr rfl, fun _ => .inl rfl, .inl rfl⟩

theorem fewerHandles_shutdownComplete (slot : Slot) (ctx : ConnectionContext) (conn : Hquic)
    (isClient : Bool) (alive : ObjectId → Bool) :
    FewerHandles ctx (shutdownComplete slot ctx conn isClient alive).1 := by
  have cleared := fewerHandles_clearSide ctx isClient
  unfold shutdownComplete
  dsimp only
  split
  · exact ⟨fun _ => .inl rfl, fun _ => .inl rfl, .inr fun _ => rfl⟩
  · exact ⟨cleared.self, cleared.peer, cleared.conn⟩

/-- A channel that the blocked reset has come to has lost both its handles. -/
theorem resetBlockedAt_cases (ctx : ConnectionContext) (index i : Fin 4) :
    ((ctx.resetBlockedAt index).reliable i).self = none ∧
        ((ctx.resetBlockedAt index).reliable i).peer = none ∨
      (ctx.resetBlockedAt index).reliable i = ctx.reliable i := by
  unfold ConnectionContext.resetBlockedAt
  dsimp only
  split
  · exact .inl ⟨rfl, rfl⟩
  · split
    · exact .inl ⟨rfl, rfl⟩
    · exact .inr rfl

theorem fewerHandles_resetBlockedAt (ctx : ConnectionContext) (index : Fin 4) :
    FewerHandles ctx (ctx.resetBlockedAt index) where
  self i := by
    rcases resetBlockedAt_cases ctx index i with ⟨gone, -⟩ | same
    · exact .inl gone
    · exact .inr (by rw [same])
  peer i := by
    rcases resetBlockedAt_cases ctx index i with ⟨-, gone⟩ | same
    · exact .inl gone
    · exact .inr (by rw [same])
  conn := .inl rfl

theorem fewerHandles_handleReceive (slot : Slot) (alive : ObjectId → Bool) (id : Nat)
    (ev : ReceiveEvent) (ctx : ConnectionContext) :
    FewerHandles ctx (handleReceive slot alive id ev ctx).ctx := by
  have received := handleReceive_received slot alive id ev ctx
  generalize (handleReceive slot alive id ev ctx).ctx = after,
    (handleReceive slot alive id ev ctx).calls = calls at received ⊢
  cases received with
  | dropped => exact fewerHandles_reset ctx
  | left => exact .same (fun _ => ⟨rfl, rfl⟩) rfl
  | read index chn payloads channelCtx named self peer =>
      exact .same (ConnectionContext.reads_handles self peer) rfl
  | blocked index chn payloads channelCtx named self peer =>
      have reads : FewerHandles ctx (ctx.reads index chn) :=
        .same (ConnectionContext.reads_handles self peer) rfl
      exact reads.trans (fewerHandles_resetBlockedAt _ _)

end Fewer

/-- A `StartClient` that starts no streams. -/
theorem fewerHandles_startClient {slot : Slot} {ctx : ConnectionContext} {remote : Endpoint}
    {env : StartEnv} (idle : getsStarted ctx env ≠ true) :
    FewerHandles ctx (startClient slot ctx remote env).1 := by
  have same : FewerHandles ctx ctx := .same (fun _ => ⟨rfl, rfl⟩) rfl
  have started := startClient_started slot ctx remote env
  generalize startClient slot ctx remote env = r at started ⊢
  cases started with
  | unopened skips => exact same
  | granted conn free opens granted =>
      exact absurd (by simp [getsStarted, free, opens, granted]) idle
  | refused conn free opens refused =>
      exact ⟨fun _ => .inl rfl, fun _ => .inl rfl, .inr fun _ => rfl⟩

/-- A `StartClient` that starts its streams: those opened take the place of any that were there. -/
theorem startClient_handles {slot : Slot} {ctx : ConnectionContext} {remote : Endpoint}
    {env : StartEnv} (starts : getsStarted ctx env = true) :
    ctx.unreliable.self = none ∧ (startClient slot ctx remote env).1.unreliable.self.isSome = true ∧
      ∀ i, ((startClient slot ctx remote env).1.reliable i).self =
          (env.streams i).or (ctx.reliable i).self ∧
        ((startClient slot ctx remote env).1.reliable i).peer = (ctx.reliable i).peer := by
  simp only [getsStarted, Bool.and_eq_true, Option.isNone_iff_eq_none] at starts
  obtain ⟨⟨free, opened⟩, granted⟩ := starts
  obtain ⟨conn, opened⟩ := Option.isSome_iff_exists.1 opened
  simp only [startClient, free, opened, granted, Option.isSome_none, Bool.false_eq_true, if_false,
    if_true]
  exact ⟨trivial, rfl, fun i => ⟨rfl, rfl⟩⟩

/-- Every other activation but `PEER_STREAM_STARTED`. -/
theorem run_fewerHandles (slot : Slot) {ctx : ConnectionContext} {act : Activation}
    (idle : startsStreams ctx act = none)
    (noPeer : ∀ conn strm id, act ≠ .peerStreamStarted conn strm id) :
    FewerHandles ctx (act.run slot ctx).ctx := by
  have same : FewerHandles ctx ctx := .same (fun _ => ⟨rfl, rfl⟩) rfl
  have refuses : ∀ {ctx' : ConnectionContext} {env : StartEnv},
      (if getsStarted ctx' env then some env else none) = none → getsStarted ctx' env ≠ true := by
    intro ctx' env chosen starts
    rw [if_pos starts] at chosen
    cases chosen
  cases act with
  | connectTo remote localServer localClient now => exact .same (fun _ => ⟨rfl, rfl⟩) rfl
  | receive1st remoteServer remoteClient remote localServer sock now =>
      show FewerHandles ctx (receive1st ctx remoteServer remoteClient remote localServer sock now).1
      unfold receive1st
      dsimp only
      split
      · cases sock <;> exact .same (fun _ => ⟨rfl, rfl⟩) rfl
      · exact .same (fun _ => ⟨rfl, rfl⟩) rfl
  | receive2nd remoteServer remoteClient remote env =>
      let saved := { ctx with ports := { ctx.ports with remoteServer, remoteClient } }
      have saves : FewerHandles ctx saved := .same (fun _ => ⟨rfl, rfl⟩) rfl
      apply saves.trans
      exact fewerHandles_startClient (refuses idle)
  | receive3rd remote env => exact fewerHandles_startClient (refuses idle)
  | doCheck now =>
      show FewerHandles ctx (doCheck slot ctx now).1
      have checked := doCheck_checked slot ctx now
      generalize doCheck slot ctx now = r at checked ⊢
      cases checked with
      | idle | retry => exact same
      | longStop | shortStop => exact fewerHandles_reset ctx
  | newConnection conn configured => exact .same (fun _ => ⟨rfl, rfl⟩) rfl
  | connected conn => exact .same (fun _ => ⟨rfl, rfl⟩) rfl
  | shutdownComplete conn isClient alive =>
      exact fewerHandles_shutdownComplete slot ctx conn isClient alive
  | peerStreamStarted conn strm id => exact absurd rfl (noPeer conn strm id)
  | datagramStateChanged maxSendLength => exact .same (fun _ => ⟨rfl, rfl⟩) rfl
  | datagramReceived buf alive =>
      show FewerHandles ctx (datagramReceived slot ctx buf alive).ctx
      have took := datagramReceived_took slot ctx buf alive
      generalize (datagramReceived slot ctx buf alive).ctx = after,
        (datagramReceived slot ctx buf alive).calls = calls at took ⊢
      cases took with
      | dropped => exact fewerHandles_reset ctx
      | left => exact same
      | taken => exact .same (fun _ => ⟨rfl, rfl⟩) rfl
  | receive id ev alive => exact fewerHandles_handleReceive slot alive id ev ctx
  | disconnect => exact fewerHandles_reset ctx
  | unreliablePacketSend data env =>
      show FewerHandles ctx (unreliablePacketSend ctx data env).2.1
      unfold unreliablePacketSend
      dsimp only
      split
      · exact same
      · split <;> exact .same (fun _ => ⟨rfl, rfl⟩) rfl

/-- An activation that starts its streams. -/
theorem run_starts (slot : Slot) {ctx : ConnectionContext} {act : Activation} {env : StartEnv}
    (starts : startsStreams ctx act = some env) :
    ctx.unreliable.self = none ∧ ((act.run slot ctx).ctx.unreliable.self).isSome = true ∧
      ∀ i, ((act.run slot ctx).ctx.reliable i).self = (env.streams i).or (ctx.reliable i).self ∧
        ((act.run slot ctx).ctx.reliable i).peer = (ctx.reliable i).peer := by
  cases act with
  | receive2nd remoteServer remoteClient remote env' =>
      let saved := { ctx with ports := { ctx.ports with remoteServer, remoteClient } }
      have chosen : (if getsStarted saved env' then some env' else none) = some env := starts
      obtain ⟨holds, rfl⟩ := Option.ite_some_none_eq_some.1 chosen
      exact @startClient_handles slot saved remote env' holds
  | receive3rd remote env' =>
      have chosen : (if getsStarted ctx env' then some env' else none) = some env := starts
      obtain ⟨holds, rfl⟩ := Option.ite_some_none_eq_some.1 chosen
      exact startClient_handles holds
  | _ => cases starts

/-! ## MsQuic's streams -/

/-- The context of one peer, the streams that MsQuic has made for it and the ids of those that have
been started. -/
structure Streams where
  ctx : ConnectionContext := {}
  made : List Hquic := []
  ids : Hquic → Option Nat := fun _ => none

/-- An activation, with what `Start` answers for the stream of each channel if it gets so far. -/
structure StreamsLabel where
  act : Activation
  started : Fin 4 → Bool := fun _ => true

/-- The streams that MsQuic makes in an activation. -/
def madeBy (ctx : ConnectionContext) : Activation → List Hquic
  | .peerStreamStarted _ strm _ => [strm]
  | act => ((act.starts ctx.ports).map fun (_, env) => opensStreams ctx env).getD []

/-- The channel has a stream, and it is started. -/
def startsOn (self : Fin 4 → Option Hquic) (started : Fin 4 → Bool) (i : Fin 4) : Bool :=
  (self i).isSome && started i

/-- The loop over the channels that starts their streams: MsQuic gives each that it starts the next
id, and starts none for a channel without a stream. -/
def startLoop (self : Fin 4 → Option Hquic) (started : Fin 4 → Bool) :
    List (Fin 4) → Nat → (Hquic → Option Nat) → Hquic → Option Nat
  | [], _, ids => ids
  | i :: rest, next, ids =>
      match (self i).filter fun _ => started i with
      | none => startLoop self started rest next ids
      | some strm =>
          startLoop self started rest (next + 1)
            (Function.update ids strm (some (clientBidiStreamId next)))

namespace Streams

variable (s : Streams)

/-- The ids after an activation: those MsQuic gives to our streams, or the one that the peer's stream
comes with. -/
def idsAfter (slot : Slot) (l : StreamsLabel) : Hquic → Option Nat :=
  match startsStreams s.ctx l.act, l.act with
  | some _, _ =>
      startLoop (fun i => ((l.act.run slot s.ctx).ctx.reliable i).self) l.started (List.finRange 4) 0
        s.ids
  | none, .peerStreamStarted _ strm id => Function.update s.ids strm (some id)
  | none, _ => s.ids

/-- One step; the streams that MsQuic makes have handles of their own. -/
def step (slot : Slot) (s : Streams) (l : StreamsLabel) : Option Streams :=
  if (madeBy s.ctx l.act).Nodup ∧ ∀ strm ∈ madeBy s.ctx l.act, strm ∉ s.made then
    some
      { ctx := (l.act.run slot s.ctx).ctx
        made := s.made ++ madeBy s.ctx l.act
        ids := s.idsAfter slot l }
  else none

end Streams

/-! ### The loop -/

section Loop

variable {self : Fin 4 → Option Hquic} {started : Fin 4 → Bool}

/-- A stream of none of the channels keeps its id. -/
theorem startLoop_of_ne {strm : Hquic} {rest : List (Fin 4)} {next : Nat}
    {ids : Hquic → Option Nat} (other : ∀ i ∈ rest, started i = true → self i ≠ some strm) :
    startLoop self started rest next ids strm = ids strm := by
  induction rest generalizing next ids with
  | nil => rfl
  | cons i rest ih =>
      have later : ∀ j ∈ rest, started j = true → self j ≠ some strm :=
        fun j member => other j (List.mem_cons_of_mem _ member)
      cases starts : (self i).filter fun _ => started i with
      | none =>
          simp only [startLoop, starts]
          exact ih later
      | some found =>
          obtain ⟨here, answered⟩ := Option.filter_eq_some_iff.1 starts
          simp only [startLoop, starts]
          rw [ih later, Function.update_of_ne]
          rintro rfl
          exact other i List.mem_cons_self answered here

/-- A stream that is started gets the id of its rank. -/
theorem startLoop_of_started {strm : Hquic} {before rest : List (Fin 4)} {i : Fin 4} {next : Nat}
    {ids : Hquic → Option Nat} (here : self i = some strm) (answered : started i = true)
    (once : ∀ j ∈ rest, self j ≠ some strm) :
    startLoop self started (before ++ i :: rest) next ids strm =
      some (clientBidiStreamId (next + before.countP (startsOn self started))) := by
  induction before generalizing next ids with
  | nil =>
      have starts : (self i).filter (fun _ => started i) = some strm :=
        Option.filter_eq_some_iff.2 ⟨here, answered⟩
      simp only [List.nil_append, startLoop, starts]
      rw [startLoop_of_ne fun j member _ => once j member, Function.update_self]
      rfl
  | cons j before ih =>
      cases starts : (self j).filter fun _ => started j with
      | none =>
          have skipped : ¬ startsOn self started j = true := by
            intro both
            obtain ⟨present, answers⟩ := Bool.and_eq_true_iff.1 both
            obtain ⟨other, present⟩ := Option.isSome_iff_exists.1 present
            rw [present, Option.filter_some, if_pos answers] at starts
            cases starts
          simp only [List.cons_append, startLoop, starts]
          rw [ih, List.countP_cons_of_neg skipped]
      | some other =>
          obtain ⟨present, answers⟩ := Option.filter_eq_some_iff.1 starts
          have counted : startsOn self started j = true := by
            rw [startsOn, present, answers]
            rfl
          simp only [List.cons_append, startLoop, starts]
          rw [ih, List.countP_cons_of_pos counted, Nat.add_right_comm, Nat.add_assoc]

end Loop

/-! ### The channels before one -/

/-- The channels whose streams are started before that of `i`. -/
def earlier (i : Fin 4) : List (Fin 4) := (List.finRange 4).take i

theorem mem_earlier : ∀ {i j : Fin 4}, j ∈ earlier i ↔ j < i := by decide

theorem length_earlier : ∀ i : Fin 4, (earlier i).length = i := by decide

theorem finRange_eq_earlier :
    ∀ i : Fin 4, ∃ rest, List.finRange 4 = earlier i ++ i :: rest ∧ i ∉ rest := by
  intro i
  refine ⟨(List.finRange 4).drop (i + 1), ?_⟩
  revert i
  decide

/-- The rank of a channel is its index exactly if all before it count. -/
theorem countP_earlier_iff {p : Fin 4 → Bool} {i : Fin 4} :
    (earlier i).countP p = i ↔ ∀ j < i, p j = true := by
  rw [← length_earlier i, List.countP_eq_length]
  constructor
  · intro all j before
    exact all j (mem_earlier.2 before)
  · intro all j member
    exact all j (mem_earlier.1 member)

theorem countP_earlier_lt (p : Fin 4 → Bool) (i : Fin 4) : (earlier i).countP p < 4 :=
  (List.countP_le_length.trans (length_earlier i).le).trans_lt i.isLt

namespace Streams

variable {s t : Streams} {slot : Slot} {l : StreamsLabel}

/-! ## What every run keeps -/

/-- The streams of a context are those MsQuic made, ours come with their connection and have the id of
a channel, and the peer's have that of theirs. -/
structure Filed (s : Streams) : Prop where
  alone : s.ctx.unreliable.self = none → ∀ i, (s.ctx.reliable i).self = none
  named : ∀ strm id, s.ids strm = some id → strm ∈ s.made
  held : ∀ i strm, (s.ctx.reliable i).self = some strm ∨ (s.ctx.reliable i).peer = some strm →
    strm ∈ s.made
  ours : ∀ i strm id, (s.ctx.reliable i).self = some strm → s.ids strm = some id →
    ∃ rank < 4, id = clientBidiStreamId rank
  theirs : ∀ (i : Fin 4) strm id, (s.ctx.reliable i).peer = some strm → s.ids strm = some id →
    startedIndex id = i

theorem filed_start : Filed {} where
  alone _ _ := rfl
  named _ _ given := by cases given
  held _ _ holds := by rcases holds with holds | holds <;> cases holds
  ours _ _ _ holds := by cases holds
  theirs _ _ _ holds := by cases holds

/-- The stream in `Reliable[k].Self` has the id `4 * k`. -/
def SelfIds (s : Streams) : Prop :=
  ∀ (k : Fin 4) strm id, (s.ctx.reliable k).self = some strm → s.ids strm = some id →
    id = clientBidiStreamId k

/-- No stream that fails to open or to start comes before one that is started. -/
def InOrder (s : Streams) (l : StreamsLabel) : Prop :=
  ∀ env, startsStreams s.ctx l.act = some env → ∀ i j, j < i →
    startsOn env.streams l.started i = true → startsOn env.streams l.started j = true

theorem step_some (taken : s.step slot l = some t) :
    (madeBy s.ctx l.act).Nodup ∧ (∀ strm ∈ madeBy s.ctx l.act, strm ∉ s.made) ∧
      t = ⟨(l.act.run slot s.ctx).ctx, s.made ++ madeBy s.ctx l.act, s.idsAfter slot l⟩ := by
  obtain ⟨fresh, same⟩ := Option.ite_some_none_eq_some.1 taken
  exact ⟨fresh.1, fresh.2, same.symm⟩

theorem madeBy_of_startsStreams {ctx : ConnectionContext} {act : Activation} {env : StartEnv}
    (starts : startsStreams ctx act = some env) :
    madeBy ctx act = (List.finRange 4).filterMap env.streams := by
  have opens : ∀ {ctx' : ConnectionContext} {env' : StartEnv},
      (if getsStarted ctx' env' then some env' else none) = some env →
      opensStreams ctx' env' = (List.finRange 4).filterMap env.streams := by
    intro ctx' env' chosen
    obtain ⟨holds, rfl⟩ := Option.ite_some_none_eq_some.1 chosen
    rw [getsStarted, Bool.and_eq_true] at holds
    rw [opensStreams, if_pos holds.1]
  cases act with
  | receive2nd remoteServer remoteClient remote env' =>
      exact @opens { ctx with ports := { ctx.ports with remoteServer, remoteClient } } env' starts
  | receive3rd remote env' => exact @opens ctx env' starts
  | _ => cases starts

/-- Where `StartClient` starts its streams. -/
structure Started (s t : Streams) (l : StreamsLabel) (env : StartEnv) : Prop where
  conn : t.ctx.unreliable.self ≠ none
  self : ∀ i, (t.ctx.reliable i).self = env.streams i
  peer : ∀ i, (t.ctx.reliable i).peer = (s.ctx.reliable i).peer
  made : ∀ i strm, env.streams i = some strm → strm ∈ t.made
  new : ∀ i strm, env.streams i = some strm → strm ∉ s.made
  rank : ∀ i strm, env.streams i = some strm → l.started i = true →
    t.ids strm = some (clientBidiStreamId ((earlier i).countP (startsOn env.streams l.started)))
  failed : ∀ i strm, env.streams i = some strm → l.started i = false → t.ids strm = none
  kept : ∀ strm, (∀ i, env.streams i ≠ some strm) → t.ids strm = s.ids strm

theorem started_of_step (filed : s.Filed) (taken : s.step slot l = some t) {env : StartEnv}
    (starts : startsStreams s.ctx l.act = some env) : Started s t l env := by
  obtain ⟨nodup, fresh, rfl⟩ := step_some taken
  obtain ⟨free, conn, handles⟩ := run_starts slot starts
  have ours : ∀ i, ((l.act.run slot s.ctx).ctx.reliable i).self = env.streams i := by
    intro i
    rw [(handles i).1, filed.alone free i, Option.or_none]
  have new := madeBy_of_startsStreams starts
  have member : ∀ i strm, env.streams i = some strm → strm ∈ madeBy s.ctx l.act := by
    intro i strm opened
    rw [new]
    exact List.mem_filterMap.2 ⟨i, List.mem_finRange i, opened⟩
  have distinct : ∀ i j strm, env.streams i = some strm → env.streams j = some strm → i = j := by
    intro i j strm here there
    rw [new, List.Nodup, List.pairwise_filterMap] at nodup
    have both : Std.Symm fun a b => ∀ x, env.streams a = some x → ∀ y, env.streams b = some y → x ≠ y :=
      ⟨fun a b apart x inB y inA => (apart y inA x inB).symm⟩
    by_contra differ
    have apart := nodup.forall (List.mem_finRange i) (List.mem_finRange j) differ
    exact apart strm here strm there rfl
  have ids : s.idsAfter slot l =
      startLoop env.streams l.started (List.finRange 4) 0 s.ids := by
    unfold idsAfter
    rw [starts]
    exact congrArg (startLoop · l.started (List.finRange 4) 0 s.ids) (funext ours)
  refine ⟨Option.isSome_iff_ne_none.1 conn, ours, fun i => (handles i).2, ?_, ?_, ?_, ?_, ?_⟩
  · exact fun i strm opened => List.mem_append_right _ (member i strm opened)
  · exact fun i strm opened => fresh strm (member i strm opened)
  · intro i strm opened answered
    obtain ⟨rest, split, later⟩ := finRange_eq_earlier i
    show s.idsAfter slot l strm = _
    rw [ids, split, startLoop_of_started opened answered, Nat.zero_add]
    intro j inRest again
    obtain rfl := distinct j i strm again opened
    exact later inRest
  · intro i strm opened failed
    show s.idsAfter slot l strm = none
    rw [ids, startLoop_of_ne]
    · by_contra given
      obtain ⟨id, given⟩ := Option.ne_none_iff_exists'.1 given
      exact fresh strm (member i strm opened) (filed.named strm id given)
    · intro j _ answered again
      obtain rfl := distinct j i strm again opened
      rw [failed] at answered
      cases answered
  · intro strm other
    show s.idsAfter slot l strm = s.ids strm
    rw [ids, startLoop_of_ne fun i _ _ => other i]

/-- Any other step: no stream of ours is new, and a new one of the peer's comes with the id of its
channel. -/
structure Idle (s t : Streams) : Prop where
  self : ∀ i strm, (t.ctx.reliable i).self = some strm → (s.ctx.reliable i).self = some strm
  peer : ∀ (i : Fin 4) strm, (t.ctx.reliable i).peer = some strm →
    (s.ctx.reliable i).peer = some strm ∨
      strm ∈ t.made ∧ ∃ id, t.ids strm = some id ∧ startedIndex id = i
  conn : t.ctx.unreliable.self = s.ctx.unreliable.self ∨ ∀ i, (t.ctx.reliable i).self = none
  named : ∀ strm id, t.ids strm = some id → s.ids strm = some id ∨ strm ∈ t.made
  kept : ∀ strm ∈ s.made, t.ids strm = s.ids strm

theorem peerStreamStarted_handles (slot : Slot) (ctx : ConnectionContext) (strm : Hquic) (id : Nat) :
    (peerStreamStarted slot ctx strm id).ctx.unreliable.self = ctx.unreliable.self ∧
      ∀ i, ((peerStreamStarted slot ctx strm id).ctx.reliable i).self = (ctx.reliable i).self ∧
        (((peerStreamStarted slot ctx strm id).ctx.reliable i).peer = (ctx.reliable i).peer ∨
          startedIndex id = i ∧
            ((peerStreamStarted slot ctx strm id).ctx.reliable i).peer = some strm) := by
  unfold peerStreamStarted
  split
  · rename_i inRange
    refine ⟨rfl, fun i => ?_⟩
    by_cases here : i = ⟨id >>> 2, inRange⟩
    · subst here
      simp [startedIndex]
    · simp [Function.update_of_ne here]
  · exact ⟨rfl, fun i => ⟨rfl, .inl rfl⟩⟩

theorem idle_of_step (taken : s.step slot l = some t) (idle : startsStreams s.ctx l.act = none) :
    Idle s t := by
  obtain ⟨-, fresh, same⟩ := step_some taken
  by_cases peers : ∃ conn strm id, l.act = .peerStreamStarted conn strm id
  · obtain ⟨act, started⟩ := l
    obtain ⟨conn, strm, id, rfl⟩ := peers
    obtain ⟨conn', handles⟩ := peerStreamStarted_handles slot s.ctx strm id
    have ctx : t.ctx = (peerStreamStarted slot s.ctx strm id).ctx := by
      rw [same]
      rfl
    have made : strm ∈ t.made := by
      rw [same]
      exact List.mem_append_right _ List.mem_cons_self
    have given : t.ids = Function.update s.ids strm (some id) := by
      rw [same]
      rfl
    rw [← ctx] at conn' handles
    refine ⟨?_, ?_, .inl conn', ?_, ?_⟩
    · exact fun i other holds => (handles i).1 ▸ holds
    · intro i other holds
      rcases (handles i).2 with old | ⟨index, new⟩
      · exact .inl (old ▸ holds)
      · obtain rfl : strm = other := Option.some.inj (new.symm.trans holds)
        exact .inr ⟨made, id, by rw [given, Function.update_self], index⟩
    · intro other k holds
      rw [given] at holds
      by_cases here : other = strm
      · exact .inr (here ▸ made)
      · rw [Function.update_of_ne here] at holds
        exact .inl holds
    · intro other old
      rw [given, Function.update_of_ne]
      rintro rfl
      exact fresh other List.mem_cons_self old
  · have noPeer : ∀ conn strm id, l.act ≠ .peerStreamStarted conn strm id :=
      fun conn strm id same => peers ⟨conn, strm, id, same⟩
    have fewer := run_fewerHandles slot idle noPeer
    have ids : t.ids = s.ids := by
      rw [same]
      show s.idsAfter slot l = s.ids
      unfold idsAfter
      rw [idle]
      split
      · contradiction
      · rename_i conn strm id _ peer
        exact absurd peer (noPeer conn strm id)
      · rfl
    have ctx : t.ctx = (l.act.run slot s.ctx).ctx := by rw [same]
    rw [← ctx] at fewer
    refine ⟨?_, ?_, fewer.conn, ?_, ?_⟩
    · intro i strm holds
      rcases fewer.self i with gone | old
      · exact absurd (gone.symm.trans holds) nofun
      · exact old ▸ holds
    · intro i strm holds
      rcases fewer.peer i with gone | old
      · exact absurd (gone.symm.trans holds) nofun
      · exact .inl (old ▸ holds)
    · exact fun strm id holds => .inl (ids ▸ holds)
    · exact fun strm _ => congrFun ids strm

theorem made_grows (taken : s.step slot l = some t) {strm : Hquic} (old : strm ∈ s.made) :
    strm ∈ t.made := by
  obtain ⟨-, -, rfl⟩ := step_some taken
  exact List.mem_append_left _ old

/-- **A stream's id is never changed**, nor given later to one that did not start. -/
theorem ids_kept (filed : s.Filed) (taken : s.step slot l = some t) {strm : Hquic}
    (old : strm ∈ s.made) : t.ids strm = s.ids strm := by
  cases starts : startsStreams s.ctx l.act with
  | none => exact (idle_of_step taken starts).kept strm old
  | some env =>
      have started := started_of_step filed taken starts
      exact started.kept strm fun i opened => started.new i strm opened old

theorem filed_step (filed : s.Filed) (taken : s.step slot l = some t) : t.Filed := by
  have kept : ∀ {strm}, strm ∈ s.made → t.ids strm = s.ids strm := ids_kept filed taken
  cases starts : startsStreams s.ctx l.act with
  | none =>
      have idle := idle_of_step taken starts
      refine ⟨?_, ?_, ?_, ?_, ?_⟩
      · intro free i
        rcases idle.conn with same | gone
        · by_contra present
          obtain ⟨strm, present⟩ := Option.ne_none_iff_exists'.1 present
          have before := idle.self i strm present
          rw [filed.alone (same ▸ free) i] at before
          cases before
        · exact gone i
      · intro strm id given
        rcases idle.named strm id given with before | new
        · exact made_grows taken (filed.named strm id before)
        · exact new
      · rintro i strm (ours | theirs)
        · exact made_grows taken (filed.held i strm (.inl (idle.self i strm ours)))
        · rcases idle.peer i strm theirs with before | ⟨new, -⟩
          · exact made_grows taken (filed.held i strm (.inr before))
          · exact new
      · intro i strm id ours given
        have before := idle.self i strm ours
        rw [kept (filed.held i strm (.inl before))] at given
        exact filed.ours i strm id before given
      · intro i strm id theirs given
        rcases idle.peer i strm theirs with before | ⟨-, id', given', index⟩
        · rw [kept (filed.held i strm (.inr before))] at given
          exact filed.theirs i strm id before given
        · obtain rfl := Option.some.inj (given'.symm.trans given)
          exact index
  | some env =>
      have started := started_of_step filed taken starts
      refine ⟨fun free => absurd free started.conn, ?_, ?_, ?_, ?_⟩
      · intro strm id given
        by_cases opened : ∃ i, env.streams i = some strm
        · obtain ⟨i, opened⟩ := opened
          exact started.made i strm opened
        · rw [started.kept strm (not_exists.1 opened)] at given
          exact made_grows taken (filed.named strm id given)
      · rintro i strm (ours | theirs)
        · exact started.made i strm (started.self i ▸ ours)
        · exact made_grows taken (filed.held i strm (.inr (started.peer i ▸ theirs)))
      · intro i strm id ours given
        have opened : env.streams i = some strm := started.self i ▸ ours
        cases answered : l.started i with
        | false => exact absurd ((started.failed i strm opened answered).symm.trans given) nofun
        | true =>
            refine ⟨_, countP_earlier_lt (startsOn env.streams l.started) i, ?_⟩
            exact (Option.some.inj ((started.rank i strm opened answered).symm.trans given)).symm
      · intro i strm id theirs given
        have before : (s.ctx.reliable i).peer = some strm := started.peer i ▸ theirs
        rw [kept (filed.held i strm (.inr before))] at given
        exact filed.theirs i strm id before given

theorem clientBidiStreamId_inj {m n : Nat} : clientBidiStreamId m = clientBidiStreamId n ↔ m = n := by
  unfold clientBidiStreamId
  omega

/-- **One step**: streams that have the ids of their channels keep them, and new ones get them exactly
if they are started in order. -/
theorem inOrder_iff (filed : s.Filed) (selfIds : s.SelfIds) (taken : s.step slot l = some t) :
    s.InOrder l ↔ t.SelfIds := by
  cases starts : startsStreams s.ctx l.act with
  | none =>
      have idle := idle_of_step taken starts
      have keeps : t.SelfIds := by
        intro k strm id ours given
        have before := idle.self k strm ours
        rw [idle.kept strm (filed.held k strm (.inl before))] at given
        exact selfIds k strm id before given
      exact ⟨fun _ => keeps, fun _ env started => absurd (starts.symm.trans started) nofun⟩
  | some env =>
      have started := started_of_step filed taken starts
      constructor
      · intro inOrder k strm id ours given
        have opened : env.streams k = some strm := started.self k ▸ ours
        cases answered : l.started k with
        | false => exact absurd ((started.failed k strm opened answered).symm.trans given) nofun
        | true =>
            have rank := started.rank k strm opened answered
            have here : startsOn env.streams l.started k = true := by simp [startsOn, opened, answered]
            rw [countP_earlier_iff.2 fun j before => inOrder env starts k j before here] at rank
            exact (Option.some.inj (rank.symm.trans given)).symm
      · intro keeps env' starts' i j before here
        obtain rfl := Option.some.inj (starts.symm.trans starts')
        obtain ⟨opened, answered⟩ := Bool.and_eq_true_iff.1 here
        obtain ⟨strm, opened⟩ := Option.isSome_iff_exists.1 opened
        have rank := started.rank i strm opened answered
        have same := clientBidiStreamId_inj.1 (keeps i strm _ ((started.self i).trans opened) rank)
        exact countP_earlier_iff.1 same j before

end Streams

/-! ## Which channel a payload comes out of -/

/-- The handler of `RECEIVE` hands payloads to the channel of the stream's id. -/
theorem handleReceive_index {slot s : Slot} {alive : ObjectId → Bool} {id : Nat} {ev : ReceiveEvent}
    {ctx : ConnectionContext} {i : Fin 4} {data : List UInt8} {channelCtx : ObjectId}
    (handed : .onReliableReceive s i data channelCtx ∈ (handleReceive slot alive id ev ctx).calls) :
    receiveIndex id = i := by
  have receives : ∀ {index : Fin 4} {payloads : List (List UInt8)} {c : ObjectId},
      Call.onReliableReceive s i data channelCtx ∈
        (payloads.map fun data => .onReliableReceive slot index data c) → index = i := by
    intro index payloads c member
    obtain ⟨payload, -, same⟩ := List.mem_map.1 member
    cases same
    rfl
  have received := handleReceive_received slot alive id ev ctx
  generalize (handleReceive slot alive id ev ctx).ctx = after,
    (handleReceive slot alive id ev ctx).calls = calls at handed received
  cases received with
  | dropped => simp [ConnectionContext.resetCalls, releaseStream, releaseConnection] at handed
  | left => cases handed
  | read index chn payloads c named => rw [receiveIndex, named, receives handed]
  | blocked index chn payloads c named =>
      rcases List.mem_append.1 handed with payload | released
      · rw [receiveIndex, named, receives payload]
      · simp [ConnectionContext.resetBlockedCalls, releaseStream] at released

/-- An empty payload that has just come in. -/
def emptyPayload : ReceiveEvent where
  absoluteOffset := 0
  totalBufferLength := 4
  buffers := [[0, 0, 0, 0]]
  total := rfl

/-- A context that has received nothing so far hands it on. -/
theorem handleReceive_emptyPayload (slot : Slot) {id : Nat} (inRange : receiveIndex id < 4) :
    .onReliableReceive slot ⟨receiveIndex id, inRange⟩ [] 0 ∈
      (handleReceive slot (fun _ => true) id emptyPayload { channelContext := some 0 }).calls := by
  have read : readBuffers {} 0 0 emptyPayload.buffers =
      ⟨.returned .continue_, { nextRecvByte := 4 }, [[]]⟩ := by decide
  have locked : lockChannelContext (fun _ => true) (some 0) = some 0 := rfl
  have newer : ¬ emptyPayload.absoluteOffset + emptyPayload.totalBufferLength ≤ 0 := by decide
  unfold receiveIndex at inRange
  simp only [handleReceive, locked, dif_pos inRange, if_neg newer]
  rw [show emptyPayload.absoluteOffset = 0 from rfl, read]
  simp [receiveIndex]

/-- What comes in on a stream of this id is handed to the channel `k` only, whatever the receiver has
received before. -/
def ComesOutOf (id k : Nat) : Prop :=
  ∀ (slot : Slot) (alive : ObjectId → Bool) (ev : ReceiveEvent) (receiver : ConnectionContext)
    (s : Slot) (i : Fin 4) (data : List UInt8) (channelCtx : ObjectId),
    .onReliableReceive s i data channelCtx ∈ (handleReceive slot alive id ev receiver).calls →
      (i : Nat) = k

theorem comesOutOf_iff {id k : Nat} (inRange : receiveIndex id < 4) :
    ComesOutOf id k ↔ receiveIndex id = k := by
  constructor
  · intro only
    exact only 0 _ _ _ _ _ _ _ (handleReceive_emptyPayload 0 inRange)
  · rintro rfl slot alive ev receiver s i data channelCtx handed
    exact (handleReceive_index handed).symm

/-- A channel sends on its own stream and on the peer's. -/
theorem held_of_accepted {ctx : ConnectionContext} {k : Nat} {data : List UInt8} {env : SendEnv}
    {strm : Hquic} (accepted : acceptedOn strm (reliablePacketSend (some ctx) k data env).2 ≠ []) :
    ∃ i : Fin 4, (i : Nat) = k ∧
      ((ctx.reliable i).self = some strm ∨ (ctx.reliable i).peer = some strm) := by
  by_cases inRange : k < 4
  · refine ⟨⟨k, inRange⟩, rfl, ?_⟩
    by_contra neither
    obtain ⟨-, appended⟩ := reliablePacketSend_streamSend ctx ⟨k, inRange⟩ data env strm
    dsimp only at appended
    apply accepted
    rw [appended]
    split
    · refine List.flatMap_eq_nil_iff.2 fun t member => if_neg ?_
      rintro ⟨rfl, -⟩
      exact neither (mem_targets.1 ⟨t.2, member⟩).symm
    · rfl
  · apply absurd accepted
    simp [reliablePacketSend, inRange, acceptedOn]

/-- A send that every stream accepts. -/
def allAccept : SendEnv := ⟨true, true, true⟩

theorem accepted_self {ctx : ConnectionContext} {k : Fin 4} {strm : Hquic}
    (held : (ctx.reliable k).self = some strm) :
    acceptedOn strm (reliablePacketSend (some ctx) k [] allAccept).2 ≠ [] := by
  obtain ⟨-, appended⟩ := reliablePacketSend_streamSend ctx k [] allAccept strm
  rw [appended, if_pos ⟨Nat.zero_le _, rfl⟩]
  intro nothing
  have target : (strm, true) ∈ targets (ctx.reliable k).peer (ctx.reliable k).self allAccept :=
    List.mem_append_right _ (List.mem_map.2 ⟨strm, Option.mem_toList.2 held, rfl⟩)
  have empty := List.flatMap_eq_nil_iff.1 nothing _ target
  rw [if_pos ⟨rfl, rfl⟩] at empty
  exact framing.frame_ne_nil [] empty

namespace Streams

variable {s t : Streams} {slot : Slot}

/-- A payload sent on channel `k` is handed to `OnReliableReceive[k]` only. -/
def ChannelIdentity (s : Streams) : Prop :=
  ∀ (k : Nat) (data : List UInt8) (env : SendEnv) (strm : Hquic) (id : Nat),
    acceptedOn strm (reliablePacketSend (some s.ctx) k data env).2 ≠ [] → s.ids strm = some id →
      ComesOutOf id k

/-- The two ways to say it agree. -/
theorem channelIdentity_iff_selfIds (filed : s.Filed) : s.ChannelIdentity ↔ s.SelfIds := by
  have rank : ∀ {n : Nat}, n < 4 → receiveIndex (clientBidiStreamId n) = n := by
    intro n small
    have index : receiveIndex (clientBidiStreamId n) = n % 2 ^ 32 :=
      congrArg (· % 2 ^ 32) (startedIndex_clientBidiStreamId n)
    omega
  constructor
  · intro identity k strm id ours given
    obtain ⟨n, small, rfl⟩ := filed.ours k strm id ours given
    have comes := identity k [] allAccept strm _ (accepted_self ours) given
    rw [comesOutOf_iff (by rwa [rank small]), rank small] at comes
    rw [comes]
  · intro selfIds k data env strm id accepted given
    obtain ⟨i, rfl, ours | theirs⟩ := held_of_accepted accepted
    · rw [selfIds i strm id ours given, comesOutOf_iff (by rw [rank i.isLt]; exact i.isLt)]
      exact rank i.isLt
    · have index := filed.theirs i strm id theirs given
      have received : receiveIndex id = i := by
        rw [receiveIndex, ← startedIndex, index]
        exact Nat.mod_eq_of_lt (i.isLt.trans (by decide))
      rwa [comesOutOf_iff (by rw [received]; exact i.isLt)]

/-- **Channels keep their identity exactly as long as streams are started in order**: every payload
comes out of the channel it was sent on, and every stream of our own has the id of its channel, in every
state of a run, if and only if no `StartClient` of the run starts a stream after one that failed. -/
theorem channelIdentity_iff {labels : List StreamsLabel}
    (run : exec (step slot) {} labels = some t) :
    (Always (step slot) ChannelIdentity {} labels ↔
        EveryStep (step slot) InOrder {} labels) ∧
      (Always (step slot) SelfIds {} labels ↔
        EveryStep (step slot) InOrder {} labels) := by
  have filed : Always (step slot) Filed {} labels :=
    always_of_keeps (fun _ _ _ kept taken => filed_step kept taken) labels filed_start
  have exact_ : Always (step slot) (fun s => s.Filed ∧ s.SelfIds) {} labels ↔
      EveryStep (step slot) InOrder {} labels := by
    refine always_iff_everyStep_of_run ?_ run ⟨filed_start, fun _ _ _ holds => by cases holds⟩
    rintro s l t ⟨kept, selfIds⟩ taken
    rw [inOrder_iff kept selfIds taken]
    exact ⟨fun holds => ⟨filed_step kept taken, holds⟩, And.right⟩
  rw [← exact_]
  refine ⟨⟨fun identity => ?_, fun both => ?_⟩, ⟨fun selfIds => ?_, fun both => ?_⟩⟩
  · apply (filed.and identity).mono
    exact fun s ⟨kept, holds⟩ => ⟨kept, (channelIdentity_iff_selfIds kept).1 holds⟩
  · apply both.mono
    exact fun s ⟨kept, holds⟩ => (channelIdentity_iff_selfIds kept).2 holds
  · exact filed.and selfIds
  · exact both.mono fun s => And.right

/-- A handshake whose `StartClient` is granted and gets these streams. -/
def handshake (streams : Fin 4 → Option Hquic) : List StreamsLabel :=
  let remote : Endpoint := ⟨7000, 1⟩
  [⟨.connectTo remote 5000 5001 0, fun _ => true⟩,
    ⟨.receive2nd 6000 6001 remote ⟨some 1, streams, true, some 7, fun _ => true⟩, fun _ => true⟩]

theorem channelIdentity_allOpen :
    (Always (step 0) ChannelIdentity {} (handshake fun i => some (10 + i)) ↔
        EveryStep (step 0) InOrder {} (handshake fun i => some (10 + i))) ∧
      (Always (step 0) SelfIds {} (handshake fun i => some (10 + i)) ↔
        EveryStep (step 0) InOrder {} (handshake fun i => some (10 + i))) := by
  apply channelIdentity_iff
  rfl

/-- The first stream fails to open. -/
def firstFails (i : Fin 4) : Option Hquic := if i = 0 then none else some (10 + i)

/-- **A stream that fails to open shifts the others**: what is sent on channel 1 comes out of
channel 0. -/
theorem failedOpen_shifts :
    (exec (step 0) {} (handshake firstFails)).map (fun s => ((s.ctx.reliable 1).self, s.ids 11)) =
        some (some 11, some 0) ∧
      ¬ Always (step 0) ChannelIdentity {} (handshake firstFails) ∧
      ¬ Always (step 0) SelfIds {} (handshake firstFails) := by
  have last : exec (step 0) {} (handshake firstFails) = some _ := rfl
  refine ⟨by decide, ?_, ?_⟩
  · intro always
    have comes := always.last last 1 [] allAccept 11 0 (by decide) rfl
    have inRange : receiveIndex 0 < 4 := by decide
    exact absurd ((comesOutOf_iff inRange).1 comes) (by decide)
  · intro always
    exact absurd (always.last last 1 11 0 rfl rfl) (by decide)

end Streams

end Koisyn.Session
