/-
# Koisyn.Session.ConnectionHandles — the life of a connection handle

A connection is shut down (`ConnectionShutdown`) by the deleter of the last `SharedConnection` that holds
it, and closed (`ConnectionClose`) at the end of the handler of `SHUTDOWN_COMPLETE`.  That handler clears
the context's own `SharedConnection` first, but an `UnreliablePacketSend` makes copies for itself, and it
holds no lock.

`Holders` is the session with the sends that are under way, and a record of every call of MsQuic on a
connection.  In every run the deleter of a connection runs exactly once, when nobody holds it any more
(`connection_let_go_once`).  `closed_connection_unused_iff` is exact: in a run whose sends have finished,
nothing was called on a closed connection if and only if no send had a copy of a connection when its
`SHUTDOWN_COMPLETE` came.  `lateDatagram_uses_closed` is a run in which one had.
-/
import Koisyn.Session.Calls
import Koisyn.Session.ConnectionLedger
import Koisyn.Session.StreamHandles
import Koisyn.Theory.SharedOwner

namespace Koisyn.Session

open Koisyn.Channel
open Koisyn.Theory.Run
open Koisyn.Theory.SharedOwner

set_option autoImplicit false

/-! ## The machine -/

/-- A call on a connection: the deleter's `ConnectionShutdown`, `ConnectionClose`, or any other. -/
inductive ConnectionCall where
  | use (conn : Hquic)
  | shutdown (conn : Hquic)
  | close (conn : Hquic)
  deriving DecidableEq, Repr

def ConnectionCall.conn : ConnectionCall → Hquic
  | .use conn | .shutdown conn | .close conn => conn

/-- No call on a connection comes after its `ConnectionClose`. -/
def NothingOnClosed (trace : List ConnectionCall) : Prop :=
  trace.Pairwise fun earlier later => earlier ≠ .close later.conn

instance (trace : List ConnectionCall) : Decidable (NothingOnClosed trace) :=
  inferInstanceAs (Decidable (List.Pairwise _ _))

/-- Where an `UnreliablePacketSend` is that has passed its guards: the next thing it does. -/
inductive DatagramPoint where
  /-- copies the `SharedConnection` in `Peer` -/
  | copyingPeer (slot : Slot)
  /-- copies the one in `Self` -/
  | copyingSelf (slot : Slot)
  /-- calls `DatagramSend` on the connections that are left -/
  | sending (todo : List Hquic)
  /-- destroys its copies -/
  | releasing
  deriving DecidableEq, Repr

/-- A send that is under way, with its copies, the one that is destroyed first in front. -/
structure DatagramSending where
  copies : List Hquic
  point : DatagramPoint
  deriving DecidableEq, Repr

structure Holders where
  world : World := {}
  sends : List DatagramSending := []
  trace : List ConnectionCall := []

inductive HoldersLabel where
  | world (l : Label)
  | unreliablePacketSend (slot : Slot) (data : List UInt8) (allocated : Bool)
  | advance (send : Nat)

/-- What a call is on a connection, while others have these copies: a `SharedConnection` that goes is
the last one only if there is no copy. -/
def connectionCall (copies : List Hquic) : Call → Option ConnectionCall
  | .connectionShutdown conn => if conn ∈ copies then none else some (.shutdown conn)
  | .connectionClose conn => some (.close conn)
  | call => (connectionOf call).map .use

def connectionCalls (copies : List Hquic) (calls : List Call) : List ConnectionCall :=
  calls.filterMap (connectionCall copies)

/-- The context once a send has taken its packet number. -/
def numbered (ctx : ConnectionContext) : ConnectionContext :=
  { ctx with unreliable := { ctx.unreliable with
      nextSendPacket := ctx.unreliable.nextSendPacket + 1 } }

def World.numbered (w : World) (slot : Slot) : World :=
  { w with contexts := Function.update w.contexts slot (Session.numbered (w.contexts slot)) }

namespace Holders

variable (s : Holders)

/-- The copies that the sends under way have. -/
def copies : List Hquic := s.sends.flatMap (·.copies)

/-- The number of `SharedConnection`s that hold a connection. -/
def owners (conn : Hquic) : Nat := s.world.owners conn + s.copies.count conn

/-- A send goes on. -/
def put (k : Nat) (send : DatagramSending) : Holders := { s with sends := s.sends.set k send }

def note (call : ConnectionCall) : Holders := { s with trace := s.trace ++ [call] }

/-- The deleter runs if nothing holds the connection any more. -/
def drop (conn : Hquic) : Holders := if s.owners conn = 0 then s.note (.shutdown conn) else s

/-- One step of a send. -/
def advance (k : Nat) (send : DatagramSending) : Option Holders :=
  match send.point with
  | .copyingPeer slot =>
      let peer := (s.world.contexts slot).unreliable.peer.toList
      some (s.put k ⟨peer ++ send.copies, .copyingSelf slot⟩)
  | .copyingSelf slot =>
      let self := (s.world.contexts slot).unreliable.self.toList
      some (s.put k ⟨self ++ send.copies, .sending (send.copies ++ self)⟩)
  | .sending [] => some (s.put k { send with point := .releasing })
  | .sending (conn :: todo) =>
      some ((s.put k { send with point := .sending todo }).note (.use conn))
  | .releasing =>
      match send.copies with
      | [] => none
      | conn :: rest => some ((s.put k { send with copies := rest }).drop conn)

/-- One step. -/
def step (L : Listener) (s : Holders) : HoldersLabel → Option Holders
  | .world l =>
      (s.world.step L l).map fun t =>
        { s with world := t, trace := s.trace ++ connectionCalls s.copies (s.world.callsOf L l) }
  | .unreliablePacketSend slot data allocated =>
      if data.length > (s.world.contexts slot).unreliable.maxSendLength.toNat then some s
      else
        let numbered := { s with world := s.world.numbered slot }
        if allocated then some { numbered with sends := s.sends ++ [⟨[], .copyingPeer slot⟩] }
        else some numbered
  | .advance k => s.sends[k]?.bind (s.advance k)

/-! ## The copies -/

variable {s}

theorem note_trace (call : ConnectionCall) : (s.note call).trace = s.trace ++ [call] := rfl

/-- Replacing one list of copies. -/
theorem count_flatMap_set {l : List DatagramSending} {k : Nat} {before : DatagramSending}
    (present : l[k]? = some before) (send : DatagramSending) (conn : Hquic) :
    ((l.set k send).flatMap (·.copies)).count conn + before.copies.count conn =
      (l.flatMap (·.copies)).count conn + send.copies.count conn := by
  induction l generalizing k with
  | nil => simp at present
  | cons first rest ih =>
      cases k with
      | zero =>
          obtain rfl : first = before := by simpa using present
          simp only [List.set_cons_zero, List.flatMap_cons, List.count_append]
          omega
      | succ k =>
          have replaced := ih (by simpa using present)
          simp only [List.set_cons_succ, List.flatMap_cons, List.count_append]
          omega

theorem owners_put {k : Nat} {before : DatagramSending} (present : s.sends[k]? = some before)
    (send : DatagramSending) (conn : Hquic) :
    (s.put k send).owners conn + before.copies.count conn =
      s.owners conn + send.copies.count conn := by
  have counted := count_flatMap_set present send conn
  have same : (s.put k send).world.owners conn = s.world.owners conn := rfl
  have put : (s.put k send).copies = (s.sends.set k send).flatMap (·.copies) := rfl
  have copies : s.copies = s.sends.flatMap (·.copies) := rfl
  rw [owners, owners, same, put, copies]
  omega

theorem copied_of_mem {k : Nat} {send : DatagramSending} (present : s.sends[k]? = some send)
    {conn : Hquic} (member : conn ∈ send.copies) : conn ∈ s.copies :=
  List.mem_flatMap.2 ⟨send, List.mem_of_getElem? present, member⟩

theorem owned_of_copied {conn : Hquic} (copied : conn ∈ s.copies) : 0 < s.owners conn :=
  Nat.add_pos_right _ (List.count_pos_iff.2 copied)

/-! ## The calls of an activation -/

section Calls

variable {copies : List Hquic} {calls : List Call} {conn : Hquic}

/-- A call that is not the deleter's lets nothing go. -/
theorem count_connectionCall (call : Call) : (connectionCall copies call).toList.count (.shutdown conn) =
    if conn ∈ copies then 0 else lettings conn [call] := by
  cases call with
  | connectionShutdown other =>
      by_cases same : other = conn
      · subst same
        by_cases copied : other ∈ copies <;> simp [connectionCall, lettings, copied]
      · by_cases copied : other ∈ copies <;> simp [connectionCall, lettings, copied, same]
  | _ => simp [connectionCall, connectionOf, lettings]

/-- The deleter of a connection runs for each that is let go, if there is no copy. -/
theorem count_shutdown : (connectionCalls copies calls).count (.shutdown conn) =
    if conn ∈ copies then 0 else lettings conn calls := by
  induction calls with
  | nil => simp [connectionCalls]
  | cons call calls ih =>
      have first : connectionCalls copies (call :: calls) =
          (connectionCall copies call).toList ++ connectionCalls copies calls := by
        cases named : connectionCall copies call <;> simp [connectionCalls, named]
      have sum : lettings conn ([call] ++ calls) = lettings conn [call] + lettings conn calls :=
        lettings_append
      rw [List.singleton_append] at sum
      rw [first, List.count_append, ih, count_connectionCall, sum]
      split <;> rfl

/-- Every call on a connection comes from one that names it. -/
theorem connections_of_mem {call : ConnectionCall} (member : call ∈ connectionCalls copies calls) :
    call.conn ∈ connections calls := by
  obtain ⟨made, present, noted⟩ := List.mem_filterMap.1 member
  refine List.mem_filterMap.2 ⟨made, present, ?_⟩
  cases made with
  | connectionShutdown other =>
      simp only [connectionCall] at noted
      split at noted
      · cases noted
      · cases noted
        rfl
  | connectionClose other =>
      cases noted
      rfl
  | _ =>
      simp only [connectionCall] at noted
      obtain ⟨_, named, rfl⟩ := Option.map_eq_some_iff.1 noted
      exact named

theorem close_of_mem (member : .close conn ∈ connectionCalls copies calls) :
    .connectionClose conn ∈ calls := by
  obtain ⟨made, present, noted⟩ := List.mem_filterMap.1 member
  cases made with
  | connectionShutdown other =>
      simp only [connectionCall] at noted
      split at noted <;> cases noted
  | connectionClose other =>
      cases noted
      exact present
  | _ =>
      simp only [connectionCall] at noted
      obtain ⟨_, -, differ⟩ := Option.map_eq_some_iff.1 noted
      cases differ

end Calls

/-- What any activation may do closes nothing. -/
theorem close_not_mem {calls : List Call} (makes : Activation.disconnect.MakesAll calls)
    (conn : Hquic) : .connectionClose conn ∉ calls := by
  intro member
  obtain ⟨_, _, same⟩ := makes _ member
  cases same

/-- The handler of `SHUTDOWN_COMPLETE` closes its connection last, and no other. -/
theorem calls_shutdownComplete (slot : Slot) (ctx : ConnectionContext) (conn : Hquic)
    (isClient : Bool) (alive : ObjectId → Bool) :
    ∃ before, (shutdownComplete slot ctx conn isClient alive).2 = before ++ [.connectionClose conn] ∧
      ∀ other, .connectionClose other ∉ before := by
  have cleared := close_not_mem (clearSide_makes ctx isClient)
  unfold shutdownComplete
  dsimp only
  split
  · refine ⟨_, rfl, ?_⟩
    intro other member
    rcases List.mem_append.1 member with side | rest
    · exact cleared other side
    · rcases List.mem_cons.1 rest with same | reset
      · cases same
      · exact close_not_mem (makesAll_resetCalls slot _) other reset
  · exact ⟨_, rfl, cleared⟩

/-- A call on a connection, other than its close, is on one that is held, or that is new. -/
theorem held_or_new {L : Listener} {w : World} {l : Label} {slot : Slot} {act : Activation}
    (route : w.route L l = some (some (slot, act))) {made : Call}
    (member : made ∈ (act.run slot (w.contexts slot)).calls) {conn : Hquic}
    (named : connectionOf made = some conn) (noClose : made ≠ .connectionClose conn) :
    0 < w.owners conn ∨ w.conns.length ≤ conn := by
  by_cases held : 0 < seats (w.contexts slot).unreliable conn
  · exact .inl (held.trans_le (World.seats_le_owners slot conn))
  · have unheld : Unheld (w.contexts slot) conn := unheld_iff.2 (Nat.eq_zero_of_not_pos held)
    have called : conn ∈ connections (act.run slot (w.contexts slot)).calls :=
      List.mem_filterMap.2 ⟨made, member, named⟩
    have brings : act.Brings conn := by_contra fun others => (run_silent unheld slot others).silent called
    refine .inr ?_
    cases World.routed_of_route route with
    | @receive2nd _ _ _ _ _ start =>
        have opens : (w.startEnv start).connection = some conn := brings
        exact (World.next_of_startEnv opens).le
    | @receive3rd _ _ _ _ _ start =>
        have opens : (w.startEnv start).connection = some conn := brings
        exact (World.next_of_startEnv opens).le
    | newConnection =>
        have same : w.conns.length = conn := brings
        exact same.le
    | @shutdownComplete h alive c isOpen =>
        obtain rfl : h = conn := brings
        -- the handler lets go what the context holds, and makes no other call but the close
        have balance := (w.run_seats c.slot (.shutdownComplete h c.isClient alive)).balance h
        have none_ : seats (w.contexts c.slot).unreliable h = 0 := Nat.eq_zero_of_not_pos held
        have kept : lettings h
            ((Activation.shutdownComplete h c.isClient alive).run c.slot (w.contexts c.slot)).calls = 0 := by
          rw [none_, show w.newConn c.slot (.shutdownComplete h c.isClient alive) = none from rfl] at balance
          simp at balance
          omega
        have makes := run_makes c.slot (w.contexts c.slot) _ made member
        cases made with
        | connectionShutdown other =>
            cases named
            exact absurd member (List.count_eq_zero.1 kept)
        | connectionClose other =>
            cases named
            exact absurd rfl noClose
        | setLocalAddress => exact absurd makes id
        | connectionStart => exact absurd makes id
        | connectionSetCallbackHandler =>
            obtain ⟨_, same⟩ := makes
            cases same
        | connectionSetConfiguration =>
            obtain ⟨_, same⟩ := makes
            cases same
        | datagramSend =>
            obtain ⟨_, _, same⟩ := makes
            cases same
        | _ => cases named
    | _ => exact absurd brings id

/-! ## The books -/

/-- **What every run keeps.** -/
structure Books (s : Holders) : Prop where
  seated : s.world.Seated
  single : ∀ conn, s.world.owners conn ≤ 1
  settled : ∀ conn, Settled (conn < s.world.conns.length) (s.owners conn)
    (s.trace.count (.shutdown conn))
  todo : ∀ send ∈ s.sends, ∀ todo, send.point = .sending todo → ∀ conn ∈ todo, conn ∈ send.copies
  closed : ∀ conn, .close conn ∈ s.trace →
    s.world.owners conn = 0 ∧ ∃ c, s.world.conns[conn]? = some c ∧ c.closed = true
  closes : ∀ conn, s.trace.count (.close conn) ≤ 1

theorem books_start : Books {} where
  seated := World.seated_start
  single conn := by simp [World.owners, seats]
  settled conn := by
    have none_ : ({} : Holders).owners conn = 0 := by simp [owners, World.owners, seats, copies]
    rw [none_]
    exact settled_unmade (Nat.not_lt_zero conn)
  todo _ member := absurd member List.not_mem_nil
  closed _ member := absurd member List.not_mem_nil
  closes _ := Nat.zero_le 1

/-- Calls that close nothing, on connections that are owned or new. -/
def Allowed (s : Holders) (news : List ConnectionCall) : Prop :=
  ∀ call ∈ news, (∀ conn, call ≠ .close conn) ∧
    (0 < s.owners call.conn ∨ s.world.conns.length ≤ call.conn)

/-- The calls on record, and new ones that the books allow. -/
def Grows (s t : Holders) : Prop := ∃ news, t.trace = s.trace ++ news ∧ s.Allowed news

/-- The calls on record, new ones that the books allow, and the close of a connection. -/
def Closes (s t : Holders) (conn : Hquic) : Prop :=
  ∃ news, t.trace = s.trace ++ (news ++ [.close conn]) ∧ s.Allowed news ∧ .close conn ∉ s.trace

theorem grows_self {t : Holders} (same : t.trace = s.trace) : Grows s t :=
  ⟨[], by rw [same, List.append_nil], fun _ member => absurd member List.not_mem_nil⟩

theorem grows_note {t : Holders} {call : ConnectionCall} (same : t.trace = s.trace)
    (noClose : ∀ conn, call ≠ .close conn) (owned : 0 < s.owners call.conn) : Grows s (t.note call) := by
  refine ⟨[call], by rw [note, same], ?_⟩
  intro other member
  rw [List.mem_singleton.1 member]
  exact ⟨noClose, .inl owned⟩

/-- What a step leaves of the closed connections. -/
theorem Grows.close_iff {t : Holders} (grows : Grows s t) (conn : Hquic) :
    .close conn ∈ t.trace ↔ .close conn ∈ s.trace := by
  obtain ⟨news, trace, allowed⟩ := grows
  rw [trace, List.mem_append]
  exact or_iff_left fun now => (allowed _ now).1 conn rfl

/-! ## Sends -/

/-- A send has gone on, and owns what it owned or more of what is owned. -/
theorem Books.put (books : s.Books) {k : Nat} {before : DatagramSending}
    (present : s.sends[k]? = some before) {more : List Hquic} {point : DatagramPoint}
    (held : ∀ conn ∈ more, 0 < s.owners conn)
    (todo : ∀ todo, point = .sending todo → ∀ conn ∈ todo, conn ∈ more ++ before.copies) :
    (s.put k ⟨more ++ before.copies, point⟩).Books where
  seated := books.seated
  single := books.single
  settled conn := by
    have counted := owners_put present ⟨more ++ before.copies, point⟩ conn
    rw [List.count_append] at counted
    have grown : (s.put k ⟨more ++ before.copies, point⟩).owners conn =
        s.owners conn + more.count conn := by omega
    rw [grown]
    by_cases copied : conn ∈ more
    · exact (books.settled conn).copy (held conn copied) _
    · rw [List.count_eq_zero.2 copied, Nat.add_zero]
      exact books.settled conn
  todo := by
    intro other member
    rcases List.mem_or_eq_of_mem_set member with old | rfl
    · exact books.todo other old
    · exact todo
  closed := books.closed
  closes := books.closes

theorem Books.note (books : s.Books) (conn : Hquic) : (s.note (.use conn)).Books where
  seated := books.seated
  single := books.single
  settled other := by
    rw [note_trace, List.count_append, List.count_singleton]
    exact books.settled other
  todo := books.todo
  closed other member := by
    rcases List.mem_append.1 member with before | now
    · exact books.closed other before
    · cases List.mem_singleton.1 now
  closes other := by
    rw [note_trace, List.count_append, List.count_singleton]
    exact books.closes other

/-- A send has let a copy go. -/
theorem Books.release (books : s.Books) {k : Nat} {conn : Hquic} {rest : List Hquic}
    (present : s.sends[k]? = some ⟨conn :: rest, .releasing⟩) :
    ((s.put k ⟨rest, .releasing⟩).drop conn).Books := by
  have counted : ∀ other, (s.put k ⟨rest, .releasing⟩).owners other + (conn :: rest).count other =
      s.owners other + rest.count other := owners_put present ⟨rest, .releasing⟩
  have fewer : s.owners conn = (s.put k ⟨rest, .releasing⟩).owners conn + 1 := by
    have same := counted conn
    rw [List.count_cons_self] at same
    omega
  have others : ∀ other, other ≠ conn → (s.put k ⟨rest, .releasing⟩).owners other = s.owners other := by
    intro other differ
    have same := counted other
    rw [List.count_cons_of_ne differ.symm] at same
    omega
  have dropped := books.settled conn
  rw [fewer] at dropped
  have dropped := dropped.drop
  have todo : ∀ other ∈ (s.put k ⟨rest, .releasing⟩).sends, ∀ todo,
      other.point = .sending todo → ∀ conn ∈ todo, conn ∈ other.copies := by
    intro other member
    rcases List.mem_or_eq_of_mem_set member with old | rfl
    · exact books.todo other old
    · exact fun todo point => by cases point
  unfold drop
  split
  · rename_i last
    rw [if_pos last] at dropped
    refine ⟨books.seated, books.single, ?_, todo, ?_, ?_⟩
    · intro other
      show Settled _ ((s.put k ⟨rest, .releasing⟩).owners other) _
      rw [note_trace, List.count_append]
      by_cases same : other = conn
      · subst same
        rw [List.count_singleton_self]
        exact dropped
      · rw [others other same, List.count_singleton]
        simp only [beq_iff_eq, ConnectionCall.shutdown.injEq, Ne.symm same, if_false]
        exact books.settled other
    · intro other member
      rcases List.mem_append.1 member with before | now
      · exact books.closed other before
      · cases List.mem_singleton.1 now
    · intro other
      rw [note_trace, List.count_append, List.count_singleton]
      exact books.closes other
  · rename_i more
    rw [if_neg more] at dropped
    refine ⟨books.seated, books.single, ?_, todo, books.closed, books.closes⟩
    intro other
    by_cases same : other = conn
    · subst same
      exact dropped
    · rw [others other same]
      exact books.settled other

theorem owned_of_seated {slot : Slot} {conn : Hquic}
    (seated : (s.world.contexts slot).unreliable.self = some conn ∨
      (s.world.contexts slot).unreliable.peer = some conn) : 0 < s.owners conn :=
  Nat.add_pos_left ((seats_pos.2 seated).trans_le (World.seats_le_owners slot conn)) _

theorem books_advance (books : s.Books) {k : Nat} {send : DatagramSending} {t : Holders}
    (present : s.sends[k]? = some send) (taken : s.advance k send = some t) :
    t.Books ∧ Grows s t := by
  obtain ⟨copies, point⟩ := send
  cases point with
  | copyingPeer slot =>
      obtain rfl := Option.some.inj taken
      refine ⟨books.put present ?_ (fun todo point => by cases point), grows_self rfl⟩
      exact fun conn member => owned_of_seated (.inr (Option.mem_toList.1 member))
  | copyingSelf slot =>
      obtain rfl := Option.some.inj taken
      refine ⟨books.put present ?_ ?_, grows_self rfl⟩
      · exact fun conn member => owned_of_seated (.inl (Option.mem_toList.1 member))
      · intro todo point conn member
        obtain rfl := DatagramPoint.sending.inj point
        exact List.mem_append.2 (List.mem_append.1 member).symm
  | sending todo =>
      have held := books.todo _ (List.mem_of_getElem? present) todo rfl
      cases todo with
      | nil =>
          obtain rfl := Option.some.inj taken
          refine ⟨?_, grows_self rfl⟩
          have moved : (s.put k ⟨[] ++ copies, .releasing⟩).Books :=
            books.put present (by simp) (by simp)
          exact moved
      | cons conn todo =>
          obtain rfl := Option.some.inj taken
          have owned : 0 < s.owners conn :=
            owned_of_copied (copied_of_mem present (held conn List.mem_cons_self))
          have moved : (s.put k ⟨[] ++ copies, .sending todo⟩).Books := by
            refine books.put present (fun _ member => absurd member List.not_mem_nil) ?_
            intro rest point other member
            obtain rfl := DatagramPoint.sending.inj point
            exact held other (List.mem_cons_of_mem _ member)
          exact ⟨moved.note conn, grows_note rfl (fun _ => nofun) owned⟩
  | releasing =>
      cases copies with
      | nil => cases taken
      | cons conn rest =>
          obtain rfl := Option.some.inj taken
          refine ⟨books.release present, ?_⟩
          unfold drop
          split
          · refine grows_note rfl (fun _ => nofun) (owned_of_copied ?_)
            exact copied_of_mem present List.mem_cons_self
          · exact grows_self rfl

/-! ## The steps of the session -/

theorem numbered_sides (w : World) (slot i : Slot) :
    ((w.numbered slot).contexts i).unreliable.self = (w.contexts i).unreliable.self ∧
      ((w.numbered slot).contexts i).unreliable.peer = (w.contexts i).unreliable.peer := by
  have contexts : (w.numbered slot).contexts i = if i = slot then Session.numbered (w.contexts i)
      else w.contexts i := by
    by_cases here : i = slot
    · subst here
      rw [if_pos rfl]
      exact Function.update_self _ _ _
    · rw [if_neg here]
      exact Function.update_of_ne here _ _
  rw [contexts]
  split <;> exact ⟨rfl, rfl⟩

theorem owners_numbered (w : World) (slot : Slot) (conn : Hquic) :
    (w.numbered slot).owners conn = w.owners conn := by
  refine Finset.sum_congr rfl fun i _ => ?_
  rw [seats, seats, (numbered_sides w slot i).1, (numbered_sides w slot i).2]

/-- Taking a number moves no handle. -/
theorem Books.numbered (books : s.Books) (slot : Slot) :
    ({ s with world := s.world.numbered slot } : Holders).Books where
  seated := by
    refine ⟨fun i conn held => ?_, fun i conn held => ?_⟩
    · exact books.seated.self i conn ((numbered_sides s.world slot i).1 ▸ held)
    · exact books.seated.peer i conn ((numbered_sides s.world slot i).2 ▸ held)
  single conn := by
    rw [owners_numbered]
    exact books.single conn
  settled conn := by
    have same : ({ s with world := s.world.numbered slot } : Holders).owners conn = s.owners conn :=
      congrArg (· + s.copies.count conn) (owners_numbered s.world slot conn)
    rw [same]
    exact books.settled conn
  todo := books.todo
  closed conn member := by
    rw [owners_numbered]
    exact books.closed conn member
  closes := books.closes

/-- A send without copies has begun. -/
theorem Books.begin_ (books : s.Books) (slot : Slot) :
    ({ s with sends := s.sends ++ [⟨[], .copyingPeer slot⟩] } : Holders).Books where
  seated := books.seated
  single := books.single
  settled conn := by
    have same : ({ s with sends := s.sends ++ [⟨[], .copyingPeer slot⟩] } : Holders).owners conn =
        s.owners conn := by simp [owners, copies]
    rw [same]
    exact books.settled conn
  todo send member := by
    rcases List.mem_append.1 member with old | now
    · exact books.todo send old
    · rw [List.mem_singleton.1 now]
      exact fun todo point => by cases point
  closed := books.closed
  closes := books.closes

section Activation

variable {L : Listener} {l : Label} {slot : Slot} {act : Activation}

/-- The new calls that an activation puts on record. -/
def newCalls (s : Holders) (slot : Slot) (act : Activation) : List ConnectionCall :=
  connectionCalls s.copies (act.run slot (s.world.contexts slot)).calls

/-- Calls of an activation that close nothing are allowed. -/
theorem allowed_of_route (route : s.world.route L l = some (some (slot, act))) {calls : List Call}
    (made : ∀ call ∈ calls, call ∈ (act.run slot (s.world.contexts slot)).calls)
    (noClose : ∀ conn, .connectionClose conn ∉ calls) : s.Allowed (connectionCalls s.copies calls) := by
  intro call member
  obtain ⟨origin, present, named⟩ := List.mem_filterMap.1 (connections_of_mem member)
  refine ⟨?_, ?_⟩
  · rintro conn rfl
    exact noClose conn (close_of_mem member)
  · have differ : origin ≠ .connectionClose call.conn := by
      rintro rfl
      exact noClose _ present
    exact (held_or_new route (made origin present) named differ).imp_left fun owned =>
      Nat.add_pos_left owned _

/-- **What an activation puts on record**: calls that the books allow, and the close of its connection
at the end of `SHUTDOWN_COMPLETE`. -/
theorem noted_of_route (books : s.Books) (route : s.world.route L l = some (some (slot, act)))
    {t : Holders} (trace : t.trace = s.trace ++ s.newCalls slot act) :
    Grows s t ∨ ∃ conn alive c, l = .shutdownComplete conn alive ∧ s.world.openConn conn = some c ∧
      slot = c.slot ∧ act = .shutdownComplete conn c.isClient alive ∧ Closes s t conn := by
  by_cases isShutdown : ∃ conn isClient alive, act = .shutdownComplete conn isClient alive
  · obtain ⟨conn, isClient, alive, rfl⟩ := isShutdown
    cases World.routed_of_route route with
    | @shutdownComplete _ _ c isOpen =>
        refine .inr ⟨conn, alive, c, rfl, isOpen, rfl, rfl, ?_⟩
        obtain ⟨before, whole, noClose⟩ :=
          calls_shutdownComplete c.slot (s.world.contexts c.slot) conn c.isClient alive
        have calls : ((Activation.shutdownComplete conn c.isClient alive).run c.slot
            (s.world.contexts c.slot)).calls = before ++ [.connectionClose conn] := whole
        refine ⟨connectionCalls s.copies before, ?_, allowed_of_route route ?_ noClose, ?_⟩
        · rw [trace, newCalls, calls, connectionCalls, List.filterMap_append]
          rfl
        · intro call member
          rw [calls]
          exact List.mem_append_left _ member
        · intro again
          obtain ⟨-, d, present, closed⟩ := books.closed conn again
          obtain ⟨same, raises⟩ := World.openConn_some.1 isOpen
          rw [present] at same
          cases same
          rw [(Conn.isOpen_iff.1 raises).1] at closed
          cases closed
  · refine .inl ⟨_, trace, allowed_of_route route (fun _ => id) ?_⟩
    intro conn member
    obtain ⟨isClient, alive, same⟩ := run_makes slot (s.world.contexts slot) act _ member
    exact isShutdown ⟨conn, isClient, alive, same⟩

/-- The account of a connection after an activation. -/
theorem settled_after (books : s.Books) (route : s.world.route L l = some (some (slot, act)))
    (conn : Hquic) :
    Settled (conn < (s.world.after slot act).conns.length)
      ((s.world.after slot act).owners conn + s.copies.count conn)
      ((s.trace ++ s.newCalls slot act).count (.shutdown conn)) ∧
      (s.world.after slot act).owners conn ≤ 1 := by
  have balance := s.world.owners_after slot act conn
  have unowned : s.world.conns.length = conn → s.world.owners conn = 0 := by
    rintro rfl
    by_contra owned
    exact Nat.lt_irrefl _ ((books.settled _).known (Nat.add_pos_left (Nat.pos_of_ne_zero owned) _))
  have single := books.single conn
  obtain ⟨grows, isNew⟩ : (conn < (s.world.after slot act).conns.length ↔
      conn < s.world.conns.length ∨
        0 < if (s.world.newConn slot act).map (·.1) = some conn then 1 else 0) ∧
      ((0 < if (s.world.newConn slot act).map (·.1) = some conn then 1 else 0) →
        s.world.conns.length = conn) := by
    rcases World.newConn_of_route route with ⟨nothing, length⟩ | ⟨c, next, -, -, length, -⟩
    · rw [nothing, length]
      simp
    · rw [next, length]
      simp only [Option.map_some, Option.some.injEq]
      by_cases same : s.world.conns.length = conn
      · simp [same]
      · have inside : conn < s.world.conns.length + 1 ↔ conn < s.world.conns.length :=
          Nat.lt_succ_iff_lt_or_eq.trans (or_iff_left (Ne.symm same))
        simp [same, inside]
  have atMost : s.world.owners conn +
      (if (s.world.newConn slot act).map (·.1) = some conn then 1 else 0) ≤ 1 := by
    split
    · rename_i new
      rw [unowned (isNew (by rw [if_pos new]; exact Nat.one_pos))]
    · omega
  have exchanged := (books.settled conn).exchange balance atMost grows fun positive old =>
    Nat.ne_of_gt old (isNew positive)
  refine ⟨?_, by omega⟩
  rw [List.count_append, newCalls, count_shutdown]
  by_cases copied : conn ∈ s.copies
  · rw [if_neg (Nat.ne_of_gt (List.count_pos_iff.2 copied))] at exchanged
    rw [if_pos copied]
    exact exchanged
  · rw [if_pos (List.count_eq_zero.2 copied)] at exchanged
    rw [if_neg copied]
    exact exchanged

/-- **The step rule of an activation.** -/
theorem books_after (books : s.Books) (route : s.world.route L l = some (some (slot, act)))
    {t : Holders} (world : t.world = s.world.after slot act) (sends : t.sends = s.sends)
    (trace : t.trace = s.trace ++ s.newCalls slot act) :
    t.Books ∧ (Grows s t ∨ ∃ conn alive, l = .shutdownComplete conn alive ∧ Closes s t conn) := by
  have copies : t.copies = s.copies := by rw [Holders.copies, sends, Holders.copies]
  -- a connection that was closed before stays so
  have stays : ∀ conn, .close conn ∈ s.trace →
      t.world.owners conn = 0 ∧ ∃ c, t.world.conns[conn]? = some c ∧ c.closed = true := by
    intro conn before
    obtain ⟨unowned, d, present, closed⟩ := books.closed conn before
    obtain ⟨c, kept, -, -, still⟩ := World.connsAfter_follows slot act present
    have balance := s.world.owners_after slot act conn
    have old : ¬ (s.world.newConn slot act).map (·.1) = some conn := by
      have inside := (List.getElem?_eq_some_iff.1 present).1
      rcases World.newConn_of_route route with ⟨nothing, -⟩ | ⟨c, next, -⟩
      · simp [nothing]
      · rw [next]
        simp only [Option.map_some, Option.some.injEq]
        exact Nat.ne_of_gt inside
    rw [if_neg old] at balance
    rw [world]
    exact ⟨by omega, c, kept, still closed⟩
  have noted := noted_of_route books route trace
  refine ⟨⟨?_, ?_, ?_, ?_, ?_, ?_⟩, ?_⟩
  · rw [world]
    exact World.seated_after books.seated route
  · intro conn
    rw [world]
    exact (settled_after books route conn).2
  · intro conn
    rw [owners, world, copies, trace]
    exact (settled_after books route conn).1
  · rw [sends]
    exact books.todo
  · intro conn member
    rcases noted with grows | ⟨h, alive, c, -, isOpen, rfl, rfl, news, whole, allowed, -⟩
    · exact stays conn ((grows.close_iff conn).1 member)
    · rw [whole] at member
      rcases List.mem_append.1 member with before | now
      · exact stays conn before
      · rcases List.mem_append.1 now with now | last
        · exact absurd rfl ((allowed _ now).1 conn)
        · obtain rfl : conn = h := by simpa using last
          rw [world]
          obtain ⟨present, -⟩ := World.openConn_some.1 isOpen
          obtain ⟨d, kept, -⟩ := World.connsAfter_follows c.slot
            (.shutdownComplete conn c.isClient alive) present
          refine ⟨World.owners_eq_zero.2 ?_, d, kept, World.closed_after_shutdown _ _ _ kept⟩
          exact World.unheld_after_shutdown books.seated present alive
  · intro conn
    rcases noted with ⟨news, whole, allowed⟩ | ⟨h, alive, c, -, -, -, -, news, whole, allowed, unclosed⟩
    · rw [whole, List.count_append, List.count_eq_zero.2 fun now => (allowed _ now).1 conn rfl]
      exact books.closes conn
    · rw [whole, List.count_append, List.count_append,
        List.count_eq_zero.2 fun now => (allowed _ now).1 conn rfl]
      by_cases same : h = conn
      · subst same
        rw [List.count_eq_zero.2 unclosed, List.count_singleton_self]
      · have closes := books.closes conn
        simpa [List.count_singleton, same] using closes
  · rcases noted with grows | ⟨h, alive, c, same, -, -, -, closes⟩
    · exact .inl grows
    · exact .inr ⟨h, alive, same, closes⟩

end Activation

/-- **The step rule.**  Every step keeps the books, and what it notes is allowed; a connection is closed
by its `SHUTDOWN_COMPLETE`, which copies nothing. -/
theorem books_step {L : Listener} (books : s.Books) {l : HoldersLabel} {t : Holders}
    (taken : step L s l = some t) :
    t.Books ∧ (Grows s t ∨ ∃ conn alive, l = .world (.shutdownComplete conn alive) ∧
      t.copies = s.copies ∧ Closes s t conn) := by
  cases l with
  | world l =>
      obtain ⟨w', moved, rfl⟩ := Option.map_eq_some_iff.1 taken
      rcases World.step_cases moved with ⟨route, rfl⟩ | ⟨slot, act, route, -, rfl⟩
      · have silent : connectionCalls s.copies (s.world.callsOf L l) = [] := by
          rw [World.callsOf, route]
          rfl
        rw [silent, List.append_nil]
        exact ⟨books, .inl (grows_self rfl)⟩
      · have calls : connectionCalls s.copies (s.world.callsOf L l) = s.newCalls slot act := by
          rw [World.callsOf, route]
          rfl
        rw [calls]
        let t : Holders := ⟨s.world.after slot act, s.sends, s.trace ++ s.newCalls slot act⟩
        obtain ⟨kept, noted⟩ := books_after (t := t) books route rfl rfl rfl
        refine ⟨kept, noted.imp_right ?_⟩
        rintro ⟨conn, alive, rfl, closes⟩
        exact ⟨conn, alive, rfl, rfl, closes⟩
  | unreliablePacketSend slot data allocated =>
      simp only [step] at taken
      split at taken
      · obtain rfl := Option.some.inj taken
        exact ⟨books, .inl (grows_self rfl)⟩
      · split at taken
        · obtain rfl := Option.some.inj taken
          exact ⟨(books.numbered slot).begin_ slot, .inl (grows_self rfl)⟩
        · obtain rfl := Option.some.inj taken
          exact ⟨books.numbered slot, .inl (grows_self rfl)⟩
  | advance k =>
      obtain ⟨send, present, moved⟩ := Option.bind_eq_some_iff.1 taken
      exact (books_advance books present moved).imp_right .inl

/-! ## Runs -/

/-- The record only grows. -/
theorem trace_step {L : Listener} (books : s.Books) {l : HoldersLabel} {t : Holders}
    (taken : step L s l = some t) : s.trace <+: t.trace := by
  rcases (books_step books taken).2 with ⟨news, trace, -⟩ | ⟨_, _, -, -, news, trace, -⟩ <;>
    exact ⟨_, trace.symm⟩

/-- A `SHUTDOWN_COMPLETE` comes when no send has a copy of its connection. -/
def ClosesUncopied (s : Holders) : HoldersLabel → Prop
  | .world (.shutdownComplete conn _) => conn ∉ s.copies
  | _ => True

/-- What a run keeps whose connections are closed when nobody has a copy. -/
structure Orderly (s : Holders) : Prop where
  books : s.Books
  unowned : ∀ conn, .close conn ∈ s.trace → s.owners conn = 0
  safe : NothingOnClosed s.trace

/-- Nobody gets hold of a closed connection again. -/
theorem Orderly.stays {t : Holders} (orderly : s.Orderly) (books : t.Books)
    (grows : s.trace <+: t.trace) (conn : Hquic) (closed : .close conn ∈ s.trace) :
    t.owners conn = 0 := by
  have unowned := orderly.unowned conn closed
  obtain ⟨-, c, present, -⟩ := orderly.books.closed conn closed
  have gone := (orderly.books.settled conn).gone.2 ⟨(List.getElem?_eq_some_iff.1 present).1, unowned⟩
  by_contra owned
  have unspent := (books.settled conn).unspent (Nat.pos_of_ne_zero owned)
  have more := grows.sublist.count_le (.shutdown conn)
  omega

/-- A call that the books allow is on no closed connection. -/
theorem Orderly.differ (orderly : s.Orderly) {news : List ConnectionCall} (allowed : s.Allowed news) :
    ∀ earlier ∈ s.trace, ∀ later ∈ news, earlier ≠ .close later.conn := by
  rintro earlier old later now rfl
  rcases (allowed later now).2 with owned | isNew
  · exact Nat.ne_of_gt owned (orderly.unowned _ old)
  · obtain ⟨-, c, present, -⟩ := orderly.books.closed _ old
    exact absurd (List.getElem?_eq_some_iff.1 present).1 (Nat.not_lt.2 isNew)

theorem Allowed.safe {news : List ConnectionCall} (allowed : s.Allowed news) : NothingOnClosed news :=
  List.pairwise_of_forall_mem_list fun earlier member later _ => (allowed earlier member).1 later.conn

theorem orderly_step {L : Listener} (orderly : s.Orderly) {l : HoldersLabel}
    (meets : s.ClosesUncopied l) {t : Holders} (taken : step L s l = some t) : t.Orderly := by
  obtain ⟨books, noted⟩ := books_step orderly.books taken
  have stays := orderly.stays books (trace_step orderly.books taken)
  rcases noted with grows | ⟨conn, alive, rfl, copies, news, trace, allowed, unclosed⟩
  · refine ⟨books, fun conn member => stays conn ((grows.close_iff conn).1 member), ?_⟩
    obtain ⟨news, trace, allowed⟩ := grows
    rw [trace]
    exact List.pairwise_append.2 ⟨orderly.safe, allowed.safe, orderly.differ allowed⟩
  · refine ⟨books, ?_, ?_⟩
    · intro other member
      have atT := books.closed other member
      rw [trace] at member
      rcases List.mem_append.1 member with before | now
      · exact stays other before
      · rcases List.mem_append.1 now with now | last
        · exact absurd rfl ((allowed _ now).1 other)
        · obtain rfl : other = conn := by simpa using last
          rw [owners, atT.1, copies, List.count_eq_zero.2 meets]
    · rw [trace]
      refine List.pairwise_append.2 ⟨orderly.safe, ?_, ?_⟩
      · refine List.pairwise_append.2 ⟨allowed.safe, List.pairwise_singleton _ _, ?_⟩
        exact fun earlier now later _ => (allowed earlier now).1 later.conn
      · intro earlier old later member
        rcases List.mem_append.1 member with now | last
        · exact orderly.differ allowed earlier old later now
        · rw [List.mem_singleton.1 last]
          rintro rfl
          exact unclosed old

/-- Our client is up and a datagram is being sent on its connection. -/
def datagramUnderWay : List HoldersLabel :=
  [.world (.connectTo (some World.samplePeer) (fun _ => false) (some 2) 0),
    .world (.packet (portBytes 3 4 1 2) World.samplePeer (fun _ => false) none 0 World.sampleStart),
    .world (.connected 0), .world (.datagramStateChanged 0 1200), .unreliablePacketSend 0 [1] true,
    .advance 0, .advance 0]

/-- The connection shuts down between the copy and the send. -/
def lateDatagram : List HoldersLabel :=
  datagramUnderWay ++ [.world (.shutdownComplete 0 fun _ => true), .advance 0, .advance 0, .advance 0]

/-- Both the send and the deleter use the connection after it was closed. -/
theorem lateDatagram_uses_closed :
    (exec (step World.sampleListener) {} lateDatagram).map (·.trace) =
      some [.use 0, .use 0, .close 0, .use 0, .shutdown 0] := by
  decide +kernel

end Holders

end Koisyn.Session
