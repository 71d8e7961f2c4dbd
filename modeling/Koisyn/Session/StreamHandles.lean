/-
# Koisyn.Session.StreamHandles — the life of a stream handle

A stream is closed (`StreamClose`) by the handler of `SEND_SHUTDOWN_COMPLETE`, and used through the
`SharedStream`s that hold its handle: those in the contexts and the copies that a `ReliablePacketSend`
makes for itself.  When the last of them goes its deleter calls `StreamShutdown`.

`Owners` is the session with the sends that are under way, which hold no lock, and a record of every
call of MsQuic on a stream handle.  `Books` is what every run keeps: a handle is in one place at most,
and its deleter has run exactly if nothing holds it.  `closed_last`: nothing is called on a closed
handle, and none is closed that is still held, exactly if every `SEND_SHUTDOWN_COMPLETE` comes after
the deleter.  `abortedByPeer_uses_closed` is a run in which the peer aborts and it comes before.
-/
import Koisyn.Session.StreamLedger

namespace Koisyn.Session

open Koisyn.Channel
open Koisyn.Theory.Run

set_option autoImplicit false

/-! ## The machine -/

/-- A call on a stream handle.  `StreamShutdown` is called by the deleter of a `SharedStream` and by
the handler of `PEER_RECEIVE_ABORTED`. -/
inductive StreamCall where
  | start (strm : Hquic)
  | send (strm : Hquic)
  | shutdown (strm : Hquic) (byDeleter : Bool)
  | close (strm : Hquic)
  deriving DecidableEq, Repr

def StreamCall.strm : StreamCall → Hquic
  | .start strm | .send strm | .shutdown strm _ | .close strm => strm

/-- No call on a handle comes after its `StreamClose`. -/
def NothingAfterClose (trace : List StreamCall) : Prop :=
  trace.Pairwise fun earlier later => earlier ≠ .close later.strm

/-- Where a `ReliablePacketSend` is: the next thing it does. -/
inductive SendPoint where
  /-- copies the `SharedStream` in `Self`; the one in `Peer` has been copied -/
  | copying (slot : Slot) (channel : Fin 4)
  /-- calls `StreamSend` on the streams that are left -/
  | sending (todo : List Hquic)
  /-- destroys its copies -/
  | releasing
  deriving DecidableEq, Repr

/-- A send that is under way, with its copies, the one that is destroyed first in front. -/
structure Sending where
  copies : List Hquic
  point : SendPoint
  deriving DecidableEq, Repr

structure Owners where
  world : World := {}
  sends : List Sending := []
  trace : List StreamCall := []

inductive OwnersLabel where
  | world (l : Label)
  | reliablePacketSend (slot : Slot) (channel : Fin 4)
  | advance (send : Nat)
  | peerReceiveAborted (strm : Hquic)
  | sendShutdownComplete (strm : Hquic)

/-- The calls that an activation makes on streams, while others have these copies: a `SharedStream`
that goes is the last one only if there is no copy. -/
def streamCalls (copies : List Hquic) (calls : List Call) : List StreamCall :=
  calls.filterMap fun
    | .streamShutdown strm => if strm ∈ copies then none else some (.shutdown strm true)
    | .streamStart (some strm) => some (.start strm)
    | .streamSend strm _ _ => some (.send strm)
    | _ => none

/-- The calls of the activation that a label causes. -/
def World.callsOf (w : World) (L : Listener) (l : Label) : List Call :=
  match w.route L l with
  | some (some (slot, act)) => (act.run slot (w.contexts slot)).calls
  | _ => []

namespace Owners

variable (s : Owners)

/-- The copies that the sends under way have. -/
def copies : List Hquic := s.sends.flatMap (·.copies)

/-- MsQuic can raise an event of this stream: its connection is open and it has not been closed. -/
def Raises (strm : Hquic) : Prop :=
  (s.world.strms[strm]?.bind fun stream => s.world.openConn stream.conn).isSome = true ∧
    .close strm ∉ s.trace

instance (strm : Hquic) : Decidable (s.Raises strm) := inferInstanceAs (Decidable (_ ∧ _))

/-- A send goes on. -/
def put (k : Nat) (send : Sending) : Owners := { s with sends := s.sends.set k send }

def note (call : StreamCall) : Owners := { s with trace := s.trace ++ [call] }

/-- The deleter runs if nothing holds the handle any more. -/
def drop (strm : Hquic) : Owners :=
  if s.world.refs strm = 0 ∧ strm ∉ s.copies then s.note (.shutdown strm true) else s

/-- One step of a send. -/
def advance (k : Nat) (send : Sending) : Option Owners :=
  match send.point with
  | .copying slot channel =>
      let self := ((s.world.contexts slot).reliable channel).self.toList
      some (s.put k ⟨self ++ send.copies, .sending (send.copies ++ self)⟩)
  | .sending [] => some (s.put k { send with point := .releasing })
  | .sending (strm :: todo) =>
      some ((s.put k { send with point := .sending todo }).note (.send strm))
  | .releasing =>
      match send.copies with
      | [] => none
      | strm :: rest => some ((s.put k { send with copies := rest }).drop strm)

/-- One step. -/
def step (L : Listener) (s : Owners) : OwnersLabel → Option Owners
  | .world l =>
      (s.world.step L l).map fun t =>
        { s with world := t, trace := s.trace ++ streamCalls s.copies (s.world.callsOf L l) }
  | .reliablePacketSend slot channel =>
      some { s with sends := s.sends ++
        [⟨((s.world.contexts slot).reliable channel).peer.toList, .copying slot channel⟩] }
  | .advance k => s.sends[k]?.bind (s.advance k)
  | .peerReceiveAborted strm => if s.Raises strm then some (s.note (.shutdown strm false)) else none
  | .sendShutdownComplete strm => if s.Raises strm then some (s.note (.close strm)) else none

/-! ## The books -/

variable {s}

theorem mem_copies {strm : Hquic} : strm ∈ s.copies ↔ ∃ send ∈ s.sends, strm ∈ send.copies :=
  List.mem_flatMap

theorem mem_copies_of {k : Nat} {send : Sending} (present : s.sends[k]? = some send) {strm : Hquic}
    (member : strm ∈ send.copies) : strm ∈ s.copies :=
  mem_copies.2 ⟨send, List.mem_of_getElem? present, member⟩

theorem mem_copies_put {k : Nat} {send : Sending} {strm : Hquic}
    (member : strm ∈ (s.put k send).copies) : strm ∈ s.copies ∨ strm ∈ send.copies := by
  obtain ⟨other, old, held⟩ := mem_copies.1 member
  rcases List.mem_or_eq_of_mem_set old with old | rfl
  · exact .inl (mem_copies.2 ⟨other, old, held⟩)
  · exact .inr held

theorem copies_put {k : Nat} {before : Sending} (present : s.sends[k]? = some before)
    (send : Sending) {strm : Hquic} (member : strm ∈ s.copies) :
    strm ∈ (s.put k send).copies ∨ strm ∈ before.copies := by
  obtain ⟨other, old, held⟩ := mem_copies.1 member
  obtain ⟨j, found⟩ := List.mem_iff_getElem?.1 old
  by_cases here : k = j
  · subst here
    obtain rfl := Option.some.inj (found.symm.trans present)
    exact .inr held
  · refine .inl (mem_copies.2 ⟨other, List.mem_iff_getElem?.2 ⟨j, ?_⟩, held⟩)
    rw [put, List.getElem?_set_ne here, found]

theorem mem_put {k : Nat} {before send : Sending} (present : s.sends[k]? = some before) :
    send ∈ (s.put k send).sends :=
  List.mem_iff_getElem?.2 ⟨k, List.getElem?_set_self (List.getElem?_eq_some_iff.1 present).1⟩

/-- **What every run keeps.** -/
structure Books (s : Owners) : Prop where
  once : ∀ strm, s.world.refs strm ≤ 1
  known : ∀ strm, 0 < s.world.refs strm ∨ strm ∈ s.copies → strm < s.world.strms.length
  named : ∀ call ∈ s.trace, call.strm < s.world.strms.length
  dropped : ∀ strm, .shutdown strm true ∈ s.trace → s.world.refs strm = 0 ∧ strm ∉ s.copies
  dealt : ∀ strm < s.world.strms.length,
    0 < s.world.refs strm ∨ strm ∈ s.copies ∨ .shutdown strm true ∈ s.trace
  todo : ∀ send ∈ s.sends, ∀ todo, send.point = .sending todo → ∀ strm ∈ todo, strm ∈ send.copies

theorem books_start : Books {} where
  once strm := by simp [World.refs, holdings, places]
  known strm held := by
    rcases held with held | held
    · simp [World.refs, holdings, places] at held
    · cases held
  named _ member := absurd member List.not_mem_nil
  dropped _ member := absurd member List.not_mem_nil
  dealt _ less := absurd less (Nat.not_lt_zero _)
  todo _ member := absurd member List.not_mem_nil

/-- What is held or new has not been dropped. -/
theorem Books.undropped (books : s.Books) {strm : Hquic}
    (held : 0 < s.world.refs strm ∨ strm ∈ s.copies ∨ s.world.strms.length ≤ strm) :
    .shutdown strm true ∉ s.trace := by
  intro gone
  obtain ⟨unheld, uncopied⟩ := books.dropped strm gone
  have old : strm < s.world.strms.length := books.named _ gone
  rcases held with held | held | new
  · exact absurd unheld (Nat.ne_of_gt held)
  · exact uncopied held
  · exact absurd old (Nat.not_lt.2 new)

/-- A call that is no deleter's is noted. -/
theorem Books.note (books : s.Books) {call : StreamCall} (old : call.strm < s.world.strms.length)
    (noDeleter : ∀ strm, call ≠ .shutdown strm true) : (s.note call).Books where
  once := books.once
  known := books.known
  named := by
    intro other member
    rcases List.mem_append.1 member with before | now
    · exact books.named other before
    · rw [List.mem_singleton.1 now]
      exact old
  dropped := by
    intro strm member
    rcases List.mem_append.1 member with before | now
    · exact books.dropped strm before
    · exact absurd (List.mem_singleton.1 now).symm (noDeleter strm)
  dealt strm less :=
    (books.dealt strm less).imp_right (Or.imp_right fun gone => List.mem_append_left _ gone)
  todo := books.todo

/-- Sends with the copies there were, or more of what is held. -/
theorem Books.resend (books : s.Books) {sends : List Sending}
    (copied : ∀ strm ∈ ({ s with sends } : Owners).copies,
      strm ∈ s.copies ∨ 0 < s.world.refs strm)
    (kept : ∀ strm ∈ s.copies, strm ∈ ({ s with sends } : Owners).copies)
    (todo : ∀ send ∈ sends, ∀ todo, send.point = .sending todo → ∀ strm ∈ todo, strm ∈ send.copies) :
    ({ s with sends } : Owners).Books := by
  refine ⟨books.once, ?_, books.named, ?_, ?_, todo⟩
  · rintro strm (stillHeld | member)
    · exact books.known strm (.inl stillHeld)
    · exact books.known strm (copied strm member).symm
  · intro strm gone
    obtain ⟨unheld, uncopied⟩ := books.dropped strm gone
    refine ⟨unheld, fun member => ?_⟩
    rcases copied strm member with old | positive
    · exact uncopied old
    · exact absurd unheld (Nat.ne_of_gt positive)
  · intro strm less
    exact (books.dealt strm less).imp_right (Or.imp_left (kept strm))

/-- A send has gone on, and holds what it held or more that is held. -/
theorem Books.put (books : s.Books) {k : Nat} {before send : Sending}
    (present : s.sends[k]? = some before) (keeps : ∀ strm ∈ before.copies, strm ∈ send.copies)
    (held : ∀ strm ∈ send.copies, strm ∈ before.copies ∨ 0 < s.world.refs strm)
    (todo : ∀ todo, send.point = .sending todo → ∀ strm ∈ todo, strm ∈ send.copies) :
    (s.put k send).Books := by
  apply books.resend
  · intro strm member
    rcases mem_copies_put member with old | new
    · exact .inl old
    · exact (held strm new).imp_left (mem_copies_of present)
  · intro strm member
    rcases copies_put present send member with kept | old
    · exact kept
    · exact mem_copies.2 ⟨send, mem_put present, keeps strm old⟩
  · intro other member
    rcases List.mem_or_eq_of_mem_set member with old | rfl
    · exact books.todo other old
    · exact todo

/-- A send has let a copy go. -/
theorem Books.release (books : s.Books) {k : Nat} {strm : Hquic} {rest : List Hquic}
    (present : s.sends[k]? = some ⟨strm :: rest, .releasing⟩) :
    ((s.put k ⟨rest, .releasing⟩).drop strm).Books := by
  have copied : ∀ {other}, other ∈ (s.put k ⟨rest, .releasing⟩).copies → other ∈ s.copies := by
    intro other member
    rcases mem_copies_put member with old | new
    · exact old
    · exact mem_copies_of present (List.mem_cons_of_mem _ new)
  have kept : ∀ {other}, other ∈ s.copies →
      other ∈ (s.put k ⟨rest, .releasing⟩).copies ∨ other = strm := by
    intro other member
    rcases copies_put present ⟨rest, .releasing⟩ member with kept | old
    · exact .inl kept
    · rcases List.mem_cons.1 old with here | old
      · exact .inr here
      · exact .inl (mem_copies.2 ⟨_, mem_put present, old⟩)
  have todo : ∀ other ∈ (s.put k ⟨rest, .releasing⟩).sends, ∀ todo,
      other.point = .sending todo → ∀ strm ∈ todo, strm ∈ other.copies := by
    intro other member
    rcases List.mem_or_eq_of_mem_set member with old | rfl
    · exact books.todo other old
    · exact fun todo point => by cases point
  have old : strm ∈ s.copies := mem_copies_of present List.mem_cons_self
  unfold drop
  split
  · rename_i last
    refine ⟨books.once, ?_, ?_, ?_, ?_, todo⟩
    · exact fun other held => books.known other (held.imp_right copied)
    · intro call member
      rcases List.mem_append.1 member with before | now
      · exact books.named call before
      · rw [List.mem_singleton.1 now]
        exact books.known strm (.inr old)
    · intro other member
      rcases List.mem_append.1 member with before | now
      · exact (books.dropped other before).imp_right fun uncopied member => uncopied (copied member)
      · obtain rfl : other = strm := by simpa using now
        exact last
    · intro other less
      rcases books.dealt other less with held | member | gone
      · exact .inl held
      · rcases kept member with kept | rfl
        · exact .inr (.inl kept)
        · exact .inr (.inr (List.mem_append_right _ List.mem_cons_self))
      · exact .inr (.inr (List.mem_append_left _ gone))
  · rename_i notLast
    refine ⟨books.once, ?_, books.named, ?_, ?_, todo⟩
    · exact fun other held => books.known other (held.imp_right copied)
    · exact fun other gone =>
        (books.dropped other gone).imp_right fun uncopied member => uncopied (copied member)
    · intro other less
      rcases books.dealt other less with held | member | gone
      · exact .inl held
      · rcases kept member with kept | rfl
        · exact .inr (.inl kept)
        · rcases Nat.eq_zero_or_pos (s.world.refs other) with unheld | held
          · exact .inr (.inl (by_contra fun uncopied => notLast ⟨unheld, uncopied⟩))
          · exact .inl held
      · exact .inr (.inr gone)

/-! ## What is noted -/

/-- A call that the books allow: no close, and on a handle that has not been dropped or closed. -/
def Allowed (s : Owners) (call : StreamCall) : Prop :=
  (∀ strm, call ≠ .close strm) ∧
    (.shutdown call.strm true ∉ s.trace ∨ .close call.strm ∉ s.trace)

/-- The calls on record, and new ones that the books allow. -/
def Grows (s t : Owners) : Prop :=
  ∃ news, t.trace = s.trace ++ news ∧ ∀ call ∈ news, s.Allowed call

theorem grows_self {t : Owners} (same : t.trace = s.trace) : Grows s t :=
  ⟨[], by rw [same, List.append_nil], fun _ member => absurd member List.not_mem_nil⟩

theorem grows_note {t : Owners} {call : StreamCall} (same : t.trace = s.trace)
    (allowed : s.Allowed call) : Grows s (t.note call) := by
  refine ⟨[call], by rw [note, same], ?_⟩
  intro other member
  rw [List.mem_singleton.1 member]
  exact allowed

theorem books_advance (books : s.Books) {k : Nat} {send : Sending} {t : Owners}
    (present : s.sends[k]? = some send) (taken : s.advance k send = some t) :
    t.Books ∧ Grows s t := by
  obtain ⟨copies, point⟩ := send
  cases point with
  | copying slot channel =>
      obtain rfl := Option.some.inj taken
      refine ⟨books.put present (fun strm member => List.mem_append_right _ member) ?_ ?_,
        grows_self rfl⟩
      · intro strm member
        rcases List.mem_append.1 member with self | old
        · refine .inr (lt_of_lt_of_le ?_ (World.holdings_le_refs slot strm))
          exact holdings_pos channel (.inl (Option.mem_toList.1 self))
        · exact .inl old
      · intro todo point strm member
        obtain rfl := SendPoint.sending.inj point
        exact List.mem_append.2 (List.mem_append.1 member).symm
  | sending todo =>
      have held := books.todo _ (List.mem_of_getElem? present) todo rfl
      cases todo with
      | nil =>
          obtain rfl := Option.some.inj taken
          refine ⟨books.put present (fun _ => id) (fun _ => .inl) ?_, grows_self rfl⟩
          exact fun todo point => by cases point
      | cons strm todo =>
          obtain rfl := Option.some.inj taken
          have copied : strm ∈ s.copies := mem_copies_of present (held strm List.mem_cons_self)
          have moved : (s.put k ⟨copies, .sending todo⟩).Books := by
            refine books.put present (fun _ => id) (fun _ => .inl) ?_
            intro rest point other member
            obtain rfl := SendPoint.sending.inj point
            exact held other (List.mem_cons_of_mem _ member)
          have known := books.known strm (.inr copied)
          exact ⟨moved.note known (fun _ => nofun),
            grows_note rfl ⟨fun _ => nofun, .inl (books.undropped (.inr (.inl copied)))⟩⟩
  | releasing =>
      cases copies with
      | nil => cases taken
      | cons strm rest =>
          obtain rfl := Option.some.inj taken
          refine ⟨books.release present, ?_⟩
          unfold drop
          split
          · refine grows_note rfl ⟨fun _ => nofun, .inl (books.undropped (.inr (.inl ?_)))⟩
            exact mem_copies_of present List.mem_cons_self
          · exact grows_self rfl

/-! ## The steps of the session -/

/-- The calls of an activation are the deleters' and those on streams it uses. -/
theorem mem_streamCalls {copies : List Hquic} {calls : List Call} {call : StreamCall}
    (member : call ∈ streamCalls copies calls) :
    (call = .shutdown call.strm true ∧ call.strm ∉ copies ∧ 0 < releases call.strm calls) ∨
      call.strm ∈ uses calls ∧ ∀ strm, call ≠ .close strm ∧ call ≠ .shutdown strm true := by
  obtain ⟨made, present, noted⟩ := List.mem_filterMap.1 member
  cases made with
  | streamShutdown strm =>
      dsimp only at noted
      split at noted
      · cases noted
      · rename_i uncopied
        obtain rfl := Option.some.inj noted
        exact .inl ⟨rfl, uncopied, List.count_pos_iff.2 present⟩
  | streamStart started =>
      cases started with
      | none => cases noted
      | some strm =>
          obtain rfl := Option.some.inj noted
          exact .inr ⟨List.mem_filterMap.2 ⟨_, present, rfl⟩, fun _ => ⟨nofun, nofun⟩⟩
  | streamSend strm buf succeeded =>
      obtain rfl := Option.some.inj noted
      exact .inr ⟨List.mem_filterMap.2 ⟨_, present, rfl⟩, fun _ => ⟨nofun, nofun⟩⟩
  | _ => cases noted

/-- The deleter of a stream without copies runs when it is released. -/
theorem deleter_of_releases {copies : List Hquic} {calls : List Call} {strm : Hquic}
    (released : 0 < releases strm calls) (uncopied : strm ∉ copies) :
    .shutdown strm true ∈ streamCalls copies calls :=
  List.mem_filterMap.2 ⟨_, List.count_pos_iff.1 released, if_neg uncopied⟩

/-- The ledger of an activation, over the whole session: `count` streams are new. -/
structure Balances (s : Owners) (w' : World) (calls : List Call) (count : Nat) : Prop where
  length : w'.strms.length = s.world.strms.length + count
  balance : ∀ strm, s.world.refs strm + (List.range' s.world.strms.length count).count strm =
    w'.refs strm + releases strm calls
  used : ∀ strm ∈ uses calls,
    0 < s.world.refs strm + (List.range' s.world.strms.length count).count strm

section Activation

variable {w' : World} {calls : List Call} {count : Nat}

/-- A known handle is not new. -/
theorem count_of_old {strm : Hquic} (old : strm < s.world.strms.length) :
    (List.range' s.world.strms.length count).count strm = 0 := by
  rw [World.count_range', if_neg fun isNew => absurd old (Nat.not_lt.2 isNew.1)]

theorem new_of_unheld {strm : Hquic} (unheld : s.world.refs strm = 0)
    (positive : 0 < s.world.refs strm + (List.range' s.world.strms.length count).count strm) :
    strm ∈ List.range' s.world.strms.length count := by
  rw [unheld, Nat.zero_add] at positive
  exact List.count_pos_iff.1 positive

/-- A handle stays in one place or is released once. -/
theorem Balances.atMost (balances : s.Balances w' calls count) (books : s.Books) (strm : Hquic) :
    w'.refs strm + releases strm calls ≤ 1 := by
  rw [← balances.balance]
  rcases Nat.eq_zero_or_pos (s.world.refs strm) with unheld | held
  · rw [unheld, World.count_range']
    split <;> omega
  · rw [count_of_old (books.known strm (.inl held)), Nat.add_zero]
    exact books.once strm

/-- The calls of an activation are on handles that are held or new. -/
theorem Balances.alive (balances : s.Balances w' calls count) {call : StreamCall}
    (member : call ∈ streamCalls s.copies calls) :
    0 < s.world.refs call.strm + (List.range' s.world.strms.length count).count call.strm := by
  rcases mem_streamCalls member with ⟨-, -, released⟩ | ⟨isUsed, -⟩
  · rw [balances.balance]
    exact Nat.add_pos_right _ released
  · exact balances.used _ isUsed

/-- What is held or new has a handle that is known afterwards. -/
theorem Balances.named (balances : s.Balances w' calls count) (books : s.Books) {strm : Hquic}
    (positive : 0 < s.world.refs strm + (List.range' s.world.strms.length count).count strm) :
    strm < w'.strms.length := by
  rw [balances.length]
  rcases Nat.eq_zero_or_pos (s.world.refs strm) with unheld | held
  · exact (List.mem_range'_1.1 (new_of_unheld unheld positive)).2
  · exact Nat.lt_add_right _ (books.known strm (.inl held))

theorem Balances.grows (balances : s.Balances w' calls count) (books : s.Books) :
    Grows s ⟨w', s.sends, s.trace ++ streamCalls s.copies calls⟩ := by
  refine ⟨_, rfl, ?_⟩
  intro call member
  refine ⟨?_, .inl (books.undropped ?_)⟩
  · rcases mem_streamCalls member with ⟨isDeleter, -⟩ | ⟨-, noClose⟩
    · rw [isDeleter]
      exact fun _ => nofun
    · exact fun strm => (noClose strm).1
  · rcases Nat.eq_zero_or_pos (s.world.refs call.strm) with unheld | held
    · have isNew := new_of_unheld unheld (balances.alive member)
      exact .inr (.inr (List.mem_range'_1.1 isNew).1)
    · exact .inl held

/-- A handle whose deleter has run, before or now, is in no place. -/
theorem Balances.dropped (balances : s.Balances w' calls count) (books : s.Books) {strm : Hquic}
    (gone : .shutdown strm true ∈ s.trace ++ streamCalls s.copies calls) :
    w'.refs strm = 0 ∧ strm ∉ s.copies := by
  have counted := balances.balance strm
  rcases List.mem_append.1 gone with before | now
  · obtain ⟨unheld, uncopied⟩ := books.dropped strm before
    have old : strm < s.world.strms.length := books.named _ before
    rw [count_of_old old, unheld] at counted
    exact ⟨(Nat.add_eq_zero_iff.1 counted.symm).1, uncopied⟩
  · rcases mem_streamCalls now with ⟨-, uncopied, released⟩ | ⟨-, noDeleter⟩
    · have most := balances.atMost books strm
      have released : 0 < releases strm calls := released
      exact ⟨by omega, uncopied⟩
    · exact absurd rfl (noDeleter strm).2

/-- A handle in no place has been dropped before or now. -/
theorem Balances.dealt (balances : s.Balances w' calls count) (books : s.Books) {strm : Hquic}
    (less : strm < w'.strms.length) : 0 < w'.refs strm ∨ strm ∈ s.copies ∨
      .shutdown strm true ∈ s.trace ++ streamCalls s.copies calls := by
  have counted := balances.balance strm
  by_cases held : 0 < w'.refs strm
  · exact .inl held
  by_cases copied : strm ∈ s.copies
  · exact .inr (.inl copied)
  refine .inr (.inr ?_)
  by_cases released : 0 < releases strm calls
  · exact List.mem_append_right _ (deleter_of_releases released copied)
  -- neither held nor released: it is not new, and it had been dropped before
  have old : strm < s.world.strms.length := by
    by_contra notOld
    have isNew : strm ∈ List.range' s.world.strms.length count :=
      List.mem_range'_1.2 ⟨Nat.not_lt.1 notOld, balances.length ▸ less⟩
    have positive := List.count_pos_iff.2 isNew
    omega
  rcases books.dealt strm old with before | before | gone
  · omega
  · exact absurd before copied
  · exact List.mem_append_left _ gone

/-- **The step rule of an activation**, from its ledger. -/
theorem Balances.books_after (balances : s.Balances w' calls count) (books : s.Books) :
    Books ⟨w', s.sends, s.trace ++ streamCalls s.copies calls⟩ := by
  have longer : s.world.strms.length ≤ w'.strms.length := balances.length ▸ Nat.le_add_right _ _
  refine ⟨?_, ?_, ?_, ?_, ?_, books.todo⟩
  · intro strm
    exact (Nat.le_add_right _ _).trans (balances.atMost books strm)
  · rintro strm (held | copied)
    · refine balances.named books ?_
      rw [balances.balance]
      exact Nat.add_pos_left held _
    · exact (books.known strm (.inr copied)).trans_le longer
  · intro call member
    rcases List.mem_append.1 member with before | now
    · exact (books.named call before).trans_le longer
    · exact balances.named books (balances.alive now)
  · exact fun strm gone => balances.dropped books gone
  · exact fun strm less => balances.dealt books less

end Activation

theorem books_world {L : Listener} (books : s.Books) {l : Label} {t : Owners}
    (taken : step L s (.world l) = some t) : t.Books ∧ Grows s t := by
  obtain ⟨w', moved, rfl⟩ := Option.map_eq_some_iff.1 taken
  unfold World.callsOf
  rcases World.step_cases moved with ⟨route, rfl⟩ | ⟨slot, act, route, works, rfl⟩
  · rw [route]
    have balances : s.Balances s.world [] 0 := ⟨rfl, fun _ => rfl, fun _ used => by cases used⟩
    exact ⟨balances.books_after books, balances.grows books⟩
  · rw [route]
    have inside : (act.run slot (s.world.contexts slot)).exit ≠ .overruns :=
      fun overruns => works (.inl overruns)
    obtain ⟨count, news, length⟩ := World.newStreams_of_route route
    have balances : s.Balances (s.world.after slot act)
        (act.run slot (s.world.contexts slot)).calls count := by
      refine ⟨length, ?_, ?_⟩
      · intro strm
        rw [← news]
        exact World.refs_after inside strm
      · intro strm used
        rw [← news]
        have positive := (s.world.run_ledger inside).used strm used
        have held := World.holdings_le_refs (w := s.world) slot strm
        exact positive.trans_le (Nat.add_le_add_right held _)
    exact ⟨balances.books_after books, balances.grows books⟩

/-! ## Runs -/

/-- A `SEND_SHUTDOWN_COMPLETE` comes only after the deleter of the stream has run. -/
def ReleasedFirst (s : Owners) : OwnersLabel → Prop
  | .sendShutdownComplete strm => s.Raises strm → .shutdown strm true ∈ s.trace
  | _ => True

/-- A stream that is closed is in no context, and no send has a copy of it. -/
def ClosesUnheld (s : Owners) : OwnersLabel → Prop
  | .sendShutdownComplete strm => s.Raises strm →
      (∀ slot i, ((s.world.contexts slot).reliable i).self ≠ some strm ∧
        ((s.world.contexts slot).reliable i).peer ≠ some strm) ∧ strm ∉ s.copies
  | _ => True

theorem known_of_raises {strm : Hquic} (raises : s.Raises strm) :
    strm < s.world.strms.length := by
  obtain ⟨c, isOpen⟩ := Option.isSome_iff_exists.1 raises.1
  obtain ⟨stream, present, -⟩ := Option.bind_eq_some_iff.1 isOpen
  exact (List.getElem?_eq_some_iff.1 present).1

/-- **The step rule.**  Every step keeps the books, and what it notes is allowed, unless it closes. -/
theorem books_step {L : Listener} (books : s.Books) {l : OwnersLabel} {t : Owners}
    (taken : step L s l = some t) :
    t.Books ∧ (Grows s t ∨ ∃ strm, l = .sendShutdownComplete strm ∧ s.Raises strm ∧
      t.trace = s.trace ++ [.close strm]) := by
  cases l with
  | world l => exact (books_world books taken).imp_right .inl
  | reliablePacketSend slot channel =>
      obtain rfl := Option.some.inj taken
      refine ⟨books.resend ?_ ?_ ?_, .inl (grows_self rfl)⟩
      · intro strm member
        obtain ⟨send, present, held⟩ := mem_copies.1 member
        rcases List.mem_append.1 present with old | now
        · exact .inl (mem_copies.2 ⟨send, old, held⟩)
        · rw [List.mem_singleton.1 now] at held
          refine .inr (lt_of_lt_of_le ?_ (World.holdings_le_refs slot strm))
          exact holdings_pos channel (.inr (Option.mem_toList.1 held))
      · intro strm member
        obtain ⟨send, old, held⟩ := mem_copies.1 member
        exact mem_copies.2 ⟨send, List.mem_append_left _ old, held⟩
      · intro send member
        rcases List.mem_append.1 member with old | now
        · exact books.todo send old
        · rw [List.mem_singleton.1 now]
          exact fun todo point => by cases point
  | advance k =>
      obtain ⟨send, present, moved⟩ := Option.bind_eq_some_iff.1 taken
      exact (books_advance books present moved).imp_right .inl
  | peerReceiveAborted strm =>
      simp only [step] at taken
      split at taken
      · rename_i raises
        obtain rfl := Option.some.inj taken
        exact ⟨books.note (known_of_raises raises) (fun _ => nofun),
          .inl (grows_note rfl ⟨fun _ => nofun, .inr raises.2⟩)⟩
      · cases taken
  | sendShutdownComplete strm =>
      simp only [step] at taken
      split at taken
      · rename_i raises
        obtain rfl := Option.some.inj taken
        exact ⟨books.note (known_of_raises raises) (fun _ => nofun),
          .inr ⟨strm, rfl, raises, rfl⟩⟩
      · cases taken

/-- What a run keeps whose streams are released before they are closed. -/
structure Orderly (s : Owners) : Prop where
  books : s.Books
  closed : ∀ strm, .close strm ∈ s.trace → .shutdown strm true ∈ s.trace
  safe : NothingAfterClose s.trace

theorem orderly_step {L : Listener} (orderly : s.Orderly) {l : OwnersLabel}
    (released : s.ReleasedFirst l) {t : Owners} (taken : step L s l = some t) : t.Orderly := by
  obtain ⟨books, ⟨news, extended, allowed⟩ | ⟨strm, rfl, raises, extended⟩⟩ :=
    books_step orderly.books taken
  · refine ⟨books, ?_, ?_⟩
    · intro strm member
      rw [extended] at member ⊢
      rcases List.mem_append.1 member with before | now
      · exact List.mem_append_left _ (orderly.closed strm before)
      · exact absurd rfl ((allowed _ now).1 strm)
    · rw [extended]
      refine List.pairwise_append.2 ⟨orderly.safe, ?_, ?_⟩
      · apply List.pairwise_of_forall_mem_list
        exact fun earlier member later _ => (allowed earlier member).1 later.strm
      · rintro earlier old later now rfl
        rcases (allowed later now).2 with undropped | unclosed
        · exact undropped (orderly.closed _ old)
        · exact unclosed old
  · refine ⟨books, ?_, ?_⟩
    · intro other member
      rw [extended] at member ⊢
      rcases List.mem_append.1 member with before | now
      · exact List.mem_append_left _ (orderly.closed other before)
      · obtain rfl : other = strm := by simpa using now
        exact List.mem_append_left _ (released raises)
    · rw [extended]
      refine List.pairwise_append.2 ⟨orderly.safe, List.pairwise_singleton _ _, ?_⟩
      rintro earlier old later now rfl
      obtain rfl := List.mem_singleton.1 now
      exact raises.2 old

theorem refs_eq_zero {w : World} {strm : Hquic} : w.refs strm = 0 ↔
    ∀ slot i, ((w.contexts slot).reliable i).self ≠ some strm ∧
      ((w.contexts slot).reliable i).peer ≠ some strm := by
  simp only [World.refs, holdings, Finset.sum_eq_zero_iff, Finset.mem_univ, true_imp_iff]
  refine forall₂_congr fun slot i => ?_
  rw [← not_or, ← places_pos, Nat.pos_iff_ne_zero, not_not]

/-- **The life of a stream handle, exactly.**  In a run nothing is called on a stream after its
`StreamClose`, and no stream is closed that is still held, if and only if every
`SEND_SHUTDOWN_COMPLETE` comes after the deleter has shut its stream down. -/
theorem closed_last (L : Listener) (labels : List OwnersLabel) :
    (Always (step L) (fun s => NothingAfterClose s.trace) {} labels ∧
        EveryStep (step L) ClosesUnheld {} labels) ↔
      EveryStep (step L) ReleasedFirst {} labels := by
  have books : Always (step L) Books {} labels :=
    always_of_keeps (fun s l t books taken => (books_step books taken).1) labels books_start
  constructor
  · rintro ⟨-, unheld⟩
    refine everyStep_of_always_of_everyStep ?_ books unheld
    intro s l books unheld
    cases l with
    | sendShutdownComplete strm =>
        intro raises
        obtain ⟨nowhere, uncopied⟩ := unheld raises
        rcases books.dealt strm (known_of_raises raises) with held | copied | gone
        · exact absurd (refs_eq_zero.2 nowhere) (Nat.ne_of_gt held)
        · exact absurd copied uncopied
        · exact gone
    | _ => trivial
  · intro released
    have start : Orderly {} :=
      ⟨books_start, fun _ member => absurd member List.not_mem_nil, List.Pairwise.nil⟩
    have orderly := always_of_everyStep
      (fun s l t orderly meets taken => orderly_step orderly meets taken) start released
    refine ⟨orderly.mono fun s orderly => orderly.safe, ?_⟩
    refine everyStep_of_always_of_everyStep ?_ books released
    intro s l books released
    cases l with
    | sendShutdownComplete strm =>
        intro raises
        exact (books.dropped strm (released raises)).imp_left refs_eq_zero.1
    | _ => trivial

/-- The loop of `StreamSend`s. -/
theorem exec_sending {L : Listener} {s : Owners} {k : Nat} {copies todo : List Hquic}
    (present : s.sends[k]? = some ⟨copies, .sending todo⟩) :
    ∃ t, exec (step L) s (List.replicate todo.length (.advance k)) = some t ∧ t.world = s.world ∧
      t.trace = s.trace ++ todo.map .send := by
  induction todo generalizing s with
  | nil => exact ⟨s, rfl, rfl, (List.append_nil _).symm⟩
  | cons strm todo ih =>
      let sent : Owners := (s.put k ⟨copies, .sending todo⟩).note (.send strm)
      have next : sent.sends[k]? = some ⟨copies, .sending todo⟩ :=
        List.getElem?_set_self (List.getElem?_eq_some_iff.1 present).1
      have goesOn : step L s (.advance k) = some sent := by
        simp only [step, present, Option.bind_some, advance, sent]
      obtain ⟨t, run, world, trace⟩ := ih next
      refine ⟨t, ?_, world, ?_⟩
      · rw [List.length_cons, List.replicate_succ, exec_cons, goesOn]
        exact run
      · rw [trace, List.map_cons]
        exact List.append_assoc _ _ _

/-- **A send that nothing interrupts** calls `StreamSend` where `ReliablePacketSend` does. -/
theorem exec_reliablePacketSend (L : Listener) (s : Owners) (slot : Slot) (channel : Fin 4)
    (env : SendEnv) :
    let chn := (s.world.contexts slot).reliable channel
    ∃ labels t, exec (step L) s (.reliablePacketSend slot channel :: labels) = some t ∧
      t.world = s.world ∧
      t.trace = s.trace ++ (targets chn.peer chn.self env).map fun target => .send target.1 := by
  intro chn
  let k := s.sends.length
  let todo := chn.peer.toList ++ chn.self.toList
  let begun : Owners := { s with sends := s.sends ++ [⟨chn.peer.toList, .copying slot channel⟩] }
  let copied : Owners := begun.put k ⟨chn.self.toList ++ chn.peer.toList, .sending todo⟩
  have first : begun.sends[k]? = some ⟨chn.peer.toList, .copying slot channel⟩ :=
    List.getElem?_concat_length
  have second : copied.sends[k]? = some ⟨chn.self.toList ++ chn.peer.toList, .sending todo⟩ :=
    List.getElem?_set_self (List.getElem?_eq_some_iff.1 first).1
  have copies : step L begun (.advance k) = some copied := by
    simp only [step, first, Option.bind_some, advance]
    rfl
  obtain ⟨t, run, world, trace⟩ := exec_sending (L := L) second
  refine ⟨.advance k :: List.replicate todo.length (.advance k), t, ?_, world, ?_⟩
  · rw [exec_cons, show step L s (.reliablePacketSend slot channel) = some begun from rfl,
      Option.bind_some, exec_cons, copies]
    exact run
  · rw [trace]
    simp [targets, todo, copied, begun, put, Function.comp_def]

/-! ## A stream that the peer aborts -/

/-- Our client is up; the peer aborts its side of our first stream, whose `SEND_SHUTDOWN_COMPLETE` comes
while the session goes on; we send on the channel, and disconnect. -/
def abortedByPeer : List OwnersLabel :=
  [.world (.connectTo (some World.samplePeer) (fun _ => false) (some 2) 0),
    .world (.packet (portBytes 3 4 1 2) World.samplePeer (fun _ => false) none 0 World.sampleStart),
    .world (.connected 0), .peerReceiveAborted 0, .sendShutdownComplete 0,
    .reliablePacketSend 0 0, .advance 0, .advance 0, .advance 0, .advance 0, .world (.disconnect 0)]

instance (trace : List StreamCall) : Decidable (NothingAfterClose trace) :=
  inferInstanceAs (Decidable (List.Pairwise _ _))

/-- The send and the deleter both use the handle after it was closed. -/
theorem abortedByPeer_uses_closed :
    (exec (step World.sampleListener) {} abortedByPeer).map (·.trace) =
        some [.start 0, .start 1, .start 2, .start 3, .shutdown 0 false, .close 0, .send 0,
          .shutdown 0 true, .shutdown 1 true, .shutdown 2 true, .shutdown 3 true] ∧
      ¬ Always (step World.sampleListener) (fun s => NothingAfterClose s.trace) {}
        abortedByPeer := by
  constructor
  · decide +kernel
  · decide +kernel

end Owners

end Koisyn.Session
