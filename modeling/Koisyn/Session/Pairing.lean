/-
# Koisyn.Session.Pairing — accepts and disconnects of one context

`OnAccept` is called by `StartClient`; `OnDisconnect` by the short timeout of `DoCheck` and by the
`SHUTDOWN_COMPLETE` that brings the reference count to zero.  They alternate (`Alternates`) as long as
the handlers' steps meet `Pairs`, which excludes five things that the handlers do not look at:

* `CONNECTED` on a context whose current use the application has not accepted (unless it is our own
  client connection of that use, which it has: `Origins.ours`);
* the short timeout of a use that was not accepted, and the long one of a use that was;
* `Disconnect`, or a reset for an expired channel context, of an accepted use before any connection
  is up, which drops the session without a word;
* the end of a client connection while an accepted use is still handshaking, after which
  `StartClient` runs again;
* `2 ^ 32 - 1` connections.

`PairInv` is the invariant that carries this: with the balance of connected and closed connections in
place of the reference count, a session that is live has a connection up, or is an accepted one whose
client cannot be started twice.  `pairing_after` is the step rule of the handlers, `Pairing.write` that
of one statement.  `Consent` has the runs.
-/
import Koisyn.Session.History
import Koisyn.Session.RefCount

namespace Koisyn.Session

open Koisyn.Channel
open Koisyn.Theory.Run

set_option autoImplicit false

/-! ## One context -/

/-- The invariant, for a context with this history and this balance of connected and closed
connections. -/
structure PairInv (ctx : Core) (s : Standing) (balance : Int) : Prop where
  upLive : 1 ≤ balance → s.live = true
  handshaking : ctx.handshakeBegin.isSome → balance ≤ 0
  live : s.live = true → 1 ≤ balance ∨
    s.accepted = true ∧ (ctx.handshakeBegin.isSome → ctx.self.isSome)
  accepted : s.accepted = true → s.live = true
  served : ctx.handshakeBegin.isSome ∨ s.accepted = true → ctx.ports.localServer ≠ 0

/-- What an activation must meet. -/
def PairsOn (ctx : Core) (accepted : Bool) (balance : Int) : Activation → Prop
  | .connected _ => balance = 0 → accepted = true
  | .shutdownComplete _ isClient _ =>
      isClient = true → accepted = true → ctx.handshakeBegin = none
  | .doCheck now => ∀ handshakeBegin ∈ ctx.handshakeBegin,
      (shortStops ctx.ports (now - handshakeBegin) → accepted = true) ∧
        (longStops (now - handshakeBegin) → accepted = false)
  | .datagramReceived _ alive | .receive _ _ alive =>
      lockChannelContext alive ctx.channelContext = none → accepted = true → 1 ≤ balance
  | .disconnect => accepted = true → 1 ≤ balance
  | _ => True

def balanceAfter (balance : Int) : Activation → Int
  | .connected _ => balance + 1
  | .shutdownComplete _ _ _ => balance - 1
  | _ => balance

theorem balanceAfter_of_starts {ports ports' : Ports} {env : StartEnv} {act : Activation}
    (starts : act.starts ports = some (ports', env)) (balance : Int) :
    balanceAfter balance act = balance := by
  cases act <;> first | rfl | cases starts

section Step

variable {L : Listener} {ctx ctx' : Core} {act : Activation} {noted : List Mark} {s : Standing}
  {balance : Int}

theorem PairInv.idle (inv : PairInv ctx s balance) (unbound : ctx.ports = {})
    (none_ : balance = 0) : s.live = false ∧ s.accepted = false := by
  have notAccepted : s.accepted = false := by
    refine Bool.eq_false_of_not_eq_true fun accepted => inv.served (.inr accepted) ?_
    rw [unbound]
  refine ⟨Bool.eq_false_of_not_eq_true ?_, notAccepted⟩
  intro live
  rcases inv.live live with up | ⟨accepted, -⟩
  · omega
  · rw [notAccepted] at accepted
    cases accepted

/-- A context that begins a handshake has no session yet. -/
theorem PairInv.begin_ (inv : PairInv ctx s balance) (unbound : ctx.ports = {})
    (none_ : balance = 0) {ports : Ports} (bound : ports.localServer ≠ 0) (now : Nat)
    (remote : QuicAddr) :
    PairInv { ctx with ports, handshakeBegin := some now, remoteSentinel := remote } s balance := by
  obtain ⟨notLive, notAccepted⟩ := inv.idle unbound none_
  refine ⟨inv.upLive, fun _ => none_.le, ?_, inv.accepted, fun _ => bound⟩
  intro live
  rw [notLive] at live
  cases live

/-- While handshaking, a session is live only if it is accepted and its client runs. -/
theorem PairInv.handshaking_live (inv : PairInv ctx s balance) (begun : ctx.handshakeBegin.isSome)
    (live : s.live = true) : s.accepted = true ∧ ctx.self.isSome := by
  have noUp := inv.handshaking begun
  rcases inv.live live with up | ⟨accepted, started⟩
  · omega
  · exact ⟨accepted, started begun⟩

theorem PairInv.notLive_of_free (inv : PairInv ctx s balance) (begun : ctx.handshakeBegin.isSome)
    (free : ctx.self = none) : s.live = false := by
  refine Bool.eq_false_of_not_eq_true ?_
  intro live
  have started := (inv.handshaking_live begun live).2
  rw [free] at started
  cases started

/-- What a reset leaves. -/
theorem pairInv_blank {refCount : UInt32} (notAccepted : s.accepted = false)
    (up : s.live = true ↔ 1 ≤ balance) : PairInv (.blank refCount) s balance where
  upLive := up.2
  handshaking begun := by cases begun
  live isLive := .inl (up.1 isLive)
  accepted isAccepted := by
    rw [notAccepted] at isAccepted
    cases isAccepted
  served bound := by
    rw [notAccepted] at bound
    rcases bound with begun | isAccepted
    · cases begun
    · cases isAccepted

/-- What of a context the invariant is about. -/
theorem PairInv.congr (inv : PairInv ctx s balance)
    (begun : ctx'.handshakeBegin = ctx.handshakeBegin) (self : ctx'.self = ctx.self)
    (server : ctx'.ports.localServer = ctx.ports.localServer) : PairInv ctx' s balance := by
  refine ⟨inv.upLive, ?_, ?_, inv.accepted, ?_⟩
  · rw [begun]
    exact inv.handshaking
  · rw [begun, self]
    exact inv.live
  · rw [begun, server]
    exact inv.served

/-- Our client is opened. -/
theorem PairInv.opens (inv : PairInv ctx s balance) (conn : Hquic) :
    PairInv { ctx with self := some conn } s balance where
  upLive := inv.upLive
  handshaking := inv.handshaking
  live live := (inv.live live).imp_right fun ⟨accepted, _⟩ => ⟨accepted, fun _ => rfl⟩
  accepted := inv.accepted
  served := inv.served

/-- The application accepts. -/
theorem PairInv.accepts (inv : PairInv ctx s balance) (opened : ctx.self.isSome)
    (serves : ctx.ports.localServer ≠ 0) :
    PairInv ctx ([Mark.accepted].foldl Standing.after s) balance where
  upLive _ := rfl
  handshaking := inv.handshaking
  live _ := .inr ⟨rfl, fun _ => opened⟩
  accepted _ := rfl
  served _ := serves

/-- A connection comes up. -/
theorem PairInv.connects (inv : PairInv ctx s balance) (pairs : balance = 0 → s.accepted = true) :
    PairInv { ctx with handshakeBegin := none, refCount := ctx.refCount + 1 } s (balance + 1) where
  upLive := by
    intro up
    by_cases first : balance = 0
    · exact inv.accepted (pairs first)
    · exact inv.upLive (by omega)
  handshaking begun := absurd begun Bool.false_ne_true
  live := by
    intro live
    rcases inv.live live with up | ⟨accepted, -⟩
    · exact .inl (by omega)
    · exact .inr ⟨accepted, fun begun => absurd begun Bool.false_ne_true⟩
  accepted := inv.accepted
  served bound := inv.served (.inr (bound.resolve_left Bool.false_ne_true))

/-- A connection closes that is not the last one. -/
theorem PairInv.closes (inv : PairInv ctx s balance) (notOne : balance ≠ 1) {isClient : Bool}
    (pairs : isClient = true → s.accepted = true → ctx.handshakeBegin = none) :
    PairInv { ctx with refCount := ctx.refCount - 1, self := if isClient then none else ctx.self } s
      (balance - 1) where
  upLive up := inv.upLive (by omega)
  handshaking begun := by
    have noUp := inv.handshaking begun
    omega
  live := by
    intro live
    rcases inv.live live with up | ⟨accepted, started⟩
    · exact .inl (by omega)
    · refine .inr ⟨accepted, ?_⟩
      intro begun
      have side : isClient = false := by
        refine Bool.eq_false_of_not_eq_true ?_
        intro client
        rw [show ctx.handshakeBegin = none from pairs client accepted] at begun
        cases begun
      rw [side]
      exact started begun
  accepted := inv.accepted
  served := inv.served

/-- The last connection closes. -/
theorem PairInv.closesLast (inv : PairInv ctx s balance) (isOne : balance = 1) {refCount : UInt32} :
    PairInv (.blank refCount) ([Mark.disconnected, .reset].foldl Standing.after s) (balance - 1) ∧
      s.live = true := by
  refine ⟨pairInv_blank rfl ⟨fun isLive => absurd isLive Bool.false_ne_true, ?_⟩,
    inv.upLive isOne.ge⟩
  intro isUp
  omega

/-- A handshake has waited too long, and no session is accepted. -/
theorem PairInv.longStops (inv : PairInv ctx s balance) (begun : ctx.handshakeBegin.isSome)
    (notAccepted : s.accepted = false) {refCount : UInt32} :
    PairInv (.blank refCount) ([Mark.reset].foldl Standing.after s) balance := by
  have noUp := inv.handshaking begun
  refine pairInv_blank rfl ⟨?_, fun up => by omega⟩
  intro live
  have accepted := (inv.handshaking_live begun live).1
  rw [notAccepted] at accepted
  cases accepted

/-- A handshake has waited too long, and a session is accepted. -/
theorem PairInv.shortStops (inv : PairInv ctx s balance) (begun : ctx.handshakeBegin.isSome)
    (accepted : s.accepted = true) {refCount : UInt32} :
    PairInv (.blank refCount) ([Mark.reset, .disconnected].foldl Standing.after s) balance ∧
      s.live = true := by
  have noUp := inv.handshaking begun
  exact ⟨pairInv_blank rfl ⟨fun live => absurd live Bool.false_ne_true, fun up => by omega⟩,
    inv.accepted accepted⟩

/-- The context is reset without a word. -/
theorem PairInv.drops (inv : PairInv ctx s balance) (told : s.accepted = true → 1 ≤ balance)
    {refCount : UInt32} :
    PairInv (.blank refCount) ([Mark.reset].foldl Standing.after s) balance := by
  refine pairInv_blank rfl ⟨?_, inv.upLive⟩
  intro live
  rcases inv.live live with up | ⟨accepted, -⟩
  · exact up
  · exact told accepted

/-- **The step rule of one context.** -/
theorem pairInv_effect (effect : Effect ctx act ctx' noted) (inv : PairInv ctx s balance)
    (pairs : PairsOn ctx s.accepted balance act) (legal : LegalOn L ctx act)
    (zero : ctx.refCount = 0 → balance = 0) (one : ctx.refCount - 1 = 0 ↔ balance = 1) :
    PairInv ctx' (noted.foldl Standing.after s) (balanceAfter balance act) ∧
      Alternates s.live noted := by
  cases effect with
  | quiet bystander =>
      have same : balanceAfter balance act = balance := by
        cases act <;> first | rfl | cases bystander
      rw [same]
      exact ⟨inv, trivial⟩
  | connectTo remote localServer localClient now =>
      obtain ⟨rfl, noRefs, unbound⟩ := legal
      exact ⟨inv.begin_ unbound (zero noRefs) L.bound now remote.addr, trivial⟩
  | saved known =>
      exact ⟨⟨inv.upLive, inv.handshaking, inv.live, inv.accepted, inv.served⟩, trivial⟩
  | answered idle =>
      obtain ⟨rfl, empty⟩ := legal
      obtain ⟨noRefs, unbound⟩ := empty idle
      exact ⟨inv.begin_ unbound (zero noRefs) L.bound _ _, trivial⟩
  | unopened starts =>
      rw [balanceAfter_of_starts starts]
      have sameServer := (Activation.of_starts starts).2.1
      refine ⟨⟨inv.upLive, inv.handshaking, inv.live, inv.accepted, ?_⟩, trivial⟩
      intro bound
      rw [sameServer]
      exact inv.served bound
  | granted starts free opened granted =>
      rw [balanceAfter_of_starts starts]
      have begun := begun_of_starts legal starts
      have notLive := inv.notLive_of_free begun free
      refine ⟨⟨fun _ => rfl, inv.handshaking, fun _ => .inr ⟨rfl, fun _ => rfl⟩, fun _ => rfl,
        ?_⟩, notLive, trivial⟩
      intro _
      rw [(Activation.of_starts starts).2.1]
      exact inv.served (.inl begun)
  | refused starts free opened refused =>
      rw [balanceAfter_of_starts starts]
      have begun := begun_of_starts legal starts
      have notLive := inv.notLive_of_free begun free
      have noUp := inv.handshaking begun
      exact ⟨pairInv_blank rfl ⟨fun live => absurd live (by simp [notLive, Standing.after]),
        fun up => by omega⟩, trivial⟩
  | connected conn =>
      have after := inv.connects pairs
      split
      · exact ⟨⟨after.upLive, after.handshaking, after.live, after.accepted, after.served⟩, trivial⟩
      · exact ⟨after, trivial⟩
  | closedLast last =>
      obtain ⟨after, live⟩ := inv.closesLast (one.1 last)
      exact ⟨after, live, trivial⟩
  | closed more => exact ⟨inv.closes (fun isOne => more (one.2 isOne)) pairs, trivial⟩
  | longStop begun stops =>
      have isSome : ctx.handshakeBegin.isSome := by rw [begun]; rfl
      exact ⟨inv.longStops isSome ((pairs _ begun).2 stops), trivial⟩
  | shortStop begun stops =>
      have isSome : ctx.handshakeBegin.isSome := by rw [begun]; rfl
      obtain ⟨after, live⟩ := inv.shortStops isSome ((pairs _ begun).1 stops)
      exact ⟨after, live, trivial⟩
  | dropped drops =>
      have same : balanceAfter balance act = balance := by
        cases act <;> first | rfl | cases drops
      rw [same]
      refine ⟨inv.drops ?_, trivial⟩
      cases act with
      | datagramReceived buf alive => exact pairs drops
      | receive id ev alive => exact pairs drops
      | disconnect => exact pairs
      | _ => cases drops

end Step

/-! ## The session -/

namespace World

variable {L : Listener} {w : World}

def hasConnected (slot : Slot) (c : Conn) : Bool := decide (c.slot = slot) && c.connected

def hasClosed (slot : Slot) (c : Conn) : Bool := decide (c.slot = slot) && c.closed

/-- How many more of a context's connections have been connected than have been closed. -/
def balance (w : World) (slot : Slot) : Int :=
  (w.conns.countP (hasConnected slot) : Int) - w.conns.countP (hasClosed slot)

/-- An event counts once, for the context of its connection. -/
theorem countP_modify_slot {q : Conn → Bool} {f : Conn → Conn} {l : List Conn} {conn : Hquic}
    {c : Conn} (present : l[conn]? = some c) (before : q c = false) (event : q (f c) = true)
    (slot : (f c).slot = c.slot) (i : Slot) :
    (l.modify conn f).countP (fun c => decide (c.slot = i) && q c) =
      l.countP (fun c => decide (c.slot = i) && q c) + if i = c.slot then 1 else 0 := by
  have counted := countP_modify (fun c => decide (c.slot = i) && q c) f present
  simp only [before, event, slot, Bool.and_false, Bool.and_true, Bool.false_eq_true, if_false,
    Nat.add_zero, decide_eq_true_eq] at counted
  rw [counted]
  simp only [eq_comm]

theorem balance_after {slot : Slot} {act : Activation} (legal : w.Legal L slot act) (i : Slot) :
    (w.after slot act).balance i =
      if i = slot then balanceAfter (w.balance slot) act else w.balance i := by
  have others : (∀ conn, act ≠ .connected conn) →
      (∀ conn isClient alive, act ≠ .shutdownComplete conn isClient alive) →
      (w.after slot act).balance i = w.balance i := by
    intro notConnected notShutdown
    show ((w.connsAfter slot act).countP (hasConnected i) : Int) -
      (w.connsAfter slot act).countP (hasClosed i) = _
    rw [countP_connsAfter (fun _ => rfl) (fun c connected _ => by simp [hasConnected, connected])
        notConnected notShutdown,
      countP_connsAfter (fun _ => rfl) (fun c _ closed => by simp [hasClosed, closed])
        notConnected notShutdown, balance]
  cases act with
  | connected conn =>
      obtain ⟨c, started, rfl, first⟩ := legal
      obtain ⟨present, -, -⟩ := startedConn_some.1 started
      have counted : (w.conns.modify conn fun c => { c with connected := true }).countP
          (hasConnected i) = w.conns.countP (hasConnected i) + if i = c.slot then 1 else 0 :=
        countP_modify_slot present first rfl rfl i
      have same := countP_modify_same (p := hasClosed i)
        (f := fun c => { c with connected := true }) (fun _ => rfl) w.conns conn
      show ((w.conns.modify conn _).countP (hasConnected i) : Int) -
        (w.conns.modify conn _).countP (hasClosed i) = _
      rw [same, counted]
      by_cases target : i = c.slot
      · subst target
        simp only [if_true, balanceAfter, balance]
        omega
      · simp only [target, if_false, balance, Nat.add_zero]
  | shutdownComplete conn isClient alive =>
      obtain ⟨c, isOpen, rfl, -⟩ := legal
      obtain ⟨present, raises⟩ := openConn_some.1 isOpen
      have counted : (w.conns.modify conn fun c => { c with closed := true }).countP
          (hasClosed i) = w.conns.countP (hasClosed i) + if i = c.slot then 1 else 0 :=
        countP_modify_slot present (Conn.isOpen_iff.1 raises).1 rfl rfl i
      have same := countP_modify_same (p := hasConnected i)
        (f := fun c => { c with closed := true }) (fun _ => rfl) w.conns conn
      show ((w.conns.modify conn _).countP (hasConnected i) : Int) -
        (w.conns.modify conn _).countP (hasClosed i) = _
      rw [same, counted]
      by_cases target : i = c.slot
      · subst target
        simp only [if_true, balanceAfter, balance]
        omega
      · simp only [target, if_false, balance, Nat.add_zero]
  | _ =>
      rw [others (by simp) (by simp)]
      by_cases target : i = slot
      · rw [if_pos target, target]
        rfl
      · rw [if_neg target]

/-- Every reference count is its context's balance, modulo `2 ^ 32`. -/
def Tallies (w : World) : Prop :=
  ∀ slot, ((w.contexts slot).refCount.toNat : Int) = w.balance slot % 2 ^ 32

theorem tallies_after {slot : Slot} {act : Activation} (legal : w.Legal L slot act)
    (tallies : w.Tallies) : (w.after slot act).Tallies := by
  intro i
  rw [balance_after legal]
  by_cases target : i = slot
  · subst target
    have before := tallies i
    rw [if_pos rfl, refCount_after]
    cases act with
    | connected conn =>
        simp only [countAfter, balanceAfter, UInt32.toNat_add, UInt32.reduceToNat]
        omega
    | shutdownComplete conn isClient alive =>
        simp only [countAfter, balanceAfter, UInt32.toNat_sub, UInt32.reduceToNat]
        have := (w.contexts i).refCount.toNat_lt
        omega
    | _ => exact before
  · rw [if_neg target, after_contexts_ne _ target]
    exact tallies i

/-- With fewer than `2 ^ 32 - 1` connections the count is zero, or one, exactly as the balance is. -/
theorem refCount_of_tallies (tallies : w.Tallies) (few : w.conns.length < 2 ^ 32 - 1) (slot : Slot) :
    ((w.contexts slot).refCount = 0 → w.balance slot = 0) ∧
      ((w.contexts slot).refCount - 1 = 0 ↔ w.balance slot = 1) := by
  have connected := List.countP_le_length (p := hasConnected slot) (l := w.conns)
  have closed := List.countP_le_length (p := hasClosed slot) (l := w.conns)
  have tally := tallies slot
  have small := (w.contexts slot).refCount.toNat_lt
  have range : -(2 ^ 32 - 1) < w.balance slot ∧ w.balance slot < 2 ^ 32 - 1 := by
    unfold balance
    omega
  constructor
  · intro zero
    rw [zero] at tally
    simp at tally
    omega
  · rw [← UInt32.toNat_inj, UInt32.toNat_sub]
    simp only [UInt32.reduceToNat]
    omega

/-- What a step must meet: see the list at the head of this file. -/
def Pairs (w : World) (slot : Slot) (act : Activation) : Prop :=
  let ctx := w.contexts slot
  let accepted := (w.standing slot).accepted = true
  w.conns.length < 2 ^ 32 - 1 ∧
  match act with
  | .connected conn => w.balance slot = 0 →
      accepted ∨ ∃ c ∈ w.startedConn conn, c.isClient = true ∧ c.use = w.use slot
  | .shutdownComplete _ isClient _ => isClient = true → accepted → ctx.handshakeBegin = none
  | .doCheck now => ∀ handshakeBegin ∈ ctx.handshakeBegin,
      (shortStops ctx.ports (now - handshakeBegin) → accepted) ∧
        (longStops (now - handshakeBegin) → ¬ accepted)
  | .datagramReceived _ alive | .receive _ _ alive =>
      lockChannelContext alive ctx.channelContext = none → accepted → 1 ≤ w.balance slot
  | .disconnect => accepted → 1 ≤ w.balance slot
  | _ => True

/-- The history of every context is a sequence of accepts and disconnects, by turns, from an accept
on. -/
def Paired (w : World) : Prop := ∀ slot, Alternates false (w.history slot)

structure Pairing (w : World) : Prop where
  paired : w.Paired
  origins : w.Origins
  tallies : w.Tallies
  inv : ∀ slot, PairInv (core (w.contexts slot)) (w.standing slot) (w.balance slot)

theorem pairing_start : Pairing {} := by
  refine ⟨fun _ => trivial, origins_start, fun _ => rfl, ?_⟩
  intro slot
  refine pairInv_blank rfl ⟨fun live => absurd live Bool.false_ne_true, ?_⟩
  intro up
  have : (1 : Int) ≤ 0 := up
  omega

theorem pairsOn_of_pairs {slot : Slot} {act : Activation} (origins : w.Origins)
    (legal : w.Legal L slot act) (pairs : w.Pairs slot act) :
    PairsOn (core (w.contexts slot)) (w.standing slot).accepted (w.balance slot) act := by
  cases act with
  | connected conn =>
      intro even
      obtain ⟨d, found, here, -⟩ := legal
      rcases pairs.2 even with accepted | ⟨c, present, isClient, current⟩
      · exact accepted
      · obtain rfl : d = c := Option.some.inj (found.symm.trans present)
        obtain ⟨there, -, started⟩ := startedConn_some.1 present
        rw [← here] at current ⊢
        exact origins.ours d (List.mem_of_getElem? there) isClient started current
  | shutdownComplete => exact pairs.2
  | doCheck now =>
      intro handshakeBegin begun
      obtain ⟨short, long⟩ := pairs.2 handshakeBegin begun
      exact ⟨short, fun stops => Bool.eq_false_of_not_eq_true (long stops)⟩
  | datagramReceived => exact pairs.2
  | receive => exact pairs.2
  | disconnect => exact pairs.2
  | _ => trivial

/-- **The step rule.** -/
theorem pairing_after {slot : Slot} {act : Activation} (pairing : w.Pairing)
    (legal : w.Legal L slot act) (pairs : w.Pairs slot act) : (w.after slot act).Pairing := by
  obtain ⟨noted, effect, history⟩ := w.after_effect slot act
  obtain ⟨zero, one⟩ := refCount_of_tallies pairing.tallies pairs.1 slot
  obtain ⟨inv, alternates⟩ := pairInv_effect effect (pairing.inv slot)
    (pairsOn_of_pairs pairing.origins legal pairs) (legalOn_of_legal legal) zero one
  have standing := standing_after_self history
  refine ⟨?_, origins_after pairing.origins, tallies_after legal pairing.tallies, ?_⟩
  · intro i
    by_cases target : i = slot
    · rw [target, history]
      exact (alternates_append {} _ _).2 ⟨pairing.paired slot, alternates⟩
    · rw [after_history_ne _ target]
      exact pairing.paired i
  · intro i
    rw [balance_after legal]
    by_cases target : i = slot
    · rw [if_pos target, target, standing]
      exact inv
    · rw [if_neg target, after_contexts_ne _ target, standing_after_ne target]
      exact pairing.inv i

instance (w : World) (slot : Slot) (act : Activation) : Decidable (w.Pairs slot act) := by
  cases act <;> unfold Pairs <;> infer_instance

/-! ## One statement of a handler -/

/-- A statement that leaves the reference count keeps the pairing, if it keeps that of its context. -/
theorem Pairing.write {slot : Slot} (pairing : w.Pairing) {ctx : ConnectionContext}
    {calls : List Call} {noted : List Mark} (marked : marks slot calls = noted)
    (refCount : ctx.refCount = (w.contexts slot).refCount)
    (keeps : noted.count .reset = 1 ∨ noted.count .reset = 0 ∧
      ((w.standing slot).accepted = true →
        (noted.foldl Standing.after (w.standing slot)).accepted = true))
    (alternates : Alternates (w.standing slot).live noted)
    (inv : PairInv (core ctx) (noted.foldl Standing.after (w.standing slot)) (w.balance slot)) :
    (w.write slot ctx calls).Pairing := by
  subst marked
  refine ⟨?_, pairing.origins.write keeps, ?_, ?_⟩
  · intro i
    by_cases target : i = slot
    · rw [target, write_history_self]
      exact (alternates_append {} _ _).2 ⟨pairing.paired slot, alternates⟩
    · rw [write_history_ne target]
      exact pairing.paired i
  · intro i
    show _ = w.balance i % 2 ^ 32
    by_cases target : i = slot
    · rw [target, write_contexts_self, refCount]
      exact pairing.tallies slot
    · rw [write_contexts_ne target]
      exact pairing.tallies i
  · intro i
    show PairInv _ _ (w.balance i)
    by_cases target : i = slot
    · rw [target, write_contexts_self, standing_write_self]
      exact inv
    · rw [write_contexts_ne target, standing_write_ne target]
      exact pairing.inv i

/-- A statement that leaves no mark, and leaves alone what the invariant of its context is about. -/
theorem Pairing.write_silent {slot : Slot} (pairing : w.Pairing) {ctx : ConnectionContext}
    {calls : List Call} (silent : marks slot calls = [])
    (refCount : ctx.refCount = (w.contexts slot).refCount)
    (inv : PairInv (core ctx) (w.standing slot) (w.balance slot)) :
    (w.write slot ctx calls).Pairing :=
  pairing.write silent refCount (.inr ⟨rfl, id⟩) trivial inv

/-- The connections are written, none of which has had an event. -/
theorem Pairing.withConns (pairing : w.Pairing) {conns : List Conn} {strms : List Strm}
    (origins : (w.withConns conns strms).Origins)
    (same : ∀ p : Conn → Bool, (∀ c, p { c with started := true } = p c) →
      (∀ c, c.connected = false → c.closed = false → p c = false) →
        conns.countP p = w.conns.countP p) : (w.withConns conns strms).Pairing := by
  have balance : ∀ i, (w.withConns conns strms).balance i = w.balance i := by
    intro i
    show (conns.countP (hasConnected i) : Int) - conns.countP (hasClosed i) = _
    rw [same (hasConnected i) (fun _ => rfl) (fun c connected _ => by simp [hasConnected, connected]),
      same (hasClosed i) (fun _ => rfl) (fun c _ closed => by simp [hasClosed, closed]),
      World.balance]
  refine ⟨pairing.paired, origins, ?_, ?_⟩
  · intro i
    rw [balance]
    exact pairing.tallies i
  · intro i
    rw [balance]
    exact pairing.inv i

end World

end Koisyn.Session
