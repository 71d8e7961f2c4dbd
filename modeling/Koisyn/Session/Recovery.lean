/-
# Koisyn.Session.Recovery — no context is lost for good

`FindMatchingEntry` takes a context for free when its reference count and its ports are zero.  Two
things bring a context back to that: the daemon, which looks at contexts with a handshake time only,
and the `SHUTDOWN_COMPLETE` that decrements the count to zero.  `Recoverable` says that one of them is
still to come; `late_doCheck_resets` and `shutdowns_reset` say that it does what it is relied on for.

`none_lost`: every context is recoverable in every state of a run in which the reference counts are
right (`Balanced`) and every first packet to an idle context gets a socket (`Equipped`).  Without a socket
`Receive1st` leaves the peer's ports in a context that nobody looks at any more
(`unboundFirst_loses`).
-/
import Koisyn.Session.RefCount
import Koisyn.Session.History

namespace Koisyn.Session

open Koisyn.Channel
open Koisyn.Theory.Run

set_option autoImplicit false

/-- A context without a handshake time and a reference count has no ports. -/
def Vacant (ctx : Core) : Prop := ctx.handshakeBegin = none → ctx.refCount = 0 → ctx.ports = {}

/-- A first packet that finds no handshake time gets a socket. -/
def Activation.Equipped (handshakeBegin : Option Nat) : Activation → Prop
  | .receive1st _ _ _ _ sock _ => handshakeBegin.isSome = true ∨ sock.isSome = true
  | _ => True

/-- **The step rule of one context.** -/
theorem vacant_effect {L : Listener} {ctx ctx' : Core} {act : Activation} {noted : List Mark}
    (effect : Effect ctx act ctx' noted) (vacant : Vacant ctx) (legal : LegalOn L ctx act)
    (equipped : act.Equipped ctx.handshakeBegin)
    (counts : ∀ conn, act = .connected conn → ctx.refCount + 1 ≠ 0) : Vacant ctx' := by
  cases effect with
  | quiet => exact vacant
  | connectTo =>
      intro idle _
      cases idle
  | saved known =>
      intro idle _
      have begun : ctx.handshakeBegin.isSome = true := by
        rcases equipped with begun | socket
        · exact begun
        · refine known.resolve_right fun none_ => ?_
          rw [none_] at socket
          cases socket
      rw [show ctx.handshakeBegin = none from idle] at begun
      cases begun
  | answered =>
      intro idle _
      cases idle
  | unopened starts =>
      intro idle _
      have begun := begun_of_starts legal starts
      rw [show ctx.handshakeBegin = none from idle] at begun
      cases begun
  | granted starts =>
      intro idle _
      have begun := begun_of_starts legal starts
      rw [show ctx.handshakeBegin = none from idle] at begun
      cases begun
  | connected conn => exact fun _ zero => absurd zero (counts conn rfl)
  | closed more => exact fun _ zero => absurd zero more
  | refused => exact fun _ _ => rfl
  | closedLast => exact fun _ _ => rfl
  | longStop => exact fun _ _ => rfl
  | shortStop => exact fun _ _ => rfl
  | dropped => exact fun _ _ => rfl

namespace World

variable (w : World)

/-- The number of a context's connections whose `SHUTDOWN_COMPLETE` is still to come. -/
def openCount (slot : Slot) : Nat := w.conns.countP fun c => decide (c.slot = slot) && c.isOpen

/-- The context is free, or the daemon looks at it, or it has at least as many connections to close as
its reference count says. -/
def Recoverable (slot : Slot) : Prop :=
  isEmpty (w.contexts slot) = true ∨ (w.contexts slot).handshakeBegin.isSome = true ∨
    0 < (w.contexts slot).refCount.toNat ∧ (w.contexts slot).refCount.toNat ≤ w.openCount slot

/-- The reference counts are right, and a first packet to an idle context gets a socket. -/
def Provided (slot : Slot) (act : Activation) : Prop :=
  w.Balanced slot act ∧ act.Equipped (w.contexts slot).handshakeBegin

variable {L : Listener} {w : World}

theorem up_le_openCount (slot : Slot) : w.up slot ≤ w.openCount slot := by
  refine List.countP_mono_left fun c _ isUp => ?_
  simp only [World.isUp, Bool.and_eq_true] at isUp ⊢
  exact ⟨isUp.1.1, isUp.2⟩

/-- The counts are right, and idle contexts are vacant. -/
structure Kept (w : World) : Prop where
  counts : w.CountsUp
  vacant : ∀ slot, Vacant (core (w.contexts slot))

theorem Kept.recoverable (kept : w.Kept) (slot : Slot) : w.Recoverable slot := by
  by_cases begun : (w.contexts slot).handshakeBegin.isSome = true
  · exact .inr (.inl begun)
  · have idle : (w.contexts slot).handshakeBegin = none := by simpa using begun
    by_cases zero : (w.contexts slot).refCount = 0
    · have ports : (w.contexts slot).ports = {} := kept.vacant slot idle zero
      exact .inl (isEmpty_iff.2 ⟨zero, ports⟩)
    · refine .inr (.inr ⟨?_, ?_⟩)
      · refine Nat.pos_of_ne_zero fun none_ => zero ?_
        exact UInt32.toNat_inj.1 none_
      · rw [kept.counts slot]
        exact up_le_openCount slot

theorem kept_after {slot : Slot} {act : Activation} (kept : w.Kept) (legal : w.Legal L slot act)
    (provided : w.Provided slot act) : (w.after slot act).Kept := by
  refine ⟨(countsUp_after kept.counts legal).1 provided.1, ?_⟩
  intro i
  by_cases target : i = slot
  · rw [target]
    obtain ⟨noted, effect, -⟩ := w.after_effect slot act
    refine vacant_effect effect (kept.vacant slot) (legalOn_of_legal legal) provided.2 ?_
    rintro conn rfl wraps
    have fits : w.up slot + 1 < 2 ^ 32 := provided.1
    have count := congrArg UInt32.toNat wraps
    rw [UInt32.toNat_add, show (core (w.contexts slot)).refCount.toNat = w.up slot from
      kept.counts slot] at count
    simp at count
    omega
  · rw [after_contexts_ne _ target]
    exact kept.vacant i

/-- **No context is lost for good.** -/
theorem none_lost (L : Listener) (labels : List Label)
    (every : EveryStep (step L) (OnActivation L Provided) {} labels) :
    Always (step L) (fun w => ∀ slot, w.Recoverable slot) {} labels := by
  have start : Kept {} := ⟨fun _ => rfl, fun _ _ _ => rfl⟩
  have always := always_of_everyActivation (fun w slot act => kept_after) start every
  exact always.mono fun w kept => kept.recoverable

/-! ## What the daemon and the last `SHUTDOWN_COMPLETE` do -/

/-- A pass of the daemon after the long timeout frees a handshaking context, but for its count. -/
theorem late_doCheck_resets (slot : Slot) (ctx : ConnectionContext) {handshakeBegin now : Nat}
    (begun : ctx.handshakeBegin = some handshakeBegin) (late : longStops (now - handshakeBegin)) :
    (doCheck slot ctx now).1 = ctx.reset := by
  have notEarly : ¬ now - handshakeBegin < retryTimeout - milliseconds 2 := by
    unfold longStops at late
    unfold longStopRetryTimeout at late
    unfold retryTimeout
    simp only [seconds, milliseconds] at late ⊢
    omega
  simp only [doCheck, begun, notEarly, if_false, late, if_true]

theorem openCount_shutdownComplete {slot i : Slot} {conn : Hquic} (isClient : Bool)
    (alive : ObjectId → Bool) {c : Conn} (isOpen : w.openConn conn = some c) (here : c.slot = slot) :
    (w.after slot (.shutdownComplete conn isClient alive)).openCount i + (if slot = i then 1 else 0) =
      w.openCount i := by
  obtain ⟨present, raises⟩ := openConn_some.1 isOpen
  have counted := countP_modify (fun c => decide (c.slot = i) && c.isOpen)
    (fun c => { c with closed := true }) present
  simp only [here, raises, Conn.isOpen_closed, Bool.and_true, Bool.and_false, Bool.false_eq_true, if_false,
    Nat.add_zero, decide_eq_true_eq] at counted
  exact counted

theorem use_le_after (slot i : Slot) (act : Activation) : w.use i ≤ (w.after slot act).use i := by
  by_cases target : i = slot
  · rw [target, use_after_self (w.after_history_self slot act)]
    exact Nat.le_add_right _ _
  · rw [use_after_ne target]

theorem use_le_run {t : World} {labels : List Label} (run : exec (step L) w labels = some t)
    (slot : Slot) : w.use slot ≤ t.use slot := by
  have always : Always (step L) (fun t => w.use slot ≤ t.use slot) w labels := by
    refine always_of_keeps ?_ labels (le_refl (w.use slot))
    intro s l t le taken
    rcases step_cases taken with ⟨-, rfl⟩ | ⟨target, act, -, -, rfl⟩
    · exact le
    · exact le.trans (use_le_after target slot act)
  exact always.last run

/-- One `SHUTDOWN_COMPLETE` on the slot resets the context, or leaves one connection and one reference
less. -/
theorem shutdownComplete_resets_or_counts {slot : Slot} (conn : Hquic) (isClient : Bool)
    (alive : ObjectId → Bool) (positive : 0 < (w.contexts slot).refCount.toNat) :
    w.use slot < (w.after slot (.shutdownComplete conn isClient alive)).use slot ∨
      0 < ((w.after slot (.shutdownComplete conn isClient alive)).contexts slot).refCount.toNat ∧
        ((w.after slot (.shutdownComplete conn isClient alive)).contexts slot).refCount.toNat + 1 =
          (w.contexts slot).refCount.toNat := by
  obtain ⟨noted, effect, history⟩ :=
    w.after_effect slot (.shutdownComplete conn isClient alive)
  rw [use_after_self history, refCount_after, countAfter]
  have fewer : ((w.contexts slot).refCount - 1).toNat = (w.contexts slot).refCount.toNat - 1 :=
    UInt32.toNat_sub_of_le _ _ (UInt32.le_iff_toNat_le.2 positive)
  rcases effect.closes with ⟨-, rfl⟩ | ⟨more, -⟩
  · exact .inl (Nat.lt_add_of_pos_right Nat.one_pos)
  · have nonzero : ((w.contexts slot).refCount - 1).toNat ≠ 0 := fun zero =>
      more (UInt32.toNat_inj.1 zero)
    right
    omega

/-- **When the connections of a context with a reference count have all closed, it has been reset**,
in whatever order they close. -/
theorem shutdowns_reset {t : World} {slot : Slot} {labels : List Label}
    (closing : ∀ l ∈ labels, ∃ conn alive, l = .shutdownComplete conn alive)
    (run : exec (step L) w labels = some t) (positive : 0 < (w.contexts slot).refCount.toNat)
    (enough : (w.contexts slot).refCount.toNat ≤ w.openCount slot) (drained : t.openCount slot = 0) :
    w.use slot < t.use slot := by
  induction labels generalizing w with
  | nil =>
      obtain rfl := Option.some.inj run
      omega
  | cons l labels ih =>
      obtain ⟨conn, alive, rfl⟩ := closing l List.mem_cons_self
      simp only [exec_cons, Option.bind_eq_some_iff] at run
      obtain ⟨middle, taken, rest⟩ := run
      have later := fun l member => closing l (List.mem_cons_of_mem _ member)
      rcases step_cases taken with ⟨route, -⟩ | ⟨target, act, route, -, rfl⟩
      · simp [World.route] at route
      · cases routed_of_route route with
        | @shutdownComplete _ _ c isOpen =>
            have counted := openCount_shutdownComplete (i := slot) c.isClient alive isOpen rfl
            by_cases ours : c.slot = slot
            · rw [if_pos ours] at counted
              subst ours
              rcases shutdownComplete_resets_or_counts conn c.isClient alive positive with
                resets | ⟨positive', fewer⟩
              · exact resets.trans_le (use_le_run rest _)
              · exact (use_le_after _ _ _).trans_lt (ih later rest positive' (by omega))
            · have other : slot ≠ c.slot := Ne.symm ours
              rw [if_neg ours, Nat.add_zero] at counted
              rw [← use_after_ne other]
              refine ih later rest ?_ ?_
              · rwa [after_contexts_ne _ other]
              · rwa [after_contexts_ne _ other, counted]

/-! ## Runs -/

instance (w : World) (slot : Slot) : Decidable (w.Recoverable slot) :=
  inferInstanceAs (Decidable (_ ∨ _ ∨ _ ∧ _))

instance decidableEquipped (handshakeBegin : Option Nat) :
    ∀ act : Activation, Decidable (act.Equipped handshakeBegin)
  | .receive1st _ _ _ _ _ _ => inferInstanceAs (Decidable (_ ∨ _))
  | .connectTo _ _ _ _ | .receive2nd _ _ _ _ | .receive3rd _ _ | .doCheck _
  | .newConnection _ _ | .connected _ | .shutdownComplete _ _ _ | .peerStreamStarted _ _ _
  | .datagramStateChanged _ | .datagramReceived _ _ | .receive _ _ _ | .disconnect
  | .unreliablePacketSend _ _ => isTrue trivial

instance (w : World) (slot : Slot) (act : Activation) : Decidable (w.Provided slot act) :=
  inferInstanceAs (Decidable (_ ∧ _))

/-- We connect, the peer answers, both connections come up, and both go. -/
def bothSides : List Label :=
  [.connectTo (some samplePeer) (fun _ => false) (some 2) 0,
    .packet (portBytes 3 4 1 2) samplePeer (fun _ => false) none 0 sampleStart,
    .newConnection { family := .inet6, port := 4, ipv6 := 1 } true,
    .connected 0, .connected 1, .shutdownComplete 1 fun _ => true,
    .shutdownComplete 0 fun _ => true]

theorem none_lost_bothSides :
    Always (step sampleListener) (fun w => ∀ slot, w.Recoverable slot) {} bothSides :=
  none_lost sampleListener bothSides (by decide +kernel)

/-- A peer's first packet comes while no socket can be bound. -/
def unboundFirst : List Label :=
  [.packet (portBytes 3 4 0 0) samplePeer (fun _ => false) none 0 sampleStart]

theorem unboundFirst_loses :
    (exec (step sampleListener) {} unboundFirst).map (fun w => (w.contexts 0).ports) =
        some ⟨3, 4, 0, 0⟩ ∧
      ¬ Always (step sampleListener) (fun w => ∀ slot, w.Recoverable slot) {} unboundFirst := by
  refine ⟨by decide +kernel, by decide +kernel⟩

/-- A connection that closes without having been connected loses its context, too: the count stays at
`2 ^ 32 - 1` when the daemon has reset the rest. -/
theorem failedHandshake_loses :
    ¬ Always (step sampleListener) (fun w => ∀ slot, w.Recoverable slot) {}
      (failedHandshake ++ [.doCheck 0 (seconds 61)]) := by decide +kernel

end World

end Koisyn.Session
