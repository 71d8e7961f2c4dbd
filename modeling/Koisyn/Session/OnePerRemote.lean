/-
# Koisyn.Session.OnePerRemote — at most one context for a remote address

`FindMatchingEntry` skips a context whose `ModifyMutex` another thread holds.  When that context is the
one with the remote's address, the scan reports an empty context instead, and `ConnectTo` or
`Receive1st` makes a second one for the same remote.

`one_per_remote` is exact: in a run no two contexts ever have the same non-zero remote if and only if
no scan that goes on to make a context skips one with that remote (`Sees`).  `skippedTwice` is a run
that does.
-/
import Koisyn.Session.Grounded

namespace Koisyn.Session

open Koisyn.Channel
open Koisyn.Theory.Run

set_option autoImplicit false

/-- The remote that an activation gives to its context. -/
def Activation.announces (handshakeBegin : Option Nat) : Activation → Option Endpoint
  | .connectTo remote _ _ _ => some remote
  | .receive1st _ _ remote _ sock _ =>
      if handshakeBegin.isNone && sock.isSome then some remote else none
  | _ => none

/-- An activation gives its context the remote it announces, keeps the one it has, or blanks it. -/
theorem Effect.remoteSentinel {ctx ctx' : Core} {act : Activation} {noted : List Mark}
    (effect : Effect ctx act ctx' noted) :
    (∃ remote, act.announces ctx.handshakeBegin = some remote ∧
        ctx'.remoteSentinel = remote.addr) ∨
      act.announces ctx.handshakeBegin = none ∧
        (ctx'.remoteSentinel = ctx.remoteSentinel ∨ ctx'.remoteSentinel = {}) := by
  have silent : ∀ {ports ports' : Ports} {env : StartEnv},
      act.starts ports = some (ports', env) → act.announces ctx.handshakeBegin = none := by
    intro ports ports' env starts
    cases act <;> first | rfl | cases starts
  cases effect with
  | quiet bystander =>
      refine .inr ⟨?_, .inl rfl⟩
      cases act <;> first | rfl | cases bystander
  | connectTo remote localServer localClient now => exact .inl ⟨remote, rfl, rfl⟩
  | saved known =>
      refine .inr ⟨?_, .inl rfl⟩
      rcases known with begun | unbound
      · simp [Activation.announces, Option.isSome_iff_ne_none.1 begun]
      · simp [Activation.announces, unbound]
  | answered idle =>
      rename_i remote _ _ _
      exact .inl ⟨remote, by simp [Activation.announces, idle], rfl⟩
  | unopened starts => exact .inr ⟨silent starts, .inl rfl⟩
  | granted starts => exact .inr ⟨silent starts, .inl rfl⟩
  | refused starts => exact .inr ⟨silent starts, .inr rfl⟩
  | connected conn => exact .inr ⟨rfl, .inl rfl⟩
  | closedLast => exact .inr ⟨rfl, .inr rfl⟩
  | closed => exact .inr ⟨rfl, .inl rfl⟩
  | longStop => exact .inr ⟨rfl, .inr rfl⟩
  | shortStop => exact .inr ⟨rfl, .inr rfl⟩
  | dropped drops =>
      refine .inr ⟨?_, .inr rfl⟩
      cases act <;> first | rfl | cases drops

namespace World

variable {L : Listener} {w : World}

/-- No two contexts have the same non-zero remote. -/
def OnePerRemote (w : World) : Prop :=
  ∀ i j, i ≠ j →
    quicAddrCompare (w.contexts i).remoteSentinel (w.contexts j).remoteSentinel = true →
      (w.contexts i).remoteSentinel = {}

/-- Some context that the scan can lock is empty. -/
def HasRoom (w : World) (busy : Slot → Bool) : Prop :=
  ∃ j, busy j = false ∧ isEmpty (w.contexts j) = true

/-- No context that the scan skips has this remote. -/
def SkipsOthers (w : World) (busy : Slot → Bool) (remote : Endpoint) : Prop :=
  ∀ i, busy i = true → quicAddrCompare (w.contexts i).remoteSentinel remote.addr = false

/-- Eight bytes whose first pair of ports is known and whose second is zero. -/
def IsFirstPacket (data : List UInt8) : Prop :=
  data.length = 8 ∧ ∃ ports ∈ convertBufferToPorts data,
    knownPeerPorts ports = true ∧ knownLocalPorts ports = false

/-- A scan that goes on to make a context skips none with the remote. -/
def Sees (w : World) : Label → Prop
  | .connectTo parsed busy sock _ =>
      ∀ remote ∈ parsed, sock.isSome → w.HasRoom busy → w.SkipsOthers busy remote
  | .packet data remote busy sock _ _ =>
      IsFirstPacket data → sock.isSome → w.HasRoom busy → w.SkipsOthers busy remote
  | _ => True

/-- Remotes are blank or addresses of the sentinel's socket. -/
def Addressed (w : World) : Prop :=
  ∀ i, (w.contexts i).remoteSentinel = {} ∨ ∃ remote : Endpoint,
    (w.contexts i).remoteSentinel = remote.addr

theorem addressed_after {slot : Slot} {act : Activation} (addressed : w.Addressed) :
    (w.after slot act).Addressed := by
  intro i
  by_cases target : i = slot
  · obtain ⟨noted, effect, -⟩ := w.after_effect slot act
    rw [target]
    rcases effect.remoteSentinel with ⟨remote, -, announced⟩ | ⟨-, same | blank⟩
    · exact .inr ⟨remote, announced⟩
    · have kept : ((w.after slot act).contexts slot).remoteSentinel =
        (w.contexts slot).remoteSentinel := same
      rw [kept]
      exact addressed slot
    · exact .inl blank
  · rw [after_contexts_ne _ target]
    exact addressed i

/-- Two contexts with one remote are one context. -/
theorem OnePerRemote.unique (one : w.OnePerRemote) (addressed : w.Addressed) {i j : Slot}
    {remote : Endpoint}
    (atI : quicAddrCompare (w.contexts i).remoteSentinel remote.addr = true)
    (atJ : quicAddrCompare (w.contexts j).remoteSentinel remote.addr = true) : i = j := by
  have isRemote : ∀ {k}, quicAddrCompare (w.contexts k).remoteSentinel remote.addr = true →
      (w.contexts k).remoteSentinel = remote.addr := by
    intro k same
    rcases addressed k with blank | ⟨other, isOther⟩
    · rw [blank, quicAddrCompare_blank] at same
      cases same
    · rw [isOther, quicAddrCompare_addr] at same
      rw [isOther, same]
  by_contra differ
  have blank := one i j differ (by rw [isRemote atI, isRemote atJ]; exact quicAddrCompare_self _)
  rw [blank, quicAddrCompare_blank] at atI
  cases atI

/-- A context that gets a remote is the only one for it if no other is for that remote. -/
theorem onePerRemote_of_announced {slot : Slot} {act : Activation} {remote : Endpoint}
    (one : w.OnePerRemote) (addressed : w.Addressed)
    (isRemote : ((w.after slot act).contexts slot).remoteSentinel = remote.addr) :
    (w.after slot act).OnePerRemote ↔ ∀ i, i ≠ slot →
      quicAddrCompare (w.contexts i).remoteSentinel remote.addr = false := by
  have others : ∀ {i}, i ≠ slot → (w.after slot act).contexts i = w.contexts i :=
    fun other => after_contexts_ne _ other act
  constructor
  · intro after i other
    refine Bool.eq_false_of_not_eq_true ?_
    intro same
    have blank := after i slot other (by rw [others other, isRemote]; exact same)
    rw [others other] at blank
    rw [blank, quicAddrCompare_blank] at same
    cases same
  · intro differ i j distinct same
    by_cases atI : i = slot
    · subst atI
      have other : j ≠ i := Ne.symm distinct
      rw [isRemote, others other] at same
      rcases addressed j with blank | ⟨e, isE⟩
      · rw [blank, quicAddrCompare_addr_blank] at same
        cases same
      · rw [isE, quicAddrCompare_addr] at same
        have apart := differ j other
        rw [isE, same, quicAddrCompare_self] at apart
        cases apart
    · rw [others atI] at same ⊢
      by_cases atJ : j = slot
      · rw [atJ, isRemote, differ i atI] at same
        cases same
      · rw [others atJ] at same
        exact one i j distinct same

/-- A context that keeps its remote or loses it leaves every remote one context. -/
theorem onePerRemote_of_kept {slot : Slot} {act : Activation} (one : w.OnePerRemote)
    (addressed : w.Addressed)
    (kept : ((w.after slot act).contexts slot).remoteSentinel =
        (w.contexts slot).remoteSentinel ∨
      ((w.after slot act).contexts slot).remoteSentinel = {}) :
    (w.after slot act).OnePerRemote := by
  have others : ∀ {i}, i ≠ slot → (w.after slot act).contexts i = w.contexts i :=
    fun other => after_contexts_ne _ other act
  intro i j distinct same
  by_cases atI : i = slot
  · subst atI
    have other : j ≠ i := Ne.symm distinct
    rcases kept with isSame | isBlank
    · rw [isSame, others other] at same
      rw [isSame]
      exact one i j distinct same
    · exact isBlank
  · rw [others atI] at same ⊢
    by_cases atJ : j = slot
    · subst atJ
      rcases kept with isSame | isBlank
      · rw [isSame] at same
        exact one i j distinct same
      · rw [isBlank] at same
        rcases addressed i with blank | ⟨e, isE⟩
        · exact blank
        · rw [isE, quicAddrCompare_addr_blank] at same
          cases same
    · rw [others atJ] at same
      exact one i j distinct same

/-- An activation keeps one context per remote exactly if no other context has the remote it
announces. -/
theorem onePerRemote_after {slot : Slot} {act : Activation} (one : w.OnePerRemote)
    (addressed : w.Addressed) :
    (w.after slot act).OnePerRemote ↔
      ∀ remote ∈ act.announces (w.contexts slot).handshakeBegin, ∀ i, i ≠ slot →
        quicAddrCompare (w.contexts i).remoteSentinel remote.addr = false := by
  obtain ⟨noted, effect, -⟩ := w.after_effect slot act
  rcases effect.remoteSentinel with ⟨remote, announces, announced⟩ | ⟨silent, kept⟩
  · rw [onePerRemote_of_announced one addressed announced,
      show act.announces (w.contexts slot).handshakeBegin = some remote from announces]
    simp
  · rw [show act.announces (w.contexts slot).handshakeBegin = none from silent]
    exact iff_of_true (onePerRemote_of_kept one addressed kept)
      fun r member => (Option.not_mem_none r member).elim

/-! ## The scans -/

/-- A label that makes a context for a remote has scanned for it with room, and found none. -/
theorem sees_of_route {l : Label} {slot : Slot} {act : Activation} (sees : w.Sees l)
    (route : w.route L l = some (some (slot, act))) {remote : Endpoint}
    (announces : act.announces (w.contexts slot).handshakeBegin = some remote) :
    ∀ i, quicAddrCompare (w.contexts i).remoteSentinel remote.addr = false := by
  have all : ∀ {busy : Slot → Bool}, findMatchingEntry w.contexts busy remote.addr = (false, some slot) →
      (w.HasRoom busy → w.SkipsOthers busy remote) →
      ∀ i, quicAddrCompare (w.contexts i).remoteSentinel remote.addr = false := by
    intro busy entry skips i
    obtain ⟨free, empty, differ⟩ := findMatchingEntry_empty entry
    cases skipped : busy i with
    | true => exact skips ⟨slot, free, empty⟩ i skipped
    | false => exact differ i skipped
  cases routed_of_route route with
  | connectTo entry =>
      obtain rfl := Option.some.inj announces
      exact all entry (sees _ rfl rfl)
  | @receive1st _ _ _ _ _ _ _ ports isMatching eight read entry peer noLocal matched =>
      simp only [Activation.announces, Option.ite_none_right_eq_some, Bool.and_eq_true,
        Option.isNone_iff_eq_none, Option.some.injEq] at announces
      obtain ⟨⟨idle, isBound⟩, rfl⟩ := announces
      cases isMatching with
      | true =>
          have begun := matched rfl
          rw [idle] at begun
          cases begun
      | false => exact all entry (sees ⟨eight, ports, read, peer, noLocal⟩ isBound)
  | _ => cases announces

theorem entry_of_skipped (one : w.OnePerRemote) (addressed : w.Addressed) {busy : Slot → Bool}
    {remote : Endpoint} {i : Slot} (skipped : busy i = true)
    (same : quicAddrCompare (w.contexts i).remoteSentinel remote.addr = true)
    (room : w.HasRoom busy) :
    ∃ j, findMatchingEntry w.contexts busy remote.addr = (false, some j) ∧ i ≠ j ∧
      isEmpty (w.contexts j) = true := by
  have unmatched : (List.finRange maxConnections).find? (fun j =>
      !busy j && quicAddrCompare (w.contexts j).remoteSentinel remote.addr) = none := by
    refine List.find?_eq_none.2 fun j _ => ?_
    simp only [Bool.and_eq_true, Bool.not_eq_true', not_and]
    intro free matched
    obtain rfl := one.unique addressed same matched
    rw [skipped] at free
    cases free
  have hasEmpty : ((List.finRange maxConnections).find? fun j =>
      !busy j && isEmpty (w.contexts j)).isSome = true := by
    obtain ⟨j, free, empty⟩ := room
    exact List.find?_isSome.2 ⟨j, List.mem_finRange j, by simp [free, empty]⟩
  obtain ⟨j, first⟩ := Option.isSome_iff_exists.1 hasEmpty
  have found := List.find?_some first
  simp only [Bool.and_eq_true, Bool.not_eq_true'] at found
  refine ⟨j, by rw [findMatchingEntry_eq, unmatched, first], ?_, found.2⟩
  rintro rfl
  rw [skipped] at found
  exact absurd found.1 (by decide)

/-- A scan that skips the remote's context, with room, makes a second one. -/
theorem creates_of_not_sees {l : Label} (one : w.OnePerRemote) (addressed : w.Addressed)
    (grounded : w.Grounded) (blind : ¬ w.Sees l) :
    ∃ slot act remote i, w.route L l = some (some (slot, act)) ∧ ¬ w.Fails slot act ∧
      act.announces (w.contexts slot).handshakeBegin = some remote ∧ i ≠ slot ∧
      quicAddrCompare (w.contexts i).remoteSentinel remote.addr = true := by
  cases l with
  | connectTo parsed busy sock now =>
      simp only [Sees, SkipsOthers, not_forall, Bool.not_eq_false] at blind
      obtain ⟨remote, isParsed, isBound, room, i, skipped, same⟩ := blind
      obtain ⟨localClient, bound⟩ := Option.isSome_iff_exists.1 isBound
      obtain ⟨j, entry, differ, -⟩ := entry_of_skipped one addressed skipped same room
      refine ⟨j, .connectTo remote L.port localClient now, remote, i, ?_, ?_, rfl, differ, same⟩
      · rw [Option.mem_def.1 isParsed, bound]
        simp [World.route, entry]
      · exact not_fails rfl (by simp [Activation.run, returning, connectTo, sendPorts, markOf]) rfl
  | packet data remote busy sock now start =>
      simp only [Sees, SkipsOthers, not_forall, Bool.not_eq_false] at blind
      obtain ⟨⟨eight, ports, read, peer, noLocal⟩, isBound, room, i, skipped, same⟩ := blind
      obtain ⟨localClient, bound⟩ := Option.isSome_iff_exists.1 isBound
      obtain ⟨j, entry, differ, empty⟩ := entry_of_skipped one addressed skipped same room
      have idle : (w.contexts j).handshakeBegin = none := grounded.idle_of_empty empty
      refine ⟨j, .receive1st ports.remoteServer ports.remoteClient remote L.port sock now, remote, i,
        ?_, ?_, ?_, differ, same⟩
      · rw [Option.mem_def] at read
        simp [World.route, consumeRawUdpData, eight, read, entry, peer, noLocal]
      · refine not_fails rfl ?_ rfl
        simp [Activation.run, returning, receive1st, idle, bound, sendPorts, markOf]
      · simp [Activation.announces, idle, isBound]
  | _ => exact absurd trivial blind

structure Single (w : World) : Prop where
  grounded : w.Grounded
  addressed : w.Addressed
  one : w.OnePerRemote

theorem single_start : Single {} where
  grounded := grounded_start
  addressed _ := .inl rfl
  one _ _ _ _ := rfl

theorem single_step (single : w.Single) (l : Label) :
    w.Sees l ↔ ∀ t, w.step L l = some t → t.Single := by
  rw [forall_step_iff single]
  constructor
  · intro sees slot act route _
    refine ⟨grounded_after single.grounded (route_legal route), addressed_after single.addressed,
      (onePerRemote_after single.one single.addressed).2 fun remote announces i _ => ?_⟩
    exact sees_of_route sees route announces i
  · intro kept
    by_contra blind
    obtain ⟨slot, act, remote, i, route, works, announces, differ, same⟩ :=
      creates_of_not_sees (L := L) single.one single.addressed single.grounded blind
    have one := (kept slot act route works).one
    rw [(onePerRemote_after single.one single.addressed).1 one remote announces i differ] at same
    cases same

/-- **One context per remote, exactly.** -/
theorem one_per_remote (L : Listener) (labels : List Label) :
    Always (step L) OnePerRemote {} labels ↔ EveryStep (step L) Sees {} labels := by
  have exact_ : Always (step L) Single {} labels ↔ EveryStep (step L) Sees {} labels :=
    always_iff_everyStep (fun w l single => single_step single l) labels single_start
  rw [← exact_]
  constructor
  · intro one
    have others : Always (step L) (fun w => w.Grounded ∧ w.Addressed) {} labels :=
      always_of_after
        (fun _ _ _ both legal => ⟨grounded_after both.1 legal, addressed_after both.2⟩) labels
        ⟨grounded_start, fun _ => .inl rfl⟩
    exact (others.and one).mono fun _ all => ⟨all.1.1, all.1.2, all.2⟩
  · exact fun single => single.mono fun _ all => all.one

/-! ## A scan that skips the remote's context -/

/-- We connect to a peer; its first packet comes while another thread works on that context. -/
def skippedTwice : List Label :=
  [.connectTo (some samplePeer) (fun _ => false) (some 2) 0,
    .packet (portBytes 3 4 0 0) samplePeer (fun i => i = 0) (some 5) 0 sampleStart]

theorem skippedTwice_shares :
    (exec (step sampleListener) {} skippedTwice).map
        (fun w => ((w.contexts 0).remoteSentinel, (w.contexts 1).remoteSentinel)) =
      some (samplePeer.addr, samplePeer.addr) ∧
    ¬ Always (step sampleListener) OnePerRemote {} skippedTwice := by
  have ended : (exec (step sampleListener) {} skippedTwice).map
      (fun w => ((w.contexts 0).remoteSentinel, (w.contexts 1).remoteSentinel)) =
        some (samplePeer.addr, samplePeer.addr) := by decide +kernel
  refine ⟨ended, ?_⟩
  intro always
  obtain ⟨w, run, state⟩ := Option.map_eq_some_iff.1 ended
  obtain ⟨first, second⟩ := Prod.mk.inj state
  have blank := always.last run 0 1 (by decide) (by rw [first, second]; decide)
  rw [first] at blank
  exact absurd blank (by decide)

end World

end Koisyn.Session
