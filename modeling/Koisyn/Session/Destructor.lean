/-
# Koisyn.Session.Destructor — what `~KoiSession` waits for

The body of the destructor stops the daemon and then takes the contexts one after the other: it resets
the context and waits until its reference count is zero.  The listener and the sentinel are destroyed
only afterwards, so packets and events still arrive.  `Teardown` is the session with the destructor's
steps among them.  A packet is in two steps here, the search of `ConsumeRawUdpData` with its tests, and
the handler it goes on to.

`body_drains`: when the body returns every connection has had its `SHUTDOWN_COMPLETE`, or was refused,
and no wait outlasts those of its context, as long as the counts are right and no wait ends before a
connection of its context comes up, or is made (`Awaited`).  `unconnected_survives`, `lateThird_survives` and
`failedHandshake_waits` are runs in which one of these fails.
-/
import Koisyn.Session.RefCount
import Koisyn.Session.History

namespace Koisyn.Session

open Koisyn.Channel
open Koisyn.Theory.Run

set_option autoImplicit false

/-! ## The machine -/

/-- Where the destructor is. -/
inductive TeardownPoint where
  /-- it has not been called -/
  | running
  /-- it is to reset the first of the contexts that are left; the body returns when none is -/
  | resetting (rest : List Slot)
  /-- it waits for the reference count of a context -/
  | waiting (slot : Slot) (rest : List Slot)
  deriving DecidableEq, Repr

/-- The contexts that the destructor has not done with. -/
def TeardownPoint.remaining : TeardownPoint → List Slot
  | .running => List.finRange maxConnections
  | .resetting rest => rest
  | .waiting slot rest => slot :: rest

/-- The context that it waits for. -/
def TeardownPoint.awaited : TeardownPoint → Option Slot
  | .waiting slot _ => some slot
  | _ => none

/-- A session, the packet that the sentinel's thread works on, and the destructor. -/
structure Teardown where
  world : World := {}
  packet : Option (Slot × Activation × StartOutcome) := none
  point : TeardownPoint := .running

inductive TeardownLabel where
  | world (l : Label)
  | packet (data : List UInt8) (remote : Endpoint) (busy : Slot → Bool) (sock : Option UInt16)
      (now : Nat) (start : StartOutcome)
  | handle
  | destroy
  | reset
  | poll

/-- The handler of a packet, with what `StartClient` gets when it runs. -/
def Activation.getting (env : StartEnv) : Activation → Activation
  | .receive2nd remoteServer remoteClient remote _ => .receive2nd remoteServer remoteClient remote env
  | .receive3rd remote _ => .receive3rd remote env
  | act => act

/-- The listener takes the peer's connection, and does not refuse it. -/
def Activation.isNewConnection : Activation → Bool
  | .newConnection _ configured => configured
  | _ => false

namespace Teardown

/-- Packets have steps of their own, during which `ConnectTo` waits, and the daemon has been joined when
the contexts are reset. -/
def admits (s : Teardown) : Label → Bool
  | .packet _ _ _ _ _ _ => false
  | .connectTo _ _ _ _ => s.packet.isNone
  | .doCheck _ _ => decide (s.point = .running)
  | _ => true

/-- One step. -/
def step (L : Listener) (s : Teardown) : TeardownLabel → Option Teardown
  | .world l => if s.admits l then (s.world.step L l).map fun t => { s with world := t } else none
  | .packet data remote busy sock now start =>
      if s.packet.isSome then none
      else
        some { s with packet :=
          (consumeRawUdpData L s.world.contexts busy data remote sock now
            (s.world.startEnv start)).map fun (slot, act) => (slot, act, start) }
  | .handle =>
      s.packet.bind fun (slot, act, start) =>
        let act := act.getting (s.world.startEnv start)
        if s.world.Fails slot act then none
        else some { s with world := s.world.after slot act, packet := none }
  | .destroy =>
      if s.point = .running then
        some { s with point := .resetting (List.finRange maxConnections) }
      else none
  | .reset =>
      match s.point with
      | .resetting (slot :: rest) =>
          if s.world.Fails slot .disconnect then none
          else some { s with world := s.world.after slot .disconnect, point := .waiting slot rest }
      | _ => none
  | .poll =>
      match s.point with
      | .waiting slot rest =>
          if (s.world.contexts slot).refCount = 0 then some { s with point := .resetting rest }
          else some s
      | _ => none

end Teardown

/-! ## Connections made late -/

namespace World

/-- The activation makes a connection for its context, which raises events. -/
def Makes (w : World) (slot : Slot) (act : Activation) : Prop :=
  (w.opens slot act).isSome = true ∨ act.isNewConnection = true

instance (w : World) (slot : Slot) (act : Activation) : Decidable (w.Makes slot act) :=
  inferInstanceAs (Decidable (_ ∨ _))

/-- The contexts that have no open connection, all but those in a list, get none where none is made. -/
theorem silent_after {w : World} {slot : Slot} {act : Activation} {others : List Slot}
    (silent : ∀ c ∈ w.conns, c.slot ∉ others → c.isOpen = false)
    (unmade : slot ∉ others → ¬ w.Makes slot act) :
    ∀ c ∈ (w.after slot act).conns, c.slot ∉ others → c.isOpen = false := by
  intro c member inside
  rw [← Bool.not_eq_true]
  intro isOpen
  rcases mem_connsAfter member with ⟨d, old, follows⟩ | made
  · have before : d.isOpen = false := silent d old (follows.origin.2.1 ▸ inside)
    rw [follows.isOpen isOpen] at before
    cases before
  · refine absurd ?_ (unmade (made.here ▸ inside))
    rcases made.maker with ⟨-, env, opened, -⟩ | ⟨theirs, conn, accepted⟩
    · exact .inl (by rw [opened]; rfl)
    · -- one that was refused raises no events
      have started : c.started = true := by
        simpa [theirs] using (Conn.isOpen_iff.1 isOpen).2
      exact .inr (by rw [accepted, started]; rfl)

end World

namespace Teardown

open World

variable {L : Listener}

/-- When the body has returned no connection can raise an event any more, and when those of the context
that it waits for cannot, the wait is over. -/
def Drains (L : Listener) (s : Teardown) : Prop :=
  (s.point = .resetting [] → ∀ c ∈ s.world.conns, c.isOpen = false) ∧
    ∀ slot rest, s.point = .waiting slot rest →
      (∀ c ∈ s.world.conns, c.slot = slot → c.isOpen = false) →
        step L s .poll = some { s with point := .resetting rest }

/-- The counts stay right; no connection is made for a context that has been drained; and no wait ends
while a connection of its context is still coming up. -/
def Awaited (L : Listener) (s : Teardown) : TeardownLabel → Prop
  | .world l => OnActivation L (fun w slot act =>
      w.Balanced slot act ∧ (slot ∉ s.point.remaining → ¬ w.Makes slot act)) s.world l
  | .handle => ∀ p ∈ s.packet, p.1 ∉ s.point.remaining →
      ¬ s.world.Makes p.1 (p.2.1.getting (s.world.startEnv p.2.2))
  | .poll => ∀ slot ∈ s.point.awaited, (s.world.contexts slot).refCount = 0 →
      ∀ c ∈ s.world.conns, c.slot = slot → c.isOpen = true → c.connected = true
  | _ => True

/-- The invariant. -/
structure Kept (s : Teardown) : Prop where
  counts : s.world.CountsUp
  packet : ∀ p ∈ s.packet, p.2.1.IsHandshake
  passed : ∀ c ∈ s.world.conns, c.slot ∉ s.point.remaining → c.isOpen = false

theorem kept_start : Kept {} where
  counts _ := rfl
  packet _ present := by cases present
  passed _ member := absurd member List.not_mem_nil

/-- Nothing is up where nothing is open. -/
theorem up_eq_zero {w : World} {slot : Slot} : w.up slot = 0 ↔
    ∀ c ∈ w.conns, c.slot = slot → c.connected = true → c.isOpen = false := by
  simp only [up, List.countP_eq_zero, isUp, Bool.and_eq_true, decide_eq_true_eq, not_and,
    Bool.not_eq_true]
  exact forall₂_congr fun c _ => and_imp

theorem Kept.drains {s : Teardown} (kept : s.Kept) : s.Drains L := by
  refine ⟨?_, ?_⟩
  · intro returned c member
    refine kept.passed c member ?_
    rw [returned]
    exact List.not_mem_nil
  · intro slot rest waits silent
    have none_ : (s.world.contexts slot).refCount.toNat = 0 := by
      rw [kept.counts slot]
      exact up_eq_zero.2 fun c member here _ => silent c member here
    have zero : (s.world.contexts slot).refCount = 0 := UInt32.toNat_inj.1 none_
    simp only [step, waits, zero, if_true]

theorem isHandshake_getting {act : Activation} (env : StartEnv) (handshake : act.IsHandshake) :
    (act.getting env).IsHandshake := by
  cases act <;> exact handshake

theorem kept_world {s : Teardown} (kept : s.Kept) {l : Label} (awaited : s.Awaited L (.world l))
    {t : Teardown} (taken : step L s (.world l) = some t) : t.Kept := by
  simp only [step] at taken
  split at taken
  · obtain ⟨w', moved, rfl⟩ := Option.map_eq_some_iff.1 taken
    rcases step_cases moved with ⟨-, rfl⟩ | ⟨slot, act, route, works, rfl⟩
    · exact kept
    · obtain ⟨balanced, unmade⟩ := awaited slot act route works
      exact ⟨(countsUp_after kept.counts (route_legal route)).1 balanced, kept.packet,
        silent_after kept.passed unmade⟩
  · cases taken

theorem kept_packet {s : Teardown} (kept : s.Kept) {data : List UInt8} {remote : Endpoint}
    {busy : Slot → Bool} {sock : Option UInt16} {now : Nat} {start : StartOutcome} {t : Teardown}
    (taken : step L s (.packet data remote busy sock now start) = some t) : t.Kept := by
  simp only [step] at taken
  split at taken
  · cases taken
  · obtain rfl := Option.some.inj taken
    refine ⟨kept.counts, ?_, kept.passed⟩
    rintro p present
    obtain ⟨⟨slot, act⟩, consumed, rfl⟩ := Option.map_eq_some_iff.1 present
    obtain ⟨ports, isMatching, -, -, -, first | second | third⟩ := consumeRawUdpData_cases consumed
    · obtain ⟨-, -, -, rfl⟩ := first
      trivial
    · obtain ⟨-, -, -, -, rfl⟩ := second
      trivial
    · obtain ⟨-, -, -, -, rfl⟩ := third
      trivial

theorem kept_handle {s : Teardown} (kept : s.Kept) (awaited : s.Awaited L .handle) {t : Teardown}
    (taken : step L s .handle = some t) : t.Kept := by
  obtain ⟨⟨slot, act, start⟩, present, handled⟩ := Option.bind_eq_some_iff.1 taken
  dsimp only at handled
  split at handled
  · cases handled
  · obtain rfl := Option.some.inj handled
    have handshake := isHandshake_getting (s.world.startEnv start) (kept.packet _ present)
    refine ⟨countsUp_after_quiet kept.counts ?_ ?_, fun _ none_ => (by cases none_),
      silent_after kept.passed (awaited _ present)⟩
    · intro conn same
      rw [same] at handshake
      exact handshake
    · intro conn isClient alive same
      rw [same] at handshake
      exact handshake

theorem kept_reset {s : Teardown} (kept : s.Kept) {t : Teardown}
    (taken : step L s .reset = some t) : t.Kept := by
  simp only [step] at taken
  split at taken
  · rename_i slot rest point
    split at taken
    · cases taken
    · obtain rfl := Option.some.inj taken
      have passed : ∀ c ∈ s.world.conns, c.slot ∉ slot :: rest → c.isOpen = false := by
        have before := kept.passed
        rwa [point] at before
      refine ⟨countsUp_after_quiet kept.counts (by simp) (by simp), kept.packet,
        silent_after passed fun _ => ?_⟩
      rintro (opened | accepted)
      · cases opened
      · cases accepted
  · cases taken

theorem kept_poll {s : Teardown} (kept : s.Kept) (awaited : s.Awaited L .poll) {t : Teardown}
    (taken : step L s .poll = some t) : t.Kept := by
  simp only [step] at taken
  split at taken
  · rename_i slot rest point
    split at taken
    · rename_i zero
      obtain rfl := Option.some.inj taken
      refine ⟨kept.counts, kept.packet, ?_⟩
      intro c member passed
      by_cases here : c.slot = slot
      · -- what is open has been connected, and then it would count
        rw [← Bool.not_eq_true]
        intro isOpen
        have none_ : s.world.up slot = 0 := by
          rw [← kept.counts slot, zero]
          rfl
        have isConnected := awaited slot (by rw [point]; rfl) zero c member here isOpen
        rw [up_eq_zero.1 none_ c member here isConnected] at isOpen
        cases isOpen
      · refine kept.passed c member ?_
        rw [point]
        rintro (_ | ⟨_, later⟩)
        · exact here rfl
        · exact passed later
    · obtain rfl := Option.some.inj taken
      exact kept
  · cases taken

theorem kept_step {s : Teardown} (kept : s.Kept) {l : TeardownLabel} (awaited : s.Awaited L l)
    {t : Teardown} (taken : step L s l = some t) : t.Kept := by
  cases l with
  | world l => exact kept_world kept awaited taken
  | packet data remote busy sock now start => exact kept_packet kept taken
  | handle => exact kept_handle kept awaited taken
  | destroy =>
      simp only [step] at taken
      split at taken
      · obtain rfl := Option.some.inj taken
        exact ⟨kept.counts, kept.packet,
          fun c _ outside => absurd (List.mem_finRange c.slot) outside⟩
      · cases taken
  | reset => exact kept_reset kept taken
  | poll => exact kept_poll kept awaited taken

/-- **The destructor drains the session** where nothing of a context is late. -/
theorem body_drains (L : Listener) (labels : List TeardownLabel)
    (every : EveryStep (step L) (Awaited L) {} labels) :
    Always (step L) (Drains L) {} labels := by
  have kept := always_of_everyStep
    (fun s l t kept awaited taken => kept_step kept awaited taken) kept_start every
  exact kept.mono fun s kept => kept.drains

/-! ## Runs -/

instance (L : Listener) (s : Teardown) : ∀ l : TeardownLabel, Decidable (s.Awaited L l)
  | .world l => inferInstanceAs (Decidable (OnActivation L (fun w slot act =>
      w.Balanced slot act ∧ (slot ∉ s.point.remaining → ¬ w.Makes slot act)) s.world l))
  | .handle => inferInstanceAs (Decidable (∀ _ ∈ _, _ → _))
  | .poll => inferInstanceAs (Decidable (∀ _ ∈ _, _ → ∀ _ ∈ _, _ → _ → _))
  | .packet _ _ _ _ _ _ | .destroy | .reset => isTrue trivial

/-- Our client is opened by the peer's second packet. -/
def clientOpened : List TeardownLabel :=
  [.world (.connectTo (some samplePeer) (fun _ => false) (some 2) 0),
    .packet (portBytes 3 4 1 2) samplePeer (fun _ => false) none 0 sampleStart, .handle]

/-- The loop of the destructor over so many contexts, without a wait. -/
def sweep (contexts : Nat) : List TeardownLabel :=
  (List.replicate contexts [TeardownLabel.reset, .poll]).flatten

/-- Both connections of a session come up and are closed while the destructor waits for them. -/
def drainedBoth : List TeardownLabel :=
  clientOpened ++
    [.world (.newConnection { family := .inet6, port := 4, ipv6 := 1 } true),
      .world (.connected 0), .world (.connected 1), .destroy, .reset, .poll,
      .world (.shutdownComplete 1 fun _ => true), .poll,
      .world (.shutdownComplete 0 fun _ => true), .poll] ++ sweep 15

theorem body_drains_drainedBoth :
    Always (step sampleListener) (Drains sampleListener) {} drainedBoth :=
  body_drains sampleListener drainedBoth (by decide +kernel)

/-- A run that ends with the body returned and a connection open does not drain. -/
theorem not_drains_of_open {labels : List TeardownLabel}
    (ended : (exec (step L) {} labels).map (fun s =>
      (s.point, decide (∃ c ∈ s.world.conns, c.isOpen = true))) = some (.resetting [], true)) :
    ¬ Always (step L) (Drains L) {} labels := by
  intro always
  obtain ⟨s, run, state⟩ := Option.map_eq_some_iff.1 ended
  simp only [Prod.mk.injEq, decide_eq_true_eq] at state
  obtain ⟨returned, c, member, isOpen⟩ := state
  rw [(always.last run).1 returned c member] at isOpen
  cases isOpen

/-- Our client has not come up yet when the session is destroyed: nothing is waited for. -/
theorem unconnected_survives :
    ¬ Always (step sampleListener) (Drains sampleListener) {}
      (clientOpened ++ .destroy :: sweep 16) :=
  not_drains_of_open (by decide +kernel)

/-- The first context has been drained when a peer's first and third packets open a connection for it. -/
theorem lateThird_survives :
    ¬ Always (step sampleListener) (Drains sampleListener) {}
      (.destroy :: sweep 1 ++
        [.packet (portBytes 3 4 0 0) samplePeer (fun _ => false) (some 2) 0 sampleStart, .handle,
          .packet (portBytes 0 0 1 2) samplePeer (fun _ => false) none 0 sampleStart, .handle] ++
        sweep 15) :=
  not_drains_of_open (by decide +kernel)

/-- Our client never comes up, and its context's count wraps: the wait goes on with nothing open. -/
theorem failedHandshake_waits :
    ¬ Always (step sampleListener) (Drains sampleListener) {}
      (clientOpened ++ [.world (.shutdownComplete 0 fun _ => true), .destroy, .reset]) := by
  have ended : (exec (step sampleListener) {}
      (clientOpened ++ [.world (.shutdownComplete 0 fun _ => true), .destroy, .reset])).map
      (fun s => (s.point, (s.world.contexts 0).refCount, s.world.conns.map (·.isOpen))) =
        some (.waiting 0 (List.finRange maxConnections).tail, 4294967295, [false]) := by
    decide +kernel
  intro always
  obtain ⟨s, run, state⟩ := Option.map_eq_some_iff.1 ended
  simp only [Prod.mk.injEq] at state
  obtain ⟨waits, wrapped, silent⟩ := state
  have goesOn := (always.last run).2 0 _ waits fun c member _ => by
    have silentToo := List.mem_map_of_mem (f := (·.isOpen)) member
    rw [silent] at silentToo
    exact List.mem_singleton.1 silentToo
  simp only [step, waits, wrapped] at goesOn
  have same := congrArg (Option.map Teardown.point) goesOn
  simp [waits] at same

end Teardown

end Koisyn.Session
