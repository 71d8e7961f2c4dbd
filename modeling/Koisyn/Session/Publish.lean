/-
# Koisyn.Session.Publish — what `Start` writes, and who reads it before

Once `Start` has started its listener, MsQuic's events come between its statements; once it has
created the receive thread, packets do.  `Publishing` is the session with the statements that are still
to come, the callbacks it has called and the handlers of connection events that have run.

A callback is read from `appContext`, by the handlers of a connection's events (those of its streams
with them) through the context's `pSession`, by the receive thread and the daemon directly.

`published_iff`: from any reachable session and any contexts, every callback called is the one that
`Start` was given and every such handler finds its context's `pSession` set, exactly if none of this is
too early (`TooEarly`).
-/
import Koisyn.Session.Locks
import Koisyn.Session.Start

namespace Koisyn.Session

open Koisyn.Channel
open Koisyn.Net
open Koisyn.Theory.LockTrace Koisyn.Theory.Run

set_option autoImplicit false

/-- The pointer that a callback is called through. -/
def Kontext.callback (kontext : Kontext) : Call → Option Callback
  | .onAccept _ _ => some kontext.onAccept
  | .onDisconnect _ _ => some kontext.onDisconnect
  | .onReliableReceive _ index _ _ => some (kontext.onReliableReceive index)
  | .onUnreliableReceive _ _ _ => some kontext.onUnreliableReceive
  | _ => none

/-- The events of a connection and of its streams. -/
def Label.isConnectionEvent : Label → Bool
  | .connected _ | .shutdownComplete _ _ | .peerStreamStarted _ _ | .datagramStateChanged _ _
  | .datagramReceived _ _ _ | .receive _ _ _ => true
  | _ => false

/-- `ran` are the statements that `Start` has run, `rest` those still to come.  `invoked` pairs a
callback's call with the pointer it was called through, `none` where that was read through a `pSession`
that is not set; `found` says of each handler whether its `pSession` was set. -/
structure Publishing where
  world : World := {}
  host : Host := {}
  ran : List Statement := []
  rest : List Statement
  invoked : List (Call × Option Callback) := []
  found : List Bool := []

inductive PublishingLabel where
  /-- `Start` runs its next statement -/
  | statement
  | world (l : Label)
  /-- an event of a connection whose handler does nothing with its context -/
  | connectionEvent (conn : Hquic)

namespace Publishing

variable (L : Listener) (kontext : Kontext) (startCalls : StartCalls) (p : Publishing)

/-- The session that a label's handler works with: that of the context, or this one. -/
def sees (l : Label) (slot : Slot) : Option Kontext :=
  if l.isConnectionEvent && !p.host.session.pSession slot then none
  else some p.host.session.appContext

/-- The callbacks that an activation calls, and through what. -/
def invocations (l : Label) (slot : Slot) (act : Activation) : List (Call × Option Callback) :=
  (callbacks (act.run slot (p.world.contexts slot)).calls).map fun call =>
    (call, (p.sees l slot).bind (·.callback call))

/-- What is recorded of a label. -/
def noted (l : Label) : Publishing :=
  match p.world.route L l with
  | some (some (slot, act)) =>
      { p with
        invoked := p.invoked ++ p.invocations l slot act
        found := p.found ++ if l.isConnectionEvent then [p.host.session.pSession slot] else [] }
  | _ => p

/-- Packets need the receive thread, `ConnectTo` looks for it, the checks need the daemon; and
`AutoReject` rejects. -/
def Allows : Label → Prop
  | .packet _ _ _ _ _ start => p.host.session.sentinel.recvThread = true ∧
      (p.host.session.appContext.onAccept = .autoReject → start.shouldCreate = false)
  | .connectTo _ _ _ _ => p.host.session.sentinel.isRunning = true
  | .doCheck _ _ => p.host.session.halfConnectionDaemon = true
  | _ => True

instance decidableAllows : (l : Label) → Decidable (p.Allows l)
  | .packet _ _ _ _ _ _ => inferInstanceAs (Decidable (_ ∧ (_ → _)))
  | .connectTo _ _ _ _ | .doCheck _ _ => inferInstanceAs (Decidable (_ = _))
  | .newConnection _ _ | .connected _ | .shutdownComplete _ _ | .peerStreamStarted _ _
  | .datagramStateChanged _ _ | .datagramReceived _ _ _ | .receive _ _ _ | .disconnect _
  | .unreliablePacketSend _ _ _ => isTrue trivial

def step (p : Publishing) : PublishingLabel → Option Publishing
  | .statement =>
      match p.rest with
      | [] => none
      | statement :: rest =>
          match statement.run kontext startCalls p.host with
          | .goesOn host => some { p with host, ran := p.ran ++ [statement], rest }
          | .returns _ host => some { p with host, rest := [] }
          | .terminates => none
  | .world l =>
      if p.Allows l then (p.world.step L l).map fun world => { p.noted L l with world } else none
  | .connectionEvent conn =>
      (p.world.openConn conn).map fun c =>
        { p with found := p.found ++ [p.host.session.pSession c.slot] }

/-- Every callback was the one given, and every handler found its session. -/
structure Published : Prop where
  given : ∀ invocation ∈ p.invoked, invocation.2 = kontext.callback invocation.1
  found : ∀ isSet ∈ p.found, isSet = true

instance decidablePublished : Decidable (p.Published kontext) :=
  decidable_of_iff ((∀ invocation ∈ p.invoked, invocation.2 = kontext.callback invocation.1) ∧
    ∀ isSet ∈ p.found, isSet = true) ⟨fun both => ⟨both.1, both.2⟩, fun both => ⟨both.1, both.2⟩⟩

/-- The label comes before the statement that it needs: it is an event of a connection, before that of
its context's `pSession`, or a packet with which `StartClient` opens one, before that of `appContext`,
and the `OnAccept` it asks is not the given one. -/
def TooEarly : PublishingLabel → Prop
  | .statement => False
  | .world l => ∃ slot act, p.world.route L l = some (some (slot, act)) ∧
      (l.isConnectionEvent = true ∧ .pSession slot ∉ p.ran ∨
        (p.world.opens slot act).isSome = true ∧ .appContext ∉ p.ran ∧
          p.host.session.appContext.onAccept ≠ kontext.onAccept)
  | .connectionEvent conn => ∃ c, p.world.openConn conn = some c ∧ .pSession c.slot ∉ p.ran

/-! ## Which label calls what -/

end Publishing

/-- The activations of connection events, and the daemon's. -/
def Activation.Late : Activation → Prop
  | .doCheck _ | .connected _ | .shutdownComplete _ _ _ | .peerStreamStarted _ _ _
  | .datagramStateChanged _ | .datagramReceived _ _ | .receive _ _ _ => True
  | _ => False

theorem callsOf_startClient (slot : Slot) (ctx : ConnectionContext) (env : StartEnv) :
    callsOf (startClientOps slot ctx env) =
      if ctx.unreliable.self.isNone && env.connection.isSome then [Call.onAccept slot env.granted]
      else [] := by
  rw [startClientOps, callsOf_append, callsOf_guarded]
  cases taken : ctx.unreliable.self with
  | some other => rfl
  | none =>
      cases opens : env.connection with
      | none => rfl
      | some conn => cases granted : env.granted <;> simp

/-- **The others call `OnAccept` where `StartClient` opens a connection, and nothing else.** -/
theorem callbacks_of_not_late {w : World} {slot : Slot} {act : Activation} (early : ¬ act.Late) :
    callbacks (act.run slot (w.contexts slot)).calls =
      (w.opens slot act).toList.map fun env => .onAccept slot env.granted := by
  have started : ∀ env : StartEnv,
      callsOf (startClientOps slot (w.contexts slot) env) =
        (if (w.contexts slot).unreliable.self.isNone && env.connection.isSome then some env
          else none).toList.map fun env => Call.onAccept slot env.granted := by
    intro env
    rw [callsOf_startClient]
    split <;> rfl
  rw [← callsOf_lockOps]
  cases act with
  | receive2nd remoteServer remoteClient remote env =>
      rw [Activation.lockOps, callsOf_append, callsOf_guarded]
      exact started env
  | receive3rd remote env => exact started env
  | connectTo => rfl
  | receive1st => rfl
  | newConnection => rfl
  | disconnect => simp [Activation.lockOps, World.opens, Activation.starts]
  | unreliablePacketSend => rfl
  | _ => exact absurd trivial early

/-! ## The order of the statements -/

/-- The statements that let others get to `appContext`. -/
def Statement.Exposes : Statement → Prop
  | .pSession _ | .halfConnectionDaemon => True
  | _ => False

def Statement.MayPrecede (first second : Statement) : Prop := first.Exposes → second ≠ .appContext

theorem Statement.pairwise_afterListener (lisn : Hquic) :
    (Statement.afterListener lisn).Pairwise Statement.MayPrecede := by
  simp [afterListener, publishing, MayPrecede, Exposes, List.pairwise_append, List.pairwise_map,
    List.pairwise_of_forall]

/-- Failing changes nothing that others read. -/
theorem Host.fail_cases (h : Host) : h.fail = .terminates ∨
    ∃ sentinel os, h.fail = .returns none { h with session := { h.session with sentinel }, os } := by
  rw [fail, assignSentinel]
  cases h.session.sentinel.moveAssign (.moveAssign sentinelUsk) {} h.os with
  | none => exact .inl rfl
  | some moved => exact .inr ⟨moved.1, moved.2, rfl⟩

namespace Statement

variable {kontext : Kontext} {startCalls : StartCalls} {h g : Host} {statement : Statement}

/-- The registration, which is the one statement that may fail. -/
theorem run_register (kontext : Kontext) (startCalls : StartCalls) (h : Host) :
    (∃ sentinel, registerRecvFromCallback.run kontext startCalls h =
      .goesOn { h with session := { h.session with sentinel } }) ∨
    registerRecvFromCallback.run kontext startCalls h = .terminates ∨
      ∃ sentinel os, registerRecvFromCallback.run kontext startCalls h =
        .returns none { h with session := { h.session with sentinel }, os } := by
  simp only [run]
  generalize h.session.sentinel.registerRecvFromCallback startCalls.recvThread = registered
  obtain ⟨ok, sentinel⟩ := registered
  cases ok with
  | true => exact .inl ⟨sentinel, rfl⟩
  | false => exact .inr (Host.fail_cases { h with session := { h.session with sentinel } })

/-- **What a statement writes** of what others read. -/
theorem run_goesOn (runs : statement.run kontext startCalls h = .goesOn g) :
    g.session.appContext = (if statement = .appContext then kontext else h.session.appContext) ∧
      (∀ slot, g.session.pSession slot = true ↔
        h.session.pSession slot = true ∨ statement = .pSession slot) ∧
      (g.session.halfConnectionDaemon = true →
        h.session.halfConnectionDaemon = true ∨ statement = .halfConnectionDaemon) := by
  cases statement with
  | registerRecvFromCallback =>
      rcases run_register kontext startCalls h with
        ⟨sentinel, ends⟩ | ends | ⟨sentinel, os, ends⟩
      · rw [ends] at runs
        obtain rfl := Outcome.goesOn.inj runs
        simp
      · rw [ends] at runs
        cases runs
      · rw [ends] at runs
        cases runs
  | pSession slot =>
      obtain rfl := Outcome.goesOn.inj runs
      refine ⟨by simp, ?_, .inl⟩
      intro i
      by_cases same : i = slot
      · simp [same]
      · simp [same, Ne.symm same]
  | halfConnectionDaemon =>
      simp only [run] at runs
      split at runs
      · cases runs
      · obtain rfl := Outcome.goesOn.inj runs
        simp
  | listener lisn =>
      obtain rfl := Outcome.goesOn.inj runs
      simp
  | socketFromListener =>
      obtain rfl := Outcome.goesOn.inj runs
      simp
  | appContext =>
      obtain rfl := Outcome.goesOn.inj runs
      simp

theorem run_returns {port : Option UInt16}
    (runs : statement.run kontext startCalls h = .returns port g) :
    ∃ sentinel, g.session = { h.session with sentinel } := by
  cases statement with
  | registerRecvFromCallback =>
      rcases run_register kontext startCalls h with
        ⟨sentinel, ends⟩ | ends | ⟨sentinel, os, ends⟩
      · rw [ends] at runs
        cases runs
      · rw [ends] at runs
        cases runs
      · rw [ends] at runs
        obtain ⟨-, rfl⟩ := Outcome.returns.inj runs
        exact ⟨sentinel, rfl⟩
  | halfConnectionDaemon =>
      simp only [run] at runs
      split at runs
      · cases runs
      · cases runs
  | _ => cases runs

end Statement

namespace Publishing

variable {L : Listener} {kontext : Kontext} {startCalls : StartCalls} {p t : Publishing}

/-- What has run is written, and nothing that leads to `appContext` runs before it is. -/
structure Ordered (kontext : Kontext) (p : Publishing) : Prop where
  sorted : p.rest.Pairwise Statement.MayPrecede
  written : .appContext ∉ p.rest → p.rest = [] ∨ .appContext ∈ p.ran
  exposed : ∀ statement ∈ p.ran, statement.Exposes → .appContext ∈ p.ran
  appContext : .appContext ∈ p.ran → p.host.session.appContext = kontext
  pSession : ∀ slot, p.host.session.pSession slot = true ↔ .pSession slot ∈ p.ran
  daemon : p.host.session.halfConnectionDaemon = true → .halfConnectionDaemon ∈ p.ran

/-- What exposes `appContext` comes after its statement. -/
theorem Ordered.exposes (ordered : p.Ordered kontext) {statement : Statement}
    {rest : List Statement} (next : p.rest = statement :: rest) (exposes : statement.Exposes) :
    .appContext ∈ p.ran := by
  have sorted := ordered.sorted
  rw [next] at sorted
  have notNext : .appContext ∉ p.rest := by
    rw [next, List.mem_cons]
    rintro (rfl | later)
    · exact exposes
    · exact (List.pairwise_cons.1 sorted).1 _ later exposes rfl
  refine (ordered.written notNext).resolve_left ?_
  rw [next]
  exact List.cons_ne_nil _ _

theorem Ordered.statement (ordered : p.Ordered kontext)
    (taken : p.step L kontext startCalls .statement = some t) : t.Ordered kontext := by
  simp only [step] at taken
  split at taken
  · cases taken
  · rename_i statement rest next
    split at taken
    · rename_i host runs
      obtain rfl := Option.some.inj taken
      obtain ⟨appContext, pSession, daemon⟩ := Statement.run_goesOn runs
      refine ⟨?_, ?_, ?_, ?_, ?_, ?_⟩
      · have sorted := ordered.sorted
        rw [next] at sorted
        exact (List.pairwise_cons.1 sorted).2
      · intro notNext
        right
        by_cases same : statement = .appContext
        · simp [same]
        · have notIn : .appContext ∉ p.rest := by simp [next, notNext, Ne.symm same]
          have ran := (ordered.written notIn).resolve_left (by simp [next])
          exact List.mem_append_left _ ran
      · intro other member exposes
        rcases List.mem_append.1 member with before | now
        · exact List.mem_append_left _ (ordered.exposed other before exposes)
        · obtain rfl := List.mem_singleton.1 now
          exact List.mem_append_left _ (ordered.exposes next exposes)
      · intro member
        show host.session.appContext = kontext
        rw [appContext]
        split
        · rfl
        · rename_i other
          rcases List.mem_append.1 member with before | now
          · exact ordered.appContext before
          · exact absurd (List.mem_singleton.1 now).symm other
      · intro slot
        rw [pSession, ordered.pSession]
        simp [eq_comm]
      · intro isSet
        rcases daemon isSet with before | now
        · exact List.mem_append_left _ (ordered.daemon before)
        · simp [now]
    · rename_i port host runs
      obtain rfl := Option.some.inj taken
      obtain ⟨sentinel, session⟩ := Statement.run_returns runs
      refine ⟨.nil, fun _ => .inl rfl, ordered.exposed, ?_, ?_, ?_⟩
      · simpa only [session] using ordered.appContext
      · simpa only [session] using ordered.pSession
      · simpa only [session] using ordered.daemon
    · cases taken

/-! ## A step of the world -/

theorem noted_kept (l : Label) : (p.noted L l).host = p.host ∧ (p.noted L l).ran = p.ran ∧
    (p.noted L l).rest = p.rest := by
  rw [noted]
  split
  · exact ⟨rfl, rfl, rfl⟩
  · exact ⟨rfl, rfl, rfl⟩

theorem step_world {l : Label} (taken : p.step L kontext startCalls (.world l) = some t) :
    p.Allows l ∧ ∃ world, p.world.step L l = some world ∧ t = { p.noted L l with world } := by
  simp only [step] at taken
  split at taken
  · rename_i allows
    obtain ⟨world, steps, rfl⟩ := Option.map_eq_some_iff.1 taken
    exact ⟨allows, world, steps, rfl⟩
  · cases taken

theorem Ordered.step (ordered : p.Ordered kontext) {l : PublishingLabel}
    (taken : p.step L kontext startCalls l = some t) : t.Ordered kontext := by
  cases l with
  | statement => exact ordered.statement taken
  | world l =>
      obtain ⟨-, world, -, rfl⟩ := step_world taken
      obtain ⟨host, ran, rest⟩ := noted_kept (L := L) (p := p) l
      exact ⟨rest ▸ ordered.sorted, ran ▸ rest ▸ ordered.written, ran ▸ ordered.exposed,
        host ▸ ran ▸ ordered.appContext, host ▸ ran ▸ ordered.pSession, host ▸ ran ▸ ordered.daemon⟩
  | connectionEvent conn =>
      obtain ⟨c, -, rfl⟩ := Option.map_eq_some_iff.1 taken
      exact ⟨ordered.sorted, ordered.written, ordered.exposed, ordered.appContext, ordered.pSession,
        ordered.daemon⟩

/-- The activations of a label that is no event of a connection are early ones, or the daemon's. -/
theorem late_of_routed {w : World} {l : Label} {slot : Slot} {act : Activation}
    (routed : World.Routed L w l slot act) (late : act.Late) :
    l.isConnectionEvent = true ∨ ∃ now, l = .doCheck slot now := by
  cases routed with
  | doCheck => exact .inr ⟨_, rfl⟩
  | connectTo => cases late
  | receive1st => cases late
  | receive2nd => cases late
  | receive3rd => cases late
  | newConnection => cases late
  | disconnect => cases late
  | unreliablePacketSend => cases late
  | _ => exact .inl rfl

/-- What is published of the callbacks of an activation that runs with some session's `appContext`. -/
theorem given_iff {seen : Kontext} {calls : List Call} :
    (∀ invocation ∈ calls.map (fun call => (call, seen.callback call)),
        invocation.2 = kontext.callback invocation.1) ↔
      ∀ call ∈ calls, seen.callback call = kontext.callback call :=
  List.forall_mem_map

theorem invocations_of_sees {l : Label} {slot : Slot} {seen : Kontext} (act : Activation)
    (sees : p.sees l slot = some seen) :
    p.invocations l slot act =
      (callbacks (act.run slot (p.world.contexts slot)).calls).map fun call =>
        (call, seen.callback call) := by
  rw [invocations, sees]
  rfl

theorem tooEarly_iff {l : Label} {slot : Slot} {act : Activation}
    (route : p.world.route L l = some (some (slot, act))) :
    p.TooEarly L kontext (.world l) ↔
      l.isConnectionEvent = true ∧ .pSession slot ∉ p.ran ∨
        (p.world.opens slot act).isSome = true ∧ .appContext ∉ p.ran ∧
          p.host.session.appContext.onAccept ≠ kontext.onAccept := by
  constructor
  · rintro ⟨slot', act', route', early⟩
    obtain ⟨rfl, rfl⟩ := Prod.mk.inj (Option.some.inj (Option.some.inj (route.symm.trans route')))
    exact early
  · exact fun early => ⟨slot, act, route, early⟩

instance decidableTooEarly : (l : PublishingLabel) → Decidable (p.TooEarly L kontext l)
  | .statement => isFalse id
  | .world l =>
      match route : p.world.route L l with
      | some (some (_, _)) => decidable_of_iff _ (tooEarly_iff route).symm
      | some none => isFalse (by simp [TooEarly, route])
      | none => isFalse (by simp [TooEarly, route])
  | .connectionEvent conn =>
      match isOpen : p.world.openConn conn with
      | some c => decidable_of_iff (.pSession c.slot ∉ p.ran) (by simp [TooEarly, isOpen])
      | none => isFalse (by simp [TooEarly, isOpen])

/-- **What an activation calls is given and finds its session, exactly if it is not too early.** -/
theorem activation_iff (ordered : p.Ordered kontext) {l : Label} {slot : Slot} {act : Activation}
    (route : p.world.route L l = some (some (slot, act))) (allows : p.Allows l) :
    ((∀ invocation ∈ p.invocations l slot act,
        invocation.2 = kontext.callback invocation.1) ∧
      (l.isConnectionEvent = true → p.host.session.pSession slot = true)) ↔
      ¬ p.TooEarly L kontext (.world l) := by
  rw [tooEarly_iff route, ordered.pSession slot]
  -- once `appContext` is written, only an event that does not find its session is too early
  have done : .appContext ∈ p.ran → (l.isConnectionEvent = true → .pSession slot ∈ p.ran) →
      ((∀ invocation ∈ p.invocations l slot act,
          invocation.2 = kontext.callback invocation.1) ∧
        (l.isConnectionEvent = true → .pSession slot ∈ p.ran)) ∧
        ¬ (l.isConnectionEvent = true ∧ .pSession slot ∉ p.ran ∨
          (p.world.opens slot act).isSome = true ∧ .appContext ∉ p.ran ∧
            p.host.session.appContext.onAccept ≠ kontext.onAccept) := by
    intro written finds
    have sees : p.sees l slot = some kontext := by
      rw [sees, ordered.appContext written]
      apply if_neg
      rw [Bool.and_eq_true, Bool.not_eq_true']
      rintro ⟨event, unset⟩
      rw [(ordered.pSession slot).2 (finds event)] at unset
      cases unset
    refine ⟨⟨?_, finds⟩, ?_⟩
    · rw [invocations_of_sees act sees, given_iff]
      exact fun _ _ => rfl
    · rintro (⟨event, unset⟩ | ⟨-, unwritten, -⟩)
      · exact unset (finds event)
      · exact unwritten written
  cases event : l.isConnectionEvent with
  | true =>
      rw [event] at done
      by_cases isSet : .pSession slot ∈ p.ran
      · obtain ⟨given, punctual⟩ := done (ordered.exposed _ isSet trivial) fun _ => isSet
        exact iff_of_true given punctual
      · simp [isSet]
  | false =>
      rw [event] at done
      by_cases written : .appContext ∈ p.ran
      · obtain ⟨given, punctual⟩ := done written nofun
        exact iff_of_true given punctual
      · have early : ¬ act.Late := by
          intro late
          rcases late_of_routed (World.routed_of_route route) late with isEvent | ⟨now, rfl⟩
          · rw [event] at isEvent
            cases isEvent
          · exact written (ordered.exposed _ (ordered.daemon allows) trivial)
        have sees : p.sees l slot = some p.host.session.appContext := by
          rw [sees, event]
          rfl
        rw [invocations_of_sees act sees, given_iff, callbacks_of_not_late early]
        cases opens : p.world.opens slot act with
        | none => simp
        | some env => simp [Kontext.callback, written]

/-! ## Runs -/

theorem published_append {more : List (Call × Option Callback)} {finds : List Bool}
    (invoked : t.invoked = p.invoked ++ more) (found : t.found = p.found ++ finds) :
    t.Published kontext ↔ p.Published kontext ∧
      (∀ invocation ∈ more, invocation.2 = kontext.callback invocation.1) ∧
        ∀ isSet ∈ finds, isSet = true := by
  constructor
  · rintro ⟨given, finds'⟩
    rw [invoked, List.forall_mem_append] at given
    rw [found, List.forall_mem_append] at finds'
    exact ⟨⟨given.1, finds'.1⟩, given.2, finds'.2⟩
  · rintro ⟨⟨given, finds'⟩, givenToo, findsToo⟩
    refine ⟨?_, ?_⟩
    · rw [invoked, List.forall_mem_append]
      exact ⟨given, givenToo⟩
    · rw [found, List.forall_mem_append]
      exact ⟨finds', findsToo⟩

/-- What a step records, and when it is all right. -/
theorem step_records {l : PublishingLabel} (taken : p.step L kontext startCalls l = some t) :
    ∃ more finds, t.invoked = p.invoked ++ more ∧ t.found = p.found ++ finds ∧
      (p.Ordered kontext → (¬ p.TooEarly L kontext l ↔
        (∀ invocation ∈ more, invocation.2 = kontext.callback invocation.1) ∧
          ∀ isSet ∈ finds, isSet = true)) := by
  cases l with
  | statement =>
      refine ⟨[], [], ?_⟩
      simp only [step] at taken
      split at taken
      · cases taken
      · split at taken
        · obtain rfl := Option.some.inj taken
          simp [TooEarly]
        · obtain rfl := Option.some.inj taken
          simp [TooEarly]
        · cases taken
  | connectionEvent conn =>
      obtain ⟨c, isOpen, rfl⟩ := Option.map_eq_some_iff.1 taken
      refine ⟨[], [p.host.session.pSession c.slot], (List.append_nil _).symm, rfl, ?_⟩
      intro ordered
      simp [TooEarly, isOpen, ordered.pSession]
  | world l =>
      obtain ⟨allows, world, steps, rfl⟩ := step_world taken
      rcases World.step_cases steps with ⟨route, -⟩ | ⟨slot, act, route, -, -⟩
      · refine ⟨[], [], ?_⟩
        simp [noted, route, TooEarly]
      · refine ⟨p.invocations l slot act,
          if l.isConnectionEvent then [p.host.session.pSession slot] else [], ?_, ?_, ?_⟩
        · simp [noted, route]
        · simp [noted, route]
        · intro ordered
          rw [← activation_iff ordered route allows]
          cases l.isConnectionEvent <;> simp

end Publishing

/-- **`Start` publishes the session's state before it is used, exactly if nothing is too early.**  `h`
is any reachable session, and `Start` has got as far as its listener. -/
theorem published_iff {before : List HostLabel} {h g : Host} {port : UInt16} {startCalls : StartCalls}
    {lisn : Hquic} (reached : exec Host.step {} before = some h)
    (listens : h.listen port startCalls = .ok (lisn, g)) (L : Listener) (kontext : Kontext) (w : World)
    {labels : List PublishingLabel} {t : Publishing}
    (run : exec (Publishing.step L kontext startCalls)
      { world := w, host := g, rest := Statement.afterListener lisn } labels = some t) :
    t.Published kontext ↔
      EveryStep (Publishing.step L kontext startCalls) (fun p l => ¬ p.TooEarly L kontext l)
        { world := w, host := g, rest := Statement.afterListener lisn } labels := by
  obtain ⟨idle, sentinel, session, -⟩ := Host.listen_ok listens
  have settled : h.Settled := by
    refine Always.last ?_ reached
    exact always_of_keeps (fun _ _ _ settled taken => settled.step taken) before Host.settled_start
  obtain ⟨-, noDaemon, unset⟩ := settled.idle idle
  refine last_iff_everyStep (I := Publishing.Ordered kontext) ?_ ?_ ?_ run ?_ ⟨nofun, nofun⟩
  · exact fun p l t ordered taken => ordered.step taken
  · intro p l t ordered published taken
    obtain ⟨more, finds, invoked, found, allRight⟩ := Publishing.step_records taken
    rw [allRight ordered, Publishing.published_append invoked found]
    exact (and_iff_right published).symm
  · intro p l t taken published
    obtain ⟨more, finds, invoked, found, -⟩ := Publishing.step_records taken
    exact ((Publishing.published_append invoked found).1 published).1
  · refine ⟨Statement.pairwise_afterListener lisn, ?_, nofun, nofun, ?_, ?_⟩
    · intro written
      exact absurd (by simp [Statement.afterListener, Statement.publishing]) written
    · intro slot
      simp [session, unset]
    · intro isSet
      simp [session, noDaemon] at isSet

/-! ## Orders in which it can happen -/

def sampleCalls : StartCalls where
  bind := { socket := some 3 }
  listenerSocket := some 4
  portAfter := some 9

/-- An application that accepts with its function 1. -/
def sampleKontext : Kontext where
  onAccept := .app 1

/-- The first session of a program when its listener has just been started. -/
def sampleListening : Publishing where
  host :=
    { session := { sentinel := { usk := { sock := some 3 } } }
      os := Os.openSocket {} .bind 3
      listeners := [.started] }
  rest := Statement.afterListener 0

theorem sampleListening_reached :
    Host.listen 9 sampleCalls {} = .ok (0, sampleListening.host) := rfl

abbrev samplePublish : Publishing → PublishingLabel → Option Publishing :=
  Publishing.step World.sampleListener sampleKontext sampleCalls

/-- A packet of a peer. -/
def samplePacket (data : List UInt8) (start : StartOutcome) : PublishingLabel :=
  .world (.packet data World.samplePeer (fun _ => false) (some 2) 0 start)

/-- The peer's first packet, which is answered with the ports 1 and 2. -/
def sampleFirst : List UInt8 := portBytes 3 4 0 0

def sampleThird : List UInt8 := portBytes 0 0 1 2

/-- What `AutoReject` answers. -/
def sampleReject : StartOutcome := { World.sampleStart with shouldCreate := false }

/-- `Start` runs to its end, a peer is accepted, and the connection to it comes up. -/
def startedFirst : List PublishingLabel :=
  List.replicate 21 .statement ++
    [samplePacket sampleFirst World.sampleStart, samplePacket sampleThird World.sampleStart,
      .world (.connected 0)]

theorem published_started_first :
    ∃ run : (exec samplePublish sampleListening startedFirst).isSome = true,
      ((exec samplePublish sampleListening startedFirst).get run).invoked =
          [(.onAccept 0 true, some (.app 1))] ∧
        ((exec samplePublish sampleListening startedFirst).get run).Published sampleKontext :=
  ⟨by decide +kernel, by decide +kernel,
    (published_iff (show exec Host.step {} [] = some {} from rfl) sampleListening_reached
      World.sampleListener sampleKontext {} (Option.some_get _).symm).2 (by decide +kernel)⟩

/-- The third packet comes when the receive thread has been created and `appContext` is not written. -/
def acceptedFirst : List PublishingLabel :=
  List.replicate 3 .statement ++
    [samplePacket sampleFirst sampleReject, samplePacket sampleThird sampleReject]

/-- The peer's connection comes up then. -/
def connectedFirst : List PublishingLabel :=
  List.replicate 3 .statement ++
    [samplePacket sampleFirst sampleReject,
      .world (.newConnection { World.samplePeer.addr with port := 4 } true), .world (.connected 0)]

/-- **The default `OnAccept` rejects a peer, and a connection's handler finds no session.** -/
theorem used_before_published :
    Host.listen 9 sampleCalls {} = .ok (0, sampleListening.host) ∧
      ((exec samplePublish sampleListening acceptedFirst).map fun t =>
          (t.invoked, decide (t.Published sampleKontext))) =
        some ([(.onAccept 0 false, some .autoReject)], false) ∧
      ((exec samplePublish sampleListening connectedFirst).map fun t =>
          (t.found, decide (t.Published sampleKontext))) = some ([false], false) :=
  ⟨rfl, by decide +kernel, by decide +kernel⟩

end Koisyn.Session
