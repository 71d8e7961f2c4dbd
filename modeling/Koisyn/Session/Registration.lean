/-
# Koisyn.Session.Registration — the object that `OnDisconnect` hands back

`OnAccept` registers the application's object for a session; `OnDisconnect` is to hand it back.  The
context keeps it in `ChannelContext`, which `Reset` clears.  A session is a use of a slot, and the
registry records for every use the object that `OnAccept` left; an `OnDisconnect` of
`SHUTDOWN_COMPLETE` belongs to the use in which its connection was made, one of `DoCheck` to the
present use.

* `current_run`: in every run `ChannelContext` is the object registered for the slot's present use.
* `onDisconnect_hands_back_iff`: in a run every `OnDisconnect` hands back its session's object exactly
  when none comes from the quick failure of a session with an object, and none from a connection whose
  context has been reset since, unless its object is registered for the present use again.
-/
import Koisyn.Session.History

namespace Koisyn.Session

open Koisyn.Channel
open Koisyn.Theory.Bytes
open Koisyn.Theory.Run

set_option autoImplicit false

/-! ## The registry -/

/-- The object that `OnAccept` left, by slot and use. -/
abbrev Registry := Slot → Nat → Option ObjectId

/-- What `StartClient` adds to the registry when it has asked `OnAccept`. -/
def World.registers (w : World) (slot : Slot) (act : Activation) (registry : Registry) : Registry :=
  match w.opens slot act with
  | some env =>
      Function.update registry slot
        (Function.update (registry slot) (w.use slot) env.channelContext)
  | none => registry

def noteAccept (L : Listener) (w : World) (l : Label) (registry : Registry) : Registry :=
  match w.route L l with
  | some (some (slot, act)) => w.registers slot act registry
  | _ => registry

/-- A session with its registry. -/
def registryStep (L : Listener) : World × Registry → Label → Option (World × Registry) :=
  recording (World.step L) (noteAccept L)

/-! ## The calls -/

/-- The objects that calls hand to `OnDisconnect` of the context in `slot`. -/
def handedBack (slot : Slot) (calls : List Call) : List (Option ObjectId) :=
  calls.filterMap fun
    | .onDisconnect s channelContext => if s = slot then some channelContext else none
    | _ => none

/-- The use of the slot that an activation's `OnDisconnect` belongs to. -/
def World.sessionOf (w : World) (slot : Slot) : Activation → Option Nat
  | .shutdownComplete conn _ _ => w.conns[conn]?.map (·.use)
  | _ => some (w.use slot)

/-- The application still owns the object; `DoCheck` does not ask, so there it may. -/
def Activation.KeepsAlive (object : ObjectId) : Activation → Prop
  | .shutdownComplete _ _ alive => alive object = true
  | _ => True

/-- The activation gets to its `OnDisconnect`: `SHUTDOWN_COMPLETE` also does when its `Reset` then
waits for a `RecvMutex` that is never released. -/
def World.Calls (w : World) (slot : Slot) (act : Activation) : Prop :=
  ¬ w.Fails slot act ∨ ∃ conn isClient alive, act = .shutdownComplete conn isClient alive

/-- An activation hands back the object registered for its session, if the application keeps it. -/
def ReturnsObject (w : World) (registry : Registry) (slot : Slot) (act : Activation) : Prop :=
  ∀ use object, w.sessionOf slot act = some use → registry slot use = some object →
    act.KeepsAlive object →
      ∀ given ∈ handedBack slot (act.run slot (w.contexts slot)).calls, given = some object

/-- Every `OnDisconnect` hands back its session's object. -/
def HandsBack (L : Listener) (s : World × Registry) (l : Label) : Prop :=
  ∀ slot act, s.1.route L l = some (some (slot, act)) → s.1.Calls slot act →
    ReturnsObject s.1 s.2 slot act

/-- `DoCheck` gives the handshake up because the peer's next packet has not come. -/
def QuickFails (ctx : ConnectionContext) (now : Nat) : Prop :=
  ∃ begin_ ∈ ctx.handshakeBegin, shortStops ctx.ports (now - begin_)

/-- The quick failure is of a session without an object; the last connection's end finds the context
as it was when the connection was made, or its session has no object that is alive and not registered
for the present use too. -/
def StillRegistered (w : World) (registry : Registry) (slot : Slot) : Activation → Prop
  | .doCheck now => QuickFails (w.contexts slot) now → registry slot (w.use slot) = none
  | .shutdownComplete conn _ alive =>
      (w.contexts slot).refCount - 1 = 0 → ∀ c, w.conns[conn]? = some c →
        c.use = w.use slot ∨ ∀ object, registry slot c.use = some object → alive object = true →
          registry slot (w.use slot) = some object
  | _ => True

def KeepsRegistered (L : Listener) (s : World × Registry) (l : Label) : Prop :=
  ∀ slot act, s.1.route L l = some (some (slot, act)) → s.1.Calls slot act →
    StillRegistered s.1 s.2 slot act

/-! ## The channel context of the present use -/

/-- `ChannelContext` is the object registered for the present use, and no use to come has one. -/
structure Current (s : World × Registry) : Prop where
  now : ∀ slot, (s.1.contexts slot).channelContext = s.2 slot (s.1.use slot)
  later : ∀ slot use, s.1.use slot < use → s.2 slot use = none

/-- **What an activation does to the channel context**: without a reset it is what `OnAccept` left, if
it was asked, and after one it is null. -/
theorem Effect.channelContext {ctx ctx' : Core} {act : Activation} {noted : List Mark}
    (effect : Effect ctx act ctx' noted) {asked : Option StartEnv}
    (asks : ∀ env, asked = some env ↔ ∃ ports, act.starts ctx.ports = some (ports, env) ∧
      ctx.self = none ∧ env.connection.isSome = true) :
    (noted.count .reset = 0 ∧
        ctx'.channelContext = asked.elim ctx.channelContext (·.channelContext)) ∨
      noted.count .reset = 1 ∧ ctx'.channelContext = none := by
  have silent : (∀ ports env, act.starts ctx.ports ≠ some (ports, env)) → asked = none := by
    intro noStart
    cases asked with
    | none => rfl
    | some env =>
        obtain ⟨ports, starts, -⟩ := (asks env).1 rfl
        exact absurd starts (noStart ports env)
  cases effect with
  | quiet bystander =>
      refine .inl ⟨rfl, ?_⟩
      rw [silent fun ports env starts => (Activation.of_starts starts).1.1 bystander]
      rfl
  | connectTo => exact .inl ⟨rfl, by rw [silent (by simp [Activation.starts])]; rfl⟩
  | saved => exact .inl ⟨rfl, by rw [silent (by simp [Activation.starts])]; rfl⟩
  | answered => exact .inl ⟨rfl, by rw [silent (by simp [Activation.starts])]; rfl⟩
  | @unopened _ ports env starts unopened =>
      have none_ : asked = none := by
        cases asked with
        | none => rfl
        | some e =>
            obtain ⟨ports', starts', free, opens⟩ := (asks e).1 rfl
            rw [starts] at starts'
            cases starts'
            rcases unopened with taken | failed
            · rw [free] at taken
              cases taken
            · rw [failed] at opens
              cases opens
      exact .inl ⟨by simp, by rw [none_]; rfl⟩
  | granted starts free opened granted =>
      have isAsked := (asks _).2 ⟨_, starts, free, by rw [opened]; rfl⟩
      exact .inl ⟨by simp, by rw [isAsked]; rfl⟩
  | refused => exact .inr ⟨by simp, rfl⟩
  | connected =>
      refine .inl ⟨by split <;> simp, ?_⟩
      rw [silent (by simp [Activation.starts])]
      rfl
  | closedLast => exact .inr ⟨by simp, rfl⟩
  | closed => exact .inl ⟨rfl, by rw [silent (by simp [Activation.starts])]; rfl⟩
  | longStop => exact .inr ⟨by simp, rfl⟩
  | shortStop => exact .inr ⟨by simp, rfl⟩
  | dropped => exact .inr ⟨by simp, rfl⟩

namespace World

variable {w : World} {L : Listener}

theorem opens_iff {slot : Slot} {act : Activation} (env : StartEnv) :
    w.opens slot act = some env ↔
      ∃ ports, act.starts (core (w.contexts slot)).ports = some (ports, env) ∧
        (core (w.contexts slot)).self = none ∧ env.connection.isSome = true := by
  constructor
  · intro opened
    obtain ⟨ports, conn, starts, free, opens⟩ := opens_some opened
    exact ⟨ports, starts, free, by rw [opens]; rfl⟩
  · rintro ⟨ports, starts, free, opens⟩
    have free' : (w.contexts slot).unreliable.self = none := free
    have starts' : act.starts (w.contexts slot).ports = some (ports, env) := starts
    simp [World.opens, starts', free', opens]

theorem current_after {registry : Registry} (current : Current (w, registry)) (slot : Slot)
    (act : Activation) : Current (w.after slot act, w.registers slot act registry) := by
  obtain ⟨noted, effect, history⟩ := w.after_effect slot act
  have uses := use_after_self history
  have elsewhere : ∀ i use, i ≠ slot ∨ use ≠ w.use slot →
      w.registers slot act registry i use = registry i use := by
    intro i use other
    cases opened : w.opens slot act with
    | none => simp only [World.registers, opened]
    | some env =>
        simp only [World.registers, opened]
        by_cases here : i = slot
        · subst here
          rw [Function.update_self, Function.update_of_ne (other.resolve_left fun h => h rfl)]
        · rw [Function.update_of_ne here]
  have later : ∀ i use, (w.after slot act).use i < use →
      w.registers slot act registry i use = none := by
    intro i use later
    by_cases here : i = slot
    · subst here
      rw [elsewhere i use (.inr (by omega))]
      apply current.later
      show w.use i < use
      omega
    · rw [elsewhere i use (.inl here)]
      rw [use_after_ne here] at later
      exact current.later i use later
  refine ⟨?_, later⟩
  intro i
  show ((w.after slot act).contexts i).channelContext = w.registers slot act registry i _
  by_cases here : i = slot
  · subst here
    have kept : (core (w.contexts i)).channelContext = registry i (w.use i) := current.now i
    show (core ((w.after i act).contexts i)).channelContext = _
    rcases effect.channelContext fun env => opens_iff (w := w) env with ⟨noReset, same⟩ | ⟨reset, null⟩
    · rw [same, uses, noReset, Nat.add_zero]
      unfold World.registers
      cases w.opens i act with
      | none => exact kept
      | some env => simp
    · rw [null, uses, reset, elsewhere i _ (.inr (by omega))]
      exact (current.later i _ (Nat.lt_succ_self _)).symm
  · rw [after_contexts_ne _ here, use_after_ne here, elsewhere i _ (.inl here)]
    exact current.now i

end World

theorem current_step {L : Listener} {w t : World} {registry : Registry} {l : Label}
    (current : Current (w, registry)) (taken : w.step L l = some t) :
    Current (t, noteAccept L w l registry) := by
  rcases World.step_cases taken with ⟨route, rfl⟩ | ⟨slot, act, route, -, rfl⟩
  · simpa only [noteAccept, route] using current
  · simpa only [noteAccept, route] using World.current_after current slot act

/-- **The channel context is that of the present use**, in every run. -/
theorem current_run (L : Listener) (labels : List Label) :
    Always (registryStep L) Current ({}, fun _ _ => none) labels := by
  refine always_of_keeps ?_ labels ⟨fun _ => rfl, fun _ _ _ => rfl⟩
  rintro ⟨w, registry⟩ l ⟨t, registry'⟩ current taken
  obtain ⟨taken, rfl⟩ := recording_some.1 taken
  exact current_step current taken

/-! ## What is handed back -/

section HandedBack

variable (slot : Slot)

@[simp] theorem handedBack_append (calls more : List Call) :
    handedBack slot (calls ++ more) = handedBack slot calls ++ handedBack slot more :=
  List.filterMap_append

theorem handedBack_of_marks {calls : List Call} (silent : .disconnected ∉ marks slot calls) :
    handedBack slot calls = [] := by
  refine List.filterMap_eq_nil_iff.2 fun call member => ?_
  cases call with
  | onDisconnect s channelContext =>
      dsimp only
      split
      · rename_i here
        exact absurd (mem_marks member (by simp [markOf, here])) silent
      · rfl
  | _ => rfl

theorem handedBack_resetCalls (ctx : ConnectionContext) : handedBack slot (ctx.resetCalls slot) = [] :=
  handedBack_of_marks slot (by simp)

theorem handedBack_doCheck (ctx : ConnectionContext) (now : Nat) (given : Option ObjectId) :
    given ∈ handedBack slot (doCheck slot ctx now).2 ↔ QuickFails ctx now ∧ given = none := by
  unfold doCheck QuickFails
  cases begun : ctx.handshakeBegin with
  | none => simp [handedBack]
  | some begin_ =>
      simp only [Option.mem_def, Option.some.injEq, exists_eq_left']
      split
      · rename_i early
        refine ⟨fun member => absurd member List.not_mem_nil, ?_⟩
        rintro ⟨⟨-, -, late⟩, -⟩
        have : retryTimeout - milliseconds 2 < shortStopRetryTimeout - milliseconds 2 := by decide
        omega
      · split
        · rename_i longStop
          rw [handedBack_resetCalls]
          refine ⟨fun member => absurd member List.not_mem_nil, ?_⟩
          rintro ⟨⟨notLong, -⟩, -⟩
          exact absurd longStop notLong
        · split
          · rename_i stops
            rw [handedBack_append, handedBack_resetCalls]
            simp [handedBack, stops]
          · rename_i goesOn
            refine ⟨fun member => absurd member List.not_mem_nil, ?_⟩
            rintro ⟨stops, -⟩
            exact absurd stops goesOn

theorem handedBack_shutdownComplete (ctx : ConnectionContext) (conn : Hquic) (isClient : Bool)
    (alive : ObjectId → Bool) (given : Option ObjectId) :
    given ∈ handedBack slot (shutdownComplete slot ctx conn isClient alive).2 ↔
      ctx.refCount - 1 = 0 ∧ given = lockChannelContext alive ctx.channelContext := by
  have refCount : (clearSide ctx isClient).refCount = ctx.refCount := by
    cases isClient <;> rfl
  have channelContext : (clearSide ctx isClient).channelContext = ctx.channelContext := by
    cases isClient <;> rfl
  have side : handedBack slot (clearSideCalls ctx isClient) = [] :=
    handedBack_of_marks slot (by simp)
  unfold shutdownComplete
  dsimp only
  rw [refCount, channelContext]
  split
  · rename_i last
    have reset := handedBack_resetCalls slot
    rw [handedBack_append, handedBack_append, side, List.nil_append]
    unfold handedBack at reset ⊢
    simp [reset, last]
  · rename_i more
    rw [handedBack_append, side]
    simp [handedBack, more]

end HandedBack

/-- Only these two kinds of activation call `OnDisconnect`. -/
theorem handedBack_run (slot : Slot) (ctx : ConnectionContext) {act : Activation}
    (notCheck : ∀ now, act ≠ .doCheck now)
    (notShutdown : ∀ conn isClient alive, act ≠ .shutdownComplete conn isClient alive) :
    handedBack slot (act.run slot ctx).calls = [] := by
  apply handedBack_of_marks
  have effect := run_effect slot ctx act
  generalize core (act.run slot ctx).ctx = after at effect
  generalize marks slot (act.run slot ctx).calls = noted at effect
  intro member
  cases effect with
  | connected =>
      split at member <;> simp at member
  | closedLast => exact notShutdown _ _ _ rfl
  | shortStop => exact notCheck _ rfl
  | _ => simp at member

/-- **The step rule.**  An activation hands its session's object back exactly when that is still the
one registered. -/
theorem returnsObject_iff {w : World} {registry : Registry} (current : Current (w, registry))
    (slot : Slot) (act : Activation) :
    ReturnsObject w registry slot act ↔ StillRegistered w registry slot act := by
  have now : (w.contexts slot).channelContext = registry slot (w.use slot) := current.now slot
  by_cases isCheck : ∃ now, act = .doCheck now
  · obtain ⟨time, rfl⟩ := isCheck
    constructor
    · intro returns fails
      cases registered : registry slot (w.use slot) with
      | none => rfl
      | some object =>
          have given := returns _ object rfl registered trivial none
            ((handedBack_doCheck slot _ time none).2 ⟨fails, rfl⟩)
          cases given
    · intro condition use object session registered _ given member
      obtain ⟨fails, -⟩ := (handedBack_doCheck slot _ time given).1 member
      cases session
      rw [condition fails] at registered
      cases registered
  · by_cases isShutdown : ∃ conn isClient alive, act = .shutdownComplete conn isClient alive
    · obtain ⟨conn, isClient, alive, rfl⟩ := isShutdown
      have hands : ∀ given, given ∈ handedBack slot
            ((Activation.shutdownComplete conn isClient alive).run slot (w.contexts slot)).calls ↔
          (w.contexts slot).refCount - 1 = 0 ∧
            given = lockChannelContext alive (registry slot (w.use slot)) := by
        intro given
        rw [← now]
        exact handedBack_shutdownComplete slot (w.contexts slot) conn isClient alive given
      have locks : ∀ object, alive object = true →
          (lockChannelContext alive (registry slot (w.use slot)) = some object ↔
            registry slot (w.use slot) = some object) := by
        intro object kept
        rw [lockChannelContext, Option.filter_eq_some_iff]
        exact and_iff_left kept
      constructor
      · intro returns last c present
        refine .inr fun object registered kept => ?_
        have session : w.sessionOf slot (.shutdownComplete conn isClient alive) = some c.use := by
          simp [World.sessionOf, present]
        exact (locks object kept).1
          (returns c.use object session registered kept _ ((hands _).2 ⟨last, rfl⟩))
      · intro condition use object session registered kept given member
        obtain ⟨last, rfl⟩ := (hands given).1 member
        obtain ⟨c, present, rfl⟩ := Option.map_eq_some_iff.1 session
        apply (locks object kept).2
        rcases condition last c present with same | still
        · rwa [← same]
        · exact still object registered kept
    · have none_ := handedBack_run slot (w.contexts slot)
        (fun now same => isCheck ⟨now, same⟩)
        fun conn isClient alive same => isShutdown ⟨conn, isClient, alive, same⟩
      refine iff_of_true ?_ ?_
      · intro use object _ _ _ given member
        rw [none_] at member
        exact absurd member List.not_mem_nil
      · cases act with
        | doCheck now => exact absurd ⟨now, rfl⟩ isCheck
        | shutdownComplete conn isClient alive => exact absurd ⟨conn, isClient, alive, rfl⟩ isShutdown
        | _ => trivial

/-- **Exactly when `OnDisconnect` hands back the registered object**, in every run. -/
theorem onDisconnect_hands_back_iff (L : Listener) (labels : List Label) :
    EveryStep (registryStep L) (HandsBack L) ({}, fun _ _ => none) labels ↔
      EveryStep (registryStep L) (KeepsRegistered L) ({}, fun _ _ => none) labels := by
  have rule : ∀ (s : World × Registry) (l : Label), Current s →
      (HandsBack L s l ↔ KeepsRegistered L s l) :=
    fun s l current => forall₄_congr fun slot act _ _ => returnsObject_iff current slot act
  have always := current_run L labels
  constructor
  · exact everyStep_of_always_of_everyStep (fun s l current => (rule s l current).1) always
  · exact everyStep_of_always_of_everyStep (fun s l current => (rule s l current).2) always

/-! ## Two ways to lose the object -/

/-- We connect and our client starts, with object 7 registered. -/
def registeredSession : List Label :=
  [.connectTo (some World.samplePeer) (fun _ => false) (some 2) 0,
    .packet (portBytes 3 4 1 2) World.samplePeer (fun _ => false) none 0 World.sampleStart]

/-- The peer does not answer for thirteen seconds, and `OnDisconnect` gets null. -/
theorem quickFailure_loses_object :
    ¬ EveryStep (registryStep World.sampleListener) (HandsBack World.sampleListener)
      ({}, fun _ _ => none) (registeredSession ++ [.doCheck 0 (seconds 13)]) := by
  have reached : (exec (registryStep World.sampleListener) ({}, fun _ _ => none)
        registeredSession).map (fun s =>
          (s.2 0 (s.1.use 0), decide (s.1.Fails 0 (.doCheck (seconds 13))),
            handedBack 0 ((Activation.doCheck (seconds 13)).run 0 (s.1.contexts 0)).calls)) =
      some (some 7, false, [none]) := by decide +kernel
  intro every
  obtain ⟨s, run, state⟩ := Option.map_eq_some_iff.1 reached
  obtain ⟨registered, rest⟩ := Prod.mk.inj state
  obtain ⟨works, given⟩ := Prod.mk.inj rest
  have returns := EveryStep.visit registeredSession [] every run 0 (.doCheck (seconds 13)) rfl
    (.inl (of_decide_eq_false works)) _ 7 rfl registered trivial none
  rw [given] at returns
  cases returns List.mem_cons_self

end Koisyn.Session
