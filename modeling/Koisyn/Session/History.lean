/-
# Koisyn.Session.History — what a context's history says of it, and of its old connections

`Standing` reads three facts off a history: whether `OnAccept` has been granted since the last reset,
whether a `CONNECTED` has cleared a handshake time since then, and whether a session that was accepted
has not been disconnected yet.  `Alternates` is the pairing of accepts and disconnects.

Connections remember the use of the slot they were made in.  `Origins`: a client
connection of the current use that was started is one the application has accepted.
-/
import Koisyn.Session.World

namespace Koisyn.Session

open Koisyn.Channel
open Koisyn.Theory.Run

set_option autoImplicit false

/-! ## Reading a history -/

structure Standing where
  accepted : Bool := false
  cleared : Bool := false
  live : Bool := false
  deriving DecidableEq, Repr

def Standing.after (s : Standing) : Mark → Standing
  | .started _ => s
  | .accepted => { s with accepted := true, live := true }
  | .disconnected => { s with live := false }
  | .reset => { s with accepted := false, cleared := false }
  | .cleared => { s with cleared := true }

def standing (history : List Mark) : Standing := history.foldl Standing.after {}

@[simp] theorem standing_append (history noted : List Mark) :
    standing (history ++ noted) = noted.foldl Standing.after (standing history) :=
  List.foldl_append

/-- Accepts and disconnects alternate, the next one being an accept unless `live`. -/
def Alternates : Bool → List Mark → Prop
  | _, [] => True
  | live, .accepted :: history => live = false ∧ Alternates true history
  | live, .disconnected :: history => live = true ∧ Alternates false history
  | live, .started _ :: history | live, .reset :: history | live, .cleared :: history =>
      Alternates live history

instance decidableAlternates : ∀ (live : Bool) (history : List Mark),
    Decidable (Alternates live history)
  | _, [] => isTrue trivial
  | live, .accepted :: history =>
      have := decidableAlternates true history
      inferInstanceAs (Decidable (live = false ∧ Alternates true history))
  | live, .disconnected :: history =>
      have := decidableAlternates false history
      inferInstanceAs (Decidable (live = true ∧ Alternates false history))
  | live, .started _ :: history => decidableAlternates live history
  | live, .reset :: history => decidableAlternates live history
  | live, .cleared :: history => decidableAlternates live history

theorem alternates_append (s : Standing) (history noted : List Mark) :
    Alternates s.live (history ++ noted) ↔
      Alternates s.live history ∧ Alternates (history.foldl Standing.after s).live noted := by
  induction history generalizing s with
  | nil => simp [Alternates]
  | cons mark history ih =>
      have rest := ih (s.after mark)
      cases mark <;> simp_all [Alternates, Standing.after, and_assoc]

/-- An activation resets its slot once, or takes no accept back. -/
theorem Effect.resets_or_keeps {ctx ctx' : Core} {act : Activation} {noted : List Mark}
    (effect : Effect ctx act ctx' noted) (s : Standing) :
    noted.count .reset = 1 ∨ noted.count .reset = 0 ∧
      (s.accepted = true → (noted.foldl Standing.after s).accepted = true) := by
  cases effect with
  | connected conn => split <;> simp [Standing.after]
  | _ => simp [Standing.after]

/-- A `StartClient` in the history ran from the ports that its packet left. -/
theorem Effect.starts_of_started {ctx ctx' : Core} {act : Activation} {noted : List Mark}
    (effect : Effect ctx act ctx' noted) {ports : Ports} (started : .started ports ∈ noted) :
    ∃ env, act.starts ctx.ports = some (ports, env) := by
  cases effect with
  | unopened starts =>
      obtain rfl : ports = _ := by simpa using started
      exact ⟨_, starts⟩
  | granted starts =>
      obtain rfl : ports = _ := by simpa using started
      exact ⟨_, starts⟩
  | refused starts =>
      obtain rfl : ports = _ := by simpa using started
      exact ⟨_, starts⟩
  | connected => split at started <;> simp at started
  | _ => simp at started

/-- Where `StartClient` runs, the history says so. -/
theorem Effect.started_of_starts {ctx ctx' : Core} {act : Activation} {noted : List Mark}
    (effect : Effect ctx act ctx' noted) {ports : Ports} {env : StartEnv}
    (starts : act.starts ctx.ports = some (ports, env)) : .started ports ∈ noted := by
  cases effect with
  | quiet bystander => exact absurd bystander (Activation.of_starts starts).1.1
  | dropped drops => exact absurd drops ((Activation.of_starts starts).1.2 _)
  | unopened starts' =>
      obtain ⟨rfl, -⟩ := Prod.mk.inj (Option.some.inj (starts.symm.trans starts'))
      exact List.mem_cons_self
  | granted starts' =>
      obtain ⟨rfl, -⟩ := Prod.mk.inj (Option.some.inj (starts.symm.trans starts'))
      exact List.mem_cons_self
  | refused starts' =>
      obtain ⟨rfl, -⟩ := Prod.mk.inj (Option.some.inj (starts.symm.trans starts'))
      exact List.mem_cons_self
  | _ => cases starts

/-- The ports that `StartClient` leaves: those it ran from, or none after a refusal. -/
theorem Effect.ports_of_starts {ctx ctx' : Core} {act : Activation} {noted : List Mark}
    (effect : Effect ctx act ctx' noted) {ports : Ports} {env : StartEnv}
    (starts : act.starts ctx.ports = some (ports, env)) :
    ctx'.ports = ports ∨ ctx'.ports = {} ∧ noted.count .reset = 1 := by
  cases effect with
  | quiet bystander => exact absurd bystander (Activation.of_starts starts).1.1
  | dropped drops => exact absurd drops ((Activation.of_starts starts).1.2 _)
  | unopened starts' =>
      exact .inl (Prod.mk.inj (Option.some.inj (starts'.symm.trans starts))).1
  | granted starts' =>
      exact .inl (Prod.mk.inj (Option.some.inj (starts'.symm.trans starts))).1
  | refused => exact .inr ⟨rfl, rfl⟩
  | _ => cases starts

/-- Where `StartClient` opens a connection and the application accepts, the history says so. -/
theorem Effect.granted_of_opens {ctx ctx' : Core} {act : Activation} {noted : List Mark}
    (effect : Effect ctx act ctx' noted) {ports : Ports} {env : StartEnv} {conn : Hquic}
    (starts : act.starts ctx.ports = some (ports, env)) (free : ctx.self = none)
    (opened : env.connection = some conn) (granted : env.granted = true) (s : Standing) :
    (noted.foldl Standing.after s).accepted = true := by
  cases effect with
  | quiet bystander => exact absurd bystander (Activation.of_starts starts).1.1
  | dropped drops => exact absurd drops ((Activation.of_starts starts).1.2 _)
  | unopened starts' unopened =>
      obtain ⟨-, rfl⟩ := Prod.mk.inj (Option.some.inj (starts.symm.trans starts'))
      rcases unopened with taken | failed
      · rw [free] at taken
        cases taken
      · rw [opened] at failed
        cases failed
  | granted => rfl
  | refused starts' _ _ refused =>
      obtain ⟨-, rfl⟩ := Prod.mk.inj (Option.some.inj (starts.symm.trans starts'))
      rw [granted] at refused
      cases refused
  | _ => cases starts

namespace World

variable {L : Listener} {w : World}

def standing (w : World) (slot : Slot) : Standing := Session.standing (w.history slot)

theorem standing_after_ne {slot i : Slot} (other : i ≠ slot) (act : Activation) :
    (w.after slot act).standing i = w.standing i := by
  rw [standing, after_history_ne _ other, standing]

theorem use_after_ne {slot i : Slot} (other : i ≠ slot) (act : Activation) :
    (w.after slot act).use i = w.use i := by
  rw [use, after_history_ne _ other, use]

theorem standing_after_self {slot : Slot} {act : Activation} {noted : List Mark}
    (history : (w.after slot act).history slot = w.history slot ++ noted) :
    (w.after slot act).standing slot = noted.foldl Standing.after (w.standing slot) := by
  rw [World.standing, history, standing_append, World.standing]

theorem use_after_self {slot : Slot} {act : Activation} {noted : List Mark}
    (history : (w.after slot act).history slot = w.history slot ++ noted) :
    (w.after slot act).use slot = w.use slot + noted.count .reset := by
  rw [use, history, List.count_append, use]

/-! ## The connection records -/

theorem mem_modify {α : Type} {f : α → α} {l : List α} {i : Nat} {b : α} (member : b ∈ l.modify i f) :
    b ∈ l ∨ ∃ a, l[i]? = some a ∧ b = f a := by
  obtain ⟨j, found⟩ := List.mem_iff_getElem?.1 member
  rw [List.getElem?_modify] at found
  obtain ⟨a, present, same⟩ := Option.map_eq_some_iff.1 found
  split at same
  · rename_i here
    exact .inr ⟨a, here ▸ present, same.symm⟩
  · exact .inl (same ▸ List.mem_iff_getElem?.2 ⟨j, present⟩)

/-- What events leave alone in a connection's record. -/
def SameOrigin (c d : Conn) : Prop :=
  c.isClient = d.isClient ∧ c.slot = d.slot ∧ c.use = d.use ∧ c.started = d.started

/-- What an activation leaves of the record of a connection made before. -/
structure Follows (w : World) (act : Activation) (d c : Conn) : Prop where
  origin : SameOrigin c d
  unclosed : c.closed = false → d.closed = false
  connects : c.connected = true →
    d.connected = true ∨ ∃ conn, act = .connected conn ∧ w.conns[conn]? = some d

/-- A connection that is still open was open before. -/
theorem Follows.isOpen {w : World} {act : Activation} {d c : Conn} (follows : Follows w act d c)
    (isOpen : c.isOpen = true) : d.isOpen = true := by
  obtain ⟨sameSide, -, -, sameStart⟩ := follows.origin
  obtain ⟨unclosed, raises⟩ := Conn.isOpen_iff.1 isOpen
  rw [sameSide, sameStart] at raises
  exact Conn.isOpen_iff.2 ⟨follows.unclosed unclosed, raises⟩

theorem follows_self {w : World} {act : Activation} (c : Conn) : Follows w act c c where
  origin := ⟨rfl, rfl, rfl, rfl⟩
  unclosed := id
  connects := .inl

/-- The record of a connection that the activation in `slot` makes. -/
structure MadeNow (w : World) (slot : Slot) (act : Activation) (c : Conn) : Prop where
  here : c.slot = slot
  current : c.use = w.use slot
  unconnected : c.connected = false
  maker : (c.isClient = true ∧ ∃ env, w.opens slot act = some env ∧ c.started = env.granted) ∨
    c.isClient = false ∧ ∃ conn, act = .newConnection conn c.started

/-- A connection record is an old one, or that of a connection made now. -/
theorem mem_connsAfter {slot : Slot} {act : Activation} {c : Conn}
    (member : c ∈ w.connsAfter slot act) :
    (∃ d ∈ w.conns, Follows w act d c) ∨ MadeNow w slot act c := by
  unfold connsAfter at member
  split at member
  · rename_i env opened
    rcases List.mem_append.1 member with old | new
    · exact .inl ⟨c, old, follows_self c⟩
    · obtain rfl := List.mem_singleton.1 new
      exact .inr ⟨rfl, rfl, rfl, .inl ⟨rfl, env, opened, rfl⟩⟩
  · rcases List.mem_append.1 member with old | new
    · split at old
      · exact .inl ⟨c, old, follows_self c⟩
      · rcases mem_modify old with old | ⟨d, present, rfl⟩
        · exact .inl ⟨c, old, follows_self c⟩
        · exact .inl ⟨d, List.mem_of_getElem? present, ⟨rfl, rfl, rfl, rfl⟩, id, .inl⟩
    · obtain rfl := List.mem_singleton.1 new
      exact .inr ⟨rfl, rfl, rfl, .inr ⟨rfl, _, rfl⟩⟩
  · rename_i conn _
    rcases mem_modify member with old | ⟨d, present, rfl⟩
    · exact .inl ⟨c, old, follows_self c⟩
    · exact .inl ⟨d, List.mem_of_getElem? present, ⟨rfl, rfl, rfl, rfl⟩, id,
        fun _ => .inr ⟨conn, rfl, present⟩⟩
  · rcases mem_modify member with old | ⟨d, present, rfl⟩
    · exact .inl ⟨c, old, follows_self c⟩
    · exact .inl ⟨d, List.mem_of_getElem? present, ⟨rfl, rfl, rfl, rfl⟩,
        fun isOpen => Bool.noConfusion isOpen, .inl⟩
  · exact .inl ⟨c, member, follows_self c⟩

/-- A connection keeps its place among the records. -/
theorem connsAfter_of_present (slot : Slot) (act : Activation) {conn : Hquic} {d : Conn}
    (present : w.conns[conn]? = some d) :
    ∃ c, (w.connsAfter slot act)[conn]? = some c ∧ SameOrigin c d := by
  have inside : conn < w.conns.length := (List.getElem?_eq_some_iff.1 present).1
  have modified : ∀ (i : Nat) (f : Conn → Conn), (∀ c, SameOrigin (f c) c) →
      ∃ c, (w.conns.modify i f)[conn]? = some c ∧ SameOrigin c d := by
    intro i f same
    rw [List.getElem?_modify, present]
    split
    · exact ⟨f d, rfl, same d⟩
    · exact ⟨d, rfl, rfl, rfl, rfl, rfl⟩
  unfold connsAfter
  split
  · rw [List.getElem?_append_left inside]
    exact ⟨d, present, rfl, rfl, rfl, rfl⟩
  · dsimp only
    split
    · rw [List.getElem?_append_left inside]
      exact ⟨d, present, rfl, rfl, rfl, rfl⟩
    · rw [List.getElem?_append_left (by rwa [List.length_modify])]
      exact modified _ _ fun _ => ⟨rfl, rfl, rfl, rfl⟩
  · exact modified _ _ fun _ => ⟨rfl, rfl, rfl, rfl⟩
  · exact modified _ _ fun _ => ⟨rfl, rfl, rfl, rfl⟩
  · exact ⟨d, present, rfl, rfl, rfl, rfl⟩

/-- No connection is of a use to come, and the started client connections of the current use have
been accepted. -/
structure Origins (w : World) : Prop where
  past : ∀ c ∈ w.conns, c.use ≤ w.use c.slot
  ours : ∀ c ∈ w.conns, c.isClient = true → c.started = true → c.use = w.use c.slot →
    (w.standing c.slot).accepted = true

theorem origins_start : Origins {} where
  past _ member := absurd member List.not_mem_nil
  ours _ member := absurd member List.not_mem_nil

theorem opens_some {slot : Slot} {act : Activation} {env : StartEnv}
    (opened : w.opens slot act = some env) :
    ∃ ports conn, act.starts (w.contexts slot).ports = some (ports, env) ∧
      (w.contexts slot).unreliable.self = none ∧ env.connection = some conn := by
  unfold opens at opened
  obtain ⟨⟨ports, e⟩, starts, chosen⟩ := Option.bind_eq_some_iff.1 opened
  dsimp only at chosen
  split at chosen
  · rename_i free
    cases chosen
    simp only [Bool.and_eq_true, Option.isNone_iff_eq_none] at free
    obtain ⟨conn, opens⟩ := Option.isSome_iff_exists.1 free.2
    exact ⟨ports, conn, starts, free.1, opens⟩
  · cases chosen

theorem origins_after {slot : Slot} {act : Activation} (origins : w.Origins) :
    (w.after slot act).Origins := by
  obtain ⟨noted, effect, history⟩ := w.after_effect slot act
  have use := use_after_self history
  have standing := standing_after_self history
  have resets := effect.resets_or_keeps (w.standing slot)
  refine ⟨?_, ?_⟩
  · intro c member
    rcases mem_connsAfter member with ⟨d, old, ⟨-, sameSlot, sameUse, -⟩, -, -⟩ | ⟨here, now, -, -⟩
    · have before := origins.past d old
      rw [sameSlot, sameUse]
      by_cases here : d.slot = slot
      · rw [here] at before ⊢
        omega
      · rwa [use_after_ne here]
    · rw [here, now]
      omega
  · intro c member isClient started current
    rcases mem_connsAfter member with ⟨d, old, ⟨sameSide, sameSlot, sameUse, sameStart⟩, -, -⟩ |
        ⟨here, -, -, maker⟩
    · rw [sameSlot] at current ⊢
      rw [sameUse] at current
      rw [sameSide] at isClient
      rw [sameStart] at started
      by_cases here : d.slot = slot
      · have before := origins.past d old
        rw [here] at current before ⊢
        rcases resets with reset | ⟨noReset, keeps⟩
        · omega
        · rw [standing]
          refine keeps ?_
          rw [← here]
          exact origins.ours d old isClient started (by rw [here]; omega)
      · rw [use_after_ne here] at current
        rw [standing_after_ne here]
        exact origins.ours d old isClient started current
    · have client : c.isClient ≠ false := by simp [isClient]
      obtain ⟨-, env, isOpened, startedNow⟩ := maker.resolve_right fun theirs => client theirs.1
      obtain ⟨ports, conn, starts, free, opens⟩ := opens_some isOpened
      rw [here, standing]
      exact effect.granted_of_opens starts free opens (startedNow ▸ started) _

/-! ## Writing a context -/

/-- One statement of a handler writes a context and makes calls. -/
def write (w : World) (slot : Slot) (ctx : ConnectionContext) (calls : List Call) : World :=
  { w with contexts := Function.update w.contexts slot ctx
           calls := Function.update w.calls slot (w.calls slot ++ calls) }

/-- What MsQuic knows of the connections and streams is written. -/
def withConns (w : World) (conns : List Conn) (strms : List Strm) : World := { w with conns, strms }

section Write

variable {slot i : Slot} {ctx : ConnectionContext} {calls : List Call}

@[simp] theorem write_contexts_self :
    (w.write slot ctx calls).contexts slot = ctx := Function.update_self _ _ _

@[simp] theorem write_contexts_ne (other : i ≠ slot) :
    (w.write slot ctx calls).contexts i = w.contexts i := Function.update_of_ne other _ _

theorem write_history_self :
    (w.write slot ctx calls).history slot = w.history slot ++ marks slot calls := by
  show marks slot (Function.update w.calls slot _ slot) = _
  rw [Function.update_self, marks_append, history]

theorem write_history_ne (other : i ≠ slot) : (w.write slot ctx calls).history i = w.history i := by
  show marks i (Function.update w.calls slot _ i) = _
  rw [Function.update_of_ne other, history]

theorem write_history (silent : marks slot calls = []) (i : Slot) :
    (w.write slot ctx calls).history i = w.history i := by
  by_cases target : i = slot
  · rw [target, write_history_self, silent, List.append_nil]
  · exact write_history_ne target

theorem write_use (silent : marks slot calls = []) (i : Slot) :
    (w.write slot ctx calls).use i = w.use i := by
  rw [use, write_history silent, use]

theorem write_use_self :
    (w.write slot ctx calls).use slot = w.use slot + (marks slot calls).count .reset := by
  rw [use, write_history_self, List.count_append, use]

theorem standing_write_self :
    (w.write slot ctx calls).standing slot =
      (marks slot calls).foldl Standing.after (w.standing slot) := by
  rw [World.standing, write_history_self, standing_append, World.standing]

theorem standing_write_ne (other : i ≠ slot) :
    (w.write slot ctx calls).standing i = w.standing i := by
  rw [World.standing, write_history_ne other, World.standing]

/-- A write keeps the origins, if it resets the context or takes no accept back. -/
theorem Origins.write (origins : w.Origins)
    (keeps : (marks slot calls).count .reset = 1 ∨ (marks slot calls).count .reset = 0 ∧
      ((w.standing slot).accepted = true →
        ((marks slot calls).foldl Standing.after (w.standing slot)).accepted = true)) :
    (w.write slot ctx calls).Origins := by
  have use : (w.write slot ctx calls).use slot = _ := write_use_self
  have useOther : ∀ i, i ≠ slot → (w.write slot ctx calls).use i = w.use i := by
    intro i other
    rw [World.use, write_history_ne other, World.use]
  refine ⟨?_, ?_⟩
  · intro c member
    have before := origins.past c member
    by_cases here : c.slot = slot
    · rw [here] at before ⊢
      omega
    · rwa [useOther c.slot here]
  · intro c member isClient started current
    by_cases here : c.slot = slot
    · have before := origins.past c member
      rw [here] at current before ⊢
      rw [standing_write_self]
      rcases keeps with reset | ⟨noReset, keeps⟩
      · omega
      · refine keeps ?_
        rw [← here]
        exact origins.ours c member isClient started (by rw [here]; omega)
    · rw [useOther c.slot here] at current
      rw [standing_write_ne here]
      exact origins.ours c member isClient started current

@[simp] theorem write_write (ctx' : ConnectionContext) (more : List Call) :
    (w.write slot ctx calls).write slot ctx' more = w.write slot ctx' (calls ++ more) := by
  simp [write]

variable {conns : List Conn} {strms : List Strm}

@[simp] theorem withConns_contexts : (w.withConns conns strms).contexts = w.contexts := rfl

@[simp] theorem withConns_conns : (w.withConns conns strms).conns = conns := rfl

@[simp] theorem withConns_strms : (w.withConns conns strms).strms = strms := rfl

@[simp] theorem withConns_write :
    (w.withConns conns strms).write slot ctx calls = (w.write slot ctx calls).withConns conns strms :=
  rfl

@[simp] theorem withConns_withConns (conns' : List Conn) (strms' : List Strm) :
    (w.withConns conns strms).withConns conns' strms' = w.withConns conns' strms' := rfl

@[simp] theorem withConns_use : (w.withConns conns strms).use slot = w.use slot := rfl

@[simp] theorem withConns_standing :
    (w.withConns conns strms).standing slot = w.standing slot := rfl

/-- An activation is one write, and what it makes MsQuic know. -/
theorem after_eq_write {act : Activation} (noChannel : channelOf act = none) :
    w.after slot act =
      (w.write slot (act.run slot (w.contexts slot)).ctx (act.run slot (w.contexts slot)).calls).withConns
        (w.connsAfter slot act) (w.strmsAfter slot act) := by
  have held : (w.after slot act).held = w.held := by
    show Function.update w.held slot _ = _
    simp [noChannel]
  exact (congrArg (fun held => (⟨_, _, _, held, _⟩ : World)) held :)

end Write

end World

end Koisyn.Session
