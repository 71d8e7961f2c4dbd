/-
# Koisyn.Session.Daemon — when the half-connection daemon lives as long as its session

`CheckHalfConnection` waits on `stopSignal` for four seconds and looks at what `wait_for` returns: with
`timeout` it checks the sixteen contexts and waits again, with `no_timeout` it exits.  `~KoiSession`
notifies and joins.  No flag says that the session stops, so that the wait alone decides.

`Watch` is the session with the two threads, and with all that a condition variable may do: a
notification reaches a thread only while it waits, a wait may end for no reason, and it returns `timeout`
exactly if its time has run out, whatever woke it.

`lives_with_session_iff`: in a fair execution the daemon lives exactly as long as its session if and only
if no wait ends early before the destructor has started, and the one that ends after `notify_all` does
end early (`Timely`).  `lost_never_exits`: a notification that comes while the daemon checks is lost, and
unless some wait ends for no reason `join` never returns.
-/
import Koisyn.Session.World
import Koisyn.Theory.Fair

namespace Koisyn.Session

open Koisyn.Channel
open Koisyn.Theory.Run Koisyn.Theory.Fair

set_option autoImplicit false

/-! ## The machine -/

/-- Where `CheckHalfConnection` is. -/
inductive DaemonPoint where
  /-- it is to check these contexts, and then to wait -/
  | checking (rest : List Slot)
  /-- it is in `wait_for` -/
  | waiting (notified expired : Bool)
  | exited
  deriving DecidableEq, Repr

/-- Where `~KoiSession` is. -/
inductive StopPoint where
  | notStarted
  | started
  | notified
  | joined
  deriving DecidableEq, Repr

inductive CvStatus where
  | noTimeout
  | timeout
  deriving DecidableEq, Repr

/-- A session, its daemon and its destructor. -/
structure Watch where
  world : World := {}
  daemon : DaemonPoint := .checking []
  destructor : StopPoint := .notStarted

inductive WatchLabel where
  | world (l : Label)
  | wait
  | expire
  | wake (spurious : Bool)
  | check (now : Nat)
  | destroy
  | notifyAll
  | join

/-- What `wait_for` returns. -/
def waitForStatus (expired : Bool) : CvStatus := if expired then .timeout else .noTimeout

/-- What `CheckHalfConnection` does with it. -/
def afterWait : CvStatus → DaemonPoint
  | .noTimeout => .exited
  | .timeout => .checking (List.finRange maxConnections)

/-- A notification reaches a thread that waits. -/
def DaemonPoint.notify : DaemonPoint → DaemonPoint
  | .waiting _ expired => .waiting true expired
  | point => point

def Label.isDoCheck : Label → Bool
  | .doCheck _ _ => true
  | _ => false

namespace Watch

/-- One step. -/
def step (L : Listener) (s : Watch) : WatchLabel → Option Watch
  | .world l =>
      if l.isDoCheck then none else (s.world.step L l).map fun t => { s with world := t }
  | .wait =>
      match s.daemon with
      | .checking [] => some { s with daemon := .waiting false false }
      | _ => none
  | .expire =>
      match s.daemon with
      | .waiting notified _ => some { s with daemon := .waiting notified true }
      | _ => none
  | .wake spurious =>
      match s.daemon with
      | .waiting notified expired =>
          if notified || expired || spurious then
            some { s with daemon := afterWait (waitForStatus expired) }
          else none
      | _ => none
  | .check now =>
      match s.daemon with
      | .checking (slot :: rest) =>
          (s.world.step L (.doCheck slot now)).map fun t =>
            { s with world := t, daemon := .checking rest }
      | _ => none
  | .destroy =>
      if s.destructor = .notStarted then some { s with destructor := .started } else none
  | .notifyAll =>
      if s.destructor = .started then
        some { s with destructor := .notified, daemon := s.daemon.notify }
      else none
  | .join =>
      if s.destructor = .notified ∧ s.daemon = .exited then some { s with destructor := .joined }
      else none

/-- What a step does to the two threads. -/
inductive Stepped (s : Watch) : WatchLabel → DaemonPoint → StopPoint → Prop where
  | world {l} : Stepped s (.world l) s.daemon s.destructor
  | wait (idle : s.daemon = .checking []) : Stepped s .wait (.waiting false false) s.destructor
  | expire {notified expired} (waits : s.daemon = .waiting notified expired) :
      Stepped s .expire (.waiting notified true) s.destructor
  | wake {spurious notified expired} (waits : s.daemon = .waiting notified expired)
      (wakes : (notified || expired || spurious) = true) :
      Stepped s (.wake spurious) (afterWait (waitForStatus expired)) s.destructor
  | check {now slot rest} (checks : s.daemon = .checking (slot :: rest)) :
      Stepped s (.check now) (.checking rest) s.destructor
  | destroy (first : s.destructor = .notStarted) : Stepped s .destroy s.daemon .started
  | notifyAll (begun : s.destructor = .started) : Stepped s .notifyAll s.daemon.notify .notified
  | join (told : s.destructor = .notified) (gone : s.daemon = .exited) :
      Stepped s .join s.daemon .joined

variable {L : Listener} {s t : Watch}

theorem stepped_of_step {l : WatchLabel} (taken : s.step L l = some t) :
    s.Stepped l t.daemon t.destructor := by
  cases l with
  | world l =>
      simp only [step] at taken
      split at taken
      · cases taken
      · obtain ⟨w, -, rfl⟩ := Option.map_eq_some_iff.1 taken
        exact .world
  | wait =>
      simp only [step] at taken
      split at taken
      · rename_i idle
        cases taken
        exact .wait idle
      · cases taken
  | expire =>
      simp only [step] at taken
      split at taken
      · rename_i waits
        cases taken
        exact .expire waits
      · cases taken
  | wake spurious =>
      simp only [step] at taken
      split at taken
      · rename_i waits
        split at taken
        · rename_i wakes
          cases taken
          exact .wake waits wakes
        · cases taken
      · cases taken
  | check now =>
      simp only [step] at taken
      split at taken
      · rename_i checks
        obtain ⟨w, -, rfl⟩ := Option.map_eq_some_iff.1 taken
        exact .check checks
      · cases taken
  | destroy =>
      simp only [step] at taken
      split at taken
      · rename_i first
        cases taken
        exact .destroy first
      · cases taken
  | notifyAll =>
      simp only [step] at taken
      split at taken
      · rename_i begun
        cases taken
        exact .notifyAll begun
      · cases taken
  | join =>
      simp only [step] at taken
      split at taken
      · rename_i both
        cases taken
        exact .join both.1 both.2
      · cases taken

/-- `notify_all` has been called. -/
def Notified (s : Watch) : Prop := s.destructor = .notified ∨ s.destructor = .joined

theorem notified_step {l : WatchLabel} (told : s.Notified) (taken : s.step L l = some t) :
    t.Notified := by
  have stepped := stepped_of_step taken
  unfold Notified at told ⊢
  generalize t.daemon = daemon, t.destructor = destructor at stepped ⊢
  cases stepped with
  | destroy first =>
      rw [first] at told
      simp at told
  | notifyAll begun => exact .inl rfl
  | join told gone => exact .inr rfl
  | _ => exact told

/-- The destructor joins a daemon that has exited. -/
theorem exited_of_join (taken : s.step L .join = some t) :
    s.daemon = .exited ∧ t.destructor = .joined := by
  have stepped := stepped_of_step taken
  generalize t.daemon = daemon, t.destructor = destructor at stepped ⊢
  cases stepped with
  | join told gone => exact ⟨gone, rfl⟩

/-- An exited daemon stays so. -/
theorem exited_step {l : WatchLabel} (gone : s.daemon = .exited) (taken : s.step L l = some t) :
    t.daemon = .exited := by
  have stepped := stepped_of_step taken
  generalize t.daemon = daemon, t.destructor = destructor at stepped ⊢
  cases stepped with
  | wait idle =>
      rw [gone] at idle
      cases idle
  | expire waits =>
      rw [gone] at waits
      cases waits
  | wake waits =>
      rw [gone] at waits
      cases waits
  | check checks =>
      rw [gone] at checks
      cases checks
  | notifyAll begun =>
      rw [gone]
      rfl
  | _ => exact gone

end Watch

/-! ## Executions -/

/-- The steps of the daemon itself. -/
def WatchLabel.IsDaemon : WatchLabel → Prop
  | .wait | .wake _ | .check _ => True
  | _ => False

/-- The scheduler runs the daemon, whose waits and checks return, and lets the destructor join it. -/
structure FairWatch (L : Listener) extends Execution (Watch.step L) {} where
  runs : toExecution.Serves WatchLabel.IsDaemon fun s => s.daemon = .exited
  joins : toExecution.Serves (· = .join) fun s =>
    ¬ (s.destructor = .notified ∧ s.daemon = .exited)

namespace FairWatch

variable {L : Listener}

section Joined

variable {labels : List WatchLabel} {spurious : Bool}
  {run : (exec (Watch.step L) {} (labels ++ [.wake spurious, .join])).isSome = true}

/-- The labels at the end of such a run. -/
theorem label_wake :
    (Execution.ofRun _ run).label labels.length = some (.wake spurious) := by
  change (labels ++ [.wake spurious, .join])[labels.length]? = _
  simp

theorem label_join : (Execution.ofRun _ run).label (labels.length + 1) = some .join := by
  change (labels ++ [.wake spurious, .join])[labels.length + 1]? = _
  simp

/-- The wake-up lets the daemon exit, for good. -/
theorem exited_after_wake {n : Nat} (after : labels.length + 1 ≤ n) :
    ((Execution.ofRun _ run).state n).daemon = .exited := by
  refine Execution.stable _ (P := fun s : Watch => s.daemon = .exited) ?_ after ?_
  · exact fun _ _ _ => Watch.exited_step
  · exact (Watch.exited_of_join (Execution.taken _ label_join)).1

theorem joined_after_join {n : Nat} (after : labels.length + 2 ≤ n) :
    ((Execution.ofRun _ run).state n).destructor = .joined := by
  have whole : (labels ++ [.wake spurious, WatchLabel.join]).length = labels.length + 2 := by
    rw [List.length_append]
    rfl
  rw [Execution.ofRun_settled whole after]
  exact (Watch.exited_of_join (Execution.taken _ label_join)).2

end Joined

/-- A run that ends with a wake-up and the join is fair: then there is nothing more to serve. -/
def ofJoined (labels : List WatchLabel) (spurious : Bool)
    (run : (exec (Watch.step L) {} (labels ++ [.wake spurious, .join])).isSome = true) :
    FairWatch L where
  toExecution := .ofRun (labels ++ [.wake spurious, .join]) run
  runs n alive := by
    by_cases before : n ≤ labels.length
    · exact ⟨labels.length, .wake spurious, before, label_wake, trivial⟩
    · exact absurd (exited_after_wake (by omega)) alive
  joins n ready := by
    by_cases before : n ≤ labels.length + 1
    · exact ⟨labels.length + 1, .join, before, label_join, rfl⟩
    · refine absurd ?_ ready
      rintro ⟨notified, -⟩
      rw [joined_after_join (by omega)] at notified
      cases notified

variable (e : FairWatch L)

/-- After time `n` the daemon begins a pass over the contexts and completes it. -/
def Passes (n : Nat) : Prop :=
  ∃ m k notified expired, n ≤ m ∧ m < k ∧ (e.state m).daemon = .waiting notified expired ∧
    (e.state (m + 1)).daemon = .checking (List.finRange maxConnections) ∧
    (e.state k).daemon = .checking []

/-- The daemon lives exactly as long as the session. -/
structure LivesWithSession : Prop where
  alive : ∀ n, (e.state n).destructor = .notStarted → (e.state n).daemon ≠ .exited
  noPass : ∀ n, (e.state n).Notified → ¬ e.Passes n
  exits : ∀ n, (e.state n).Notified → ∃ m, n ≤ m ∧ (e.state m).daemon = .exited
  joined : ∀ n, (e.state n).Notified → ∃ m, n ≤ m ∧ (e.state m).destructor = .joined

/-- No wait ends early before the destructor has started, and none ends late after `notify_all`. -/
def Timely : Prop :=
  ∀ n spurious notified expired, e.label n = some (.wake spurious) →
    (e.state n).daemon = .waiting notified expired →
    ((e.state n).destructor = .notStarted → expired = true) ∧
      ((e.state n).Notified → expired = false)

variable {e}

theorem stepped {n : Nat} {l : WatchLabel} (labelled : e.label n = some l) :
    (e.state n).Stepped l (e.state (n + 1)).daemon (e.state (n + 1)).destructor :=
  Watch.stepped_of_step (e.taken labelled)

theorem notified_later {n m : Nat} (told : (e.state n).Notified) (later : n ≤ m) :
    (e.state m).Notified :=
  e.stable (fun _ _ _ => Watch.notified_step) later told

/-! ### Enough -/

theorem Timely.alive (timely : e.Timely) (n : Nat)
    (notStarted : (e.state n).destructor = .notStarted) : (e.state n).daemon ≠ .exited := by
  have kept := e.stable_of_labels
    (P := fun s => s.destructor = .notStarted → s.daemon ≠ .exited) (n := 0) ?_ (Nat.zero_le n) ?_
  · exact kept notStarted
  · intro m l _ before labelled
    have stepped := stepped labelled
    generalize (e.state (m + 1)).daemon = daemon, (e.state (m + 1)).destructor = destructor
      at stepped ⊢
    cases stepped with
    | wait idle => exact fun _ => nofun
    | expire waits => exact fun _ => nofun
    | wake waits wakes =>
        intro notStarted
        rw [((timely m _ _ _ labelled waits).1 notStarted)]
        exact nofun
    | check checks => exact fun _ => nofun
    | world => exact before
    | destroy => exact nofun
    | notifyAll => exact nofun
    | join => exact nofun
  · rw [e.starts]
    exact fun _ => nofun

/-- A pass begins where a wait ends late. -/
theorem woken_of_begins {n : Nat} {notified expired : Bool} {rest : List Slot}
    (waits : (e.state n).daemon = .waiting notified expired)
    (begins : (e.state (n + 1)).daemon = .checking rest) :
    expired = true ∧ ∃ spurious, e.label n = some (.wake spurious) := by
  rcases e.follows n with ⟨-, same⟩ | ⟨l, labelled, -⟩
  · rw [same, waits] at begins
    cases begins
  · have stepped := stepped labelled
    rw [begins] at stepped
    generalize at_ : (DaemonPoint.checking rest) = daemon, (e.state (n + 1)).destructor = destructor
      at stepped
    cases stepped with
    | wait idle => cases at_
    | expire _ => cases at_
    | @wake spurious _ expired' waits' _ =>
        rw [waits] at waits'
        cases waits'
        refine ⟨?_, spurious, labelled⟩
        cases expired with
        | true => rfl
        | false => cases at_
    | check checks =>
        rw [waits] at checks
        cases checks
    | notifyAll =>
        rw [waits] at at_
        cases at_
    | _ =>
        rw [waits] at at_
        cases at_

theorem Timely.noPass (timely : e.Timely) {n : Nat} (told : (e.state n).Notified) :
    ¬ e.Passes n := by
  rintro ⟨m, k, notified, expired, from_, -, waits, begins, -⟩
  obtain ⟨late, spurious, labelled⟩ := woken_of_begins waits begins
  have early := (timely m spurious notified expired labelled waits).2 (notified_later told from_)
  rw [late] at early
  cases early

/-- What the daemon has to do until it has exited, when its waits end early. -/
def remaining (s : Watch) : Nat :=
  match s.daemon with
  | .checking rest => rest.length + 2
  | .waiting _ _ => 1
  | .exited => 0

/-- A step of the daemon that does not end a wait late leaves it less to do; no other step leaves it
more. -/
theorem remaining_step {s t : Watch} {l : WatchLabel} (stepped : s.Stepped l t.daemon t.destructor)
    (early : ∀ notified, s.daemon = .waiting notified true → ∀ spurious, l ≠ .wake spurious) :
    remaining t ≤ remaining s ∧ (l.IsDaemon → remaining t < remaining s) := by
  unfold remaining
  generalize t.daemon = daemon, t.destructor = destructor at stepped ⊢
  cases stepped with
  | world => exact ⟨Nat.le_refl _, False.elim⟩
  | wait idle =>
      rw [idle]
      exact ⟨by decide, fun _ => by decide⟩
  | expire waits =>
      rw [waits]
      exact ⟨Nat.le_refl _, False.elim⟩
  | @wake spurious notified expired waits _ =>
      cases expired with
      | true => exact absurd rfl (early notified waits spurious)
      | false =>
          rw [waits]
          exact ⟨Nat.zero_le 1, fun _ => Nat.zero_lt_one⟩
  | check checks =>
      rw [checks]
      exact ⟨by simp, fun _ => by simp⟩
  | destroy => exact ⟨Nat.le_refl _, False.elim⟩
  | notifyAll =>
      refine ⟨?_, False.elim⟩
      cases s.daemon <;> exact Nat.le_refl _
  | join => exact ⟨Nat.le_refl _, False.elim⟩

theorem Timely.exits (timely : e.Timely) {n : Nat} (told : (e.state n).Notified) :
    ∃ m, n ≤ m ∧ (e.state m).daemon = .exited := by
  refine e.eventually e.runs remaining (fun s => s.daemon = .exited)
    (fun m _ notGone => notGone) ?_
  intro m l later _ labelled
  refine .inr (remaining_step (stepped labelled) ?_)
  rintro notified waits spurious rfl
  have early := (timely m spurious notified true labelled waits).2 (notified_later told later)
  cases early

/-- Once the daemon has exited the join returns. -/
theorem joins_of_exited {n : Nat} (told : (e.state n).Notified)
    (gone : (e.state n).daemon = .exited) : ∃ m, n ≤ m ∧ (e.state m).destructor = .joined := by
  rcases told with told | joined
  · obtain ⟨m, l, later, labelled, rfl⟩ := e.joins n (not_not_intro ⟨told, gone⟩)
    have stepped := stepped labelled
    refine ⟨m + 1, by omega, ?_⟩
    generalize (e.state (m + 1)).daemon = daemon, (e.state (m + 1)).destructor = destructor
      at stepped ⊢
    cases stepped
    rfl
  · exact ⟨n, Nat.le_refl n, joined⟩

theorem Timely.joined (timely : e.Timely) {n : Nat} (told : (e.state n).Notified) :
    ∃ m, n ≤ m ∧ (e.state m).destructor = .joined := by
  obtain ⟨m, later, gone⟩ := timely.exits told
  obtain ⟨k, later', joined⟩ := joins_of_exited (notified_later told later) gone
  exact ⟨k, later.trans later', joined⟩

/-! ### Needed -/

/-- While contexts are left to check the daemon does nothing but check them. -/
theorem checking_step {s : Watch} {l : WatchLabel} {daemon : DaemonPoint} {destructor : StopPoint}
    {slot : Slot} {rest : List Slot} (stepped : s.Stepped l daemon destructor)
    (checks : s.daemon = .checking (slot :: rest)) :
    daemon = .checking (slot :: rest) ∨ daemon = .checking rest := by
  cases stepped with
  | wait idle =>
      rw [checks] at idle
      cases idle
  | expire waits =>
      rw [checks] at waits
      cases waits
  | wake waits =>
      rw [checks] at waits
      cases waits
  | check checks' =>
      rw [checks] at checks'
      cases checks'
      exact .inr rfl
  | notifyAll =>
      rw [checks]
      exact .inl rfl
  | _ => exact .inl checks

/-- A pass that is begun is completed. -/
theorem completes {n : Nat} {slot : Slot} {rest : List Slot}
    (begins : (e.state n).daemon = .checking (slot :: rest)) :
    ∃ m, n ≤ m ∧ (e.state m).daemon = .checking [] := by
  by_contra never
  have busy : ∀ m, n ≤ m → ∃ slot rest, (e.state m).daemon = .checking (slot :: rest) := by
    intro m later
    refine e.stable_of_labels (n := n)
      (P := fun s => ∃ slot rest, s.daemon = .checking (slot :: rest)) ?_ later ⟨slot, rest, begins⟩
    rintro k l from_ ⟨slot, rest, checks⟩ labelled
    rcases checking_step (stepped labelled) checks with same | next
    · exact ⟨slot, rest, same⟩
    · cases rest with
      | nil => exact absurd ⟨k + 1, by omega, next⟩ never
      | cons slot' rest => exact ⟨slot', rest, next⟩
  obtain ⟨m, _, impossible⟩ := e.eventually e.runs remaining (fun _ => False) (n := n)
    (fun m later _ gone => by
      obtain ⟨slot, rest, checks⟩ := busy m later
      rw [checks] at gone
      cases gone)
    (fun m l later _ labelled => by
      refine .inr (remaining_step (stepped labelled) ?_)
      intro notified waits
      obtain ⟨slot, rest, checks⟩ := busy m later
      rw [checks] at waits
      cases waits)
  exact impossible

theorem LivesWithSession.timely (lives : e.LivesWithSession) : e.Timely := by
  intro n spurious notified expired labelled waits
  have stepped := stepped labelled
  obtain ⟨daemon, destructor⟩ : (e.state (n + 1)).daemon = afterWait (waitForStatus expired) ∧
      (e.state (n + 1)).destructor = (e.state n).destructor := by
    generalize (e.state (n + 1)).daemon = daemon, (e.state (n + 1)).destructor = destructor
      at stepped ⊢
    cases stepped with
    | wake waits' =>
        rw [waits] at waits'
        cases waits'
        exact ⟨rfl, rfl⟩
  refine ⟨?_, ?_⟩
  · intro notStarted
    by_contra early
    rw [Bool.not_eq_true] at early
    rw [early] at daemon
    exact lives.alive (n + 1) (destructor.trans notStarted) daemon
  · intro told
    by_contra late
    rw [Bool.not_eq_false] at late
    rw [late] at daemon
    obtain ⟨k, later, completed⟩ := completes daemon
    exact lives.noPass n told
      ⟨n, k, notified, expired, Nat.le_refl n, by omega, waits, daemon, completed⟩

end FairWatch

/-- **When the daemon lives as long as its session**, in every fair execution: exactly if every wait that
ends before the destructor has started ends late, and every wait that ends after `notify_all` early. -/
theorem lives_with_session_iff {L : Listener} (e : FairWatch L) :
    e.LivesWithSession ↔ e.Timely :=
  ⟨fun lives => lives.timely, fun timely =>
    ⟨timely.alive, fun _ => timely.noPass, fun _ => timely.exits, fun _ => timely.joined⟩⟩

/-- The notification comes while the daemon waits with time left. -/
def promptWatch : FairWatch World.sampleListener :=
  .ofJoined [.wait, .destroy, .notifyAll] false (by decide +kernel)

theorem promptWatch_lives : promptWatch.LivesWithSession := by
  refine (lives_with_session_iff promptWatch).2 ?_
  intro n spurious notified expired labelled waits
  obtain rfl : n = 3 := by
    match n with
    | 0 => cases labelled
    | 1 => cases labelled
    | 2 => cases labelled
    | 3 => rfl
    | 4 => cases labelled
    | n + 5 => cases labelled
  have waits' : (promptWatch.state 3).daemon = .waiting true false := by decide +kernel
  rw [waits] at waits'
  obtain ⟨rfl, rfl⟩ := DaemonPoint.waiting.inj waits'
  have told : (promptWatch.state 3).destructor = .notified := by decide +kernel
  rw [told]
  exact ⟨nofun, fun _ => rfl⟩

/-! ## The lost notification -/

/-- After `notify_all` the daemon has not heard of it. -/
structure Unheard (s : Watch) : Prop where
  told : s.Notified
  alive : s.daemon ≠ .exited
  unheard : ∀ expired, s.daemon ≠ .waiting true expired

theorem unheard_step {L : Listener} {s t : Watch} {l : WatchLabel} (unheard : Unheard s)
    (taken : s.step L l = some t) (noSpurious : l ≠ .wake true) : Unheard t := by
  have told := Watch.notified_step unheard.told taken
  have stepped := Watch.stepped_of_step taken
  have goesOn : t.daemon ≠ .exited ∧ ∀ expired, t.daemon ≠ .waiting true expired := by
    generalize t.daemon = daemon, t.destructor = destructor at stepped ⊢
    cases stepped with
    | wait idle => exact ⟨nofun, nofun⟩
    | @expire notified expired waits =>
        cases notified with
        | true => exact absurd waits (unheard.unheard expired)
        | false => exact ⟨nofun, nofun⟩
    | @wake spurious notified expired waits wakes =>
        cases notified with
        | true => exact absurd waits (unheard.unheard expired)
        | false =>
            cases spurious with
            | true => exact absurd rfl noSpurious
            | false =>
                obtain rfl : expired = true := by simpa using wakes
                exact ⟨nofun, nofun⟩
    | check checks => exact ⟨nofun, nofun⟩
    | notifyAll begun =>
        rcases unheard.told with told | told
        · rw [begun] at told
          cases told
        · rw [begun] at told
          cases told
    | world => exact ⟨unheard.alive, unheard.unheard⟩
    | destroy => exact ⟨unheard.alive, unheard.unheard⟩
    | join => exact ⟨unheard.alive, unheard.unheard⟩
  exact ⟨told, goesOn.1, goesOn.2⟩

/-- Only an exited daemon is joined. -/
theorem gone_of_joined_step {L : Listener} {s t : Watch} {l : WatchLabel}
    (before : s.destructor = .joined → s.daemon = .exited) (taken : s.step L l = some t) :
    t.destructor = .joined → t.daemon = .exited := by
  intro joined
  have stepped := Watch.stepped_of_step taken
  by_cases already : s.destructor = .joined
  · exact Watch.exited_step (before already) taken
  · generalize t.daemon = daemon, t.destructor = destructor at stepped joined ⊢
    cases stepped with
    | join told gone => exact gone
    | destroy => cases joined
    | notifyAll => cases joined
    | _ => exact absurd joined already

/-- **A notification that comes while the daemon does not wait is lost**: unless a wait ends for no
reason the daemon never exits, and the destructor never joins it. -/
theorem lost_never_exits {L : Listener} (e : Execution (Watch.step L) {}) {n : Nat}
    (told : e.label n = some .notifyAll) {rest : List Slot}
    (checks : (e.state n).daemon = .checking rest)
    (noSpurious : ∀ m, n < m → e.label m ≠ some (.wake true)) {m : Nat} (later : n < m) :
    (e.state m).daemon ≠ .exited ∧ (e.state m).destructor ≠ .joined := by
  have lost : Unheard (e.state (n + 1)) := by
    have stepped := Watch.stepped_of_step (e.taken told)
    have both : (e.state (n + 1)).daemon = .checking rest ∧
        (e.state (n + 1)).destructor = .notified := by
      generalize (e.state (n + 1)).daemon = daemon, (e.state (n + 1)).destructor = destructor
        at stepped ⊢
      cases stepped with
      | notifyAll begun =>
          rw [checks]
          exact ⟨rfl, rfl⟩
    refine ⟨.inl both.2, ?_, ?_⟩
    · rw [both.1]
      exact nofun
    · rw [both.1]
      exact fun _ => nofun
  have unheard : Unheard (e.state m) := by
    refine e.stable_of_labels ?_ later lost
    intro k l after before labelled
    refine unheard_step before (e.taken labelled) ?_
    rintro rfl
    exact noSpurious k after labelled
  have joined : (e.state m).destructor = .joined → (e.state m).daemon = .exited := by
    refine e.stable (P := fun s => s.destructor = .joined → s.daemon = .exited)
      (fun _ _ _ => gone_of_joined_step) (Nat.zero_le m) ?_
    rw [e.starts]
    exact nofun
  exact ⟨unheard.alive, fun isJoined => unheard.alive (joined isJoined)⟩

/-- The destructor runs before the daemon's first wait; only its second wait, which ends for no reason,
lets the daemon exit. -/
def lostNotification : List WatchLabel :=
  [.destroy, .notifyAll, .wait, .expire, .wake false] ++ List.replicate 16 (.check 0) ++ [.wait]

def lostWatch : FairWatch World.sampleListener :=
  .ofJoined lostNotification true (by decide +kernel)

/-- The daemon makes another complete pass. -/
theorem lostWatch_passes : ¬ lostWatch.LivesWithSession := by
  intro lives
  have told : (lostWatch.state 2).destructor = .notified := by decide +kernel
  have waits : (lostWatch.state 4).daemon = .waiting false true := by decide +kernel
  have begins : (lostWatch.state 5).daemon = .checking (List.finRange maxConnections) := by
    decide +kernel
  have completes : (lostWatch.state 21).daemon = .checking [] := by decide +kernel
  exact lives.noPass 2 (.inl told) ⟨4, 21, false, true, by omega, by omega, waits, begins, completes⟩

end Koisyn.Session
