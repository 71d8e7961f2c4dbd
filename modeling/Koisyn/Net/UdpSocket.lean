/-
# Koisyn.Net.UdpSocket — who closes a socket

`UdpSocket` holds a descriptor and closes it where it is destroyed or overwritten; moving leaves
`BADSOCKET` behind.  `NonOwningUdpSocket` is derived from it, so that its destructor closes as well,
and makes the descriptor `BADSOCKET` first.

`Sockets` are the objects of a program, each at its address, and the operating system's sockets.  A
descriptor is free again once it is closed, and may come back for another socket, of `Bind` or of other
code: what the system has opened is counted, and `Os.table` says which of them a descriptor denotes.
Addresses are reused as well.

`owned_once`: in every run a socket of `Bind` is open and held by one `UdpSocket`, or it was closed
once; every close finds what its caller owns; and a step closes a socket exactly if it disposes of it
(`Disposes`).
-/
import Koisyn.Net.AddressParser
import Koisyn.Theory.Holding
import Koisyn.Theory.Run

namespace Koisyn.Net

open Koisyn.Channel
open Koisyn.Theory.Holding Koisyn.Theory.Run

set_option autoImplicit false

/-! ## The operating system -/

/-- `SOCKET`; `none` is `BADSOCKET`. -/
abbrev Socket := Option Nat

def badSocket : Socket := none

/-- `ISVALIDSOCK`. -/
def isValidSock (sock : Socket) : Bool := sock.isSome

/-- Who opens a socket. -/
inductive Opener where
  | bind
  | other
  deriving DecidableEq, Repr

/-- Who closes one. -/
inductive Closer where
  /-- the destructor of the `UdpSocket` at this address -/
  | destructor (this : Nat)
  /-- the move assignment to it -/
  | moveAssign (this : Nat)
  /-- `Bind`, which has failed -/
  | bind
  /-- the destructor of the `NonOwningUdpSocket` at this address -/
  | nonOwning (this : Nat)
  | other
  deriving DecidableEq, Repr

/-- A call that closes a descriptor, and the socket that this denoted. -/
structure Close where
  closer : Closer
  hit : Option Nat
  deriving DecidableEq, Repr

/-- The sockets that were opened are numbered; `table` says which of them a descriptor denotes. -/
structure Os where
  table : Nat → Option Nat := fun _ => none
  opened : List Opener := []
  closes : List Close := []

namespace Os

variable (os : Os)

def openSocket (opener : Opener) (d : Nat) : Os :=
  { os with
    table := Function.update os.table d (some os.opened.length)
    opened := os.opened ++ [opener] }

/-- `CLOSESOCKET`, which does nothing with `BADSOCKET`. -/
def closeSocket (closer : Closer) : Socket → Os
  | none => os
  | some d =>
      { os with
        table := Function.update os.table d none
        closes := os.closes ++ [⟨closer, os.table d⟩] }

end Os

/-! ## The members of `UdpSocket` -/

structure UdpSocket where
  sock : Socket := badSocket
  deriving DecidableEq, Repr

/-- `NonOwningUdpSocket`, which is a `UdpSocket` inside. -/
structure NonOwningUdpSocket where
  base : UdpSocket := {}
  deriving DecidableEq, Repr

/-- What the calls of `Bind` return. -/
structure BindEnv where
  winSockInitialized : Bool := true
  socket : Socket
  setsockopt : Bool := true
  bind : Bool := true

namespace UdpSocket

/-- `IsOpened`. -/
def isOpened (this : UdpSocket) : Bool := isValidSock this.sock

/-- The move constructor: the new object, and what it leaves. -/
def moveConstruct (other : UdpSocket) : UdpSocket × UdpSocket :=
  ({ sock := other.sock }, { sock := badSocket })

/-- The destructor. -/
def destroy (closer : Closer) (this : UdpSocket) (os : Os) : Os := os.closeSocket closer this.sock

/-- The move assignment from another object: the two objects. -/
def moveAssign (closer : Closer) (this other : UdpSocket) (os : Os) :
    (UdpSocket × UdpSocket) × Os :=
  (({ sock := other.sock }, { sock := badSocket }), os.closeSocket closer this.sock)

/-- `swap`. -/
def swap (this other : UdpSocket) : UdpSocket × UdpSocket :=
  ({ sock := other.sock }, { sock := this.sock })

/-- The private `Bind`, to an address that has been read. -/
def bindLocal (env : BindEnv) (os : Os) : Option UdpSocket × Os :=
  if !env.winSockInitialized then (none, os)
  else
    match env.socket with
    | none => (none, os)
    | some d =>
        let os := os.openSocket .bind d
        if !env.setsockopt then (none, os.closeSocket .bind (some d))
        else if !env.bind then (none, os.closeSocket .bind (some d))
        else
          let udpsock : UdpSocket := { sock := some d }
          -- the result is constructed from the local object, which is then destroyed
          let (result, udpsock) := udpsock.moveConstruct
          (some result, udpsock.destroy .bind os)

/-- `Bind`. -/
def bind (addr : List Char) (port : UInt16) (env : BindEnv) (os : Os) : Option UdpSocket × Os :=
  if !(quicAddrFromString addr port {}).1 then (none, os) else bindLocal env os

end UdpSocket

namespace NonOwningUdpSocket

/-- `NonOwningUdpSocket(SOCKET)`; with `BADSOCKET` the default constructor. -/
def ofSocket (existingSock : Socket) : NonOwningUdpSocket := { base := { sock := existingSock } }

/-- The copy constructor and the copy assignment, which ignores what it overwrites. -/
def copy (other : NonOwningUdpSocket) : NonOwningUdpSocket := { base := { sock := other.base.sock } }

/-- The destructor, and that of the `UdpSocket` inside. -/
def destroy (closer : Closer) (_this : NonOwningUdpSocket) (os : Os) : Os :=
  let base : UdpSocket := { sock := badSocket }
  base.destroy closer os

end NonOwningUdpSocket

/-! ## A program with sockets -/

inductive SocketObject where
  | udpSocket (u : UdpSocket)
  | nonOwning (n : NonOwningUdpSocket)
  deriving DecidableEq, Repr

/-- The objects by their addresses, and the system. -/
structure Sockets where
  objects : Nat → Option SocketObject := fun _ => none
  os : Os := {}

inductive SocketLabel where
  | construct (this : Nat)
  | bind (this : Nat) (addr : List Char) (port : UInt16) (env : BindEnv)
  | moveConstruct (this other : Nat)
  | moveAssign (this other : Nat)
  | swap (this other : Nat)
  | nonOwning (this : Nat) (existingSock : Socket)
  | copyConstruct (this other : Nat)
  | copyAssign (this other : Nat)
  | destroy (this : Nat)
  | otherOpens (d : Nat)
  | otherCloses (d : Nat)

namespace Sockets

variable (s : Sockets)

def udpSocket (this : Nat) : Option UdpSocket :=
  match s.objects this with
  | some (.udpSocket u) => some u
  | _ => none

def nonOwning (this : Nat) : Option NonOwningUdpSocket :=
  match s.objects this with
  | some (.nonOwning n) => some n
  | _ => none

def put (this : Nat) (object : SocketObject) : Sockets :=
  { s with objects := Function.update s.objects this (some object) }

/-- The new object, at an address where there is none. -/
def create (this : Nat) (object : SocketObject) : Option Sockets :=
  if s.objects this = none then some (s.put this object) else none

/-- One step.  `socket()` returns a descriptor that is free; other code closes what it has opened. -/
def step (s : Sockets) : SocketLabel → Option Sockets
  | .construct this => s.create this (.udpSocket {})
  | .bind this addr port env =>
      if s.objects this = none ∧ (∀ d ∈ env.socket, s.os.table d = none) then
        let (result, os) := UdpSocket.bind addr port env s.os
        match result with
        | none => some { s with os := os }
        | some u => some ({ s with os := os }.put this (.udpSocket u))
      else none
  | .moveConstruct this other =>
      (s.udpSocket other).bind fun u =>
        let (new, left) := u.moveConstruct
        (s.put other (.udpSocket left)).create this (.udpSocket new)
  | .moveAssign this other =>
      (s.udpSocket this).bind fun u => (s.udpSocket other).bind fun v =>
        if this = other then some s
        else
          let ((new, left), os) := UdpSocket.moveAssign (.moveAssign this) u v s.os
          some ((({ s with os := os }).put this (.udpSocket new)).put other (.udpSocket left))
  | .swap this other =>
      (s.udpSocket this).bind fun u => (s.udpSocket other).bind fun v =>
        let (first, second) := u.swap v
        some ((s.put this (.udpSocket first)).put other (.udpSocket second))
  | .nonOwning this existingSock => s.create this (.nonOwning (.ofSocket existingSock))
  | .copyConstruct this other =>
      (s.nonOwning other).bind fun n => s.create this (.nonOwning n.copy)
  | .copyAssign this other =>
      (s.nonOwning this).bind fun _ => (s.nonOwning other).map fun n =>
        s.put this (.nonOwning n.copy)
  | .destroy this =>
      (s.objects this).map fun object =>
        { objects := Function.update s.objects this none
          os := match object with
            | .udpSocket u => u.destroy (.destructor this) s.os
            | .nonOwning n => n.destroy (.nonOwning this) s.os }
  | .otherOpens d =>
      if s.os.table d = none then some { s with os := s.os.openSocket .other d } else none
  | .otherCloses d =>
      if ((s.os.table d).bind fun n => s.os.opened[n]?) = some .other then
        some { s with os := s.os.closeSocket .other (some d) }
      else none

/-! ## What a step does -/

/-- The descriptor that the `UdpSocket` at an address holds. -/
def holds (this : Nat) : Option Nat := (s.udpSocket this).bind (·.sock)

/-- The `UdpSocket` at an address holds the `n`-th socket. -/
def Owns (this n : Nat) : Prop := ∃ d, s.holds this = some d ∧ s.os.table d = some n

end Sockets

/-- `Bind` fails after it has opened a socket. -/
def BindEnv.FailsOpened (env : BindEnv) (addr : List Char) (port : UInt16) : Prop :=
  (quicAddrFromString addr port {}).1 = true ∧ env.winSockInitialized = true ∧
    env.socket.isSome = true ∧ (env.setsockopt && env.bind) = false

/-- Every call of `Bind` succeeds. -/
def BindEnv.Succeeds (env : BindEnv) (addr : List Char) (port : UInt16) : Prop :=
  (quicAddrFromString addr port {}).1 = true ∧ env.winSockInitialized = true ∧
    env.socket.isSome = true ∧ (env.setsockopt && env.bind) = true

instance decidableSucceeds (env : BindEnv) (addr : List Char) (port : UInt16) :
    Decidable (env.Succeeds addr port) :=
  inferInstanceAs (Decidable (_ ∧ _ ∧ _ ∧ _))

theorem BindEnv.Succeeds.not_failsOpened {env : BindEnv} {addr : List Char} {port : UInt16}
    (succeeds : env.Succeeds addr port) : ¬ env.FailsOpened addr port := by
  rintro ⟨-, -, -, fails⟩
  rw [succeeds.2.2.2] at fails
  cases fails

/-- **What `Bind` does**: nothing, or it opens a socket and fails, and closes it, or it succeeds. -/
theorem UdpSocket.bind_cases (addr : List Char) (port : UInt16) (env : BindEnv) (os : Os) :
    (UdpSocket.bind addr port env os = (none, os) ∧ ¬ env.FailsOpened addr port ∧
        ¬ env.Succeeds addr port) ∨
      ∃ d, env.socket = some d ∧
        (UdpSocket.bind addr port env os =
            (none, (os.openSocket .bind d).closeSocket .bind (some d)) ∧
              env.FailsOpened addr port ∨
          UdpSocket.bind addr port env os = (some { sock := some d }, os.openSocket .bind d) ∧
            env.Succeeds addr port) := by
  obtain ⟨winSock, socket, dual, bound⟩ := env
  rw [UdpSocket.bind, UdpSocket.bindLocal, BindEnv.FailsOpened, BindEnv.Succeeds]
  generalize (quicAddrFromString addr port {}).1 = reads
  cases reads with
  | false => exact .inl ⟨rfl, by simp⟩
  | true =>
      cases winSock with
      | false => exact .inl ⟨rfl, by simp⟩
      | true =>
          cases socket with
          | none => exact .inl ⟨rfl, by simp⟩
          | some d =>
              refine .inr ⟨d, rfl, ?_⟩
              cases dual with
              | false => exact .inl ⟨rfl, rfl, rfl, rfl, rfl⟩
              | true =>
                  cases bound with
                  | false => exact .inl ⟨rfl, rfl, rfl, rfl, rfl⟩
                  | true => exact .inr ⟨rfl, rfl, rfl, rfl, rfl⟩

/-- **What disposes of a socket**: its owner is destroyed or overwritten, or `Bind` fails after opening
it. -/
inductive Disposes (s : Sockets) (n : Nat) : SocketLabel → Prop where
  | destroyed {this} (owner : s.Owns this n) : Disposes s n (.destroy this)
  | overwritten {this other} (owner : s.Owns this n) (another : this ≠ other) :
      Disposes s n (.moveAssign this other)
  | unbound {this addr port env} (next : n = s.os.opened.length)
      (fails : env.FailsOpened addr port) : Disposes s n (.bind this addr port env)

/-- The descriptor that an object is to close. -/
def SocketObject.held : SocketObject → Option Nat
  | .udpSocket u => u.sock
  | .nonOwning _ => none

namespace Sockets

variable {s t : Sockets}

/-- What a step does to who holds what, and to the system. -/
inductive Changed (s : Sockets) : SocketLabel → (Nat → Option Nat) → Os → Prop where
  | passes {l} (σ : Equiv.Perm Nat) (quiet : ∀ n, ¬ Disposes s n l) :
      Changed s l (s.holds ∘ σ) s.os
  | destroys {this} : Changed s (.destroy this) (Function.update s.holds this none)
      (s.os.closeSocket (.destructor this) (s.holds this))
  | overwrites {this other} (another : this ≠ other) :
      Changed s (.moveAssign this other)
        (Function.update s.holds this none ∘ Equiv.swap this other)
        (s.os.closeSocket (.moveAssign this) (s.holds this))
  | binds {this addr port env d} (free : s.os.table d = none) (empty : s.holds this = none)
      (succeeds : env.Succeeds addr port) : Changed s (.bind this addr port env)
        (Function.update s.holds this (some d)) (s.os.openSocket .bind d)
  | unbinds {this addr port env d} (free : s.os.table d = none)
      (fails : env.FailsOpened addr port) : Changed s (.bind this addr port env) s.holds
        ((s.os.openSocket .bind d).closeSocket .bind (some d))
  | otherOpens {d} (free : s.os.table d = none) :
      Changed s (.otherOpens d) s.holds (s.os.openSocket .other d)
  | otherCloses {d n} (denotes : s.os.table d = some n) (other : s.os.opened[n]? = some .other) :
      Changed s (.otherCloses d) s.holds (s.os.closeSocket .other (some d))

theorem holds_eq (this : Nat) : s.holds this = (s.objects this).bind SocketObject.held := by
  rw [holds, udpSocket]
  cases s.objects this with
  | none => rfl
  | some object => cases object <;> rfl

theorem holds_of_udpSocket {this : Nat} {u : UdpSocket} (present : s.udpSocket this = some u) :
    s.holds this = u.sock := by
  rw [holds, present]
  rfl

theorem holds_of_none {this : Nat} (empty : s.objects this = none) : s.holds this = none := by
  rw [holds_eq, empty]
  rfl

theorem holds_of_nonOwning {this : Nat} {n : NonOwningUdpSocket}
    (present : s.nonOwning this = some n) : s.holds this = none := by
  rw [nonOwning] at present
  split at present
  · rename_i object
    rw [holds_eq, object]
    rfl
  · cases present

@[simp] theorem holds_put (this : Nat) (object : SocketObject) :
    (s.put this object).holds = Function.update s.holds this object.held := by
  funext i
  by_cases same : i = this
  · subst same
    simp [holds_eq, put]
  · simp [holds_eq, put, same]

@[simp] theorem holds_remove (this : Nat) (os : Os) :
    (⟨Function.update s.objects this none, os⟩ : Sockets).holds =
      Function.update s.holds this none := by
  funext i
  by_cases same : i = this
  · subst same
    simp [holds_eq]
  · simp [holds_eq, same]

theorem create_some {this : Nat} {object : SocketObject} (made : s.create this object = some t) :
    s.objects this = none ∧ t = s.put this object := by
  rw [create] at made
  split at made
  · next empty => exact ⟨empty, (Option.some.inj made).symm⟩
  · cases made

/-- A step that changes no descriptor of a `UdpSocket`. -/
theorem changed_of_holds {l : SocketLabel} (holds : t.holds = s.holds) (os : t.os = s.os)
    (quiet : ∀ n, ¬ Disposes s n l) : Changed s l t.holds t.os := by
  rw [holds, os]
  exact .passes (Equiv.refl Nat) quiet

/-- A new object that owns nothing. -/
theorem changed_create {l : SocketLabel} {this : Nat} {object : SocketObject}
    (made : s.create this object = some t) (bare : object.held = none)
    (quiet : ∀ n, ¬ Disposes s n l) : Changed s l t.holds t.os := by
  obtain ⟨empty, rfl⟩ := create_some made
  refine changed_of_holds ?_ rfl quiet
  rw [holds_put, bare]
  exact Function.update_eq_self_iff.2 (holds_of_none empty).symm

theorem changed_bind {this : Nat} {addr : List Char} {port : UInt16} {env : BindEnv}
    (taken : s.step (.bind this addr port env) = some t) :
    Changed s (.bind this addr port env) t.holds t.os := by
  simp only [step] at taken
  split at taken
  · rename_i room
    obtain ⟨empty, free⟩ := room
    rcases UdpSocket.bind_cases addr port env s.os with
      ⟨made, unopened, -⟩ | ⟨d, socket, ⟨made, fails⟩ | ⟨made, succeeds⟩⟩
    · rw [made] at taken
      obtain rfl := Option.some.inj taken
      refine changed_of_holds rfl rfl ?_
      rintro n (_ | _ | ⟨-, fails⟩)
      exact unopened fails
    · rw [made] at taken
      obtain rfl := Option.some.inj taken
      exact .unbinds (free d socket) fails
    · rw [made] at taken
      obtain rfl := Option.some.inj taken
      rw [holds_put]
      exact .binds (free d socket) (holds_of_none empty) succeeds
  · cases taken

theorem changed_moveConstruct {this other : Nat}
    (taken : s.step (.moveConstruct this other) = some t) :
    Changed s (.moveConstruct this other) t.holds t.os := by
  obtain ⟨u, present, made⟩ := Option.bind_eq_some_iff.1 taken
  obtain ⟨empty, rfl⟩ := create_some made
  have another : this ≠ other := by
    rintro rfl
    simp [put] at empty
  have empty : s.objects this = none := (Function.update_of_ne another _ _).symm.trans empty
  have handed : Function.update (Function.update s.holds other none) this u.sock =
      s.holds ∘ Equiv.swap this other := by
    rw [← holds_of_udpSocket present]
    exact handed_eq (holds_of_none empty)
  simp only [holds_put, SocketObject.held, badSocket]
  rw [handed]
  exact .passes _ nofun

theorem changed_moveAssign {this other : Nat} (taken : s.step (.moveAssign this other) = some t) :
    Changed s (.moveAssign this other) t.holds t.os := by
  obtain ⟨u, presentU, taken⟩ := Option.bind_eq_some_iff.1 taken
  obtain ⟨v, presentV, taken⟩ := Option.bind_eq_some_iff.1 taken
  split at taken
  · rename_i same
    obtain rfl := Option.some.inj taken
    refine changed_of_holds rfl rfl ?_
    rintro n (_ | ⟨-, another⟩ | _)
    exact another same
  · rename_i another
    obtain rfl := Option.some.inj taken
    simp only [holds_put, SocketObject.held, badSocket]
    show Changed s _ (Function.update (Function.update s.holds this v.sock) other none)
      (s.os.closeSocket (.moveAssign this) u.sock)
    rw [← holds_of_udpSocket presentU, ← holds_of_udpSocket presentV,
      replaced_eq (Ne.symm another)]
    exact .overwrites another

theorem changed_swap {this other : Nat} (taken : s.step (.swap this other) = some t) :
    Changed s (.swap this other) t.holds t.os := by
  obtain ⟨u, presentU, taken⟩ := Option.bind_eq_some_iff.1 taken
  obtain ⟨v, presentV, taken⟩ := Option.bind_eq_some_iff.1 taken
  obtain rfl := Option.some.inj taken
  have swapped : Function.update (Function.update s.holds this v.sock) other u.sock =
      s.holds ∘ Equiv.swap other this := by
    rw [Equiv.comp_swap_eq_update, holds_of_udpSocket presentU, holds_of_udpSocket presentV]
  simp only [holds_put, SocketObject.held]
  rw [swapped]
  exact .passes _ nofun

theorem changed_destroy {this : Nat} (taken : s.step (.destroy this) = some t) :
    Changed s (.destroy this) t.holds t.os := by
  obtain ⟨object, present, rfl⟩ := Option.map_eq_some_iff.1 taken
  have held : s.holds this = object.held := by
    rw [holds_eq, present]
    rfl
  cases object with
  | udpSocket u =>
      have os : u.destroy (.destructor this) s.os =
          s.os.closeSocket (.destructor this) (s.holds this) := by
        rw [held]
        rfl
      simp only [holds_remove]
      rw [os]
      exact .destroys
  | nonOwning n =>
      refine changed_of_holds ?_ rfl ?_
      · rw [holds_remove]
        exact Function.update_eq_self_iff.2 held.symm
      · rintro m (⟨d, owner, -⟩ | _ | _)
        rw [held] at owner
        cases owner

/-- **What a step does**, of every kind. -/
theorem changed_of_step {l : SocketLabel} (taken : s.step l = some t) :
    Changed s l t.holds t.os := by
  cases l with
  | construct this => exact changed_create taken rfl nofun
  | bind this addr port env => exact changed_bind taken
  | moveConstruct this other => exact changed_moveConstruct taken
  | moveAssign this other => exact changed_moveAssign taken
  | swap this other => exact changed_swap taken
  | nonOwning this existingSock => exact changed_create taken rfl nofun
  | copyConstruct this other =>
      obtain ⟨n, -, made⟩ := Option.bind_eq_some_iff.1 taken
      exact changed_create made rfl nofun
  | copyAssign this other =>
      obtain ⟨n, present, taken⟩ := Option.bind_eq_some_iff.1 taken
      obtain ⟨m, -, rfl⟩ := Option.map_eq_some_iff.1 taken
      refine changed_of_holds ?_ rfl nofun
      rw [holds_put]
      exact Function.update_eq_self_iff.2 (holds_of_nonOwning present).symm
  | destroy this => exact changed_destroy taken
  | otherOpens d =>
      simp only [step] at taken
      split at taken
      · rename_i free
        obtain rfl := Option.some.inj taken
        exact .otherOpens free
      · cases taken
  | otherCloses d =>
      simp only [step] at taken
      split at taken
      · rename_i theirs
        obtain ⟨n, denotes, other⟩ := Option.bind_eq_some_iff.1 theirs
        obtain rfl := Option.some.inj taken
        exact .otherCloses denotes other
      · cases taken

end Sockets

/-! ## The system's books -/

/-- Whoever owned the socket. -/
def Closer.Owner : Closer → Prop
  | .destructor _ | .moveAssign _ | .bind => True
  | .nonOwning _ | .other => False

namespace Os

/-- The calls that have closed the `n`-th socket. -/
def closesOf (os : Os) (n : Nat) : List Close := os.closes.filter (·.hit = some n)

/-- The `n`-th socket is closed by the right code. -/
def Rightly (os : Os) (n : Nat) (closer : Closer) : Prop :=
  os.opened[n]? = some .bind ∧ closer.Owner ∨ os.opened[n]? = some .other ∧ closer = .other

/-- A socket has one descriptor while it is open, and was closed once when it is not; every close has
found its socket. -/
structure Sound (os : Os) : Prop where
  exclusive : Exclusive os.table
  known : ∀ n, Held os.table n → n < os.opened.length
  once : ∀ n < os.opened.length, Held os.table n ∧ os.closesOf n = [] ∨
    ¬ Held os.table n ∧ ∃ c, os.closesOf n = [c]
  hits : ∀ c ∈ os.closes, ∃ n, c.hit = some n ∧ os.Rightly n c.closer

variable {os : Os}

theorem Rightly.lt {n : Nat} {closer : Closer} (rightly : os.Rightly n closer) :
    n < os.opened.length := by
  rcases rightly with ⟨present, -⟩ | ⟨present, -⟩
  · exact (List.getElem?_eq_some_iff.1 present).1
  · exact (List.getElem?_eq_some_iff.1 present).1

theorem opened_openSocket {opener : Opener} {d n : Nat} (old : n < os.opened.length) :
    (os.openSocket opener d).opened[n]? = os.opened[n]? :=
  List.getElem?_append_left old

theorem opened_next (os : Os) (opener : Opener) (d : Nat) :
    (os.openSocket opener d).opened[os.opened.length]? = some opener := by
  rw [openSocket, List.getElem?_append_right (Nat.le_refl _), Nat.sub_self]
  rfl

/-- What is opened next has not been closed yet. -/
theorem Sound.closesOf_next (sound : os.Sound) : os.closesOf os.opened.length = [] := by
  rw [closesOf, List.filter_eq_nil_iff]
  intro c member
  obtain ⟨n, hit, rightly⟩ := sound.hits c member
  rw [hit, decide_eq_true_eq]
  intro same
  exact absurd rightly.lt (by rw [Option.some.inj same]; exact Nat.lt_irrefl _)

theorem Sound.openSocket (sound : os.Sound) {opener : Opener} {d : Nat}
    (free : os.table d = none) : (os.openSocket opener d).Sound := by
  have new : ¬ Held os.table os.opened.length := fun held => absurd (sound.known _ held) (by simp)
  have length : (os.openSocket opener d).opened.length = os.opened.length + 1 := by
    simp [Os.openSocket]
  have held : ∀ n, Held (os.openSocket opener d).table n ↔
      n = os.opened.length ∨ Held os.table n := fun n => held_give free
  refine ⟨sound.exclusive.give new, ?_, ?_, ?_⟩
  · intro n isOpen
    rw [length]
    rcases (held n).1 isOpen with rfl | old
    · exact Nat.lt_succ_self _
    · exact Nat.lt_succ_of_lt (sound.known n old)
  · intro n below
    rw [length] at below
    rw [held]
    rcases Nat.lt_succ_iff_lt_or_eq.1 below with old | rfl
    · rw [or_iff_right (Nat.ne_of_lt old)]
      exact sound.once n old
    · exact .inl ⟨.inl rfl, sound.closesOf_next⟩
  · intro c member
    obtain ⟨n, hit, rightly⟩ := sound.hits c member
    refine ⟨n, hit, ?_⟩
    rw [Rightly, opened_openSocket rightly.lt]
    exact rightly

theorem closesOf_closeSocket {closer : Closer} {d m : Nat} (denotes : os.table d = some m) (n : Nat) :
    (os.closeSocket closer (some d)).closesOf n =
      if n = m then os.closesOf n ++ [⟨closer, some m⟩] else os.closesOf n := by
  rw [closesOf, closeSocket, List.filter_append, denotes]
  by_cases same : n = m
  · simp [same, closesOf]
  · simp [same, Ne.symm same, closesOf]

theorem Sound.closeSocket (sound : os.Sound) {closer : Closer} {d m : Nat}
    (denotes : os.table d = some m) (rightly : os.Rightly m closer) :
    (os.closeSocket closer (some d)).Sound := by
  have held : ∀ n, Held (os.closeSocket closer (some d)).table n ↔
      Held os.table n ∧ os.table d ≠ some n := fun n => held_drop sound.exclusive
  refine ⟨sound.exclusive.drop, fun n isOpen => sound.known n ((held n).1 isOpen).1, ?_, ?_⟩
  · intro n below
    rw [held, closesOf_closeSocket denotes, denotes]
    by_cases same : n = m
    · subst same
      right
      rcases sound.once n below with ⟨-, unclosed⟩ | ⟨notOpen, -⟩
      · rw [if_pos rfl, unclosed]
        exact ⟨fun both => both.2 rfl, _, rfl⟩
      · exact absurd ⟨d, denotes⟩ notOpen
    · have other : some m ≠ some n := fun equal => same (Option.some.inj equal).symm
      rw [if_neg same, and_iff_left other]
      exact sound.once n below
  · intro c member
    rcases List.mem_append.1 member with before | now
    · exact sound.hits c before
    · rw [List.mem_singleton.1 now]
      exact ⟨m, denotes, rightly⟩

/-- A call that closes a descriptor closes what this denotes, and nothing else. -/
theorem closesOf_closeSocket_ne (os : Os) {closer : Closer} {sock : Socket} {n : Nat} :
    (os.closeSocket closer sock).closesOf n ≠ os.closesOf n ↔
      ∃ d, sock = some d ∧ os.table d = some n := by
  cases sock with
  | none => simp [Os.closeSocket]
  | some d =>
      cases denotes : os.table d with
      | none => simp [Os.closeSocket, closesOf, denotes]
      | some m =>
          rw [closesOf_closeSocket denotes]
          by_cases same : n = m
          · simp [same, denotes]
          · simp [same, Ne.symm same, denotes]

/-- The descriptor denotes a socket of `Bind`. -/
def Backs (os : Os) (d : Nat) : Prop := ∃ n, os.table d = some n ∧ os.opened[n]? = some .bind

theorem not_backs {d : Nat} (free : os.table d = none) : ¬ os.Backs d := by
  rintro ⟨n, denotes, -⟩
  rw [free] at denotes
  cases denotes

theorem Sound.backs_openSocket (sound : os.Sound) {opener : Opener} {d e : Nat} :
    (os.openSocket opener d).Backs e ↔ e = d ∧ opener = .bind ∨ e ≠ d ∧ os.Backs e := by
  by_cases same : e = d
  · subst same
    have denotes : (os.openSocket opener e).table e = some os.opened.length :=
      Function.update_self e _ _
    simp [Backs, denotes, opened_next]
  · have table : (os.openSocket opener d).table e = os.table e := Function.update_of_ne same _ _
    have opened : ∀ n, os.table e = some n →
        (os.openSocket opener d).opened[n]? = os.opened[n]? :=
      fun n denotes => opened_openSocket (sound.known n ⟨e, denotes⟩)
    rw [Backs, table]
    constructor
    · rintro ⟨n, denotes, ofBind⟩
      exact .inr ⟨same, n, denotes, (opened n denotes).symm.trans ofBind⟩
    · rintro (⟨equal, -⟩ | ⟨-, n, denotes, ofBind⟩)
      · exact absurd equal same
      · exact ⟨n, denotes, (opened n denotes).trans ofBind⟩

theorem backs_closeSocket {closer : Closer} {d e : Nat} :
    (os.closeSocket closer (some d)).Backs e ↔ e ≠ d ∧ os.Backs e := by
  by_cases same : e = d
  · subst same
    simp [Backs, Os.closeSocket]
  · simp [Backs, Os.closeSocket, same]

end Os

/-! ## Who owns what is open -/

/-- The descriptors held are those of the open sockets of `Bind`, and each is held once. -/
structure Owned (h : Nat → Option Nat) (os : Os) : Prop where
  sound : os.Sound
  exclusive : Exclusive h
  backed : ∀ d, Held h d ↔ os.Backs d

namespace Owned

variable {h : Nat → Option Nat} {os : Os}

/-- The owner of a socket closes it and holds nothing then. -/
theorem drop (owned : Owned h os) (closer : Closer) (owner : closer.Owner) (this : Nat) :
    Owned (Function.update h this none) (os.closeSocket closer (h this)) := by
  cases holds : h this with
  | none =>
      rw [Function.update_eq_self_iff.2 holds.symm]
      exact owned
  | some d =>
      obtain ⟨n, denotes, ofBind⟩ := (owned.backed d).1 ⟨this, holds⟩
      refine ⟨owned.sound.closeSocket denotes (.inl ⟨ofBind, owner⟩), owned.exclusive.drop, ?_⟩
      intro e
      rw [held_drop owned.exclusive, Os.backs_closeSocket, owned.backed, holds]
      simp [and_comm, eq_comm]

/-- **Every step keeps it.** -/
theorem changed {s : Sockets} {l : SocketLabel} (owned : Owned s.holds s.os)
    (changed : s.Changed l h os) : Owned h os := by
  cases changed with
  | passes σ quiet =>
      refine ⟨owned.sound, owned.exclusive.comp σ, ?_⟩
      intro e
      rw [held_comp, owned.backed]
  | @destroys this => exact owned.drop (.destructor this) trivial this
  | @overwrites this other another =>
      have dropped := owned.drop (.moveAssign this) trivial this
      refine ⟨dropped.sound, dropped.exclusive.comp _, ?_⟩
      intro e
      rw [held_comp, dropped.backed]
  | @binds this addr port env d free empty succeeds =>
      have unheld : ¬ Held s.holds d := by
        rw [owned.backed]
        exact Os.not_backs free
      refine ⟨owned.sound.openSocket free, owned.exclusive.give unheld, ?_⟩
      intro e
      rw [held_give empty, owned.sound.backs_openSocket, owned.backed]
      by_cases same : e = d
      · simp [same]
      · simp [same]
  | @unbinds this addr port env d free fails =>
      have denotes : (s.os.openSocket .bind d).table d = some s.os.opened.length :=
        Function.update_self d _ _
      refine ⟨(owned.sound.openSocket free).closeSocket denotes
        (.inl ⟨Os.opened_next .., trivial⟩), owned.exclusive, ?_⟩
      intro e
      rw [Os.backs_closeSocket, owned.sound.backs_openSocket, owned.backed]
      by_cases same : e = d
      · simp [same, Os.not_backs free]
      · simp [same]
  | @otherOpens d free =>
      refine ⟨owned.sound.openSocket free, owned.exclusive, ?_⟩
      intro e
      rw [owned.sound.backs_openSocket, owned.backed]
      by_cases same : e = d
      · simp [same, Os.not_backs free]
      · simp [same]
  | @otherCloses d n denotes other =>
      have notBinds : ¬ s.os.Backs d := by
        rintro ⟨m, denotes', ofBind⟩
        rw [denotes] at denotes'
        rw [← Option.some.inj denotes', other] at ofBind
        cases ofBind
      refine ⟨owned.sound.closeSocket denotes (.inr ⟨other, rfl⟩), owned.exclusive, ?_⟩
      intro e
      rw [Os.backs_closeSocket, owned.backed]
      by_cases same : e = d
      · simp [same, notBinds]
      · simp [same]

end Owned

namespace Sockets

variable {s t : Sockets}

/-- Every socket of `Bind` is open and has one owner, or has been closed by one call and has none; what
a `UdpSocket` holds is such a socket; every close found what its caller owned, and none was that of a
`NonOwningUdpSocket`. -/
structure OwnedOnce (s : Sockets) : Prop where
  once : ∀ n, s.os.opened[n]? = some .bind →
    (∃! this, s.Owns this n) ∧ s.os.closesOf n = [] ∨
      (∀ this, ¬ s.Owns this n) ∧ ∃ c, s.os.closesOf n = [c]
  held : ∀ this d, s.holds this = some d → ∃ n, s.Owns this n ∧ s.os.opened[n]? = some .bind
  hits : ∀ c ∈ s.os.closes, ∃ n, c.hit = some n ∧ s.os.Rightly n c.closer
  owners : ∀ c ∈ s.os.closes, ∀ this, c.closer ≠ .nonOwning this

theorem ownedOnce_of_owned (owned : Owned s.holds s.os) : s.OwnedOnce := by
  refine ⟨?_, ?_, owned.sound.hits, ?_⟩
  · intro n ofBind
    rcases owned.sound.once n (List.getElem?_eq_some_iff.1 ofBind).1 with
      ⟨⟨d, denotes⟩, unclosed⟩ | ⟨closed, once⟩
    · obtain ⟨this, holds⟩ := (owned.backed d).2 ⟨n, denotes, ofBind⟩
      refine .inl ⟨⟨this, ⟨d, holds, denotes⟩, ?_⟩, unclosed⟩
      rintro other ⟨e, holds', denotes'⟩
      obtain rfl := owned.sound.exclusive e d n denotes' denotes
      exact owned.exclusive other this e holds' holds
    · refine .inr ⟨?_, once⟩
      rintro this ⟨d, -, denotes⟩
      exact closed ⟨d, denotes⟩
  · intro this d holds
    obtain ⟨n, denotes, ofBind⟩ := (owned.backed d).1 ⟨this, holds⟩
    exact ⟨n, ⟨d, holds, denotes⟩, ofBind⟩
  · intro c member this equal
    obtain ⟨n, -, ⟨-, owner⟩ | ⟨-, other⟩⟩ := owned.sound.hits c member
    · rw [equal] at owner
      exact owner
    · rw [equal] at other
      cases other

theorem owned_of_run {labels : List SocketLabel} (run : exec step {} labels = some s) :
    Owned s.holds s.os := by
  have start : Owned (Sockets.holds {}) {} := by
    refine ⟨⟨nofun, ?_, nofun, nofun⟩, nofun, ?_⟩
    · rintro n ⟨d, denotes⟩
      cases denotes
    · intro d
      constructor
      · rintro ⟨this, holds⟩
        cases holds
      · rintro ⟨n, denotes, -⟩
        cases denotes
  refine Always.last (P := fun s : Sockets => Owned s.holds s.os) ?_ run
  exact always_of_keeps (fun s l t owned taken => owned.changed (changed_of_step taken)) labels start

/-- **A step closes a socket of `Bind` exactly if it disposes of it.** -/
theorem closes_iff {l : SocketLabel} {h : Nat → Option Nat} {os : Os} {n : Nat}
    (changed : s.Changed l h os) (ofBind : os.opened[n]? = some .bind) :
    os.closesOf n ≠ s.os.closesOf n ↔ Disposes s n l := by
  cases changed with
  | passes σ quiet => simp [quiet n]
  | destroys =>
      rw [Os.closesOf_closeSocket_ne]
      constructor
      · exact .destroyed
      · rintro (owner | _ | _)
        exact owner
  | overwrites another =>
      rw [Os.closesOf_closeSocket_ne]
      constructor
      · exact fun owner => .overwritten owner another
      · rintro (_ | ⟨owner, -⟩ | _)
        exact owner
  | @binds this addr port env d free empty succeeds =>
      have kept : ¬ Disposes s n (.bind this addr port env) := by
        rintro (_ | _ | ⟨-, fails⟩)
        exact succeeds.not_failsOpened fails
      exact iff_of_false (fun closes => closes rfl) kept
  | @unbinds this addr port env d free fails =>
      have denotes : (s.os.openSocket .bind d).table d = some s.os.opened.length :=
        Function.update_self d _ _
      refine (Os.closesOf_closeSocket_ne (s.os.openSocket .bind d)).trans ?_
      constructor
      · rintro ⟨e, same, denotes'⟩
        obtain rfl := Option.some.inj same
        rw [denotes] at denotes'
        exact .unbound (Option.some.inj denotes').symm fails
      · rintro (_ | _ | ⟨next, -⟩)
        exact ⟨d, rfl, next ▸ denotes⟩
  | otherOpens free => exact iff_of_false (fun closes => closes rfl) nofun
  | @otherCloses d m denotes other =>
      refine iff_of_false ?_ nofun
      intro closes
      obtain ⟨e, same, denotes'⟩ := (Os.closesOf_closeSocket_ne s.os).1 closes
      obtain rfl := Option.some.inj same
      rw [denotes] at denotes'
      obtain rfl := Option.some.inj denotes'
      exact absurd (other.symm.trans ofBind) (by decide)

end Sockets

/-- **A socket is owned once and closed once.** -/
theorem owned_once {labels : List SocketLabel} {s : Sockets}
    (run : exec Sockets.step {} labels = some s) :
    s.OwnedOnce ∧ ∀ l t, s.step l = some t → ∀ n, t.os.opened[n]? = some .bind →
      (t.os.closesOf n ≠ s.os.closesOf n ↔ Disposes s n l) := by
  have owned := Sockets.owned_of_run run
  refine ⟨Sockets.ownedOnce_of_owned owned, ?_⟩
  intro l t taken n ofBind
  exact Sockets.closes_iff (Sockets.changed_of_step taken) ofBind

/-- A socket is bound, looked at by a `NonOwningUdpSocket` and moved twice, and a second `Bind` fails
at an address in use; its descriptor comes back to other code. -/
def movedTwice : List SocketLabel :=
  [.bind 0 "::".toList 0 { socket := some 5 }, .nonOwning 1 (some 5), .moveConstruct 2 0, .destroy 1,
    .bind 3 "::".toList 0 { socket := some 6, bind := false }, .otherOpens 6, .construct 4,
    .moveAssign 4 2, .moveAssign 4 4, .destroy 0, .destroy 4, .destroy 2]

theorem owned_once_moved_twice : ∃ run : (exec Sockets.step {} movedTwice).isSome = true,
    ((exec Sockets.step {} movedTwice).get run).os.closes =
        [⟨.bind, some 1⟩, ⟨.destructor 4, some 0⟩] ∧
      ((exec Sockets.step {} movedTwice).get run).OwnedOnce :=
  ⟨by decide, by decide, (owned_once (Option.some_get _).symm).1⟩

end Koisyn.Net
