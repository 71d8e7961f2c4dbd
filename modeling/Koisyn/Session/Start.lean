/-
# Koisyn.Session.Start — starting a session, and failing to

`KoiSession` here is what `Start` reads and writes of a session; a `Host` is the session with what the
operating system and MsQuic have of it, its sockets and its listeners.  A listener's handle is its
position; MsQuic tells a stopped listener `STOP_COMPLETE`, whose handler closes it.

`start` is in two parts.  The first binds the sentinel and starts the listener (`listen`); the second is
a list of statements (`afterListener`), each of which goes on, returns or terminates the program, because
packets and events come between them once the listener and the receive thread are there.

`start_fails_cleanly_iff`: in every run, each attempt on a session that is not running leaves it
unstarted if it fails, exactly if none fails after MsQuic has opened the listener (`FailsOpened`).
-/
import Koisyn.Channel.Context
import Koisyn.Net.UdpSocket

namespace Koisyn.Session

open Koisyn.Channel
open Koisyn.Net
open Koisyn.Theory.Run

set_option autoImplicit false

/-! ## What the application gives -/

/-- A pointer to a function of the application, or to one of the defaults. -/
inductive Callback where
  | autoReject
  | noOpReceive
  | noOpDisconnect
  | app (function : Nat)
  deriving DecidableEq, Repr

structure Kontext where
  globalContext : Option ObjectId := none
  onAccept : Callback := .autoReject
  onReliableReceive : Fin 4 → Callback := fun _ => .noOpReceive
  onUnreliableReceive : Callback := .noOpReceive
  onDisconnect : Callback := .noOpDisconnect

/-! ## The sentinel -/

/-- `UdpHandler`; `recvThread` says whether the thread has been created. -/
structure UdpHandler where
  recvThread : Bool := false
  usk : UdpSocket := {}
  deriving DecidableEq, Repr

namespace UdpHandler

variable (this : UdpHandler)

/-- The factory, for any address of this host. -/
def bind (port : UInt16) (env : BindEnv) (os : Os) : Option UdpHandler × Os :=
  let (usk, os) := UdpSocket.bind "::".toList port env os
  (usk.map fun usk => { usk }, os)

/-- `GetPort`, with what `getsockname` returns. -/
def getPort (getsockname : Option UInt16) : UInt16 :=
  if !this.usk.isOpened then 0 else getsockname.getD 0

/-- The move assignment; that of a thread which has not been joined terminates the program. -/
def moveAssign (closer : Closer) (other : UdpHandler) (os : Os) : Option (UdpHandler × Os) :=
  if this.recvThread then none
  else
    let ((usk, _), os) := UdpSocket.moveAssign closer this.usk other.usk os
    some ({ recvThread := other.recvThread, usk }, os)

/-- `RegisterRecvFromCallback`; creating the thread may throw. -/
def registerRecvFromCallback (threadStarts : Bool) : Bool × UdpHandler :=
  if !this.usk.isOpened then (false, this)
  else if this.recvThread then (false, this)
  else if !threadStarts then (false, this)
  else (true, { this with recvThread := true })

def isRunning : Bool := this.recvThread

end UdpHandler

/-! ## The listeners of MsQuic -/

inductive ListenerStatus where
  | opened
  | started
  | stopping
  | closed
  deriving DecidableEq, Repr

/-- `ListenerStop`, which has an effect on a started listener only. -/
def ListenerStatus.stop : ListenerStatus → ListenerStatus
  | .started => .stopping
  | status => status

/-- What the calls of one `Start` return. -/
structure StartCalls where
  initError : Bool := false
  portBefore : Option UInt16 := none
  bind : BindEnv
  listenerOpen : Bool := true
  listenerStart : Bool := true
  listenerSocket : Socket := none
  recvThread : Bool := true
  daemon : Bool := true
  portAfter : Option UInt16 := none

namespace SharedListener

/-- `OpenAndStart`. -/
def openAndStart (calls : StartCalls) (listeners : List ListenerStatus) :
    Option Hquic × List ListenerStatus :=
  if !calls.listenerOpen then (none, listeners)
  else if !calls.listenerStart then (none, listeners ++ [.opened])
  else (some listeners.length, listeners ++ [.started])

/-- `ListenerDeleter`, on the listener of a pointer that is overwritten. -/
def listenerDeleter (lisn : Option Hquic) (listeners : List ListenerStatus) : List ListenerStatus :=
  match lisn with
  | none => listeners
  | some lisn => listeners.modify lisn ListenerStatus.stop

@[simp] theorem length_listenerDeleter (lisn : Option Hquic) (listeners : List ListenerStatus) :
    (listenerDeleter lisn listeners).length = listeners.length := by
  cases lisn with
  | none => rfl
  | some lisn => exact List.length_modify ..

/-- Another listener is not stopped. -/
theorem getElem?_listenerDeleter {lisn : Option Hquic} {other : Hquic} (different : lisn ≠ some other)
    (listeners : List ListenerStatus) :
    (listenerDeleter lisn listeners)[other]? = listeners[other]? := by
  cases lisn with
  | none => rfl
  | some lisn => exact List.getElem?_modify_ne _ _ fun same => different (congrArg some same)

end SharedListener

/-! ## `Start` -/

/-- `pSession` says whether the context's pointer has been set, to this session. -/
structure KoiSession where
  appContext : Kontext := {}
  pSession : Slot → Bool := fun _ => false
  listener : Option Hquic := none
  socketFromListener : NonOwningUdpSocket := {}
  sentinel : UdpHandler := {}
  halfConnectionDaemon : Bool := false

structure Host where
  session : KoiSession := {}
  os : Os := {}
  listeners : List ListenerStatus := []

/-- Where a statement leads. -/
inductive Outcome where
  | goesOn (h : Host)
  | returns (port : Option UInt16) (h : Host)
  | terminates

/-- The address of the sentinel's socket. -/
def sentinelUsk : Nat := 0

namespace Host

variable (h : Host)

def getSentinelPort (getsockname : Option UInt16) : UInt16 := h.session.sentinel.getPort getsockname

/-- An assignment to `sentinel`. -/
def assignSentinel (other : UdpHandler) : Option Host :=
  (h.session.sentinel.moveAssign (.moveAssign sentinelUsk) other h.os).map fun (sentinel, os) =>
    { h with session := { h.session with sentinel }, os }

/-- `sentinel = {}; return nullopt;` -/
def fail : Outcome :=
  match h.assignSentinel {} with
  | none => .terminates
  | some h => .returns none h

end Host

/-- The statements of `Start` after the listener has been started, the loop's once for each context. -/
inductive Statement where
  | listener (lisn : Hquic)
  | socketFromListener
  | registerRecvFromCallback
  | appContext
  | pSession (slot : Slot)
  | halfConnectionDaemon
  deriving DecidableEq, Repr

namespace Statement

variable (kontext : Kontext) (calls : StartCalls)

def run (h : Host) : Statement → Outcome
  | .listener lisn =>
      .goesOn { h with
        session := { h.session with listener := some lisn }
        listeners := SharedListener.listenerDeleter h.session.listener h.listeners }
  | .socketFromListener =>
      let socketFromListener := (NonOwningUdpSocket.ofSocket calls.listenerSocket).copy
      .goesOn { h with session := { h.session with socketFromListener } }
  | .registerRecvFromCallback =>
      let (ok, sentinel) := h.session.sentinel.registerRecvFromCallback calls.recvThread
      let h := { h with session := { h.session with sentinel } }
      if ok then .goesOn h else h.fail
  | .appContext => .goesOn { h with session := { h.session with appContext := kontext } }
  | .pSession slot =>
      let pSession := Function.update h.session.pSession slot true
      .goesOn { h with session := { h.session with pSession } }
  | .halfConnectionDaemon =>
      -- creating the thread may throw, and `Start` is `noexcept`
      if !calls.daemon || h.session.halfConnectionDaemon then .terminates
      else .goesOn { h with session := { h.session with halfConnectionDaemon := true } }

/-- The statements in order, and the last `return`. -/
def runAll : List Statement → Host → Outcome
  | [], h => .returns (some (h.getSentinelPort calls.portAfter)) h
  | statement :: rest, h =>
      match statement.run kontext calls h with
      | .goesOn h => runAll rest h
      | outcome => outcome

/-- From `appContext = move(kontext)` on. -/
def publishing : List Statement :=
  .appContext :: (List.finRange maxConnections).map .pSession ++ [.halfConnectionDaemon]

/-- From `listener = move(*maybeListener)` on. -/
def afterListener (lisn : Hquic) : List Statement :=
  .listener lisn :: .socketFromListener :: .registerRecvFromCallback :: publishing

end Statement

/-- `Start` up to its listener, which has been started if it has not ended before. -/
def Host.listen (port : UInt16) (calls : StartCalls) (h : Host) : Except Outcome (Hquic × Host) :=
  if calls.initError then .error (.returns none h)
  else
    let alreadyStartedPort := h.getSentinelPort calls.portBefore
    if alreadyStartedPort ≠ 0 then .error (.returns (some alreadyStartedPort) h)
    else
      match UdpHandler.bind port calls.bind h.os with
      | (none, os) => .error (.returns none { h with os })
      | (some handler, os) =>
          match { h with os }.assignSentinel handler with
          | none => .error .terminates
          | some h =>
              match SharedListener.openAndStart calls h.listeners with
              | (none, listeners) => .error { h with listeners }.fail
              | (some lisn, listeners) => .ok (lisn, { h with listeners })

/-- `Start`. -/
def start (kontext : Kontext) (port : UInt16) (calls : StartCalls) (h : Host) : Outcome :=
  match h.listen port calls with
  | .error outcome => outcome
  | .ok (lisn, h) => Statement.runAll kontext calls (Statement.afterListener lisn) h

/-! ## Attempts, one after the other -/

inductive HostLabel where
  | start (kontext : Kontext) (port : UInt16) (calls : StartCalls)
  | stopComplete (lisn : Hquic)
  /-- other code opens and closes sockets -/
  | elsewhere (os : Os)

namespace Host

/-- `socket()` returns a descriptor that is free. -/
def Allows (h : Host) (calls : StartCalls) : Prop := ∀ d ∈ calls.bind.socket, h.os.table d = none

instance decidableAllows (h : Host) (calls : StartCalls) : Decidable (h.Allows calls) :=
  inferInstanceAs (Decidable (∀ d ∈ calls.bind.socket, h.os.table d = none))

/-- One attempt, or an event between two. -/
def step (h : Host) : HostLabel → Option Host
  | .start kontext port calls =>
      if h.Allows calls then
        match start kontext port calls h with
        | .returns _ t => some t
        | _ => none
      else none
  | .stopComplete lisn =>
      if h.listeners[lisn]? = some .stopping then
        some { h with listeners := h.listeners.set lisn .closed }
      else none
  | .elsewhere os => some { h with os }

/-- A failed attempt has left the session unstarted. -/
structure Unstarted (h t : Host) : Prop where
  unbound : t.session.sentinel.usk.isOpened = false
  released : t.os.table = h.os.table
  disposed : ∀ lisn status, h.listeners.length ≤ lisn → t.listeners[lisn]? = some status →
    status = .stopping ∨ status = .closed
  socketFromListener : t.session.socketFromListener = h.session.socketFromListener
  appContext : t.session.appContext = h.session.appContext
  noThread : t.session.sentinel.recvThread = false ∧ t.session.halfConnectionDaemon = false

/-- An attempt on a session that is not running leaves it unstarted if it fails. -/
def FailsCleanly (h : Host) : HostLabel → Prop
  | .start kontext port calls => h.session.sentinel.isRunning = false → h.Allows calls →
      ∀ t, start kontext port calls h = .returns none t → h.Unstarted t
  | _ => True

end Host

namespace StartCalls

variable (calls : StartCalls) (port : UInt16)

/-- The attempt gets as far as `ListenerOpen`, which succeeds. -/
def Opens : Prop :=
  calls.initError = false ∧ calls.bind.Succeeds "::".toList port ∧ calls.listenerOpen = true

/-- It fails after that. -/
def FailsOpened : Prop := calls.Opens port ∧ (calls.listenerStart && calls.recvThread) = false

instance decidableOpens : Decidable (calls.Opens port) := inferInstanceAs (Decidable (_ ∧ _ ∧ _))

instance decidableFailsOpened : Decidable (calls.FailsOpened port) :=
  inferInstanceAs (Decidable (_ ∧ _))

end StartCalls

/-- The step is an attempt on a session that is not running, and fails after the listener is opened. -/
def Host.Leaks (h : Host) : HostLabel → Prop
  | .start _ port calls =>
      h.session.sentinel.isRunning = false ∧ h.Allows calls ∧ calls.FailsOpened port
  | _ => False

/-! ## What an attempt does -/

/-- A session whose receive thread has not been created has no socket and no daemon, and its contexts
do not know it. -/
structure Host.Settled (h : Host) : Prop where
  idle : h.session.sentinel.recvThread = false → h.session.sentinel.usk = {} ∧
    h.session.halfConnectionDaemon = false ∧ h.session.pSession = fun _ => false
  known : ∀ lisn, h.session.listener = some lisn → lisn < h.listeners.length

/-- The session has kept its new listener, and left the one before. -/
def Host.withListener (h : Host) (lisn : Hquic) (socket : Socket) : Host :=
  { h with
    session := { h.session with
      listener := some lisn
      socketFromListener := (NonOwningUdpSocket.ofSocket socket).copy }
    listeners := SharedListener.listenerDeleter h.session.listener h.listeners }

/-- How an attempt on a session that is not running ends. -/
inductive Ended (h : Host) (port : UInt16) (calls : StartCalls) : Outcome → Prop where
  | unopened {os : Os} (table : os.table = h.os.table) (opens : ¬ calls.Opens port) :
      Ended h port calls (.returns none { h with os })
  | unstarted {os : Os} (table : os.table = h.os.table) (opens : calls.Opens port)
      (fails : calls.listenerStart = false) :
      Ended h port calls (.returns none { h with os, listeners := h.listeners ++ [.opened] })
  | unthreaded {os : Os} (table : os.table = h.os.table) (opens : calls.Opens port)
      (fails : calls.recvThread = false) :
      Ended h port calls (.returns none
        { Host.withListener { h with listeners := h.listeners ++ [.started] } h.listeners.length
          calls.listenerSocket with os })
  | started {sentinelPort : UInt16} {t : Host}
      (succeeds : (calls.listenerStart && calls.recvThread) = true)
      (running : t.session.sentinel.recvThread = true)
      (known : ∀ lisn, t.session.listener = some lisn → lisn < t.listeners.length) :
      Ended h port calls (.returns (some sentinelPort) t)
  | terminated (succeeds : (calls.listenerStart && calls.recvThread) = true) :
      Ended h port calls .terminates

/-- Opening a descriptor that was free and closing it again changes no descriptor. -/
theorem table_closeSocket_openSocket {os : Os} {d : Nat} (free : os.table d = none)
    (opener : Opener) (closer : Closer) :
    ((os.openSocket opener d).closeSocket closer (some d)).table = os.table := by
  simp only [Os.openSocket, Os.closeSocket, Function.update_idem]
  exact Function.update_eq_self_iff.2 free.symm

theorem UdpHandler.bind_idle {port : UInt16} {env : BindEnv} {os os' : Os} {handler : UdpHandler}
    (made : UdpHandler.bind port env os = (some handler, os')) : handler.recvThread = false := by
  obtain ⟨usk, -, rfl⟩ := Option.map_eq_some_iff.1 (Prod.mk.inj made).1
  rfl

theorem UdpHandler.bind_cases (port : UInt16) {env : BindEnv} {os : Os}
    (free : ∀ d ∈ env.socket, os.table d = none) :
    (∃ os', UdpHandler.bind port env os = (none, os') ∧ os'.table = os.table ∧
        ¬ env.Succeeds "::".toList port) ∨
      ∃ d, UdpHandler.bind port env os = (some { usk := { sock := some d } }, os.openSocket .bind d) ∧
        os.table d = none ∧ env.Succeeds "::".toList port := by
  rw [UdpHandler.bind]
  rcases UdpSocket.bind_cases "::".toList port env os with
    ⟨made, -, fails⟩ | ⟨d, socket, ⟨made, fails⟩ | ⟨made, succeeds⟩⟩
  · rw [made]
    exact .inl ⟨os, rfl, rfl, fails⟩
  · rw [made]
    refine .inl ⟨_, rfl, table_closeSocket_openSocket (free d socket) _ _, ?_⟩
    exact fun succeeds => succeeds.not_failsOpened fails
  · rw [made]
    exact .inr ⟨d, rfl, free d socket, succeeds⟩

namespace Host

variable {h : Host}

theorem getSentinelPort_unbound (unbound : h.session.sentinel.usk = {}) (port : Option UInt16) :
    h.getSentinelPort port = 0 := by
  rw [getSentinelPort, UdpHandler.getPort, unbound]
  rfl

theorem assignSentinel_idle (idle : h.session.sentinel.recvThread = false) (other : UdpHandler) :
    h.assignSentinel other = some { h with
      session := { h.session with sentinel := other }
      os := h.os.closeSocket (.moveAssign sentinelUsk) h.session.sentinel.usk.sock } := by
  rw [assignSentinel, UdpHandler.moveAssign, idle]
  rfl

theorem fail_idle (idle : h.session.sentinel.recvThread = false) :
    h.fail = .returns none { h with
      session := { h.session with sentinel := {} }
      os := h.os.closeSocket (.moveAssign sentinelUsk) h.session.sentinel.usk.sock } := by
  rw [fail, assignSentinel_idle idle]

theorem assignSentinel_running (running : h.session.sentinel.recvThread = true)
    (other : UdpHandler) : h.assignSentinel other = none := by
  rw [assignSentinel, UdpHandler.moveAssign, running]
  rfl

end Host

namespace Statement

variable {kontext : Kontext} {calls : StartCalls}

/-- After the registration `Start` fails no more. -/
theorem runAll_registered {rest : List Statement} (registered : .registerRecvFromCallback ∉ rest)
    (noListener : ∀ lisn, .listener lisn ∉ rest) (h : Host) :
    runAll kontext calls rest h = .terminates ∨
      ∃ port t, runAll kontext calls rest h = .returns (some port) t ∧
        t.session.sentinel = h.session.sentinel ∧ t.session.listener = h.session.listener ∧
          t.listeners = h.listeners := by
  induction rest generalizing h with
  | nil => exact .inr ⟨_, h, rfl, rfl, rfl, rfl⟩
  | cons statement rest ih =>
      have later := fun g => ih (List.not_mem_of_not_mem_cons registered)
        (fun lisn member => noListener lisn (List.mem_cons_of_mem _ member)) g
      cases statement with
      | listener lisn => exact absurd List.mem_cons_self (noListener lisn)
      | registerRecvFromCallback => exact absurd List.mem_cons_self registered
      | socketFromListener => exact later _
      | appContext => exact later _
      | pSession slot => exact later _
      | halfConnectionDaemon =>
          cases ends : !calls.daemon || h.session.halfConnectionDaemon with
          | true =>
              left
              simp [runAll, run, ends]
          | false =>
              simp only [runAll, run, ends, Bool.false_eq_true, if_false]
              exact later _

theorem runAll_publishing (kontext : Kontext) (calls : StartCalls) (h : Host) :
    runAll kontext calls publishing h = .terminates ∨
      ∃ port t, runAll kontext calls publishing h = .returns (some port) t ∧
        t.session.sentinel = h.session.sentinel ∧ t.session.listener = h.session.listener ∧
          t.listeners = h.listeners :=
  runAll_registered (by simp [publishing]) (by simp [publishing]) h

theorem runAll_afterListener (lisn : Hquic) (h : Host) :
    runAll kontext calls (afterListener lisn) h =
      runAll kontext calls (.registerRecvFromCallback :: publishing)
        (h.withListener lisn calls.listenerSocket) := rfl

theorem runAll_unthreaded {h : Host} (idle : h.session.sentinel.recvThread = false)
    (fails : calls.recvThread = false) :
    runAll kontext calls (.registerRecvFromCallback :: publishing) h = h.fail := by
  have refused : h.session.sentinel.registerRecvFromCallback calls.recvThread =
      (false, h.session.sentinel) := by
    simp [UdpHandler.registerRecvFromCallback, fails]
  simp only [runAll, run, refused, Bool.false_eq_true, if_false]
  rw [Host.fail_idle idle]

theorem runAll_threaded {h : Host} (bound : h.session.sentinel.usk.isOpened = true)
    (idle : h.session.sentinel.recvThread = false) (succeeds : calls.recvThread = true) :
    runAll kontext calls (.registerRecvFromCallback :: publishing) h =
      runAll kontext calls publishing
        { h with session.sentinel := { h.session.sentinel with recvThread := true } } := by
  have registered : h.session.sentinel.registerRecvFromCallback calls.recvThread =
      (true, { h.session.sentinel with recvThread := true }) := by
    simp [UdpHandler.registerRecvFromCallback, bound, idle, succeeds]
  simp only [runAll, run, registered, if_true]

end Statement

/-- **How an attempt ends.** -/
theorem ended_start {h : Host} (settled : h.Settled)
    (idle : h.session.sentinel.recvThread = false) {calls : StartCalls} (allows : h.Allows calls)
    (kontext : Kontext) (port : UInt16) :
    Ended h port calls (start kontext port calls h) := by
  obtain ⟨unbound, noDaemon, -⟩ := settled.idle idle
  rw [start, Host.listen, Host.getSentinelPort_unbound unbound]
  obtain ⟨⟨appContext, pSession, listener, socketFromListener, ⟨recvThread, usk⟩, daemon⟩, os,
    listeners⟩ := h
  simp only at idle unbound noDaemon
  subst idle unbound noDaemon
  cases init : calls.initError with
  | true => exact .unopened rfl fun opens => absurd opens.1 (by simp [init])
  | false =>
      simp only [Bool.false_eq_true, if_false, ne_eq, not_true_eq_false]
      rcases UdpHandler.bind_cases port allows with
        ⟨os', made, table, fails⟩ | ⟨d, made, free, succeeds⟩
      · simp only at made
        rw [made]
        exact .unopened table fun opens => fails opens.2.1
      · simp only at made
        rw [made]
        simp only [Host.assignSentinel_idle]
        rw [SharedListener.openAndStart]
        cases opened : calls.listenerOpen with
        | false =>
            refine .unopened (table_closeSocket_openSocket free _ _) ?_
            exact fun opens => absurd opens.2.2 (by simp [opened])
        | true =>
            have opens : calls.Opens port := ⟨init, succeeds, opened⟩
            cases starts : calls.listenerStart with
            | false => exact .unstarted (table_closeSocket_openSocket free _ _) opens starts
            | true =>
                show Ended _ port calls (Statement.runAll _ _ (Statement.afterListener _) _)
                rw [Statement.runAll_afterListener]
                cases threads : calls.recvThread with
                | false =>
                    rw [Statement.runAll_unthreaded rfl threads, Host.fail_idle rfl]
                    exact .unthreaded (table_closeSocket_openSocket free _ _) opens threads
                | true =>
                    have succeeds : (calls.listenerStart && calls.recvThread) = true := by
                      rw [starts, threads]
                      rfl
                    rw [Statement.runAll_threaded rfl rfl threads]
                    rcases Statement.runAll_publishing kontext calls _ with
                      ends | ⟨sentinelPort, t, ends, sentinel, kept, listeners⟩
                    · rw [ends]
                      exact .terminated succeeds
                    · rw [ends]
                      refine .started succeeds ?_ ?_
                      · rw [sentinel]
                      · intro lisn keeps
                        rw [kept] at keeps
                        obtain rfl := Option.some.inj keeps
                        rw [listeners]
                        simp [Host.withListener]

/-- A session that is running stays as it is. -/
theorem Host.listen_running {h : Host} (running : h.session.sentinel.recvThread = true)
    (port : UInt16) (calls : StartCalls) :
    h.listen port calls = .error .terminates ∨
      ∃ sentinelPort os, h.listen port calls = .error (.returns sentinelPort { h with os }) := by
  rw [Host.listen]
  split
  · exact .inr ⟨none, h.os, rfl⟩
  · dsimp only
    split
    · exact .inr ⟨_, h.os, rfl⟩
    · split
      · rename_i os made
        exact .inr ⟨none, os, rfl⟩
      · rename_i handler os made
        have terminated := Host.assignSentinel_running (h := { h with os }) running handler
        rw [terminated]
        exact .inl rfl

namespace Host

variable {h : Host}

/-- `Start` gets past its listener only where the session is not running, and has changed nothing of
it but the sentinel by then. -/
theorem listen_ok {port : UInt16} {calls : StartCalls} {lisn : Hquic} {g : Host}
    (listens : h.listen port calls = .ok (lisn, g)) :
    h.session.sentinel.recvThread = false ∧
      ∃ sentinel, g.session = { h.session with sentinel } ∧ sentinel.recvThread = false := by
  cases idle : h.session.sentinel.recvThread with
  | true =>
      rcases listen_running idle port calls with ends | ⟨_, _, ends⟩
      · rw [ends] at listens
        cases listens
      · rw [ends] at listens
        cases listens
  | false =>
      rw [listen] at listens
      split at listens
      · cases listens
      · dsimp only at listens
        split at listens
        · cases listens
        · split at listens
          · cases listens
          · rename_i handler os made
            rw [assignSentinel_idle (h := { h with os }) idle] at listens
            dsimp only at listens
            split at listens
            · cases listens
            · obtain ⟨-, rfl⟩ := Prod.mk.inj (Except.ok.inj listens)
              exact ⟨rfl, handler, rfl, UdpHandler.bind_idle made⟩

theorem Settled.step (settled : h.Settled) {l : HostLabel} {t : Host} (taken : h.step l = some t) :
    t.Settled := by
  cases l with
  | start kontext port calls =>
      simp only [Host.step] at taken
      split at taken
      · rename_i allows
        split at taken
        · rename_i returned g ends
          obtain rfl := Option.some.inj taken
          cases idle : h.session.sentinel.recvThread with
          | true =>
              rw [Koisyn.Session.start] at ends
              rcases listen_running idle port calls with terminates | ⟨_, os, stays⟩
              · rw [terminates] at ends
                cases ends
              · rw [stays] at ends
                cases ends
                exact ⟨settled.idle, settled.known⟩
          | false =>
              have ended := ended_start settled idle allows kontext port
              rw [ends] at ended
              cases ended with
              | unopened => exact ⟨settled.idle, settled.known⟩
              | unstarted =>
                  refine ⟨settled.idle, ?_⟩
                  intro lisn keeps
                  rw [List.length_append]
                  exact Nat.lt_add_right _ (settled.known lisn keeps)
              | unthreaded =>
                  refine ⟨settled.idle, ?_⟩
                  intro lisn keeps
                  obtain rfl := Option.some.inj keeps
                  simp [withListener]
              | started succeeds running known =>
                  refine ⟨?_, known⟩
                  intro notRunning
                  rw [running] at notRunning
                  cases notRunning
        · cases taken
      · cases taken
  | stopComplete lisn =>
      simp only [Host.step] at taken
      split at taken
      · obtain rfl := Option.some.inj taken
        exact ⟨settled.idle, by simpa using settled.known⟩
      · cases taken
  | elsewhere os =>
      obtain rfl := Option.some.inj taken
      exact ⟨settled.idle, settled.known⟩

/-- Failing after the listener is opened leaves it open, or started. -/
theorem listener_left (settled : h.Settled) (idle : h.session.sentinel.recvThread = false)
    {calls : StartCalls} {port : UInt16} (allows : h.Allows calls) (fails : calls.FailsOpened port)
    (kontext : Kontext) :
    ∃ t status, start kontext port calls h = .returns none t ∧
      t.listeners[h.listeners.length]? = some status ∧ (status = .opened ∨ status = .started) := by
  have ended := ended_start settled idle allows kontext port
  generalize start kontext port calls h = outcome at ended ⊢
  cases ended with
  | unopened table opens => exact absurd fails.1 opens
  | unstarted => exact ⟨_, .opened, rfl, by simp, .inl rfl⟩
  | unthreaded =>
      refine ⟨_, .started, rfl, ?_, .inr rfl⟩
      have another : h.session.listener ≠ some h.listeners.length := by
        intro same
        exact Nat.lt_irrefl _ (settled.known _ same)
      show (SharedListener.listenerDeleter h.session.listener _)[_]? = _
      rw [SharedListener.getElem?_listenerDeleter another]
      simp
  | started succeeds => exact absurd fails.2 (by simp [succeeds])
  | terminated succeeds => exact absurd fails.2 (by simp [succeeds])

/-- **An attempt fails cleanly exactly if it does not fail after opening the listener.** -/
theorem failsCleanly_iff (settled : h.Settled) (l : HostLabel) : h.FailsCleanly l ↔ ¬ h.Leaks l := by
  cases l with
  | start kontext port calls =>
      constructor
      · rintro cleanly ⟨idle, allows, fails⟩
        obtain ⟨t, status, ends, present, notStopped⟩ :=
          listener_left settled idle allows fails kontext
        rcases (cleanly idle allows t ends).disposed _ status (Nat.le_refl _) present with rfl | rfl
        · simp at notStopped
        · simp at notStopped
      · intro clean idle allows t ends
        have ended := ended_start settled idle allows kontext port
        rw [ends] at ended
        cases ended with
        | unopened table =>
            obtain ⟨unbound, noDaemon, -⟩ := settled.idle idle
            refine ⟨?_, table, ?_, rfl, rfl, idle, noDaemon⟩
            · show h.session.sentinel.usk.isOpened = false
              rw [unbound]
              rfl
            · intro lisn status new present
              rw [List.getElem?_eq_none new] at present
              cases present
        | unstarted table opens fails => exact absurd ⟨idle, allows, opens, by simp [fails]⟩ clean
        | unthreaded table opens fails => exact absurd ⟨idle, allows, opens, by simp [fails]⟩ clean
  | stopComplete => exact iff_of_true trivial not_false
  | elsewhere => exact iff_of_true trivial not_false

end Host

theorem Host.settled_start : Host.Settled {} := ⟨fun _ => ⟨rfl, rfl, rfl⟩, nofun⟩

/-- **A failed start leaves the session unstarted, exactly if the listener has not been opened.** -/
theorem start_fails_cleanly_iff (labels : List HostLabel) :
    EveryStep Host.step Host.FailsCleanly {} labels ↔
      EveryStep Host.step (fun h l => ¬ h.Leaks l) {} labels := by
  have settled : Always Host.step Host.Settled {} labels :=
    always_of_keeps (fun _ _ _ settled taken => settled.step taken) labels Host.settled_start
  constructor
  · apply everyStep_of_always_of_everyStep _ settled
    intro h l settled cleanly
    exact (Host.failsCleanly_iff settled l).1 cleanly
  · apply everyStep_of_always_of_everyStep _ settled
    intro h l settled clean
    exact (Host.failsCleanly_iff settled l).2 clean

/-- `ListenerStart` fails, or creating the thread does: the listener is left as it is. -/
theorem start_leaves_listener :
    ¬ EveryStep Host.step Host.FailsCleanly {}
        [.start {} 0 { bind := { socket := some 3 }, listenerStart := false }] ∧
      ¬ EveryStep Host.step Host.FailsCleanly {}
        [.start {} 0 { bind := { socket := some 3 }, recvThread := false }] := by
  constructor
  · intro every
    apply (Host.failsCleanly_iff Host.settled_start _).1 every.1
    exact ⟨rfl, by decide, by decide⟩
  · intro every
    apply (Host.failsCleanly_iff Host.settled_start _).1 every.1
    exact ⟨rfl, by decide, by decide⟩

end Koisyn.Session
