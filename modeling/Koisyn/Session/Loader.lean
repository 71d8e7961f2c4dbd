/-
# Koisyn.Session.Loader — MsQuic from its opening to its closing

`MsQuicLoader` is a static object: its constructor opens MsQuic, a registration and two configurations
(`Startup`), and its destructor closes what has been opened (`Cleanup`).  `Start` opens a listener under
the registration, and does so only if `Startup` has succeeded.

* `Api`: what MsQuic has of its handles; a call is `none` where `msquic.h` does not allow it, and where
  it never returns: `RegistrationClose` waits until the application has closed all child objects;
* `loader_balanced`: whichever calls fail, `InitError` is about the first that does, and `Cleanup` closes
  each handle that has been opened, in an order that MsQuic allows;
* `loader_closes_iff`: after any attempts to start a session, the loader's destructor can return exactly if
  none of them failed in `ListenerStart`, which leaves a listener that nobody closes.

The session is destroyed before the loader.  Of the child objects only the listeners are here, and of the
session's destructor only that it releases its listener: `Destructor` and `Daemon` are about what else it
waits for.
-/
import Koisyn.Session.Start
import Koisyn.Session.StreamIds

namespace Koisyn.Session

open Koisyn.Channel
open Koisyn.Net
open Koisyn.Theory.Run

set_option autoImplicit false

/-! ## MsQuic -/

/-- `QUIC_STATUS`. -/
abbrev StatusCode := BitVec 32

/-- `QUIC_FAILED`, as `msquic_posix.h` has it. -/
def quicFailed (status : StatusCode) : Bool := decide (0 < status.toInt)

/-- `QUIC_STATUS_INVALID_STATE`. -/
def quicStatusInvalidState : StatusCode := 1

/-- The settings of a configuration that are set. -/
structure QuicSettings where
  idleTimeoutMs : Option Nat := none
  maxAckDelayMs : Option Nat := none
  pacingEnabled : Option Bool := none
  datagramReceiveEnabled : Option Bool := none
  greaseQuicBitEnabled : Option Bool := none
  peerBidiStreamCount : Option Nat := none
  deriving DecidableEq, Repr

def makeClientSettings : QuicSettings where
  idleTimeoutMs := some 15000
  maxAckDelayMs := some 8
  pacingEnabled := some false
  datagramReceiveEnabled := some true
  greaseQuicBitEnabled := some true

def makeServerSettings : QuicSettings :=
  { makeClientSettings with peerBidiStreamCount := some Session.peerBidiStreamCount }

/-- `QUIC_CREDENTIAL_CONFIG`: a certificate's files, or a client that validates nothing. -/
inductive Credential where
  | certificateFile (certPath keyPath : String)
  | clientNoValidation
  deriving DecidableEq, Repr

structure Configuration where
  registration : Nat
  settings : QuicSettings
  credential : Option Credential := none
  closed : Bool := false
  deriving DecidableEq, Repr

/-- `references` counts the tables handed out; a handle is its position, and each registration is
listed with whether it has been closed. -/
structure Api where
  references : Nat := 0
  registrations : List Bool := []
  configurations : List Configuration := []
  deriving DecidableEq, Repr

namespace Api

variable (api : Api)

/-- The registration has been opened, and not closed. -/
def IsRegistration (registration : Nat) : Prop := api.registrations[registration]? = some false

instance (registration : Nat) : Decidable (api.IsRegistration registration) :=
  inferInstanceAs (Decidable (_ = _))

def msQuicOpen2 : Api := { api with references := api.references + 1 }

def msQuicClose : Option Api :=
  if api.references = 0 ∨ false ∈ api.registrations then none
  else some { api with references := api.references - 1 }

def registrationOpen : Option (Nat × Api) :=
  if api.references = 0 then none
  else some (api.registrations.length, { api with registrations := api.registrations ++ [false] })

/-- `busy`: some other child object of the registration is open. -/
def registrationClose (registration : Nat) (busy : Bool) : Option Api :=
  if api.IsRegistration registration ∧ busy = false ∧
      (∀ c ∈ api.configurations, c.registration = registration → c.closed = true) then
    some { api with registrations := api.registrations.set registration true }
  else none

def configurationOpen (registration : Nat) (settings : QuicSettings) : Option (Nat × Api) :=
  if api.IsRegistration registration then
    some (api.configurations.length,
      { api with configurations := api.configurations ++ [{ registration, settings }] })
  else none

def configurationLoadCredential (configuration : Nat) (credential : Credential) : Option Api :=
  match api.configurations[configuration]? with
  | some c =>
      if c.closed then none
      else some { api with
        configurations := api.configurations.set configuration { c with credential } }
  | none => none

def configurationClose (configuration : Nat) : Option Api :=
  match api.configurations[configuration]? with
  | some c =>
      if c.closed then none
      else some { api with
        configurations := api.configurations.set configuration { c with closed := true } }
  | none => none

/-- Everything that has been opened has been closed. -/
def AllClosed : Prop :=
  api.references = 0 ∧ (∀ r ∈ api.registrations, r = true) ∧ ∀ c ∈ api.configurations, c.closed = true

end Api

/-! ## The loader -/

inductive ErrorType where
  | uninitialized
  | success
  | msQuicOpen2Error
  | registrationOpenError
  | writeCertificateError
  | serverConfigOpenError
  | serverConfigLoadCredentialError
  | clientConfigOpenError
  | clientConfigLoadCredentialError
  deriving DecidableEq, Repr

structure LoaderError where
  type : ErrorType
  code : StatusCode
  deriving DecidableEq, Repr

/-- `operator bool`. -/
def LoaderError.isError (error : LoaderError) : Bool := error.type != .success

/-- `MsQuicLoader`, and whether the pointer `MsQuic` is set. -/
structure MsQuicLoader where
  msQuic : Bool := false
  initError : LoaderError := ⟨.uninitialized, quicStatusInvalidState⟩
  registration : Option Nat := none
  clientConfig : Option Nat := none
  serverConfig : Option Nat := none
  deriving DecidableEq, Repr

/-- The loader, with MsQuic. -/
structure Loading where
  loader : MsQuicLoader := {}
  api : Api := {}
  deriving DecidableEq, Repr

/-- What the calls of `Startup` return; `makeCertificate` is an `error_code`'s value, or the paths. -/
structure LoaderCalls where
  msQuicOpen2 : StatusCode := 0
  registrationOpen : StatusCode := 0
  makeCertificate : Except StatusCode (String × String)
  serverConfigOpen : StatusCode := 0
  serverConfigLoadCredential : StatusCode := 0
  clientConfigOpen : StatusCode := 0
  clientConfigLoadCredential : StatusCode := 0

/-- The statements of `Startup` that can fail. -/
inductive LoaderStep where
  | msQuicOpen2
  | registrationOpen
  | makeCertificate
  | serverConfigOpen
  | serverConfigLoadCredential
  | clientConfigOpen
  | clientConfigLoadCredential
  deriving DecidableEq, Repr

namespace LoaderStep

def errorType : LoaderStep → ErrorType
  | .msQuicOpen2 => .msQuicOpen2Error
  | .registrationOpen => .registrationOpenError
  | .makeCertificate => .writeCertificateError
  | .serverConfigOpen => .serverConfigOpenError
  | .serverConfigLoadCredential => .serverConfigLoadCredentialError
  | .clientConfigOpen => .clientConfigOpenError
  | .clientConfigLoadCredential => .clientConfigLoadCredentialError

/-- The status that the statement returns `Startup` with, if it does. -/
def failure (calls : LoaderCalls) : LoaderStep → Option StatusCode
  | .msQuicOpen2 => ofStatus calls.msQuicOpen2
  | .registrationOpen => ofStatus calls.registrationOpen
  | .makeCertificate =>
      match calls.makeCertificate with
      | .error value => some value
      | .ok _ => none
  | .serverConfigOpen => ofStatus calls.serverConfigOpen
  | .serverConfigLoadCredential => ofStatus calls.serverConfigLoadCredential
  | .clientConfigOpen => ofStatus calls.clientConfigOpen
  | .clientConfigLoadCredential => ofStatus calls.clientConfigLoadCredential
where
  ofStatus (status : StatusCode) : Option StatusCode := if quicFailed status then some status else none

/-- The paths that `MakeCertificate` writes; they are empty before. -/
def paths (calls : LoaderCalls) : String × String :=
  match calls.makeCertificate with
  | .error _ => ("", "")
  | .ok paths => paths

/-- What the statement does if it does not fail. -/
def effect (calls : LoaderCalls) (m : Loading) : LoaderStep → Option Loading
  | .msQuicOpen2 =>
      some { m with loader := { m.loader with msQuic := true }, api := m.api.msQuicOpen2 }
  | .registrationOpen =>
      m.api.registrationOpen.map fun (registration, api) =>
        { m with loader := { m.loader with registration }, api }
  | .makeCertificate => some m
  | .serverConfigOpen => m.loader.registration.bind fun registration =>
      (m.api.configurationOpen registration makeServerSettings).map fun (serverConfig, api) =>
        { m with loader := { m.loader with serverConfig }, api }
  | .serverConfigLoadCredential => m.loader.serverConfig.bind fun serverConfig =>
      let (certPath, keyPath) := paths calls
      (m.api.configurationLoadCredential serverConfig (.certificateFile certPath keyPath)).map
        fun api => { m with api }
  | .clientConfigOpen => m.loader.registration.bind fun registration =>
      (m.api.configurationOpen registration makeClientSettings).map fun (clientConfig, api) =>
        { m with loader := { m.loader with clientConfig }, api }
  | .clientConfigLoadCredential => m.loader.clientConfig.bind fun clientConfig =>
      (m.api.configurationLoadCredential clientConfig .clientNoValidation).map fun api =>
        { m with api }

/-- `Startup` from a statement on: the error that it returns, and what it has done. -/
def runAll (calls : LoaderCalls) : List LoaderStep → Loading → Option (LoaderError × Loading)
  | [], m => some (⟨.success, 0⟩, m)
  | step :: rest, m =>
      match step.failure calls with
      | some status => some (⟨step.errorType, status⟩, m)
      | none => (step.effect calls m).bind (runAll calls rest)

/-- The statements in order. -/
def all : List LoaderStep :=
  [.msQuicOpen2, .registrationOpen, .makeCertificate, .serverConfigOpen, .serverConfigLoadCredential,
    .clientConfigOpen, .clientConfigLoadCredential]

end LoaderStep

namespace Loading

variable (m : Loading)

/-- The constructor, with `Startup`. -/
def construct (calls : LoaderCalls) : Option Loading :=
  (LoaderStep.runAll calls LoaderStep.all m).map fun (initError, m) =>
    { m with loader := { m.loader with initError } }

def closeServerConfig : Option Loading :=
  match m.loader.serverConfig with
  | none => some m
  | some serverConfig => (m.api.configurationClose serverConfig).map fun api =>
      { m with loader := { m.loader with serverConfig := none }, api }

def closeClientConfig : Option Loading :=
  match m.loader.clientConfig with
  | none => some m
  | some clientConfig => (m.api.configurationClose clientConfig).map fun api =>
      { m with loader := { m.loader with clientConfig := none }, api }

/-- `RegistrationShutdown` is about connections. -/
def closeRegistration (busy : Bool) : Option Loading :=
  match m.loader.registration with
  | none => some m
  | some registration => (m.api.registrationClose registration busy).map fun api =>
      { m with loader := { m.loader with registration := none }, api }

def close : Option Loading :=
  if m.loader.msQuic then
    m.api.msQuicClose.map fun api => { m with loader := { m.loader with msQuic := false }, api }
  else some m

/-- `Cleanup`. -/
def cleanup (busy : Bool) : Option Loading :=
  m.closeServerConfig.bind fun m => m.closeClientConfig.bind fun m =>
    (m.closeRegistration busy).bind close

/-- The destructor. -/
def destroy (busy : Bool) : Option Loading :=
  { m with loader := { m.loader with initError := ⟨.uninitialized, quicStatusInvalidState⟩ } }.cleanup
    busy

/-- Everything that a session needs is open, and the credentials are loaded. -/
def Ready (calls : LoaderCalls) : Prop :=
  m.loader.msQuic = true ∧ ∃ registration serverConfig clientConfig,
    m.loader.registration = some registration ∧ m.api.IsRegistration registration ∧
      m.loader.serverConfig = some serverConfig ∧ m.loader.clientConfig = some clientConfig ∧
      m.api.configurations[serverConfig]? = some
        { registration
          settings := makeServerSettings
          credential := some (.certificateFile (LoaderStep.paths calls).1 (LoaderStep.paths calls).2) } ∧
      m.api.configurations[clientConfig]? = some
        { registration, settings := makeClientSettings, credential := some .clientNoValidation }

end Loading

/-! ## What they do -/

namespace LoaderStep

/-- What is there when these statements of `Startup` are still to come. -/
inductive Stage (calls : LoaderCalls) : List LoaderStep → Loading → Prop
  | fresh : Stage calls all {}
  | library : Stage calls (all.drop 1) ⟨{ msQuic := true }, { references := 1 }⟩
  | registered : Stage calls (all.drop 2)
      ⟨{ msQuic := true, registration := some 0 }, ⟨1, [false], []⟩⟩
  | certified : Stage calls (all.drop 3)
      ⟨{ msQuic := true, registration := some 0 }, ⟨1, [false], []⟩⟩
  | serverOpened : Stage calls (all.drop 4)
      ⟨{ msQuic := true, registration := some 0, serverConfig := some 0 },
        ⟨1, [false], [⟨0, makeServerSettings, none, false⟩]⟩⟩
  | serverLoaded : Stage calls (all.drop 5)
      ⟨{ msQuic := true, registration := some 0, serverConfig := some 0 },
        ⟨1, [false], [⟨0, makeServerSettings,
          some (.certificateFile (paths calls).1 (paths calls).2), false⟩]⟩⟩
  | clientOpened : Stage calls (all.drop 6)
      ⟨{ msQuic := true, registration := some 0, serverConfig := some 0, clientConfig := some 1 },
        ⟨1, [false], [⟨0, makeServerSettings,
          some (.certificateFile (paths calls).1 (paths calls).2), false⟩,
          ⟨0, makeClientSettings, none, false⟩]⟩⟩
  | clientLoaded : Stage calls []
      ⟨{ msQuic := true, registration := some 0, serverConfig := some 0, clientConfig := some 1 },
        ⟨1, [false], [⟨0, makeServerSettings,
          some (.certificateFile (paths calls).1 (paths calls).2), false⟩,
          ⟨0, makeClientSettings, some .clientNoValidation, false⟩]⟩⟩

variable {calls : LoaderCalls} {steps : List LoaderStep} {m : Loading}

/-- A statement that does not fail brings the next stage. -/
theorem effect_stage {step : LoaderStep} {rest : List LoaderStep}
    (stage : Stage calls (step :: rest) m) : ∃ t, step.effect calls m = some t ∧ Stage calls rest t := by
  generalize whole : step :: rest = steps at stage
  cases stage with
  | fresh => cases whole; exact ⟨_, rfl, .library⟩
  | library => cases whole; exact ⟨_, rfl, .registered⟩
  | registered => cases whole; exact ⟨_, rfl, .certified⟩
  | certified => cases whole; exact ⟨_, rfl, .serverOpened⟩
  | serverOpened => cases whole; exact ⟨_, rfl, .serverLoaded⟩
  | serverLoaded => cases whole; exact ⟨_, rfl, .clientOpened⟩
  | clientOpened => cases whole; exact ⟨_, rfl, .clientLoaded⟩
  | clientLoaded => cases whole

/-- The error of the first statement that fails. -/
def firstError (calls : LoaderCalls) (steps : List LoaderStep) : LoaderError :=
  (steps.findSome? fun step => (step.failure calls).map fun status => ⟨step.errorType, status⟩).getD
    ⟨.success, 0⟩

/-- Without an error nothing has failed. -/
theorem none_fails (noError : (firstError calls steps).isError = false) :
    ∀ step ∈ steps, step.failure calls = none := by
  intro step member
  cases found : steps.findSome? fun step =>
      (step.failure calls).map fun status => LoaderError.mk step.errorType status with
  | none =>
      have passes := List.findSome?_eq_none_iff.1 found step member
      simpa using passes
  | some error =>
      obtain ⟨failed, -, isError⟩ := List.exists_of_findSome?_eq_some found
      obtain ⟨status, -, rfl⟩ := Option.map_eq_some_iff.1 isError
      rw [firstError, found] at noError
      cases failed <;> cases noError

/-- `Startup` returns the first failure, at some stage, which is the last one if nothing fails. -/
theorem runAll_stage (stage : Stage calls steps m) :
    ∃ t left, runAll calls steps m = some (firstError calls steps, t) ∧ Stage calls left t ∧
      ((∀ step ∈ steps, step.failure calls = none) → left = []) := by
  induction steps generalizing m with
  | nil => exact ⟨m, [], rfl, stage, fun _ => rfl⟩
  | cons step rest ih =>
      cases fails : step.failure calls with
      | some status =>
          refine ⟨m, step :: rest, ?_, stage, ?_⟩
          · simp [runAll, firstError, fails]
          · intro none
            rw [none step List.mem_cons_self] at fails
            cases fails
      | none =>
          obtain ⟨t, done, next⟩ := effect_stage stage
          obtain ⟨u, left, ends, last, all⟩ := ih next
          refine ⟨u, left, ?_, last, fun none => all fun _ member => none _ (List.mem_cons_of_mem _ member)⟩
          have same : firstError calls (step :: rest) = firstError calls rest := by
            simp [firstError, fails]
          rw [same, ← ends]
          simp [runAll, fails, done]

/-- At every stage the destructor closes what is open; a registration only if it is not busy. -/
theorem destroy_stage (stage : Stage calls steps m) :
    (∃ t, m.destroy false = some t ∧ t.loader = {} ∧ t.api.AllClosed) ∧
      ((m.destroy true).isSome = true ↔ m.loader.registration = none) := by
  cases stage with
  | fresh | library => exact ⟨⟨_, rfl, rfl, by simp [Api.AllClosed]⟩, iff_of_true rfl rfl⟩
  | registered | certified | serverOpened | serverLoaded | clientOpened | clientLoaded =>
      exact ⟨⟨_, rfl, rfl, by simp [Api.AllClosed]⟩,
        iff_of_false Bool.false_ne_true (Option.some_ne_none 0)⟩

end LoaderStep

/-- The destructor does not read the error. -/
theorem Loading.destroy_initError (m : Loading) (initError : LoaderError) (busy : Bool) :
    Loading.destroy { m with loader := { m.loader with initError } } busy = m.destroy busy := rfl

/-- `Startup` ends, at some stage; without an error, at the last. -/
theorem construct_ends (calls : LoaderCalls) :
    ∃ t left, ({} : Loading).construct calls = some { t with loader := { t.loader with
        initError := LoaderStep.firstError calls LoaderStep.all } } ∧
      LoaderStep.Stage calls left t ∧
      ((LoaderStep.firstError calls LoaderStep.all).isError = false → left = []) := by
  obtain ⟨t, left, ends, stage, all⟩ := LoaderStep.runAll_stage (.fresh : LoaderStep.Stage calls _ _)
  refine ⟨t, left, ?_, stage, ?_⟩
  · rw [Loading.construct, ends]
    rfl
  · exact fun noError => all (LoaderStep.none_fails noError)

/-- **The loader closes what it opens.**  Whichever calls of `Startup` fail, MsQuic allows what it does;
`InitError` is the first failure, and without one a session has everything it needs; and the destructor
closes every handle once, in an order that MsQuic allows, as long as no session has left one open. -/
theorem loader_balanced (calls : LoaderCalls) :
    ∃ m, ({} : Loading).construct calls = some m ∧
      m.loader.initError = LoaderStep.firstError calls LoaderStep.all ∧
      (m.loader.initError.isError = false → m.Ready calls) ∧
      ∃ t, m.destroy false = some t ∧ t.loader = {} ∧ t.api.AllClosed := by
  obtain ⟨t, left, ends, stage, all⟩ := construct_ends calls
  refine ⟨_, ends, rfl, ?_, ?_⟩
  · intro noError
    obtain rfl := all noError
    cases stage
    exact ⟨rfl, 0, 0, 1, rfl, rfl, rfl, rfl, rfl, rfl⟩
  · exact (LoaderStep.destroy_stage stage).1

/-! ## The sessions of the process -/

namespace Host

/-- The session's `SharedListener` is destroyed. -/
def releaseListener (h : Host) : Host :=
  { h with
    session := { h.session with listener := none }
    listeners := SharedListener.listenerDeleter h.session.listener h.listeners }

/-- `STOP_COMPLETE`, for every listener that is stopping. -/
def stopCompletes (h : Host) : Host :=
  { h with listeners := h.listeners.map fun status => if status = .stopping then .closed else status }

/-- Some listener has not been closed. -/
def listening (h : Host) : Bool := h.listeners.any (· != .closed)

/-- The loader is destroyed when the session's listener has been released and every listener that was
stopped has been closed. -/
def destroyLoader (h : Host) (m : Loading) : Option Loading :=
  m.destroy h.releaseListener.stopCompletes.listening

/-- An attempt on a session that is not running fails in `ListenerStart`. -/
def FailsToListen (h : Host) : HostLabel → Prop
  | .start _ port calls => h.session.sentinel.isRunning = false ∧ h.Allows calls ∧
      calls.Opens port ∧ calls.listenerStart = false
  | _ => False

/-- The attempts of a run that has just begun see the loader's error. -/
def Sees (initError : LoaderError) : HostLabel → Prop
  | .start _ _ calls => calls.initError = initError.isError
  | _ => True

/-- What an attempt on a session that is not running does with listeners. -/
inductive Listens (h : Host) (port : UInt16) (calls : StartCalls) (t : Host) : Prop
  | unopened (opens : ¬ calls.Opens port) (listeners : t.listeners = h.listeners)
      (kept : t.session.listener = h.session.listener)
  | unstarted (opens : calls.Opens port) (fails : calls.listenerStart = false)
      (listeners : t.listeners = h.listeners ++ [.opened])
      (kept : t.session.listener = h.session.listener)
  | started (opens : calls.Opens port) (succeeds : calls.listenerStart = true)
      (listeners : t.listeners =
        SharedListener.listenerDeleter h.session.listener (h.listeners ++ [.started]))
      (kept : t.session.listener = some h.listeners.length)

variable {h t : Host}

/-- Nothing after the listener touches it. -/
theorem listener_registered {g : Host} {kontext : Kontext} {calls : StartCalls}
    (bound : g.session.sentinel.usk.isOpened = true) (idle : g.session.sentinel.recvThread = false)
    {returned : Option UInt16}
    (ends : Statement.runAll kontext calls (.registerRecvFromCallback :: Statement.publishing) g =
      .returns returned t) :
    t.listeners = g.listeners ∧ t.session.listener = g.session.listener := by
  cases threads : calls.recvThread with
  | false =>
      rw [Statement.runAll_unthreaded idle threads, fail_idle idle] at ends
      cases ends
      exact ⟨rfl, rfl⟩
  | true =>
      rw [Statement.runAll_threaded bound idle threads] at ends
      rcases Statement.runAll_publishing kontext calls _ with terminates | ⟨port, u, returns, -, kept, listeners⟩
      · rw [terminates] at ends
        cases ends
      · rw [returns] at ends
        cases ends
        exact ⟨listeners, kept⟩

theorem listens_start (settled : h.Settled) (idle : h.session.sentinel.recvThread = false)
    {calls : StartCalls} (allows : h.Allows calls) {kontext : Kontext} {port : UInt16}
    {returned : Option UInt16} (ends : start kontext port calls h = .returns returned t) :
    h.Listens port calls t := by
  obtain ⟨unbound, -, -⟩ := settled.idle idle
  rw [Koisyn.Session.start, listen, getSentinelPort_unbound unbound] at ends
  cases init : calls.initError with
  | true =>
      simp only [init, if_true] at ends
      cases ends
      exact .unopened (fun opens => absurd opens.1 (by simp [init])) rfl rfl
  | false =>
      simp only [init, Bool.false_eq_true, if_false, ne_eq, not_true_eq_false] at ends
      rcases UdpHandler.bind_cases port allows with
        ⟨os', made, table, fails⟩ | ⟨d, made, free, succeeds⟩
      · rw [made] at ends
        cases ends
        exact .unopened (fun opens => fails opens.2.1) rfl rfl
      · rw [made] at ends
        dsimp only at ends
        rw [assignSentinel_idle (h := { h with os := h.os.openSocket .bind d }) idle] at ends
        dsimp only at ends
        rw [SharedListener.openAndStart] at ends
        cases opened : calls.listenerOpen with
        | false =>
            simp only [opened, Bool.not_false, if_true] at ends
            rw [fail_idle rfl] at ends
            cases ends
            exact .unopened (fun opens => absurd opens.2.2 (by simp [opened])) rfl rfl
        | true =>
            have opens : calls.Opens port := ⟨init, succeeds, opened⟩
            cases starts : calls.listenerStart with
            | false =>
                simp only [opened, starts, Bool.not_true, Bool.not_false, Bool.false_eq_true, if_false,
                  if_true] at ends
                rw [fail_idle rfl] at ends
                cases ends
                exact .unstarted opens starts rfl rfl
            | true =>
                simp only [opened, starts, Bool.not_true, Bool.false_eq_true, if_false] at ends
                rw [Statement.runAll_afterListener] at ends
                obtain ⟨listeners, kept⟩ := listener_registered rfl rfl ends
                exact .started opens starts listeners kept

/-- What the listeners of a process are between two attempts. -/
structure Tended (h : Host) : Prop where
  settled : h.Settled
  /-- one that has been started is the session's -/
  held : ∀ lisn, h.listeners[lisn]? = some .started → h.session.listener = some lisn

/-- A listener that the deleter leaves started is another one. -/
theorem started_of_listenerDeleter {lisn : Option Hquic} {listeners : List ListenerStatus} {i : Hquic}
    (started : (SharedListener.listenerDeleter lisn listeners)[i]? = some .started) :
    listeners[i]? = some .started ∧ lisn ≠ some i := by
  by_cases same : lisn = some i
  · subst same
    obtain ⟨status, -, stopped⟩ := Option.map_eq_some_iff.1
      ((List.getElem?_modify_eq ListenerStatus.stop i listeners).symm.trans started)
    cases status <;> cases stopped
  · rw [SharedListener.getElem?_listenerDeleter same] at started
    exact ⟨started, same⟩

theorem opened_mem_of_getElem? {listeners more : List ListenerStatus}
    (same : ∀ i : Hquic, listeners[i]? = some .opened ↔ more[i]? = some .opened) :
    .opened ∈ listeners ↔ .opened ∈ more := by
  rw [List.mem_iff_getElem?, List.mem_iff_getElem?]
  exact exists_congr same

theorem opened_mem_listenerDeleter (lisn : Option Hquic) (listeners : List ListenerStatus) :
    .opened ∈ SharedListener.listenerDeleter lisn listeners ↔ .opened ∈ listeners := by
  apply opened_mem_of_getElem?
  intro i
  by_cases same : lisn = some i
  · subst same
    show (listeners.modify i ListenerStatus.stop)[i]? = _ ↔ _
    rw [List.getElem?_modify_eq]
    cases listeners[i]? with
    | none => exact Iff.rfl
    | some status => cases status <;> simp [ListenerStatus.stop]
  · rw [SharedListener.getElem?_listenerDeleter same]

/-- The last of a list of listeners is the one that has been added. -/
theorem started_of_append {listeners : List ListenerStatus} {status : ListenerStatus} {i : Hquic}
    (started : (listeners ++ [status])[i]? = some .started) :
    listeners[i]? = some .started ∨ i = listeners.length ∧ status = .started := by
  rw [List.getElem?_append] at started
  split at started
  · exact .inl started
  · rename_i beyond
    obtain ⟨last, isStarted⟩ := List.getElem?_eq_some_iff.1 started
    have first : i - listeners.length = 0 := by simpa using last
    refine .inr ⟨Nat.le_antisymm (Nat.sub_eq_zero_iff_le.1 first) (Nat.not_lt.1 beyond), ?_⟩
    simpa [first] using isStarted

/-- **The step rule**: listeners stay tended, and one is left open exactly by an attempt that fails in
`ListenerStart`. -/
theorem tended_step (tended : h.Tended) {l : HostLabel} (taken : h.step l = some t) :
    t.Tended ∧ (.opened ∈ t.listeners ↔ .opened ∈ h.listeners ∨ h.FailsToListen l) := by
  have settled := tended.settled.step taken
  cases l with
  | start kontext port calls =>
      simp only [step] at taken
      split at taken
      swap
      · cases taken
      rename_i allows
      split at taken
      swap
      · cases taken
      rename_i returned g ends
      obtain rfl := Option.some.inj taken
      cases idle : h.session.sentinel.recvThread with
      | true =>
          have same : ∃ os, g = { h with os } := by
            rw [Koisyn.Session.start] at ends
            rcases listen_running idle port calls with terminates | ⟨_, os, stays⟩
            · rw [terminates] at ends
              cases ends
            · rw [stays] at ends
              cases ends
              exact ⟨os, rfl⟩
          obtain ⟨os, rfl⟩ := same
          refine ⟨⟨settled, tended.held⟩, ?_⟩
          simp [FailsToListen, UdpHandler.isRunning, idle]
      | false =>
          have running : h.session.sentinel.isRunning = false := idle
          cases listens_start tended.settled idle allows ends with
          | unopened opens listeners kept =>
              refine ⟨⟨settled, ?_⟩, ?_⟩
              · rw [listeners, kept]
                exact tended.held
              · simp [FailsToListen, listeners, opens]
          | unstarted opens fails listeners kept =>
              refine ⟨⟨settled, ?_⟩, ?_⟩
              · intro lisn started
                rw [listeners] at started
                rw [kept]
                rcases started_of_append started with before | ⟨-, added⟩
                · exact tended.held lisn before
                · cases added
              · simp [FailsToListen, listeners, opens, fails, running, allows]
          | started opens succeeds listeners kept =>
              refine ⟨⟨settled, ?_⟩, ?_⟩
              · intro lisn started
                rw [listeners] at started
                obtain ⟨started, another⟩ := started_of_listenerDeleter started
                rcases started_of_append started with before | ⟨rfl, -⟩
                · exact absurd (tended.held lisn before) another
                · exact kept
              · rw [listeners, opened_mem_listenerDeleter]
                simp [FailsToListen, succeeds]
  | stopComplete lisn =>
      simp only [step] at taken
      split at taken
      swap
      · cases taken
      rename_i stopping
      obtain rfl := Option.some.inj taken
      have elsewhere : ∀ i : Hquic, i ≠ lisn →
          (h.listeners.set lisn .closed)[i]? = h.listeners[i]? :=
        fun i other => List.getElem?_set_ne (Ne.symm other)
      have here : (h.listeners.set lisn .closed)[lisn]? = some .closed := by
        rw [List.getElem?_set_self (List.getElem?_eq_some_iff.1 stopping).1]
      refine ⟨⟨settled, ?_⟩, ?_⟩
      · intro i started
        by_cases same : i = lisn
        · subst same
          cases here.symm.trans started
        · exact tended.held i ((elsewhere i same).symm.trans started)
      · show _ ↔ _ ∨ False
        rw [or_false]
        apply opened_mem_of_getElem?
        intro i
        by_cases same : i = lisn
        · subst same
          rw [here, stopping]
          simp
        · rw [elsewhere i same]
  | elsewhere os =>
      obtain rfl := Option.some.inj taken
      exact ⟨⟨settled, tended.held⟩, by simp [FailsToListen]⟩

theorem tended_start : Tended {} := ⟨settled_start, nofun⟩

/-- Once the session's listener is released and every listener that was stopped is closed, only those
that have never been started are left. -/
theorem listening_iff (tended : h.Tended) :
    h.releaseListener.stopCompletes.listening = true ↔ .opened ∈ h.listeners := by
  rw [← opened_mem_listenerDeleter h.session.listener, listening, List.any_eq_true]
  show (∃ status ∈ (SharedListener.listenerDeleter h.session.listener h.listeners).map _, _) ↔ _
  constructor
  · rintro ⟨status, member, open_⟩
    obtain ⟨before, present, rfl⟩ := List.mem_map.1 member
    cases before with
    | opened => exact present
    | started =>
        obtain ⟨i, isStarted⟩ := List.mem_iff_getElem?.1 present
        obtain ⟨started, another⟩ := started_of_listenerDeleter isStarted
        exact absurd (tended.held i started) another
    | stopping => simp at open_
    | closed => simp at open_
  · intro member
    exact ⟨.opened, List.mem_map.2 ⟨.opened, member, rfl⟩, rfl⟩

/-- **The run rule**: a listener has been left open exactly if some attempt failed in `ListenerStart`. -/
theorem opened_run {labels : List HostLabel} (tended : h.Tended) (run : exec step h labels = some t) :
    t.Tended ∧ (.opened ∈ t.listeners ↔
      .opened ∈ h.listeners ∨ ¬ EveryStep step (fun h l => ¬ h.FailsToListen l) h labels) := by
  induction labels generalizing h with
  | nil =>
      simp only [exec_nil, Option.some.injEq] at run
      subst run
      exact ⟨tended, by simp [EveryStep]⟩
  | cons l labels ih =>
      obtain ⟨middle, taken, reached⟩ := Option.bind_eq_some_iff.1 run
      obtain ⟨next, added⟩ := tended_step tended taken
      obtain ⟨last, opened⟩ := ih next reached
      refine ⟨last, ?_⟩
      rw [opened, added, or_assoc]
      apply or_congr_right
      simp only [EveryStep, taken, Option.some.injEq, forall_eq']
      tauto

/-- Where MsQuic is not there no attempt gets to `ListenerStart`. -/
theorem everyStep_of_error {initError : LoaderError} (error : initError.isError = true)
    {labels : List HostLabel} (sees : ∀ l ∈ labels, Sees initError l) (h : Host) :
    EveryStep step (fun h l => ¬ h.FailsToListen l) h labels := by
  induction labels generalizing h with
  | nil => trivial
  | cons l labels ih =>
      refine ⟨?_, fun t _ => ih (fun l member => sees l (List.mem_cons_of_mem _ member)) t⟩
      intro fails
      cases l with
      | start kontext port calls =>
          obtain ⟨-, -, opens, -⟩ := fails
          have seen : calls.initError = initError.isError := sees _ List.mem_cons_self
          rw [opens.1, error] at seen
          cases seen
      | stopComplete => exact fails
      | elsewhere => exact fails

end Host

/-- **When the loader's destructor returns, exactly.**  In a process whose loader has been constructed,
after any attempts to start the session: once the session's listener has been released and every listener
that was stopped has been closed, it returns if and only if no attempt failed in `ListenerStart`. -/
theorem loader_closes_iff {calls : LoaderCalls} {m : Loading}
    (constructed : ({} : Loading).construct calls = some m) {labels : List HostLabel}
    (sees : ∀ l ∈ labels, Host.Sees m.loader.initError l) {h : Host}
    (run : exec Host.step {} labels = some h) :
    (h.destroyLoader m).isSome = true ↔ EveryStep Host.step (fun h l => ¬ h.FailsToListen l) {} labels := by
  obtain ⟨t, left, ends, stage, all⟩ := construct_ends calls
  obtain rfl := Option.some.inj (constructed.symm.trans ends)
  obtain ⟨tended, opened⟩ := Host.opened_run Host.tended_start run
  obtain ⟨⟨u, destroyed, -⟩, stuck⟩ := LoaderStep.destroy_stage stage
  rw [Host.destroyLoader, Loading.destroy_initError]
  cases busy : h.releaseListener.stopCompletes.listening with
  | false =>
      refine iff_of_true (by rw [destroyed]; rfl) ?_
      by_contra fails
      have left := (Host.listening_iff tended).2 (opened.2 (.inr fails))
      rw [busy] at left
      cases left
  | true =>
      have fails := (opened.1 ((Host.listening_iff tended).1 busy)).resolve_left List.not_mem_nil
      refine iff_of_false ?_ fails
      rw [stuck]
      intro unregistered
      -- an attempt got as far as its listener, so the loader has its registration
      have noError : (LoaderStep.firstError calls LoaderStep.all).isError = false := by
        by_contra error
        exact fails (Host.everyStep_of_error (by simpa using error) sees {})
      obtain rfl := all noError
      cases stage
      cases unregistered

/-- Everything opens; then `ListenerStart` fails. -/
def certifiedCalls : LoaderCalls := { makeCertificate := .ok ("koisyn-cert.pem", "koisyn-key.pem") }

def refusedStart : List HostLabel :=
  [.start {} 0 { bind := { socket := some 3 }, listenerStart := false }]

theorem loader_closes_iff_refused :
    ∃ m h, ({} : Loading).construct certifiedCalls = some m ∧
      exec Host.step {} refusedStart = some h ∧
      ((h.destroyLoader m).isSome = true ↔
        EveryStep Host.step (fun h l => ¬ h.FailsToListen l) {} refusedStart) := by
  have constructed : ({} : Loading).construct certifiedCalls = some _ := rfl
  refine ⟨_, _, constructed, rfl, loader_closes_iff constructed ?_ rfl⟩
  simp [refusedStart, Host.Sees, LoaderError.isError]

/-- Nobody closes the listener, and the destructor hangs. -/
example : ((exec Host.step {} refusedStart).bind fun h =>
    (({} : Loading).construct certifiedCalls).bind h.destroyLoader) = none := by
  decide

end Koisyn.Session
