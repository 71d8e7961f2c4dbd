/-
# Koisyn.Session.Certificate — the certificate's files, written by several processes

Every process writes a certificate and its key to the temporary directory before it opens its server
configuration, unless both files exist (`MakeCertificate`).  Nothing keeps two processes from doing that
at a time: one may find a file that another has opened and not yet written.

`Directory` is the two files, with any number of processes at some statement of `MakeCertificate` each.
`certificates_settle`: files that both exist are never touched, whatever is in them; otherwise, as long as
streams can be opened and written, the files are complete whenever some process has made them and none is
between opening one and having written both.  A process that is stopped there leaves an empty file, which
no later one replaces.
-/
import Koisyn.Theory.Run
import Mathlib.Logic.Function.Basic

namespace Koisyn.Session

open Koisyn.Theory.Run

set_option autoImplicit false

/-- `CertFileName` and `KeyFileName`. -/
inductive CertificateFile where
  | cert
  | key
  deriving DecidableEq, Repr

/-- How `MakeCertificate` has returned: with an error, or with none and the files as they were, or
written. -/
inductive CertificateResult where
  | error
  | kept
  | written
  deriving DecidableEq, Repr

/-- The statement of `MakeCertificate` that a process is at. -/
inductive CertificateStatement where
  | getTempDirectoryPath
  | certExists
  | keyExists (bothExists : Bool)
  /-- the constructor of the `ofstream` -/
  | openFile (file : CertificateFile)
  /-- `<<`, and the destructor -/
  | writeFile (file : CertificateFile)
  | returned (result : CertificateResult)
  deriving DecidableEq, Repr

/-- The files, and where each process is. -/
structure Directory (ι : Type) where
  files : CertificateFile → Option (List UInt8)
  at_ : ι → CertificateStatement

namespace Directory

variable {ι : Type} [DecidableEq ι]

/-- The second file comes after the first. -/
def afterFile : CertificateFile → CertificateStatement
  | .cert => .openFile .key
  | .key => .returned .written

section Step

variable (raw : CertificateFile → List UInt8) (d : Directory ι)

/-- The process `i` comes to a statement. -/
def goesTo (i : ι) (statement : CertificateStatement) : Directory ι :=
  { d with at_ := Function.update d.at_ i statement }

/-- One statement of one process, which may fail; `raw` is `CertRaw` and `KeyRaw`.  A stream that
cannot be opened or written is not noticed. -/
def step : ι × Bool → Option (Directory ι)
  | (i, succeeds) =>
      match d.at_ i with
      | .getTempDirectoryPath =>
          some (d.goesTo i (if succeeds then .certExists else .returned .error))
      | .certExists =>
          some (d.goesTo i (if succeeds then .keyExists (d.files .cert).isSome else .returned .error))
      | .keyExists bothExists =>
          some (d.goesTo i
            (if !succeeds then .returned .error
              else if bothExists && (d.files .key).isSome then .returned .kept
              else .openFile .cert))
      | .openFile file =>
          if succeeds then
            some { d.goesTo i (.writeFile file) with files := Function.update d.files file (some []) }
          else some (d.goesTo i (afterFile file))
      | .writeFile file =>
          if succeeds then
            some { d.goesTo i (afterFile file) with
              files := Function.update d.files file (some (raw file)) }
          else some (d.goesTo i (afterFile file))
      | .returned _ => none

/-- The processes have not begun. -/
def start (files : CertificateFile → Option (List UInt8)) : Directory ι :=
  ⟨files, fun _ => .getTempDirectoryPath⟩

/-- Both files exist. -/
def BothExist (files : CertificateFile → Option (List UInt8)) : Prop :=
  ∀ file, (files file).isSome = true

/-- A stream that the process opens or writes does not fail. -/
def StreamWorks : ι × Bool → Prop
  | (i, succeeds) => (∃ file, d.at_ i = .openFile file ∨ d.at_ i = .writeFile file) → succeeds = true

/-- The process has opened a file and not written both. -/
def Writing (i : ι) : Prop :=
  d.at_ i = .writeFile .cert ∨ d.at_ i = .openFile .key ∨ d.at_ i = .writeFile .key

/-- The process is where it has not touched a file. -/
def Passive (i : ι) : Prop :=
  ¬ d.Writing i ∧ d.at_ i ≠ .returned .kept ∧ d.at_ i ≠ .returned .written

/-- The files are as they were, or as `MakeCertificate` writes them, unless some process is writing. -/
def SettledFrom (files : CertificateFile → Option (List UInt8)) : Prop :=
  (∀ i, ¬ d.Writing i) →
    d.files = files ∧ (∀ i, d.at_ i ≠ .returned .kept ∧ d.at_ i ≠ .returned .written) ∨
      ∀ file, d.files file = some (raw file)

end Step

variable {raw : CertificateFile → List UInt8} {d t : Directory ι}
variable {files : CertificateFile → Option (List UInt8)} {i j : ι} {statement : CertificateStatement}

@[simp] theorem goesTo_files : (d.goesTo i statement).files = d.files := rfl

@[simp] theorem goesTo_self : (d.goesTo i statement).at_ i = statement := Function.update_self ..

theorem goesTo_ne (other : j ≠ i) : (d.goesTo i statement).at_ j = d.at_ j :=
  Function.update_of_ne other _ _

/-! ## Files that exist -/

/-- Both files exist, and no process is on its way to open one. -/
structure Kept (files : CertificateFile → Option (List UInt8)) (d : Directory ι) : Prop where
  files : d.files = files
  seen : ∀ i bothExists, d.at_ i = .keyExists bothExists → bothExists = true
  closed : ∀ i file, d.at_ i ≠ .openFile file ∧ d.at_ i ≠ .writeFile file

theorem kept_goesTo (kept : Kept files d) (seen : ∀ b, statement = .keyExists b → b = true)
    (closed : ∀ file, statement ≠ .openFile file ∧ statement ≠ .writeFile file) :
    Kept files (d.goesTo i statement) := by
  refine ⟨kept.files, ?_, ?_⟩
  · intro j b isAt
    by_cases here : j = i
    · subst here
      rw [goesTo_self] at isAt
      exact seen b isAt
    · rw [goesTo_ne here] at isAt
      exact kept.seen j b isAt
  · intro j file
    by_cases here : j = i
    · subst here
      rw [goesTo_self]
      exact closed file
    · rw [goesTo_ne here]
      exact kept.closed j file

theorem kept_step (exist : BothExist files) (kept : Kept files d) {l : ι × Bool}
    (taken : d.step raw l = some t) : Kept files t := by
  obtain ⟨i, succeeds⟩ := l
  simp only [step] at taken
  split at taken
  · obtain rfl := Option.some.inj taken
    exact kept_goesTo kept (by cases succeeds <;> simp) (by cases succeeds <;> simp)
  · obtain rfl := Option.some.inj taken
    have present : (d.files .cert).isSome = true := kept.files ▸ exist .cert
    exact kept_goesTo kept (by cases succeeds <;> simp [present]) (by cases succeeds <;> simp)
  · rename_i bothExists isAt
    obtain rfl := Option.some.inj taken
    obtain rfl := kept.seen i bothExists isAt
    have present : (d.files .key).isSome = true := kept.files ▸ exist .key
    exact kept_goesTo kept (by cases succeeds <;> simp [present]) (by cases succeeds <;> simp [present])
  · rename_i file isAt
    exact absurd isAt (kept.closed i file).1
  · rename_i file isAt
    exact absurd isAt (kept.closed i file).2
  · cases taken

/-! ## Files that are made -/

/-- A file has been opened: each holds its text, or somebody is still writing. -/
def Touched (raw : CertificateFile → List UInt8) (d : Directory ι) : Prop :=
  (d.files .cert = some (raw .cert) ∨ ∃ i, d.at_ i = .writeFile .cert) ∧
    (d.files .key = some (raw .key) ∨ ∃ i, d.Writing i)

/-- The invariant, from a directory where a file is missing. -/
structure Made (raw : CertificateFile → List UInt8) (files : CertificateFile → Option (List UInt8))
    (d : Directory ι) : Prop where
  seen : ∀ i, d.at_ i = .keyExists true → (d.files .cert).isSome = true
  state : (d.files = files ∧ ∀ i, d.Passive i) ∨ d.Touched raw

omit [DecidableEq ι] in
theorem not_writing_of {at_ : CertificateStatement} (isAt : d.at_ i = at_)
    (cert : at_ ≠ .writeFile .cert) (next : at_ ≠ .openFile .key) (key : at_ ≠ .writeFile .key) :
    ¬ d.Writing i := by
  rintro (here | here | here)
  · exact cert (isAt.symm.trans here)
  · exact next (isAt.symm.trans here)
  · exact key (isAt.symm.trans here)

theorem passive_goesTo (passive : ∀ j, d.Passive j) (stays : (d.goesTo i statement).Passive i) (j : ι) :
    (d.goesTo i statement).Passive j := by
  by_cases here : j = i
  · subst here
    exact stays
  · simp only [Passive, Writing, goesTo_ne here]
    exact passive j

/-- A process that is not writing leaves the others at it. -/
theorem touched_goesTo (touched : d.Touched raw) (idle : ¬ d.Writing i) :
    (d.goesTo i statement).Touched raw := by
  have others : ∀ j, d.Writing j → j ≠ i := by
    rintro j writing rfl
    exact idle writing
  obtain ⟨cert, key⟩ := touched
  refine ⟨cert.imp_right ?_, key.imp_right ?_⟩
  · rintro ⟨j, writes⟩
    exact ⟨j, (goesTo_ne (others j (.inl writes))).trans writes⟩
  · rintro ⟨j, writing⟩
    refine ⟨j, ?_⟩
    simp only [Writing, goesTo_ne (others j writing)]
    exact writing

/-- Where the files do not change, a step of a process that has not touched one keeps the invariant. -/
theorem made_goesTo (made : Made raw files d) (idle : ¬ d.Writing i)
    (seen : statement = .keyExists true → (d.files .cert).isSome = true)
    (passive : (∀ j, d.Passive j) → d.files = files → (d.goesTo i statement).Passive i) :
    Made raw files (d.goesTo i statement) := by
  refine ⟨?_, ?_⟩
  · intro j isAt
    by_cases here : j = i
    · subst here
      rw [goesTo_self] at isAt
      exact seen isAt
    · rw [goesTo_ne here] at isAt
      exact made.seen j isAt
  · rcases made.state with ⟨same, untouched⟩ | touched
    · exact .inl ⟨same, passive_goesTo untouched (passive untouched same)⟩
    · exact .inr (touched_goesTo touched idle)

/-- An opened or written file exists. -/
theorem seen_update (made : Made raw files d) {file : CertificateFile} {text : List UInt8}
    (away : statement ≠ .keyExists true) (j : ι) (isAt : (d.goesTo i statement).at_ j = .keyExists true) :
    (Function.update d.files file (some text) .cert).isSome = true := by
  have before : d.at_ j = .keyExists true := by
    by_cases here : j = i
    · subst here
      rw [goesTo_self] at isAt
      exact absurd isAt away
    · exact (goesTo_ne here).symm.trans isAt
  cases file with
  | cert => rfl
  | key => exact made.seen j before

omit [DecidableEq ι] in
/-- A process that has opened a file is not where the files are untouched. -/
theorem Made.touched (made : Made raw files d) (writing : d.Writing i) : d.Touched raw := by
  rcases made.state with ⟨-, untouched⟩ | touched
  · exact absurd writing (untouched i).1
  · exact touched

/-- The key's steps leave the certificate as it is, or as others are writing it. -/
theorem cert_goesTo (touched : d.Touched raw) (other : d.at_ i ≠ .writeFile .cert) :
    d.files .cert = some (raw .cert) ∨ ∃ j, (d.goesTo i statement).at_ j = .writeFile .cert := by
  refine touched.1.imp_right ?_
  rintro ⟨j, writes⟩
  refine ⟨j, (goesTo_ne ?_).trans writes⟩
  rintro rfl
  exact other writes

theorem made_step (missing : ¬ BothExist files) (made : Made raw files d) {l : ι × Bool}
    (works : d.StreamWorks l) (taken : d.step raw l = some t) : Made raw files t := by
  obtain ⟨i, succeeds⟩ := l
  simp only [step] at taken
  split at taken
  · rename_i isAt
    obtain rfl := Option.some.inj taken
    refine made_goesTo made (not_writing_of isAt nofun nofun nofun) (by cases succeeds <;> simp) ?_
    intro _ _
    simp only [Passive, Writing, goesTo_self]
    cases succeeds <;> simp
  · rename_i isAt
    obtain rfl := Option.some.inj taken
    refine made_goesTo made (not_writing_of isAt nofun nofun nofun) (by cases succeeds <;> simp) ?_
    intro _ _
    simp only [Passive, Writing, goesTo_self]
    cases succeeds <;> simp
  · rename_i bothExists isAt
    obtain rfl := Option.some.inj taken
    refine made_goesTo made (not_writing_of isAt nofun nofun nofun)
      (by cases succeeds <;> cases bothExists <;> cases (d.files .key).isSome <;> simp) ?_
    intro _ same
    -- one of the files is missing, so the process does not find both
    have absent : (bothExists && (d.files .key).isSome) = false := by
      by_contra found
      obtain ⟨rfl, key⟩ : bothExists = true ∧ (d.files .key).isSome = true :=
        Bool.and_eq_true_iff.1 (by simpa only [Bool.not_eq_false] using found)
      refine missing fun file => ?_
      rw [← same]
      cases file with
      | cert => exact made.seen i isAt
      | key => exact key
    simp only [Passive, Writing, goesTo_self, absent]
    cases succeeds <;> simp
  · rename_i file isAt
    obtain rfl := works ⟨file, .inl isAt⟩
    obtain rfl := Option.some.inj taken
    refine ⟨seen_update made nofun, .inr ?_⟩
    cases file with
    | cert => exact ⟨.inr ⟨i, goesTo_self⟩, .inr ⟨i, .inl goesTo_self⟩⟩
    | key =>
        have touched := made.touched (.inr (.inl isAt))
        exact ⟨cert_goesTo touched (by rw [isAt]; nofun), .inr ⟨i, .inr (.inr goesTo_self)⟩⟩
  · rename_i file isAt
    obtain rfl := works ⟨file, .inr isAt⟩
    obtain rfl := Option.some.inj taken
    refine ⟨seen_update made (by cases file <;> nofun), .inr ?_⟩
    cases file with
    | cert =>
        have done : Function.update d.files .cert (some (raw .cert)) .cert = some (raw .cert) :=
          Function.update_self ..
        exact ⟨.inl done, .inr ⟨i, .inr (.inl goesTo_self)⟩⟩
    | key =>
        have touched := made.touched (.inr (.inr isAt))
        have done : Function.update d.files .key (some (raw .key)) .key = some (raw .key) :=
          Function.update_self ..
        exact ⟨cert_goesTo touched (by rw [isAt]; nofun), .inl done⟩
  · cases taken

omit [DecidableEq ι] in
theorem settledFrom_of_made (made : Made raw files d) : d.SettledFrom raw files := by
  intro quiet
  rcases made.state with ⟨same, untouched⟩ | ⟨cert, key⟩
  · exact .inl ⟨same, fun i => (untouched i).2⟩
  · have certDone := cert.resolve_right fun ⟨i, writes⟩ => quiet i (.inl writes)
    have keyDone := key.resolve_right fun ⟨i, writing⟩ => quiet i writing
    right
    intro file
    cases file with
    | cert => exact certDone
    | key => exact keyDone

/-- **What becomes of the files.**  In every interleaving of any number of processes: two files that exist
are never touched, whatever they hold and whatever fails; and if one is missing, and no stream fails, then
whenever nobody is writing the files are either untouched, and no process has returned without an error,
or complete. -/
theorem certificates_settle (raw : CertificateFile → List UInt8)
    (files : CertificateFile → Option (List UInt8)) (labels : List (ι × Bool)) :
    (BothExist files → Always (step raw) (fun d => d.files = files) (start files) labels) ∧
      (¬ BothExist files → EveryStep (step raw) StreamWorks (start files) labels →
        Always (step raw) (SettledFrom raw · files) (start files) labels) := by
  constructor
  · intro exist
    have begun : Kept files (start files : Directory ι) := ⟨rfl, nofun, fun _ _ => ⟨nofun, nofun⟩⟩
    have kept : Always (step raw) (Kept files) (start files) labels :=
      always_of_keeps (fun _ _ _ kept taken => kept_step exist kept taken) labels begun
    exact kept.mono fun _ kept => kept.files
  · intro missing works
    have begun : Made raw files (start files : Directory ι) := by
      refine ⟨nofun, .inl ⟨rfl, fun i => ?_⟩⟩
      exact ⟨not_writing_of rfl nofun nofun nofun, nofun, nofun⟩
    have made : Always (step raw) (Made raw files) (start files) labels := always_of_everyStep
      (fun _ _ _ made works taken => made_step missing made works taken) begun works
    exact made.mono fun _ made => settledFrom_of_made made

/-- Where nothing fails, no stream does. -/
theorem streams_work {labels : List (ι × Bool)} (succeed : ∀ l ∈ labels, l.2 = true)
    (d : Directory ι) : EveryStep (step raw) StreamWorks d labels := by
  induction labels generalizing d with
  | nil => trivial
  | cons l labels ih =>
      refine ⟨fun _ => succeed l List.mem_cons_self, fun t _ => ih ?_ t⟩
      exact fun l later => succeed l (List.mem_cons_of_mem _ later)

/-- The second process comes when the first has opened the key and not written it. -/
def overlappingProcesses : List (Bool × Bool) :=
  [false, false, false, false, false, false, true, true, true, false].map (·, true)

/-- It finds both files, the key still empty; the first process then completes them. -/
theorem certificates_settle_overlapping :
    (exec (step fun _ => [1]) (start fun _ => none) (overlappingProcesses.take 9)).map
        (fun d => (d.at_ true, d.files .key)) = some (.returned .kept, some []) ∧
      Always (step fun _ => [1]) (SettledFrom (fun _ => [1]) · fun _ => none) (start fun _ => none)
        overlappingProcesses ∧
      Always (step fun _ => [1]) (fun d => d.files = fun _ => some []) (start fun _ => some [])
        [(true, true), (false, false), (true, true)] := by
  refine ⟨by decide, ?_, ?_⟩
  · exact (certificates_settle (fun _ => [1]) (fun _ => none) overlappingProcesses).2
      (fun exist => absurd (exist .cert) (by decide)) (streams_work (by decide) _)
  · exact (certificates_settle (fun _ => [1]) (fun _ => some []) _).1 fun _ => rfl

end Directory

end Koisyn.Session
