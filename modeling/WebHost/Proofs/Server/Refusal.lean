import WebHost.Proofs.Server.Safety

/-!
# Rejected operations

An operation that the state of a server forbids is rejected with its own reason, and so is a start
whose secure connections cannot be set up. Every check comes before the first change, so a rejected
operation leaves the server as it was and nothing is logged. Only what the caller of a start has read
before is used up. Options fail one by one, so an option may fail with the reason of a started server
although the server is not started; other options have changed the settings then, and that failure is
the option's own and no rejection.
-/

set_option autoImplicit false

namespace WebHost

namespace Server

/-! ## Operations and their answers -/

/-- The error of an operation that failed. -/
def errorOf {α : Type} : Except ServerError α → Option ServerError
  | .ok _ => none
  | .error error => some error

/-- The error that an operation answers with. -/
def failure? (s : Server) : Step → Option ServerError
  | .configure vault options => (s.configure vault options).2
  | .start vault entry => errorOf (s.start vault entry).2
  | .startChosen vault caller =>
    match s.choices[caller]? with
    | some (some secure) =>
      errorOf ({ s with choices := s.choices.set caller none }.start vault (Entry.choose secure)).2
    | _ => none
  | .beginShutdown allowed => errorOf (s.beginShutdown allowed).2
  | .close => s.close.2
  | .choose | .run .. => none

namespace Step

/-- The reason with which a state refuses an operation. -/
def refusal? : Step → Option Refusal
  | .configure .. => some .alreadyStarted
  | .start .. | .startChosen .. => some .unableToStart
  | .beginShutdown _ => some .unableToShutdown
  | .close => some .unableToClose
  | .choose | .run .. => none

/-- Whether a state allows an operation. -/
def isAllowedIn (state : ServerState) : Step → Bool
  | .configure .. => state ≠ .started
  | .start .. | .startChosen .. => state.mayStart
  | .beginShutdown _ | .close => state = .started
  | .choose | .run .. => true

/-- Whether an operation is a start. -/
def isStart : Step → Bool
  | .start .. | .startChosen .. => true
  | _ => false

/-- Whether an error rejects an operation in a state: the refusal of a state, for options that of a
started server, or what a start of secure connections lacks. -/
def IsRejectedBy (state : ServerState) (a : Step) : ServerError → Prop
  | .invalidState refusal _ =>
    match a with
    | .configure .. => refusal = .alreadyStarted ∧ state = .started
    | _ => True
  | .tls _ => a.isStart = true
  | _ => False

end Step

/-- Two moments between which nothing happened to a server. -/
structure IsUntouched (s s' : Server) : Prop where
  state : s'.state = s.state
  settings : s'.settings = s.settings
  running : s'.running = s.running
  runs : s'.runs = s.runs
  events : s'.events = s.events

/-- Nothing has happened to a server that is as it was. -/
theorem IsUntouched.refl (s : Server) : IsUntouched s s := ⟨rfl, rfl, rfl, rfl, rfl⟩

/-- What an error tells about a rejected operation: the reason of the operation and the state that
forbade it, or, in a state that allows the start, what secure connections lack. -/
def IsExplained (s : Server) (a : Step) (error : ServerError) : Prop :=
  (∃ refusal, a.refusal? = some refusal ∧ error = .invalidState refusal s.state ∧
    a.isAllowedIn s.state = false) ∨
  ∃ lack, a.isStart = true ∧ error = .tls lack ∧ a.isAllowedIn s.state = true

section Rejected

variable {s : Server} {error : ServerError}

/-- A start that fails has changed nothing. -/
theorem start_failed {vault : Vault} {e : Entry} (h : errorOf (s.start vault e).2 = some error) :
    (s.start vault e).1 = s ∧
      (error = .invalidState .unableToStart s.state ∧ s.state.mayStart = false ∨
        ∃ lack, error = .tls lack ∧ s.state.mayStart = true) := by
  unfold start at h ⊢
  cases hmay : s.state.mayStart with
  | false =>
    simp only [hmay, Bool.not_false, if_true] at h ⊢
    obtain rfl := Option.some.inj h
    exact ⟨trivial, .inl ⟨rfl, trivial⟩⟩
  | true =>
    simp only [hmay, Bool.not_true, Bool.false_eq_true, if_false] at h ⊢
    cases hacceptor : e.acceptor vault s.settings with
    | error lack =>
      rw [hacceptor] at h
      obtain rfl := Option.some.inj h
      exact ⟨rfl, .inr ⟨lack, rfl, trivial⟩⟩
    | ok acceptor =>
      rw [hacceptor] at h
      exact absurd h (by simp [errorOf])

/-- Options that are rejected are not applied. -/
theorem configure_rejected {vault : Vault} {options : List ServerOption}
    (h : (s.configure vault options).2 = some error)
    (hrejected : (Step.configure vault options).IsRejectedBy s.state error) :
    (s.configure vault options).1 = s ∧ error = .invalidState .alreadyStarted s.state ∧
      s.state = .started := by
  cases error with
  | invalidState refusal state =>
    obtain ⟨rfl, hstate⟩ : refusal = .alreadyStarted ∧ s.state = .started := hrejected
    unfold configure at h ⊢
    rw [if_pos hstate] at h ⊢
    exact ⟨rfl, (Option.some.inj h).symm, hstate⟩
  | tls lack => exact absurd hrejected (by simp [Step.IsRejectedBy, Step.isStart])
  | _ => exact hrejected.elim

/-- In a sound life a server without a run to stop is not started. -/
theorem state_of_startedRun?_eq_none (hsound : s.life.IsSound) (h : s.startedRun? = none) :
    s.state ≠ .started := by
  intro hstate
  have hrunning : s.running = none := by simpa [startedRun?, hstate] using h
  have hunstarted : s.state = .unstarted := hsound.unstarted_iff.mpr hrunning
  exact absurd (hstate.symm.trans hunstarted) (by decide)

/-- A shutdown that fails changes nothing, names the state it found and found no started run. -/
theorem beginShutdown_failed {allowed : Option Duration}
    (h : errorOf (s.beginShutdown allowed).2 = some error) :
    (s.beginShutdown allowed).1 = s ∧ error = .invalidState .unableToShutdown s.state ∧
      s.startedRun? = none := by
  cases hn : s.startedRun? with
  | none =>
    simp only [beginShutdown, hn] at h ⊢
    exact ⟨trivial, (Option.some.inj h).symm, trivial⟩
  | some n =>
    simp only [beginShutdown, hn] at h
    exact absurd h (by simp [errorOf])

/-- A close that fails changes nothing, names the state it found and found no started run. -/
theorem close_failed (h : s.close.2 = some error) :
    s.close.1 = s ∧ error = .invalidState .unableToClose s.state ∧ s.startedRun? = none := by
  cases hn : s.startedRun? with
  | none =>
    simp only [close, hn] at h ⊢
    exact ⟨trivial, (Option.some.inj h).symm, trivial⟩
  | some n =>
    simp only [close, hn] at h
    exact absurd h (by simp)

/-- A rejected operation in a sound life. -/
theorem untouched_of_rejected {a : Step} (hsound : s.life.IsSound)
    (h : s.failure? a = some error) (hrejected : a.IsRejectedBy s.state error) :
    IsUntouched s (s.step a) ∧ IsExplained s a error := by
  cases a with
  | configure vault options =>
    obtain ⟨hsame, herror, hstate⟩ := configure_rejected h hrejected
    rw [step, hsame]
    exact ⟨.refl s, .inl ⟨_, rfl, herror, by simp [Step.isAllowedIn, hstate]⟩⟩
  | start vault e =>
    obtain ⟨hsame, herror⟩ := start_failed h
    rw [step, hsame]
    refine ⟨.refl s, ?_⟩
    rcases herror with ⟨herror, hmay⟩ | ⟨lack, herror, hmay⟩
    · exact .inl ⟨_, rfl, herror, hmay⟩
    · exact .inr ⟨lack, rfl, herror, hmay⟩
  | startChosen vault caller =>
    rcases hc : s.choices[caller]? with _ | _ | secure
    case none | some.none => simp [failure?, hc] at h
    case some.some =>
      simp only [failure?, hc] at h
      obtain ⟨hsame, herror⟩ := start_failed h
      simp only [step, hc]
      rw [hsame]
      refine ⟨⟨rfl, rfl, rfl, rfl, rfl⟩, ?_⟩
      rcases herror with ⟨herror, hmay⟩ | ⟨lack, herror, hmay⟩
      · exact .inl ⟨_, rfl, herror, hmay⟩
      · exact .inr ⟨lack, rfl, herror, hmay⟩
  | beginShutdown allowed =>
    obtain ⟨hsame, herror, hnone⟩ := beginShutdown_failed h
    have hstate := state_of_startedRun?_eq_none hsound hnone
    rw [step, hsame]
    exact ⟨.refl s, .inl ⟨_, rfl, herror, by simp [Step.isAllowedIn, hstate]⟩⟩
  | close =>
    obtain ⟨hsame, herror, hnone⟩ := close_failed h
    have hstate := state_of_startedRun?_eq_none hsound hnone
    rw [step, hsame]
    exact ⟨.refl s, .inl ⟨_, rfl, herror, by simp [Step.isAllowedIn, hstate]⟩⟩
  | choose | run => simp [failure?] at h

end Rejected

/-! ## Every rejection -/

/-- A fresh server is sound. -/
theorem isSound_fresh (settings : Settings) : ({ settings } : Server).life.IsSound :=
  ⟨by simp [life], by simp [life], by simp [life]⟩

/-- Whatever was done to a server before, an operation that is rejected changes nothing of its state,
its settings and its runs and logs nothing, and the error tells the reason of the operation and the
state that the server is in. -/
theorem rejected_changes_nothing (settings : Settings) (l : List Step) {a : Step}
    {error : ServerError} (h : (({ settings } : Server).steps l).failure? a = some error)
    (hrejected : a.IsRejectedBy (({ settings } : Server).steps l).state error) :
    IsUntouched (({ settings } : Server).steps l) (({ settings } : Server).steps (l ++ [a])) ∧
      IsExplained (({ settings } : Server).steps l) a error := by
  have hsound := (isSound_fresh settings).steps l
  rw [steps_concat]
  exact untouched_of_rejected hsound h hrejected

/-- A start of secure connections without a certificate, and options for a started server. -/
theorem rejected_start_and_options :
    (({} : Server).failure? (.start {} (.listenSecure "" "")) = some (.tls .noCertificates) ∧
      (Step.start {} (.listenSecure "" "")).IsRejectedBy .unstarted (.tls .noCertificates) ∧
      IsUntouched {} (({} : Server).steps [.start {} (.listenSecure "" "")])) ∧
    ((({} : Server).steps [.start {} .serve]).failure? (.configure {} [.name "late"]) =
        some (.invalidState .alreadyStarted .started) ∧
      (Step.configure {} [.name "late"]).IsRejectedBy .started
        (.invalidState .alreadyStarted .started) ∧
      IsUntouched (({} : Server).steps [.start {} .serve])
        (({} : Server).steps [.start {} .serve, .configure {} [.name "late"]])) := by
  have hlack : (Step.start {} (.listenSecure "" "")).IsRejectedBy .unstarted
      (.tls .noCertificates) := rfl
  have hlate : (Step.configure {} [.name "late"]).IsRejectedBy .started
      (.invalidState .alreadyStarted .started) := ⟨rfl, rfl⟩
  exact ⟨⟨rfl, hlack, (rejected_changes_nothing {} [] rfl hlack).1⟩,
    rfl, hlate, (rejected_changes_nothing {} [.start {} .serve] rfl hlate).1⟩

/-- An option that fails with the reason of a started server in one that is not started: the option
before it stays applied. -/
theorem changed_by_failing_option :
    let options : List ServerOption :=
      [.name "changed", .custom fun _ s => (s, some (.invalidState .alreadyStarted .closed))]
    ({} : Server).failure? (.configure {} options) =
        some (.invalidState .alreadyStarted .closed) ∧
      ¬ IsUntouched {} (({} : Server).steps [.configure {} options]) := by
  refine ⟨rfl, fun h => ?_⟩
  have hname : "changed" = "" := congrArg Settings.name h.settings
  exact absurd hname (by decide)

end Server

end WebHost
