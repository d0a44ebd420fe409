import Mathlib.Tactic.SplitIfs
import WebHost.Cli.Program
import WebHost.Proofs.Control.Except
import WebHost.Proofs.Server.Counting
import WebHost.Proofs.Server.Safety

/-!
# Asking for verified clients

A configuration may ask that every client shows a certificate. The wish travels with the files of
the section on certificates: it is part of the option that takes up a certificate and its key. If a
pair is named, whoever starts the server by its settings serves secure connections only, and no
client gets by without a certificate. If none is named, or one whose names are both empty, the wish
is lost on the way: nothing fails, and the server starts with plain connections.
-/

set_option autoImplicit false

namespace WebHost

/-! ## What taking up files leaves in a profile -/

namespace TlsProfile

variable {p p' : TlsProfile} {vault : Vault}

/-- Roots that are added are some, and nothing else changes. -/
theorem addRoots_eq_ok {path : String} (h : p.addRoots vault path = .ok p') :
    ∃ roots, roots ≠ [] ∧ p' = { p with clientRoots := p.clientRoots ++ roots } := by
  unfold addRoots at h
  obtain ⟨data, -, h⟩ := Except.bind_eq_ok_iff.mp h
  dsimp only at h
  split_ifs at h with hempty
  exact ⟨_, by simpa using hempty, (Except.ok.inj h).symm⟩

/-- Files that are taken up add roots if they name a file for them. -/
theorem exists_roots_of_elim {file : Option String}
    (h : file.elim (.ok p) (p.addRoots vault) = .ok p') :
    ∃ roots, (roots = [] ↔ file = none) ∧ p' = { p with clientRoots := p.clientRoots ++ roots } := by
  cases file with
  | none => exact ⟨[], by simp, by simpa using (Except.ok.inj h).symm⟩
  | some path =>
    obtain ⟨roots, hsome, hp⟩ := addRoots_eq_ok h
    exact ⟨roots, by simp [hsome], hp⟩

/-- The first source that names something is kept for later; one that names nothing is passed
over. -/
theorem take_eq_ok {source : KeySource} (hsupply : p.supply = none)
    (h : p.take vault source = .ok p') :
    p' = if source.isEmpty then p else { p with supply := some (.loader source) } := by
  unfold take at h
  split_ifs at h ⊢ with hempty hnone
  · exact (Except.ok.inj h).symm
  · exact (Except.ok.inj h).symm
  · simp [hsupply] at hnone

/-- Files that ask for verified clients, when they are taken up without an error: the profile asks
for them as well, and it has something to show exactly if the pair names something. -/
theorem takeFiles_of_verify {f : TlsFiles} {certificate key : String}
    (hsupply : p.supply = none) (hcertificates : p.certificates = [])
    (hcertificate : f.certificateFile = some certificate) (hkey : f.keyFile = some key)
    (hverify : f.verifyClient = true) (h : p.takeFiles vault f = (p', none)) :
    p'.clientAuth = .requireAndVerify ∧ p'.skipVerify = f.skipVerify ∧
      (p'.hasCertificates = true ↔ ¬ (certificate = "" ∧ key = "")) := by
  unfold takeFiles at h
  cases hroots : f.rootFile.elim (.ok p) (p.addRoots vault) with
  | error e => simp [hroots] at h
  | ok q =>
    obtain ⟨roots, -, rfl⟩ := exists_roots_of_elim hroots
    simp only [hroots, hcertificate, hkey, hverify, if_true] at h
    unfold keep at h
    split at h
    · rename_i q htake
      have hq := take_eq_ok (by exact hsupply) htake
      obtain rfl : q = p' := congrArg Prod.fst h
      split_ifs at hq with hempty
      · have hnames : certificate = "" ∧ key = "" := by
          simpa [KeySource.isEmpty] using hempty
        simp [hq, hasCertificates, hsupply, hcertificates, hnames]
      · have hnames : ¬ (certificate = "" ∧ key = "") := by
          simpa [KeySource.isEmpty] using hempty
        simp only [hq, hasCertificates, Option.isSome_some, Bool.or_true, true_iff, true_and]
        exact hnames
    · simp at h

/-- What is built asks clients for certificates if the profile does and no check is skipped. -/
theorem needsClient_build {a : TlsAcceptor} (h : p.build = .ok a) :
    a.needsClient = (decide (p.clientAuth = .requireAndVerify) && !p.skipVerify) := by
  rw [eq_of_build h]

end TlsProfile

namespace Settings

/-- A secure start asks clients for certificates as the profile of the settings says. -/
theorem needsClient_acceptor {s : Settings} {p : TlsProfile} {vault : Vault}
    {certificate key : String} {a : TlsAcceptor} (htls : s.tls = some p)
    (h : s.acceptor vault certificate key = .ok a) :
    a.needsClient = (decide (p.clientAuth = .requireAndVerify) && !p.skipVerify) := by
  unfold acceptor at h
  obtain ⟨found, -, h⟩ := Except.bind_eq_ok_iff.mp h
  simp only [tlsOrStandard, htls, Option.getD_some] at h
  have hneeds := TlsProfile.needsClient_build h
  cases found <;> exact hneeds

/-! ## The options of a configuration -/

/-- Options in a row are applied like the first of them and then the others. -/
theorem applyEach_append (vault : Vault) (s : Settings) (first second : List ServerOption) :
    s.applyEach vault (first ++ second) =
      (((s.applyEach vault first).1.applyEach vault second).1,
        (s.applyEach vault first).2 ++ ((s.applyEach vault first).1.applyEach vault second).2) := by
  induction first generalizing s with
  | nil => simp [applyEach]
  | cons option first ih => simp [applyEach, ih]

/-- An option that has nothing to do with secure connections and cannot fail. -/
def IsOrdinary : ServerOption → Prop
  | .name _ | .address _ | .port _ | .limits _ => True
  | _ => False

/-- Ordinary options leave the profile alone, and none of them fails. -/
theorem applyEach_ordinary (vault : Vault) (s : Settings) {options : List ServerOption}
    (h : ∀ option ∈ options, IsOrdinary option) :
    (s.applyEach vault options).1.tls = s.tls ∧ (s.applyEach vault options).2 = [] := by
  induction options generalizing s with
  | nil => exact ⟨rfl, rfl⟩
  | cons option rest ih =>
    have hone : (s.applyOne vault option).1.tls = s.tls ∧ (s.applyOne vault option).2 = none := by
      have hordinary := h option (List.mem_cons_self ..)
      cases option with
      | name | address | port | limits => exact ⟨rfl, rfl⟩
      | _ => exact absurd hordinary not_false
    obtain ⟨htls, herrors⟩ := ih (s.applyOne vault option).1
      fun o ho => h o (List.mem_cons_of_mem _ ho)
    rw [applyEach]
    exact ⟨htls.trans hone.1, by simp [hone.2, herrors]⟩

end Settings

namespace HostConfig

/-- The options of a configuration: those for the server come first, then the one for the files. -/
theorem serverOptions_eq_append {c : HostConfig} {options : List ServerOption}
    (h : c.serverOptions = .ok options) :
    ∃ ordinary, (∀ option ∈ ordinary, Settings.IsOrdinary option) ∧
      options = ordinary ++ if c.tls.isEmpty then [] else [.tlsFiles c.tls.files] := by
  unfold serverOptions at h
  split at h
  · simp at h
  rename_i port hport
  refine ⟨_, ?_, (Except.ok.inj h).symm⟩
  intro option hoption
  simp only [List.mem_append] at hoption
  rcases hoption with ((hname | haddress) | hport) | hlimits
  · split_ifs at hname <;> simp_all [Settings.IsOrdinary]
  · split_ifs at haddress <;> simp_all [Settings.IsOrdinary]
  · cases port <;> simp_all [Settings.IsOrdinary]
  · split_ifs at hlimits <;> simp_all [Settings.IsOrdinary]

/-- A new server after the options of a configuration, if none of them fails. It has a profile only
if a certificate and a key are named, and then it took up the files. -/
theorem eq_of_configure {c : HostConfig} {vault : Vault} {options : List ServerOption}
    {s : Server} (hoptions : c.serverOptions = .ok options)
    (h : ({} : Server).configure vault options = (s, none)) :
    s = { settings := s.settings } ∧
      if c.tls.files.hasKeyPair then
        ∃ p, s.settings.tls = some p ∧ TlsProfile.standard.takeFiles vault c.tls.files = (p, none)
      else s.settings.tls = none := by
  obtain ⟨ordinary, hordinary, rfl⟩ := serverOptions_eq_append hoptions
  unfold Server.configure Settings.apply at h
  rw [if_neg (by simp), Settings.applyEach_append] at h
  obtain ⟨htls, herrors⟩ := Settings.applyEach_ordinary vault {} hordinary
  rw [herrors, List.nil_append] at h
  generalize ((({} : Server).settings).applyEach vault ordinary).1 = settings at h htls
  obtain ⟨rfl, hnone⟩ := Prod.mk.inj h
  refine ⟨rfl, ?_⟩
  by_cases hpair : c.tls.files.hasKeyPair = true
  · have hfiles : c.tls.isEmpty = false := by
      simp only [TlsFiles.hasKeyPair, TlsSection.files, Bool.and_eq_true] at hpair
      simp [TlsSection.isEmpty, Option.isNone_eq_false_iff.mpr hpair.1]
    have hstandard : settings.tlsOrStandard = .standard := by
      rw [Settings.tlsOrStandard, htls]
      rfl
    rw [if_pos hpair]
    simp only [hfiles, Bool.false_eq_true, if_false, Settings.applyEach, Settings.applyOne,
      Settings.applyLeaf, hpair, Bool.not_true, hstandard, List.append_nil] at hnone ⊢
    refine ⟨_, rfl, ?_⟩
    cases htake : TlsProfile.standard.takeFiles vault c.tls.files with
    | mk p error =>
      cases error with
      | none => rfl
      | some e => simp [htake, ServerError.collapse] at hnone
  · rw [if_neg hpair]
    split_ifs
    · exact htls
    · simpa [Settings.applyEach, Settings.applyOne, Settings.applyLeaf, hpair] using htls

end HostConfig

/-- A certificate and a key are named, and not both by the empty text. -/
def TlsSection.NamesPair (t : TlsSection) : Prop :=
  ∃ certificate key, t.certificateFile = some certificate ∧ t.keyFile = some key ∧
    ¬ (certificate = "" ∧ key = "")

/-! ## Runs that verify clients -/

namespace Run

variable {r : Run}

/-- A run that serves secure connections only, none of them without a certificate of the client. -/
structure VerifiesClients (r : Run) : Prop where
  acceptor : ∃ a, r.acceptor = some a ∧ a.needsClient = true
  secure : ∀ c ∈ r.connections, c.secure = true

/-- What a run does on its way out leaves alone what accepts its connections. -/
theorem acceptor_bid (r : Run) (duty : Farewell) : (r.bid duty).acceptor = r.acceptor := by
  cases duty <;> rfl

/-- What accepts the connections of a run stays the same. -/
theorem acceptor_step (r : Run) (a : Step) : (r.step a).acceptor = r.acceptor := by
  cases a with
  | connection number connectionStep =>
    simp only [step, stepConnection]
    split <;> rfl
  | drain call drainStep =>
    simp only [step, stepDrain]
    repeat' split
    all_goals rfl
  | drop =>
    simp only [step, drop]
    split <;> rfl
  | farewell =>
    simp only [step]
    split
    case h_2 | h_4 => exact r.acceptor_bid _
    all_goals rfl
  | proceed | bind | accept | failAccept | notice | record =>
    simp only [step]
    repeat' split
    all_goals rfl
  | beginDrain | close => rfl

/-- A connection after a step was there before it, or has just been accepted. -/
theorem mem_connections_step {a : Step} {c' : Connection} (h : c' ∈ (r.step a).connections) :
    (∃ c ∈ r.connections, c'.secure = c.secure) ∨ c'.secure = r.isSecure := by
  obtain ⟨number, hc'⟩ := List.mem_iff_getElem?.mp h
  rcases (r.step_tally a).connection hc' with ⟨c, _, hc, hmove⟩ | ⟨-, remote, rfl⟩
  · exact .inl ⟨c, List.mem_of_getElem? hc, hmove.secure_eq⟩
  · exact .inr rfl

/-- A run that verifies its clients goes on to do so. -/
theorem VerifiesClients.step (h : r.VerifiesClients) (a : Step) : (r.step a).VerifiesClients := by
  obtain ⟨acceptor, hacceptor, hneeds⟩ := h.acceptor
  refine ⟨⟨acceptor, (r.acceptor_step a).trans hacceptor, hneeds⟩, ?_⟩
  intro c hc
  rcases mem_connections_step hc with ⟨c', hc', hsecure⟩ | hsecure
  · exact hsecure.trans (h.secure c' hc')
  · rw [hsecure, isSecure, hacceptor, Option.isSome_some]

end Run

/-! ## Servers that verify clients -/

namespace Server

/-- A step that leaves the options alone and starts no run with plain connections of its own accord.
Starting by the settings is among these steps. -/
def Step.LeavesTls : Step → Prop
  | .configure _ _ => False
  | .start _ e => e.secure?.isSome = true
  | _ => True

/-- A server that has clients verified: its profile says so, and whatever happens as long as the
options are left alone, all of its runs do so. -/
structure VerifiesClients (s : Server) : Prop where
  profile : ∃ p, s.settings.tls = some p ∧ p.clientAuth = .requireAndVerify ∧ p.skipVerify = false
  runs : ∀ l : List Step, (∀ a ∈ l, a.LeavesTls) → ∀ r ∈ (s.steps l).runs, r.VerifiesClients

/-- A server whose settings ask for verified clients and can be kept to, with all that was derived
from them. -/
structure IsGuarded (s : Server) : Prop where
  profile : ∃ p, s.settings.tls = some p ∧ p.hasCertificates = true ∧
    p.clientAuth = .requireAndVerify ∧ p.skipVerify = false
  choices : ∀ (caller : Nat) (secure : Bool), s.choices[caller]? = some (some secure) → secure = true
  runs : ∀ r ∈ s.runs, r.VerifiesClients

section Steps

variable {s : Server} {a : Step}

/-- To record how a run ended leaves settings and choices alone. -/
theorem settings_finish (s : Server) (n : Nat) (error : ServerError) :
    (s.finish n error).settings = s.settings ∧ (s.finish n error).choices = s.choices := by
  unfold finish
  split_ifs <;> exact ⟨rfl, rfl⟩

/-- To record the end of a shutdown leaves settings and choices alone. -/
theorem settings_markClosed (s : Server) (n : Nat) :
    (s.markClosed n).settings = s.settings ∧ (s.markClosed n).choices = s.choices := by
  unfold markClosed
  split_ifs <;> exact ⟨rfl, rfl⟩

/-- A step of a run leaves settings and choices alone. -/
theorem settings_stepRun (s : Server) (n : Nat) (b : Run.Step) :
    (s.stepRun n b).settings = s.settings ∧ (s.stepRun n b).choices = s.choices := by
  cases hr : s.runs[n]? with
  | none => simp only [stepRun, hr, and_self]
  | some r =>
    simp only [stepRun, hr]
    split
    · split <;> exact ⟨rfl, rfl⟩
    · split
      · exact settings_finish _ _ _
      · exact ⟨rfl, rfl⟩
    · split
      · exact settings_markClosed _ _
      · exact ⟨rfl, rfl⟩
    all_goals exact ⟨rfl, rfl⟩

/-- A step that begins no run and leaves settings and choices alone keeps a server guarded. -/
theorem IsGuarded.of_unchanged (h : s.IsGuarded) (hbegun : s.begun? a = none)
    (hsettings : (s.step a).settings = s.settings) (hchoices : (s.step a).choices = s.choices) :
    (s.step a).IsGuarded := by
  refine ⟨by rw [hsettings]; exact h.profile, by rw [hchoices]; exact h.choices, ?_⟩
  intro r' hmem
  obtain ⟨n, hr'⟩ := List.getElem?_of_mem hmem
  have hlength : (s.step a).runs.length = s.runs.length := by
    rcases (step_effect s a).begun with ⟨hsome, -, -⟩ | ⟨-, -, hlength⟩
    · simp [hbegun] at hsome
    · exact hlength
  have hr := List.getElem?_eq_getElem (hlength ▸ (List.getElem?_eq_some_iff.mp hr').1)
  obtain ⟨r'', hr'', hstep⟩ := exists_run_step hr a
  obtain rfl : r' = r'' := Option.some.inj (hr'.symm.trans hr'')
  have hverifies := h.runs _ (List.mem_of_getElem? hr)
  rcases hstep with hkept | ⟨b, hmoved, -⟩
  · rwa [hkept]
  · rw [hmoved]
    exact hverifies.step b

/-- A guarded server that starts with secure connections stays guarded. -/
theorem IsGuarded.start (h : s.IsGuarded) (vault : Vault) {e : Entry}
    (he : e.secure?.isSome = true) : (s.start vault e).1.IsGuarded := by
  obtain ⟨p, htls, hcertificates, hauth, hskip⟩ := h.profile
  obtain ⟨⟨certificate, key⟩, hsecure⟩ := Option.isSome_iff_exists.mp he
  unfold Server.start
  split_ifs with hmay
  · exact h
  cases hacceptor : s.settings.acceptor vault certificate key with
  | error error =>
    simp only [Entry.acceptor, hsecure, hacceptor, Except.map]
    exact h
  | ok acceptor =>
    simp only [Entry.acceptor, hsecure, hacceptor, Except.map]
    have hneeds : acceptor.needsClient = true := by
      rw [Settings.needsClient_acceptor htls hacceptor]
      simp [hauth, hskip]
    refine ⟨⟨p, htls, hcertificates, hauth, hskip⟩, h.choices, ?_⟩
    intro r hr
    rcases List.mem_append.mp hr with hold | hnew
    · exact h.runs r hold
    · rw [List.mem_singleton.mp hnew]
      exact ⟨⟨acceptor, rfl, hneeds⟩, by simp [newRun]⟩

/-- A guarded server stays guarded by every step that leaves its profile alone. -/
theorem IsGuarded.step (h : s.IsGuarded) (ha : a.LeavesTls) : (s.step a).IsGuarded := by
  cases a with
  | configure vault options => exact absurd ha not_false
  | start vault e => exact h.start vault ha
  | choose =>
    -- whoever looks at guarded settings chooses secure connections
    obtain ⟨p, htls, hcertificates, -⟩ := h.profile
    refine ⟨h.profile, ?_, h.runs⟩
    intro caller secure hcaller
    simp only [Server.step, List.getElem?_append] at hcaller
    split at hcaller
    · exact h.choices caller secure hcaller
    · have huses : s.settings.usesTls = true := by simp [Settings.usesTls, htls, hcertificates]
      rw [huses, List.getElem?_singleton] at hcaller
      split at hcaller
      · simpa using hcaller.symm
      · simp at hcaller
  | startChosen vault caller =>
    cases hchoice : s.choices[caller]? with
    | none => simpa only [Server.step, hchoice] using h
    | some choice =>
      cases choice with
      | none => simpa only [Server.step, hchoice] using h
      | some secure =>
        obtain rfl := h.choices caller secure hchoice
        simp only [Server.step, hchoice]
        have hnext : { s with choices := s.choices.set caller none }.IsGuarded := by
          refine ⟨h.profile, ?_, h.runs⟩
          intro caller' secure hcaller
          rw [List.getElem?_set] at hcaller
          split_ifs at hcaller
          · simp at hcaller
          · exact h.choices caller' secure hcaller
        exact hnext.start vault rfl
  | beginShutdown allowed =>
    refine h.of_unchanged rfl ?_ ?_ <;>
    · simp only [Server.step, beginShutdown]
      split <;> rfl
  | close =>
    refine h.of_unchanged rfl ?_ ?_ <;>
    · simp only [Server.step, Server.close]
      split <;> rfl
  | run n b =>
    obtain ⟨hsettings, hchoices⟩ := s.settings_stepRun n b
    exact h.of_unchanged rfl hsettings hchoices

/-- A guarded server stays guarded while its profile is left alone. -/
theorem IsGuarded.steps (h : s.IsGuarded) {l : List Step} (hl : ∀ a ∈ l, a.LeavesTls) :
    (s.steps l).IsGuarded := by
  induction l generalizing s with
  | nil => exact h
  | cons a l ih =>
    have hstep := h.step (hl a (List.mem_cons_self ..))
    exact ih hstep fun b hb => hl b (List.mem_cons_of_mem a hb)

/-- A guarded server verifies its clients. -/
theorem IsGuarded.verifiesClients (h : s.IsGuarded) : s.VerifiesClients := by
  obtain ⟨p, htls, -, hauth, hskip⟩ := h.profile
  exact ⟨⟨p, htls, hauth, hskip⟩, fun l hl => (h.steps hl).runs⟩

end Steps

/-- Without anything to show, a start by the settings serves plain connections. -/
theorem plain_run_of_not_usesTls {settings : Settings} (h : settings.usesTls = false)
    (vault : Vault) :
    ∃ r, (({ settings } : Server).steps [.choose, .startChosen vault 0]).runs = [r] ∧
      r.acceptor = none := by
  refine ⟨({ settings } : Server).newRun .listen none, ?_, rfl⟩
  simp [steps, step, h, start, Entry.choose, Entry.acceptor, Entry.secure?,
    ServerState.mayStart, tell, newRun]

/-! ## From the configuration to the runs -/

section Configured

variable {c : HostConfig} {vault : Vault} {options : List ServerOption} {s : Server}

/-- A configuration that asks for verified clients and names a pair gets them verified. -/
theorem isGuarded_of_namesPair (hverify : c.tls.verifyClient = true)
    (hskip : c.tls.skipVerify = false) (hoptions : c.serverOptions = .ok options)
    (hconfigure : ({} : Server).configure vault options = (s, none)) (hpair : c.tls.NamesPair) :
    s.IsGuarded := by
  obtain ⟨hfresh, htls⟩ := HostConfig.eq_of_configure hoptions hconfigure
  obtain ⟨certificate, key, hcertificate, hkey, hnames⟩ := hpair
  have hboth : c.tls.files.hasKeyPair = true := by
    simp [TlsFiles.hasKeyPair, TlsSection.files, hcertificate, hkey]
  rw [if_pos hboth] at htls
  obtain ⟨p, hprofile, htake⟩ := htls
  obtain ⟨hauth, hskip', hshow⟩ :=
    TlsProfile.takeFiles_of_verify rfl rfl hcertificate hkey hverify htake
  refine ⟨⟨p, hprofile, hshow.mpr hnames, hauth, hskip'.trans hskip⟩, ?_, ?_⟩
  · rw [hfresh]
    simp
  · rw [hfresh]
    simp

/-- One that names no pair leaves the server without anything to show. -/
theorem not_usesTls_of_not_namesPair (hverify : c.tls.verifyClient = true)
    (hoptions : c.serverOptions = .ok options)
    (hconfigure : ({} : Server).configure vault options = (s, none)) (hpair : ¬ c.tls.NamesPair) :
    s.settings.usesTls = false := by
  obtain ⟨-, htls⟩ := HostConfig.eq_of_configure hoptions hconfigure
  by_cases hboth : c.tls.files.hasKeyPair = true
  · rw [if_pos hboth] at htls
    obtain ⟨p, hprofile, htake⟩ := htls
    rw [TlsFiles.hasKeyPair, Bool.and_eq_true] at hboth
    obtain ⟨certificate, hcertificate⟩ := Option.isSome_iff_exists.mp hboth.1
    obtain ⟨key, hkey⟩ := Option.isSome_iff_exists.mp hboth.2
    obtain ⟨-, -, hshow⟩ :=
      TlsProfile.takeFiles_of_verify rfl rfl hcertificate hkey hverify htake
    have hnothing : p.hasCertificates = false := by
      apply Bool.eq_false_iff.mpr
      intro hsome
      exact hpair ⟨certificate, key, hcertificate, hkey, hshow.mp hsome⟩
    simp [Settings.usesTls, hprofile, hnothing]
  · rw [if_neg hboth] at htls
    simp [Settings.usesTls, htls]

/-- A new server with a configuration that asks for verified clients, none of its options having
failed, has clients verified exactly if the configuration names a pair. Otherwise whoever starts it
by its settings serves plain connections. -/
theorem verifiesClients_iff (hverify : c.tls.verifyClient = true)
    (hskip : c.tls.skipVerify = false) (hoptions : c.serverOptions = .ok options)
    (hconfigure : ({} : Server).configure vault options = (s, none)) :
    (s.VerifiesClients ↔ c.tls.NamesPair) ∧
      (¬ c.tls.NamesPair → ∀ later, ∃ r,
        (s.steps [.choose, .startChosen later 0]).runs = [r] ∧ r.acceptor = none) := by
  obtain ⟨hfresh, -⟩ := HostConfig.eq_of_configure hoptions hconfigure
  have hplain (hpair : ¬ c.tls.NamesPair) (later : Vault) : ∃ r,
      (s.steps [.choose, .startChosen later 0]).runs = [r] ∧ r.acceptor = none := by
    rw [hfresh]
    exact plain_run_of_not_usesTls
      (not_usesTls_of_not_namesPair hverify hoptions hconfigure hpair) later
  refine ⟨⟨fun hverifies => ?_, fun hpair => ?_⟩, hplain⟩
  · by_contra hpair
    obtain ⟨r, hruns, hacceptor⟩ := hplain hpair {}
    have hleaves : ∀ a ∈ ([.choose, .startChosen {} 0] : List Step), a.LeavesTls := by
      simp [Step.LeavesTls]
    obtain ⟨a, ha, -⟩ := (hverifies.runs _ hleaves r (by rw [hruns]; simp)).acceptor
    rw [hacceptor] at ha
    exact absurd ha (by simp)
  · exact (isGuarded_of_namesPair hverify hskip hoptions hconfigure hpair).verifiesClients

end Configured

/-- A configuration that asks for verified clients and names a pair. -/
def guarded : HostConfig :=
  { tls := { certificateFile := some "cert.pem", keyFile := some "key.pem", verifyClient := true } }

/-- A configuration with a certificate of its own and a root for those of clients. -/
theorem verifiesClients_guarded :
    guarded.validate = .ok () ∧ guarded.serverOptions = .ok [.tlsFiles guarded.tls.files] ∧
      ∃ s, ({} : Server).configure {} [.tlsFiles guarded.tls.files] = (s, none) ∧
        s.VerifiesClients := by
  have hpair : guarded.tls.NamesPair := ⟨"cert.pem", "key.pem", rfl, rfl, by decide⟩
  have hoptions : guarded.serverOptions = .ok [.tlsFiles guarded.tls.files] := rfl
  have hconfigure : ({} : Server).configure {} [.tlsFiles guarded.tls.files] = (_, none) := rfl
  exact ⟨rfl, hoptions, _, hconfigure, (verifiesClients_iff rfl rfl hoptions hconfigure).1.mpr hpair⟩

/-- The configuration of a program that is told the roots of its clients, and of no pair. -/
def unguarded : HostConfig := ({ values := [(.roots, "ca.pem")] } : CommandLine).amend {}

/-- It is usable and asks for verified clients, no option fails, and the server starts with plain
connections. -/
theorem plain_run_of_unguarded :
    unguarded.validate = .ok () ∧ unguarded.tls.verifyClient = true ∧
      unguarded.tls.skipVerify = false ∧ ∃ options s, unguarded.serverOptions = .ok options ∧
        ({} : Server).configure {} options = (s, none) ∧ ¬ s.VerifiesClients ∧
        (s.steps [.choose, .startChosen {} 0]).state = .started ∧
        (s.steps [.choose, .startChosen {} 0]).runs.map (·.isSecure) = [false] := by
  have hport : unguarded.port = .ok (some ⟨8080⟩) := by rfl
  have hoptions :
      unguarded.serverOptions = .ok [.port ⟨8080⟩, .tlsFiles unguarded.tls.files] := by
    simp only [HostConfig.serverOptions, hport]
    rfl
  have hvalidate : unguarded.validate = .ok () := by
    simp only [HostConfig.validate, hport]
    rfl
  refine ⟨hvalidate, rfl, rfl, _, { settings := { address := ":8080" } }, hoptions, rfl, ?_, rfl,
    rfl⟩
  intro hverifies
  obtain ⟨p, hprofile, -⟩ := hverifies.profile
  simp at hprofile

end Server

end WebHost
