import WebHost.Proofs.Server.Restart
import WebHost.Proofs.Tls.Sources

/-!
# Starting by the settings

Whoever starts a server by its settings looks at them twice: first to see whether there is anything
to show on secure connections, and then for the start itself, which takes everything else from them.
A secure start fails if there is nothing to show any more, so secure connections are always backed by
the settings of the start. A plain start asks for nothing: if options supplied a certificate after the
first look, the run accepts plain connections all the same. This is the only way in which a run differs
from the settings that it is started with.
-/

set_option autoImplicit false

namespace WebHost

/-! ## Runs of one kind of connections -/

namespace Run

variable {r : Run} {secure : Bool}

/-- A run that accepts secure connections only, or plain ones only. -/
structure Serves (r : Run) (secure : Bool) : Prop where
  accepts : r.isSecure = secure
  connections : ∀ c ∈ r.connections, c.secure = secure

/-- No step changes how a run serves. -/
theorem Serves.step (h : r.Serves secure) (a : Step) : (r.step a).Serves secure := by
  constructor
  · rw [isSecure, r.acceptor_step a]
    exact h.accepts
  · intro c hc
    rcases mem_connections_step hc with ⟨c', hc', hsame⟩ | hnew
    · exact hsame.trans (h.connections c' hc')
    · exact hnew.trans h.accepts

end Run

/-! ## What a start finds to show -/

namespace Settings

variable {s : Settings} {vault : Vault} {acceptor : Option TlsAcceptor}

/-- No certificate is named by a start that goes by the settings, so what it shows is in the profile. -/
theorem usesTls_of_acceptor {a : TlsAcceptor} (h : s.acceptor vault "" "" = .ok a) :
    s.usesTls = true := by
  unfold acceptor at h
  obtain ⟨found, hload, hbuild⟩ := Except.bind_eq_ok_iff.mp h
  obtain rfl : none = found := Except.ok.inj hload
  have hcertificates := (TlsProfile.build_eq_ok hbuild).1
  cases htls : s.tls with
  | none => simp [tlsOrStandard, htls, TlsProfile.hasCertificates, TlsProfile.standard] at hcertificates
  | some p =>
    rw [tlsOrStandard, htls] at hcertificates
    rw [usesTls, htls]
    exact hcertificates

/-- A start by the settings accepts secure connections exactly if these were chosen, and then there is
something to show. -/
theorem isSome_of_choose {secure : Bool} (h : (Entry.choose secure).acceptor vault s = .ok acceptor) :
    acceptor.isSome = secure ∧ (secure = true → s.usesTls = true) := by
  cases secure with
  | false =>
    obtain rfl : none = acceptor := Except.ok.inj h
    exact ⟨rfl, by simp⟩
  | true =>
    obtain ⟨a, ha, rfl⟩ := Except.map_eq_ok_iff.mp h
    exact ⟨rfl, fun _ => usesTls_of_acceptor ha⟩

end Settings

namespace Server

variable {s : Server} {a : Step} {l before between after : List Step} {vault : Vault}
  {caller n : Nat} {secure : Bool}

/-! ## What callers have read -/

/-- A start makes no choice. -/
theorem choices_start (s : Server) (vault : Vault) (e : Entry) :
    (s.start vault e).1.choices = s.choices := by
  unfold start
  split_ifs
  · rfl
  · split <;> rfl

/-- A choice is added by reading the settings and used up by the start of its caller. -/
theorem choices_step (s : Server) (a : Step) :
    (a = .choose ∧ (s.step a).choices = s.choices ++ [some s.settings.usesTls]) ∨
      (∃ vault caller, a = .startChosen vault caller ∧
        (s.step a).choices = s.choices.set caller none) ∨
      (s.step a).choices = s.choices := by
  cases a with
  | choose => exact .inl ⟨rfl, rfl⟩
  | startChosen vault caller =>
    rcases hc : s.choices[caller]? with _ | _ | secure
    case none | some.none =>
      right; right
      simp only [step, hc]
    case some.some =>
      right; left
      refine ⟨vault, caller, rfl, ?_⟩
      simp only [step, hc]
      rw [choices_start]
  | configure vault options =>
    right; right
    simp only [step, configure]
    split_ifs <;> rfl
  | start vault e => exact .inr (.inr (s.choices_start vault e))
  | beginShutdown allowed =>
    right; right
    simp only [step, beginShutdown]
    split <;> rfl
  | close =>
    right; right
    simp only [step, close]
    split <;> rfl
  | run n b => exact .inr (.inr (s.settings_stepRun n b).2)

/-- A choice that is still open after a step was open before, or has just been read. -/
theorem choice_of_step (h : (s.step a).choices[caller]? = some (some secure)) :
    s.choices[caller]? = some (some secure) ∨
      a = .choose ∧ s.choices.length = caller ∧ s.settings.usesTls = secure := by
  rcases s.choices_step a with ⟨ha, hchoices⟩ | ⟨vault, caller', -, hchoices⟩ | hchoices
  · rw [hchoices, List.getElem?_append] at h
    split_ifs at h with hlt
    · exact .inl h
    · obtain ⟨hzero, hsecure⟩ := List.getElem?_eq_some_iff.mp h
      have hlength : s.choices.length = caller := by
        rw [List.length_singleton] at hzero
        omega
      exact .inr ⟨ha, hlength, by simpa using hsecure⟩
  · by_cases hsame : caller' = caller
    · rw [hchoices, hsame, List.getElem?_set_self'] at h
      simp at h
    · rw [hchoices, List.getElem?_set_ne hsame] at h
      exact .inl h
  · rw [hchoices] at h
    exact .inl h

/-- A step keeps a choice, or uses it up. -/
theorem choice_step (h : s.choices[caller]? = some none ∨ s.choices[caller]? = some (some secure))
    (a : Step) :
    (s.step a).choices[caller]? = some none ∨ (s.step a).choices[caller]? = some (some secure) := by
  have hlt : caller < s.choices.length := by
    rcases h with h | h <;> exact (List.getElem?_eq_some_iff.mp h).1
  rcases s.choices_step a with ⟨-, hchoices⟩ | ⟨vault, caller', -, hchoices⟩ | hchoices
  · rw [hchoices, List.getElem?_append_left hlt]
    exact h
  · by_cases hsame : caller' = caller
    · left
      rw [hchoices, hsame]
      exact List.getElem?_set_self hlt
    · rw [hchoices, List.getElem?_set_ne hsame]
      exact h
  · rw [hchoices]
    exact h

/-- In the course of some steps a caller reads whether there is anything to show. -/
def Reads (s : Server) (l : List Step) (caller : Nat) (secure : Bool) : Prop :=
  ∃ before between, l = before ++ .choose :: between ∧ (s.steps before).choices.length = caller ∧
    (s.steps before).settings.usesTls = secure

/-- What a caller has read stays read after another step. -/
theorem Reads.concat (h : s.Reads l caller secure) (a : Step) :
    s.Reads (l ++ [a]) caller secure := by
  obtain ⟨before, between, rfl, hcaller, hsecure⟩ := h
  exact ⟨before, between ++ [a], by simp, hcaller, hsecure⟩

/-- An open choice was read at some point. -/
theorem reads_of_choice (hnone : s.choices = [])
    (h : (s.steps l).choices[caller]? = some (some secure)) : s.Reads l caller secure := by
  induction l using List.reverseRecOn with
  | nil => simp [steps, hnone] at h
  | append_singleton l a ih =>
    rw [steps_concat] at h
    rcases choice_of_step h with hopen | ⟨rfl, hcaller, hsecure⟩
    · exact (ih hopen).concat a
    · exact ⟨l, [], rfl, hcaller, hsecure⟩

/-- What a caller has read stays until its start. -/
theorem Reads.choice (h : s.Reads l caller secure) :
    (s.steps l).choices[caller]? = some none ∨
      (s.steps l).choices[caller]? = some (some secure) := by
  obtain ⟨before, between, rfl, hcaller, hsecure⟩ := h
  rw [steps_append_cons]
  induction between using List.reverseRecOn with
  | nil =>
    right
    show ((s.steps before).choices ++ [some (s.steps before).settings.usesTls])[caller]? = _
    rw [hsecure, ← hcaller, List.getElem?_concat_length]
  | append_singleton between a ih =>
    rw [steps_concat]
    exact choice_step ih a

/-! ## The start of a caller -/

/-- A start by the settings that begins a run uses up the choice of its caller, and the run serves what
was chosen. -/
theorem exists_choice_of_begun (h : s.begun? (.startChosen vault caller) = some n) :
    ∃ secure r, s.choices[caller]? = some (some secure) ∧
      (s.step (.startChosen vault caller)).runs[n]? = some r ∧ r.Serves secure ∧
      (s.step (.startChosen vault caller)).state = .started ∧
      (s.step (.startChosen vault caller)).settings.usesTls = s.settings.usesTls ∧
      (secure = true → s.settings.usesTls = true) := by
  rcases hc : s.choices[caller]? with _ | _ | secure
  case none | some.none => simp [begun?, hc] at h
  case some.some =>
    simp only [begun?, hc] at h
    rcases start_begins { s with choices := s.choices.set caller none } vault (.choose secure) with
      ⟨hnone, -⟩ | ⟨acceptor, hsome, hacceptor, hsettings, hruns⟩
    · rw [hnone] at h
      simp at h
    · obtain rfl : s.runs.length = n := Option.some.inj (hsome.symm.trans h)
      obtain ⟨hsecure, huses⟩ := Settings.isSome_of_choose hacceptor
      have hstate : (start { s with choices := s.choices.set caller none } vault
          (.choose secure)).1.state = .started := by
        rcases start_cases { s with choices := s.choices.set caller none } vault (.choose secure) with
          ⟨error, herror⟩ | ⟨-, s', r, hs', hlife, -⟩
        · rw [herror] at hsome
          simp [Except.toOption] at hsome
        · rw [hs']
          exact congrArg Life.state hlife
      have hserves : (newRun { s with choices := s.choices.set caller none } (.choose secure)
          acceptor).Serves secure := ⟨hsecure, by simp [newRun]⟩
      refine ⟨secure, _, rfl, ?_, hserves, ?_, ?_, huses⟩
      · simp only [step, hc]
        rw [hruns]
        exact List.getElem?_concat_length
      · simp only [step, hc]
        exact hstate
      · simp only [step, hc]
        rw [hsettings]
        rfl

/-- Only options change whether there is anything to show. -/
theorem usesTls_steps (h : ∀ a ∈ l, a.LeavesOptions) :
    (s.steps l).settings.usesTls = s.settings.usesTls := by
  induction l using List.reverseRecOn with
  | nil => rfl
  | append_singleton l a ih =>
    have hbefore := ih fun b hb => h b (List.mem_append_left _ hb)
    rw [steps_concat]
    rcases step_launches (s := s.steps l) (h a (by simp)) with
      ⟨-, -, hsettings⟩ | ⟨_, _, _, _, -, -, hsettings, -⟩
    · rw [hsettings, hbefore]
    · rw [hsettings, ← hbefore]
      rfl

/-! ## Servers that go by their settings -/

/-- Every run that somebody starts by the settings begins in a started server and, from then on, serves
secure connections only if the settings have something to show at that moment, and plain ones only if
they have not. -/
def GoesBySettings (s : Server) (l : List Step) : Prop :=
  ∀ before vault caller after n, l = before ++ .startChosen vault caller :: after →
    (s.steps before).begun? (.startChosen vault caller) = some n →
    let begun := s.steps (before ++ [.startChosen vault caller])
    begun.state = .started ∧
      ∃ r, (s.steps l).runs[n]? = some r ∧ r.Serves begun.settings.usesTls

/-- A caller reads that there is nothing to show, options supply something, and then the caller starts
a run. -/
structure IsOvertaken (s : Server) (before between : List Step) (vault : Vault) (caller : Nat) :
    Prop where
  number : (s.steps before).choices.length = caller
  read : (s.steps before).settings.usesTls = false
  supplied : (s.steps (before ++ .choose :: between)).settings.usesTls = true
  options : ∃ vault options, .configure vault options ∈ between
  begun : ((s.steps (before ++ .choose :: between)).begun? (.startChosen vault caller)).isSome

/-- Settings that have come to be supplied were configured in between. -/
theorem exists_configure (hread : (s.steps before).settings.usesTls = false)
    (hsupplied : (s.steps (before ++ .choose :: between)).settings.usesTls = true) :
    ∃ vault options, .configure vault options ∈ between := by
  by_contra hnone
  have hleaves : ∀ a ∈ Step.choose :: between, a.LeavesOptions := by
    intro a ha
    rcases List.mem_cons.mp ha with rfl | ha
    · exact trivial
    · cases a with
      | configure vault options => exact hnone ⟨vault, options, ha⟩
      | _ => exact trivial
  have hsteps : s.steps (before ++ .choose :: between) =
      (s.steps before).steps (.choose :: between) := steps_append_cons s before .choose between
  have hsame := usesTls_steps (s := s.steps before) hleaves
  rw [← hsteps, hread, hsupplied] at hsame
  exact absurd hsame (by decide)

/-- Whatever is done to a server in whatever order: the runs that are started by the settings serve
what the settings of their start say, unless a caller who found nothing to show was overtaken by
options that supplied something. -/
theorem goesBySettings_iff (settings : Settings) (l : List Step) :
    GoesBySettings { settings } l ↔
      ¬ ∃ before between vault caller after,
        l = before ++ .choose :: (between ++ .startChosen vault caller :: after) ∧
          IsOvertaken { settings } before between vault caller := by
  constructor
  · rintro hgoes ⟨before, between, vault, caller, after, rfl, hover⟩
    obtain ⟨n, hbegun⟩ := Option.isSome_iff_exists.mp hover.begun
    obtain ⟨secure, r, hchoice, hr, hserves, -, hkept, -⟩ := exists_choice_of_begun hbegun
    have hread : Reads { settings } (before ++ .choose :: between) caller false :=
      ⟨before, between, rfl, hover.number, hover.read⟩
    -- the choice of the caller is what it read
    obtain rfl : false = secure := by
      rcases hread.choice with hused | hopen
      · rw [hused] at hchoice
        simp at hchoice
      · rw [hopen] at hchoice
        simpa using hchoice
    have hsplit : before ++ Step.choose :: (between ++ .startChosen vault caller :: after) =
        (before ++ .choose :: between) ++ .startChosen vault caller :: after := by simp
    obtain ⟨-, r', hr', hserves'⟩ := hgoes _ vault caller after n hsplit hbegun
    obtain ⟨r'', hr'', hplain⟩ :=
      exists_run_steps (·.Serves false) (fun _ h b => h.step b) hr hserves after
    rw [hsplit, steps_append_cons] at hr'
    obtain rfl : r'' = r' := Option.some.inj (hr''.symm.trans hr')
    have hclash := hplain.accepts.symm.trans hserves'.accepts
    rw [steps_concat, hkept, hover.supplied] at hclash
    exact absurd hclash (by decide)
  · intro hnone before vault caller after n hl hbegun
    obtain ⟨secure, r, hchoice, hr, hserves, hstate, hkept, huses⟩ := exists_choice_of_begun hbegun
    have hsecure : (({ settings } : Server).steps before).settings.usesTls = secure := by
      cases secure with
      | true => exact huses rfl
      | false =>
        -- a plain start with something to show would have been overtaken
        by_contra hsupplied
        rw [Bool.not_eq_false] at hsupplied
        obtain ⟨first, between, rfl, hcaller, hread⟩ := reads_of_choice rfl hchoice
        refine hnone ⟨first, between, vault, caller, after, by simpa using hl, ?_⟩
        exact ⟨hcaller, hread, hsupplied, exists_configure hread hsupplied,
          Option.isSome_iff_exists.mpr ⟨n, hbegun⟩⟩
    intro begun
    have hbegins : begun =
        (({ settings } : Server).steps before).step (.startChosen vault caller) := steps_concat _ _ _
    rw [hbegins]
    refine ⟨hstate, ?_⟩
    rw [hl, steps_append_cons, hkept, hsecure]
    exact exists_run_steps (·.Serves secure) (fun _ h b => h.step b) hr hserves after

/-- Somebody who starts by the settings finds nothing to show. Options supply the files of a certificate
before the start, which succeeds, and a client is served on a plain connection. -/
theorem not_goesBySettings_of_overtaking :
    let peer : SocketAddress := ⟨.v4 127 0 0 1, 0, 50000⟩
    let l : List Step := [.choose,
      .configure {} [.tlsFiles { certificateFile := some "web.crt", keyFile := some "web.key" }],
      .startChosen {} 0, .run 0 .proceed, .run 0 (.bind none), .run 0 (.accept peer)]
    let s := ({} : Server).steps l
    s.state = .started ∧ s.settings.usesTls = true ∧
      s.runs.map (·.connections.map (·.secure)) = [[false]] ∧ ¬ GoesBySettings {} l := by
  intro peer l s
  refine ⟨rfl, rfl, rfl, fun hgoes => ?_⟩
  obtain ⟨-, r, hr, hserves⟩ := hgoes
    [.choose,
      .configure {} [.tlsFiles { certificateFile := some "web.crt", keyFile := some "web.key" }]]
    {} 0 [.run 0 .proceed, .run 0 (.bind none), .run 0 (.accept peer)] 0 rfl rfl
  obtain rfl := Option.some.inj hr
  exact absurd hserves.accepts (by decide)

end Server

end WebHost
