import Mathlib.Tactic.SplitIfs
import WebHost.Config.Schema
import WebHost.Proofs.Server.Options
import WebHost.Server.Lifecycle

/-!
# The limits that a configured server enforces

A configuration sets some limits of the server and leaves others out. The limits travel through its
options into the settings of a new server, and from there into the run that it starts. On the way
the standard limits are filled in once, for all fields together: where nothing at all is set. So
what is left out has the standard limit exactly if everything is left out, or nothing; as soon as
one limit is set, every limit that is not set is off.
-/

set_option autoImplicit false

namespace WebHost

/-! ## Options that set limits -/

namespace Settings

/-- The limits that an option sets, if it is one for limits. -/
def limitsOf : ServerOption → Option LimitSettings
  | .limits set => some set
  | _ => none

/-- The limits after options none of which is a group: those of the last one that sets limits. -/
def limitsAfter (before : LimitSettings) (options : List ServerOption) : LimitSettings :=
  (options.filterMap limitsOf).foldl (fun _ set => set) before

/-- The limits after options in a row are those after the first of them and then the others. -/
theorem limitsAfter_append (before : LimitSettings) (first second : List ServerOption) :
    limitsAfter before (first ++ second) = limitsAfter (limitsAfter before first) second := by
  rw [limitsAfter, List.filterMap_append, List.foldl_append]
  rfl

/-- Only options of the library are known not to set limits unless they say so. -/
def IsOwn (option : ServerOption) : Prop := ∀ change, option ≠ .custom change

/-- An option of the library sets the limits only if it is one for limits. -/
theorem limits_applyLeaf (vault : Vault) (s : Settings) {option : ServerOption}
    (h : IsOwn option) :
    (s.applyLeaf vault option).1.limits = limitsAfter s.limits [option] := by
  cases option with
  | tlsFiles f =>
    simp only [applyLeaf]
    split_ifs <;> rfl
  | tlsChanges profile changes =>
    simp only [applyLeaf]
    split <;> rfl
  | custom change => exact absurd rfl (h change)
  | _ => rfl

/-- So do options of the library in a row. -/
theorem limits_afterLeaves (vault : Vault) (s : Settings) {options : List ServerOption}
    (h : ∀ option ∈ options, IsOwn option) :
    (s.afterLeaves vault options).limits = limitsAfter s.limits options := by
  induction options generalizing s with
  | nil => rfl
  | cons option rest ih =>
    rw [← List.singleton_append, limitsAfter_append,
      ← limits_applyLeaf vault s (h option (List.mem_cons_self ..))]
    exact ih _ fun o ho => h o (List.mem_cons_of_mem _ ho)

/-- However they are grouped, options of the library change the limits only by setting them. -/
theorem limits_applyEach (vault : Vault) (s : Settings) {options : List ServerOption}
    (h : ∀ option ∈ leavesOf options, IsOwn option) :
    (s.applyEach vault options).1.limits = limitsAfter s.limits (leavesOf options) := by
  rw [applyEach_eq_afterLeaves, limits_afterLeaves vault s h]

end Settings

/-! ## From the configuration to the run -/

/-- A configuration has one option for all its limits, and none if it sets no limit. -/
theorem HostConfig.limitsAfter_serverOptions {c : HostConfig} {options : List ServerOption}
    (h : c.serverOptions = .ok options) :
    Settings.limitsAfter .standard (leavesOf options) = c.limits.atStart := by
  unfold serverOptions at h
  split at h
  · simp at h
  rename_i port hport
  obtain rfl := Except.ok.inj h
  have hname (before : LimitSettings) : Settings.limitsAfter before
      (leavesOf (if c.server.name.isEmpty then [] else [.name c.server.name])) = before := by
    split_ifs <;> rfl
  have haddress (before : LimitSettings) : Settings.limitsAfter before
      (leavesOf (if c.server.address.isEmpty then [] else [.address c.server.address])) =
        before := by
    split_ifs <;> rfl
  have hport (before : LimitSettings) :
      Settings.limitsAfter before (leavesOf (port.map ServerOption.port).toList) = before := by
    cases port <;> rfl
  have hlimits : Settings.limitsAfter .standard
      (leavesOf (if c.limits.isUnset then [] else [.limits c.limits])) = c.limits.atStart := by
    unfold LimitSettings.atStart
    split_ifs <;> rfl
  have htls (before : LimitSettings) : Settings.limitsAfter before
      (leavesOf (if c.tls.isEmpty then [] else [.tlsFiles c.tls.files])) = before := by
    split_ifs <;> rfl
  simp only [Settings.leavesOf_append, Settings.limitsAfter_append, hname, haddress, hport, hlimits,
    htls]

/-- A configuration has options of the library only. -/
theorem HostConfig.isOwn_of_mem_serverOptions {c : HostConfig} {options : List ServerOption}
    (h : c.serverOptions = .ok options) : ∀ option ∈ leavesOf options, Settings.IsOwn option := by
  unfold serverOptions at h
  split at h
  · simp at h
  rename_i port hport
  obtain rfl := Except.ok.inj h
  rintro option hoption change rfl
  simp only [Settings.leavesOf_append, List.mem_append] at hoption
  rcases hoption with (((hname | haddress) | hport) | hlimits) | htls
  · split_ifs at hname <;> simp [leavesOf, ServerOption.leaves] at hname
  · split_ifs at haddress <;> simp [leavesOf, ServerOption.leaves] at haddress
  · cases port <;> simp [leavesOf, ServerOption.leaves] at hport
  · split_ifs at hlimits <;> simp [leavesOf, ServerOption.leaves] at hlimits
  · split_ifs at htls <;> simp [leavesOf, ServerOption.leaves] at htls

namespace LimitSettings

/-- Whether every limit is set. -/
def IsFull (s : LimitSettings) : Prop :=
  s.readTimeout.isZero = false ∧ s.readHeaderTimeout.isZero = false ∧
    s.writeTimeout.isZero = false ∧ s.idleTimeout.isZero = false ∧
    s.shutdownTimeout.isZero = false ∧ s.maxHeaderBytes ≠ 0

/-- What the section on the server documents: a limit is the one that is set, with a header size
raised to what can be enforced, and the standard one where none is set. -/
structure AreDocumented (set : LimitSettings) (limits : Limits) (bound : Duration) : Prop where
  readTimeout : limits.readTimeout = set.readTimeout.orElse standard.readTimeout
  readHeaderTimeout :
    limits.readHeaderTimeout = set.readHeaderTimeout.orElse standard.readHeaderTimeout
  writeTimeout : limits.writeTimeout = set.writeTimeout.orElse standard.writeTimeout
  idleTimeout : limits.idleTimeout = set.idleTimeout.orElse standard.idleTimeout
  shutdownTimeout : bound = set.shutdownTimeout.orElse standard.shutdownTimeout
  maxHeaderBytes : limits.maxHeaderBytes =
    if set.maxHeaderBytes = 0 then standard.maxHeaderBytes
    else max set.maxHeaderBytes leastHeaderBytes

/-- To fill limits in twice is the same as once. -/
theorem atStart_atStart (s : LimitSettings) : s.atStart.atStart = s.atStart := by
  by_cases h : s.isUnset = true
  · have hstart : s.atStart = standard := if_pos h
    rw [hstart]
    decide
  · have hstart : s.atStart = s := if_neg h
    rw [hstart, hstart]

/-- Nothing in place of a time that is not set is that time. -/
theorem orElse_zero (set : Duration) : set.orElse .zero = set := by
  unfold Duration.orElse
  split_ifs with h
  · obtain ⟨seconds, nanos⟩ := set
    obtain ⟨rfl, rfl⟩ : seconds = 0 ∧ nanos = 0 := by simpa [Duration.isZero] using h
    rfl
  · rfl

/-- A limit is what it would be with the standard filled in exactly if it is set. -/
theorem eq_orElse_iff {set standard : Duration} (h : standard.isZero = false) :
    set = set.orElse standard ↔ set.isZero = false := by
  unfold Duration.orElse
  split_ifs with hset
  · constructor
    · rintro rfl
      exact h
    · intro hno
      rw [hset] at hno
      exact absurd hno (by simp)
  · simpa using hset

/-- A partial setting is enforced as it stands, which is what is documented only if no limit is
missing in it. -/
theorem areDocumented_applyTo_iff (s : LimitSettings) :
    s.AreDocumented (s.applyTo {}) s.shutdownTimeout ↔ s.IsFull := by
  have hheader : (if s.maxHeaderBytes = 0 then 0 else max s.maxHeaderBytes leastHeaderBytes) =
      (if s.maxHeaderBytes = 0 then standard.maxHeaderBytes
        else max s.maxHeaderBytes leastHeaderBytes) ↔ s.maxHeaderBytes ≠ 0 := by
    split_ifs with h <;> simp [h, standard]
  constructor
  · rintro ⟨hread, hreadHeader, hwrite, hidle, hshutdown, hbytes⟩
    simp only [applyTo, orElse_zero] at hread hreadHeader hwrite hidle
    exact ⟨(eq_orElse_iff (by decide)).mp hread, (eq_orElse_iff (by decide)).mp hreadHeader,
      (eq_orElse_iff (by decide)).mp hwrite, (eq_orElse_iff (by decide)).mp hidle,
      (eq_orElse_iff (by decide)).mp hshutdown, hheader.mp hbytes⟩
  · rintro ⟨hread, hreadHeader, hwrite, hidle, hshutdown, hbytes⟩
    refine ⟨?_, ?_, ?_, ?_, (eq_orElse_iff (by decide)).mpr hshutdown, hheader.mpr hbytes⟩
    · exact (orElse_zero _).trans ((eq_orElse_iff (by decide)).mpr hread)
    · exact (orElse_zero _).trans ((eq_orElse_iff (by decide)).mpr hreadHeader)
    · exact (orElse_zero _).trans ((eq_orElse_iff (by decide)).mpr hwrite)
    · exact (orElse_zero _).trans ((eq_orElse_iff (by decide)).mpr hidle)

/-- Where nothing is set, every limit is the standard one. -/
theorem areDocumented_standard {s : LimitSettings} (h : s.isUnset = true) :
    s.AreDocumented (standard.applyTo {}) standard.shutdownTimeout := by
  obtain rfl : s = {} := by simpa [isUnset] using h
  constructor <;> decide

/-- The limits of a start are the documented ones exactly if none was set, or all were. -/
theorem areDocumented_atStart_iff (s : LimitSettings) :
    s.AreDocumented (s.atStart.applyTo {}) s.atStart.shutdownTimeout ↔
      s.isUnset = true ∨ s.IsFull := by
  by_cases h : s.isUnset = true
  · have hstart : s.atStart = standard := if_pos h
    rw [hstart]
    exact iff_of_true (areDocumented_standard h) (.inl h)
  · have hstart : s.atStart = s := if_neg h
    rw [hstart, areDocumented_applyTo_iff, or_iff_right h]

end LimitSettings

namespace Server

/-- A new server takes its limits from the configuration. -/
theorem limits_configure {c : HostConfig} {options : List ServerOption}
    (h : c.serverOptions = .ok options) (vault : Vault) :
    (({} : Server).configure vault options).1.settings.limits = c.limits.atStart := by
  have hlimits := Settings.limits_applyEach vault {} (c.isOwn_of_mem_serverOptions h)
  rw [c.limitsAfter_serverOptions h] at hlimits
  exact hlimits

/-- What a start takes from the settings and what it leaves in them. -/
theorem limits_start {s s' : Server} {vault : Vault} {e : Entry} {n : Nat}
    (h : s.start vault e = (s', .ok n)) :
    s'.settings.limits = s.settings.limits.atStart ∧
      ∃ r, s'.runs[n]? = some r ∧ r.serving.limits = s.settings.limits.atStart.applyTo {} := by
  unfold start at h
  split_ifs at h with hmay
  · simp at h
  cases hacceptor : e.acceptor vault s.settings with
  | error error => simp [hacceptor] at h
  | ok acceptor =>
    simp only [hacceptor, Prod.mk.injEq, Except.ok.injEq] at h
    obtain ⟨rfl, rfl⟩ := h
    exact ⟨rfl, s.newRun e acceptor, by simp [tell], rfl⟩

/-- A new server that is configured and started enforces the documented limits exactly if the
configuration sets no limit or all of them. Otherwise the limits that it leaves out are off. -/
theorem areDocumented_iff {c : HostConfig} {options : List ServerOption} {vault later : Vault}
    {e : Entry} {s : Server} {n : Nat} (hoptions : c.serverOptions = .ok options)
    (hstart : (({} : Server).configure vault options).1.start later e = (s, .ok n)) :
    ∃ r, s.runs[n]? = some r ∧ r.serving.limits = c.limits.atStart.applyTo {} ∧
      (c.limits.AreDocumented r.serving.limits s.settings.limits.shutdownTimeout ↔
        c.limits.isUnset = true ∨ c.limits.IsFull) := by
  obtain ⟨hsettings, r, hr, hserving⟩ := limits_start hstart
  rw [limits_configure hoptions, LimitSettings.atStart_atStart] at hsettings hserving
  refine ⟨r, hr, hserving, ?_⟩
  rw [hserving, hsettings]
  exact c.limits.areDocumented_atStart_iff

/-- The configuration that sets the time for reading a request, and nothing else. -/
def impatient : HostConfig := { server := { readTimeoutMs := 1000 } }

/-- The impatient configuration asks for its limits and nothing else. -/
theorem serverOptions_impatient :
    impatient.serverOptions = .ok [.limits impatient.limits] := by
  rfl

/-- The impatient configuration, started. -/
theorem areDocumented_impatient :
    impatient.serverOptions = .ok [.limits impatient.limits] ∧
      ∃ s, (({} : Server).configure {} [.limits impatient.limits]).1.start {} .serve =
        (s, .ok 0) ∧
        ∃ r, s.runs[0]? = some r ∧ r.serving.limits = impatient.limits.atStart.applyTo {} ∧
          (impatient.limits.AreDocumented r.serving.limits s.settings.limits.shutdownTimeout ↔
            impatient.limits.isUnset = true ∨ impatient.limits.IsFull) := by
  have hstart : (({} : Server).configure {} [.limits impatient.limits]).1.start {} .serve =
      (_, .ok 0) := rfl
  exact ⟨serverOptions_impatient, _, hstart, areDocumented_iff serverOptions_impatient hstart⟩

/-- Its run reads headers without a time limit, and a shutdown has no bound. -/
theorem limits_of_impatient_lost :
    ∃ options s r, impatient.serverOptions = .ok options ∧
      (({} : Server).configure {} options).1.start {} .serve = (s, .ok 0) ∧
      s.runs[0]? = some r ∧ r.serving.limits.readHeaderTimeout = .zero ∧
      s.settings.limits.shutdownTimeout = .zero ∧
      ¬ impatient.limits.AreDocumented r.serving.limits s.settings.limits.shutdownTimeout := by
  refine ⟨_, _, _, serverOptions_impatient, rfl, rfl, rfl, rfl, ?_⟩
  intro h
  exact absurd h.readHeaderTimeout (by decide)

end Server

end WebHost
