import WebHost.Cli.Program
import WebHost.Proofs.Config.Layers

/-!
# What decides about a setting of the program

A setting may come from an option of the command line, from a variable of the environment, from the
configuration file or from the defaults, in this order; and where neither a port nor an address is
set, there is one port to fall back on. The program puts its configuration together from all of
these but the environment: it names the prefix of the variables, and then takes the configuration
without them. So its settings are the documented ones exactly if no variable makes a difference, and
no variable, however invalid, makes it fail.
-/

set_option autoImplicit false

namespace WebHost

namespace ConfigKey

def port : ConfigKey := ⟨"server", "port", .port⟩

def address : ConfigKey := ⟨"server", "addr", .text⟩

end ConfigKey

/-- The empty text, which sets nothing. -/
def Json.isUnset : Option Json → Bool
  | some (.str s) => s.isEmpty
  | _ => false

namespace CommandLine

/-- The value that the options of a command line give for a key. Naming the roots of clients also
asks for their certificates. -/
def ofOptions (line : CommandLine) (k : ConfigKey) : Option Json :=
  if k = .port then (line.value? .port).map .str
  else if k = ⟨"server", "name", .text⟩ then (line.value? .name).map .str
  else if k = ⟨"tls", "cert_file", .path⟩ then (line.value? .certificate).map .str
  else if k = ⟨"tls", "key_file", .path⟩ then (line.value? .key).map .str
  else if k = ⟨"tls", "ca_cert_file", .path⟩ then (line.value? .roots).map .str
  else if k = ⟨"tls", "verify_client", .flag⟩ then (line.value? .roots).map fun _ => .bool true
  else none

/-- The value that the configuration file gives for a key, if there is one. -/
def ofFile (line : CommandLine) (files : FileTree) (k : ConfigKey) : Option Json :=
  (line.value? .config).bind fun path => k.ofText files (.file path)

/-- The value of a key after all layers. -/
def merged (line : CommandLine) (files : FileTree) (environment : List Variable) (k : ConfigKey) :
    Option Json :=
  (((line.ofOptions k).or (k.ofEnvironment environmentPrefix environment)).or
    (line.ofFile files k)).or (({} : HostConfig).value? k)

/-- The documented value of a key: the one after all layers, and for a port that is not set the one
to fall back on, unless an address is set. -/
def documented (line : CommandLine) (files : FileTree) (environment : List Variable)
    (k : ConfigKey) : Option Json :=
  if k = .port ∧ Json.isUnset (line.merged files environment .port) = true ∧
      Json.isUnset (line.merged files environment .address) = true then
    some (.str defaultPort)
  else line.merged files environment k

/-- Where two environments give the same merged values, they give the same documented ones. -/
theorem documented_congr {line : CommandLine} {files : FileTree}
    {environment environment' : List Variable}
    (h : ∀ k ∈ ConfigKey.all, line.merged files environment k = line.merged files environment' k) :
    ∀ k ∈ ConfigKey.all,
      line.documented files environment k = line.documented files environment' k := by
  intro k hk
  rw [documented, documented, h k hk, h .port (by decide), h .address (by decide)]

/-! ## The options -/

variable {line : CommandLine}

/-- A word asks for nothing but help or the version. -/
theorem readWord_request {text : String} {invocation : Invocation}
    (h : readWord text = .request invocation) : invocation = .help ∨ invocation = .version := by
  unfold readWord at h
  split at h
  · simp at h
  · unfold readLong at h
    dsimp only at h
    repeat' split at h
    all_goals simp_all
  · unfold readShort at h
    repeat' split at h
    all_goals simp_all
  · simp at h

/-- A flag that cannot be set does not make the command line run. -/
theorem set_ne_run {flag : Flag} {value : String} (line' : CommandLine) :
    line.set flag value ≠ .error (.run line') := by
  unfold set
  repeat' split
  all_goals simp

/-- A path that has no place does not make the command line run. -/
theorem place_ne_run {path : String} (line' : CommandLine) :
    line.place path ≠ .error (.run line') := by
  unfold place
  repeat' split
  all_goals simp

/-- Two steps of which neither ends in a run do not end in one together. -/
theorem bind_ne_run {x : Except Invocation CommandLine}
    {next : CommandLine → Except Invocation CommandLine} {line' : CommandLine}
    (hx : x ≠ .error (.run line')) (hnext : ∀ c, next c ≠ .error (.run line')) :
    (x >>= next) ≠ .error (.run line') := by
  cases x with
  | error e =>
    intro h
    exact hx (congrArg Except.error (Except.error.inj h))
  | ok c => exact hnext c

/-- Paths that cannot be read do not make the command line run. -/
theorem readPaths_ne_run (paths : List String) (line line' : CommandLine) :
    line.readPaths paths ≠ .error (.run line') := by
  unfold readPaths
  induction paths generalizing line with
  | nil => simp [pure, Except.pure]
  | cons path paths ih =>
    rw [List.foldlM_cons]
    exact bind_ne_run (place_ne_run line') ih

/-- Arguments that are not read to their end do not ask for a run. -/
theorem read_ne_run (arguments : List String) (line line' : CommandLine) :
    line.read arguments ≠ .error (.run line') := by
  fun_induction read line arguments with
  | case1 => simp
  | case2 line _ rest => exact readPaths_ne_run rest line line'
  | case3 _ _ _ _ hrequest =>
    rcases readWord_request hrequest with rfl | rfl <;> simp
  | case4 _ _ _ _ _ _ ih => exact bind_ne_run (set_ne_run line') ih
  | case5 _ _ _ _ _ ih => exact bind_ne_run (place_ne_run line') ih
  | case8 _ _ _ _ _ _ _ ih => exact bind_ne_run (set_ne_run line') ih
  | case6 | case7 | case9 => simp

/-- A command line that was read names a certificate exactly if it names a key. -/
theorem isSome_certificate_iff {arguments : List String}
    (h : Invocation.of arguments = .run line) :
    (line.value? .certificate).isSome = (line.value? .key).isSome := by
  unfold Invocation.of at h
  split at h
  · rename_i invocation hread
    subst h
    exact absurd hread (read_ne_run arguments {} line)
  · rename_i line' _
    split at h
    · simp at h
    · rename_i hpartner
      obtain rfl := Invocation.run.inj h
      unfold missingPartner? at hpartner
      cases hc : line'.value? .certificate <;> cases hk : line'.value? .key <;>
        simp [hc, hk] at hpartner ⊢

/-- What the command line makes of the section on the server. -/
theorem server_amend (line : CommandLine) (config : HostConfig) :
    (line.amend config).server =
      { config.server with
        port :=
          if ((line.value? .port).getD config.server.port).isEmpty ∧ config.server.address.isEmpty
          then defaultPort else (line.value? .port).getD config.server.port
        name := (line.value? .name).getD config.server.name } := by
  unfold amend
  dsimp only
  split <;> rfl

/-- What the command line makes of the section on secure connections, if it names both files of a
pair or neither. -/
theorem tls_amend {line : CommandLine}
    (hpair : (line.value? .certificate).isSome = (line.value? .key).isSome)
    (config : HostConfig) :
    (line.amend config).tls =
      { config.tls with
        rootFile := (line.value? .roots).or config.tls.rootFile
        certificateFile := (line.value? .certificate).or config.tls.certificateFile
        keyFile := (line.value? .key).or config.tls.keyFile
        verifyClient := (line.value? .roots).isSome || config.tls.verifyClient } := by
  unfold amend
  cases hcertificate : line.value? .certificate with
  | none =>
    rw [hcertificate] at hpair
    have hkey : line.value? .key = none := by simpa using hpair.symm
    cases line.value? .roots <;> simp [hkey]
  | some certificate =>
    rw [hcertificate] at hpair
    obtain ⟨key, hkey⟩ := Option.isSome_iff_exists.mp hpair.symm
    cases line.value? .roots <;> simp [hkey]

/-- At every key but the port stands what an option gives, else what was there; the port falls back
if it is not set then, unless an address is. -/
theorem value?_amend {line : CommandLine}
    (hpair : (line.value? .certificate).isSome = (line.value? .key).isSome) (config : HostConfig) :
    ∀ k ∈ ConfigKey.all, (line.amend config).value? k =
      if k = .port ∧ Json.isUnset ((line.ofOptions .port).or (config.value? .port)) = true ∧
          Json.isUnset (config.value? .address) = true then some (.str defaultPort)
      else (line.ofOptions k).or (config.value? k) := by
  have hamend : line.amend config =
      { config with server := (line.amend config).server, tls := (line.amend config).tls } := rfl
  rw [server_amend, tls_amend hpair] at hamend
  rw [hamend]
  have hother (c : HostConfig) {k : ConfigKey} (hk : k ≠ .port)
      (h : c.value? k = (line.ofOptions k).or (config.value? k)) : c.value? k =
      if k = .port ∧ Json.isUnset ((line.ofOptions .port).or (config.value? .port)) = true ∧
          Json.isUnset (config.value? .address) = true then some (.str defaultPort)
      else (line.ofOptions k).or (config.value? k) := by
    rw [if_neg fun hport => hk hport.1]
    exact h
  have hoption (c : HostConfig) {k : ConfigKey} {flag : Flag} {shown : String → Json}
      (hk : k ≠ .port) (hgiven : line.ofOptions k = (line.value? flag).map shown)
      (h : c.value? k = ((line.value? flag).map shown).or (config.value? k)) : c.value? k =
      if k = .port ∧ Json.isUnset ((line.ofOptions .port).or (config.value? .port)) = true ∧
          Json.isUnset (config.value? .address) = true then some (.str defaultPort)
      else (line.ofOptions k).or (config.value? k) :=
    hother c hk (hgiven ▸ h)
  -- one case for each key; those that no option sets are left to the end
  simp only [ConfigKey.all, List.forall_mem_cons, List.not_mem_nil, false_implies, implies_true,
    and_true]
  refine ⟨?name, ?_, ?port, ?_, ?_, ?_, ?_, ?_, ?_, ?roots, ?certificate, ?key, ?verify, ?_, ?_, ?_,
    ?_, ?_, ?_, ?_, ?_, ?_, ?_⟩
  case port =>
    have hport : (line.ofOptions .port).or (config.value? .port) =
        some (.str ((line.value? .port).getD config.server.port)) := by
      rw [show line.ofOptions .port = (line.value? .port).map .str from rfl]
      cases line.value? .port <;> rfl
    change some (Json.str (if _ then _ else _)) = if _ then _ else
      (line.ofOptions .port).or (config.value? .port)
    rw [hport]
    by_cases hunset : ((line.value? .port).getD config.server.port).isEmpty = true ∧
        config.server.address.isEmpty = true
    · rw [if_pos hunset, if_pos ⟨rfl, hunset⟩]
    · rw [if_neg hunset, if_neg fun h => hunset h.2]
  case name => exact hoption _ (by decide) rfl (by cases line.value? .name <;> rfl)
  case roots => exact hoption _ (by decide) rfl (by cases line.value? .roots <;> rfl)
  case certificate => exact hoption _ (by decide) rfl (by cases line.value? .certificate <;> rfl)
  case key => exact hoption _ (by decide) rfl (by cases line.value? .key <;> rfl)
  case verify => exact hoption _ (by decide) rfl (by cases line.value? .roots <;> rfl)
  all_goals
    apply hother _ (by decide)
    rfl

/-! ## The layers of the program -/

section Configuration

variable {line : CommandLine} {around : Surroundings} {c : HostConfig}

/-- The configuration of the program is that of its file, or the default one, with the options. -/
theorem configuration_eq_ok (h : line.configuration around = .ok c) :
    ∃ config, c = line.amend config ∧ ∀ k ∈ ConfigKey.all,
      config.value? k = (line.ofFile around.files k).or (({} : HostConfig).value? k) := by
  unfold configuration at h
  cases hpath : line.value? .config with
  | none =>
    simp only [hpath] at h
    obtain ⟨l, hloader, h⟩ := Except.bind_eq_ok_iff.mp h
    obtain ⟨-, -, h⟩ := Except.bind_eq_ok_iff.mp h
    obtain rfl : {} = l := Except.ok.inj hloader
    refine ⟨{}, (Except.ok.inj h).symm, fun k _ => ?_⟩
    rw [ofFile, hpath]
    rfl
  | some path =>
    simp only [hpath] at h
    obtain ⟨l, hfile, h⟩ := Except.bind_eq_ok_iff.mp h
    obtain ⟨-, -, h⟩ := Except.bind_eq_ok_iff.mp h
    refine ⟨l.config, (Except.ok.inj h).symm, fun k hk => ?_⟩
    have htake : ({} : ConfigLoader).take around.files (.file path) = .ok l :=
      Except.mapError_eq_ok_iff.mp hfile
    rw [ofFile, hpath]
    exact ConfigLoader.value?_take htake hk

/-- Without an environment a value comes from the command line, from the file, or is the default. -/
theorem merged_nil (line : CommandLine) (files : FileTree) (k : ConfigKey) :
    line.merged files [] k =
      (line.ofOptions k).or ((line.ofFile files k).or (({} : HostConfig).value? k)) := by
  have hnothing : k.ofEnvironment environmentPrefix [] = none := rfl
  rw [merged, hnothing, Option.or_none, Option.or_assoc]

/-- Every setting of the program is the documented one for an empty environment. -/
theorem value?_configuration {arguments : List String}
    (hline : Invocation.of arguments = .run line) (h : line.configuration around = .ok c) :
    ∀ k ∈ ConfigKey.all, c.value? k = line.documented around.files [] k := by
  intro k hk
  obtain ⟨config, rfl, hconfig⟩ := configuration_eq_ok h
  rw [value?_amend (isSome_certificate_iff hline) config k hk, documented, merged_nil, merged_nil,
    merged_nil, hconfig k hk, hconfig .port (by decide), hconfig .address (by decide)]
  rfl

/-- The settings of a program heed its environment: each is the documented one, and no variable for
a key holds a value that is invalid for it. -/
structure Heeds (line : CommandLine) (around : Surroundings) (c : HostConfig) : Prop where
  acceptable : ∀ v ∈ around.environment, HostConfig.IsAcceptable environmentPrefix v
  documented : ∀ k ∈ ConfigKey.all,
    c.value? k = line.documented around.files around.environment k

/-- Whatever the environment holds, the program has the settings that are documented for an empty
one. It heeds the environment exactly if all variables are acceptable and none makes a difference to
what is documented. -/
theorem heeds_iff {arguments : List String} (hline : Invocation.of arguments = .run line)
    (h : line.configuration around = .ok c) :
    (∀ environment, line.configuration { around with environment } = .ok c) ∧
      (∀ k ∈ ConfigKey.all, c.value? k = line.documented around.files [] k) ∧
      (Heeds line around c ↔
        (∀ v ∈ around.environment, HostConfig.IsAcceptable environmentPrefix v) ∧
          ∀ k ∈ ConfigKey.all, line.documented around.files around.environment k =
            line.documented around.files [] k) := by
  have hvalues := value?_configuration hline h
  refine ⟨fun _ => h, hvalues, ?_⟩
  constructor
  · rintro ⟨hacceptable, hdocumented⟩
    refine ⟨hacceptable, fun k hk => ?_⟩
    rw [← hdocumented k hk, hvalues k hk]
  · rintro ⟨hacceptable, hsame⟩
    refine ⟨hacceptable, fun k hk => ?_⟩
    rw [hvalues k hk, hsame k hk]

end Configuration

/-- An environment that names the server. -/
def namedEnvironment : List Variable := [("SERV__SERVER__NAME", "edge")]

/-- An option has the last word, so the environment is heeded under it. -/
theorem heeds_of_option :
    ∃ line c, Invocation.of ["--name", "cli", "www"] = .run line ∧
      line.configuration { files := {}, environment := namedEnvironment } = .ok c ∧
      c.server.name = "cli" ∧ Heeds line { files := {}, environment := namedEnvironment } c := by
  have hline : Invocation.of ["--name", "cli", "www"] =
      .run { values := [(.name, "cli")], directory := some "www" } := by
    decide +kernel
  have hconfiguration : ({ values := [(.name, "cli")], directory := some "www" } :
      CommandLine).configuration { files := {}, environment := namedEnvironment } =
        .ok { server := { name := "cli", port := "8080" } } := by
    decide +kernel
  refine ⟨_, _, hline, hconfiguration, rfl, ?_⟩
  apply (heeds_iff hline hconfiguration).2.2.mpr
  have hunnamed : ∀ k ∈ ConfigKey.all, k = ⟨"server", "name", .text⟩ ∨
      namedEnvironment.reverse.find? (·.1 = k.variableName environmentPrefix) = none := by
    decide +kernel
  have hmerged : ∀ k ∈ ConfigKey.all, merged { values := [(.name, "cli")], directory := some "www" }
      {} namedEnvironment k =
        merged { values := [(.name, "cli")], directory := some "www" } {} [] k := by
    intro k hk
    rcases hunnamed k hk with rfl | hnone
    · rfl
    · have hnothing : k.ofEnvironment environmentPrefix namedEnvironment = none := by
        rw [ConfigKey.ofEnvironment, hnone, Option.bind_none]
      rw [merged, hnothing]
      rfl
  refine ⟨?_, documented_congr hmerged⟩
  unfold HostConfig.IsAcceptable
  decide +kernel

/-- Without that option the name is lost. -/
theorem not_heeds_of_variable :
    ∃ line c, Invocation.of ["www"] = .run line ∧
      line.configuration { files := {}, environment := namedEnvironment } = .ok c ∧
      c.server.name = "" ∧ ¬ Heeds line { files := {}, environment := namedEnvironment } c := by
  have hline : Invocation.of ["www"] = .run { directory := some "www" } := by
    decide +kernel
  have hconfiguration : ({ directory := some "www" } : CommandLine).configuration
      { files := {}, environment := namedEnvironment } =
        .ok { server := { port := "8080" } } := by
    decide +kernel
  refine ⟨_, _, hline, hconfiguration, rfl, fun hheeds => ?_⟩
  have hfound : namedEnvironment.reverse.find?
      (·.1 = ConfigKey.variableName environmentPrefix ⟨"server", "name", .text⟩) =
        some ("SERV__SERVER__NAME", "edge") := by
    decide +kernel
  have hname := hheeds.documented ⟨"server", "name", .text⟩ (by decide)
  rw [documented, if_neg fun hport => absurd hport.1 (by decide), merged, ConfigKey.ofEnvironment,
    hfound] at hname
  have htext : "" = "edge" := Json.str.inj (Option.some.inj hname)
  exact absurd htext (by decide)

end CommandLine

end WebHost
