import WebHost.Proofs.Config.Variables

/-!
# The layers of a configuration

A loader starts from a preset, takes a text or a file, and lets the environment have the last word.
Reading a text builds a configuration of its own, from the text and the defaults alone, and this takes
the place of the preset. So a key holds what the environment gives, else what the text gives, else
the default: the preset is lost, except where it agrees with the defaults. The preset for production
agrees with them at every key; the one for development differs at four keys for logs, and these come
out as documented only if the text or the environment sets each of them.
-/

set_option autoImplicit false

namespace WebHost

/-! ## Texts -/

namespace HostConfig

/-- The document that a text in a format is read as. -/
def document? (content format : String) : Option Json :=
  match Unicode.lower format with
  | "toml" => Toml.parse? content
  | "json" => Json.parse? content
  | _ => none

/-- A text that is read as a configuration is a document, and the configuration is what it says. -/
theorem parse_eq_ok {content format : String} {c : HostConfig}
    (h : parse content format = .ok c) :
    ∃ document surplus, document? content format = some document ∧
      ofJson? surplus document = some c := by
  have hread {o : Option HostConfig} {e : ConfigError} (ho : o.elim (Except.error e) .ok = .ok c) :
      o = some c := by
    cases o with
    | none => simp at ho
    | some c' => exact congrArg some (Except.ok.inj ho)
  unfold parse at h
  split at h
  · rename_i hformat
    obtain ⟨document, hdocument, hc⟩ := Option.bind_eq_some_iff.mp (hread h)
    exact ⟨document, _, by simpa only [document?, hformat] using hdocument, hc⟩
  · rename_i hformat
    obtain ⟨document, hdocument, hc⟩ := Option.bind_eq_some_iff.mp (hread h)
    exact ⟨document, _, by simpa only [document?, hformat] using hdocument, hc⟩
  · simp at h

end HostConfig

/-- A text that a loader takes: one in a format, or a file, whose extension tells the format. -/
inductive ConfigText where
  | text (content format : String)
  | file (path : String)

namespace ConfigText

/-- The text in a file, if it is one. -/
def content? (files : FileTree) (path : String) : Option String :=
  (files.read path).toOption.bind fun (data, _) => Utf8.decode? data

/-- The document that a text is read as. -/
def document? (files : FileTree) : ConfigText → Option Json
  | .text content format => HostConfig.document? content format
  | .file path => (content? files path).bind fun content =>
    HostConfig.document? content (((ContentType.fileName? path).bind ContentType.extension?).getD "")

end ConfigText

namespace ConfigKey

/-- The value that a text gives for a key. -/
def ofText (k : ConfigKey) (files : FileTree) (t : ConfigText) : Option Json :=
  (t.document? files).bind k.ofDocument

end ConfigKey

namespace ConfigLoader

variable {l l' : ConfigLoader} {files : FileTree} {c : HostConfig} {k : ConfigKey}

/-- Takes a text. -/
def take (l : ConfigLoader) (files : FileTree) : ConfigText → Except ConfigError ConfigLoader
  | .text content format => l.withText content format
  | .file path => l.withFile files path

/-- A text that a loader takes is a document, and the loader holds what it says. -/
theorem take_eq_ok {t : ConfigText} (h : l.take files t = .ok l') :
    ∃ document surplus, t.document? files = some document ∧
      HostConfig.ofJson? surplus document = some l'.config := by
  cases t with
  | text content format =>
    simp only [take, withText] at h
    obtain ⟨c, hparse, rfl⟩ := Except.map_eq_ok_iff.mp h
    exact HostConfig.parse_eq_ok hparse
  | file path =>
    simp only [take, withFile] at h
    split at h
    · simp at h
    · split at h
      · simp at h
      · rename_i content hcontent
        obtain ⟨c, hparse, rfl⟩ := Except.map_eq_ok_iff.mp h
        obtain ⟨document, surplus, hdocument, hc⟩ := HostConfig.parse_eq_ok hparse
        refine ⟨document, surplus, ?_, hc⟩
        rw [ConfigText.document?, ConfigText.content?, hcontent, Option.bind_some]
        exact hdocument

/-- After a text was taken, each key holds what the text gives, else the default. -/
theorem value?_take {t : ConfigText} (h : l.take files t = .ok l') (hk : k ∈ ConfigKey.all) :
    l'.config.value? k = (k.ofText files t).or (({} : HostConfig).value? k) := by
  obtain ⟨document, surplus, hdocument, hc⟩ := take_eq_ok h
  rw [ConfigKey.value?_of_ofJson? hc hk, ConfigKey.ofText, hdocument, Option.bind_some]

/-- A loaded configuration holds what the environment gives, else what the loader held. -/
theorem value?_load {environment : List Variable} (h : l.load environment = .ok c)
    (hk : k ∈ ConfigKey.all) :
    c.value? k =
      (l.envPrefix.bind fun pre => k.ofEnvironment pre environment).or (l.config.value? k) := by
  have hvalid {x : Except ConfigError HostConfig}
      (hx : (do let config ← x; config.validate; return config) = .ok c) : x = .ok c := by
    obtain ⟨c', hc', hx⟩ := Except.bind_eq_ok_iff.mp hx
    obtain ⟨-, -, hx⟩ := Except.bind_eq_ok_iff.mp hx
    rwa [← Except.ok.inj hx]
  unfold load at h
  cases hpre : l.envPrefix with
  | none =>
    rw [hpre] at h
    rw [← Except.ok.inj (hvalid h)]
    rfl
  | some pre =>
    rw [hpre] at h
    exact HostConfig.value?_overrideAll (hvalid h) hk

end ConfigLoader

/-! ## Presets -/

namespace HostConfig

/-- The configurations that a loader may start from. -/
def presets : List HostConfig := [{}, development, production]

/-- The keys at which logs for people differ from the defaults. -/
def developmentKeys : List ConfigKey :=
  [⟨"logging", "level", .text⟩, ⟨"logging", "json_format", .flag⟩,
    ⟨"logging", "include_location", .flag⟩, ⟨"logging", "span_events", .flag⟩]

/-- A configuration holds at each key what is given for it, else what the preset holds. -/
def IsLayered (preset c : HostConfig) (given : ConfigKey → Option Json) : Prop :=
  ∀ k ∈ ConfigKey.all, c.value? k = (given k).or (preset.value? k)

/-- The preset for development gives the standard value to every key that is not its own. -/
theorem value?_development_of_not_mem : ∀ k ∈ ConfigKey.all, k ∉ developmentKeys →
    development.value? k = ({} : HostConfig).value? k := by
  simp only [ConfigKey.all, List.forall_mem_cons, List.not_mem_nil, false_implies, implies_true,
    and_true]
  refine ⟨?_, ?_, ?_, ?_, ?_, ?_, ?_, ?_, ?_, ?_, ?_, ?_, ?_, ?_, ?_, ?level, ?json, ?_, ?location,
    ?span, ?_, ?_, ?_⟩
  case level | json | location | span => exact fun hk => absurd (by decide) hk
  all_goals exact fun _ => rfl

/-- The preset for development gives another value than the standard one to each of its own keys. -/
theorem value?_development_of_mem : ∀ k ∈ developmentKeys,
    development.value? k ≠ ({} : HostConfig).value? k := by
  simp only [developmentKeys, List.forall_mem_cons, List.not_mem_nil, false_implies, implies_true,
    and_true]
  refine ⟨fun h => ?level, fun h => ?_, fun h => ?_, fun h => ?_⟩
  case level =>
    have htext : "debug" = "info" := Json.str.inj (Option.some.inj h)
    exact absurd htext (by decide)
  all_goals cases h

/-- On a configuration that is layered over the defaults another preset shows as well exactly where
it agrees with them, or something is given. -/
theorem IsLayered.iff_of_defaults {preset c : HostConfig} {given : ConfigKey → Option Json}
    (h : IsLayered {} c given) :
    IsLayered preset c given ↔ ∀ k ∈ ConfigKey.all,
      (given k).isSome = true ∨ preset.value? k = ({} : HostConfig).value? k := by
  unfold IsLayered
  refine forall₂_congr fun k hk => ?_
  rw [h k hk]
  cases given k with
  | some v => simp
  | none => simp [eq_comm]

end HostConfig

/-! ## The layers of a loader -/

/-- What the layers above the preset give for a key: the environment, if it has a prefix that counts,
or else the text. -/
def ConfigKey.given (k : ConfigKey) (files : FileTree) (t : ConfigText) (pre : Option String)
    (environment : List Variable) : Option Json :=
  (pre.bind fun pre => k.ofEnvironment pre environment).or (k.ofText files t)

namespace ConfigLoader

open HostConfig

variable {l l' : ConfigLoader} {files : FileTree} {t : ConfigText} {pre : Option String}
  {environment : List Variable} {c : HostConfig}

/-- From the standard configuration the layers are as they are documented. -/
theorem isLayered_defaults (htake : l.take files t = .ok l')
    (hload : { l' with envPrefix := pre }.load environment = .ok c) :
    IsLayered {} c fun k => k.given files t pre environment := by
  intro k hk
  have hloaded := value?_load hload hk
  have htaken : l'.config.value? k = _ := value?_take htake hk
  rw [hloaded, htaken, ← Option.or_assoc]
  rfl

/-- A loader that starts from a preset, takes a text and loads with an environment gives at each key
what the environment gives, else what the text gives, else the default. That is the value of the
preset in place of the default exactly if the preset is not the one for development, or if each of
the four keys at which that one differs is set by the text or by the environment. -/
theorem isLayered_iff (hpreset : l.config ∈ presets) (htake : l.take files t = .ok l')
    (hload : { l' with envPrefix := pre }.load environment = .ok c) :
    IsLayered {} c (fun k => k.given files t pre environment) ∧
      (IsLayered l.config c (fun k => k.given files t pre environment) ↔
        (l.config = development →
          ∀ k ∈ developmentKeys, (k.given files t pre environment).isSome = true)) := by
  have hdefaults := isLayered_defaults htake hload
  refine ⟨hdefaults, ?_⟩
  rw [hdefaults.iff_of_defaults]
  simp only [presets, List.mem_cons, List.not_mem_nil, or_false] at hpreset
  have hother (hsame : l.config = {}) : (∀ k ∈ ConfigKey.all,
      (k.given files t pre environment).isSome = true ∨
        l.config.value? k = ({} : HostConfig).value? k) ↔
      (l.config = development →
        ∀ k ∈ developmentKeys, (k.given files t pre environment).isSome = true) := by
    rw [hsame]
    refine iff_of_true (fun k _ => .inr rfl) fun hdevelopment => ?_
    exact absurd hdevelopment (by decide)
  rcases hpreset with hnew | hdevelopment | hproduction
  · exact hother hnew
  · rw [hdevelopment]
    constructor
    · intro h _ k hk
      have hall : k ∈ ConfigKey.all := by
        revert k
        decide
      exact (h k hall).resolve_right (value?_development_of_mem k hk)
    · intro h k hk
      by_cases hmem : k ∈ developmentKeys
      · exact .inl (h rfl k hmem)
      · exact .inr (value?_development_of_not_mem k hk hmem)
  · exact hother hproduction

/-- The text that sets the four keys at which logs for people differ. -/
def fullText : ConfigText :=
  .text ("[logging]\nlevel = \"trace\"\njson_format = false\n" ++
    "include_location = false\nspan_events = true\n") "toml"

/-- Under an environment that names the server, the preset for development shows. -/
theorem isLayered_fullText :
    ∃ l' c, ({ config := development } : ConfigLoader).take {} fullText = .ok l' ∧
      ({ l' with envPrefix := some "SERV" }).load [("SERV__SERVER__NAME", "edge")] = .ok c ∧
      IsLayered development c fun k =>
        k.given {} fullText (some "SERV") [("SERV__SERVER__NAME", "edge")] := by
  let logging : LogSettings := ⟨true, "trace", false, true, false, true⟩
  have hparse : HostConfig.parse ("[logging]\nlevel = \"trace\"\njson_format = false\n" ++
      "include_location = false\nspan_events = true\n") "toml" = .ok { logging } := by
    decide +kernel
  have htake : ({ config := development } : ConfigLoader).take {} fullText =
      .ok { config := { logging } } := by
    simp only [take, fullText, withText, hparse, Except.map]
  have hload : ({ config := { logging }, envPrefix := some "SERV" } : ConfigLoader).load
      [("SERV__SERVER__NAME", "edge")] = .ok { server := { name := "edge" }, logging } := by
    decide +kernel
  refine ⟨_, _, htake, hload, ?_⟩
  apply (isLayered_iff (by simp [presets]) htake hload).2.mpr
  intro _
  decide +kernel

/-- The text that names the server and says nothing of logs. -/
def namingText : ConfigText := .text "[server]\nname = \"files\"\n" "toml"

/-- On top of the preset for development it brings back the level of production. -/
theorem not_isLayered_namingText :
    ∃ l' c, ({ config := development } : ConfigLoader).take {} namingText = .ok l' ∧
      l'.load [] = .ok c ∧ c.server.name = "files" ∧ c.logging = .production ∧
      ¬ IsLayered development c fun k => k.given {} namingText none [] := by
  have hparse : HostConfig.parse "[server]\nname = \"files\"\n" "toml" =
      .ok { server := { name := "files" } } := by
    decide +kernel
  have htake : ({ config := development } : ConfigLoader).take {} namingText =
      .ok { config := { server := { name := "files" } } } := by
    simp only [take, namingText, withText, hparse, Except.map]
  refine ⟨_, _, htake, rfl, rfl, rfl, fun hlayered => ?_⟩
  have hgiven : (ConfigKey.mk "logging" "level" .text).given {} namingText none [] = none := by
    decide +kernel
  have hlevel := hlayered ⟨"logging", "level", .text⟩ (by decide)
  simp only [hgiven, Option.none_or] at hlevel
  have htext : "info" = "debug" := Json.str.inj (Option.some.inj hlevel)
  exact absurd htext (by decide)

end ConfigLoader

end WebHost
