import WebHost.Config.Loader
import WebHost.Proofs.Json.Record

/-!
# The keys of a configuration

A configuration consists of sections with keys, and what it holds at a key is what its document
shows there. A configuration that is read from a document has at each key the value that the document
gives for it, in the form that goes with the kind of the key: a port may be given as a number and is
kept as its text. Where the document gives no value, the default of that key holds.
-/

set_option autoImplicit false

namespace WebHost

/-- The kind of values at a key. -/
inductive KeyKind where
  | text
  | port
  | path
  | flag
  /-- A number that may have blanks around it in a variable. -/
  | number
  /-- A number that may not. -/
  | exactNumber
  deriving DecidableEq, Repr

namespace KeyKind

/-- The value that a document gives. -/
def ofDocument : KeyKind → Json → Option Json
  | .text, .str s | .port, .str s | .path, .str s => some (.str s)
  | .port, .int (.ofNat n) => some (.str (toString n))
  | .path, .null => some .null
  | .flag, .bool b => some (.bool b)
  | .number, .int (.ofNat n) | .exactNumber, .int (.ofNat n) => some (.ofNat n)
  | _, _ => none

/-- The number that a text holds exactly. -/
def number? (text : List Char) : Option Json :=
  (Numeral.readNatural OverrideKey.greatest text).toOption.map .ofNat

/-- The value that a variable gives, unless it is invalid. -/
def ofVariable : KeyKind → String → Option Json
  | .text, value | .port, value => some (.str value)
  | .path, value => some (if value.isEmpty then .null else .str value)
  | .flag, value => (OverrideKey.truth? value).map .bool
  | .number, value => number? (Text.trim value.toList)
  | .exactNumber, value => number? value.toList

end KeyKind

/-- A key of the configuration. -/
structure ConfigKey where
  section_ : String
  name : String
  kind : KeyKind
  deriving DecidableEq, Repr

namespace ConfigKey

/-- All keys, section by section. -/
def all : List ConfigKey :=
  [⟨"server", "name", .text⟩, ⟨"server", "addr", .text⟩, ⟨"server", "port", .port⟩,
    ⟨"server", "read_timeout_ms", .number⟩, ⟨"server", "read_header_timeout_ms", .number⟩,
    ⟨"server", "write_timeout_ms", .number⟩, ⟨"server", "idle_timeout_secs", .number⟩,
    ⟨"server", "shutdown_timeout_secs", .number⟩, ⟨"server", "max_header_bytes", .exactNumber⟩,
    ⟨"tls", "ca_cert_file", .path⟩, ⟨"tls", "cert_file", .path⟩, ⟨"tls", "key_file", .path⟩,
    ⟨"tls", "verify_client", .flag⟩, ⟨"tls", "insecure_skip_verify", .flag⟩,
    ⟨"logging", "enabled", .flag⟩, ⟨"logging", "level", .text⟩, ⟨"logging", "json_format", .flag⟩,
    ⟨"logging", "include_target", .flag⟩, ⟨"logging", "include_location", .flag⟩,
    ⟨"logging", "span_events", .flag⟩,
    ⟨"metrics", "enabled", .flag⟩, ⟨"metrics", "namespace", .text⟩,
    ⟨"metrics", "subsystem", .text⟩]

/-- The sections, in order. -/
def sections : List String := ["server", "tls", "logging", "metrics"]

/-- The names of the keys of a section, in order. -/
def names (section_ : String) : List String :=
  (all.filter (·.section_ = section_)).map (·.name)

/-- The kind of values at the key of a section with a name. -/
def kindOf (section_ name : String) : KeyKind :=
  ((all.find? fun k => k.section_ = section_ ∧ k.name = name).map (·.kind)).getD .text

end ConfigKey

/-- What a configuration holds at a key. -/
def HostConfig.value? (c : HostConfig) (k : ConfigKey) : Option Json :=
  (c.toJson.member? k.section_).bind (·.member? k.name)

/-! ## Documents -/

namespace Field

variable {α : Type} {toJson : α → Json} {key : String}

/-- A field for a text writes what a document gives for its key. -/
theorem writes_text {put : String → α → α}
    (h : ∀ s r, toJson (put s r) = (toJson r).replace key (.str s)) :
    (Field.text key put).Writes toJson KeyKind.text.ofDocument := by
  intro v r r' hput
  cases v with
  | str s => exact ⟨.str s, rfl, Option.some.inj hput ▸ h s r⟩
  | _ => simp [Field.text] at hput

/-- A field for a flag writes what a document gives for its key. -/
theorem writes_flag {put : Bool → α → α}
    (h : ∀ b r, toJson (put b r) = (toJson r).replace key (.bool b)) :
    (Field.flag key put).Writes toJson KeyKind.flag.ofDocument := by
  intro v r r' hput
  cases v with
  | bool b => exact ⟨.bool b, rfl, Option.some.inj hput ▸ h b r⟩
  | _ => simp [Field.flag] at hput

/-- A field for a number writes what a document gives for its key. -/
theorem writes_natural {put : Nat → α → α} {kind : KeyKind}
    (hkind : kind = .number ∨ kind = .exactNumber)
    (h : ∀ n r, toJson (put n r) = (toJson r).replace key (.ofNat n)) :
    (Field.natural key put).Writes toJson kind.ofDocument := by
  intro v r r' hput
  cases v with
  | int i =>
    cases i with
    | ofNat n =>
      have hread : kind.ofDocument (.int (.ofNat n)) = some (.ofNat n) := by
        rcases hkind with rfl | rfl <;> rfl
      exact ⟨.ofNat n, hread, Option.some.inj hput ▸ h n r⟩
    | negSucc n => simp [Field.natural] at hput
  | _ => simp [Field.natural] at hput

/-- A field for a path writes what a document gives for its key, also nothing at all. -/
theorem writes_textOrNull {put : Option String → α → α}
    (h : ∀ o r, toJson (put o r) = (toJson r).replace key (.ofOption .str o)) :
    (Field.textOrNull key put).Writes toJson KeyKind.path.ofDocument := by
  intro v r r' hput
  cases v with
  | str s => exact ⟨.str s, rfl, Option.some.inj hput ▸ h (some s) r⟩
  | null => exact ⟨.null, rfl, Option.some.inj hput ▸ h none r⟩
  | _ => simp [Field.textOrNull] at hput

/-- A field for a port writes what a document gives for its key, a text or a number. -/
theorem writes_textOrNatural {put : String → α → α}
    (h : ∀ s r, toJson (put s r) = (toJson r).replace key (.str s)) :
    (Field.textOrNatural key put).Writes toJson KeyKind.port.ofDocument := by
  intro v r r' hput
  cases v with
  | str s => exact ⟨.str s, rfl, Option.some.inj hput ▸ h s r⟩
  | int i =>
    cases i with
    | ofNat n => exact ⟨.str (toString n), rfl, Option.some.inj hput ▸ h (toString n) r⟩
    | negSucc n => simp [Field.textOrNatural] at hput
  | _ => simp [Field.textOrNatural] at hput

end Field

namespace ConfigKey

/-- The value that a document gives for a key. -/
def ofDocument (k : ConfigKey) (document : Json) : Option Json :=
  ((document.given? sections k.section_).bind (·.given? (names k.section_) k.name)).bind
    k.kind.ofDocument

variable {k : ConfigKey}

/-- Every key lies in one of the sections. -/
theorem section_mem (hk : k ∈ all) : k.section_ ∈ sections := by
  revert k
  decide

/-- Every key is among the names of its section. -/
theorem name_mem (hk : k ∈ all) : k.name ∈ names k.section_ := by
  apply List.mem_map_of_mem
  simpa using hk

/-- The kind that a section gives to the name of a key is that of the key. -/
theorem kindOf_eq (hk : k ∈ all) : kindOf k.section_ k.name = k.kind := by
  revert k
  decide

/-- A record of which the keys are those of a section. -/
structure IsSection {α : Type} (section_ : String) (toJson : α → Json) (fields : List (Field α))
    (start : α) : Prop where
  names_eq : fields.map (·.key) = names section_
  nodup : (names section_).Nodup
  writes : ∀ f ∈ fields, f.Writes toJson (kindOf section_ f.key).ofDocument
  shown : ∀ name ∈ names section_, ((toJson start).member? name).isSome = true

/-- What a record shows at a key after it was read. -/
theorem IsSection.member?_eq {α : Type} {section_ : String} {toJson : α → Json}
    {fields : List (Field α)} {start record : α} (h : IsSection section_ toJson fields start)
    {surplus : Surplus} {document : Json}
    (hdecode : Record.decode surplus fields start document = some record) (hk : k ∈ all)
    (hsection : k.section_ = section_) :
    (toJson record).member? k.name =
      ((document.given? (names section_) k.name).bind k.kind.ofDocument).or
        ((toJson start).member? k.name) := by
  subst hsection
  have hshown := Record.member?_decode (fun key => (kindOf k.section_ key).ofDocument)
    h.writes (h.names_eq ▸ h.nodup) hdecode (h.shown k.name (name_mem hk))
  rw [h.names_eq] at hshown
  rw [hshown.eq_or, kindOf_eq hk]

/-- The section on the server. -/
theorem isSection_server :
    IsSection "server" ServerSection.toJson ServerSection.fields {} where
  names_eq := rfl
  nodup := by decide
  writes := by
    simp only [ServerSection.fields, List.forall_mem_cons, List.not_mem_nil, false_implies,
      implies_true, and_true]
    exact ⟨Field.writes_text fun _ _ => rfl, Field.writes_text fun _ _ => rfl,
      Field.writes_textOrNatural fun _ _ => rfl, Field.writes_natural (.inl rfl) fun _ _ => rfl,
      Field.writes_natural (.inl rfl) fun _ _ => rfl,
      Field.writes_natural (.inl rfl) fun _ _ => rfl,
      Field.writes_natural (.inl rfl) fun _ _ => rfl,
      Field.writes_natural (.inl rfl) fun _ _ => rfl,
      Field.writes_natural (.inr rfl) fun _ _ => rfl⟩
  shown := by decide

/-- The section on secure connections. -/
theorem isSection_tls : IsSection "tls" TlsSection.toJson TlsSection.fields {} where
  names_eq := rfl
  nodup := by decide
  writes := by
    simp only [TlsSection.fields, List.forall_mem_cons, List.not_mem_nil, false_implies,
      implies_true, and_true]
    exact ⟨Field.writes_textOrNull fun _ _ => rfl, Field.writes_textOrNull fun _ _ => rfl,
      Field.writes_textOrNull fun _ _ => rfl, Field.writes_flag fun _ _ => rfl,
      Field.writes_flag fun _ _ => rfl⟩
  shown := by decide

/-- The section on the log. -/
theorem isSection_logging :
    IsSection "logging" LogSettings.toJson LogSettings.fields .production where
  names_eq := rfl
  nodup := by decide
  writes := by
    simp only [LogSettings.fields, List.forall_mem_cons, List.not_mem_nil, false_implies,
      implies_true, and_true]
    exact ⟨Field.writes_flag fun _ _ => rfl, Field.writes_text fun _ _ => rfl,
      Field.writes_flag fun _ _ => rfl, Field.writes_flag fun _ _ => rfl,
      Field.writes_flag fun _ _ => rfl, Field.writes_flag fun _ _ => rfl⟩
  shown := by decide

/-- The section on metrics. -/
theorem isSection_metrics :
    IsSection "metrics" MetricsSettings.toJson MetricsSettings.fields {} where
  names_eq := rfl
  nodup := by decide
  writes := by
    simp only [MetricsSettings.fields, List.forall_mem_cons, List.not_mem_nil, false_implies,
      implies_true, and_true]
    exact ⟨Field.writes_flag fun _ _ => rfl, Field.writes_text fun _ _ => rfl,
      Field.writes_text fun _ _ => rfl⟩
  shown := by decide

/-- What the section with a name reads from a document. -/
def readSection (surplus : Surplus) : String → Json → Option Json
  | "server", j => (Record.decode surplus ServerSection.fields {} j).map ServerSection.toJson
  | "tls", j => (Record.decode surplus TlsSection.fields {} j).map TlsSection.toJson
  | "logging", j => (LogSettings.ofJson? surplus j).map LogSettings.toJson
  | "metrics", j => (MetricsSettings.ofJson? surplus j).map MetricsSettings.toJson
  | _, _ => none

/-- What a section shows at a key after it was read by itself. -/
theorem member?_of_readSection {surplus : Surplus} {document section_ : Json} (hk : k ∈ all)
    (h : readSection surplus k.section_ document = some section_) :
    section_.member? k.name =
      ((document.given? (names k.section_) k.name).bind k.kind.ofDocument).or
        (({} : HostConfig).value? k) := by
  have hsections := section_mem hk
  simp only [sections, List.mem_cons, List.not_mem_nil, or_false] at hsections
  rcases hsections with hs | hs | hs | hs
  all_goals
    rw [hs] at h
    simp only [readSection] at h
    obtain ⟨record, hdecode, rfl⟩ := Option.map_eq_some_iff.mp h
    simp only [HostConfig.value?, hs]
  · exact isSection_server.member?_eq hdecode hk hs
  · exact isSection_tls.member?_eq hdecode hk hs
  · exact isSection_logging.member?_eq hdecode hk hs
  · exact isSection_metrics.member?_eq hdecode hk hs

/-- Each section of a configuration writes what a document gives for it. -/
theorem writes_sections (surplus : Surplus) : ∀ f ∈ HostConfig.fields surplus,
    f.Writes HostConfig.toJson (readSection surplus f.key) := by
  simp only [HostConfig.fields, List.forall_mem_cons, List.not_mem_nil, false_implies,
    implies_true, and_true]
  refine ⟨?_, ?_, ?_, ?_⟩
  all_goals
    intro v c c' hput
    obtain ⟨record, hdecode, rfl⟩ := Option.map_eq_some_iff.mp hput
    exact ⟨_, Option.map_eq_some_iff.mpr ⟨record, hdecode, rfl⟩, rfl⟩

/-- A configuration that was read holds at each key what its document gives for it, and the default
where that gives nothing. -/
theorem value?_of_ofJson? {surplus : Surplus} {document : Json} {c : HostConfig}
    (h : HostConfig.ofJson? surplus document = some c) (hk : k ∈ all) :
    c.value? k = (k.ofDocument document).or (({} : HostConfig).value? k) := by
  have hnodup : ((HostConfig.fields surplus).map (·.key)).Nodup :=
    show sections.Nodup by decide
  have hdefault : ((({} : HostConfig).toJson).member? k.section_).isSome = true := by
    revert k
    decide
  have hshown : Json.Overlays (readSection surplus k.section_)
      (document.given? sections k.section_) (({} : HostConfig).toJson.member? k.section_)
      (c.toJson.member? k.section_) :=
    Record.member?_decode (readSection surplus) (writes_sections surplus) hnodup h hdefault
  unfold ofDocument
  cases hgiven : document.given? sections k.section_ with
  | none =>
    rw [hgiven] at hshown
    have hsame : c.toJson.member? k.section_ = _ := hshown
    simp [HostConfig.value?, hsame]
  | some v =>
    rw [hgiven] at hshown
    obtain ⟨w, hread, hw⟩ := hshown
    rw [HostConfig.value?, hw, Option.bind_some, Option.bind_some]
    exact member?_of_readSection hk hread

end ConfigKey

end WebHost
