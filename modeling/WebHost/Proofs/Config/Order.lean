import WebHost.Proofs.Config.Variables

/-!
# Variables in any order

Systems list the variables of an environment in no order, so the order in which they are taken must not
matter. It does not: the name of a variable, cut at its double underscores, tells one key, no two names
tell the same one, and a variable changes nothing but the key that its name tells. What a configuration
holds afterwards is therefore known key by key from the variables alone, and a configuration is known
by what it holds at its keys. A name with another prefix, with more or fewer parts, or with other letters
tells no key at all.
-/

set_option autoImplicit false

namespace WebHost

/-! ## The key that a name tells -/

/-- The parts of a name between double underscores, cut from left to right. -/
def nameParts : List Char → List (List Char)
  | '_' :: '_' :: rest => [] :: nameParts rest
  | c :: rest => (nameParts rest).modifyHead (c :: ·)
  | [] => [[]]

/-- A name has at least one part. -/
theorem nameParts_ne_nil (text : List Char) : nameParts text ≠ [] := by
  induction text using nameParts.induct with
  | case1 rest ih => simp [nameParts]
  | case2 c rest hdouble ih => simp [nameParts, ih]
  | case3 => simp [nameParts]

/-- Cutting a name loses nothing. -/
theorem intercalate_nameParts (text : List Char) :
    ['_', '_'].intercalate (nameParts text) = text := by
  induction text using nameParts.induct with
  | case1 rest ih =>
    rw [nameParts, List.intercalate_cons_of_ne_nil (nameParts_ne_nil rest), ih]
    rfl
  | case2 c rest hdouble ih =>
    obtain ⟨part, parts, hparts⟩ := List.exists_cons_of_ne_nil (nameParts_ne_nil rest)
    rw [nameParts, hparts, List.modifyHead_cons]
    · rw [hparts] at ih
      cases parts with
      | nil => simpa [List.intercalate] using ih
      | cons second parts =>
        rw [List.intercalate_cons_cons] at ih ⊢
        rw [List.cons_append, List.cons_append, ih]
    · exact hdouble
  | case3 => rfl

namespace ConfigKey

variable {k : ConfigKey} {pre name : String}

/-- A name tells a key: after the prefix and a double underscore it has two parts, the names of the
section and of the key in capitals. -/
def IsToldBy (k : ConfigKey) (pre name : String) : Prop :=
  ∃ rest, name.toList = (pre ++ "__").toList ++ rest ∧
    nameParts rest = [k.section_.toUpper.toList, k.name.toUpper.toList]

/-- A key is told by the variable of its own name and by no other. -/
theorem isToldBy_iff (hk : k ∈ all) : k.IsToldBy pre name ↔ name = k.variableName pre := by
  constructor
  · rintro ⟨rest, hname, hparts⟩
    have hrest := intercalate_nameParts rest
    rw [hparts] at hrest
    apply String.toList_inj.mp
    rw [hname, ← hrest]
    simp [variableName, variableSuffix, List.intercalate]
  · rintro rfl
    refine ⟨k.variableSuffix.toList, by simp [variableName], ?_⟩
    revert k
    decide +kernel

/-- A name that tells no key: its prefix is another one, it has more or fewer parts than two, it differs
from the name of a variable in the case of letters, or its parts name no section and key. -/
inductive IsForeign (pre name : String) : Prop where
  | otherPrefix : ¬ (pre ++ "__").toList <+: name.toList → IsForeign pre name
  | otherParts {rest : List Char} : name.toList = (pre ++ "__").toList ++ rest →
    (nameParts rest).length ≠ 2 → IsForeign pre name
  | otherLetters {k : ConfigKey} : k ∈ all →
    Text.sameIgnoringCase name (k.variableName pre) = true → name ≠ k.variableName pre →
    IsForeign pre name
  | otherKey {rest section_ key : List Char} : name.toList = (pre ++ "__").toList ++ rest →
    nameParts rest = [section_, key] →
    (∀ k ∈ all, k.section_.toUpper.toList = section_ → k.name.toUpper.toList ≠ key) →
    IsForeign pre name

/-- A variable is foreign if no key is told by it. -/
theorem isForeign_iff : IsForeign pre name ↔ ∀ k ∈ all, ¬ k.IsToldBy pre name := by
  constructor
  · intro h k hk htold
    obtain ⟨rest, hname, hparts⟩ := htold
    cases h with
    | otherPrefix hprefix => exact hprefix ⟨rest, hname.symm⟩
    | otherParts hname' hlength =>
      obtain rfl := List.append_cancel_left (hname.symm.trans hname')
      exact hlength (by rw [hparts]; rfl)
    | otherLetters hk' hletters hne =>
      rw [(isToldBy_iff hk).mp ⟨rest, hname, hparts⟩] at hletters hne
      exact hne (congrArg (variableName pre) (eq_of_sameIgnoringCase hk hk' hletters))
    | otherKey hname' hparts' hother =>
      obtain rfl := List.append_cancel_left (hname.symm.trans hname')
      obtain ⟨hsection, hkey⟩ := List.cons.inj (hparts.symm.trans hparts')
      exact hother k hk hsection (List.cons.inj hkey).1
  · intro h
    by_cases hprefix : (pre ++ "__").toList <+: name.toList
    · obtain ⟨rest, hname⟩ := hprefix
      by_cases hlength : (nameParts rest).length = 2
      · obtain ⟨section_, key, hparts⟩ := List.length_eq_two.mp hlength
        apply IsForeign.otherKey hname.symm hparts
        rintro k hk rfl rfl
        exact h k hk ⟨rest, hname.symm, hparts⟩
      · exact .otherParts hname.symm hlength
    · exact .otherPrefix hprefix

section Environment

variable {environment environment' : List Variable}

/-- If no name stands twice, the variable of a key gives its value wherever it stands. -/
theorem ofEnvironment_of_mem (hnames : (environment.map (·.1)).Nodup) {v : Variable}
    (hv : v ∈ environment) (hname : v.1 = k.variableName pre) :
    k.ofEnvironment pre environment = k.kind.ofVariable v.2 := by
  have hfound : (environment.reverse.find? (·.1 = k.variableName pre)).isSome := by
    rw [List.find?_isSome]
    exact ⟨v, List.mem_reverse.mpr hv, by simpa using hname⟩
  obtain ⟨w, hw⟩ := Option.isSome_iff_exists.mp hfound
  have hmem : w ∈ environment := List.mem_reverse.mp (List.mem_of_find?_eq_some hw)
  have hwname : w.1 = k.variableName pre := by simpa using List.find?_some hw
  obtain rfl := List.inj_on_of_nodup_map hnames hmem hv (hwname.trans hname.symm)
  rw [ofEnvironment, hw]
  rfl

/-- Without a variable of its name a key has nothing from the environment. -/
theorem ofEnvironment_eq_none (h : ∀ v ∈ environment, v.1 ≠ k.variableName pre) :
    k.ofEnvironment pre environment = none := by
  have hnone : environment.reverse.find? (·.1 = k.variableName pre) = none := by
    rw [List.find?_eq_none]
    intro v hv
    simpa using h v (List.mem_reverse.mp hv)
  rw [ofEnvironment, hnone]
  rfl

/-- The order of the variables does not matter, if each name stands there once. -/
theorem ofEnvironment_perm (hperm : environment.Perm environment')
    (hnames : (environment.map (·.1)).Nodup) :
    k.ofEnvironment pre environment' = k.ofEnvironment pre environment := by
  by_cases hsome : ∃ v ∈ environment, v.1 = k.variableName pre
  · obtain ⟨v, hv, hname⟩ := hsome
    have hnames' : (environment'.map (·.1)).Nodup := (hperm.map _).nodup_iff.mp hnames
    rw [ofEnvironment_of_mem hnames hv hname,
      ofEnvironment_of_mem hnames' (hperm.mem_iff.mp hv) hname]
  · have hnone : ∀ v ∈ environment, v.1 ≠ k.variableName pre :=
      fun v hv hname => hsome ⟨v, hv, hname⟩
    rw [ofEnvironment_eq_none hnone,
      ofEnvironment_eq_none fun v hv => hnone v (hperm.mem_iff.mpr hv)]

end Environment

end ConfigKey

namespace HostConfig

variable {c c' : HostConfig}

/-- Optional texts differ as documents if they differ. -/
theorem ofOption_str_inj {o o' : Option String} :
    Json.ofOption .str o = Json.ofOption .str o' ↔ o = o' := by
  cases o <;> cases o' <;> simp [Json.ofOption]

/-- A configuration is known by what it holds at its keys. -/
theorem ext_value? (h : ∀ k ∈ ConfigKey.all, c.value? k = c'.value? k) : c = c' := by
  obtain ⟨server, tls, logging, metrics⟩ := c
  obtain ⟨server', tls', logging', metrics'⟩ := c'
  cases server
  cases server'
  cases tls
  cases tls'
  cases logging
  cases logging'
  cases metrics
  cases metrics'
  simp only [ConfigKey.all, List.forall_mem_cons] at h
  simpa [value?, toJson, ServerSection.toJson, TlsSection.toJson, LogSettings.toJson,
    MetricsSettings.toJson, Json.member?, Json.ofNat, ofOption_str_inj, Int.natCast_inj,
    and_assoc] using h

variable {pre : String} {environment environment' : List Variable}

/-- Whether variables are taken, and what they leave, does not depend on their order. -/
theorem toOption_overrideAll_perm (c : HostConfig) (hperm : environment.Perm environment')
    (hnames : (environment.map (·.1)).Nodup) :
    (c.overrideAll pre environment').toOption = (c.overrideAll pre environment).toOption := by
  have hok : (∃ c', c.overrideAll pre environment' = .ok c') ↔
      ∃ c', c.overrideAll pre environment = .ok c' := by
    rw [overrideAll_isOk_iff, overrideAll_isOk_iff]
    exact forall_congr' fun v => by rw [hperm.mem_iff]
  cases hleft : c.overrideAll pre environment with
  | error e =>
    cases hright : c.overrideAll pre environment' with
    | error e' => rfl
    | ok c₂ => simp [hleft, hright] at hok
  | ok c₁ =>
    obtain ⟨c₂, hright⟩ := hok.mpr ⟨c₁, hleft⟩
    have heq : c₂ = c₁ := by
      apply ext_value?
      intro k hk
      rw [value?_overrideAll hright hk, value?_overrideAll hleft hk,
        ConfigKey.ofEnvironment_perm hperm hnames]
    rw [hright, heq]

/-- A variable that tells no key may be left out. -/
theorem overrideAll_foreign (c : HostConfig) (front back : List Variable) {v : Variable}
    (h : ConfigKey.IsForeign pre v.1) :
    c.overrideAll pre (front ++ v :: back) = c.overrideAll pre (front ++ back) := by
  have hunknown : ∀ k ∈ ConfigKey.all, v.1 ≠ k.variableName pre := by
    intro k hk hname
    exact ConfigKey.isForeign_iff.mp h k hk ((ConfigKey.isToldBy_iff hk).mpr hname)
  have hsame (c : HostConfig) : c.override pre v = .ok c := by
    rcases c.override_cases pre v with ⟨-, hok⟩ | ⟨k, hk, hname, -⟩
    · exact hok
    · exact absurd hname (hunknown k hk)
  rw [overrideAll, overrideAll, List.foldlM_append, List.foldlM_append]
  congr 1
  funext c
  rw [List.foldlM_cons, hsame]
  rfl

/-- What becomes of a configuration when the variables of an environment are taken. -/
structure TakesVariables (pre : String) (c : HostConfig) (environment : List Variable) : Prop where
  /-- In another order they are taken or refused alike, and leave the same configuration. -/
  order : ∀ environment', environment.Perm environment' →
    (c.overrideAll pre environment').toOption = (c.overrideAll pre environment).toOption
  accepted_iff : (∃ c', c.overrideAll pre environment = .ok c') ↔
    ∀ v ∈ environment, ∀ k ∈ ConfigKey.all, k.IsToldBy pre v.1 →
      (k.kind.ofVariable v.2).isSome = true
  /-- A variable sets the key that its name tells. -/
  told : ∀ c', c.overrideAll pre environment = .ok c' → ∀ v ∈ environment, ∀ k ∈ ConfigKey.all,
    k.IsToldBy pre v.1 → c'.value? k = k.kind.ofVariable v.2
  /-- No variable changes another key. -/
  untold : ∀ c', c.overrideAll pre environment = .ok c' → ∀ k ∈ ConfigKey.all,
    (∀ v ∈ environment, ¬ k.IsToldBy pre v.1) → c'.value? k = c.value? k
  /-- A variable with another name makes no difference, not even to an error. -/
  foreign : ∀ front v back, environment = front ++ v :: back → ConfigKey.IsForeign pre v.1 →
    c.overrideAll pre environment = c.overrideAll pre (front ++ back)

/-- The variables of an environment, in which no name stands twice, set keys of their own in any
order. -/
theorem takesVariables (pre : String) (c : HostConfig) {environment : List Variable}
    (hnames : (environment.map (·.1)).Nodup) : TakesVariables pre c environment := by
  constructor
  · intro environment' hperm
    exact c.toOption_overrideAll_perm hperm hnames
  · rw [overrideAll_isOk_iff]
    refine forall_congr' fun v => forall_congr' fun _ => forall_congr' fun k => ?_
    refine forall_congr' fun hk => ?_
    rw [ConfigKey.isToldBy_iff hk]
  · intro c' hc' v hv k hk htold
    have hname := (ConfigKey.isToldBy_iff hk).mp htold
    have hvalid := (overrideAll_isOk_iff c environment).mp ⟨c', hc'⟩ v hv k hk hname
    obtain ⟨w, hw⟩ := Option.isSome_iff_exists.mp hvalid
    rw [value?_overrideAll hc' hk, ConfigKey.ofEnvironment_of_mem hnames hv hname, hw]
    rfl
  · intro c' hc' k hk huntold
    have hnone : ∀ v ∈ environment, v.1 ≠ k.variableName pre :=
      fun v hv hname => huntold v hv ((ConfigKey.isToldBy_iff hk).mpr hname)
    rw [value?_overrideAll hc' hk, ConfigKey.ofEnvironment_eq_none hnone]
    rfl
  · intro front v back henvironment hforeign
    rw [henvironment]
    exact c.overrideAll_foreign front back hforeign

/-- Two variables for keys of different sections, between some that tell no key. -/
theorem takesVariables_of_mixed :
    let environment : List Variable := [("OTHER__SERVER__PORT", "1"), ("APP__SERVER__PORT", "9000"),
      ("APP__SERVER__PORT__", "2"), ("APP__SERVER__port", "3"), ("APP__TLS__KEY_FILE", "web.key"),
      ("APP__TLS__PORT", "4")]
    (environment.map (·.1)).Nodup ∧ TakesVariables "APP" {} environment ∧
      (({} : HostConfig).overrideAll "APP" environment).toOption =
        some { server := { port := "9000" }, tls := { keyFile := some "web.key" } } := by
  intro environment
  have hnames : (environment.map (·.1)).Nodup := by decide +kernel
  exact ⟨hnames, takesVariables "APP" {} hnames, by decide +kernel⟩

end HostConfig

end WebHost
