import WebHost.Proofs.Config.Keys
import WebHost.Proofs.Control.Except
import WebHost.Proofs.Text.Parts

/-!
# Variables of the environment and the keys they set

Every key of the configuration has one variable, named after its section and itself, and every
variable that is known sets one key and leaves the others alone. Variables are taken in order, so the
last value of a variable counts. A value that is invalid for its key ends the loading.
-/

set_option autoImplicit false

namespace WebHost

namespace ConfigKey

/-- The name of the variable of a key, after the prefix. -/
def variableSuffix (k : ConfigKey) : String := k.section_.toUpper ++ "__" ++ k.name.toUpper

/-- The name of the variable of a key. -/
def variableName (pre : String) (k : ConfigKey) : String := pre ++ "__" ++ k.variableSuffix

end ConfigKey

/-- A document of sections in which the value at a key of a section is another one. -/
def Json.replaceAt (j : Json) (section_ name : String) (value : Json) : Json :=
  (j.member? section_).elim j fun s => j.replace section_ (s.replace name value)

namespace HostConfig

variable {c c' : HostConfig} {k k' : ConfigKey}

/-- Every configuration has a value for every key. -/
theorem isSome_value? (c : HostConfig) (hk : k ∈ ConfigKey.all) : (c.value? k).isSome = true := by
  revert k
  simp only [ConfigKey.all, List.forall_mem_cons, List.not_mem_nil, false_implies, implies_true,
    and_true]
  repeat' apply And.intro
  all_goals rfl

/-- A changed key shows its new value, and every other key what it showed before. -/
theorem value?_of_replaceAt {w : Json} (hk : k ∈ ConfigKey.all) (hk' : k' ∈ ConfigKey.all)
    (h : c'.toJson = c.toJson.replaceAt k.section_ k.name w) :
    c'.value? k' = if k' = k then some w else c.value? k' := by
  obtain ⟨old, hold⟩ := Option.isSome_iff_exists.mp (c.isSome_value? hk)
  obtain ⟨s, hs, hname⟩ := Option.bind_eq_some_iff.mp hold
  have hsame : k' = k ↔ k'.section_ = k.section_ ∧ k'.name = k.name := by
    constructor
    · rintro rfl
      exact ⟨rfl, rfl⟩
    · rintro ⟨hsection, hname⟩
      have hkind : k'.kind = k.kind := by
        rw [← ConfigKey.kindOf_eq hk', ← ConfigKey.kindOf_eq hk, hsection, hname]
      cases k
      cases k'
      simp_all
  rw [value?, h, Json.replaceAt, hs, Option.elim_some, Json.member?_replace]
  by_cases hsection : k'.section_ = k.section_
  · rw [if_pos hsection, hsection, hs, Option.map_some, Option.bind_some, Json.member?_replace]
    by_cases hk'name : k'.name = k.name
    · rw [if_pos hk'name, if_pos (hsame.mpr ⟨hsection, hk'name⟩), hk'name, hname, Option.map_some]
    · rw [if_neg hk'name, if_neg fun heq => hk'name (hsame.mp heq).2, value?, hsection, hs,
        Option.bind_some]
  · rw [if_neg hsection, if_neg fun heq => hsection (hsame.mp heq).1, value?]

end HostConfig

namespace OverrideKey

/-- A variable for this key sets that key of the configuration, unless its value is invalid. -/
structure Sets (o : OverrideKey) (k : ConfigKey) : Prop where
  name_eq : o.name = k.variableSuffix
  put_eq : ∀ value c,
    match k.kind.ofVariable value with
    | some w => ∃ c', o.put value c = .ok c' ∧ c'.toJson = c.toJson.replaceAt k.section_ k.name w
    | none => ∃ reason, o.put value c = .error reason

variable {section_ key : String} {k : ConfigKey}

/-- A setter of a text or a port sets its key. -/
theorem sets_text {put : String → HostConfig → HostConfig}
    (hname : section_ ++ "__" ++ key = k.variableSuffix)
    (hkind : k.kind = .text ∨ k.kind = .port)
    (h : ∀ v c, (put v c).toJson = c.toJson.replaceAt k.section_ k.name (.str v)) :
    (text section_ key put).Sets k := by
  refine ⟨hname, fun value c => ?_⟩
  rcases hkind with hkind | hkind <;> rw [hkind] <;> exact ⟨_, rfl, h value c⟩

/-- A setter of a path sets its key. -/
theorem sets_path {put : Option String → HostConfig → HostConfig}
    (hname : section_ ++ "__" ++ key = k.variableSuffix)
    (hkind : k.kind = .path)
    (h : ∀ o c, (put o c).toJson = c.toJson.replaceAt k.section_ k.name (.ofOption .str o)) :
    (path section_ key put).Sets k := by
  refine ⟨hname, fun value c => ?_⟩
  rw [hkind]
  refine ⟨_, rfl, (h _ c).trans ?_⟩
  congr 1
  split <;> rfl

/-- A setter of a flag sets its key. -/
theorem sets_flag {put : Bool → HostConfig → HostConfig}
    (hname : section_ ++ "__" ++ key = k.variableSuffix)
    (hkind : k.kind = .flag)
    (h : ∀ b c, (put b c).toJson = c.toJson.replaceAt k.section_ k.name (.bool b)) :
    (flag section_ key put).Sets k := by
  refine ⟨hname, fun value c => ?_⟩
  rw [hkind]
  cases htruth : truth? value with
  | none => simp [KeyKind.ofVariable, htruth, flag]
  | some b => simp [KeyKind.ofVariable, htruth, flag, h b c]

/-- What a setter of an exact number puts, and where it fails. -/
theorem put_exact (section_ key : String) {put : Nat → HostConfig → HostConfig}
    (h : ∀ n c, (put n c).toJson = c.toJson.replaceAt k.section_ k.name (.ofNat n))
    (value : String) (c : HostConfig) :
    match KeyKind.number? value.toList with
    | some w => ∃ c', (exact section_ key put).put value c = .ok c' ∧
        c'.toJson = c.toJson.replaceAt k.section_ k.name w
    | none => ∃ reason, (exact section_ key put).put value c = .error reason := by
  cases hnumber : Numeral.readNatural greatest value.toList with
  | error e => simp [KeyKind.number?, hnumber, exact, Except.toOption]
  | ok n => simp [KeyKind.number?, hnumber, exact, Except.toOption, h n c]

/-- A setter of an exact number sets its key. -/
theorem sets_exact {put : Nat → HostConfig → HostConfig}
    (hname : section_ ++ "__" ++ key = k.variableSuffix)
    (hkind : k.kind = .exactNumber)
    (h : ∀ n c, (put n c).toJson = c.toJson.replaceAt k.section_ k.name (.ofNat n)) :
    (exact section_ key put).Sets k := by
  refine ⟨hname, fun value c => ?_⟩
  rw [hkind]
  exact put_exact section_ key h value c

/-- A setter of a number sets its key. -/
theorem sets_natural {put : Nat → HostConfig → HostConfig}
    (hname : section_ ++ "__" ++ key = k.variableSuffix)
    (hkind : k.kind = .number)
    (h : ∀ n c, (put n c).toJson = c.toJson.replaceAt k.section_ k.name (.ofNat n)) :
    (natural section_ key put).Sets k := by
  refine ⟨hname, fun value c => ?_⟩
  rw [hkind]
  have htrimmed := put_exact section_ key h (String.ofList (Text.trim value.toList)) c
  simpa only [KeyKind.ofVariable, String.toList_ofList, natural] using htrimmed

/-- The variables set the keys of the configuration, each its own. -/
theorem sets_all : List.Forall₂ Sets all ConfigKey.all := by
  refine .cons (sets_text (by decide +kernel) (.inl rfl) fun _ _ => rfl) ?_
  refine .cons (sets_text (by decide +kernel) (.inl rfl) fun _ _ => rfl) ?_
  refine .cons (sets_text (by decide +kernel) (.inr rfl) fun _ _ => rfl) ?_
  refine .cons (sets_natural (by decide +kernel) rfl fun _ _ => rfl) ?_
  refine .cons (sets_natural (by decide +kernel) rfl fun _ _ => rfl) ?_
  refine .cons (sets_natural (by decide +kernel) rfl fun _ _ => rfl) ?_
  refine .cons (sets_natural (by decide +kernel) rfl fun _ _ => rfl) ?_
  refine .cons (sets_natural (by decide +kernel) rfl fun _ _ => rfl) ?_
  refine .cons (sets_exact (by decide +kernel) rfl fun _ _ => rfl) ?_
  refine .cons (sets_path (by decide +kernel) rfl fun _ _ => rfl) ?_
  refine .cons (sets_path (by decide +kernel) rfl fun _ _ => rfl) ?_
  refine .cons (sets_path (by decide +kernel) rfl fun _ _ => rfl) ?_
  refine .cons (sets_flag (by decide +kernel) rfl fun _ _ => rfl) ?_
  refine .cons (sets_flag (by decide +kernel) rfl fun _ _ => rfl) ?_
  refine .cons (sets_flag (by decide +kernel) rfl fun _ _ => rfl) ?_
  refine .cons (sets_text (by decide +kernel) (.inl rfl) fun _ _ => rfl) ?_
  refine .cons (sets_flag (by decide +kernel) rfl fun _ _ => rfl) ?_
  refine .cons (sets_flag (by decide +kernel) rfl fun _ _ => rfl) ?_
  refine .cons (sets_flag (by decide +kernel) rfl fun _ _ => rfl) ?_
  refine .cons (sets_flag (by decide +kernel) rfl fun _ _ => rfl) ?_
  refine .cons (sets_flag (by decide +kernel) rfl fun _ _ => rfl) ?_
  refine .cons (sets_text (by decide +kernel) (.inl rfl) fun _ _ => rfl) ?_
  refine .cons (sets_text (by decide +kernel) (.inl rfl) fun _ _ => rfl) ?_
  exact .nil

/-- Every setter sets one of the keys. -/
theorem exists_sets {o : OverrideKey} (ho : o ∈ all) : ∃ k ∈ ConfigKey.all, o.Sets k := by
  obtain ⟨i, hi, rfl⟩ := List.mem_iff_getElem.mp ho
  have hi' : i < ConfigKey.all.length := sets_all.length_eq ▸ hi
  exact ⟨ConfigKey.all[i], List.getElem_mem hi', sets_all.get hi hi'⟩

/-- Every key has a setter. -/
theorem exists_setter {k : ConfigKey} (hk : k ∈ ConfigKey.all) : ∃ o ∈ all, o.Sets k := by
  obtain ⟨i, hi, rfl⟩ := List.mem_iff_getElem.mp hk
  have hi' : i < all.length := sets_all.length_eq ▸ hi
  exact ⟨all[i], List.getElem_mem hi', sets_all.get hi' hi⟩

/-- The setter for a variable is one of them, and the variable has its name. -/
theorem ofName?_eq_some {pre name : String} {o : OverrideKey} (h : ofName? pre name = some o) :
    o ∈ all ∧ name = pre ++ "__" ++ o.name := by
  obtain ⟨rest, hrest, hfind⟩ := Option.bind_eq_some_iff.mp h
  have hname : o.name.toList = rest := by simpa using List.find?_some hfind
  rw [Text.after?_eq_some_iff, ← hname, ← String.toList_append] at hrest
  exact ⟨List.mem_of_find?_eq_some hfind, String.toList_inj.mp hrest⟩

/-- A variable without a setter has the name of none. -/
theorem ofName?_eq_none {pre name : String} (h : ofName? pre name = none) {o : OverrideKey}
    (ho : o ∈ all) : name ≠ pre ++ "__" ++ o.name := by
  rintro rfl
  have hrest : Text.after? (pre ++ "__").toList (pre ++ "__" ++ o.name).toList =
      some o.name.toList := by
    rw [Text.after?_eq_some_iff, ← String.toList_append]
  rw [ofName?, hrest, Option.bind_some, List.find?_eq_none] at h
  exact h o ho (by simp)

end OverrideKey

namespace ConfigKey

variable {k k' : ConfigKey}

/-- Names of variables that differ in the case of letters alone belong to the same key. -/
theorem eq_of_sameIgnoringCase {pre : String} (hk : k ∈ all) (hk' : k' ∈ all)
    (h : Text.sameIgnoringCase (k.variableName pre) (k'.variableName pre) = true) : k = k' := by
  have hlower : (k.variableName pre).toList.map Text.lowerChar =
      (k'.variableName pre).toList.map Text.lowerChar := by
    simpa [Text.sameIgnoringCase, Text.lower, String.ofList_inj] using h
  simp only [variableName, String.toList_append, List.map_append] at hlower
  have hsuffix : k.variableSuffix.toList.map Text.lowerChar =
      k'.variableSuffix.toList.map Text.lowerChar := List.append_cancel_left hlower
  have hnodup : (all.map fun k => k.variableSuffix.toList.map Text.lowerChar).Nodup := by
    decide +kernel
  exact List.inj_on_of_nodup_map hnodup hk hk' hsuffix

/-- Different keys have different variables. -/
theorem eq_of_variableName_eq {pre : String} (hk : k ∈ all) (hk' : k' ∈ all)
    (h : k.variableName pre = k'.variableName pre) : k = k' := by
  apply eq_of_sameIgnoringCase hk hk'
  rw [h]
  exact beq_self_eq_true _

/-- The value that the environment gives for a key: that of the last variable with its name, unless
it is invalid. -/
def ofEnvironment (k : ConfigKey) (pre : String) (environment : List Variable) : Option Json :=
  (environment.reverse.find? (·.1 = k.variableName pre)).bind fun v => k.kind.ofVariable v.2

end ConfigKey

namespace HostConfig

variable {c c' : HostConfig} {pre : String} {v : Variable}

/-- A variable is known, and gives its key a value that is valid or not, or else nothing happens. -/
theorem override_cases (c : HostConfig) (pre : String) (v : Variable) :
    ((∀ k ∈ ConfigKey.all, v.1 ≠ k.variableName pre) ∧ c.override pre v = .ok c) ∨
      ∃ k ∈ ConfigKey.all, v.1 = k.variableName pre ∧
        match k.kind.ofVariable v.2 with
        | some w => ∃ c', c.override pre v = .ok c' ∧
            c'.toJson = c.toJson.replaceAt k.section_ k.name w
        | none => ∃ error, c.override pre v = .error error := by
  cases hname : OverrideKey.ofName? pre v.1 with
  | none =>
    refine .inl ⟨fun k hk heq => ?_, by simp [override, hname]⟩
    obtain ⟨o, ho, hsets⟩ := OverrideKey.exists_setter hk
    apply OverrideKey.ofName?_eq_none hname ho
    rw [heq, hsets.name_eq, ConfigKey.variableName]
  | some o =>
    obtain ⟨ho, hv⟩ := OverrideKey.ofName?_eq_some hname
    obtain ⟨k, hk, hsets⟩ := OverrideKey.exists_sets ho
    refine .inr ⟨k, hk, by rw [hv, hsets.name_eq, ConfigKey.variableName], ?_⟩
    have hput := hsets.put_eq v.2 c
    cases hvalue : k.kind.ofVariable v.2 with
    | none =>
      rw [hvalue] at hput
      obtain ⟨reason, hreason⟩ := hput
      exact ⟨.invalidVariable v.1 reason, by simp [override, hname, hreason]⟩
    | some w =>
      rw [hvalue] at hput
      obtain ⟨c', hc', hreplace⟩ := hput
      exact ⟨c', by simp [override, hname, hc'], hreplace⟩

/-- A variable that gives a valid value for its key, or is not known. -/
def IsAcceptable (pre : String) (v : Variable) : Prop :=
  ∀ k ∈ ConfigKey.all, v.1 = k.variableName pre → (k.kind.ofVariable v.2).isSome = true

/-- A configuration takes a variable exactly if the variable is acceptable. -/
theorem override_isOk_iff : (∃ c', c.override pre v = .ok c') ↔ IsAcceptable pre v := by
  rcases c.override_cases pre v with ⟨hunknown, hok⟩ | ⟨k, hk, hv, hvalue⟩
  · exact iff_of_true ⟨c, hok⟩ fun k hk heq => absurd heq (hunknown k hk)
  · cases hw : k.kind.ofVariable v.2 with
    | none =>
      rw [hw] at hvalue
      obtain ⟨error, herror⟩ := hvalue
      apply iff_of_false
      · rintro ⟨c', hc'⟩
        simp [herror] at hc'
      · intro hacceptable
        simpa [hw] using hacceptable k hk hv
    | some w =>
      rw [hw] at hvalue
      obtain ⟨c', hc', -⟩ := hvalue
      refine iff_of_true ⟨c', hc'⟩ fun k' hk' hv' => ?_
      obtain rfl := ConfigKey.eq_of_variableName_eq hk hk' (hv.symm.trans hv')
      simp [hw]

/-- A variable changes the value of its own key and no other. -/
theorem value?_override (h : c.override pre v = .ok c') {k : ConfigKey} (hk : k ∈ ConfigKey.all) :
    c'.value? k = if v.1 = k.variableName pre then k.kind.ofVariable v.2 else c.value? k := by
  rcases c.override_cases pre v with ⟨hunknown, hok⟩ | ⟨k₀, hk₀, hv, hvalue⟩
  · obtain rfl : c = c' := Except.ok.inj (hok.symm.trans h)
    rw [if_neg (hunknown k hk)]
  · cases hw : k₀.kind.ofVariable v.2 with
    | none =>
      rw [hw] at hvalue
      obtain ⟨error, herror⟩ := hvalue
      simp [herror] at h
    | some w =>
      rw [hw] at hvalue
      obtain ⟨c₁, hc₁, hreplace⟩ := hvalue
      obtain rfl : c₁ = c' := Except.ok.inj (hc₁.symm.trans h)
      rw [value?_of_replaceAt hk₀ hk hreplace]
      by_cases heq : k = k₀
      · subst heq
        rw [if_pos rfl, if_pos hv, hw]
      · rw [if_neg heq, if_neg]
        intro hv'
        exact heq (ConfigKey.eq_of_variableName_eq hk hk₀ (hv'.symm.trans hv))

/-- Variables are taken exactly if each of them is acceptable. -/
theorem overrideAll_isOk_iff (c : HostConfig) (environment : List Variable) :
    (∃ c', c.overrideAll pre environment = .ok c') ↔ ∀ v ∈ environment, IsAcceptable pre v := by
  induction environment generalizing c with
  | nil => simp [overrideAll, pure, Except.pure]
  | cons v rest ih =>
    rw [List.forall_mem_cons, ← override_isOk_iff (c := c)]
    cases hv : c.override pre v with
    | error e => simp [overrideAll, hv, bind, Except.bind]
    | ok c₁ =>
      have hrest : c.overrideAll pre (v :: rest) = c₁.overrideAll pre rest := by
        simp [overrideAll, hv, bind, Except.bind]
      rw [hrest, ih c₁]
      simp

/-- What a configuration holds after all variables: what the environment gives, else what it held
before. -/
theorem value?_overrideAll {environment : List Variable}
    (h : c.overrideAll pre environment = .ok c') {k : ConfigKey} (hk : k ∈ ConfigKey.all) :
    c'.value? k = (k.ofEnvironment pre environment).or (c.value? k) := by
  -- the last variable with a name decides, so the induction takes variables off the end
  induction environment using List.reverseRecOn generalizing c' with
  | nil =>
    obtain rfl : c = c' := Except.ok.inj h
    rfl
  | append_singleton environment v ih =>
    obtain ⟨c₁, hc₁, hv⟩ : ∃ c₁, c.overrideAll pre environment = .ok c₁ ∧
        c₁.override pre v = .ok c' := by
      rw [overrideAll, List.foldlM_append] at h
      obtain ⟨c₁, hc₁, hlast⟩ := Except.bind_eq_ok_iff.mp h
      rw [List.foldlM_cons] at hlast
      obtain ⟨c₂, hv, hc₂⟩ := Except.bind_eq_ok_iff.mp hlast
      obtain rfl : c₂ = c' := Except.ok.inj hc₂
      exact ⟨c₁, hc₁, hv⟩
    rw [value?_override hv hk, ih hc₁]
    unfold ConfigKey.ofEnvironment
    rw [List.reverse_concat, List.find?_cons]
    by_cases hname : v.1 = k.variableName pre
    · have hvalid := override_isOk_iff.mp ⟨c', hv⟩ k hk hname
      obtain ⟨w, hw⟩ := Option.isSome_iff_exists.mp hvalid
      simp [hname, hw]
    · simp [hname]

end HostConfig

end WebHost
