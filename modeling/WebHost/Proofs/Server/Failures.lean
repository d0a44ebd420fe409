import Mathlib.Data.List.Basic
import WebHost.Proofs.Server.Options

/-!
# Failures of options

Options may be grouped to any depth, and every group reports its failures in one error: the only one
there is, or a list of them. So the error of a group shows how its options are nested. What does not
depend on the nesting are the failures of the leaves: each of them stands in the error once and in
order. A list has two members at least and each of these stands for a failure, so a single failure is
reported as it is, and as the members of a list are joined in its wording, the wording does not show
the nesting either.
-/

set_option autoImplicit false

namespace WebHost

/-! ## Errors that stand for failures -/

namespace ServerError

mutual

/-- An error stands for failures: it is the only one, or a list of errors that stand for them. -/
inductive Gathers : ServerError → List ServerError → Prop
  | single (e : ServerError) : Gathers e [e]
  | several {errors failures : List ServerError} : 2 ≤ errors.length →
    GatherInTurn errors failures → Gathers (.options errors) failures

/-- Errors stand for failures in turn, each of them for the next ones. -/
inductive GatherInTurn : List ServerError → List ServerError → Prop
  | nil : GatherInTurn [] []
  | cons {e : ServerError} {errors own failures : List ServerError} : Gathers e own →
    GatherInTurn errors failures → GatherInTurn (e :: errors) (own ++ failures)

end

mutual

/-- An error stands for at least one failure. -/
theorem Gathers.length_pos {e : ServerError} {failures : List ServerError}
    (h : e.Gathers failures) : 0 < failures.length := by
  cases h with
  | single => exact Nat.zero_lt_one
  | several hlength hrow =>
    have hle := GatherInTurn.length_le hrow
    omega

/-- Each error stands for a failure at least. -/
theorem GatherInTurn.length_le {errors failures : List ServerError}
    (h : GatherInTurn errors failures) : errors.length ≤ failures.length := by
  cases h with
  | nil => exact Nat.le_refl 0
  | cons hfirst hrow =>
    have hpos := Gathers.length_pos hfirst
    have hle := GatherInTurn.length_le hrow
    rw [List.length_cons, List.length_append]
    omega

end

variable {e : ServerError} {errors failures : List ServerError}

/-- An error that stands for a single failure is that failure. -/
theorem Gathers.eq_of_single {failure : ServerError} (h : e.Gathers [failure]) : e = failure := by
  generalize hfailures : [failure] = failures at h
  cases h with
  | single => exact (List.head_eq_of_cons_eq hfailures).symm
  | several hlength hrow =>
    have hle := hrow.length_le
    rw [← hfailures, List.length_singleton] at hle
    omega

/-- What is reported when there may be failures: nothing if there are none, and else an error that
stands for them. -/
def Reports : Option ServerError → List ServerError → Prop
  | none, failures => failures = []
  | some e, failures => e.Gathers failures

/-- Errors that stand for failures in turn collapse to one that stands for them all. -/
theorem GatherInTurn.reports_collapse (h : GatherInTurn errors failures) :
    Reports (collapse errors) failures := by
  cases h with
  | nil => rfl
  | @cons e errors own failures hfirst hrow =>
    cases hrow with
    | nil =>
      rw [List.append_nil]
      exact hfirst
    | cons hsecond hrest =>
      apply Gathers.several
      · rw [List.length_cons, List.length_cons]
        omega
      · exact .cons hfirst (.cons hsecond hrest)

/-- What one option reports comes before what the later ones report. -/
theorem Reports.inTurn {report : Option ServerError} {own : List ServerError}
    (h : Reports report own) (hrow : GatherInTurn errors failures) :
    GatherInTurn (report.toList ++ errors) (own ++ failures) := by
  cases report with
  | none =>
    obtain rfl : own = [] := h
    exact hrow
  | some e => exact .cons h hrow

/-! ## Wordings -/

mutual

/-- The wording of an error, if single errors are worded in some way. -/
def wordedBy (word : ServerError → Option String) : ServerError → Option String
  | .options errors => (allWordedBy word errors).map (Text.joinWith "; ")
  | e => word e

/-- The wordings of errors, if single errors are worded in some way. -/
def allWordedBy (word : ServerError → Option String) : List ServerError → Option (List String)
  | [] => some []
  | e :: rest => (wordedBy word e).bind fun m => (allWordedBy word rest).map (m :: ·)

end

mutual

/-- The message of an error is its wording by the messages of its parts. -/
theorem message?_eq_wordedBy (e : ServerError) : e.message? = e.wordedBy message? := by
  cases e with
  | options errors =>
    rw [message?, wordedBy, messages_eq_allWordedBy errors]
  | _ => rw [wordedBy]; simp

/-- The messages of errors are their wordings in turn. -/
theorem messages_eq_allWordedBy (errors : List ServerError) :
    messages errors = allWordedBy message? errors := by
  cases errors with
  | nil => rw [messages, allWordedBy]
  | cons e rest =>
    rw [messages, allWordedBy, ← message?_eq_wordedBy e, messages_eq_allWordedBy rest]

end

variable {word : ServerError → Option String}

/-- Every error has one text. -/
theorem length_of_allWordedBy {texts : List String} (h : allWordedBy word errors = some texts) :
    texts.length = errors.length := by
  induction errors generalizing texts with
  | nil =>
    obtain rfl : [] = texts := by simpa [allWordedBy] using h
    rfl
  | cons e rest ih =>
    rw [allWordedBy] at h
    obtain ⟨m, -, hrest⟩ := Option.bind_eq_some_iff.mp h
    obtain ⟨ms, hms, rfl⟩ := Option.map_eq_some_iff.mp hrest
    rw [List.length_cons, List.length_cons, ih hms]

/-- Errors in two rows are worded like in one. -/
theorem allWordedBy_append (first second : List ServerError) :
    allWordedBy word (first ++ second) =
      (allWordedBy word first).bind fun ms => (allWordedBy word second).map (ms ++ ·) := by
  induction first with
  | nil =>
    rw [allWordedBy]
    cases h : allWordedBy word second <;> simp [h]
  | cons e rest ih =>
    rw [List.cons_append, allWordedBy, allWordedBy, ih]
    cases wordedBy word e <;> cases allWordedBy word rest <;> cases allWordedBy word second <;> simp

/-- There are no texts exactly if there are no errors. -/
theorem eq_nil_iff_of_allWordedBy {texts : List String} (h : allWordedBy word errors = some texts) :
    texts = [] ↔ errors = [] := by
  rw [← List.length_eq_zero_iff, length_of_allWordedBy h, List.length_eq_zero_iff]

/-- Texts that were joined before may be joined to others at once. -/
theorem joinWith_cons_joinWith {sep : String} {texts left right : List String} (htexts : texts ≠ [])
    (hnil : left = [] ↔ right = []) (h : Text.joinWith sep left = Text.joinWith sep right) :
    Text.joinWith sep (Text.joinWith sep texts :: left) = Text.joinWith sep (texts ++ right) := by
  unfold Text.joinWith at h ⊢
  by_cases hleft : left = []
  · rw [hleft, hnil.mp hleft, String.intercalate_singleton, List.append_nil]
  · have hright : right ≠ [] := fun hright => hleft (hnil.mpr hright)
    rw [String.intercalate_cons_of_ne_nil hleft, String.intercalate_append_of_ne_nil htexts hright, h]

/-- Optional texts that were joined before may be joined to others at once. -/
theorem map_joinWith_cons {sep : String} {own left right : Option (List String)}
    (hown : ∀ texts, own = some texts → texts ≠ [])
    (hnil : ∀ a b, left = some a → right = some b → (a = [] ↔ b = []))
    (h : left.map (Text.joinWith sep) = right.map (Text.joinWith sep)) :
    ((own.map (Text.joinWith sep)).bind fun m => left.map (m :: ·)).map (Text.joinWith sep) =
      (own.bind fun ms => right.map (ms ++ ·)).map (Text.joinWith sep) := by
  cases own with
  | none => rfl
  | some texts =>
    cases left with
    | none =>
      cases right with
      | none => rfl
      | some b => simp at h
    | some a =>
      cases right with
      | none => simp at h
      | some b =>
        have hjoined := joinWith_cons_joinWith (hown texts rfl) (hnil a b rfl rfl) (Option.some.inj h)
        exact congrArg some hjoined

/-- There are no errors exactly if there are no failures. -/
theorem GatherInTurn.eq_nil_iff (h : GatherInTurn errors failures) : errors = [] ↔ failures = [] := by
  cases h with
  | nil => exact Iff.rfl
  | cons hfirst =>
    have hpos := hfirst.length_pos
    simp [List.ne_nil_of_length_pos hpos]

mutual

/-- The wording of an error joins the wordings of the failures that it stands for. -/
theorem Gathers.wordedBy_eq {e : ServerError} {failures : List ServerError} (h : e.Gathers failures)
    (word : ServerError → Option String) :
    e.wordedBy word = (allWordedBy word failures).map (Text.joinWith "; ") := by
  cases h with
  | single =>
    rw [allWordedBy, allWordedBy]
    cases e.wordedBy word <;> simp [Text.joinWith]
  | several _ hrow =>
    rw [wordedBy]
    exact GatherInTurn.map_joinWith hrow word

/-- To join what errors say in turn is to join what the failures say that they stand for. -/
theorem GatherInTurn.map_joinWith {errors failures : List ServerError}
    (h : GatherInTurn errors failures) (word : ServerError → Option String) :
    (allWordedBy word errors).map (Text.joinWith "; ") =
      (allWordedBy word failures).map (Text.joinWith "; ") := by
  cases h with
  | nil => rfl
  | cons hfirst hrow =>
    rw [allWordedBy, allWordedBy_append, Gathers.wordedBy_eq hfirst word]
    apply map_joinWith_cons
    · intro texts htexts
      have hpos := hfirst.length_pos
      rw [← length_of_allWordedBy htexts] at hpos
      exact List.ne_nil_of_length_pos hpos
    · intro a b ha hb
      rw [eq_nil_iff_of_allWordedBy ha, eq_nil_iff_of_allWordedBy hb]
      exact hrow.eq_nil_iff
    · exact GatherInTurn.map_joinWith hrow word

end

end ServerError

/-! ## Options at any depth -/

namespace Settings

/-- The failures of options none of which is a group, in order. Every option is applied, also after
one that failed. -/
def failures (vault : Vault) : Settings → List ServerOption → List ServerError
  | _, [] => []
  | s, option :: rest =>
    (s.applyLeaf vault option).2.toList ++ failures vault (s.applyLeaf vault option).1 rest

/-- Options in two rows fail like the first row, and then the second on what that has left. -/
theorem failures_append (vault : Vault) (s : Settings) (first second : List ServerOption) :
    s.failures vault (first ++ second) =
      s.failures vault first ++ (s.afterLeaves vault first).failures vault second := by
  induction first generalizing s with
  | nil => rfl
  | cons option rest ih =>
    rw [List.cons_append, failures, failures, ih, List.append_assoc]
    rfl

/-- Applying one option reports its failure, if it has one. -/
theorem reports_applyLeaf (vault : Vault) (s : Settings) (option : ServerOption) :
    ServerError.Reports (s.applyLeaf vault option).2 (s.failures vault [option]) := by
  rw [failures, failures, List.append_nil]
  cases (s.applyLeaf vault option).2 with
  | none => rfl
  | some e => exact .single e

mutual

/-- Applying an option reports the failures of its leaves. -/
theorem reports_applyOne (vault : Vault) (s : Settings) (option : ServerOption) :
    ServerError.Reports (s.applyOne vault option).2 (s.failures vault option.leaves) := by
  cases option with
  | group options =>
    rw [applyOne, ServerOption.leaves]
    exact (inTurn_applyEach vault s options).reports_collapse
  | _ => exact reports_applyLeaf vault s _

/-- The errors of options stand in turn for the failures of their leaves. -/
theorem inTurn_applyEach (vault : Vault) (s : Settings) (options : List ServerOption) :
    ServerError.GatherInTurn (s.applyEach vault options).2
      (s.failures vault (leavesOf options)) := by
  cases options with
  | nil => exact .nil
  | cons option rest =>
    rw [applyEach, leavesOf, failures_append, ← applyOne_eq_afterLeaves]
    exact (reports_applyOne vault s option).inTurn (inTurn_applyEach vault _ rest)

end

/-- What comes of some leaves that are applied one after the other, nested in any way: settings, and an
error or none. -/
structure ComesTo (vault : Vault) (s : Settings) (leaves : List ServerOption)
    (outcome : Settings × Option ServerError) : Prop where
  /-- Every leaf is applied, from left to right. -/
  settings : outcome.1 = s.afterLeaves vault leaves
  failed_iff : outcome.2.isSome ↔ ∃ failure, failure ∈ s.failures vault leaves
  /-- The failures of the leaves stand in the error in order, none of them lost or repeated. -/
  gathers : ∀ error, outcome.2 = some error → error.Gathers (s.failures vault leaves)
  single : ∀ failure, s.failures vault leaves = [failure] → outcome.2 = some failure
  message : ∀ error, outcome.2 = some error →
    error.message? =
      (ServerError.messages (s.failures vault leaves)).map (Text.joinWith "; ")
  /-- The same holds whatever the wording of single failures is. -/
  wordedBy : ∀ error word, outcome.2 = some error →
    error.wordedBy word =
      (ServerError.allWordedBy word (s.failures vault leaves)).map (Text.joinWith "; ")

/-- An outcome with the settings and the failures of the leaves is what these come to. -/
theorem comesTo_of_reports {vault : Vault} {s : Settings} {leaves : List ServerOption}
    {outcome : Settings × Option ServerError} (hsettings : outcome.1 = s.afterLeaves vault leaves)
    (h : ServerError.Reports outcome.2 (s.failures vault leaves)) :
    s.ComesTo vault leaves outcome := by
  have hgathers : ∀ error, outcome.2 = some error → error.Gathers (s.failures vault leaves) := by
    intro error herror
    rw [herror] at h
    exact h
  constructor
  · exact hsettings
  · cases herror : outcome.2 with
    | none =>
      rw [herror] at h
      rw [show s.failures vault leaves = [] from h]
      simp
    | some error => simpa using List.exists_mem_of_length_pos (hgathers error herror).length_pos
  · exact hgathers
  · intro failure hsingle
    rw [hsingle] at h hgathers
    cases herror : outcome.2 with
    | none =>
      rw [herror] at h
      exact absurd h (List.cons_ne_nil failure [])
    | some error => rw [(hgathers error herror).eq_of_single]
  · intro error herror
    rw [ServerError.message?_eq_wordedBy, ServerError.messages_eq_allWordedBy]
    exact (hgathers error herror).wordedBy_eq _
  · intro error word herror
    exact (hgathers error herror).wordedBy_eq word

/-- However options are nested, applying them comes to what their leaves come to one after the other. -/
theorem nesting_makes_no_difference (vault : Vault) (s : Settings) :
    (∀ option : ServerOption, s.ComesTo vault option.leaves (s.applyOne vault option)) ∧
      ∀ options : List ServerOption, s.ComesTo vault (leavesOf options) (s.apply vault options) := by
  constructor
  · intro option
    exact comesTo_of_reports (s.applyOne_eq_afterLeaves vault option)
      (reports_applyOne vault s option)
  · intro options
    exact comesTo_of_reports (s.applyEach_eq_afterLeaves vault options)
      (inTurn_applyEach vault s options).reports_collapse

end Settings

end WebHost
