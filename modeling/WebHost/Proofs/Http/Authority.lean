import Mathlib.Data.List.Basic
import WebHost.Http.Uri
import WebHost.Proofs.Text.Parts
import WebHost.Proofs.Text.Utf8

/-!
# The host inside an authority

An authority is read in one scan over its characters. The host in it is what follows the last at sign,
up to the bracket that closes it or up to the colon before a port. The reader allows one pair of brackets
anywhere, and lets a closing bracket forget the colons and percent signs before it, so a host that is cut
out of an authority need not be one itself: it is, exactly if the brackets in it are paired and a percent
sign in it stands in brackets.
-/

set_option autoImplicit false

namespace WebHost.Uri

open Text

/-- What may stand in an authority neither breaks a line nor separates words. -/
theorem not_gap_of_isUriChar {c : Char} (h : isUriChar c = true) : ¬ IsGap c :=
  not_gap_of_class (by decide +kernel) h

/-! ## The scan -/

namespace AuthorityScan

/-- The characters of an authority that a scan keeps track of. -/
def marks : List Char := [':', '[', ']', '@', '%']

/-- What a character that may stand next does to a scan. -/
inductive Takes (scan : AuthorityScan) : Char → AuthorityScan → Prop
  | colon (hfew : scan.colons < 8) :
    Takes scan ':' { scan with colons := scan.colons + 1, atSign := false }
  | opening (hpercent : scan.percent = false) (hopened : scan.opened = false) :
    Takes scan '[' { scan with opened := true, atSign := false }
  | closing (hopened : scan.opened = true) (hclosed : scan.closed = false) :
    Takes scan ']' { scan with closed := true, colons := 0, percent := false, atSign := false }
  | atSign : Takes scan '@' { scan with colons := 0, percent := false, atSign := true }
  | percent : Takes scan '%' { scan with percent := true, atSign := false }
  | plain {c : Char} (hmark : c ∉ marks) (huri : isUriChar c = true) :
    Takes scan c { scan with atSign := false }

/-- A step of the scan is one of those that the grammar of authorities has. -/
theorem takes_of_step {scan next : AuthorityScan} {c : Char} (h : scan.step c = some next) :
    scan.Takes c next := by
  unfold step at h
  simp only at h
  split_ifs at h with hcolon hfew hopening hstop hclosing hstop' hat hpercent huri
  · obtain rfl := Option.some.inj h
    obtain rfl := hcolon
    exact .colon (by omega)
  · obtain rfl := Option.some.inj h
    obtain rfl := hopening
    simp only [Bool.or_eq_true, not_or, Bool.not_eq_true] at hstop
    exact .opening hstop.1 hstop.2
  · obtain rfl := Option.some.inj h
    obtain rfl := hclosing
    simp only [Bool.or_eq_true, Bool.not_eq_true', not_or, Bool.not_eq_true,
      Bool.not_eq_false] at hstop'
    exact .closing hstop'.1 hstop'.2
  · obtain rfl := Option.some.inj h
    obtain rfl := hat
    exact .atSign
  · obtain rfl := Option.some.inj h
    obtain rfl := hpercent
    exact .percent
  · obtain rfl := Option.some.inj h
    exact .plain (by simp [marks, hcolon, hopening, hclosing, hat, hpercent]) huri

/-- A sign that opens or closes nothing only forgets that an `@` came right before it. -/
theorem step_plain {scan : AuthorityScan} {c : Char} (hmark : c ∉ marks)
    (huri : isUriChar c = true) : scan.step c = some { scan with atSign := false } := by
  simp only [marks, List.mem_cons, List.not_mem_nil, or_false, not_or] at hmark
  obtain ⟨hcolon, hopening, hclosing, hat, hpercent⟩ := hmark
  simp only [step, if_neg hcolon, if_neg hopening, if_neg hclosing, if_neg hat, if_neg hpercent,
    if_pos huri]

/-- What the scan takes is a mark of its own or a sign of a URI, and no gap. -/
theorem char_of_takes {scan next : AuthorityScan} {c : Char} (h : scan.Takes c next) :
    ¬ IsGap c ∧ (c ∉ marks → isUriChar c = true) := by
  cases h with
  | plain hmark huri => exact ⟨not_gap_of_isUriChar huri, fun _ => huri⟩
  | _ => exact ⟨by decide, fun hmark => absurd (by decide) hmark⟩

/-- Where a scan comes to behind a text. -/
def run (scan : AuthorityScan) (text : List Char) : Option AuthorityScan :=
  text.foldl (fun scan c => scan.bind (step · c)) (some scan)

/-- Folding the steps from a scan that may have failed is running what is left of it. -/
theorem foldl_step (scan : Option AuthorityScan) (text : List Char) :
    text.foldl (fun scan c => scan.bind (step · c)) scan = scan.bind (run · text) := by
  cases scan with
  | some scan => rfl
  | none =>
    induction text with
    | nil => rfl
    | cons c text ih => exact ih

/-- Nothing read changes nothing. -/
@[simp] theorem run_nil (scan : AuthorityScan) : scan.run [] = some scan := rfl

/-- To run over a text is to take its first sign and run over the rest. -/
theorem run_cons (scan : AuthorityScan) (c : Char) (text : List Char) :
    scan.run (c :: text) = (scan.step c).bind (run · text) := foldl_step _ text

/-- To run over two texts in a row is to run over the second from where the first ends. -/
theorem run_append (scan : AuthorityScan) (front rest : List Char) :
    scan.run (front ++ rest) = (scan.run front).bind (run · rest) := by
  rw [run, List.foldl_append, foldl_step]
  rfl

/-- A run over two texts in a row has a state in between. -/
theorem run_append_eq_some {scan last : AuthorityScan} {front rest : List Char}
    (h : scan.run (front ++ rest) = some last) :
    ∃ next, scan.run front = some next ∧ next.run rest = some last := by
  rw [run_append] at h
  exact Option.bind_eq_some_iff.mp h

/-- What a scan knows of a text that it has passed. -/
structure Passes (scan : AuthorityScan) (text : List Char) (next : AuthorityScan) : Prop where
  opened : next.opened = true ↔ scan.opened = true ∨ '[' ∈ text
  closed : next.closed = true ↔ scan.closed = true ∨ ']' ∈ text
  first_opening : '[' ∈ text → scan.opened = false
  first_closing : ']' ∈ text → scan.closed = false
  paired : ']' ∈ text → next.opened = true
  /-- Only a closing bracket and an at sign make a scan forget a percent sign. -/
  percent : ']' ∉ text → '@' ∉ text → (next.percent = true ↔ scan.percent = true ∨ '%' ∈ text)
  colons : ':' ∉ text → next.colons ≤ scan.colons
  chars : ∀ c ∈ text, ¬ IsGap c ∧ (c ∉ marks → isUriChar c = true)

/-- A sign taken in front of what passes makes one more that passes. -/
theorem passes_cons {scan next last : AuthorityScan} {c : Char} {text : List Char}
    (h : scan.Takes c next) (hrest : next.Passes text last) : scan.Passes (c :: text) last := by
  obtain ⟨hopened, hclosed, hopening, hclosing, hpaired, hpercent, hcolons, hchars⟩ := hrest
  have hall : ∀ d ∈ c :: text, ¬ IsGap d ∧ (d ∉ marks → isUriChar d = true) :=
    List.forall_mem_cons.mpr ⟨char_of_takes h, hchars⟩
  cases h with
  | colon hfew =>
    exact ⟨by simpa using hopened, by simpa using hclosed, by simpa using hopening,
      by simpa using hclosing, by simpa using hpaired, by simpa using hpercent, by simp, hall⟩
  | opening hno hbefore =>
    exact ⟨by simpa using hopened, by simpa using hclosed, fun _ => hbefore,
      by simpa using hclosing, by simpa using hpaired, by simpa using hpercent,
      by simpa using hcolons, hall⟩
  | closing hbefore hno =>
    refine ⟨by simpa using hopened, by simpa using hclosed, by simpa using hopening, fun _ => hno,
      fun _ => hopened.mpr (.inl hbefore), by simp, fun hmem => ?_, hall⟩
    exact Nat.le_trans (hcolons (by simpa using hmem)) (Nat.zero_le _)
  | atSign =>
    refine ⟨by simpa using hopened, by simpa using hclosed, by simpa using hopening,
      by simpa using hclosing, by simpa using hpaired, by simp, fun hmem => ?_, hall⟩
    exact Nat.le_trans (hcolons (by simpa using hmem)) (Nat.zero_le _)
  | percent =>
    exact ⟨by simpa using hopened, by simpa using hclosed, by simpa using hopening,
      by simpa using hclosing, by simpa using hpaired, by simpa using hpercent,
      by simpa using hcolons, hall⟩
  | plain hmark huri =>
    simp only [marks, List.mem_cons, List.not_mem_nil, or_false, not_or] at hmark
    obtain ⟨hcolon, hopen, hclose, hat, hescape⟩ := hmark
    refine ⟨?_, ?_, ?_, ?_, ?_, ?_, ?_, hall⟩
    · simpa [Ne.symm hopen] using hopened
    · simpa [Ne.symm hclose] using hclosed
    · simpa [Ne.symm hopen] using hopening
    · simpa [Ne.symm hclose] using hclosing
    · simpa [Ne.symm hclose] using hpaired
    · simpa [Ne.symm hclose, Ne.symm hat, Ne.symm hescape] using hpercent
    · simpa [Ne.symm hcolon] using hcolons

/-- Whatever a scan has passed, it knows so much of it. -/
theorem passes_of_run {scan last : AuthorityScan} {text : List Char}
    (h : scan.run text = some last) : scan.Passes text last := by
  induction text generalizing scan with
  | nil =>
    obtain rfl : scan = last := by simpa using h
    constructor <;> simp
  | cons c text ih =>
    rw [run_cons] at h
    obtain ⟨next, hstep, hrest⟩ := Option.bind_eq_some_iff.mp h
    exact passes_cons (takes_of_step hstep) (ih hrest)

/-- Characters without a mark leave no trace. -/
theorem run_plain {text : List Char} (h : ∀ c ∈ text, c ∉ marks ∧ isUriChar c = true) :
    run {} text = some {} := by
  induction text with
  | nil => rfl
  | cons c text ih =>
    obtain ⟨⟨hmark, huri⟩, hrest⟩ := List.forall_mem_cons.mp h
    rw [run_cons, step_plain hmark huri, Option.bind_some, ih hrest]

/-- Whether an at sign came last makes no difference to what comes next. -/
theorem run_atSign (scan : AuthorityScan) (b : Bool) {text : List Char} (h : text ≠ []) :
    run { scan with atSign := b } text = run scan text := by
  cases text with
  | nil => exact absurd rfl h
  | cons c text =>
    rw [run_cons, run_cons]
    rfl

/-- The last sign of a text that was run over was taken. -/
theorem exists_takes_of_run_concat {scan next : AuthorityScan} {front : List Char} {c : Char}
    (h : scan.run (front ++ [c]) = some next) : ∃ before : AuthorityScan, before.Takes c next := by
  obtain ⟨before, -, hlast⟩ := run_append_eq_some h
  rw [run_cons] at hlast
  obtain ⟨after, hstep, hsome⟩ := Option.bind_eq_some_iff.mp hlast
  obtain rfl : after = next := by simpa using hsome
  exact ⟨before, takes_of_step hstep⟩

/-- An at sign and a closing bracket make a scan forget the colons and percent signs before them. -/
theorem forgotten_of_run_concat {scan next : AuthorityScan} {front : List Char} {c : Char}
    (hc : c = '@' ∨ c = ']') (h : scan.run (front ++ [c]) = some next) :
    next.colons = 0 ∧ next.percent = false := by
  obtain ⟨before, htakes⟩ := exists_takes_of_run_concat h
  cases htakes with
  | closing | atSign => exact ⟨rfl, rfl⟩
  | plain hmark _ =>
    refine absurd ?_ hmark
    rcases hc with rfl | rfl <;> decide
  | _ => simp at hc

/-- Behind a text without `@` the scan does not stand behind one. -/
theorem atSign_of_run {scan next : AuthorityScan} {text : List Char} (hne : text ≠ [])
    (hat : '@' ∉ text) (h : scan.run text = some next) : next.atSign = false := by
  obtain ⟨front, c, rfl⟩ : ∃ front c, text = front ++ [c] := by
    simpa [hne] using List.eq_nil_or_concat' text
  obtain ⟨before, htakes⟩ := exists_takes_of_run_concat h
  cases htakes with
  | atSign => simp at hat
  | _ => rfl

end AuthorityScan

open AuthorityScan

/-- An authority is a text whose scan comes to its end and is complete there. -/
theorem isAuthority_iff {text : List Char} :
    isAuthority text = true ↔ ∃ scan, run {} text = some scan ∧ scan.complete = true := by
  have hrun : text.foldl (fun scan c => scan.bind (step · c)) (some {}) = run {} text := rfl
  simp only [isAuthority, hrun]
  cases run {} text <;> simp

/-! ## The host -/

/-- What may come before a host: nothing, or user information with its at sign. -/
def IsUserPart (front : List Char) : Prop := front = [] ∨ front.getLast? = some '@'

/-- The host that stands in an authority, behind the user information and before the port. -/
inductive IsHostIn : List Char → List Char → Prop
  | bracketed {front inside rest : List Char} (hfront : IsUserPart front)
    (hat : '@' ∉ '[' :: inside ++ [']'] ++ rest) (hinside : ']' ∉ inside) :
    IsHostIn (front ++ ('[' :: inside ++ [']'] ++ rest)) ('[' :: inside ++ [']'])
  | plain {front host rest : List Char} (hfront : IsUserPart front) (hat : '@' ∉ host ++ rest)
    (hhead : (host ++ rest).head? ≠ some '[') (hcolon : ':' ∉ host)
    (hrest : rest = [] ∨ rest.head? = some ':') :
    IsHostIn (front ++ (host ++ rest)) host

/-- What follows the user information. -/
def afterUser (text : List Char) : List Char :=
  match cutLast '@' text with
  | some (_, rest) => rest
  | none => text

/-- The user part is cut off up to the last `@`. -/
theorem afterUser_append {front rest : List Char} (hfront : IsUserPart front) (hat : '@' ∉ rest) :
    afterUser (front ++ rest) = rest := by
  rcases hfront with rfl | hlast
  · rw [List.nil_append, afterUser, cutLast_eq_none_iff.mpr hat]
  · obtain ⟨user, rfl⟩ := List.getLast?_eq_some_iff.mp hlast
    rw [afterUser, List.append_assoc, List.singleton_append, cutLast_append user hat]

/-- Every text is a user part and what comes after it. -/
theorem exists_userPart (text : List Char) :
    ∃ front, IsUserPart front ∧ '@' ∉ afterUser text ∧ text = front ++ afterUser text := by
  unfold afterUser
  cases hcut : cutLast '@' text with
  | none => exact ⟨[], .inl rfl, cutLast_eq_none_iff.mp hcut, rfl⟩
  | some cut =>
    obtain ⟨user, rest⟩ := cut
    obtain ⟨htext, hat⟩ := cutLast_eq_some_iff.mp hcut
    exact ⟨user ++ ['@'], .inr (by simp), hat, by simpa using htext⟩

/-- What follows the user information, up to a closing bracket or to a colon. -/
def hostBefore (text : List Char) : List Char :=
  match text with
  | '[' :: _ =>
    match cutFirst ']' text with
    | some (inside, _) => inside ++ [']']
    | none => text
  | _ => text.takeWhile (· ≠ ':')

/-- The host of an authority is read behind its user part. -/
theorem hostOf_eq (authority : String) :
    hostOf authority = String.ofList (hostBefore (afterUser authority.toList)) := by
  have hmatch : hostOf authority = match afterUser authority.toList with
      | '[' :: _ =>
        match cutFirst ']' (afterUser authority.toList) with
        | some (inside, _) => String.ofList (inside ++ [']'])
        | none => String.ofList (afterUser authority.toList)
      | _ => String.ofList ((afterUser authority.toList).takeWhile (· ≠ ':')) := rfl
  rw [hmatch]
  generalize afterUser authority.toList = text
  unfold hostBefore
  split
  · cases cutFirst ']' _ <;> rfl
  · rfl

/-- A host in brackets ends with the first closing bracket. -/
theorem hostBefore_bracketed {inside : List Char} (hinside : ']' ∉ inside) (rest : List Char) :
    hostBefore ('[' :: inside ++ [']'] ++ rest) = '[' :: inside ++ [']'] := by
  have hcut : cutFirst ']' ('[' :: (inside ++ ']' :: rest)) = some ('[' :: inside, rest) :=
    cutFirst_eq_some_iff.mpr ⟨rfl, by simpa using hinside⟩
  have htext : '[' :: inside ++ [']'] ++ rest = '[' :: (inside ++ ']' :: rest) := by simp
  rw [htext, hostBefore, hcut]

/-- A host without brackets ends with the first colon. -/
theorem hostBefore_plain {text : List Char} (h : text.head? ≠ some '[') :
    hostBefore text = text.takeWhile (· ≠ ':') := by
  unfold hostBefore
  split
  · simp at h
  · rfl

/-- A host without a colon is found in front of the colon behind it. -/
theorem takeWhile_colon {host rest : List Char} (hcolon : ':' ∉ host)
    (hrest : rest = [] ∨ rest.head? = some ':') : (host ++ rest).takeWhile (· ≠ ':') = host := by
  have hall : ∀ c ∈ host, decide (c ≠ ':') = true := by
    intro c hc
    exact decide_eq_true fun heq => hcolon (heq ▸ hc)
  rw [List.takeWhile_append_of_pos hall]
  rcases hrest with rfl | hrest
  · simp
  · obtain ⟨port, rfl⟩ := List.head?_eq_some_iff.mp hrest
    simp

/-- The host that stands in an authority is the one that is cut out of it. -/
theorem hostOf_of_isHostIn {authority : String} {host : List Char}
    (h : IsHostIn authority.toList host) : hostOf authority = String.ofList host := by
  rw [hostOf_eq]
  generalize authority.toList = text at h
  cases h with
  | bracketed hfront hat hinside =>
    rw [afterUser_append hfront hat, hostBefore_bracketed hinside]
  | plain hfront hat hhead hcolon hrest =>
    rw [afterUser_append hfront hat, hostBefore_plain hhead, takeWhile_colon hcolon hrest]

/-- A bracket that opens the host is closed again. -/
theorem closing_mem {front rest : List Char} (h : isAuthority (front ++ '[' :: rest) = true) :
    ']' ∈ rest := by
  obtain ⟨last, hrun, hcomplete⟩ := isAuthority_iff.mp h
  obtain ⟨before, hbefore, hafter⟩ := run_append_eq_some hrun
  have hfront := passes_of_run hbefore
  have hrest := passes_of_run hafter
  have hopened : before.opened = false := hrest.first_opening (by simp)
  have hclosed : last.closed = true := by
    have hlast : last.opened = true := hrest.opened.mpr (.inr (by simp))
    simp only [complete, Bool.and_eq_true, beq_iff_eq] at hcomplete
    rw [← hcomplete.1.1.1, hlast]
  rcases hrest.closed.mp hclosed with hbracket | hmem
  · have hmem : ']' ∈ front := by simpa using hfront.closed.mp hbracket
    rw [hfront.paired hmem] at hopened
    exact absurd hopened (by decide)
  · simpa using hmem

/-- Every authority has a host. -/
theorem isHostIn_hostOf {authority : String} (h : isAuthority authority.toList = true) :
    IsHostIn authority.toList (hostOf authority).toList := by
  rw [hostOf_eq, String.toList_ofList]
  obtain ⟨front, hfront, hat, htext⟩ := exists_userPart authority.toList
  generalize afterUser authority.toList = text at hat htext
  rw [htext] at h ⊢
  by_cases hhead : text.head? = some '['
  · obtain ⟨tail, rfl⟩ := List.head?_eq_some_iff.mp hhead
    cases hcut : cutFirst ']' tail with
    | none => exact absurd (closing_mem h) (cutFirst_eq_none_iff.mp hcut)
    | some cut =>
      obtain ⟨inside, rest⟩ := cut
      obtain ⟨rfl, hinside⟩ := cutFirst_eq_some_iff.mp hcut
      have hshape : '[' :: (inside ++ ']' :: rest) = '[' :: inside ++ [']'] ++ rest := by simp
      rw [hshape] at hat ⊢
      rw [hostBefore_bracketed hinside]
      exact .bracketed hfront hat hinside
  · rw [hostBefore_plain hhead]
    cases hcut : cutFirst ':' text with
    | none =>
      have hcolon := cutFirst_eq_none_iff.mp hcut
      have hhost := IsHostIn.plain hfront (by simpa using hat) (by simpa using hhead) hcolon (.inl rfl)
      have htake := takeWhile_colon hcolon (.inl rfl)
      rw [List.append_nil] at hhost htake
      rwa [htake]
    | some cut =>
      obtain ⟨host, port⟩ := cut
      obtain ⟨rfl, hcolon⟩ := cutFirst_eq_some_iff.mp hcut
      rw [takeWhile_colon hcolon (.inr rfl)]
      exact .plain hfront hat hhead hcolon (.inr rfl)

/-- A host is its own host: no user information stands before it and no port behind it. -/
theorem isHostIn_self {authority host : List Char} (h : IsHostIn authority host) :
    IsHostIn host host := by
  have hnone : IsUserPart [] := .inl rfl
  cases h with
  | @bracketed front inside rest hfront hat hinside =>
    have hself : '@' ∉ '[' :: inside ++ [']'] ++ [] := fun hmem =>
      hat (List.mem_append_left _ (by simpa using hmem))
    simpa using IsHostIn.bracketed hnone hself hinside
  | @plain front host rest hfront hat hhead hcolon hrest =>
    have hself : '@' ∉ host ++ [] := fun hmem => hat (List.mem_append_left _ (by simpa using hmem))
    have hno : (host ++ []).head? ≠ some '[' := by
      cases host with
      | nil => simp
      | cons c host => simpa using hhead
    simpa using IsHostIn.plain hnone hself hno hcolon (.inl rfl)

/-- The scan of an authority, stopped before its host and behind it. -/
theorem exists_scans {authority host : List Char} (h : isAuthority authority = true)
    (hhost : IsHostIn authority host) :
    ∃ rest before next last, run before host = some next ∧ run next rest = some last ∧
      last.complete = true ∧ before.colons = 0 ∧ before.percent = false ∧ '@' ∉ host ++ rest := by
  obtain ⟨front, rest, rfl, hfront, hat⟩ : ∃ front rest, authority = front ++ (host ++ rest) ∧
      IsUserPart front ∧ '@' ∉ host ++ rest := by
    cases hhost with
    | bracketed hfront hat _ => exact ⟨_, _, rfl, hfront, hat⟩
    | plain hfront hat _ _ _ => exact ⟨_, _, rfl, hfront, hat⟩
  obtain ⟨last, hrun, hcomplete⟩ := isAuthority_iff.mp h
  obtain ⟨before, hbefore, hafter⟩ := run_append_eq_some hrun
  obtain ⟨next, hnext, hlast⟩ := run_append_eq_some hafter
  have hforgotten : before.colons = 0 ∧ before.percent = false := by
    rcases hfront with rfl | hfront
    · obtain rfl : {} = before := by simpa using hbefore
      exact ⟨rfl, rfl⟩
    · obtain ⟨user, rfl⟩ := List.getLast?_eq_some_iff.mp hfront
      exact forgotten_of_run_concat (.inl rfl) hbefore
  exact ⟨rest, before, next, last, hnext, hlast, hcomplete, hforgotten.1, hforgotten.2, hat⟩

/-- The brackets in a host are paired, and a percent sign in it stands in brackets. -/
def IsPaired (host : List Char) : Prop :=
  ('[' ∈ host ↔ ']' ∈ host) ∧ ('%' ∈ host → ']' ∈ host)

instance (host : List Char) : Decidable (IsPaired host) := inferInstanceAs (Decidable (_ ∧ _))

/-- In an authority without a user part brackets come in a pair, and a percent sign only with them.
-/
theorem isPaired_of_isAuthority {host : List Char} (hat : '@' ∉ host)
    (h : isAuthority host = true) : IsPaired host := by
  obtain ⟨scan, hrun, hcomplete⟩ := isAuthority_iff.mp h
  have hpasses := passes_of_run hrun
  have hopened : scan.opened = true ↔ '[' ∈ host := by simpa using hpasses.opened
  have hclosed : scan.closed = true ↔ ']' ∈ host := by simpa using hpasses.closed
  simp only [complete, Bool.and_eq_true, beq_iff_eq, Bool.not_eq_true'] at hcomplete
  obtain ⟨⟨⟨hsame, -⟩, -⟩, hpercent⟩ := hcomplete
  refine ⟨by rw [← hopened, ← hclosed, hsame], fun hmem => ?_⟩
  by_contra hno
  rw [(hpasses.percent hno hat).mpr (.inr hmem)] at hpercent
  exact absurd hpercent (by decide)

/-- A host with both brackets is read on its own as it was read in the authority. -/
theorem isAuthority_of_brackets {authority host : List Char} (h : isAuthority authority = true)
    (hhost : IsHostIn authority host) (hopen : '[' ∈ host) (hclose : ']' ∈ host) :
    isAuthority host = true := by
  obtain ⟨rest, before, next, last, hnext, hlast, hcomplete, hcolons, hpercent, hat⟩ :=
    exists_scans h hhost
  have hpasses := passes_of_run hnext
  have hrest := passes_of_run hlast
  have hne : host ≠ [] := List.ne_nil_of_mem hopen
  have hat : '@' ∉ host ∧ '@' ∉ rest := by simpa using hat
  have hblank : before = { ({} : AuthorityScan) with atSign := before.atSign } := by
    have hopened := hpasses.first_opening hopen
    have hclosed := hpasses.first_closing hclose
    cases before
    simp_all
  rw [hblank, run_atSign _ _ hne] at hnext
  have hopened : next.opened = true := hpasses.opened.mpr (.inr hopen)
  have hclosed : next.closed = true := hpasses.closed.mpr (.inr hclose)
  have hfew : next.colons ≤ 1 := by
    cases hhost with
    | bracketed _ _ _ => exact (forgotten_of_run_concat (.inr rfl) hnext).1 ▸ Nat.zero_le 1
    | plain _ _ _ hcolon _ =>
      have hle := hpasses.colons hcolon
      omega
  -- a percent sign that is still remembered would be remembered to the end
  have hforgotten : next.percent = false := by
    have hno : ']' ∉ rest := by
      intro hmem
      rw [hrest.first_closing hmem] at hclosed
      exact absurd hclosed (by decide)
    by_contra hyes
    have hkept := (hrest.percent hno hat.2).mpr (.inl (by simpa using hyes))
    simp [complete, hkept] at hcomplete
  refine isAuthority_iff.mpr ⟨next, hnext, ?_⟩
  simp [complete, hopened, hclosed, hfew, hforgotten, atSign_of_run hne hat.1 hnext]

/-- A host is an authority by itself exactly if it is paired. -/
theorem isAuthority_host_iff {authority host : List Char} (h : isAuthority authority = true)
    (hhost : IsHostIn authority host) : isAuthority host = true ↔ IsPaired host := by
  obtain ⟨rest, before, next, last, hnext, -, -, -, -, hat⟩ := exists_scans h hhost
  have hat : '@' ∉ host := fun hmem => hat (List.mem_append_left _ hmem)
  refine ⟨isPaired_of_isAuthority hat, fun hpaired => ?_⟩
  by_cases hclose : ']' ∈ host
  · exact isAuthority_of_brackets h hhost (hpaired.1.mpr hclose) hclose
  · have hopen : '[' ∉ host := fun hmem => hclose (hpaired.1.mp hmem)
    have hpercent : '%' ∉ host := fun hmem => hclose (hpaired.2 hmem)
    have hcolon : ':' ∉ host := by
      cases hhost with
      | bracketed _ _ _ => simp at hclose
      | plain _ _ _ hcolon _ => exact hcolon
    have hplain : ∀ c ∈ host, c ∉ marks ∧ isUriChar c = true := by
      intro c hc
      have hmark : c ∉ marks := by
        simp only [marks, List.mem_cons, List.not_mem_nil, or_false, not_or]
        exact ⟨ne_of_mem_of_not_mem hc hcolon, ne_of_mem_of_not_mem hc hopen,
          ne_of_mem_of_not_mem hc hclose, ne_of_mem_of_not_mem hc hat,
          ne_of_mem_of_not_mem hc hpercent⟩
      exact ⟨hmark, ((passes_of_run hnext).chars c hc).2 hmark⟩
    exact isAuthority_iff.mpr ⟨{}, run_plain hplain, rfl⟩

/-- Hosts that can stand alone, and some that the brackets around them make unreadable. -/
example :
    (["example.com", "[::1]", "[fe80::1%25eth0]", "a[b]", ""].all fun host =>
      IsPaired host.toList) = true ∧
    (["a[b", "h]", "a%"].all fun host => !IsPaired host.toList) = true := by
  decide

end WebHost.Uri
