import WebHost.Middleware.BasicAuth
import WebHost.Proofs.Encoding.Base64
import WebHost.Proofs.Text.Parts
import WebHost.Proofs.Text.Utf8

/-!
# Who gets past the gate

What a request presents is said here without the reader: a field text in which the scheme, a space
and the written form of user and password follow each other. Reading finds exactly that, writing
produces one such text, and the gate compares digests byte by byte. So the gate opens for the
expected credentials alone, as far as the digest tells the compared texts apart.
-/

set_option autoImplicit false

namespace WebHost

open Text

/-! ## Digests -/

namespace Sha256

/-- The digest does not confuse two texts. -/
def TellsApart (a b : String) : Prop := digest (Utf8.encode a) = digest (Utf8.encode b) → a = b

/-- A number is written in as many bytes as asked for. -/
theorem length_bigEndian (width n : Nat) : (bigEndian width n).length = width := by
  rw [bigEndian, List.length_map, List.length_range]

/-- A digest has 32 bytes. -/
theorem length_digest (message : Bytes) : (digest message).length = 32 := by
  simp [digest, length_bigEndian]

end Sha256

namespace BasicAuth

/-- What is gathered stays zero as long as no two bytes differ. -/
theorem gathered_eq_zero_iff (pairs : List (UInt8 × UInt8)) (start : UInt8) :
    pairs.foldl (fun gathered (x, y) => gathered ||| (x ^^^ y)) start = 0 ↔
      start = 0 ∧ ∀ pair ∈ pairs, pair.1 = pair.2 := by
  induction pairs generalizing start with
  | nil => simp
  | cons pair pairs ih =>
    rw [List.foldl_cons, ih, UInt8.or_eq_zero_iff, UInt8.xor_eq_zero_iff, List.forall_mem_cons,
      and_assoc]

/-- On texts of one length the comparison is that of equality. -/
theorem sameDigest_iff {a b : Bytes} (h : a.length = b.length) : sameDigest a b = true ↔ a = b := by
  have hzip : (∀ pair ∈ a.zip b, pair.1 = pair.2) ↔ a = b := by
    induction a generalizing b with
    | nil =>
      cases b with
      | nil => simp
      | cons y b => simp at h
    | cons x a ih =>
      cases b with
      | nil => simp at h
      | cons y b =>
        rw [List.zip_cons_cons, List.forall_mem_cons, ih (by simpa using h), List.cons_eq_cons]
  rw [sameDigest, beq_iff_eq, gathered_eq_zero_iff, hzip]
  simp

/-- Where digests tell texts apart, only the expected user and password are accepted. -/
theorem accepts_expect_iff {user pass u p : String} (hu : Sha256.TellsApart u user)
    (hp : Sha256.TellsApart p pass) :
    (expect user pass).accepts u p = true ↔ u = user ∧ p = pass := by
  have hlength (a b : Bytes) : (Sha256.digest a).length = (Sha256.digest b).length := by
    rw [Sha256.length_digest, Sha256.length_digest]
  simp only [accepts, expect, Bool.and_eq_true, sameDigest_iff (hlength _ _)]
  constructor
  · rintro ⟨huser, hpass⟩
    exact ⟨hu huser.symm, hp hpass.symm⟩
  · rintro ⟨rfl, rfl⟩
    exact ⟨rfl, rfl⟩

end BasicAuth

/-! ## Written credentials -/

namespace Credentials

/-- A field text that carries a user and a password: the scheme in any case, a space, and the
written form of both with a colon between them. Blanks may stand around the scheme and around what
follows the space. -/
def Carries (value : List Char) (user pass : String) : Prop :=
  ':' ∉ user.toList ∧ ∃ before scheme between after : List Char,
    (∀ c ∈ before ++ between ++ after, isBlank c = true) ∧
    sameIgnoringCase (String.ofList scheme) "basic" = true ∧
    value = before ++ scheme ++ ' ' :: between ++
      Base64.encodeChars (Utf8.encode (user ++ ":" ++ pass)) ++ after

/-- What Base64 writes holds no blank. -/
theorem isBlank_of_isWritten {c : Char} (h : Base64.IsWritten c) : isBlank c = false := by
  obtain ⟨hlow, hhigh⟩ := h
  simp only [isBlank, Bool.or_eq_false_iff, Bool.and_eq_false_iff, decide_eq_false_iff_not]
  omega

/-- No blank becomes a letter when capitals are made small. -/
theorem isBlank_of_lowerChar {c : Char} (h : lowerChar c ∈ "basic".toList) : isBlank c = false := by
  unfold lowerChar at h
  split_ifs at h with hcapital
  · have hlow : 65 ≤ c.toNat := hcapital.1
    have hhigh : c.toNat ≤ 90 := hcapital.2
    simp only [isBlank, Bool.or_eq_false_iff, Bool.and_eq_false_iff, decide_eq_false_iff_not]
    omega
  · have hletters : ("basic".toList.all fun d => !isBlank d) = true := by decide
    simpa using List.all_eq_true.mp hletters c h

/-- The name of the scheme holds no blank, in whatever case it is written. -/
theorem isBlank_of_mem_scheme {scheme : List Char}
    (h : sameIgnoringCase (String.ofList scheme) "basic" = true) {c : Char} (hc : c ∈ scheme) :
    isBlank c = false := by
  have hlower : scheme.map lowerChar = "basic".toList := by
    have heq : lower (String.ofList scheme) = lower "basic" := by
      simpa [sameIgnoringCase] using h
    have hchars := congrArg String.toList heq
    rw [lower, lower, String.toList_ofList, String.toList_ofList, String.toList_ofList] at hchars
    rw [hchars]
    decide
  apply isBlank_of_lowerChar
  rw [← hlower]
  exact List.mem_map_of_mem hc

/-- The name of the scheme is not empty. -/
theorem scheme_ne_nil {scheme : List Char}
    (h : sameIgnoringCase (String.ofList scheme) "basic" = true) : scheme ≠ [] := by
  rintro rfl
  exact absurd h (by decide)

/-- User and password, with the colon between them, are never the empty text. -/
theorem encodeChars_pair_ne_nil (user pass : String) :
    Base64.encodeChars (Utf8.encode (user ++ ":" ++ pass)) ≠ [] := by
  rw [Ne, Base64.encodeChars_eq_nil_iff, Utf8.encode_eq_flatMap]
  simp [String.utf8EncodeChar_ne_nil]

/-- Blanks around what is written of a user and a password are all that trimming takes away. -/
theorem trim_written {between after : List Char} (user pass : String)
    (hbetween : ∀ c ∈ between, isBlank c = true) (hafter : ∀ c ∈ after, isBlank c = true) :
    trim (between ++ Base64.encodeChars (Utf8.encode (user ++ ":" ++ pass)) ++ after) =
      Base64.encodeChars (Utf8.encode (user ++ ":" ++ pass)) := by
  have hne := encodeChars_pair_ne_nil user pass
  have hwritten : ∀ c ∈ Base64.encodeChars (Utf8.encode (user ++ ":" ++ pass)),
      isBlank c = false :=
    fun c hc => isBlank_of_isWritten (Base64.isWritten_of_mem_encodeChars hc)
  exact trim_between_blanks hbetween hafter hne (hwritten _ (List.head_mem hne))
    (hwritten _ (List.getLast_mem hne))

/-- Credentials are read exactly from the Base64 of a user without a colon and a password behind
one, between blanks. -/
theorem decodeBasic?_eq_some_iff {encoded : List Char} {user pass : String} :
    decodeBasic? encoded = some (user, pass) ↔
      ':' ∉ user.toList ∧
        trim encoded = Base64.encodeChars (Utf8.encode (user ++ ":" ++ pass)) := by
  simp only [decodeBasic?, Option.bind_eq_bind, Option.bind_eq_some_iff,
    Base64.decode?_eq_some_iff, Utf8.decode?_eq_some_iff]
  constructor
  · rintro ⟨_, hencoded, text, rfl, ⟨front, rest⟩, hcut, h⟩
    obtain ⟨rfl, rfl⟩ : String.ofList front = user ∧ String.ofList rest = pass := by simpa using h
    obtain ⟨htext, hcolon⟩ := cutFirst_eq_some_iff.mp hcut
    have hjoin : text = String.ofList front ++ ":" ++ String.ofList rest := by
      rw [← String.toList_inj, htext]
      simp
    have hchars := congrArg String.toList hencoded
    rw [String.toList_ofList, Base64.encode, String.toList_ofList, hjoin] at hchars
    exact ⟨by rwa [String.toList_ofList], hchars⟩
  · rintro ⟨hcolon, hencoded⟩
    refine ⟨_, by rw [hencoded, Base64.encode], _, rfl, (user.toList, pass.toList), ?_, by simp⟩
    rw [cutFirst_eq_some_iff]
    exact ⟨by simp, hcolon⟩

/-- A field presents credentials exactly if its first space parts the name of the scheme from
encoded ones. -/
theorem readBasic?_eq_some_iff {value : List Char} {user pass : String} :
    readBasic? value = some (user, pass) ↔
      ∃ scheme encoded, value = scheme ++ ' ' :: encoded ∧
        sameIgnoringCase (String.ofList scheme) "basic" = true ∧
        decodeBasic? encoded = some (user, pass) := by
  constructor
  · intro h
    unfold readBasic? at h
    obtain ⟨⟨scheme, encoded⟩, hcut, h⟩ := Option.bind_eq_some_iff.mp h
    obtain ⟨_, hguard, hdecode⟩ := Option.bind_eq_some_iff.mp h
    have hscheme : sameIgnoringCase (String.ofList scheme) "basic" = true := by
      by_contra hno
      exact absurd (hguard.symm.trans (if_neg hno)) (by simp)
    exact ⟨scheme, encoded, (cutFirst_eq_some_iff.mp hcut).1, hscheme, hdecode⟩
  · rintro ⟨scheme, encoded, rfl, hscheme, hdecode⟩
    have hspace : ' ' ∉ scheme := by
      intro hmem
      exact absurd (isBlank_of_mem_scheme hscheme hmem) (by decide)
    have hcut : cutFirst ' ' (scheme ++ ' ' :: encoded) = some (scheme, encoded) :=
      cutFirst_eq_some_iff.mpr ⟨rfl, hspace⟩
    rw [readBasic?, hcut]
    exact Option.bind_eq_some_iff.mpr ⟨(scheme, encoded), rfl,
      Option.bind_eq_some_iff.mpr ⟨(), if_pos hscheme, hdecode⟩⟩

/-- The reader finds a user and a password exactly in the texts that carry them. -/
theorem readBasic?_trim_eq_some_iff {value : List Char} {user pass : String} :
    readBasic? (trim value) = some (user, pass) ↔ Carries value user pass := by
  rw [readBasic?_eq_some_iff]
  constructor
  · rintro ⟨scheme, encoded, htrim, hscheme, hdecode⟩
    obtain ⟨hcolon, hencoded⟩ := decodeBasic?_eq_some_iff.mp hdecode
    obtain ⟨before, after, hbefore, hafter, hvalue⟩ := exists_blanks_around_trim value
    obtain ⟨between, rest, hbetween, hrest, hsplit⟩ := exists_blanks_around_trim encoded
    refine ⟨hcolon, before, scheme, between, rest ++ after, ?_, hscheme, ?_⟩
    · intro c hc
      simp only [List.mem_append] at hc
      rcases hc with (hc | hc) | hc | hc
      · exact hbefore c hc
      · exact hbetween c hc
      · exact hrest c hc
      · exact hafter c hc
    · rw [hencoded] at hsplit
      rw [hvalue, htrim, hsplit]
      simp
  · rintro ⟨hcolon, before, scheme, between, after, hblank, hscheme, rfl⟩
    have hbefore : ∀ c ∈ before, isBlank c = true := fun c hc => hblank c (by simp [hc])
    have hbetween : ∀ c ∈ between, isBlank c = true := fun c hc => hblank c (by simp [hc])
    have hafter : ∀ c ∈ after, isBlank c = true := fun c hc => hblank c (by simp [hc])
    have hne := encodeChars_pair_ne_nil user pass
    have hlast : isBlank
        ((Base64.encodeChars (Utf8.encode (user ++ ":" ++ pass))).getLast hne) = false :=
      isBlank_of_isWritten (Base64.isWritten_of_mem_encodeChars (List.getLast_mem hne))
    have htrim := trim_written user pass hbetween (List.forall_mem_nil _)
    rw [List.append_nil] at htrim
    generalize hw : Base64.encodeChars (Utf8.encode (user ++ ":" ++ pass)) = written
      at hne hlast htrim ⊢
    refine ⟨scheme, between ++ written, ?_, hscheme,
      decodeBasic?_eq_some_iff.mpr ⟨hcolon, htrim.trans hw.symm⟩⟩
    have hscheme_ne := scheme_ne_nil hscheme
    have hhead : isBlank (scheme.head hscheme_ne) = false :=
      isBlank_of_mem_scheme hscheme (List.head_mem hscheme_ne)
    have hvalue : before ++ scheme ++ ' ' :: between ++ written ++ after =
        before ++ (scheme ++ ' ' :: (between ++ written)) ++ after := by simp
    rw [hvalue]
    exact trim_between_blanks hbefore hafter (by simp)
      (by rwa [List.head_append_of_ne_nil hscheme_ne]) (by simpa [hne] using hlast)

/-- The text of an authorization field carries what it was written from. -/
theorem carries_value_iff {user pass u p : String} (hcolon : ':' ∉ user.toList) :
    Carries (basic user pass).value.toList u p ↔ u = user ∧ p = pass := by
  have hself : Carries (basic user pass).value.toList user pass := by
    refine ⟨hcolon, [], "Basic".toList, [], [], by simp, by decide, ?_⟩
    simp [value, Base64.encode]
  constructor
  · intro h
    rw [← readBasic?_trim_eq_some_iff] at h hself
    rw [h] at hself
    simpa using hself
  · rintro ⟨rfl, rfl⟩
    exact hself

/-- Written credentials consist of visible signs, as a field value must. -/
theorem isVisible_of_mem_value {user pass : String} {c : Char}
    (h : c ∈ (basic user pass).value.toList) : IsVisible c := by
  have hword : ("Basic ".toList.all fun d => IsVisible d) = true := by decide
  rw [value, String.toList_append, List.mem_append] at h
  rcases h with h | h
  · exact of_decide_eq_true (List.all_eq_true.mp hword c h)
  · rw [Base64.encode, String.toList_ofList] at h
    obtain ⟨hlow, hhigh⟩ := Base64.isWritten_of_mem_encodeChars h
    exact ⟨by omega, hhigh⟩

/-- Writing the field always succeeds and leaves the written text as its only value. -/
theorem modifier_basic (user pass : String) (headers : Headers) :
    ∃ written, (basic user pass).modifier headers = .ok written ∧
      written.text? "authorization" = some (basic user pass).value := by
  have hvisible : ∀ c ∈ (basic user pass).value.toList, IsVisible c := fun c =>
    isVisible_of_mem_value
  refine ⟨_, rfl, ?_⟩
  rw [HeaderModifier.setIfValid, if_pos (isHeaderValue_of_visible hvisible), Headers.text?,
    Headers.get?, Headers.values_set, if_pos rfl]
  exact headerText?_of_visible hvisible

end Credentials

/-! ## The gate -/

/-- A request presents a user and a password: the first value of its authorization field is a text
that carries them. -/
def Request.Presents (request : Request) (user pass : String) : Prop :=
  ∃ value, request.headers.text? "authorization" = some value ∧
    Credentials.Carries value.toList user pass

/-- Decoding a request finds exactly what it presents. -/
theorem Request.basicCredentials?_eq_some_iff {request : Request} {user pass : String} :
    request.basicCredentials? = some (user, pass) ↔ request.Presents user pass := by
  simp only [basicCredentials?, Presents, Option.bind_eq_bind, Option.bind_eq_some_iff,
    Credentials.readBasic?_trim_eq_some_iff]

namespace BasicAuth

/-- The digest does not confuse what a request presents with the expected credentials. -/
def TellsApart (request : Request) (user pass : String) : Prop :=
  ∀ u p, request.Presents u p → Sha256.TellsApart u user ∧ Sha256.TellsApart p pass

/-- Where digests tell texts apart, a request is authorized exactly if it presents the expected user
and password. -/
theorem authorized_iff {user pass : String} {request : Request}
    (h : TellsApart request user pass) :
    (expect user pass).authorized request = true ↔ request.Presents user pass := by
  rw [← Request.basicCredentials?_eq_some_iff, authorized]
  split
  · rename_i u p hpresented
    obtain ⟨hu, hp⟩ := h u p (Request.basicCredentials?_eq_some_iff.mp hpresented)
    rw [accepts_expect_iff hu hp, hpresented]
    simp
  · rename_i hnone
    simp [hnone]

/-- A gate that passes requests on for one user and one password. -/
structure Guards (m : Middleware) (user pass : String) : Prop where
  /-- A request is passed on, whatever follows, exactly if it presents the credentials. -/
  passes_iff : ∀ request, TellsApart request user pass →
    ((∀ next : Next, m.around next request = next.run request) ↔ request.Presents user pass)
  /-- Any other request is answered with a challenge, and nothing that follows is run. -/
  challenges : ∀ request, TellsApart request user pass → ¬ request.Presents user pass →
    ∃ response : Response, response.status = 401 ∧
      response.headers.values "www-authenticate" = [Utf8.encode challenge] ∧
      ∀ next : Next, m.around next request = pure response
  /-- A request whose field was written for a user and a password is passed on exactly if these are
  the expected ones. -/
  written_iff : ∀ (request : Request) (u p : String), ':' ∉ u.toList → Sha256.TellsApart u user →
    Sha256.TellsApart p pass →
    ∃ headers, (Credentials.basic u p).modifier request.headers = .ok headers ∧
      ((∀ next : Next, m.around next { request with headers } = next.run { request with headers }) ↔
        u = user ∧ p = pass)

section Expect

variable {user pass : String}

/-- With a password set, the middleware hands on exactly the authorized requests and answers the
others itself. -/
theorem around_expect (hpass : pass ≠ "") (next : Next) (request : Request) :
    (expect user pass).middleware.around next request =
      if (expect user pass).authorized request then next.run request else pure unauthorized := by
  have henabled : (expect user pass).enabled = true := by simp [expect, hpass]
  simp only [middleware, henabled, Bool.not_true, Bool.false_or]

/-- A request that is not authorized is not passed on: what follows might answer differently. -/
theorem passes_iff_authorized (hpass : pass ≠ "") (request : Request) :
    (∀ next : Next, (expect user pass).middleware.around next request = next.run request) ↔
      (expect user pass).authorized request = true := by
  constructor
  · intro h
    by_contra hno
    have hanswer := h ⟨none, fun _ => pure (Response.empty 200)⟩
    rw [around_expect hpass, if_neg hno] at hanswer
    have hstatus : unauthorized.status = 200 := congrArg Response.status (Job.done.inj hanswer)
    exact absurd hstatus (by decide)
  · intro h next
    rw [around_expect hpass, if_pos h]

/-- The refusal carries the challenge and no other one. -/
theorem headers_unauthorized :
    unauthorized.headers.values "www-authenticate" = [Utf8.encode challenge] := by
  simp [unauthorized, Headers.setText]

/-- The gate for a user and a password passes on the requests that present them, and challenges all
others; an empty password would open it to everyone. -/
theorem guards_expect (hpass : pass ≠ "") : Guards (expect user pass).middleware user pass where
  passes_iff request h := by
    rw [passes_iff_authorized hpass, authorized_iff h]
  challenges request h hno := by
    refine ⟨unauthorized, rfl, headers_unauthorized, ?_⟩
    intro next
    rw [around_expect hpass, if_neg (by rwa [authorized_iff h])]
  written_iff request u p hcolon hu hp := by
    obtain ⟨headers, hwritten, htext⟩ :=
      Credentials.modifier_basic u p request.headers
    have hpresents : ∀ u' p',
        { request with headers }.Presents u' p' ↔ u' = u ∧ p' = p := by
      intro u' p'
      rw [Request.Presents, htext]
      simp [Credentials.carries_value_iff hcolon]
    have htells : TellsApart { request with headers } user pass := by
      intro u' p' h
      obtain ⟨rfl, rfl⟩ := (hpresents u' p').mp h
      exact ⟨hu, hp⟩
    refine ⟨headers, hwritten, ?_⟩
    rw [passes_iff_authorized hpass, authorized_iff htells, hpresents, eq_comm (a := user),
      eq_comm (a := pass)]

end Expect

/-- A password with a colon in it, and a wrong pair that the digest tells from the expected one. -/
theorem guards_expect_admin :
    "se:cret" ≠ "" ∧ Guards (expect "admin" "se:cret").middleware "admin" "se:cret" ∧
      Sha256.TellsApart "root" "admin" ∧ Sha256.TellsApart "secret" "se:cret" := by
  have hpass : "se:cret" ≠ "" := by decide
  refine ⟨hpass, guards_expect hpass, ?_, ?_⟩
  · intro h
    exact absurd h (by decide +kernel)
  · intro h
    exact absurd h (by decide +kernel)

end BasicAuth

end WebHost
