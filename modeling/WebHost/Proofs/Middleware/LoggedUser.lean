import Mathlib.Data.Option.Basic
import WebHost.Proofs.Middleware.AccessLog
import WebHost.Proofs.Middleware.BasicAuth

/-!
# The user that a log names

The gate and the access log read the same field, and each for itself. The gate drops the blanks around
the field before it looks for the scheme; the log looks for the scheme at once, and drops only the blanks
around what follows it. Blanks anywhere else make no difference to either. So the two find the same user
exactly if no blank comes before the scheme; with one, a request passes the gate and is logged as that of
nobody.
-/

set_option autoImplicit false

namespace WebHost

open Text

namespace Credentials

/-- The reader that drops no blanks finds a user and a password exactly in the texts that carry them and
begin with none. -/
theorem readBasic?_eq_some_iff_carries {value : List Char} {user pass : String} :
    readBasic? value = some (user, pass) ↔
      Carries value user pass ∧ ∀ c ∈ value.head?, isBlank c = false := by
  rw [readBasic?_eq_some_iff]
  constructor
  · rintro ⟨scheme, encoded, rfl, hscheme, hdecode⟩
    obtain ⟨hcolon, hencoded⟩ := decodeBasic?_eq_some_iff.mp hdecode
    obtain ⟨between, after, hbetween, hafter, hsplit⟩ := exists_blanks_around_trim encoded
    refine ⟨⟨hcolon, [], scheme, between, after, ?_, hscheme, ?_⟩, ?_⟩
    · intro c hc
      rcases List.mem_append.mp hc with hc | hc
      · exact hbetween c hc
      · exact hafter c hc
    · rw [← hencoded, List.nil_append]
      simpa using hsplit
    · intro c hc
      rw [List.head?_append_of_ne_nil _ (scheme_ne_nil hscheme)] at hc
      exact isBlank_of_mem_scheme hscheme (List.mem_of_mem_head? hc)
  · rintro ⟨⟨hcolon, before, scheme, between, after, hblank, hscheme, rfl⟩, hhead⟩
    have hbetween : ∀ c ∈ between, isBlank c = true := fun c hc => hblank c (by simp [hc])
    have hafter : ∀ c ∈ after, isBlank c = true := fun c hc => hblank c (by simp [hc])
    have hbefore : before = [] := by
      cases before with
      | nil => rfl
      | cons c before =>
        have hc : isBlank c = true := hblank c (by simp)
        rw [hhead c (by simp)] at hc
        exact absurd hc (by decide)
    subst hbefore
    exact ⟨scheme, _, by simp, hscheme,
      decodeBasic?_eq_some_iff.mpr ⟨hcolon, trim_written user pass hbetween hafter⟩⟩

end Credentials

/-- A target without user information: its authority, if it has one, holds no at sign. -/
def Uri.NamesNoUser (u : Uri) : Prop := ∀ authority ∈ u.authority, '@' ∉ authority.toList

namespace Request

/-- The text of the authorization field begins with a blank. -/
def LeadsWithBlank (request : Request) : Prop :=
  ∃ value, request.headers.text? "authorization" = some value ∧
    ∃ c ∈ value.toList.head?, isBlank c = true

/-- A request presents a user with a name behind a blank. -/
def HidesUser (request : Request) : Prop :=
  request.LeadsWithBlank ∧
    ∃ user pass, user ≠ "" ∧ request.basicCredentials? = some (user, pass)

end Request

namespace RequestInfo

variable {request : Request}

/-- A target that names no user gives the log none. -/
theorem userOfUri?_eq_none {u : Uri} (h : u.NamesNoUser) : userOfUri? u = none := by
  unfold userOfUri?
  cases hauthority : u.authority with
  | none => rfl
  | some authority =>
    have hcut : cutLast '@' authority.toList = none :=
      cutLast_eq_none_iff.mpr (h authority hauthority)
    simp [hcut]

/-- The header gives the log exactly the user of credentials whose field does not lead with a blank.
-/
theorem userOfHeader?_eq_some_iff {user : String} :
    userOfHeader? request.headers = some user ↔
      user ≠ "" ∧ (∃ pass, request.basicCredentials? = some (user, pass)) ∧
        ¬ request.LeadsWithBlank := by
  have hread : userOfHeader? request.headers = some user ↔ user ≠ "" ∧
      ∃ value pass, request.headers.text? "authorization" = some value ∧
        Credentials.readBasic? value.toList = some (user, pass) := by
    unfold userOfHeader?
    simp only [Option.bind_eq_bind, Option.bind_eq_some_iff]
    constructor
    · rintro ⟨value, htext, ⟨found, pass⟩, hread, _, hguard, hsome⟩
      obtain rfl := Option.some.inj hsome
      have hne : found ≠ "" := by simpa using (Option.guard_eq_some' _).mp hguard
      exact ⟨hne, value, pass, htext, hread⟩
    · rintro ⟨hne, value, pass, htext, hread⟩
      exact ⟨value, htext, _, hread, (), (Option.guard_eq_some' _).mpr (by simpa using hne), rfl⟩
  rw [hread]
  simp only [Request.basicCredentials?_eq_some_iff, Request.Presents, Request.LeadsWithBlank]
  constructor
  · rintro ⟨hne, value, pass, htext, hvalue⟩
    obtain ⟨hcarries, hhead⟩ := Credentials.readBasic?_eq_some_iff_carries.mp hvalue
    refine ⟨hne, ⟨pass, value, htext, hcarries⟩, ?_⟩
    rintro ⟨other, hother, c, hc, hblank⟩
    obtain rfl : value = other := Option.some.inj (htext.symm.trans hother)
    rw [hhead c hc] at hblank
    exact absurd hblank (by decide)
  · rintro ⟨hne, ⟨pass, value, htext, hcarries⟩, hlead⟩
    refine ⟨hne, value, pass, htext, Credentials.readBasic?_eq_some_iff_carries.mpr ⟨hcarries, ?_⟩⟩
    intro c hc
    rw [← Bool.not_eq_true]
    exact fun hblank => hlead ⟨value, htext, c, hc, hblank⟩

/-- The user that a log takes down, where the target names none. -/
theorem username_eq_some_iff (h : request.uri.NamesNoUser) (remote : Option SocketAddress)
    {user : String} :
    (RequestInfo.of request remote).username = some user ↔
      user ≠ "" ∧ (∃ pass, request.basicCredentials? = some (user, pass)) ∧
        ¬ request.LeadsWithBlank := by
  show user? request = some user ↔ _
  rw [user?, userOfUri?_eq_none h, Option.none_or, userOfHeader?_eq_some_iff]

end RequestInfo

namespace BasicAuth

/-- A gate that is open, or that finds the expected credentials in a request, passes it on. -/
theorem around_of_authorized {auth : BasicAuth} {request : Request}
    (h : auth.enabled = true → auth.authorized request = true) (next : Next) :
    auth.middleware.around next request = next.run request := by
  have hpasses : (!auth.enabled || auth.authorized request) = true := by
    cases henabled : auth.enabled with
    | false => rfl
    | true => exact h henabled
  simp only [middleware, hpasses, if_true]

end BasicAuth

/-- Requests whose target names no user. The user that is logged is the one that the gate finds, as far
as it has a name, exactly if the request does not hide it; and a request that a gate behind the log lets
through is reported, when it is answered, under the name that the gate found exactly if its field does
not begin with a blank. -/
theorem logs_presented_user_iff {request : Request} (h : request.uri.NamesNoUser) :
    (∀ remote, (∀ user, (RequestInfo.of request remote).username = some user ↔
        user ≠ "" ∧ ∃ pass, request.basicCredentials? = some (user, pass)) ↔
      ¬ request.HidesUser) ∧
    ∀ (auth : BasicAuth) (user pass : String),
      (auth.enabled = true → auth.authorized request = true) →
      request.basicCredentials? = some (user, pass) → user ≠ "" →
      ∀ (counter : ℕ) (logger : AccessLogger) (next : Next) (ledger : Ledger),
        let a : Middleware.Arrival := ⟨request, ledger⟩
        let behind : Next := ⟨some auth.middleware.name, auth.middleware.around next⟩
        ((AccessLog.middleware counter logger).around behind request).run false [] ledger =
            ((next.run a.noted).bind (a.report counter logger)).run false [(·.leave counter)]
              (a.entered counter) ∧
          (a.info.username = some user ↔ ¬ request.LeadsWithBlank) := by
  constructor
  · intro remote
    simp only [RequestInfo.username_eq_some_iff h remote]
    constructor
    · rintro hsame ⟨hlead, user, pass, hne, hpresents⟩
      exact ((hsame user).mpr ⟨hne, pass, hpresents⟩).2.2 hlead
    · intro hshown user
      constructor
      · rintro ⟨hne, hpresents, -⟩
        exact ⟨hne, hpresents⟩
      · rintro ⟨hne, pass, hpresents⟩
        exact ⟨hne, ⟨pass, hpresents⟩, fun hlead => hshown ⟨hlead, user, pass, hne, hpresents⟩⟩
  · intro auth user pass hauthorized hpresents hne counter logger next ledger a behind
    have hnoted : auth.enabled = true → auth.authorized a.noted = true := hauthorized
    have hpasses : behind.run a.noted = next.run a.noted :=
      BasicAuth.around_of_authorized hnoted next
    constructor
    · rw [AccessLog.run_around_logger counter logger behind a, hpasses]
    · rw [show a.info = RequestInfo.of request _ from rfl, RequestInfo.username_eq_some_iff h]
      exact ⟨fun hlogged => hlogged.2.2, fun hlead => ⟨hne, ⟨pass, hpresents⟩, hlead⟩⟩

/-- A request by a user, with more blanks in its field than have to be there. -/
def spacedRequest : Request where
  headers := Headers.empty.setText "authorization" "Basic   dTpw\t "

/-- Blanks around the encoded credentials are read alike by both sides. -/
theorem logs_presented_user_spaced :
    spacedRequest.uri.NamesNoUser ∧
      (BasicAuth.expect "u" "p").authorized spacedRequest = true ∧
      spacedRequest.basicCredentials? = some ("u", "p") ∧ "u" ≠ "" ∧
      (∀ remote, (RequestInfo.of spacedRequest remote).username = some "u") ∧
      ∀ ledger, (Middleware.Arrival.info ⟨spacedRequest, ledger⟩).username = some "u" := by
  have huri : spacedRequest.uri.NamesNoUser := by
    intro authority hauthority
    exact absurd hauthority (by simp [spacedRequest])
  have hpresents : spacedRequest.basicCredentials? = some ("u", "p") := by decide +kernel
  have hauthorized : (BasicAuth.expect "u" "p").authorized spacedRequest = true := by
    decide +kernel
  have hne : "u" ≠ "" := by decide
  have htext : spacedRequest.headers.text? "authorization" = some "Basic   dTpw\t " := by
    decide +kernel
  have hlead : ¬ spacedRequest.LeadsWithBlank := by
    rintro ⟨value, hvalue, c, hc, hblank⟩
    obtain rfl : "Basic   dTpw\t " = value := Option.some.inj (htext.symm.trans hvalue)
    obtain rfl : 'B' = c := by simpa using hc
    exact absurd hblank (by decide)
  obtain ⟨hsame, hlogged⟩ := logs_presented_user_iff huri
  refine ⟨huri, hauthorized, hpresents, hne, fun remote => ?_, fun ledger => ?_⟩
  · exact ((hsame remote).mpr (fun hhidden => hlead hhidden.1) "u").mpr ⟨hne, "p", hpresents⟩
  · exact (hlogged (BasicAuth.expect "u" "p") "u" "p" (fun _ => hauthorized) hpresents hne 0
      AccessLogger.handOn ⟨none, Handler.noContent⟩ ledger).2.mpr hlead

/-- A request by a user whose field begins with a space. -/
def indentedRequest : Request where
  headers := Headers.empty.setText "authorization" " Basic dTpw"

/-- The gate lets a request through that the log takes for that of nobody. -/
theorem indented_user_not_logged :
    indentedRequest.uri.NamesNoUser ∧
      (BasicAuth.expect "u" "p").authorized indentedRequest = true ∧
      indentedRequest.basicCredentials? = some ("u", "p") ∧ "u" ≠ "" ∧
      ∀ remote, (RequestInfo.of indentedRequest remote).username = none := by
  have huri : indentedRequest.uri.NamesNoUser := by
    intro authority hauthority
    exact absurd hauthority (by simp [indentedRequest])
  have hnone : RequestInfo.user? indentedRequest = none := by decide +kernel
  exact ⟨huri, by decide +kernel, by decide +kernel, by decide, fun remote => hnone⟩

end WebHost
