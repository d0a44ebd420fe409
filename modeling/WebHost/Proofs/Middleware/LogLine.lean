import WebHost.Middleware.AccessLog
import WebHost.Proofs.Http.Target
import WebHost.Proofs.Text.Parts
import WebHost.Proofs.Text.Words

/-!
# The characters of a log line

A line of the common log format is put together from the address of the peer, the user, the time, the
request line, a status and a size. The method of a request is a token and its target was read, so
neither holds a control character, and nothing that the host writes itself does. What is left is the
user: one that the target names comes from a part of the target, but one that the authorization field
names was encoded there and may hold any character.
-/

set_option autoImplicit false

namespace WebHost

open Text Numeral

/-! ## Addresses and times -/

/-- An address is written as one word. -/
theorem IpAddress.isWord_text (ip : IpAddress) : IsWord ip.text := by
  have hdot : IsWord "." := by decide
  have hcolon : IsWord ":" := by decide
  have hcolons : IsWord "::" := by decide
  have hmapped : IsWord "::ffff:" := by decide
  have hoctets (octets : List ℕ) : IsWord (joinWith "." (octets.map toString)) := by
    apply isWord_joinWith hdot
    intro part hpart
    obtain ⟨n, -, rfl⟩ := List.mem_map.mp hpart
    exact isWord_toString n
  have hgroups (groups : List ℕ) : IsWord (joinWith ":" (groups.map Numeral.hex)) := by
    apply isWord_joinWith hcolon
    intro part hpart
    obtain ⟨n, -, rfl⟩ := List.mem_map.mp hpart
    exact isWord_hex n
  cases ip with
  | v4 a b c d => exact hoctets [a, b, c, d]
  | v6 groups =>
    by_cases hform : ∃ high low, groups = [0, 0, 0, 0, 0, 0xFFFF, high, low]
    · obtain ⟨high, low, rfl⟩ := hform
      rw [text]
      exact hmapped.append (hoctets [high / 256, high % 256, low / 256, low % 256])
    · rw [text]
      · simp only
        split_ifs
        · exact ((hgroups _).append hcolons).append (hgroups _)
        · exact hgroups groups
      · exact fun high low heq => hform ⟨high, low, heq⟩

/-- The remote host is written as one word. -/
theorem RequestInfo.isWord_remoteHost (info : RequestInfo) : IsWord info.remoteHost := by
  have hdash : IsWord "-" := by decide
  unfold remoteHost
  split
  · exact IpAddress.isWord_text _
  · exact hdash

/-- The name of a month is one word. -/
theorem CivilDate.isWord_monthName (month : ℕ) : IsWord (monthName month) := by
  have hnames : ∀ name ∈ monthNames, IsWord name := by decide
  have hempty : IsWord "" := by decide
  unfold monthName
  rw [List.getD_eq_getElem?_getD]
  cases hname : monthNames[month - 1]? with
  | none => exact hempty
  | some name => exact hnames name (List.mem_of_getElem? hname)

namespace AccessRecord

/-- A year is written as one word. -/
theorem isWord_yearText (year : ℤ) : IsWord (yearText year) := by
  have hminus : IsWord "-" := by decide
  have hplus : IsWord "+" := by decide
  unfold yearText
  split_ifs
  · exact isWord_padded 4 _
  · exact hminus.append (isWord_padded 4 _)
  · exact hplus.append (isWord_padded 4 _)

/-- An offset is written as one word. -/
theorem isWord_offsetText (offset : ℤ) : IsWord (offsetText offset) := by
  have hminus : IsWord "-" := by decide
  have hplus : IsWord "+" := by decide
  have hsign : IsWord (if offset < 0 then "-" else "+") := by
    split_ifs
    · exact hminus
    · exact hplus
  exact (hsign.append (isWord_twoDigits _)).append (isWord_twoDigits _)

/-- Date and hour of a moment: what is printed of it before the space. -/
def dateText (t : ZonedTime) : String :=
  let d := DateTime.ofSeconds (t.seconds + t.offset)
  Numeral.twoDigits d.date.day ++ "/" ++ CivilDate.monthName d.date.month ++ "/" ++
    yearText d.date.year ++ ":" ++ Numeral.twoDigits d.hour ++ ":" ++
    Numeral.twoDigits d.minute ++ ":" ++ Numeral.twoDigits d.second

/-- A time is written as its date and its offset. -/
theorem timeText_eq (t : ZonedTime) : timeText t = dateText t ++ " " ++ offsetText t.offset := by
  simp only [timeText, dateText, offsetText, String.append_assoc]

/-- The date of a time is written as one word. -/
theorem isWord_dateText (t : ZonedTime) : IsWord (dateText t) := by
  have hslash : IsWord "/" := by decide
  have hcolon : IsWord ":" := by decide
  have hdate := (((isWord_twoDigits (DateTime.ofSeconds (t.seconds + t.offset)).date.day).append
    hslash).append (CivilDate.isWord_monthName
      (DateTime.ofSeconds (t.seconds + t.offset)).date.month)).append hslash
  exact ((((((hdate.append (isWord_yearText _)).append hcolon).append
    (isWord_twoDigits _)).append hcolon).append (isWord_twoDigits _)).append hcolon).append
      (isWord_twoDigits _)

/-- The text of a time breaks no line. -/
theorem isClean_timeText (t : ZonedTime) : IsClean (timeText t) := by
  have hblank : IsClean " " := by decide
  rw [timeText_eq]
  exact ((isWord_dateText t).isClean.append hblank).append (isWord_offsetText _).isClean

/-! ## The line -/

/-- A request line of clean parts breaks no line. -/
theorem isClean_requestLine {info : RequestInfo} (hmethod : IsClean info.method)
    (huri : IsClean info.uri) : IsClean (requestLine info) := by
  have hquote : IsClean "\"" := by decide
  have hblank : IsClean " " := by decide
  have hversion : IsClean info.version.text := by cases info.version <;> decide
  exact (((((hquote.append hmethod).append hblank).append huri).append hblank).append
    hversion).append hquote

/-- A control character stands in a line exactly if it stands in the user. -/
theorem mem_commonLine_iff {k : Char} (hk : IsControl k) (entry : AccessRecord)
    {info : RequestInfo} (hmethod : IsClean info.method) (huri : IsClean info.uri) :
    k ∈ (entry.commonLine info).toList ↔ k ∈ (info.username.getD "").toList := by
  have hnot {s : String} (hs : IsClean s) : k ∉ s.toList := fun hmem => hs k hmem hk
  have hblank : IsClean " " := by decide
  have hopen : IsClean " [" := by decide
  have hclose : IsClean "] " := by decide
  have hdashes : IsClean " - " := by decide
  have huser : k ∈ (orDash (info.username.getD "")).toList ↔
      k ∈ (info.username.getD "").toList := by
    have hdash : k ∉ "-".toList := hnot (by decide)
    unfold orDash
    split_ifs with hempty
    · have hnil : info.username.getD "" = "" := by simpa using hempty
      rw [hnil]
      exact iff_of_false hdash (by simp)
    · rfl
  simp only [commonLine, String.toList_append, List.mem_append, hnot info.isWord_remoteHost.isClean,
    hnot hdashes, hnot hopen, hnot (isClean_timeText _), hnot hclose,
    hnot (isClean_requestLine hmethod huri), hnot hblank, hnot (isWord_toString _).isClean, huser,
    false_or, or_false]

end AccessRecord

/-! ## The user -/

/-- A request as it is received: its method is a token and its target was read. -/
structure Request.IsReceived (request : Request) : Prop where
  method : isToken request.method = true
  uri : ∃ text, Uri.parse? text = some request.uri

/-- The authorization field of a request names a user with a line break, and the target names none. -/
def Request.BreaksLine (request : Request) : Prop :=
  RequestInfo.userOfUri? request.uri = none ∧
    ∃ user ∈ RequestInfo.userOfHeader? request.headers, '\n' ∈ user.toList

instance (request : Request) : Decidable request.BreaksLine := inferInstanceAs (Decidable (_ ∧ _))

section User

variable {request : Request}

/-- The method of a request as it is received is one word. -/
theorem Request.IsReceived.isWord_method (h : request.IsReceived) : IsWord request.method := by
  intro c hc
  exact not_gap_of_isTokenChar ((isToken_iff.mp h.method).2 c hc)

/-- The target of a request as it is received breaks no line. -/
theorem Request.IsReceived.isUnbroken_uri (h : request.IsReceived) : request.uri.IsUnbroken := by
  obtain ⟨text, hparse⟩ := h.uri
  exact Uri.isUnbroken_of_parse hparse

/-- The user that a target names is cut out of its authority. -/
theorem isClean_userOfUri? {u : Uri} (hunbroken : u.IsUnbroken) {user : String}
    (h : RequestInfo.userOfUri? u = some user) : IsClean user := by
  unfold RequestInfo.userOfUri? at h
  obtain ⟨authority, hauthority, h⟩ := Option.bind_eq_some_iff.mp h
  obtain ⟨⟨userInfo, host⟩, hcut, h⟩ := Option.bind_eq_some_iff.mp h
  obtain ⟨-, -, huser⟩ := Option.bind_eq_some_iff.mp h
  obtain rfl := Option.some.inj huser
  intro c hc
  rw [String.toList_ofList] at hc
  have hinfo : c ∈ userInfo := (List.takeWhile_sublist _).subset hc
  apply (hunbroken.authority authority hauthority).isClean
  rw [(cutLast_eq_some_iff.mp hcut).1]
  exact List.mem_append_left _ hinfo

/-- A received request is logged with a line break exactly if its user has one. -/
theorem newline_mem_commonLine_iff (h : request.IsReceived) (entry : AccessRecord)
    (remote : Option SocketAddress) :
    '\n' ∈ (entry.commonLine (RequestInfo.of request remote)).toList ↔ request.BreaksLine := by
  have hunbroken := h.isUnbroken_uri
  have hcontrol : IsControl '\n' := by decide
  have huri : IsClean (RequestInfo.of request remote).uri := hunbroken.text.isClean
  rw [AccessRecord.mem_commonLine_iff hcontrol entry h.isWord_method.isClean huri]
  show '\n' ∈ ((RequestInfo.user? request).getD "").toList ↔ _
  unfold RequestInfo.user? Request.BreaksLine
  cases htarget : RequestInfo.userOfUri? request.uri with
  | some user =>
    have hno : '\n' ∉ user.toList := fun hmem => isClean_userOfUri? hunbroken htarget _ hmem hcontrol
    simp [hno]
  | none =>
    cases RequestInfo.userOfHeader? request.headers <;> simp

end User

end WebHost
