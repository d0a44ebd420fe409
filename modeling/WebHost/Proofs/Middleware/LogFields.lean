import WebHost.Proofs.Middleware.LogLine
import WebHost.Proofs.Number.Numeral

/-!
# The fields of a log line

Both formats write the fields of an entry one behind the other with a space between them, and escape
nothing. One field of each may hold spaces itself, the name of the route or that of the user. All
others are words, and how many of them come before that field and how many after it is fixed. So a line
that is cut at its spaces has these words at its beginning and at its end, and what is left between them
is the free field, whatever it holds. The quotes around the request line tell nothing: a target may hold
a quote too.
-/

set_option autoImplicit false

namespace WebHost

open Text

/-! ## A text between words -/

namespace Text

/-- A word in front of a separator is the first part of the text. -/
theorem split_word {sep : Char} {word : List Char} (h : sep ∉ word) (rest : List Char) :
    split sep (word ++ sep :: rest) = word :: split sep rest := by
  rw [split_append_sep, split_eq_singleton h, List.singleton_append]

/-- Words in fixed numbers before and after a text determine it together with themselves. -/
theorem words_around_inj {sep : Char} {front front' back back' : List (List Char)}
    {middle middle' : List Char}
    (h : front ++ (split sep middle ++ back) = front' ++ (split sep middle' ++ back'))
    (hfront : front.length = front'.length) (hback : back.length = back'.length) :
    front = front' ∧ middle = middle' ∧ back = back' := by
  obtain ⟨hfront, hrest⟩ := List.append_inj h hfront
  obtain ⟨hmiddle, hback⟩ := List.append_inj' hrest hback
  refine ⟨hfront, ?_, hback⟩
  rw [← intercalate_split sep middle, hmiddle, intercalate_split]

end Text

/-- Versions are told apart by what is written for them. -/
theorem Version.text_inj {v w : Version} : v.text = w.text ↔ v = w := by
  cases v <;> cases w <;> decide

/-- A version is written as one word. -/
theorem Version.isWord_text (v : Version) : IsWord v.text := by
  cases v <;> decide

/-! ## The words of a line -/

/-- The words of a request that a line holds: its method and its target. -/
structure RequestInfo.IsInWords (info : RequestInfo) : Prop where
  method : IsWord info.method
  uri : IsWord info.uri

/-- What is logged of a request as it is received consists of words. -/
theorem Request.IsReceived.isInWords {request : Request} (h : request.IsReceived)
    (remote : Option SocketAddress) : (RequestInfo.of request remote).IsInWords where
  method := h.isWord_method
  uri := h.isUnbroken_uri.text

namespace AccessRecord

/-- The words of the request line, with the quotes around it. -/
def requestWords (info : RequestInfo) : List (List Char) :=
  ['"' :: info.method.toList, info.uri.toList, info.version.text.toList ++ ['"']]

variable {info info' : RequestInfo}

/-- The request line has three words. -/
@[simp] theorem length_requestWords : (requestWords info).length = 3 := rfl

/-- A request line in the middle of a log line is found again as its three words. -/
theorem split_requestLine (h : info.IsInWords) {tail : List Char} (rest : List Char)
    (htail : ' ' ∉ tail) :
    split ' ' ((requestLine info).toList ++ ' ' :: (tail ++ ' ' :: rest)) =
      requestWords info ++ tail :: split ' ' rest := by
  have hmethod : ' ' ∉ '"' :: info.method.toList := by simpa using h.method.not_mem_space
  have hversion : ' ' ∉ info.version.text.toList ++ ['"'] := by
    simpa using info.version.isWord_text.not_mem_space
  have hline : (requestLine info).toList ++ ' ' :: (tail ++ ' ' :: rest) =
      ('"' :: info.method.toList) ++ ' ' :: (info.uri.toList ++ ' ' ::
        ((info.version.text.toList ++ ['"']) ++ ' ' :: (tail ++ ' ' :: rest))) := by
    simp [requestLine]
  rw [hline, split_word hmethod, split_word h.uri.not_mem_space, split_word hversion,
    split_word htail]
  rfl

/-- A line that names the route: one word, the name, and five words. -/
theorem split_genericLine (h : info.IsInWords) (entry : AccessRecord) :
    split ' ' (entry.genericLine info).toList =
      [info.remoteHost.toList] ++ (split ' ' (orDash entry.handlerName).toList ++
        (requestWords info ++
          [(toString entry.status).toList, (toString entry.bytesWritten).toList ++ ['b']])) := by
  have hbytes : ' ' ∉ (toString entry.bytesWritten).toList ++ ['b'] := by
    simpa using (Numeral.isWord_toString entry.bytesWritten).not_mem_space
  have hline : (entry.genericLine info).toList = info.remoteHost.toList ++ ' ' ::
      ((orDash entry.handlerName).toList ++ ' ' :: ((requestLine info).toList ++ ' ' ::
        ((toString entry.status).toList ++ ' ' ::
          ((toString entry.bytesWritten).toList ++ ['b'])))) := by
    simp [genericLine]
  rw [hline, split_word info.isWord_remoteHost.not_mem_space, split_append_sep,
    split_requestLine h _ (Numeral.isWord_toString _).not_mem_space, split_eq_singleton hbytes]
  rfl

/-- The two words of a moment, with the brackets around it. -/
def timeWords (t : ZonedTime) : List (List Char) :=
  ['[' :: (dateText t).toList, (offsetText t.offset).toList ++ [']']]

/-- A time has two words. -/
@[simp] theorem length_timeWords (t : ZonedTime) : (timeWords t).length = 2 := rfl

/-- A line in the common log format: two words, the user, and seven words. -/
theorem split_commonLine (h : info.IsInWords) (entry : AccessRecord) :
    split ' ' (entry.commonLine info).toList =
      [info.remoteHost.toList, ['-']] ++ (split ' ' (orDash (info.username.getD "")).toList ++
        (timeWords entry.start ++ (requestWords info ++
          [(toString entry.status).toList, (toString entry.bytesWritten).toList]))) := by
  have hdash : ' ' ∉ ['-'] := by decide
  have hdate : ' ' ∉ '[' :: (dateText entry.start).toList := by
    simpa using (isWord_dateText entry.start).not_mem_space
  have hoffset : ' ' ∉ (offsetText entry.start.offset).toList ++ [']'] := by
    simpa using (isWord_offsetText entry.start.offset).not_mem_space
  have hbytes := (Numeral.isWord_toString entry.bytesWritten).not_mem_space
  have hline : (entry.commonLine info).toList = info.remoteHost.toList ++ ' ' :: (['-'] ++ ' ' ::
      ((orDash (info.username.getD "")).toList ++ ' ' :: (('[' :: (dateText entry.start).toList) ++
        ' ' :: (((offsetText entry.start.offset).toList ++ [']']) ++ ' ' ::
          ((requestLine info).toList ++ ' ' :: ((toString entry.status).toList ++ ' ' ::
            (toString entry.bytesWritten).toList)))))) := by
    simp [commonLine, timeText_eq]
  rw [hline, split_word info.isWord_remoteHost.not_mem_space, split_word hdash, split_append_sep,
    split_word hdate, split_word hoffset,
    split_requestLine h _ (Numeral.isWord_toString _).not_mem_space, split_eq_singleton hbytes]
  rfl

/-! ## Equal lines -/

/-- Two entries agree on the fields that both formats write. -/
structure SharesFields (entry entry' : AccessRecord) (info info' : RequestInfo) : Prop where
  remoteHost : info.remoteHost = info'.remoteHost
  method : info.method = info'.method
  uri : info.uri = info'.uri
  version : info.version = info'.version
  status : entry.status = entry'.status
  bytesWritten : entry.bytesWritten = entry'.bytesWritten

section Equal

variable {entry entry' : AccessRecord}

/-- Entries that share their fields have the same request line. -/
theorem SharesFields.requestLine_eq (h : SharesFields entry entry' info info') :
    requestLine info = requestLine info' := by
  simp only [requestLine, h.method, h.uri, h.version]

/-- The words of the request line tell method, target and version. -/
theorem requestWords_inj :
    requestWords info = requestWords info' ↔
      info.method = info'.method ∧ info.uri = info'.uri ∧ info.version = info'.version := by
  simp [requestWords, String.toList_inj, Version.text_inj]

/-- The words of a time tell what is written for it. -/
theorem timeText_eq_of_timeWords {t t' : ZonedTime} (h : timeWords t = timeWords t') :
    timeText t = timeText t' := by
  obtain ⟨hdate, hoffset⟩ : dateText t = dateText t' ∧
      offsetText t.offset = offsetText t'.offset := by
    simpa [timeWords, String.toList_inj] using h
  rw [timeText_eq, timeText_eq, hdate, hoffset]

/-- Generic lines over words are equal exactly if their fields are. -/
theorem genericLine_inj (h : info.IsInWords) (h' : info'.IsInWords) :
    entry.genericLine info = entry'.genericLine info' ↔
      SharesFields entry entry' info info' ∧
        orDash entry.handlerName = orDash entry'.handlerName := by
  constructor
  · intro heq
    have hsplit := congrArg (fun line : String => split ' ' line.toList) heq
    simp only [split_genericLine h, split_genericLine h'] at hsplit
    obtain ⟨hfront, hname, hback⟩ := words_around_inj hsplit rfl (by simp)
    obtain ⟨hrequest, htail⟩ := List.append_inj hback (by simp)
    obtain ⟨hmethod, huri, hversion⟩ := requestWords_inj.mp hrequest
    obtain ⟨hstatus, hbytes⟩ : entry.status = entry'.status ∧
        entry.bytesWritten = entry'.bytesWritten := by
      simpa only [List.cons.injEq, List.append_cancel_right_eq, String.toList_inj,
        Numeral.toString_inj, and_true] using htail
    have hremote : info.remoteHost = info'.remoteHost := by
      simpa [String.toList_inj] using hfront
    exact ⟨⟨hremote, hmethod, huri, hversion, hstatus, hbytes⟩, String.toList_inj.mp hname⟩
  · rintro ⟨hfields, hname⟩
    rw [genericLine, genericLine, hfields.remoteHost, hname, hfields.requestLine_eq,
      hfields.status, hfields.bytesWritten]

/-- Common lines over words are equal exactly if their fields are. -/
theorem commonLine_inj (h : info.IsInWords) (h' : info'.IsInWords) :
    entry.commonLine info = entry'.commonLine info' ↔
      SharesFields entry entry' info info' ∧
        orDash (info.username.getD "") = orDash (info'.username.getD "") ∧
        timeText entry.start = timeText entry'.start := by
  constructor
  · intro heq
    have hsplit := congrArg (fun line : String => split ' ' line.toList) heq
    simp only [split_commonLine h, split_commonLine h'] at hsplit
    obtain ⟨hfront, huser, hback⟩ := words_around_inj hsplit rfl (by simp)
    obtain ⟨htime, hback⟩ := List.append_inj hback (by simp)
    obtain ⟨hrequest, htail⟩ := List.append_inj hback (by simp)
    obtain ⟨hmethod, huri, hversion⟩ := requestWords_inj.mp hrequest
    obtain ⟨hstatus, hbytes⟩ : entry.status = entry'.status ∧
        entry.bytesWritten = entry'.bytesWritten := by
      simpa only [List.cons.injEq, List.append_cancel_right_eq, String.toList_inj,
        Numeral.toString_inj, and_true] using htail
    have hremote : info.remoteHost = info'.remoteHost := by
      simpa [String.toList_inj] using hfront
    exact ⟨⟨hremote, hmethod, huri, hversion, hstatus, hbytes⟩, String.toList_inj.mp huser,
      timeText_eq_of_timeWords htime⟩
  · rintro ⟨hfields, huser, htime⟩
    rw [commonLine, commonLine, hfields.remoteHost, huser, htime, hfields.requestLine_eq,
      hfields.status, hfields.bytesWritten]

end Equal

/-- Lines about received requests are equal in either format exactly if all that the format writes is:
the name of the route or of the user may hold spaces and quotes, and is told from the fields around it
all the same. -/
theorem lines_tell_fields {request request' : Request} (h : request.IsReceived)
    (h' : request'.IsReceived) (entry entry' : AccessRecord)
    (remote remote' : Option SocketAddress) :
    let info := RequestInfo.of request remote
    let info' := RequestInfo.of request' remote'
    (entry.genericLine info = entry'.genericLine info' ↔
      SharesFields entry entry' info info' ∧
        orDash entry.handlerName = orDash entry'.handlerName) ∧
    (entry.commonLine info = entry'.commonLine info' ↔
      SharesFields entry entry' info info' ∧
        orDash (info.username.getD "") = orDash (info'.username.getD "") ∧
        timeText entry.start = timeText entry'.start) :=
  ⟨genericLine_inj (h.isInWords remote) (h'.isInWords remote'),
    commonLine_inj (h.isInWords remote) (h'.isInWords remote')⟩

/-- A request for a target with a quote, by a user whose name looks like the rest of a line. -/
def quotingRequest : Request where
  uri := ⟨none, none, "/a\"b", none⟩
  headers := Headers.empty.setText "authorization"
    "Basic ZXZlIFtdICJHRVQgLyBIVFRQLzEuMSIgMjAwIDE6eA=="

/-- An answer from a route whose name looks like the rest of a line. -/
def quotingEntry : AccessRecord := ⟨"", "api \"GET / HTTP/1.1\" 200 1b", "", 404, {}, 9, 1⟩

/-- The answer that the line of the other one begins like. -/
def quotedEntry : AccessRecord := ⟨"", "api", "", 200, {}, 1, 1⟩

/-- A user and a route whose names look like the rest of a line are not taken for it. -/
theorem lines_tell_fields_of_quoting :
    quotingRequest.IsReceived ∧ Request.IsReceived {} ∧
      quotingEntry.genericLine (RequestInfo.of quotingRequest none) ≠
        quotedEntry.genericLine (RequestInfo.of {} none) ∧
      quotingEntry.commonLine (RequestInfo.of quotingRequest none) ≠
        quotedEntry.commonLine (RequestInfo.of {} none) := by
  have hquoting : quotingRequest.IsReceived :=
    ⟨by decide, "/a\"b", by decide +kernel⟩
  have hplain : Request.IsReceived {} := ⟨by decide, "/", by decide +kernel⟩
  have htell := lines_tell_fields hquoting hplain quotingEntry quotedEntry none none
  have hstatus : quotingEntry.status ≠ quotedEntry.status := by decide
  exact ⟨hquoting, hplain, fun heq => hstatus (htell.1.mp heq).1.status,
    fun heq => hstatus (htell.2.mp heq).1.status⟩

end AccessRecord

end WebHost
