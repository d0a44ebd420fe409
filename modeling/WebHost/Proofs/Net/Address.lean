import WebHost.Net.Address
import WebHost.Proofs.Text.Parts

/-!
# The address that a server listens on

A server is configured with a host, with a port, with both or with neither, and binds the endpoint
that its address resolves to. An endpoint is said here as a socket reads it: a host, in one pair of
brackets if it has colons, and a number in decimal. Resolving gives the configured endpoint for most
addresses and not for all: it puts brackets around a host that already stands in them, writes
nothing for the port zero, and hands on the numeral of a port in whatever radix it was written.
-/

set_option autoImplicit false

namespace WebHost

/-! ## The characters of a port -/

namespace Numeral

variable {base : Nat} {c : Char}

/-- A digit of any base is a letter or a decimal digit. -/
theorem isAlphanum_of_digit? (h : (digit? base c).isSome) : c.isAlphanum = true := by
  -- the classes of letters and digits are given by the same bounds as the digits of a radix
  have hclasses : c.isAlphanum = (c.isUpper || c.isLower || c.isDigit) := rfl
  have hbounds {low high : Char} (hlow : low ≤ c) (hhigh : c ≤ high) :
      (decide (c.val ≥ low.val) && decide (c.val ≤ high.val)) = true := by
    simpa using ⟨hlow, hhigh⟩
  unfold digit? at h
  split_ifs at h with hdigit hsmall hlarge
  · have hc : c.isDigit = true := hbounds hdigit.1 hdigit.2
    rw [hclasses, hc, Bool.or_true]
  · have hc : c.isLower = true := hbounds hsmall.1 hsmall.2
    rw [hclasses, hc, Bool.or_true, Bool.true_or]
  · have hc : c.isUpper = true := decide_eq_true hlarge
    rw [hclasses, hc, Bool.true_or, Bool.true_or]
  · simp at h

/-- What is read on as a number consists of letters and digits. -/
theorem isAlphanum_of_readFrom {bound value n : Nat} {text : List Char}
    (h : readFrom base bound value text = .ok n) : ∀ c ∈ text, c.isAlphanum = true := by
  induction text generalizing value with
  | nil => simp
  | cons c text ih =>
    rw [readFrom] at h
    cases hc : digit? base c with
    | none => simp [hc] at h
    | some d =>
      simp only [hc] at h
      split_ifs at h
      have hfirst : c.isAlphanum = true := isAlphanum_of_digit? (by rw [hc]; rfl)
      exact List.forall_mem_cons.mpr ⟨hfirst, ih h⟩

/-- What is read as a number consists of letters and digits. -/
theorem isAlphanum_of_read {bound n : Nat} {text : List Char} (h : read base bound text = .ok n) :
    ∀ c ∈ text, c.isAlphanum = true := by
  unfold read at h
  split_ifs at h
  exact isAlphanum_of_readFrom h

end Numeral

namespace Port

/-- What announces the radix of a numeral stands before its digits. -/
theorem exists_announcement (text : List Char) :
    ∃ start, text = start ++ (radix text).2 ∧ ∀ c ∈ start, c.isAlphanum = true := by
  unfold radix
  split
  case h_1 digits => exact ⟨['0', 'x'], rfl, List.all_eq_true.mp rfl⟩
  case h_2 digits => exact ⟨['0', 'X'], rfl, List.all_eq_true.mp rfl⟩
  case h_3 digits => exact ⟨['0', 'o'], rfl, List.all_eq_true.mp rfl⟩
  case h_4 digits => exact ⟨['0', 'O'], rfl, List.all_eq_true.mp rfl⟩
  case h_5 digits => exact ⟨['0', 'b'], rfl, List.all_eq_true.mp rfl⟩
  case h_6 digits => exact ⟨['0', 'B'], rfl, List.all_eq_true.mp rfl⟩
  case h_7 d digits => exact ⟨['0'], rfl, List.all_eq_true.mp rfl⟩
  case h_8 => exact ⟨[], rfl, by simp⟩

/-- What is read as a numeral consists of letters and digits. -/
theorem isAlphanum_of_readNumeral {n : Nat} {text : List Char} (h : readNumeral text = .ok n) :
    ∀ c ∈ text, c.isAlphanum = true := by
  obtain ⟨start, htext, hstart⟩ := exists_announcement text
  have hdigits : ∀ c ∈ (radix text).2, c.isAlphanum = true := by
    unfold readNumeral at h
    generalize radix text = parts at h ⊢
    obtain ⟨base, digits⟩ := parts
    simp only at h
    split at h
    · simp at h
    · exact Numeral.isAlphanum_of_read h
  intro c hc
  rw [htext, List.mem_append] at hc
  exact hc.elim (hstart c) (hdigits c)

/-- A text is a port only if it is a row of letters and digits, with or without a colon before
it. -/
theorem exists_numeral {s : String} {port : Port} (h : parse s = .ok port) :
    ∃ numeral, (s.toList = numeral ∨ s.toList = ':' :: numeral) ∧
      ∀ c ∈ numeral, c.isAlphanum = true := by
  unfold parse at h
  split_ifs at h
  cases hnumeral : numeralOf s.toList with
  | none => simp [hnumeral] at h
  | some numeral =>
    simp only [hnumeral] at h
    refine ⟨numeral, ?_, ?_⟩
    · unfold numeralOf at hnumeral
      split at hnumeral
      · rename_i digits htext
        obtain rfl : digits = numeral := by simpa using hnumeral
        exact .inr htext
      · split_ifs at hnumeral
        exact .inl (by simpa using hnumeral)
    · cases hread : readNumeral numeral with
      | error fault => simp [hread] at h
      | ok n => exact isAlphanum_of_readNumeral hread

/-- A port that is set is written in decimal digits. -/
theorem text_of_set {port : Port} (h : port.isUnset = false) :
    port.text.toList = Nat.toDigits 10 port.toNat := by
  simp [text, h]

end Port

namespace Address

open Text

/-! ## Endpoints -/

/-- A row of decimal digits that stands for a number. -/
def Reads (digits : List Char) (number : Nat) : Prop :=
  digits ≠ [] ∧ (∀ c ∈ digits, c.isDigit = true) ∧ Nat.ofDigitChars 10 digits 0 = number

/-- A number is read back from its decimal digits. -/
theorem reads_toDigits (n : Nat) : Reads (Nat.toDigits 10 n) n := by
  refine ⟨Nat.toDigits_ne_nil, ?_, Nat.ofDigitChars_ten_toDigits⟩
  intro c hc
  exact Nat.isDigit_of_mem_toDigits (by decide) (by decide) hc

/-- A host as it stands in an address, between brackets or without. -/
def frame (bracketed : Bool) (host : List Char) : List Char :=
  if bracketed then '[' :: host ++ [']'] else host

/-- A text that names a host and a number as a socket reads them. -/
def IsEndpoint (host : String) (number : Nat) (address : String) : Prop :=
  ∃ bracketed digits, (bracketed = false → ':' ∉ host.toList) ∧ Reads digits number ∧
    address.toList = frame bracketed host.toList ++ ':' :: digits

section Frame

variable {host port : List Char} {bracketed : Bool}

/-- What stands after a host and a colon does not depend on how the host is framed. -/
theorem frame_append_inj (hopen : '[' ∉ host) {other : Bool} {rest : List Char}
    (h : frame bracketed host ++ ':' :: port = frame other host ++ ':' :: rest) : port = rest := by
  have hhead : ∀ tail tail' : List Char, host ++ ':' :: tail ≠ '[' :: tail' := by
    intro tail tail' heq
    cases host with
    | nil => simp at heq
    | cons c host =>
      obtain rfl : c = '[' := (List.cons.inj heq).1
      exact hopen List.mem_cons_self
  cases bracketed <;> cases other
  case false.true => exact absurd h (hhead port _)
  case true.false => exact absurd h.symm (hhead rest _)
  all_goals simpa [frame] using h

/-- A host without an opening bracket does not begin with one, alone or with a port. -/
theorem head?_frame_false (hopen : '[' ∉ host) (tail : List Char) :
    (frame false host ++ ':' :: tail).head? ≠ some '[' := by
  cases host with
  | nil => simp [frame]
  | cons c host =>
    intro h
    obtain rfl : c = '[' := by simpa [frame] using h
    exact hopen List.mem_cons_self

end Frame

/-- An address with a host and a port names the host, and the number that its port stands for in
decimal. -/
theorem isEndpoint_iff_reads {host : String} {number : Nat} {address : String} {bracketed : Bool}
    {port : List Char} (hopen : '[' ∉ host.toList) (hcolon : bracketed = false → ':' ∉ host.toList)
    (haddress : address.toList = frame bracketed host.toList ++ ':' :: port) :
    IsEndpoint host number address ↔ Reads port number := by
  constructor
  · rintro ⟨other, digits, -, hdigits, htext⟩
    rw [haddress] at htext
    rwa [frame_append_inj hopen htext]
  · intro hport
    exact ⟨bracketed, port, hcolon, hport, haddress⟩

/-- Host and port are joined as the framed host, a colon and the text of the port. -/
theorem toList_joinHostPort (host : String) (port : Port) :
    (joinHostPort host port).toList =
      frame (hasColon host) host.toList ++ ':' :: port.text.toList := by
  unfold joinHostPort joinText
  split_ifs with h <;> simp [frame, h]

/-- A host and a port that are put together are an endpoint unless the port is zero. -/
theorem isEndpoint_joinHostPort_iff {host : String} {port : Port} (hopen : '[' ∉ host.toList) :
    IsEndpoint host port.toNat (joinHostPort host port) ↔ port.isUnset = false := by
  have hcolon : hasColon host = false → ':' ∉ host.toList := by simp [hasColon]
  rw [isEndpoint_iff_reads hopen hcolon (toList_joinHostPort host port)]
  constructor
  · rintro ⟨hne, -⟩
    by_contra hset
    exact hne (by simp [Port.text, hset])
  · intro hset
    rw [Port.text_of_set hset]
    exact reads_toDigits port.toNat

/-! ## Taking an address apart -/

/-- An address that does not begin with a bracket is cut at its last colon, if no other colon or
bracket is there. -/
theorem cut_open {address front rest : List Char} (hcut : cutLast ':' address = some (front, rest))
    (hhead : address.head? ≠ some '[') :
    cut address =
      if ':' ∈ front then .error .tooManyColons
      else if '[' ∈ address then .error .unexpectedOpenBracket
      else if ']' ∈ address then .error .unexpectedCloseBracket
      else .ok (front, rest) := by
  simp only [cut, hcut]
  split
  · exact absurd rfl hhead
  · rfl

/-- An address that begins with a bracket is cut behind its closing one, if no other bracket or
colon is there. -/
theorem cut_bracketed {host : List Char} (hclose : ']' ∉ host) (port : List Char) :
    cut ('[' :: (host ++ ']' :: ':' :: port)) =
      if ':' ∈ port then .error .tooManyColons
      else if '[' ∈ host ∨ '[' ∈ port then .error .unexpectedOpenBracket
      else if ']' ∈ port then .error .unexpectedCloseBracket
      else .ok (host, port) := by
  have hcut : cutFirst ']' (host ++ ']' :: ':' :: port) = some (host, ':' :: port) :=
    cutFirst_eq_some_iff.mpr ⟨rfl, hclose⟩
  have hsome : cutLast ':' ('[' :: (host ++ ']' :: ':' :: port)) ≠ none := by
    rw [ne_eq, cutLast_eq_none_iff]
    simp
  obtain ⟨⟨front, back⟩, hlast⟩ := Option.ne_none_iff_exists'.mp hsome
  simp only [cut, hlast, hcut, ne_eq, not_true_eq_false, if_false]

/-- A host that stands in brackets or has no colon, and the text of a port after it. -/
structure IsSplit (bracketed : Bool) (host port : List Char) : Prop where
  noOpen : '[' ∉ host
  noClose : ']' ∉ host
  colonFree : bracketed = false → ':' ∉ host
  portColon : ':' ∉ port
  portOpen : '[' ∉ port
  portClose : ']' ∉ port

section Cut

variable {host : List Char} {bracketed : Bool} {numeral : List Char}

/-- What is written by the grammar of addresses is cut where it was joined. -/
theorem IsSplit.cut_eq (h : IsSplit bracketed host numeral) :
    cut (frame bracketed host ++ ':' :: numeral) = .ok (host, numeral) := by
  cases bracketed with
  | false =>
    rw [cut_open (cutLast_append _ h.portColon) (head?_frame_false h.noOpen numeral)]
    simp [frame, h.colonFree rfl, h.noOpen, h.noClose, h.portOpen, h.portClose]
  | true =>
    have htext : frame true host ++ ':' :: numeral = '[' :: (host ++ ']' :: ':' :: numeral) := by
      simp [frame]
    rw [htext, cut_bracketed h.noClose]
    simp [h.noOpen, h.portColon, h.portOpen, h.portClose]

/-- A framed host with a number behind it is cut where it was joined. -/
theorem cut_frame (hopen : '[' ∉ host) (hclose : ']' ∉ host)
    (hcolon : bracketed = false → ':' ∉ host) (hnumeral : ∀ c ∈ numeral, c.isAlphanum = true) :
    cut (frame bracketed host ++ ':' :: numeral) = .ok (host, numeral) := by
  have hno : ∀ c : Char, c.isAlphanum = false → c ∉ numeral := by
    intro c hc hmem
    rw [hnumeral c hmem] at hc
    exact absurd hc (by decide)
  have hsplit : IsSplit bracketed host numeral :=
    ⟨hopen, hclose, hcolon, hno ':' (by decide), hno '[' (by decide), hno ']' (by decide)⟩
  exact hsplit.cut_eq

/-- A port with a colon of its own makes one colon too many. -/
theorem cut_frame_colon (hopen : '[' ∉ host) (hclose : ']' ∉ host)
    (hnumeral : ∀ c ∈ numeral, c.isAlphanum = true) :
    cut (frame bracketed host ++ ':' :: ':' :: numeral) = .error .tooManyColons := by
  have hno : ':' ∉ numeral := fun hmem => absurd (hnumeral ':' hmem) (by decide)
  cases bracketed with
  | false =>
    have hcut : cutLast ':' (frame false host ++ ':' :: ':' :: numeral) =
        some (frame false host ++ [':'], numeral) := by
      simpa using cutLast_append (frame false host ++ [':']) hno
    rw [cut_open hcut (head?_frame_false hopen _)]
    simp
  | true =>
    have htext : frame true host ++ ':' :: ':' :: numeral =
        '[' :: (host ++ ']' :: ':' :: ':' :: numeral) := by
      simp [frame]
    rw [htext, cut_bracketed hclose]
    simp

/-- The port is missed behind a closing bracket that no colon follows. -/
theorem cut_trailing {host rest : List Char} (hclose : ']' ∉ host) (hrest : rest.head? ≠ some ':') :
    cut ('[' :: (host ++ ']' :: rest)) = .error .missingPort := by
  have hfirst : cutFirst ']' (host ++ ']' :: rest) = some (host, rest) :=
    cutFirst_eq_some_iff.mpr ⟨rfl, hclose⟩
  cases hlast : cutLast ':' ('[' :: (host ++ ']' :: rest)) with
  | none => simp only [cut, hlast]
  | some parts =>
    cases rest with
    | nil => simp only [cut, hlast, hfirst]
    | cons c rest =>
      have hc : c ≠ ':' := by simpa using hrest
      simp only [cut, hlast, hfirst, ne_eq, if_pos hc]

/-- A framed host alone lacks a port. -/
theorem cut_frame_portless (hclose : ']' ∉ host) (hcolon : bracketed = false → ':' ∉ host) :
    cut (frame bracketed host) = .error .missingPort := by
  cases bracketed with
  | false =>
    have hnone : cutLast ':' (frame false host) = none := cutLast_eq_none_iff.mpr (hcolon rfl)
    simp only [cut, hnone]
  | true => exact cut_trailing hclose (by simp)

end Cut

/-! ## Configured addresses -/

/-- An address as it is configured: nothing at all, a host, a port after a colon, or both. The host
may stand in brackets, and does so if it has colons. -/
structure Configured where
  host : String
  bracketed : Bool
  /-- The text of a port, with the port that it is read as. -/
  port : Option (String × Port)
  noOpen : '[' ∉ host.toList
  noClose : ']' ∉ host.toList
  colonFree : bracketed = false → ':' ∉ host.toList
  accepted : ∀ written ∈ port, Port.parse written.1 = .ok written.2

namespace Configured

/-- The text of a configured address. -/
def text (c : Configured) : String :=
  String.ofList (frame c.bracketed c.host.toList ++
    match c.port with
    | some (written, _) => ':' :: written.toList
    | none => [])

/-- The host to listen on: every interface if none is configured. -/
def target (c : Configured) : String := if c.host = "" then "0.0.0.0" else c.host

/-- The number to listen on: that of the configured port, or of the scheme if there is none. -/
def number (c : Configured) (tls : Bool) : Nat :=
  match c.port with
  | some (_, port) => port.toNat
  | none => if tls then 443 else 80

/-- What is needed for a configured address to be listened on as it is meant. Without a port the host
must not need its brackets; with a port alone the port must be set and have one colon only; and a
port after a host must be written in decimal. -/
def IsPlain (c : Configured) : Prop :=
  match c.port with
  | none => c.bracketed = true → c.host ≠ "" ∧ ':' ∉ c.host.toList
  | some (written, port) =>
    if c.host = "" then written.toList.head? ≠ some ':' ∧ port.isUnset = false
    else Reads written.toList port.toNat

variable {c : Configured} {tls : Bool}

/-- The host that a configured address is for has no opening bracket. -/
theorem noOpen_target (c : Configured) : '[' ∉ c.target.toList := by
  unfold target
  split_ifs
  · decide
  · exact c.noOpen

/-- A bare host without a port is written as it is. -/
theorem text_eq_host (hport : c.port = none) (hbracketed : c.bracketed = false) :
    c.text = c.host := by
  simp [text, hport, hbracketed, frame]

/-- Without a port, the text is taken for a host, and the port of the scheme is added. -/
theorem listenOn_portless (hport : c.port = none) :
    listenOn c.text tls =
      joinHostPort (if c.text = "" then "0.0.0.0" else c.text) (defaultPort tls) := by
  by_cases hempty : c.text = ""
  · rw [hempty]
    rfl
  · have hcut : cut c.text.toList = .error .missingPort := by
      simpa [text, hport] using cut_frame_portless c.noClose c.colonFree
    have hsplit : splitHostPort c.text = .error ⟨.missingPort, c.text, none⟩ := by
      simp only [splitHostPort, hcut]
    have hne : c.text.isEmpty = false := by simpa using hempty
    simp only [listenOn, hne, hsplit, if_neg hempty, if_true, Bool.false_eq_true, if_false]

/-- With a port alone every interface is listened on; an address with a host is left as it is, and
so is one with a colon too many. -/
theorem listenOn_port {written : String} {port : Port} (hport : c.port = some (written, port)) :
    listenOn c.text tls =
      if c.host = "" ∧ written.toList.head? ≠ some ':' then joinHostPort "0.0.0.0" port
      else c.text := by
  have htext : c.text.toList = frame c.bracketed c.host.toList ++ ':' :: written.toList := by
    simp [text, hport]
  have hne : c.text.isEmpty = false := by
    have hsome : c.text.toList ≠ [] := by simp [htext]
    simpa using hsome
  have hparse : Port.parse written = .ok port := c.accepted (written, port) hport
  obtain ⟨numeral, hwritten | hwritten, hnumeral⟩ := Port.exists_numeral hparse
  · have hcut : cut c.text.toList = .ok (c.host.toList, written.toList) := by
      rw [htext, hwritten]
      exact cut_frame c.noOpen c.noClose c.colonFree hnumeral
    have hsplit : splitHostPort c.text = .ok (c.host, port) := by
      simp only [splitHostPort, hcut, String.ofList_toList, hparse]
    have hhead : written.toList.head? ≠ some ':' := by
      intro h
      have hmem : ':' ∈ numeral := by
        rw [hwritten] at h
        exact List.mem_of_mem_head? h
      exact absurd (hnumeral ':' hmem) (by decide)
    simp [listenOn, hne, hsplit, hhead]
  · have hcut : cut c.text.toList = .error .tooManyColons := by
      rw [htext, hwritten]
      exact cut_frame_colon c.noOpen c.noClose hnumeral
    have hsplit : splitHostPort c.text = .error ⟨.tooManyColons, c.text, none⟩ := by
      simp only [splitHostPort, hcut]
    simp [listenOn, hne, hsplit, hwritten]

/-- What has no host names none. -/
theorem not_isEndpoint_of_hostless {address : String} {rest : List Char} (bracketed : Bool)
    (number : Nat) (haddress : address.toList = frame bracketed [] ++ ':' :: rest) :
    ¬ IsEndpoint "0.0.0.0" number address := by
  rintro ⟨other, digits, -, -, h⟩
  rw [haddress] at h
  cases bracketed <;> cases other <;> simp [frame] at h

/-- A second pair of brackets is none that an endpoint has. -/
theorem not_isEndpoint_of_twice {host : String} {address : String} {rest : List Char}
    (number : Nat) (hopen : '[' ∉ host.toList) (hcolon : ':' ∈ host.toList)
    (haddress : address.toList = '[' :: '[' :: rest) : ¬ IsEndpoint host number address := by
  rintro ⟨other, digits, hfree, -, h⟩
  rw [haddress] at h
  cases other with
  | false => exact hfree rfl hcolon
  | true =>
    cases hhost : host.toList with
    | nil => simp [hhost] at hcolon
    | cons c tail =>
      rw [hhost] at h hopen
      obtain ⟨rfl, -⟩ : '[' = c ∧ rest = tail ++ ']' :: ':' :: digits := by simpa [frame] using h
      exact hopen List.mem_cons_self

/-- The port of a scheme is a set one. -/
theorem isUnset_defaultPort (tls : Bool) : (defaultPort tls).isUnset = false := by
  cases tls <;> rfl

/-- Without a port of its own, an address has the number of its scheme. -/
theorem toNat_defaultPort (hport : c.port = none) : c.number tls = (defaultPort tls).toNat := by
  simp only [number, hport]
  cases tls <;> rfl

/-- An address without a port becomes its endpoint exactly if brackets, where it has them, are
around a host that is not empty and has no colon. -/
theorem isEndpoint_portless_iff (hport : c.port = none) :
    IsEndpoint c.target (c.number tls) (listenOn c.text tls) ↔
      (c.bracketed = true → c.host ≠ "" ∧ ':' ∉ c.host.toList) := by
  rw [listenOn_portless hport, toNat_defaultPort hport]
  cases hbracketed : c.bracketed with
  | false =>
    rw [text_eq_host hport hbracketed]
    have hset := (isEndpoint_joinHostPort_iff c.noOpen_target).mpr (isUnset_defaultPort tls)
    simpa [target] using hset
  | true =>
    have htext : c.text.toList = '[' :: c.host.toList ++ [']'] := by
      simp [text, hport, hbracketed, frame]
    have hne : c.text ≠ "" := by
      intro h
      simp [h] at htext
    rw [if_neg hne]
    have hjoin := toList_joinHostPort c.text (defaultPort tls)
    by_cases hcolon : ':' ∈ c.host.toList
    · have hhas : hasColon c.text = true := by simp [hasColon, htext, hcolon]
      have hhost : c.host ≠ "" := by
        intro h
        simp [h] at hcolon
      rw [hhas, htext] at hjoin
      have hno := not_isEndpoint_of_twice (defaultPort tls).toNat c.noOpen hcolon hjoin
      simpa [target, hhost, hcolon] using hno
    · have hhas : hasColon c.text = false := by simp [hasColon, htext, hcolon]
      rw [hhas, htext] at hjoin
      by_cases hhost : c.host = ""
      · rw [hhost] at hjoin
        have hno := not_isEndpoint_of_hostless true (defaultPort tls).toNat hjoin
        simpa [target, hhost] using hno
      · have hframe : (joinHostPort c.text (defaultPort tls)).toList =
            frame true c.host.toList ++ ':' :: (defaultPort tls).text.toList := hjoin
        have hyes := (isEndpoint_iff_reads c.noOpen (by simp) hframe).mpr
          (by rw [Port.text_of_set (isUnset_defaultPort tls)]; exact reads_toDigits _)
        simpa [target, hhost, hcolon] using hyes

/-- An address with a port becomes its endpoint exactly if the port reads as its number or, where no
host is written, is set and begins with no further colon. -/
theorem isEndpoint_port_iff {written : String} {port : Port}
    (hport : c.port = some (written, port)) :
    IsEndpoint c.target port.toNat (listenOn c.text tls) ↔
      if c.host = "" then written.toList.head? ≠ some ':' ∧ port.isUnset = false
      else Reads written.toList port.toNat := by
  have htext : c.text.toList = frame c.bracketed c.host.toList ++ ':' :: written.toList := by
    simp [text, hport]
  rw [listenOn_port hport]
  by_cases hhost : c.host = ""
  · have htarget : c.target = "0.0.0.0" := if_pos hhost
    rw [htarget, if_pos hhost]
    by_cases hhead : written.toList.head? = some ':'
    · rw [hhost] at htext
      have hno := not_isEndpoint_of_hostless c.bracketed port.toNat htext
      simpa [hhead] using hno
    · rw [if_pos ⟨hhost, hhead⟩, isEndpoint_joinHostPort_iff (by decide)]
      simp [hhead]
  · have htarget : c.target = c.host := if_neg hhost
    rw [htarget, if_neg hhost, if_neg fun h => hhost h.1]
    exact isEndpoint_iff_reads c.noOpen c.colonFree htext

/-- What a server listens on is the endpoint that is configured exactly if the configured address is
a plain one. -/
theorem isEndpoint_listenOn_iff (c : Configured) (tls : Bool) :
    IsEndpoint c.target (c.number tls) (listenOn c.text tls) ↔ c.IsPlain := by
  unfold IsPlain
  cases hport : c.port with
  | none => exact isEndpoint_portless_iff hport
  | some pair =>
    obtain ⟨written, port⟩ := pair
    have hnumber : c.number tls = port.toNat := by simp only [number, hport]
    rw [hnumber]
    exact isEndpoint_port_iff hport

/-- A host with colons, in its brackets and without a port. -/
def loopback : Configured where
  host := "::1"
  bracketed := true
  port := none
  noOpen := by decide
  noClose := by decide
  colonFree := by simp
  accepted := by simp

/-- It gets a second pair of brackets. -/
theorem loopback_not_isEndpoint :
    loopback.text = "[::1]" ∧ listenOn loopback.text false = "[[::1]]:80" ∧
      ¬ IsEndpoint loopback.target (loopback.number false) (listenOn loopback.text false) := by
  have hlisten : listenOn loopback.text false = "[[::1]]:80" := by decide +kernel
  refine ⟨by decide +kernel, hlisten, ?_⟩
  rw [hlisten]
  have htwice : "[[::1]]:80".toList = '[' :: '[' :: "::1]]:80".toList := by decide
  exact not_isEndpoint_of_twice 80 loopback.noOpen (by decide) htwice

end Configured

end Address

end WebHost
