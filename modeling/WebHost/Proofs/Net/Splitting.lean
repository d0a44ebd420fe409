import WebHost.Proofs.Net.Offsets
import WebHost.Proofs.Number.Numeral

/-!
# The grammar of host and port

An address with a host and a port is the host, a colon and the port, where the host stands in
brackets or has no colon. Splitting accepts exactly these addresses and gives the host and the number
of the port, and joining writes one that is split again.
-/

set_option autoImplicit false

namespace WebHost

/-! ## The decimal numeral of a port -/

namespace Port

/-- A numeral that does not begin with a zero is decimal. -/
theorem radix_decimal {text : List Char} (h : text.head? ≠ some '0') : radix text = (10, text) := by
  unfold radix
  split
  case h_8 => rfl
  all_goals exact absurd rfl h

/-- A port that is set is written in digits. -/
theorem isDigit_of_mem_text {port : Port} (hset : port.isUnset = false) {c : Char}
    (hc : c ∈ port.text.toList) : c.isDigit = true := by
  rw [text_of_set hset] at hc
  exact Nat.isDigit_of_mem_toDigits (by decide) (by decide) hc

/-- Nothing but digits stands in the text of a port that is set. -/
theorem not_mem_text {port : Port} (hset : port.isUnset = false) {c : Char}
    (hc : c.isDigit = false) : c ∉ port.text.toList := by
  intro hmem
  rw [isDigit_of_mem_text hset hmem] at hc
  exact absurd hc (by decide)

/-- A port that is set is read back from its decimal numeral. -/
theorem parse_text {port : Port} (hset : port.isUnset = false) : parse port.text = .ok port := by
  have hpos : port.toNat ≠ 0 := by
    intro hzero
    have hnumber : port.number = 0 := UInt16.toNat_inj.mp hzero
    simp [isUnset, hnumber] at hset
  have htext := text_of_set hset
  have hne : port.text.toList ≠ [] := by
    rw [htext]
    exact Nat.toDigits_ne_nil
  have hnumeral : numeralOf port.text.toList = some port.text.toList := by
    unfold numeralOf
    split
    · rename_i digits heq
      exact absurd (by rw [heq]; exact List.mem_cons_self) (not_mem_text hset (c := ':') (by decide))
    · rw [if_neg (not_mem_text hset (by decide))]
  have hvalue : Nat.ofDigitChars 10 port.text.toList 0 = port.toNat := by
    rw [htext, Nat.ofDigitChars_ten_toDigits]
  have hread : readNumeral port.text.toList = .ok port.toNat := by
    have hhead : port.text.toList.head? ≠ some '0' := by
      rw [htext]
      exact Numeral.head?_toDigits hpos
    have hbound : port.toNat ≤ 65535 := Nat.le_of_lt_succ port.number.toNat_lt
    rw [readNumeral, radix_decimal hhead]
    simp only
    split
    · rename_i digits heq
      exact absurd (by rw [heq]; exact List.mem_cons_self) (not_mem_text hset (c := '+') (by decide))
    · rw [Numeral.read, if_neg (by simpa using hne),
        Numeral.readFrom_ten (fun _ hc => isDigit_of_mem_text hset hc) (by omega), hvalue]
  rw [parse, if_neg (by simpa using hne), hnumeral]
  simp only [hread, toNat, UInt16.ofNat_toNat]

end Port

namespace Address

open Text

/-! ## What is split -/

variable {address host port : List Char} {bracketed : Bool}

/-- The last colon is the only one before which an address without a bracket in front is cut. -/
theorem isSplit_of_cut_open (hhead : address.head? ≠ some '[')
    (h : cut address = .ok (host, port)) :
    address = frame false host ++ ':' :: port ∧ IsSplit false host port := by
  cases hlast : cutLast ':' address with
  | none => simp [cut, hlast] at h
  | some parts =>
    obtain ⟨front, back⟩ := parts
    rw [cut_open hlast hhead] at h
    split_ifs at h with hcolon hopen hclose
    obtain ⟨rfl, rfl⟩ : front = host ∧ back = port := by simpa using h
    obtain ⟨rfl, hback⟩ := cutLast_eq_some_iff.mp hlast
    simp only [List.mem_append, List.mem_cons, not_or] at hopen hclose
    exact ⟨rfl, ⟨hopen.1, hclose.1, fun _ => hcolon, hback, hopen.2.2, hclose.2.2⟩⟩

/-- What is cut behind a bracket follows the grammar of addresses in brackets. -/
theorem isSplit_of_cut_bracketed {inner : List Char} (h : cut ('[' :: inner) = .ok (host, port)) :
    '[' :: inner = frame true host ++ ':' :: port ∧ IsSplit true host port := by
  cases hlast : cutLast ':' ('[' :: inner) with
  | none => simp [cut, hlast] at h
  | some parts =>
    cases hfirst : cutFirst ']' inner with
    | none => simp [cut, hlast, hfirst] at h
    | some parts' =>
      obtain ⟨front, rest⟩ := parts'
      obtain ⟨rfl, hclose⟩ := cutFirst_eq_some_iff.mp hfirst
      cases rest with
      | nil => simp [cut, hlast, hfirst] at h
      | cons c back =>
        by_cases hc : c = ':'
        · subst hc
          rw [cut_bracketed hclose] at h
          split_ifs at h with hcolon hopen hclosed
          obtain ⟨rfl, rfl⟩ : front = host ∧ back = port := by simpa using h
          rw [not_or] at hopen
          exact ⟨by simp [frame], ⟨hopen.1, hclose, by simp, hcolon, hopen.2, hclosed⟩⟩
        · simp [cut, hlast, hfirst, hc] at h

/-- An address is taken apart into a host and the text of a port exactly if it is put together from
them. -/
theorem cut_eq_ok_iff :
    cut address = .ok (host, port) ↔
      ∃ bracketed, address = frame bracketed host ++ ':' :: port ∧ IsSplit bracketed host port := by
  constructor
  · intro h
    by_cases hhead : address.head? = some '['
    · cases address with
      | nil => simp at hhead
      | cons c inner =>
        obtain rfl : c = '[' := by simpa using hhead
        exact ⟨true, isSplit_of_cut_bracketed h⟩
    · exact ⟨false, isSplit_of_cut_open hhead h⟩
  · rintro ⟨bracketed, rfl, hsplit⟩
    exact hsplit.cut_eq

/-! ## The grammar -/

/-- A text without the characters that keep a host and a port apart. -/
structure IsBare (text : String) : Prop where
  noColon : ':' ∉ text.toList
  noOpen : '[' ∉ text.toList
  noClose : ']' ∉ text.toList

/-- The addresses of a host and a port. -/
inductive IsAddress (host : String) (port : Port) : String → Prop
  /-- A host without colons and brackets, and a port after a colon. -/
  | plain {digits : String} : IsBare host → IsBare digits → Port.parse digits = .ok port →
    IsAddress host port (host ++ ":" ++ digits)
  /-- A host between brackets and without others, and a port after a colon. -/
  | bracketed {digits : String} : '[' ∉ host.toList → ']' ∉ host.toList → IsBare digits →
    Port.parse digits = .ok port → IsAddress host port ("[" ++ host ++ "]:" ++ digits)

/-- A text is an address of a host and a port exactly if it is the framed host, a colon and digits
that read as the port. -/
theorem isAddress_iff {host s : String} {port : Port} :
    IsAddress host port s ↔
      ∃ bracketed digits, s.toList = frame bracketed host.toList ++ ':' :: digits ∧
        IsSplit bracketed host.toList digits ∧ Port.parse (String.ofList digits) = .ok port := by
  constructor
  · rintro (⟨hhost, hdigits, hparse⟩ | ⟨hopen, hclose, hdigits, hparse⟩)
    · rename_i digits
      refine ⟨false, digits.toList, by simp [frame], ?_, by simpa using hparse⟩
      exact ⟨hhost.noOpen, hhost.noClose, fun _ => hhost.noColon, hdigits.noColon, hdigits.noOpen,
        hdigits.noClose⟩
    · rename_i digits
      refine ⟨true, digits.toList, by simp [frame], ?_, by simpa using hparse⟩
      exact ⟨hopen, hclose, by simp, hdigits.noColon, hdigits.noOpen, hdigits.noClose⟩
  · rintro ⟨bracketed, digits, htext, hsplit, hparse⟩
    have hdigits : IsBare (String.ofList digits) :=
      ⟨by simpa using hsplit.portColon, by simpa using hsplit.portOpen,
        by simpa using hsplit.portClose⟩
    cases bracketed with
    | false =>
      have hs : s = host ++ ":" ++ String.ofList digits := by
        apply String.toList_inj.mp
        simp [htext, frame]
      rw [hs]
      exact .plain ⟨hsplit.colonFree rfl, hsplit.noOpen, hsplit.noClose⟩ hdigits hparse
    | true =>
      have hs : s = "[" ++ host ++ "]:" ++ String.ofList digits := by
        apply String.toList_inj.mp
        simp [htext, frame]
      rw [hs]
      exact .bracketed hsplit.noOpen hsplit.noClose hdigits hparse

/-- A text is split into host and port exactly if it is an address of them. -/
theorem splitHostPort_eq_ok_iff {host s : String} {port : Port} :
    splitHostPort s = .ok (host, port) ↔ IsAddress host port s := by
  rw [isAddress_iff, splitHostPort]
  cases hcut : cut s.toList with
  | error fault =>
    constructor
    · intro h
      simp at h
    · rintro ⟨bracketed, digits, htext, hsplit, -⟩
      rw [htext, hsplit.cut_eq] at hcut
      simp at hcut
  | ok parts =>
    obtain ⟨front, digits⟩ := parts
    constructor
    · intro h
      cases hparse : Port.parse (String.ofList digits) with
      | error e => simp [hparse] at h
      | ok p =>
        obtain ⟨rfl, rfl⟩ : String.ofList front = host ∧ p = port := by simpa [hparse] using h
        obtain ⟨bracketed, htext, hsplit⟩ := cut_eq_ok_iff.mp hcut
        rw [String.toList_ofList]
        exact ⟨bracketed, digits, htext, hsplit, hparse⟩
    · rintro ⟨bracketed, digits', htext, hsplit, hparse⟩
      rw [htext, hsplit.cut_eq] at hcut
      obtain ⟨rfl, rfl⟩ : host.toList = front ∧ digits' = digits := by simpa using hcut
      simp only [hparse, String.ofList_toList]

/-- A port that is set is written without separators. -/
theorem isBare_text {port : Port} (hset : port.isUnset = false) : IsBare port.text :=
  ⟨Port.not_mem_text hset (by decide), Port.not_mem_text hset (by decide),
    Port.not_mem_text hset (by decide)⟩

/-- What is joined from a host and a port is an address of them. -/
theorem isAddress_joinHostPort {host : String} {port : Port} (hopen : '[' ∉ host.toList)
    (hclose : ']' ∉ host.toList) (hset : port.isUnset = false) :
    IsAddress host port (joinHostPort host port) := by
  unfold joinHostPort joinText
  split_ifs with hcolon
  · exact .bracketed hopen hclose (isBare_text hset) (Port.parse_text hset)
  · have hno : ':' ∉ host.toList := by simpa [hasColon] using hcolon
    exact .plain ⟨hno, hopen, hclose⟩ (isBare_text hset) (Port.parse_text hset)

/-- Splitting accepts the addresses of a host and a port and nothing else, at every offset that it
uses the text can be cut, and what was joined is split again. -/
theorem splitHostPort_grammar :
    (∀ (s host : String) (port : Port),
      splitHostPort s = .ok (host, port) ↔ IsAddress host port s) ∧
    (∀ s, splitAt? s = some (splitHostPort s)) ∧
    ∀ (host : String) (port : Port), '[' ∉ host.toList → ']' ∉ host.toList →
      port.isUnset = false → splitHostPort (joinHostPort host port) = .ok (host, port) := by
  refine ⟨?_, splitAt?_eq, ?_⟩
  · intro s host port
    exact splitHostPort_eq_ok_iff
  · intro host port hopen hclose hset
    exact splitHostPort_eq_ok_iff.mpr (isAddress_joinHostPort hopen hclose hset)

/-- An address with a zone comes back from what it was joined to. -/
theorem splitHostPort_grammar_zone :
    '[' ∉ "fe80::1%lo0".toList ∧ ']' ∉ "fe80::1%lo0".toList ∧ (⟨456⟩ : Port).isUnset = false ∧
      splitHostPort (joinHostPort "fe80::1%lo0" ⟨456⟩) = .ok ("fe80::1%lo0", ⟨456⟩) := by
  refine ⟨by decide, by decide, rfl, ?_⟩
  exact splitHostPort_grammar.2.2 "fe80::1%lo0" ⟨456⟩ (by decide) (by decide) rfl

end Address

end WebHost
