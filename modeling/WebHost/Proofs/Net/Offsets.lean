import WebHost.Proofs.Net.Address
import WebHost.Proofs.Text.Offset
import WebHost.Proofs.Text.Utf8

/-!
# Addresses by their byte offsets

An address may be split by the byte offsets of its colons and brackets, and its port read by those of
its first characters. Such a reading cuts texts at offsets and looks at single bytes, and would break
down at an offset where that is impossible. It never does: each of its offsets is one at which the
text can be cut, and so it answers like the reading by characters.
-/

set_option autoImplicit false

namespace WebHost

namespace Port

open Text

/-- What follows a colon in front, by byte offsets. The outer option is empty if a text is cut where
it cannot be. -/
def numeralAt? (text : List Char) : Option (Option (List Char)) :=
  match findByte? ':' text with
  | some 0 => (dropBytes? 1 text).map some
  | some _ => some none
  | none => some (some text)

/-- The radix of a numeral and its digits, by byte offsets. -/
def radixAt? (text : List Char) : Option (Nat × List Char) :=
  match (after? ['0', 'x'] text).or (after? ['0', 'X'] text),
    (after? ['0', 'o'] text).or (after? ['0', 'O'] text),
    (after? ['0', 'b'] text).or (after? ['0', 'B'] text) with
  | some digits, _, _ => some (16, digits)
  | none, some digits, _ => some (8, digits)
  | none, none, some digits => some (2, digits)
  | none, none, none =>
    if 1 < byteSize text ∧ text.head? = some '0' then (dropBytes? 1 text).map (8, ·)
    else some (10, text)

/-- Reads a port numeral by byte offsets. -/
def readNumeralAt? (text : List Char) : Option (Except Numeral.Fault Nat) :=
  (radixAt? text).map fun (base, digits) =>
    match digits with
    | '+' :: _ => .error .empty
    | _ => Numeral.read base 65535 digits

/-- Reads a port by byte offsets. -/
def parseAt? (s : String) : Option (Except PortError Port) :=
  if s.isEmpty then some (.error ⟨.missingPort, s, none⟩)
  else
    (numeralAt? s.toList).bind fun
      | none => some (.error ⟨.invalidFormat, s, none⟩)
      | some digits => (readNumeralAt? digits).map fun
        | .ok n => .ok ⟨UInt16.ofNat n⟩
        | .error fault => .error ⟨.missingPort, String.ofList digits, some fault⟩

/-- Read by offsets, the numeral of a text is the one read by signs. -/
theorem numeralAt?_eq (text : List Char) : numeralAt? text = some (numeralOf text) := by
  unfold numeralAt? numeralOf
  cases text with
  | nil => rfl
  | cons c text =>
    by_cases hc : c = ':'
    · subst hc
      have hdrop : dropBytes? 1 (':' :: text) = some text := dropBytes?_append [':'] text
      simp [findByte?, hdrop]
    · have hsize : c.utf8Size ≠ 0 := Nat.ne_of_gt c.utf8Size_pos
      rw [findByte?, if_neg hc, findByte?_eq_map]
      cases hcut : cutFirst ':' text with
      | none =>
        have hno : ':' ∉ text := cutFirst_eq_none_iff.mp hcut
        simp [hc, hno, Ne.symm hc]
      | some parts =>
        have hmem : ':' ∈ text := by
          rw [(cutFirst_eq_some_iff.mp hcut).1]
          simp
        simp [hc, hmem, hsize]

/-- Read by offsets, the radix of a text is the one read by signs. -/
theorem radixAt?_eq (text : List Char) : radixAt? text = some (radix text) := by
  unfold radix
  split
  case h_7 d digits hx hX ho hO hb hB =>
    have hdrop : dropBytes? 1 ('0' :: d :: digits) = some (d :: digits) :=
      dropBytes?_append ['0'] (d :: digits)
    have hsize : 1 < byteSize ('0' :: d :: digits) := by
      have hzero : '0'.utf8Size = 1 := by decide
      have hd := d.utf8Size_pos
      simp only [byteSize]
      omega
    have hno {c : Char} (h : d = c → False) : after? ['0', c] ('0' :: d :: digits) = none := by
      simp [after?, Ne.symm h]
    simp [radixAt?, hno hx, hno hX, hno ho, hno hO, hno hb, hno hB, hsize, hdrop]
  case h_8 hx hX ho hO hb hB hd =>
    have hno (c : Char) : after? ['0', c] text = none := by
      rw [Option.eq_none_iff_forall_ne_some]
      intro rest h
      exact hd c rest (after?_eq_some_iff.mp h)
    have hshort : ¬ (1 < byteSize text ∧ text.head? = some '0') := by
      rintro ⟨hsize, hhead⟩
      cases text with
      | nil => simp at hhead
      | cons c rest =>
        obtain rfl : c = '0' := by simpa using hhead
        cases rest with
        | nil => exact absurd hsize (by decide)
        | cons d digits => exact hd d digits rfl
    simp [radixAt?, hno, hshort]
  all_goals rfl

/-- Read by offsets, a numeral has the value it has by signs. -/
theorem readNumeralAt?_eq (text : List Char) : readNumeralAt? text = some (readNumeral text) := by
  rw [readNumeralAt?, radixAt?_eq]
  rfl

/-- Reading a port cuts it only where it can be cut. -/
theorem parseAt?_eq (s : String) : parseAt? s = some (parse s) := by
  unfold parseAt? parse
  split_ifs with hempty
  · rfl
  · rw [numeralAt?_eq, Option.bind_some]
    cases numeralOf s.toList with
    | none => rfl
    | some digits =>
      cases hread : readNumeral digits <;> simp [readNumeralAt?_eq, hread]

end Port

namespace Address

open Text

/-- The scans for brackets from two offsets on, and the port after the colon at a third one. -/
def finishAt? (opening closing colon : Nat) (address host : List Char) :
    Option (Except AddressFault (List Char × List Char)) :=
  (dropBytes? opening address).bind fun scanned =>
    if '[' ∈ scanned then some (.error .unexpectedOpenBracket)
    else (dropBytes? closing address).bind fun scanned =>
      if ']' ∈ scanned then some (.error .unexpectedCloseBracket)
      else (dropBytes? (colon + 1) address).map fun port => .ok (host, port)

/-- Takes an address apart by byte offsets. The outer option is empty if it is cut where it cannot be,
or if a byte beyond it is looked at. -/
def cutAt? (address : List Char) : Option (Except AddressFault (List Char × List Char)) :=
  match findLastByte? ':' address with
  | none => some (.error .missingPort)
  | some colon =>
    if address.head? = some '[' then
      match findByte? ']' address with
      | none => some (.error .missingCloseBracket)
      | some close =>
        if close + 1 = byteSize address then some (.error .missingPort)
        else if close + 1 ≠ colon then
          (bytes address)[close + 1]?.map fun b =>
            .error (if b = UInt8.ofNat ':'.toNat then .tooManyColons else .missingPort)
        else (slice? 1 close address).bind (finishAt? 1 (close + 1) colon address)
    else
      (slice? 0 colon address).bind fun host =>
        if ':' ∈ host then some (.error .tooManyColons) else finishAt? 0 0 colon address host

/-- Splits an address into its host and its port by byte offsets. -/
def splitAt? (s : String) : Option (Except PortError (String × Port)) :=
  (cutAt? s.toList).bind fun
    | .error fault => some (.error ⟨fault, s, none⟩)
    | .ok (host, port) => (Port.parseAt? (String.ofList port)).map fun
      | .error e => .error e
      | .ok p => .ok (String.ofList host, p)

section Offsets

variable {host port : List Char}

/-- The byte after a text is that of a colon exactly if a colon follows. -/
theorem exists_byte_after (front : List Char) (c : Char) (rest : List Char) :
    ∃ b, (bytes (front ++ c :: rest))[byteSize front]? = some b ∧
      (b = UInt8.ofNat ':'.toNat ↔ c = ':') := by
  rw [getElem?_bytes_append, bytes, List.flatMap_cons]
  by_cases hc : c.toNat < 0x80
  · rw [Utf8.encodeChar_of_ascii hc]
    refine ⟨_, rfl, ?_⟩
    constructor
    · intro h
      have hnat := congrArg UInt8.toNat h
      rw [UInt8.toNat_ofNat', UInt8.toNat_ofNat', Nat.mod_eq_of_lt (by omega),
        Nat.mod_eq_of_lt (by decide)] at hnat
      exact Char.toNat_inj.mp hnat
    · rintro rfl
      rfl
  · cases hbytes : String.utf8EncodeChar c with
    | nil =>
      have hlength := String.length_utf8EncodeChar c
      have hpos := c.utf8Size_pos
      rw [hbytes, List.length_nil] at hlength
      omega
    | cons b more =>
      have hb : 0x80 ≤ b.toNat :=
        Utf8.le_of_mem_encodeChar (Nat.le_of_not_lt hc) (by rw [hbytes]; exact List.mem_cons_self)
      refine ⟨b, rfl, ?_⟩
      constructor
      · rintro rfl
        exact absurd hb (by decide)
      · intro h
        rw [h] at hc
        exact absurd (by decide) hc

/-- An address that does not begin with a bracket is cut alike by offsets and by signs. -/
theorem cutAt?_open {front rest : List Char} {address : List Char}
    (hcut : cutLast ':' address = some (front, rest)) (hhead : address.head? ≠ some '[') :
    cutAt? address = some (cut address) := by
  obtain ⟨htext, -⟩ := cutLast_eq_some_iff.mp hcut
  have hcolon : findLastByte? ':' address = some (byteSize front) := by
    rw [findLastByte?_eq_map, hcut, Option.map_some]
  have hslice : slice? 0 (byteSize front) address = some front := by
    rw [htext]
    exact slice?_append [] front (':' :: rest)
  have hrest : dropBytes? (byteSize front + 1) address = some rest := by
    have hdrop := dropBytes?_append (front ++ [':']) rest
    rwa [byteSize_append, List.append_assoc, List.singleton_append, ← htext] at hdrop
  have hwhole : dropBytes? 0 address = some address := by rw [dropBytes?]
  rw [cut_open hcut hhead, cutAt?, hcolon]
  simp only [if_neg hhead, hslice, Option.bind_some, finishAt?, hwhole, hrest, Option.map_some]
  split_ifs <;> rfl

/-- The offset of the closing bracket lies behind the host. -/
theorem findByte?_bracketed (hclose : ']' ∉ host) (rest : List Char) :
    findByte? ']' ('[' :: (host ++ ']' :: rest)) = some (byteSize ('[' :: host)) := by
  have hcut : cutFirst ']' ('[' :: (host ++ ']' :: rest)) = some ('[' :: host, rest) :=
    cutFirst_eq_some_iff.mpr ⟨rfl, by simp [hclose]⟩
  rw [findByte?_eq_map, hcut, Option.map_some]

/-- A closing bracket takes one byte. -/
theorem byteSize_closed (host : List Char) :
    byteSize ('[' :: host ++ [']']) = byteSize ('[' :: host) + 1 := by
  have hone : byteSize [']'] = 1 := by decide
  rw [byteSize_append, hone]

/-- A byte is looked at behind the closing bracket only if there is one. -/
theorem cutAt?_of_other {colon : Nat} {c : Char} (hclose : ']' ∉ host)
    (hfound : findLastByte? ':' ('[' :: (host ++ ']' :: c :: port)) = some colon)
    (hne : byteSize ('[' :: host ++ [']']) ≠ colon) :
    cutAt? ('[' :: (host ++ ']' :: c :: port)) =
      some (.error (if c = ':' then .tooManyColons else .missingPort)) := by
  have htext : '[' :: (host ++ ']' :: c :: port) = '[' :: host ++ [']'] ++ c :: port := by simp
  obtain ⟨b, hbyte, hb⟩ := exists_byte_after ('[' :: host ++ [']']) c port
  have hmore : byteSize ('[' :: host ++ [']']) ≠ byteSize ('[' :: host ++ [']'] ++ c :: port) := by
    have hc := c.utf8Size_pos
    rw [byteSize_append _ (c :: port), byteSize]
    omega
  rw [← htext] at hbyte hmore
  rw [cutAt?, hfound]
  simp only [List.head?_cons, if_true, findByte?_bracketed hclose, ← byteSize_closed, if_neg hmore,
    ne_eq, hne, not_false_eq_true, hbyte, Option.map_some, hb]

/-- The host between the brackets and the port after the only colon. -/
theorem cutAt?_of_only (hclose : ']' ∉ host) (hport : ':' ∉ port) :
    cutAt? ('[' :: (host ++ ']' :: ':' :: port)) =
      some (cut ('[' :: (host ++ ']' :: ':' :: port))) := by
  have htext : '[' :: (host ++ ']' :: ':' :: port) = '[' :: host ++ [']'] ++ ':' :: port := by simp
  have hfound : findLastByte? ':' ('[' :: (host ++ ']' :: ':' :: port)) =
      some (byteSize ('[' :: host ++ [']'])) := by
    rw [findLastByte?_eq_map, htext, cutLast_append _ hport, Option.map_some]
  have hmore : byteSize ('[' :: host ++ [']']) ≠
      byteSize ('[' :: (host ++ ']' :: ':' :: port)) := by
    have hc := (':').utf8Size_pos
    rw [htext, byteSize_append _ (':' :: port), byteSize]
    omega
  have hslice : slice? 1 (byteSize ('[' :: host)) ('[' :: (host ++ ']' :: ':' :: port)) =
      some host := slice?_append ['['] host (']' :: ':' :: port)
  have hinner : dropBytes? 1 ('[' :: (host ++ ']' :: ':' :: port)) =
      some (host ++ ']' :: ':' :: port) := dropBytes?_append ['['] _
  have hafter : dropBytes? (byteSize ('[' :: host ++ [']'])) ('[' :: (host ++ ']' :: ':' :: port)) =
      some (':' :: port) := by
    rw [htext]
    exact dropBytes?_append _ _
  have hlast : dropBytes? (byteSize ('[' :: host ++ [']']) + 1)
      ('[' :: (host ++ ']' :: ':' :: port)) = some port := by
    have hdrop := dropBytes?_append ('[' :: host ++ [']'] ++ [':']) port
    rw [byteSize_append _ [':'], List.append_assoc _ [':'], List.singleton_append, ← htext] at hdrop
    exact hdrop
  rw [cut_bracketed hclose, if_neg hport, cutAt?, hfound]
  simp only [List.head?_cons, if_true, findByte?_bracketed hclose, ← byteSize_closed, if_neg hmore,
    ne_eq, not_true_eq_false, if_false, hslice, Option.bind_some, finishAt?, hinner, hafter, hlast,
    Option.map_some]
  simp only [List.mem_append, List.mem_cons]
  split_ifs <;> simp_all

/-- Behind the closing bracket stands nothing, the only colon, the first of several, or something
else. -/
theorem cutAt?_bracketed {front back : List Char} (hclose : ']' ∉ host) (rest : List Char)
    (hcut : cutLast ':' ('[' :: (host ++ ']' :: rest)) = some (front, back)) :
    cutAt? ('[' :: (host ++ ']' :: rest)) = some (cut ('[' :: (host ++ ']' :: rest))) := by
  have hfound : findLastByte? ':' ('[' :: (host ++ ']' :: rest)) = some (byteSize front) := by
    rw [findLastByte?_eq_map, hcut, Option.map_some]
  have hfirst : cutFirst ']' (host ++ ']' :: rest) = some (host, rest) :=
    cutFirst_eq_some_iff.mpr ⟨rfl, hclose⟩
  cases rest with
  | nil =>
    simp only [cutAt?, cut, hfound, hcut, hfirst, List.head?_cons, if_true,
      findByte?_bracketed hclose, ← byteSize_closed, List.cons_append]
  | cons c port =>
    have htext : '[' :: (host ++ ']' :: c :: port) = '[' :: host ++ [']'] ++ c :: port := by simp
    by_cases hc : c = ':'
    · subst hc
      by_cases hport : ':' ∈ port
      · -- the last colon stands behind the first one
        have hne : byteSize ('[' :: host ++ [']']) ≠ byteSize front := by
          obtain ⟨⟨middle, last⟩, hlast⟩ := Option.ne_none_iff_exists'.mp
            (fun hnone => cutLast_eq_none_iff.mp hnone hport)
          obtain ⟨rfl, hno⟩ := cutLast_eq_some_iff.mp hlast
          have hwhole : cutLast ':' ('[' :: host ++ [']'] ++ ':' :: (middle ++ ':' :: last)) =
              some ('[' :: host ++ [']'] ++ ':' :: middle, last) := by
            simpa using cutLast_append ('[' :: host ++ [']'] ++ ':' :: middle) hno
          rw [← htext, hcut] at hwhole
          obtain ⟨rfl, -⟩ := Prod.mk.inj (Option.some.inj hwhole)
          have hc := (':').utf8Size_pos
          rw [byteSize_append _ (':' :: middle), byteSize]
          omega
        rw [cut_bracketed hclose, if_pos hport, cutAt?_of_other hclose hfound hne, if_pos rfl]
      · exact cutAt?_of_only hclose hport
    · -- at the end of the brackets there is no colon
      have hne : byteSize ('[' :: host ++ [']']) ≠ byteSize front := by
        intro heq
        have hhere := dropBytes?_append ('[' :: host ++ [']']) (c :: port)
        have hcolon := dropBytes?_append front (':' :: back)
        rw [← htext, heq, (cutLast_eq_some_iff.mp hcut).1, hcolon] at hhere
        exact hc (List.cons.inj (Option.some.inj hhere)).1.symm
      rw [cutAt?_of_other hclose hfound hne, if_neg hc]
      simp only [cut, hcut, hfirst, ne_eq, if_pos hc]

/-- Taking an address apart cuts it only where it can be cut. -/
theorem cutAt?_eq (address : List Char) : cutAt? address = some (cut address) := by
  cases hlast : cutLast ':' address with
  | none =>
    have hcolon : findLastByte? ':' address = none := by
      rw [findLastByte?_eq_map, hlast, Option.map_none]
    simp only [cutAt?, cut, hcolon, hlast]
  | some parts =>
    obtain ⟨front, back⟩ := parts
    by_cases hhead : address.head? = some '['
    · cases address with
      | nil => simp at hhead
      | cons c inner =>
        obtain rfl : c = '[' := by simpa using hhead
        cases hfirst : cutFirst ']' inner with
        | none =>
          have hcolon : findLastByte? ':' ('[' :: inner) = some (byteSize front) := by
            rw [findLastByte?_eq_map, hlast, Option.map_some]
          have hclose : findByte? ']' ('[' :: inner) = none := by
            have hno : cutFirst ']' ('[' :: inner) = none := by
              simpa [cutFirst_eq_none_iff] using cutFirst_eq_none_iff.mp hfirst
            rw [findByte?_eq_map, hno, Option.map_none]
          simp only [cutAt?, cut, hcolon, hhead, hclose, hlast, hfirst, if_true]
        | some parts' =>
          obtain ⟨host, rest⟩ := parts'
          obtain ⟨rfl, hclose⟩ := cutFirst_eq_some_iff.mp hfirst
          exact cutAt?_bracketed hclose rest hlast
    · exact cutAt?_open hlast hhead

/-- Splitting cuts an address only where it can be cut. -/
theorem splitAt?_eq (s : String) : splitAt? s = some (splitHostPort s) := by
  rw [splitAt?, cutAt?_eq, Option.bind_some, splitHostPort]
  cases cut s.toList with
  | error fault => rfl
  | ok parts =>
    cases hparse : Port.parse (String.ofList parts.2) <;> simp [Port.parseAt?_eq, hparse]

end Offsets

end Address

end WebHost
