import WebHost.Proofs.Net.Restriction

/-!
# Ports that take the place of others

An address is a host, in brackets or without colons, and possibly something in the place of its port:
a numeral, nothing, or a text that is no port at all. A port that is applied to it keeps the host and
takes that place, so that the result is split into this host and this port, and of several ports the
last one is left. Brackets without a port behind them stay as they are. Where a port is replaced they
are put anew, around a host with colons; around any other they are dropped.
-/

set_option autoImplicit false

namespace WebHost.Address

/-- An address with a host, and perhaps a text in the place of its port. -/
structure Hosted where
  host : String
  bracketed : Bool
  /-- What stands after the colon behind the host, if there is one. -/
  place : Option String
  noOpen : '[' ∉ host.toList
  noClose : ']' ∉ host.toList
  colonFree : bracketed = false → ':' ∉ host.toList
  bare : ∀ written ∈ place, IsBare written

namespace Hosted

variable {a : Hosted} {port : Port}

/-- An address as it is written. -/
def text (a : Hosted) : String :=
  String.ofList (frame a.bracketed a.host.toList ++
    match a.place with
    | some written => ':' :: written.toList
    | none => [])

/-- Without a port an address is its framed host. -/
theorem toList_text_of_none (h : a.place = none) :
    a.text.toList = frame a.bracketed a.host.toList := by
  simp [text, h]

/-- With a port an address is its framed host, a colon and the port. -/
theorem toList_text_of_some {written : String} (h : a.place = some written) :
    a.text.toList = frame a.bracketed a.host.toList ++ ':' :: written.toList := by
  simp [text, h]

/-- An address with a port follows the grammar of addresses. -/
theorem isSplit {written : String} (h : a.place = some written) :
    IsSplit a.bracketed a.host.toList written.toList := by
  have hbare := a.bare written h
  exact ⟨a.noOpen, a.noClose, a.colonFree, hbare.noColon, hbare.noOpen, hbare.noClose⟩

/-- With a port in its place an address is split into the host and this port. -/
theorem splitHostPort_text {written : String} (h : a.place = some written)
    (hparse : Port.parse written = .ok port) : splitHostPort a.text = .ok (a.host, port) := by
  apply splitHostPort_eq_ok_iff.mpr
  apply isAddress_iff.mpr
  refine ⟨a.bracketed, written.toList, toList_text_of_some h, isSplit h, ?_⟩
  rwa [String.ofList_toList]

/-- An address after a port took the place of what was there. -/
def withPort (a : Hosted) (port : Port) : Hosted where
  host := a.host
  bracketed := if a.place.isNone then a.bracketed else decide (':' ∈ a.host.toList)
  place := if port.isUnset then none else some port.text
  noOpen := a.noOpen
  noClose := a.noClose
  colonFree := by
    intro h
    split at h
    · exact a.colonFree h
    · exact of_decide_eq_false h
  bare := by
    intro written h
    split at h
    · simp at h
    · rename_i hset
      obtain rfl : port.text = written := by simpa using h
      exact isBare_text (by simpa using hset)

/-- The address of a port that is set is a colon and its text. -/
theorem toList_addr (hset : port.isUnset = false) : port.addr.toList = ':' :: port.text.toList := by
  simp [Port.addr, Port.text, hset]

/-- With a port applied, an address is its framed host and the address of the port. -/
theorem text_withPort (a : Hosted) (port : Port) :
    (a.withPort port).text.toList =
      frame (a.withPort port).bracketed a.host.toList ++ port.addr.toList := by
  by_cases hset : port.isUnset = true
  · have hplace : (a.withPort port).place = none := by simp [withPort, hset]
    have haddr : port.addr = "" := by simp [Port.addr, hset]
    rw [toList_text_of_none hplace, haddr]
    exact (List.append_nil _).symm
  · rw [Bool.not_eq_true] at hset
    have hplace : (a.withPort port).place = some port.text := by simp [withPort, hset]
    rw [toList_text_of_some hplace, toList_addr hset]
    rfl

/-- A port that is applied, set or not, takes the place of the port. -/
theorem applyToAddr_text (a : Hosted) (port : Port) :
    port.applyToAddr a.text = (a.withPort port).text := by
  apply String.toList_inj.mp
  rw [text_withPort]
  cases hplace : a.place with
  | none =>
    have htext := toList_text_of_none hplace
    have hcut : cut a.text.toList = .error .missingPort := by
      rw [htext]
      exact cut_frame_portless a.noClose a.colonFree
    rw [Port.applyToAddr_of_missingPort hcut, String.toList_append, htext]
    simp [withPort, hplace]
  | some written =>
    have hcut : cut a.text.toList = .ok (a.host.toList, written.toList) := by
      rw [toList_text_of_some hplace]
      exact (isSplit hplace).cut_eq
    rw [Port.applyToAddr_of_cut hcut]
    simp [withPort, hplace]

/-- A port that is applied is read back beside the host. -/
theorem splitHostPort_applyToAddr (a : Hosted) (hset : port.isUnset = false) :
    splitHostPort (port.applyToAddr a.text) = .ok (a.host, port) := by
  have hplace : (a.withPort port).place = some port.text := by simp [withPort, hset]
  rw [applyToAddr_text]
  exact splitHostPort_text hplace (Port.parse_text hset)

/-- The brackets that an address has after a port is applied. -/
theorem applyToAddr_text_eq (a : Hosted) (hset : port.isUnset = false) :
    port.applyToAddr a.text =
      (if a.bracketed = true ∧ a.place = none ∨ ':' ∈ a.host.toList then "[" ++ a.host ++ "]"
        else a.host) ++ ":" ++ port.text := by
  apply String.toList_inj.mp
  rw [applyToAddr_text, text_withPort, toList_addr hset]
  cases hplace : a.place with
  | none =>
    have hcolon := a.colonFree
    cases hbracketed : a.bracketed <;> simp_all [withPort, frame]
  | some written =>
    by_cases hcolon : ':' ∈ a.host.toList <;> simp [withPort, hplace, hcolon, frame]

/-- However many ports are applied, what comes out is an address of the same host. -/
theorem exists_applyPorts_text (a : Hosted) (ports : List Port) :
    ∃ b : Hosted, b.host = a.host ∧ applyPorts a.text ports = b.text := by
  induction ports generalizing a with
  | nil => exact ⟨a, rfl, rfl⟩
  | cons port ports ih =>
    obtain ⟨b, hhost, htext⟩ := ih (a.withPort port)
    refine ⟨b, hhost, ?_⟩
    rw [← htext, ← applyToAddr_text]
    rfl

/-- A port that is applied to the address of a host makes it the address of that host and this port,
whatever was in its place; brackets stay where no port is replaced, and are put around colons; and of
the ports among some options the last one is left. -/
theorem port_takes_place (a : Hosted) (port : Port) (hset : port.isUnset = false) :
    splitHostPort (port.applyToAddr a.text) = .ok (a.host, port) ∧
    port.applyToAddr a.text =
      (if a.bracketed = true ∧ a.place = none ∨ ':' ∈ a.host.toList then "[" ++ a.host ++ "]"
        else a.host) ++ ":" ++ port.text ∧
    ∀ (vault : Vault) (s : Settings) (options : List ServerOption) (earlier : List Port),
      addressedBy vault s options = (a.text, earlier ++ [port]) →
      splitHostPort (s.apply vault options).1.address = .ok (a.host, port) := by
  refine ⟨splitHostPort_applyToAddr a hset, applyToAddr_text_eq a hset, ?_⟩
  intro vault s options earlier haddressed
  obtain ⟨b, hhost, htext⟩ := exists_applyPorts_text a earlier
  rw [address_apply, haddressed, applyPorts_concat, htext, ← hhost]
  exact splitHostPort_applyToAddr b hset

/-- A host with colons and a zone, and a text that is no port. -/
def zoned : Hosted where
  host := "fe80::1%lo0"
  bracketed := true
  place := some "http"
  noOpen := by decide
  noClose := by decide
  colonFree := by simp
  bare := by
    intro written h
    obtain rfl : "http" = written := by simpa using h
    exact ⟨by decide, by decide, by decide⟩

/-- Of two ports among its options the second one is listened on, at the host with its zone. -/
theorem port_takes_place_zoned :
    (⟨8080⟩ : Port).isUnset = false ∧
      (⟨8080⟩ : Port).applyToAddr "[fe80::1%lo0]:http" = "[fe80::1%lo0]:8080" ∧
      splitHostPort (({} : Settings).apply {}
        [.address "[fe80::1%lo0]:http", .port ⟨80⟩, .group [.port ⟨8080⟩]]).1.address =
          .ok ("fe80::1%lo0", ⟨8080⟩) := by
  have htext : zoned.text = "[fe80::1%lo0]:http" := by decide
  have hset : (⟨8080⟩ : Port).isUnset = false := rfl
  obtain ⟨-, happly, hoptions⟩ := port_takes_place zoned ⟨8080⟩ hset
  refine ⟨hset, ?_, ?_⟩
  · rw [← htext, happly]
    decide +kernel
  · apply hoptions {} {} _ [⟨80⟩]
    rw [htext]
    rfl

/-- A host without colons in brackets, and a port. -/
def bracketedName : Hosted where
  host := "localhost"
  bracketed := true
  place := some "80"
  noOpen := by decide
  noClose := by decide
  colonFree := by simp
  bare := by
    intro written h
    obtain rfl : "80" = written := by simpa using h
    exact ⟨by decide, by decide, by decide⟩

/-- It has no brackets any more when the port is replaced. -/
theorem bracketedName_loses_brackets :
    bracketedName.text = "[localhost]:80" ∧ bracketedName.bracketed = true ∧
      (⟨8080⟩ : Port).applyToAddr bracketedName.text = "localhost:8080" ∧
      '[' ∉ ((⟨8080⟩ : Port).applyToAddr bracketedName.text).toList := by
  have hresult : (⟨8080⟩ : Port).applyToAddr bracketedName.text = "localhost:8080" := by
    decide +kernel
  refine ⟨by decide, rfl, hresult, ?_⟩
  rw [hresult]
  decide

end Hosted

end WebHost.Address
