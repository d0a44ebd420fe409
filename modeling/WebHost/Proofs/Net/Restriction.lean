import WebHost.Proofs.Net.Splitting
import WebHost.Proofs.Server.Options

/-!
# Addresses that are restricted to a host

A server whose address names a host listens on that host only, and one whose address names none
listens on every interface. A port that is applied to an address leaves its host alone where the port
has its place: behind a host without a port, instead of the port that is there, or behind a bracket
that something else follows. Every other address with a colon is given up as a whole, and what is left
is the port. So an address stays restricted exactly as long as ports are applied to addresses of the
first kind only.
-/

set_option autoImplicit false

namespace WebHost

namespace Address

open Text

/-! ## The host that an address names -/

/-- What may follow a host: nothing, or a port after a colon. -/
def IsEnding (rest : List Char) : Prop := rest = [] ∨ ∃ port, ':' ∉ port ∧ rest = ':' :: port

/-- An address names a host: it is that host, in brackets or without, with a port or without. -/
def Names (host address : String) : Prop :=
  ∃ bracketed rest, IsEnding rest ∧ address.toList = frame bracketed host.toList ++ rest

variable {a b front rest ending : List Char}

/-- An ending begins with a colon or not at all. -/
theorem IsEnding.head?_ne (h : IsEnding ending) {c : Char} (hc : c ≠ ':') :
    ending.head? ≠ some c := by
  rcases h with rfl | ⟨port, -, rfl⟩
  · simp
  · simpa using Ne.symm hc

/-- Hosts without a colon in front of endings are told apart from them. -/
theorem append_ending_inj (ha : ':' ∉ a) (hb : ':' ∉ b) (hrest : IsEnding rest)
    (hending : IsEnding ending) (h : a ++ rest = b ++ ending) : a = b ∧ rest = ending := by
  rcases hrest with rfl | ⟨port, hport, rfl⟩
  · rcases hending with rfl | ⟨port', -, rfl⟩
    · simpa using h
    · rw [List.append_nil] at h
      exact absurd (by rw [h]; simp) ha
  · have hcut : cutFirst ':' (a ++ ':' :: port) = some (a, port) :=
      cutFirst_eq_some_iff.mpr ⟨rfl, ha⟩
    rcases hending with rfl | ⟨port', -, rfl⟩
    · rw [List.append_nil] at h
      exact absurd (by rw [← h]; simp) hb
    · have hcut' : cutFirst ':' (b ++ ':' :: port') = some (b, port') :=
        cutFirst_eq_some_iff.mpr ⟨rfl, hb⟩
      rw [h, hcut'] at hcut
      obtain ⟨rfl, rfl⟩ := Prod.mk.inj (Option.some.inj hcut)
      exact ⟨rfl, rfl⟩

/-- A host without an opening bracket does not begin with one, whatever ending is behind it. -/
theorem head?_host_append_ne (hopen : '[' ∉ a) (hending : IsEnding ending) :
    (a ++ ending).head? ≠ some '[' := by
  cases a with
  | nil => exact hending.head?_ne (by decide)
  | cons c a =>
    intro h
    obtain rfl : c = '[' := by simpa using h
    exact hopen List.mem_cons_self

section Names

variable {host address : String}

/-- A bare host has no colon, framed or not. -/
theorem colon_not_mem_frame (hhost : IsBare host) (bracketed : Bool) :
    ':' ∉ frame bracketed host.toList := by
  cases bracketed <;> simp [frame, hhost.noColon]

/-- A text without colons before an ending names the host that it is. -/
theorem names_append_iff (hhost : IsBare host) (hfront : ':' ∉ front) (hending : IsEnding ending)
    (htext : address.toList = front ++ ending) :
    Names host address ↔ ∃ bracketed, front = frame bracketed host.toList := by
  constructor
  · rintro ⟨bracketed, rest, hrest, h⟩
    rw [htext] at h
    exact ⟨bracketed,
      (append_ending_inj hfront (colon_not_mem_frame hhost bracketed) hending hrest h).1⟩
  · rintro ⟨bracketed, rfl⟩
    exact ⟨bracketed, ending, hending, htext⟩

/-- A text between brackets is named if nothing but an ending follows. -/
theorem names_bracketed_iff (hhost : IsBare host) (hclose : ']' ∉ front)
    (htext : address.toList = '[' :: (front ++ ']' :: rest)) :
    Names host address ↔ host.toList = front ∧ IsEnding rest := by
  constructor
  · rintro ⟨bracketed, ending, hending, h⟩
    cases bracketed with
    | false =>
      have hsame : '[' :: (front ++ ']' :: rest) = host.toList ++ ending := htext.symm.trans h
      exact absurd (by rw [← hsame]; rfl) (head?_host_append_ne hhost.noOpen hending)
    | true =>
      have hcut : cutFirst ']' (front ++ ']' :: rest) = some (front, rest) :=
        cutFirst_eq_some_iff.mpr ⟨rfl, hclose⟩
      have hcut' : cutFirst ']' (host.toList ++ ']' :: ending) = some (host.toList, ending) :=
        cutFirst_eq_some_iff.mpr ⟨rfl, hhost.noClose⟩
      have hinner : front ++ ']' :: rest = host.toList ++ ']' :: ending := by
        rw [htext] at h
        simpa [frame] using h
      rw [hinner, hcut'] at hcut
      obtain ⟨rfl, rfl⟩ := Prod.mk.inj (Option.some.inj hcut)
      exact ⟨rfl, hending⟩
  · rintro ⟨rfl, hrest⟩
    exact ⟨true, rest, hrest, by simp [htext, frame]⟩

/-- A framed host before an ending is the one that is named. -/
theorem names_frame_iff (hhost : IsBare host) {bracketed : Bool} (hopen : '[' ∉ front)
    (hclose : ']' ∉ front) (hcolon : bracketed = false → ':' ∉ front) (hending : IsEnding ending)
    (htext : address.toList = frame bracketed front ++ ending) :
    Names host address ↔ host.toList = front := by
  cases bracketed with
  | false =>
    rw [names_append_iff hhost (hcolon rfl) hending htext]
    constructor
    · rintro ⟨bracketed, rfl⟩
      cases bracketed with
      | false => rfl
      | true => exact absurd (by simp [frame]) hopen
    · rintro rfl
      exact ⟨false, rfl⟩
  | true =>
    have hbracketed : address.toList = '[' :: (front ++ ']' :: ending) := by simp [htext, frame]
    rw [names_bracketed_iff hhost hclose hbracketed]
    simp [hending]

/-- An address that names a bare host has a colon at most once. -/
theorem count_colon_le (hhost : IsBare host) (h : Names host address) :
    address.toList.count ':' ≤ 1 := by
  obtain ⟨bracketed, ending, hending, htext⟩ := h
  have hframe := List.count_eq_zero.mpr (colon_not_mem_frame hhost bracketed)
  rw [htext, List.count_append, hframe, Nat.zero_add]
  rcases hending with rfl | ⟨port, hport, rfl⟩
  · simp
  · rw [List.count_cons_self, List.count_eq_zero.mpr hport]

end Names

/-! ## Applying a port -/

/-- An address in which a port has its place. -/
inductive IsLegible (address : String) : Prop
  /-- Behind a text without colons. -/
  | portless : ':' ∉ address.toList → IsLegible address
  /-- Instead of the port that is there. -/
  | port {bracketed : Bool} {host digits : List Char} :
    address.toList = frame bracketed host ++ ':' :: digits → IsSplit bracketed host digits →
    IsLegible address
  /-- Behind a text in brackets and what follows it, if no colon does at once. -/
  | trailing {host rest : List Char} : address.toList = '[' :: (host ++ ']' :: rest) →
    ']' ∉ host → rest.head? ≠ some ':' → IsLegible address

/-- A port is missing exactly if there is no colon, or none behind a host in brackets. -/
theorem cut_eq_missingPort_iff {address : List Char} :
    cut address = .error .missingPort ↔
      ':' ∉ address ∨ ∃ host rest, address = '[' :: (host ++ ']' :: rest) ∧ ']' ∉ host ∧
        rest.head? ≠ some ':' := by
  constructor
  · intro h
    cases hlast : cutLast ':' address with
    | none => exact .inl (cutLast_eq_none_iff.mp hlast)
    | some parts =>
      by_cases hhead : address.head? = some '['
      · cases address with
        | nil => simp at hhead
        | cons c inner =>
          obtain rfl : c = '[' := by simpa using hhead
          cases hfirst : cutFirst ']' inner with
          | none => simp [cut, hlast, hfirst] at h
          | some parts' =>
            -- with a colon behind the bracket there is a port, or another fault
            obtain ⟨host, rest⟩ := parts'
            obtain ⟨rfl, hclose⟩ := cutFirst_eq_some_iff.mp hfirst
            refine .inr ⟨host, rest, rfl, hclose, ?_⟩
            intro hcolon
            obtain ⟨port, rfl⟩ := List.head?_eq_some_iff.mp hcolon
            rw [cut_bracketed hclose] at h
            split_ifs at h <;> simp at h
      · rw [cut_open hlast hhead] at h
        split_ifs at h <;> simp at h
  · rintro (hcolon | ⟨host, rest, rfl, hclose, hrest⟩)
    · simp only [cut, cutLast_eq_none_iff.mpr hcolon]
    · exact cut_trailing hclose hrest

/-- An address is legible exactly if it is cut, or lacks nothing but a port. -/
theorem isLegible_iff {address : String} :
    IsLegible address ↔ (∃ host digits, cut address.toList = .ok (host, digits)) ∨
      cut address.toList = .error .missingPort := by
  rw [cut_eq_missingPort_iff]
  constructor
  · intro h
    cases h with
    | portless hcolon => exact .inr (.inl hcolon)
    | port htext hsplit => exact .inl ⟨_, _, cut_eq_ok_iff.mpr ⟨_, htext, hsplit⟩⟩
    | trailing htext hclose hrest => exact .inr (.inr ⟨_, _, htext, hclose, hrest⟩)
  · rintro (⟨host, digits, hcut⟩ | hcolon | ⟨host, rest, htext, hclose, hrest⟩)
    · obtain ⟨bracketed, htext, hsplit⟩ := cut_eq_ok_iff.mp hcut
      exact .port htext hsplit
    · exact .portless hcolon
    · exact .trailing htext hclose hrest

end Address

namespace Port

open Address

variable {p : Port} {address host : String}

/-- The address of a port is an ending. -/
theorem isEnding_addr (p : Port) : IsEnding p.addr.toList := by
  unfold addr
  split_ifs with hset
  · exact .inl rfl
  · have htext : p.text = toString p.toNat := by simp [text, hset]
    have hset' : p.isUnset = false := by simpa using hset
    refine .inr ⟨p.text.toList, (isBare_text hset').noColon, ?_⟩
    simp [htext]

/-- To an address that lacks a port, the port is added at the end. -/
theorem applyToAddr_of_missingPort (h : cut address.toList = .error .missingPort) :
    p.applyToAddr address = address ++ p.addr := by
  have hhead : hasColon address = true → address.toList.head? = some '[' := by
    intro hcolon
    rcases cut_eq_missingPort_iff.mp h with hno | ⟨host, rest, htext, -⟩
    · exact absurd (by simpa [hasColon] using hcolon) hno
    · rw [htext, List.head?_cons]
  unfold applyToAddr
  by_cases hempty : address.isEmpty = true
  · rw [if_pos hempty, String.isEmpty_iff.mp hempty, String.empty_append]
  · rw [if_neg hempty]
    by_cases hcolon : hasColon address = true
    · simp [hcolon, h, hhead hcolon]
    · simp [hcolon]

/-- Where there is a port, the host stays, and has brackets if it needs them. -/
theorem applyToAddr_of_cut {front digits : List Char}
    (h : cut address.toList = .ok (front, digits)) :
    (p.applyToAddr address).toList = frame (decide (':' ∈ front)) front ++ p.addr.toList := by
  obtain ⟨bracketed, htext, hsplit⟩ := cut_eq_ok_iff.mp h
  have hempty : address.isEmpty = false := by
    have hne : address.toList ≠ [] := by simp [htext]
    simpa using hne
  have hcolon : hasColon address = true := by simp [hasColon, htext]
  have hhead : front.head? ≠ some '[' := fun hmem => hsplit.noOpen (List.mem_of_mem_head? hmem)
  have hfront : hasColon (String.ofList front) = decide (':' ∈ front) := by simp [hasColon]
  unfold applyToAddr
  by_cases hmem : ':' ∈ front
  · simp [hempty, hcolon, h, hhead, hfront, hmem, frame]
  · simp [hempty, hcolon, h, hfront, hmem, frame]

/-- Everywhere else nothing but the port is left. -/
theorem applyToAddr_of_not_isLegible (h : ¬ IsLegible address) : p.applyToAddr address = p.addr := by
  rw [isLegible_iff, not_or] at h
  obtain ⟨hok, hmissing⟩ := h
  have hcolon : hasColon address = true := by
    by_contra hno
    exact hmissing (cut_eq_missingPort_iff.mpr (.inl (by simpa [hasColon] using hno)))
  cases hcut : cut address.toList with
  | ok parts => exact absurd ⟨parts.1, parts.2, hcut⟩ hok
  | error fault =>
    have hfault : fault ≠ .missingPort := by
      rintro rfl
      exact hmissing hcut
    have hnone : hasColon "" = false := by decide
    unfold applyToAddr
    by_cases hempty : address.isEmpty = true
    · rw [if_pos hempty]
    · cases fault with
      | missingPort => exact absurd rfl hfault
      | _ => simp [hempty, hcolon, hcut, hnone]

/-- A port that has its place changes none of the hosts that an address names. -/
theorem names_applyToAddr_iff (hhost : IsBare host) (h : IsLegible address) :
    Names host (p.applyToAddr address) ↔ Names host address := by
  have hnone : IsEnding [] := .inl rfl
  cases h with
  | portless hcolon =>
    have happly := applyToAddr_of_missingPort (p := p) (cut_eq_missingPort_iff.mpr (.inl hcolon))
    rw [names_append_iff hhost hcolon p.isEnding_addr (by rw [happly, String.toList_append]),
      names_append_iff hhost hcolon hnone (List.append_nil _).symm]
  | @port bracketed front digits htext hsplit =>
    have hcut : cut address.toList = .ok (front, digits) := cut_eq_ok_iff.mpr ⟨_, htext, hsplit⟩
    have hending : IsEnding (':' :: digits) := .inr ⟨digits, hsplit.portColon, rfl⟩
    rw [names_frame_iff hhost hsplit.noOpen hsplit.noClose (by simp) p.isEnding_addr
        (applyToAddr_of_cut hcut),
      names_frame_iff hhost hsplit.noOpen hsplit.noClose hsplit.colonFree hending htext]
  | @trailing front rest htext hclose hrest =>
    have hcut : cut address.toList = .error .missingPort :=
      cut_eq_missingPort_iff.mpr (.inr ⟨front, rest, htext, hclose, hrest⟩)
    have happly : (p.applyToAddr address).toList =
        '[' :: (front ++ ']' :: (rest ++ p.addr.toList)) := by
      simp [applyToAddr_of_missingPort hcut, htext]
    -- behind the bracket an ending stands already, or nothing, or neither before nor after
    have hends : IsEnding (rest ++ p.addr.toList) ↔ IsEnding rest := by
      cases rest with
      | nil => simp [hnone, p.isEnding_addr]
      | cons c rest =>
        have hc : c ≠ ':' := by simpa using hrest
        have hno (more : List Char) : ¬ IsEnding (c :: more) := fun hmore => hmore.head?_ne hc rfl
        simp [hno]
    rw [names_bracketed_iff hhost hclose happly, names_bracketed_iff hhost hclose htext, hends]

end Port

namespace Address

/-! ## Every interface -/

/-- An address that names a host, and not every interface. -/
structure IsRestricted (address : String) : Prop where
  named : ¬ Names "" address
  single : ¬ Names "0.0.0.0" address

/-- The empty host is bare. -/
theorem isBare_none : IsBare "" := ⟨by decide, by decide, by decide⟩

/-- The host that stands for every address is bare. -/
theorem isBare_every : IsBare "0.0.0.0" := ⟨by decide, by decide, by decide⟩

variable {address : String} {port : Port}

/-- The address of a port names the empty host. -/
theorem names_none_addr (port : Port) : Names "" port.addr :=
  ⟨false, port.addr.toList, port.isEnding_addr, by simp [frame]⟩

/-- A legible address that keeps to a host of its own does so when a port is applied. -/
theorem IsRestricted.applyToAddr (h : IsRestricted address) (hlegible : IsLegible address) :
    IsRestricted (port.applyToAddr address) where
  named := fun hnames => h.named ((Port.names_applyToAddr_iff isBare_none hlegible).mp hnames)
  single := fun hnames => h.single ((Port.names_applyToAddr_iff isBare_every hlegible).mp hnames)

/-- A port that is applied keeps a host named exactly where it has its place. -/
theorem not_names_none_applyToAddr_iff (h : ¬ Names "" address) :
    ¬ Names "" (port.applyToAddr address) ↔ IsLegible address := by
  constructor
  · intro hnamed
    by_contra hlegible
    rw [Port.applyToAddr_of_not_isLegible hlegible] at hnamed
    exact hnamed (names_none_addr port)
  · intro hlegible
    rwa [Port.names_applyToAddr_iff isBare_none hlegible]

/-- The host that stands for every address is named by what it is joined to. -/
theorem names_every_joinHostPort (port : Port) : Names "0.0.0.0" (joinHostPort "0.0.0.0" port) := by
  have hending : IsEnding (':' :: port.text.toList) := by
    by_cases hset : port.isUnset = true
    · exact .inr ⟨[], by simp, by simp [Port.text, hset]⟩
    · exact .inr ⟨_, (isBare_text (by simpa using hset)).noColon, rfl⟩
  have hno : hasColon "0.0.0.0" = false := by decide
  refine ⟨false, _, hending, ?_⟩
  rw [toList_joinHostPort, hno]

/-- A port alone, or nothing at all, is listened on at every interface. -/
theorem listenOn_addr (port : Port) (tls : Bool) : Names "0.0.0.0" (listenOn port.addr tls) := by
  by_cases hset : port.isUnset = true
  · have haddr : port.addr = "" := by simp [Port.addr, hset]
    rw [haddr]
    exact names_every_joinHostPort (defaultPort tls)
  · have hset' : port.isUnset = false := by simpa using hset
    have haddr : port.addr = "" ++ ":" ++ port.text := by
      simp [Port.addr, Port.text, hset']
    have hsplit : splitHostPort port.addr = .ok ("", port) := by
      rw [haddr]
      exact splitHostPort_eq_ok_iff.mpr
        (.plain isBare_none (isBare_text hset') (Port.parse_text hset'))
    have hne : port.addr.isEmpty = false := by simp [haddr]
    have hlisten : listenOn port.addr tls = joinHostPort "0.0.0.0" port := by
      simp [listenOn, hne, hsplit]
    rw [hlisten]
    exact names_every_joinHostPort port

/-- A host that is named by a joined address was named by the address it was joined from. -/
theorem names_joinHostPort {host : String} (hhost : IsBare host) (hset : port.isUnset = false)
    (h : Names host (joinHostPort address port)) : Names host address := by
  have htext := toList_joinHostPort address port
  -- with a colon in the address the joined text has two, and names no bare host
  by_cases hcolon : ':' ∈ address.toList
  · have hhas : hasColon address = true := by simp [hasColon, hcolon]
    have hcount := count_colon_le hhost h
    have hone := List.count_pos_iff.mpr hcolon
    rw [htext, hhas] at hcount
    simp only [frame, if_true, List.count_append, List.count_cons_self, List.cons_append,
      List.count_cons_of_ne (by decide : '[' ≠ ':')] at hcount
    omega
  · have hhas : hasColon address = false := by simp [hasColon, hcolon]
    have hending : IsEnding (':' :: port.text.toList) := .inr ⟨_, (isBare_text hset).noColon, rfl⟩
    rw [hhas] at htext
    rw [names_append_iff hhost hcolon (.inl rfl) (List.append_nil _).symm]
    exact (names_append_iff hhost hcolon hending htext).mp h

/-- A restricted address is not resolved to every interface. -/
theorem IsRestricted.not_names_listenOn (h : IsRestricted address) (tls : Bool) :
    ¬ Names "0.0.0.0" (listenOn address tls) := by
  have hjoin : ¬ Names "0.0.0.0" (joinHostPort address (defaultPort tls)) := fun hnames =>
    h.single (names_joinHostPort isBare_every (Configured.isUnset_defaultPort tls) hnames)
  have hempty : address.isEmpty = false := by
    by_contra hno
    have hnil : address = "" := by simpa using hno
    exact h.named ⟨false, [], .inl rfl, by simp [frame, hnil]⟩
  unfold listenOn
  rw [hempty, if_neg Bool.false_ne_true]
  cases hsplit : splitHostPort address with
  | error e =>
    simp only
    split_ifs
    · exact hjoin
    · exact h.single
  | ok parts =>
    obtain ⟨host, port⟩ := parts
    -- an address that is split without a host would name none
    have hhost : host.isEmpty = false := by
      by_contra hno
      have hnil : host = "" := by simpa using hno
      obtain ⟨bracketed, digits, htext, hparts, -⟩ :=
        isAddress_iff.mp (splitHostPort_eq_ok_iff.mp hsplit)
      rw [hnil] at htext
      exact h.named ⟨bracketed, _, .inr ⟨digits, hparts.portColon, rfl⟩, htext⟩
    simp [hhost, h.single]

/-! ## A row of ports -/

/-- The address after ports were applied to it one after the other. -/
def applyPorts (address : String) (ports : List Port) : String :=
  ports.foldl (fun address port => port.applyToAddr address) address

/-- Every port has its place in the address that it is applied to. -/
def IsLegibleFor : String → List Port → Prop
  | _, [] => True
  | address, port :: ports => IsLegible address ∧ IsLegibleFor (port.applyToAddr address) ports

/-- The last port is applied to what the earlier ones have left. -/
theorem applyPorts_concat (address : String) (ports : List Port) (port : Port) :
    applyPorts address (ports ++ [port]) = port.applyToAddr (applyPorts address ports) := by
  simp only [applyPorts, List.foldl_append, List.foldl_cons, List.foldl_nil]

/-- A port that is applied to the address of a port replaces it. -/
theorem applyToAddr_addr (port previous : Port) : port.applyToAddr previous.addr = port.addr := by
  by_cases hset : previous.isUnset = true
  · have haddr : previous.addr = "" := by simp [Port.addr, hset]
    rw [haddr]
    rfl
  · have hbare := isBare_text (by simpa using hset : previous.isUnset = false)
    have haddr : previous.addr.toList = frame false [] ++ ':' :: previous.text.toList := by
      simp [Port.addr, Port.text, hset, frame]
    have hsplit : IsSplit false [] previous.text.toList :=
      ⟨by simp, by simp, by simp, hbare.noColon, hbare.noOpen, hbare.noClose⟩
    have hcut : cut previous.addr.toList = .ok ([], previous.text.toList) := by
      rw [haddr, hsplit.cut_eq]
    apply String.toList_inj.mp
    simpa [frame] using Port.applyToAddr_of_cut (p := port) hcut

/-- Ports that are applied to the address of a port leave the address of a port. -/
theorem exists_applyPorts_addr (previous : Port) (ports : List Port) :
    ∃ port : Port, applyPorts previous.addr ports = port.addr := by
  induction ports generalizing previous with
  | nil => exact ⟨previous, rfl⟩
  | cons port ports ih =>
    obtain ⟨last, hlast⟩ := ih port
    refine ⟨last, ?_⟩
    rw [← hlast, applyPorts, List.foldl_cons, applyToAddr_addr]
    rfl

/-- An address that keeps to a host of its own and stays legible does so after any number of ports.
-/
theorem IsRestricted.applyPorts {ports : List Port} (h : IsRestricted address)
    (hlegible : IsLegibleFor address ports) : IsRestricted (applyPorts address ports) := by
  induction ports generalizing address with
  | nil => exact h
  | cons port ports ih => exact ih (h.applyToAddr hlegible.1) hlegible.2

/-- Once a port is applied where it has no place, nothing but a port is left. -/
theorem exists_applyPorts_eq {ports : List Port} (h : ¬ IsLegibleFor address ports) :
    ∃ port : Port, Address.applyPorts address ports = port.addr := by
  induction ports generalizing address with
  | nil => exact absurd trivial h
  | cons port ports ih =>
    by_cases hlegible : IsLegible address
    · exact ih fun hrest => h ⟨hlegible, hrest⟩
    -- from here on a port alone is replaced by the next
    · obtain ⟨last, hlast⟩ := exists_applyPorts_addr port ports
      refine ⟨last, ?_⟩
      rw [← hlast, Address.applyPorts, List.foldl_cons, Port.applyToAddr_of_not_isLegible hlegible]
      rfl

/-- A restricted address to which ports are applied is listened on at every interface exactly if one of
them has no place. -/
theorem not_names_listenOn_applyPorts_iff {ports : List Port} (h : IsRestricted address)
    (tls : Bool) :
    ¬ Names "0.0.0.0" (listenOn (Address.applyPorts address ports) tls) ↔
      IsLegibleFor address ports := by
  constructor
  · intro hnames
    by_contra hlegible
    obtain ⟨port, hport⟩ := exists_applyPorts_eq hlegible
    rw [hport] at hnames
    exact hnames (listenOn_addr port tls)
  · intro hlegible
    exact (h.applyPorts hlegible).not_names_listenOn tls

/-! ## Addresses and ports among the options -/

section Settings

variable {vault : Vault} {s : Settings} {addressed : String × List Port}

/-- An address, and the ports that are applied to it, after one more option. An option of somebody else
sets an address if it leaves another one than it finds. -/
def noteOption (vault : Vault) (s : Settings) (addressed : String × List Port) :
    ServerOption → String × List Port
  | .address address => (address, [])
  | .port port => (addressed.1, addressed.2 ++ [port])
  | .custom change =>
    if (change vault s).1.address = s.address then addressed else ((change vault s).1.address, [])
  | _ => addressed

/-- An address, and the ports that are applied to it, after options none of which is a group. -/
def noteOptions (vault : Vault) :
    Settings → String × List Port → List ServerOption → String × List Port
  | _, addressed, [] => addressed
  | s, addressed, option :: rest =>
    noteOptions vault (s.applyLeaf vault option).1 (noteOption vault s addressed option) rest

/-- The address that options set last, or else the one before them, with the ports that are applied
to it. -/
def addressedBy (vault : Vault) (s : Settings) (options : List ServerOption) :
    String × List Port :=
  noteOptions vault s (s.address, []) (leavesOf options)

/-- One option leaves the address that was noted, with the ports that were noted applied to it. -/
theorem address_applyLeaf (h : s.address = applyPorts addressed.1 addressed.2)
    (option : ServerOption) :
    (s.applyLeaf vault option).1.address =
      applyPorts (noteOption vault s addressed option).1
        (noteOption vault s addressed option).2 := by
  cases option with
  | address address => rfl
  | port port =>
    simp only [noteOption, applyPorts_concat]
    rw [← h]
    rfl
  | tlsFiles f =>
    simp only [Settings.applyLeaf]
    split_ifs <;> exact h
  | tlsChanges profile changes =>
    simp only [Settings.applyLeaf]
    split <;> exact h
  | custom change =>
    simp only [Settings.applyLeaf, noteOption]
    split_ifs with hsame
    · rw [hsame, h]
    · rfl
  | _ => exact h

/-- Options that are no groups leave the address and the ports that were noted on the way. -/
theorem address_afterLeaves (h : s.address = applyPorts addressed.1 addressed.2)
    (options : List ServerOption) :
    (s.afterLeaves vault options).address =
      applyPorts (noteOptions vault s addressed options).1
        (noteOptions vault s addressed options).2 := by
  induction options generalizing s addressed with
  | nil => exact h
  | cons option rest ih => exact ih (address_applyLeaf h option)

/-- The address that options leave has the ports after it applied to it, and is what it was without
them. -/
theorem address_apply (s : Settings) (vault : Vault) (options : List ServerOption) :
    (s.apply vault options).1.address =
      applyPorts (addressedBy vault s options).1 (addressedBy vault s options).2 := by
  have happly : (s.apply vault options).1 = s.afterLeaves vault (leavesOf options) :=
    Settings.applyEach_eq_afterLeaves vault s options
  rw [happly]
  exact address_afterLeaves rfl (leavesOf options)

end Settings

/-- A port keeps an address to a host exactly where it has its place, and options leave an address
that is restricted to one host off the other interfaces exactly if that is so for every port among
them. -/
theorem keepsHost_iff (port : Port) (address : String) (vault : Vault) (s : Settings)
    (options : List ServerOption) (tls : Bool) :
    (¬ Names "" address → (¬ Names "" (port.applyToAddr address) ↔ IsLegible address)) ∧
      (IsRestricted (addressedBy vault s options).1 →
        (¬ Names "0.0.0.0" (listenOn (s.apply vault options).1.address tls) ↔
          IsLegibleFor (addressedBy vault s options).1 (addressedBy vault s options).2)) := by
  constructor
  · intro hnamed
    exact not_names_none_applyToAddr_iff hnamed
  · intro hrestricted
    rw [address_apply]
    exact not_names_listenOn_applyPorts_iff hrestricted tls

/-- The loopback address in brackets, with a port, keeps to a host. -/
theorem isRestricted_bracketed : IsRestricted "[::1]:80" := by
  have hending : IsEnding ":80".toList := .inr ⟨"80".toList, by decide, by decide⟩
  have htext : "[::1]:80".toList = frame true "::1".toList ++ ":80".toList := by decide
  have hnames {host : String} (hhost : IsBare host) (hne : host.toList ≠ "::1".toList) :
      ¬ Names host "[::1]:80" := by
    rw [names_frame_iff hhost (by decide) (by decide) (by simp) hending htext]
    exact hne
  exact ⟨hnames isBare_none (by decide), hnames isBare_every (by decide)⟩

/-- The loopback address without brackets keeps to a host. -/
theorem isRestricted_bare : IsRestricted "::1" := by
  have hcount : ¬ "::1".toList.count ':' ≤ 1 := by decide
  exact ⟨fun h => hcount (count_colon_le isBare_none h),
    fun h => hcount (count_colon_le isBare_every h)⟩

/-- The loopback host in brackets stays the host when a port is set. -/
theorem keepsHost_loopback :
    ¬ Names "" "[::1]:80" ∧ ¬ Names "" ((⟨8080⟩ : Port).applyToAddr "[::1]:80") ∧
      IsRestricted (addressedBy {} {} [.address "[::1]:80", .port ⟨8080⟩]).1 ∧
      ¬ Names "0.0.0.0"
        (listenOn (({} : Settings).apply {} [.address "[::1]:80", .port ⟨8080⟩]).1.address
          false) := by
  have htext : "[::1]:80".toList = frame true "::1".toList ++ ':' :: "80".toList := by decide
  have hsplit : IsSplit true "::1".toList "80".toList :=
    ⟨by decide, by decide, by simp, by decide, by decide, by decide⟩
  have hlegible : IsLegible "[::1]:80" := .port htext hsplit
  have hoptions : addressedBy {} {} [.address "[::1]:80", .port ⟨8080⟩] = ("[::1]:80", [⟨8080⟩]) := rfl
  obtain ⟨hport, hserver⟩ :=
    keepsHost_iff ⟨8080⟩ "[::1]:80" {} {} [.address "[::1]:80", .port ⟨8080⟩] false
  refine ⟨isRestricted_bracketed.named, ?_, isRestricted_bracketed, ?_⟩
  · exact (hport isRestricted_bracketed.named).mpr hlegible
  · apply (hserver isRestricted_bracketed).mpr
    rw [hoptions]
    exact ⟨hlegible, trivial⟩

/-- Without the brackets it is dropped, and the server listens on every interface. -/
theorem bareLoopback_dropped :
    IsRestricted "::1" ∧ (⟨8080⟩ : Port).applyToAddr "::1" = ":8080" ∧
      Names "" ((⟨8080⟩ : Port).applyToAddr "::1") ∧
      listenOn (({} : Settings).apply {} [.address "::1", .port ⟨8080⟩]).1.address false =
        "0.0.0.0:8080" := by
  have hdropped : (⟨8080⟩ : Port).applyToAddr "::1" = ":8080" := by decide +kernel
  have haddr : ":8080" = (⟨8080⟩ : Port).addr := by decide +kernel
  refine ⟨isRestricted_bare, hdropped, ?_, by decide +kernel⟩
  rw [hdropped, haddr]
  exact names_none_addr ⟨8080⟩

end Address

end WebHost
