import WebHost.Net.Port

/-!
# Host and port addresses

An address is `host:port` or `[host]:port`; brackets keep the colons of a host apart from the one
before the port. This file takes addresses apart, puts them together, applies a port to an address
and resolves the address a server listens on.
-/

set_option autoImplicit false

namespace WebHost.Address

/-- Takes an address apart without reading its port. -/
def cut (address : List Char) : Except AddressFault (List Char × List Char) :=
  match Text.cutLast ':' address with
  | none => .error .missingPort
  | some (beforeLast, afterLast) =>
    match address with
    | '[' :: inner =>
      match Text.cutFirst ']' inner with
      | none => .error .missingCloseBracket
      | some (host, rest) =>
        match rest with
        | [] => .error .missingPort
        | c :: port =>
          if c ≠ ':' then .error .missingPort
          else if ':' ∈ port then .error .tooManyColons
          else if '[' ∈ host ∨ '[' ∈ port then .error .unexpectedOpenBracket
          else if ']' ∈ port then .error .unexpectedCloseBracket
          else .ok (host, port)
    | _ =>
      if ':' ∈ beforeLast then .error .tooManyColons
      else if '[' ∈ address then .error .unexpectedOpenBracket
      else if ']' ∈ address then .error .unexpectedCloseBracket
      else .ok (beforeLast, afterLast)

/-- Splits an address into its host and its port. -/
def splitHostPort (s : String) : Except PortError (String × Port) :=
  match cut s.toList with
  | .error fault => .error ⟨fault, s, none⟩
  | .ok (host, port) =>
    match Port.parse (String.ofList port) with
    | .error e => .error e
    | .ok p => .ok (String.ofList host, p)

/-- Whether a text contains a colon. -/
def hasColon (s : String) : Bool := ':' ∈ s.toList

/-- Puts a host and a port text together; a host with colons goes into brackets. -/
def joinText (host port : String) : String :=
  if hasColon host then "[" ++ host ++ "]:" ++ port else host ++ ":" ++ port

/-- Puts a host and a port together. -/
def joinHostPort (host : String) (port : Port) : String := joinText host port.text

end WebHost.Address

namespace WebHost.Port

/-- Applies a port to an address. The empty address becomes the port alone, a bare host gets the
port appended, and a port already there is replaced while the host stays. -/
def applyToAddr (p : Port) (addr : String) : String :=
  if addr.isEmpty then p.addr
  else if !Address.hasColon addr then addr ++ p.addr
  else
    let host := match Address.cut addr.toList with
      | .ok (host, _) => String.ofList host
      | .error .missingPort => addr
      | .error _ => ""
    if host.toList.head? = some '[' ∨ !Address.hasColon host then host ++ p.addr
    else "[" ++ host ++ "]" ++ p.addr

end WebHost.Port

namespace WebHost.Address

/-- The port that a scheme listens on when none is named. -/
def defaultPort (tls : Bool) : Port := ⟨if tls then 443 else 80⟩

/-- The address a server listens on. A missing host means every interface, a missing port the
port of the scheme. -/
def listenOn (addr : String) (tls : Bool) : String :=
  if addr.isEmpty then joinHostPort "0.0.0.0" (defaultPort tls)
  else
    match splitHostPort addr with
    | .ok (host, port) => if host.isEmpty then joinHostPort "0.0.0.0" port else addr
    | .error e => if e.fault = .missingPort then joinHostPort addr (defaultPort tls) else addr

end WebHost.Address
