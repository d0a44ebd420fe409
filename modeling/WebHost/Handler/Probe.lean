import WebHost.Handler.Chain

/-!
# Probes

Handlers and middleware that show what reaches them. They serve to look into a chain: an echo
writes down everything it can see of a request, and a tag leaves its name on the way in and on the
way out.
-/

set_option autoImplicit false

namespace WebHost.Probe

/-- A truth value as a word. -/
def word (b : Bool) : String := if b then "true" else "false"

/-- Parameters in one text; a dash where there are none to speak of. -/
def paramsText : Option PathParams → String
  | none => "-"
  | some params => Text.joinWith ";" (params.map fun (k, v) => k ++ "=" ++ v)

/-- The parameter that a request asks for in its `x-get` field. -/
def asked (request : Request) : String :=
  match request.headers.text? "x-get" with
  | none => ""
  | some name => " get=" ++ ((request.params.bind (·.get? name)).getD "<none>")

/-- Answers with everything that can be seen of a request, under a label. -/
def echo (label : String) : Handler := fun request => do
  let handler ← request.handlerName
  let server ← request.serverName
  let ignore ← request.readNotes (·.ignore)
  let secure ← request.readNotes (·.secure)
  return Response.text 200 (label ++ " " ++ request.method ++ " " ++ request.uri.text ++
    " params=" ++ paramsText request.params ++ " handler=" ++ handler ++ " server=" ++ server ++
    " ignore=" ++ word ignore ++ " secure=" ++ word secure ++ " body=" ++
    Utf8.decodeLossy request.body ++ asked request)

/-- Leaves its name on requests and responses; with `showNext` also what comes after it. -/
def tag (name : String) (showNext : Bool) : Middleware where
  name := name
  around next request := do
    let headers := request.headers.append "x-in" (Utf8.encode name)
    let seen := Text.joinWith "," ((headers.values "x-in").map Utf8.decodeLossy)
    let response ← next.run { request with headers }
    let h := (response.headers.append "x-out" (Utf8.encode name)).append "x-seen" (Utf8.encode seen)
    let h := if showNext then h.append "x-next" (Utf8.encode next.report) else h
    return { response with headers := h }

/-- Answers every request with a status, without the handler. -/
def deny (status : Nat) : Middleware where
  name := "deny"
  around _ _ := pure (Response.empty status)

end WebHost.Probe
