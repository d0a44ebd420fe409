import WebHost.Net.Port
import WebHost.Route.Mux
import WebHost.Server.State
import WebHost.Tls.Material

/-!
# Errors of a server

Several failures at once are one error that lists them: no failure is no error, and a single failure
stands for itself.
-/

set_option autoImplicit false

namespace WebHost

/-- Why an operation of a server failed. -/
inductive ServerError where
  | invalidState (refusal : Refusal) (state : ServerState)
  /-- More than one option failed. -/
  | options (errors : List ServerError)
  | bind (address reason : String)
  | accept (reason : String)
  | tls (error : TlsError)
  | port (error : PortError)
  | route (error : RouteError)
  /-- The server was stopped; not a failure. -/
  | closed
  | deadlineExceeded

namespace ServerError

/-- Whether an error is the regular end of a run. -/
def isClosed : ServerError → Bool
  | .closed => true
  | _ => false

mutual

/-- The wording of an error, if all of it is worded here. -/
def message? : ServerError → Option String
  | .invalidState refusal state => some (refusal.message state)
  | .options errors => (messages errors).map fun ms => Text.joinWith "; " ms
  | .bind address reason =>
    some ("unable to listen on " ++ tick ++ address ++ tick ++ ": " ++ reason)
  | .accept reason => some ("accept failed: " ++ reason)
  | .tls error => error.message?
  | .port error => some error.message
  | .route error => some error.message
  | .closed => some "server closed"
  | .deadlineExceeded => some "shutdown deadline exceeded"
where
  /-- The quote around an address. -/
  tick : String := String.singleton (Char.ofNat 0x60)

/-- The wordings of errors. -/
def messages : List ServerError → Option (List String)
  | [] => some []
  | e :: rest => (message? e).bind fun m => (messages rest).map (m :: ·)

end

/-- One error for some failures. -/
def collapse : List ServerError → Option ServerError
  | [] => none
  | [e] => some e
  | es => some (.options es)

/-- The numbers of the failures after which a listener may well accept again: the peer was gone, the
wait was interrupted, or there are too many open files. -/
def transientCodes : List Nat := [4, 11, 23, 24, 103, 104, 110, 111]

/-- What a system says when a process may open no more files. -/
def tooManyFiles : String := "Too many open files (os error 24)"

/-- What a system says of a listener that is shut down. -/
def invalidArgument : String := "Invalid argument (os error 22)"

end ServerError

end WebHost
