import WebHost.Handler.Event

/-!
# The ledger

The ledger is what requests in flight share: the notes attached to each of them, the number of
requests inside each access log and collector, the clock, and the events so far. A request holds
its notes by a handle, so whoever keeps the handle sees what others write there.
-/

set_option autoImplicit false

namespace WebHost

/-- What is known about a request beside its own text: where it came from, and what the server, the
route and the handlers noted on it. -/
structure Notes where
  remote : Option SocketAddress := none
  secure : Bool := false
  serverName : Option String := none
  handlerName : Option String := none
  ignore : Bool := false
  deriving DecidableEq, Repr, Inhabited

/-- The shared state of all requests in flight. -/
structure Ledger where
  notes : List Notes := []
  inFlight : List Nat := []
  clock : ZonedTime := {}
  events : List Event := []
  deriving Inhabited

namespace Ledger

/-- The notes behind a handle; blank notes for a handle that was never given out. -/
def notesAt (l : Ledger) (handle : Nat) : Notes := l.notes.getD handle {}

/-- Changes the notes behind a handle. -/
def updateNotes (l : Ledger) (handle : Nat) (change : Notes → Notes) : Ledger :=
  { l with notes := l.notes.modify handle change }

/-- Adds notes and gives out their handle. -/
def addNotes (l : Ledger) (n : Notes) : Nat × Ledger :=
  (l.notes.length, { l with notes := l.notes ++ [n] })

/-- Notes the name of the server; an empty name is no name. -/
def setServerName (l : Ledger) (handle : Nat) (name : String) : Ledger :=
  if name.isEmpty then l else l.updateNotes handle fun n => { n with serverName := some name }

/-- Notes the name of the route that handles the request; an empty name is no name. -/
def setHandlerName (l : Ledger) (handle : Nat) (name : String) : Ledger :=
  if name.isEmpty then l else l.updateNotes handle fun n => { n with handlerName := some name }

/-- Notes whether logs and metrics skip the request. -/
def setIgnore (l : Ledger) (handle : Nat) (ignore : Bool) : Ledger :=
  l.updateNotes handle fun n => { n with ignore }

/-- Gives out a new counter of requests in flight. -/
def addCounter (l : Ledger) : Nat × Ledger :=
  (l.inFlight.length, { l with inFlight := l.inFlight ++ [0] })

/-- The number of requests in flight on a counter. -/
def countAt (l : Ledger) (counter : Nat) : Nat := l.inFlight.getD counter 0

/-- Counts a request that enters. -/
def enter (l : Ledger) (counter : Nat) : Ledger :=
  { l with inFlight := l.inFlight.modify counter (· + 1) }

/-- Counts a request that leaves. -/
def leave (l : Ledger) (counter : Nat) : Ledger :=
  { l with inFlight := l.inFlight.modify counter (· - 1) }

/-- Writes events down in order. -/
def noteAll (l : Ledger) (es : List Event) : Ledger := { l with events := l.events ++ es }

/-- The events so far, and the ledger without them. -/
def takeEvents (l : Ledger) : List Event × Ledger := (l.events, { l with events := [] })

end Ledger

end WebHost
