import WebHost.Server.Rehearsal
import WebHost.View.Error
import WebHost.View.Event

/-!
# Rehearsals as documents

The outcome of each operation of a rehearsal is a document, beside the state and the name of the
server after it. A log without repetitions shows what the server told.
-/

set_option autoImplicit false

namespace WebHost

/-- A result that may be an error as a document. -/
def ServerError.resultToJson (tls : TlsError → Json) : Option ServerError → Json
  | none => .obj [("ok", .bool true)]
  | some e => e.toJson tls

/-- What an operation came to as a document. -/
def Outcome.toJson (tls : TlsError → Json) : Outcome → Json
  | .done => .obj [("ok", .bool true)]
  | .started => .obj [("started", .bool true)]
  | .running => .obj [("running", .bool true)]
  | .nothing => .obj [("none", .bool true)]
  | .unanswered => .error "NoResponse" []
  | .notStarted => .error "NotStarted" []
  | .held isHeld => .obj [("blocked", .bool isHeld)]
  | .unknown => .obj [("unknown", .bool true)]
  | .connected => .obj [("connected", .bool true)]
  | .broken isBroken => .obj [("broken", .bool isBroken)]
  | .ended error => ServerError.resultToJson tls error
  | .shutDown first none => .obj [("first", ServerError.resultToJson tls first), ("second", .null)]
  | .shutDown first (some second) =>
    .obj [("first", ServerError.resultToJson tls first), ("second", second.toJson tls)]
  | .report text => .obj [("name_in_debug", .str text)]

/-- The items of a list without those that repeat the one before. -/
def withoutRepeats {α : Type} [DecidableEq α] : List α → List α
  | [] => []
  | a :: rest => a :: go a rest
where
  /-- The items after one that was kept. -/
  go (last : α) : List α → List α
    | [] => []
    | a :: rest => if a = last then go a rest else a :: go a rest

/-- Plays operations. The outcome of each is shown with the state and the name after it. -/
def Rehearsal.playAll (tls : TlsError → Json) (r : Rehearsal) : List Act → Rehearsal × List Json
  | [] => (r, [])
  | act :: rest =>
    let (r, outcome) := r.play act
    let entry : Json :=
      .obj [("result", outcome.toJson tls), ("state", .str r.server.state.text),
        ("name", .str r.server.settings.name)]
    let (r, entries) := r.playAll tls rest
    (r, entry :: entries)

/-- A whole rehearsal as a document: the outcomes, the last state, and what the server told. -/
def Rehearsal.toJson (tls : TlsError → Json) (r : Rehearsal) (acts : List Act) : Json :=
  let (r, entries) := r.playAll tls acts
  let r := r.finish
  let events := r.server.events
  let shown := events.filter (·.toJson?.isSome)
  .obj [("steps", .arr entries), ("end", .str r.server.state.text), ("conns", .arr []),
    ("log", Event.allToJson (withoutRepeats shown)),
    ("trace", Event.tracesToJson events)]

end WebHost
