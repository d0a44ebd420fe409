import WebHost.Number.Numeral
import WebHost.Text.Cut

/-!
# Log filters

A filter is a list of directives between commas. A directive names a level, or a target with the
level that is let through for it, or spans with a level for what happens inside them. The text of a
directive is judged without the blanks around it, but its parts are cut out of the text with the
blanks at the same distances from the start; so a level between blanks is no level but a target.
-/

set_option autoImplicit false

namespace WebHost

/-- How much of the log is let through. -/
inductive LogLevel where
  | off
  | error
  | warn
  | info
  | debug
  | trace
  deriving DecidableEq, Repr

namespace LogLevel

/-- The levels from the least to the most talkative. -/
def all : List LogLevel := [.off, .error, .warn, .info, .debug, .trace]

/-- The name of a level. -/
def text : LogLevel → String
  | .off => "off"
  | .error => "error"
  | .warn => "warn"
  | .info => "info"
  | .debug => "debug"
  | .trace => "trace"

/-- How talkative a level is. -/
def rank : LogLevel → Nat
  | .off => 0
  | .error => 1
  | .warn => 2
  | .info => 3
  | .debug => 4
  | .trace => 5

/-- The more talkative of two levels. -/
def max (a b : LogLevel) : LogLevel := if a.rank < b.rank then b else a

/-- The level that a text means: a number from zero to five or a name in any case. -/
def ofText? (text : List Char) : Option LogLevel :=
  match Numeral.readNatural (Nat.pow 2 64 - 1) text with
  | .ok n => all[n]?
  | .error _ =>
    if text.isEmpty then some .error
    else all.find? fun level => Text.sameIgnoringCase (String.ofList text) level.text

end LogLevel

/-- One directive of a filter. -/
structure LogDirective where
  level : LogLevel
  target : Option String := none
  span : Option String := none
  /-- The fields that a span must have, each with the value it must have, if any. -/
  fields : List (String × Option String) := []
  deriving DecidableEq, Repr

namespace LogDirective

/-- Whether a directive may begin with a character. Beyond ASCII every character may. -/
def mayBegin (c : Char) : Bool := c.isAlphanum || c = '-' || c = ':' || c = '_' || 128 ≤ c.toNat

/-- The level after an equals sign; without a text everything is let through. -/
def levelAfter (text : List Char) : Option LogLevel :=
  if text.isEmpty then some .trace else LogLevel.ofText? text

/-- A field of a span with its value. -/
def fieldOf (text : List Char) : String × Option String :=
  match Text.split '=' text with
  | name :: value :: _ => (String.ofList name, some (String.ofList value))
  | _ => (String.ofList text, none)

/-- A piece of a text by its distance from the start and its length. -/
def slice (text : List Char) (start length : Nat) : List Char := (text.drop start).take length

/-- What follows the spans of a directive: nothing, or a level. The number is the distance from the
start of the directive to `rest`. -/
def afterSpans (whole : List Char) (at_ : Nat) (d : LogDirective) : List Char → Option LogDirective
  | [] => some d
  | '=' :: _ => (levelAfter (whole.drop (at_ + 1))).map fun level => { d with level }
  | _ => none

/-- The spans of a directive, which stand between brackets with fields between braces. -/
def spans (whole : List Char) (at_ : Nat) (d : LogDirective) (text : List Char) :
    Option LogDirective :=
  let name := text.takeWhile fun c => c ≠ ']' && c ≠ '\x7b'
  let found := String.ofList (slice whole at_ name.length)
  match text.drop name.length with
  | ']' :: rest => afterSpans whole (at_ + name.length + 1) { d with span := some found } rest
  | _ :: more =>
    let field := more.takeWhile (· ≠ '\x7d')
    let place := at_ + name.length + 1
    let d :=
      { d with
        span := if found.isEmpty then none else some found
        fields := [fieldOf (slice whole place field.length)] }
    match more.drop field.length with
    | _ :: ']' :: rest =>
      if field.isEmpty then none else afterSpans whole (place + field.length + 2) d rest
    | _ => none
  | [] => none

/-- The directive that a text means. -/
def parse? (whole : List Char) : Option LogDirective :=
  match Text.trim whole with
  | [] => none
  | '[' :: rest => spans whole 1 { level := .trace } rest
  | c :: rest =>
    if !mayBegin c then none
    else
      let word := (c :: rest).takeWhile fun c => c ≠ '=' && c ≠ '['
      let target := String.ofList (whole.take word.length)
      match (c :: rest).drop word.length with
      | [] =>
        match LogLevel.ofText? whole with
        | some level => some { level }
        | none => some { level := .trace, target := some (String.ofList whole) }
      | '=' :: _ =>
        (levelAfter (whole.drop (word.length + 1))).map fun level => { level, target := some target }
      | _ :: more => spans whole (word.length + 1) { level := .trace, target := some target } more

end LogDirective

/-- A filter of the log. -/
abbrev LogFilter := List LogDirective

namespace LogFilter

/-- The filter that a text means. Empty directives are skipped. -/
def parse? (text : String) : Option LogFilter :=
  ((Text.split ',' text.toList).filter (!·.isEmpty)).mapM LogDirective.parse?

/-- The level from which a target is let through: that of the directive with the longest matching
target, of equal ones the last. Directives on spans do not count outside of them, and without any
directive only errors pass. -/
def levelFor (filter : LogFilter) (target : String) : LogLevel :=
  let matching := filter.filter fun d =>
    d.span.isNone && d.fields.isEmpty && (d.target.all fun t => t.toList.isPrefixOf target.toList)
  let best := matching.foldl (fun (best : Option LogDirective) d =>
    match best with
    | none => some d
    | some b => if rank d < rank b then some b else some d) none
  if filter.isEmpty then .error else (best.map (·.level)).getD .off
where
  /-- How closely a directive is aimed. -/
  rank (d : LogDirective) : Nat := (d.target.map (·.length + 1)).getD 0

/-- The most talkative level that a filter may let through. A directive on the values of fields lets
everything through until the values are known. -/
def maxLevel (filter : LogFilter) : LogLevel :=
  if filter.any fun d => d.fields.any (·.2.isSome) then .trace
  else filter.foldl (fun level d => level.max d.level) .off

end LogFilter

end WebHost
