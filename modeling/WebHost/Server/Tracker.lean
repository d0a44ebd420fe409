/-!
# Waiting for the last connection

Every open connection holds a token. Dropping a token takes two steps: the count goes down, and, if
that was the last token, everyone who waits is woken. Waiting takes steps of its own: register for
the wake-up, look at the count, and sleep if it is not zero. Between any two of these steps others
may act, so the steps are kept apart here and an account of waiting is an account of their orders.
-/

set_option autoImplicit false

namespace WebHost

/-- A latch: once set it stays set. -/
structure Latch where
  isSet : Bool := false
  deriving DecidableEq, Repr, Inhabited

/-- Sets a latch. -/
def Latch.set (_ : Latch) : Latch := ⟨true⟩

/-- What became of a token. -/
inductive Token where
  /-- It counts. -/
  | alive
  /-- It counts no longer; if it was the last one, the wake-up is still to come. -/
  | leaving (last : Bool)
  | gone
  deriving DecidableEq, Repr

/-- Where somebody who waits for the last token stands. -/
inductive Waiter where
  /-- About to register for the wake-up. -/
  | entering
  /-- Registered and about to look at the count. -/
  | looking (woken : Bool)
  /-- Asleep, having seen tokens. -/
  | asleep (woken : Bool)
  /-- Returned, having seen none. -/
  | returned
  /-- Gave up. -/
  | absent
  deriving DecidableEq, Repr

/-- Counts the tokens and knows who waits for the last one. -/
structure Tracker where
  active : Nat := 0
  tokens : List Token := []
  waiters : List Waiter := []
  deriving DecidableEq, Repr, Inhabited

namespace Waiter

/-- What a wake-up does to a waiter: it reaches whoever has registered. -/
def wake : Waiter → Waiter
  | looking _ => looking true
  | asleep _ => asleep true
  | w => w

/-- A waiter registers. -/
def register : Waiter → Waiter
  | entering => looking false
  | w => w

/-- A waiter looks at the count: it returns at zero and sleeps else. -/
def look (count : Nat) : Waiter → Waiter
  | looking woken => if count = 0 then returned else asleep woken
  | w => w

/-- A waiter that was woken begins again. -/
def rise : Waiter → Waiter
  | asleep true => entering
  | w => w

end Waiter

namespace Tracker

/-- One step of one of the many who use a tracker. -/
inductive Step where
  | acquire
  /-- The first step of dropping a token. -/
  | release (token : Nat)
  /-- The second step of dropping a token. -/
  | announce (token : Nat)
  | wait
  | register (waiter : Nat)
  | look (waiter : Nat)
  | rise (waiter : Nat)
  | giveUp (waiter : Nat)
  deriving DecidableEq, Repr

/-- Takes a token that counts until it is released. -/
def acquire (t : Tracker) : Tracker :=
  { t with active := t.active + 1, tokens := t.tokens ++ [.alive] }

/-- Takes a token out of the count. It is the last one if the count was one. -/
def release (t : Tracker) (token : Nat) : Tracker :=
  match t.tokens[token]? with
  | some .alive =>
    { t with active := t.active - 1, tokens := t.tokens.set token (.leaving (t.active = 1)) }
  | _ => t

/-- Ends the drop of a token; the last one wakes everyone who has registered. -/
def announce (t : Tracker) (token : Nat) : Tracker :=
  match t.tokens[token]? with
  | some (.leaving last) =>
    { t with
      tokens := t.tokens.set token .gone
      waiters := if last then t.waiters.map Waiter.wake else t.waiters }
  | _ => t

/-- What a step does; a step that is not possible does nothing. -/
def step (t : Tracker) : Step → Tracker
  | .acquire => t.acquire
  | .release token => t.release token
  | .announce token => t.announce token
  | .wait => { t with waiters := t.waiters ++ [.entering] }
  | .register w => { t with waiters := t.waiters.modify w Waiter.register }
  | .look w => { t with waiters := t.waiters.modify w (Waiter.look t.active) }
  | .rise w => { t with waiters := t.waiters.modify w Waiter.rise }
  | .giveUp w => { t with waiters := t.waiters.modify w fun _ => .absent }

/-- Steps one after the other. -/
def run (t : Tracker) (steps : List Step) : Tracker := steps.foldl step t

/-- Drops a token, both steps at once. -/
def drop (t : Tracker) (token : Nat) : Tracker := t.run [.release token, .announce token]

/-- Lets every waiter go on as far as it can: a waiter rises, registers and looks. -/
def pollAll (t : Tracker) : Tracker :=
  t.run ((List.range t.waiters.length).flatMap fun w => [.rise w, .register w, .look w])

/-- Whether a waiter has returned. -/
def hasReturned (t : Tracker) (waiter : Nat) : Bool := t.waiters[waiter]? = some .returned

end Tracker

end WebHost
