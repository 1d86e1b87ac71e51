/-!
A metronome calls a job again and again, on a thread of its own, until it is stopped.

The owner tells the thread to stop through a channel with room for one message: it sends a message,
lets go of the sending end, and then joins the thread. The thread waits on the channel. A message,
or the loss of the sending end, makes it end; only if there is neither can the time run out, and
then it calls the job. A job that raises an exception ends the thread.

All the threads there have ever been are kept in the order of their start. The owner holds the
number of the thread whose channel it can send to, and of the one that it can join.

`Metronome.move?` lists the steps of the owner and of the threads, which can happen in any order
that their conditions allow.
-/

set_option autoImplicit false

namespace Chip8Machine

/-- A job counts its calls in a counter, which it may share with others, and may raise an exception
as soon as the counter has a certain value. Its interval is in nanoseconds. -/
structure Job where
  counter : Nat
  raisesAt : Option Nat := none
  interval : Nat := 0
  deriving DecidableEq, Repr

inductive BeaterPhase where
  | waiting
  | calling
  | ended
  deriving DecidableEq, Repr

structure Beater where
  job : Job
  phase : BeaterPhase := .waiting
  message : Bool := false
  senderHeld : Bool := true
  calls : Nat := 0
  deriving DecidableEq, Repr

inductive Errand where
  | stop
  | start (job : Job)
  | drop
  deriving DecidableEq, Repr

inductive Owner where
  | free
  | sending (errand : Errand)
  | lettingGo (errand : Errand)
  | joining (errand : Errand)
  | departed
  deriving DecidableEq, Repr

structure Metronome where
  beaters : List Beater := []
  sender : Option Nat := none
  handle : Option Nat := none
  owner : Owner := .free
  deriving DecidableEq, Repr

namespace Beater

/-- The thread can be told to end: it waits, and there is a message or nobody can send one. -/
def hearsEnd (beater : Beater) : Bool :=
  beater.phase == .waiting && (beater.message || !beater.senderHeld)

/-- The time can run out: the thread waits, and nothing tells it to end. -/
def canBeat (beater : Beater) : Bool :=
  beater.phase == .waiting && !beater.message && beater.senderHeld

end Beater

namespace Metronome

/-- The nanoseconds from one beat to the next, however short the interval of the job is. -/
def shortestPeriod : Nat := 1000

def initial : Metronome := {}

def isAlive (metronome : Metronome) : Bool :=
  metronome.beaters.any fun beater => beater.phase != .ended

def count (metronome : Metronome) (counter : Nat) : Nat :=
  ((metronome.beaters.filter fun beater => beater.job.counter == counter).map Beater.calls).foldr
    (· + ·) 0

def modify (metronome : Metronome) (number : Nat) (change : Beater → Beater) : Metronome :=
  { metronome with beaters := metronome.beaters.modify number change }

/-- What the owner does about its errand once no thread is left to join. -/
def runErrand (metronome : Metronome) : Errand → Metronome
  | .stop => { metronome with owner := .free }
  | .drop => { metronome with owner := .departed }
  | .start job =>
      { metronome with
        beaters := metronome.beaters ++ [{ job := job }]
        sender := some metronome.beaters.length
        handle := some metronome.beaters.length
        owner := .free }

inductive Move where
  | setOut (errand : Errand)
  | send
  | letGo
  | join
  | shutDown (number : Nat)
  | beat (number : Nat)
  | finish (number : Nat) (raises : Bool)
  deriving DecidableEq, Repr

def move? (metronome : Metronome) : Move → Option Metronome
  | .setOut errand =>
      match metronome.owner with
      | .free => some { metronome with owner := .sending errand }
      | _ => none
  | .send =>
      match metronome.owner, metronome.sender with
      | .sending errand, some number =>
          some { metronome.modify number fun beater => { beater with message := true } with
            owner := .lettingGo errand }
      | .sending errand, none => some { metronome with owner := .joining errand }
      | _, _ => none
  | .letGo =>
      match metronome.owner, metronome.sender with
      | .lettingGo errand, some number =>
          some { metronome.modify number fun beater => { beater with senderHeld := false } with
            sender := none, owner := .joining errand }
      | _, _ => none
  | .join =>
      match metronome.owner, metronome.handle with
      | .joining errand, none => some (metronome.runErrand errand)
      | .joining errand, some number =>
          match metronome.beaters[number]? with
          | some { phase := .ended, .. } =>
              some ({ metronome with handle := none }.runErrand errand)
          | _ => none
      | _, _ => none
  | .shutDown number =>
      match metronome.beaters[number]? with
      | some beater =>
          if beater.hearsEnd then
            some (metronome.modify number fun beater => { beater with phase := .ended })
          else none
      | none => none
  | .beat number =>
      match metronome.beaters[number]? with
      | some beater =>
          if beater.canBeat then
            some (metronome.modify number fun beater =>
              { beater with phase := .calling, calls := beater.calls + 1 })
          else none
      | none => none
  | .finish number raises =>
      match metronome.beaters[number]? with
      | some { phase := .calling, .. } =>
          some (metronome.modify number fun beater =>
            { beater with phase := if raises then .ended else .waiting })
      | _ => none

def moves? (metronome : Metronome) (moves : List Move) : Option Metronome :=
  moves.foldlM move? metronome

end Metronome

end Chip8Machine
