import Chip8Machine.Metronome

/-!
A metronome with a fixed order of steps: its thread beats only while somebody waits for what it
does, or for some time to pass.
-/

set_option autoImplicit false

namespace Chip8Machine.Metronome

def doMove (metronome : Metronome) (move : Move) : Metronome :=
  (metronome.move? move).getD metronome

def shutDownAll (metronome : Metronome) : Metronome :=
  (List.range metronome.beaters.length).foldl
    (fun metronome number => metronome.doMove (.shutDown number)) metronome

def attend (metronome : Metronome) (errand : Errand) : Metronome :=
  let told := ((metronome.doMove (.setOut errand)).doMove .send).doMove .letGo
  told.shutDownAll.doMove .join

def start (metronome : Metronome) (job : Job) : Metronome := metronome.attend (.start job)

def stop (metronome : Metronome) : Metronome := metronome.attend .stop

/-- A beat of the latest thread, with the whole call of its job. -/
def beatOnce (metronome : Metronome) : Metronome :=
  let number := metronome.beaters.length - 1
  match metronome.beaters[number]? with
  | some beater =>
      let called := metronome.doMove (.beat number)
      let raises := beater.job.raisesAt == some (called.count beater.job.counter)
      called.doMove (.finish number raises)
  | none => metronome

/-- Waits until the metronome is as wished, but for at most `fuel` beats and not longer than its
thread lives. -/
def await (wish : Metronome → Bool) : Nat → Metronome → Metronome
  | 0, metronome => metronome
  | fuel + 1, metronome =>
      if wish metronome || !metronome.isAlive then metronome
      else await wish fuel metronome.beatOnce

def rest (metronome : Metronome) (duration : Nat) : Metronome :=
  match metronome.beaters.getLast? with
  | some beater =>
      (duration / max shortestPeriod beater.job.interval).fold
        (fun _ _ metronome => metronome.beatOnce) metronome
  | none => metronome

end Chip8Machine.Metronome
