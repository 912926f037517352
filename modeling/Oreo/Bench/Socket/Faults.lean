import Oreo.Bench.Socket.Setup

namespace Oreo.Bench.Socket

open Oreo.Posix Oreo.Transition

/-! # Failures while the connection is set up -/

structure Faults where
  socket : Bool
  bind : Bool
  listen : Bool
  accept : Bool
  connect : Bool
deriving DecidableEq, Repr

def Faults.none : Faults := ⟨false, false, false, false, false⟩

def Faults.hits (faults : Faults) : Call → Bool
  | .socket _ => faults.socket
  | .bind _ => faults.bind
  | .listen _ => faults.listen
  | .accept _ => faults.accept
  | .connect _ => faults.connect
  | _ => false

def Faults.noServer (faults : Faults) : Bool := faults.socket || faults.bind || faults.listen

def Faults.noClient (faults : Faults) : Bool := faults.socket || faults.connect

variable {Pc : Type} {prog : Program (Locals Pc)} {parent child : Faults} {w : World (Locals Pc)} {p c : Proc (Locals Pc)}
variable {index : Nat} {call : Call} {r : Reply}

/-- Everything succeeds but the calls that the faults of the two processes hit. -/
def setupFaults (prog : Program (Locals Pc)) (parent child : Faults) : Rule (Locals Pc) := fun w index p call r =>
  if (if index = 0 then parent else child).hits call then r.failed else w.natural prog p call r

def waiting : Call → Bool
  | .read _ | .accept _ => true
  | _ => false

abbrev Faulty (prog : Program (Locals Pc)) (first : Pc) (parent child : Faults) (machine : Machine) (errno : Errno)
    (errored : Bool) (w : World (Locals Pc)) : Prop :=
  Reachable (step prog) (Obeys prog (setupFaults prog parent child))
    (World.boot machine (Locals.entry first errno errored)) w

/-- Where `SIGINT` terminates processes, no run leaves one waiting for one that is gone. -/
def HangFree (prog : Program (Locals Pc)) (first : Pc) (parent child : Faults) : Prop :=
  ∀ machine errno errored w, machine.sigintIgnored = false →
    Faulty prog first parent child machine errno errored w →
      ¬ LeftBehind prog (Obeys prog (setupFaults prog parent child)) waiting w

theorem natural_of_setupFaults (obeyed : setupFaults prog parent child w index p call r = true)
    (missed : (if index = 0 then parent else child).hits call = false) : w.natural prog p call r = true := by
  simpa [setupFaults, missed] using obeyed

theorem Preparing.natural {setup : Setup → Pc} {release : Release → Pc} {iterCnt : Nat}
    {forked : Locals Pc → Locals Pc} (preparing : Preparing setup p)
    (starts : Starts prog setup release iterCnt forked) (turn : Turn prog w 0 p call r)
    (obeyed : setupFaults prog parent child w 0 p call r = true) : w.natural prog p call r = true := by
  obtain ⟨-, -, s, pc, -⟩ := preparing
  have asked := turn.request
  rw [starts.request _ _ pc, Option.some.injEq] at asked
  subst asked
  exact natural_of_setupFaults obeyed (by cases s <;> rfl)

def upToFork : List Label := [⟨0, .ok⟩, ⟨0, .ok⟩, ⟨0, .ok⟩, ⟨0, .ok⟩, ⟨0, .ok⟩, ⟨0, .pid 2⟩]

end Oreo.Bench.Socket
