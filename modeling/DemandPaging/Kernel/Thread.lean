import DemandPaging.Kernel.Basic

/-!
# Threads

An operation that runs beside others stops wherever it needs a resource that somebody else holds,
and goes on once it can have it. `Thread` is the third monad for operations: a thread answers with
its `Progress`, which is either its end or a request for a resource together with the work that
remains. What remains takes the machine anew, since others may have changed it meanwhile.

Who gets what is not for the thread to say. `Progress.advance` grants requests as long as nobody
else holds what is wanted, and `Progress.settle` lets several threads go on in turn until each has
ended or has to wait. Threads do not watch for events.
-/

set_option autoImplicit false

namespace DemandPaging

/-- How far a thread has come. -/
inductive Progress (α : Type) where
  /-- It has ended with an answer. -/
  | done (answer : α) (machine : Machine)
  /-- It has halted. -/
  | halted (halt : Halt) (machine : Machine)
  /-- It wants one more resource and goes on from there. -/
  | request (wanted : Resource) (held : List Resource) (machine : Machine)
      (resume : Machine → Progress α)

/-- An operation that runs beside others, from what it holds and the machine it finds. -/
def Thread (α : Type) := List Resource → Machine → Progress α

namespace Progress

variable {α β : Type}

/-- The machine as the thread left it. -/
def machine : Progress α → Machine
  | done _ machine | halted _ machine | request _ _ machine _ => machine

/-- What the thread holds while it waits. -/
def held : Progress α → List Resource
  | request _ held _ _ => held
  | done _ _ | halted _ _ => []

/-- How the thread has ended. One that still waits will never end. -/
def outcome : Progress α → Except Halt α
  | done answer _ => .ok answer
  | halted halt _ => .error halt
  | request _ _ _ _ => .error .blocked

/-- Go on with more work after the end. -/
def andThen (progress : Progress α) (next : α → Machine → Progress β) : Progress β :=
  match progress with
  | done answer machine => next answer machine
  | halted halt machine => .halted halt machine
  | request wanted held machine resume =>
    .request wanted held machine fun machine => (resume machine).andThen next

/-- Go on as far as possible while others hold `taken`. -/
def advance (taken : List Resource) : Progress α → Progress α
  | request wanted held machine resume =>
    if wanted ∈ taken then .request wanted held machine resume
    else (resume machine).advance taken
  | ended => ended

/-- What all of some threads hold. -/
def heldBy (threads : List (Progress α)) : List Resource := threads.flatMap held

/-- Let the first thread that need not wait go on, after those in `before`, while `taken` is held
elsewhere. There may be none. -/
def turn (taken : List Resource) (machine : Machine) :
    (before threads : List (Progress α)) → Option (List (Progress α) × Machine)
  | _, [] => none
  | before, .request wanted held stopped resume :: rest =>
    let others := taken ++ heldBy before ++ heldBy rest
    if wanted ∈ others then
      turn taken machine (before ++ [.request wanted held stopped resume]) rest
    else
      let thread := (resume machine).advance others
      some (before ++ thread :: rest, thread.machine)
  | before, ended :: rest => turn taken machine (before ++ [ended]) rest

/-- How many turns threads are given. A thread takes one whenever it has waited, so this is far more
than can be needed. -/
abbrev turns : Nat := 0x100000000

/-- Let threads go on in at most so many turns, until all have ended or have to wait. -/
def settleIn (taken : List Resource) :
    (turns : Nat) → List (Progress α) → Machine → List (Progress α) × Machine
  | 0, threads, machine => (threads, machine)
  | turns + 1, threads, machine =>
    match turn taken machine [] threads with
    | none => (threads, machine)
    | some (threads, machine) => settleIn taken turns threads machine

/-- Let threads go on until all have ended or have to wait. -/
def settle (taken : List Resource) (threads : List (Progress α)) (machine : Machine) :
    List (Progress α) × Machine :=
  settleIn taken turns threads machine

/-- Start one more thread, once the others can go on no further, and let it go on as far as it
can. -/
def start (taken : List Resource) (thread : Thread α) (threads : List (Progress α))
    (machine : Machine) : List (Progress α) × Machine :=
  let (threads, machine) := settle taken threads machine
  let started := (thread [] machine).advance (taken ++ heldBy threads)
  settle taken (threads ++ [started]) started.machine

end Progress

namespace Thread

/-- Carry out a transition. -/
def ofTransition {α : Type} (step : Transition α) : Thread α := fun _ machine =>
  match step machine with
  | .ok a machine => .done a machine
  | .error halt machine => .halted halt machine

/-- What comes next goes on with the resources that the thread holds. -/
instance : Monad Thread where
  pure a := fun _ machine => .done a machine
  bind thread next := fun held machine => (thread held machine).andThen fun a => next a held

/-- A thread stops only where it asks for a resource, which it holds while the work is done. -/
instance : Kernel Thread where
  atomically := ofTransition
  interrupt _ := pure ()
  holding resource work := fun held machine =>
    .request resource held machine (work (resource :: held))

end Thread

end DemandPaging
