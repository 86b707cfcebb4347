import DemandPaging.Kernel.Basic

/-!
# Work to be done at events

An agenda is a list of errands. Each waits for a kind of event, perhaps at one particular object,
and may let some such events pass first. An event goes to the first errand on the list that waits
for it: either it is one of those that the errand lets pass, or the errand leaves the list and its
work is due.
-/

set_option autoImplicit false

namespace DemandPaging

/-- The kinds of events that work can wait for. -/
inductive Occasion where
  /-- A sector is about to be written to swap. -/
  | swapWrite
  /-- A sector is about to be read from swap. -/
  | swapRead
  /-- A file is about to be written. -/
  | fileWrite
  /-- A file is about to be read. -/
  | fileRead
  /-- A page directory has just translated an address. -/
  | translate
  /-- A page directory has just been asked for an entry. -/
  | getPage
  deriving DecidableEq, Repr, Inhabited

namespace Event

/-- The kind of an event. -/
def occasion : Event → Occasion
  | swapWrite => .swapWrite
  | swapRead => .swapRead
  | fileWrite _ => .fileWrite
  | fileRead _ => .fileRead
  | translate _ => .translate
  | getPage _ => .getPage

end Event

/-- Work that waits for an event. -/
structure Errand (α : Type) where
  /-- The kind of event. -/
  occasion : Occasion
  /-- The object at which it happens; any will do if there is none. -/
  index : Option Nat
  /-- How many such events to let pass. -/
  skip : Nat
  /-- What is to be done. -/
  work : α

/-- Errands, the first one first. -/
abbrev Agenda (α : Type) := List (Errand α)

namespace Errand

/-- Whether the errand waits for such an event. -/
def awaits {α : Type} (errand : Errand α) (occasion : Occasion) (index : Nat) : Bool :=
  errand.occasion == occasion && errand.index.all (· == index)

end Errand

namespace Agenda

/-- Put an errand at the end. -/
def add {α : Type} (agenda : Agenda α) (errand : Errand α) : Agenda α := agenda ++ [errand]

/-- An event has happened: the work that is due, and what is left of the agenda. -/
def due {α : Type} (agenda : Agenda α) (occasion : Occasion) (index : Nat) :
    Option α × Agenda α :=
  match agenda with
  | [] => (none, [])
  | errand :: rest =>
    if errand.awaits occasion index then
      if 0 < errand.skip then (none, { errand with skip := errand.skip - 1 } :: rest)
      else (some errand.work, rest)
    else
      let (work, rest) := due rest occasion index
      (work, errand :: rest)

end Agenda

end DemandPaging
