import ActionChain.Routine

/-!
# Taking Turns

Several tasks work on one state. A task is anything that can take a step: it
goes on, pauses for some time, or finishes with a result. A routine is such a
task, and so is a routine that starts over until it has an answer, which is
how work without a bound on its length is described.

A pool runs its tasks cooperatively on a clock of its own. A task whose turn
it is runs until it pauses; a pause of no length is no pause. When every task
is waiting the clock moves to the earliest time one of them waits for, and
the tasks due then get their turns in the order of the pool. Nothing bounds
how often a task may start over, so the runs take fuel, and running out of it
is reported as such.

## Main definitions

* `Move`: what a step comes to.
* `Routine.step`, `Routine.loopStep`: the steps of a routine, and of one that
  starts over.
* `Task`, `Pool`: tasks with their waiting times, and a clock.
* `Pool.settle`: everyone who is due gets a turn.
* `Pool.finish?`: the clock runs until everyone is done.
-/

namespace ActionChain

variable {σ τ ι α : Type}

/-- What a step of a task comes to. -/
inductive Move (τ α : Type) where
  | next (t : τ)
  | pause (ms : Nat) (t : τ)
  | finish (a : α)

namespace Routine

/-- The next step of a routine. -/
def step : Routine σ α → σ → σ × Move (Routine σ α) α
  | .done a, s => (s, .finish a)
  | .act change next, s => (change s, .next (next s))
  | .sleep ms next, s => (s, .pause ms next)

/-- The next step of a routine that starts over with a body until it ends with
an answer. -/
def loopStep (body : ι → Routine σ (ι ⊕ α)) (r : Routine σ (ι ⊕ α)) (s : σ) :
    σ × Move (Routine σ (ι ⊕ α)) α :=
  match r with
  | .done (.inl i) => (s, .next (body i))
  | .done (.inr a) => (s, .finish a)
  | .act change next => (change s, .next (next s))
  | .sleep ms next => (s, .pause ms next)

end Routine

/-- Where a task stands. -/
inductive Task (τ α : Type) where
  /-- It may go on from a time on. -/
  | waiting (time : Nat) (t : τ)
  | over (a : α)

namespace Task

/-- The time a task waits for. -/
def wake? : Task τ α → Option Nat
  | .waiting time _ => some time
  | .over _ => none

/-- The result of a task that is over. -/
def result? : Task τ α → Option α
  | .waiting _ _ => none
  | .over a => some a

end Task

/-- Tasks on a state and a clock. -/
structure Pool (σ τ α : Type) where
  state : σ
  clock : Nat
  tasks : List (Task τ α)

namespace Pool

/-- A turn of one task at a time of the clock: it runs until it pauses. -/
def turn (step : τ → σ → σ × Move τ α) (clock : Nat) : (fuel : Nat) → τ → σ → σ × Task τ α
  | 0, t, s => (s, .waiting clock t)
  | fuel + 1, t, s =>
    match step t s with
    | (s, .next t) => turn step clock fuel t s
    | (s, .pause ms t) =>
      -- A pause of no length keeps the turn.
      if ms = 0 then turn step clock fuel t s else (s, .waiting (clock + ms) t)
    | (s, .finish a) => (s, .over a)

/-- A turn for every task that is due, in order. -/
def turns (step : τ → σ → σ × Move τ α) (clock fuel : Nat) :
    List (Task τ α) → σ → σ × List (Task τ α)
  | [], s => (s, [])
  | .over a :: rest, s =>
    let (s, rest) := turns step clock fuel rest s
    (s, .over a :: rest)
  | .waiting time t :: rest, s =>
    let (s, task) := if time ≤ clock then turn step clock fuel t s else (s, .waiting time t)
    let (s, rest) := turns step clock fuel rest s
    (s, task :: rest)

/-- Everyone who is due gets a turn; the clock stands still. -/
def settle (step : τ → σ → σ × Move τ α) (fuel : Nat) (p : Pool σ τ α) : Pool σ τ α :=
  let (state, tasks) := turns step p.clock fuel p.tasks p.state
  { p with state, tasks }

/-- The earliest time somebody waits for. -/
def nextWake? (p : Pool σ τ α) : Option Nat := (p.tasks.filterMap Task.wake?).min?

/-- Lets everyone take turns while the clock moves, until a pool has what is
waited for. Without fuel, or when nobody waits, there is no answer. -/
def runUntil? (step : τ → σ → σ × Move τ α) (stop : Pool σ τ α → Bool) :
    (fuel : Nat) → Pool σ τ α → Option (Pool σ τ α)
  | 0, _ => none
  | fuel + 1, p =>
    let p := p.settle step fuel
    if stop p then some p
    else
      match p.nextWake? with
      -- The clock never goes back, even for a task whose time has passed.
      | some time => runUntil? step stop fuel { p with clock := max p.clock time }
      | none => none

/-- Whether every task is over. -/
def isOver (p : Pool σ τ α) : Bool := p.tasks.all fun t => t.result?.isSome

/-- Lets everyone take turns until all are done. -/
def finish? (step : τ → σ → σ × Move τ α) (fuel : Nat) (p : Pool σ τ α) : Option (Pool σ τ α) :=
  runUntil? step isOver fuel p

/-- Tasks that all start now. -/
def start (state : σ) (clock : Nat) (ts : List τ) : Pool σ τ α :=
  ⟨state, clock, ts.map (.waiting clock)⟩

/-- The results of the tasks that are over, in order. -/
def results (p : Pool σ τ α) : List α := p.tasks.filterMap Task.result?

end Pool

end ActionChain
