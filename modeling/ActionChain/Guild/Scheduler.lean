import ActionChain.Guild.Pass

/-!
# One Pass at a Time

Whenever the platform hints at guilds that are not initialized yet, somebody
calls for a pass. At most one pass may be under way, and no call may be lost.
Two flags do it. A call first leaves a request, then tries to take the
running flag; if another call has it, the request is all it leaves. The call
that holds the flag clears the request, runs a pass, lets the flag go, and
looks whether a request came in meanwhile; if so, and nobody else has taken
the flag since, it takes it and goes round again.

Every access to a flag is a step of its own. A call is described by where it
stands between two of them, so that any number of calls in any interleaving
is a matter of whose step comes next. A pass is a routine that starts over;
its steps are the steps of the call while it runs.

## Main definitions

* `Flags`: the two flags.
* `Call`: where a call stands.
* `Call.step`: its next step.
* `Caller`: a call together with the pass it would run.
-/

namespace ActionChain

variable {σ : Type}

/-- The flags that calls for a pass share. -/
structure Flags where
  running : Bool
  requested : Bool
  deriving DecidableEq, Repr

namespace Flags

/-- No pass is under way and none is asked for. -/
def clear : Flags := ⟨false, false⟩

end Flags

/-- Flags inside a larger state. -/
structure FlagPost (σ : Type) where
  get : σ → Flags
  put : Flags → σ → σ

/-- Where a call for a pass stands. -/
inductive Call (σ : Type) where
  /-- About to leave a request. -/
  | requesting
  /-- About to take the running flag. -/
  | claiming
  /-- Holds the flag; about to clear the request and start a pass. -/
  | clearing
  /-- Inside a pass. -/
  | passing (pass : Routine σ (Nat ⊕ InitReport))
  /-- The pass has ended; about to let the flag go. -/
  | releasing (report : InitReport)
  /-- About to look for a request. -/
  | checking (report : InitReport)
  /-- There was a request; about to take the flag again. -/
  | reclaiming (report : InitReport)

namespace Call

/-- The next step of a call whose attempts are given. It finishes with the
report of its last pass, or without one if another call had the flag. -/
def step (post : FlagPost σ) (attempt : Nat → Routine σ (Nat ⊕ InitReport)) (c : Call σ) (s : σ) :
    σ × Move (Call σ) (Option InitReport) :=
  let flags := post.get s
  match c with
  | .requesting => (post.put { flags with requested := true } s, .next .claiming)
  | .claiming =>
    -- The holder of the flag clears the request before a pass or finds it after one.
    if flags.running then (s, .finish none)
    else (post.put { flags with running := true } s, .next .clearing)
  | .clearing => (post.put { flags with requested := false } s, .next (.passing (attempt 0)))
  | .passing pass =>
    match pass.loopStep attempt s with
    | (s, .next pass) => (s, .next (.passing pass))
    | (s, .pause ms pass) => (s, .pause ms (.passing pass))
    | (s, .finish report) => (s, .next (.releasing report))
  | .releasing report => (post.put { flags with running := false } s, .next (.checking report))
  | .checking report =>
    if flags.requested then (s, .next (.reclaiming report)) else (s, .finish (some report))
  | .reclaiming report =>
    -- The call that took the flag since is the one to answer the request.
    if flags.running then (s, .finish (some report))
    else (post.put { flags with running := true } s, .next .clearing)

end Call

/-- A call together with the attempts its passes are made of. -/
structure Caller (σ : Type) where
  attempt : Nat → Routine σ (Nat ⊕ InitReport)
  call : Call σ

namespace Caller

/-- A call that is about to begin. -/
def start (attempt : Nat → Routine σ (Nat ⊕ InitReport)) : Caller σ := ⟨attempt, .requesting⟩

/-- The next step of a caller. -/
def step (post : FlagPost σ) (c : Caller σ) (s : σ) :
    σ × Move (Caller σ) (Option InitReport) :=
  match c.call.step post c.attempt s with
  | (s, .next call) => (s, .next { c with call })
  | (s, .pause ms call) => (s, .pause ms { c with call })
  | (s, .finish report) => (s, .finish report)

end Caller

end ActionChain
