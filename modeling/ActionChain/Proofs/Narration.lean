import ActionChain.Pool

/-!
# Narration

Routines that tell what they are about. A narrated routine is a routine with
entries between its cuts: some are told on their own, others go with an act and
may depend on the state the act finds. An entry has no effect on the state and
is no cut, so nobody gets a turn because of it.

Leaving the entries out gives the routine itself (`Narrated.plain`), and taking
a step of either is the same thing but for what is told (`Narrated.plain_loopStep`).
So whatever is found about the entries of narrated routines, in whichever order
their steps come, is about the routines themselves: to say how often something
happens is to narrate it and to count.

## Main definitions

* `Narrated`: routines with entries.
* `Narrated.plain`: the routine without the entries.
* `Narrated.told`: what is told without interference.
* `Narrated.loopStep`: a step, with what is told on the way.

## Theorems

* `Narrated.plain_bind`, `Narrated.plain_silent`, `Narrated.plain_within`: the
  routine of a narration put together.
* `Narrated.told_bind`, `Narrated.told_silent`, `Narrated.told_within`: and what
  it tells.
* `Narrated.plain_loopStep`: steps of narrated routines are steps of routines.
-/

namespace ActionChain

variable {ε σ τ ι α β : Type}

/-- A routine with entries. -/
inductive Narrated (ε σ α : Type) where
  | done (a : α)
  /-- Tells an entry on the way to the next cut. -/
  | tell (entry : ε) (next : Narrated ε σ α)
  /-- Acts, and tells entries as the state before the act decides. -/
  | act (change : σ → σ) (tells : σ → List ε) (next : σ → Narrated ε σ α)
  | sleep (ms : Nat) (next : Narrated ε σ α)

namespace Narrated

/-- Continues with what the result decides. -/
def bind : Narrated ε σ α → (α → Narrated ε σ β) → Narrated ε σ β
  | .done a, f => f a
  | .tell entry next, f => .tell entry (bind next f)
  | .act change tells next, f => .act change tells fun s => bind (next s) f
  | .sleep ms next, f => .sleep ms (bind next f)

instance : Monad (Narrated ε σ) where
  pure := .done
  bind := bind

/-- An entry and nothing else. -/
def say (entry : ε) : Narrated ε σ Unit := .tell entry (.done ())

/-- A single act with a result, and what is told of it. -/
def atomic (f : σ → σ × α) (tells : σ → List ε) : Narrated ε σ α :=
  .act (fun s => (f s).1) tells fun s => .done (f s).2

/-- A routine of which nothing is told. -/
def silent : Routine σ α → Narrated ε σ α
  | .done a => .done a
  | .act change next => .act change (fun _ => []) fun s => silent (next s)
  | .sleep ms next => .sleep ms (silent next)

/-- A narrated routine on a part of a larger state. -/
def within (get : σ → τ) (put : τ → σ → σ) : Narrated ε τ α → Narrated ε σ α
  | .done a => .done a
  | .tell entry next => .tell entry (within get put next)
  | .act change tells next =>
    .act (fun s => put (change (get s)) s) (fun s => tells (get s))
      fun s => within get put (next (get s))
  | .sleep ms next => .sleep ms (within get put next)

/-- The routine without the entries. -/
def plain : Narrated ε σ α → Routine σ α
  | .done a => .done a
  | .tell _ next => plain next
  | .act change _ next => .act change fun s => plain (next s)
  | .sleep ms next => .sleep ms (plain next)

@[simp] theorem plain_pure (a : α) : (pure a : Narrated ε σ α).plain = pure a := rfl

@[simp] theorem plain_say (entry : ε) : (say entry : Narrated ε σ Unit).plain = pure () := rfl

@[simp] theorem plain_atomic (f : σ → σ × α) (tells : σ → List ε) :
    (atomic f tells).plain = Routine.atomic f :=
  rfl

@[simp] theorem plain_bind (r : Narrated ε σ α) (f : α → Narrated ε σ β) :
    (r >>= f).plain = r.plain >>= fun a => (f a).plain := by
  induction r with
  | done a => rfl
  | tell entry next ih => exact ih
  | act change tells next ih => exact congrArg _ (funext ih)
  | sleep ms next ih => exact congrArg _ ih

@[simp] theorem plain_silent (r : Routine σ α) : (silent r : Narrated ε σ α).plain = r := by
  induction r with
  | done a => rfl
  | act change next ih => exact congrArg _ (funext ih)
  | sleep ms next ih => exact congrArg _ ih

@[simp] theorem plain_within (get : σ → τ) (put : τ → σ → σ) (r : Narrated ε τ α) :
    (r.within get put).plain = r.plain.within get put := by
  induction r with
  | done a => rfl
  | tell entry next ih => exact ih
  | act change tells next ih => exact congrArg _ (funext fun s => ih (get s))
  | sleep ms next ih => exact congrArg _ ih

/-! ## Without interference -/

/-- What a narrated routine tells that nobody interferes with. -/
def told : Narrated ε σ α → σ → List ε
  | .done _, _ => []
  | .tell entry next, s => entry :: told next s
  | .act change tells next, s => tells s ++ told (next s) (change s)
  | .sleep _ next, s => told next s

@[simp] theorem told_pure (a : α) (s : σ) : (pure a : Narrated ε σ α).told s = [] := rfl

@[simp] theorem told_say (entry : ε) (s : σ) : (say entry).told s = [entry] := rfl

@[simp] theorem told_atomic (f : σ → σ × α) (tells : σ → List ε) (s : σ) :
    (atomic f tells).told s = tells s :=
  List.append_nil _

/-- In sequence, the second routine tells what it tells where the first leaves off. -/
theorem told_bind (r : Narrated ε σ α) (f : α → Narrated ε σ β) (s : σ) :
    (r >>= f).told s =
      r.told s ++ (f (r.plain.alone s).value).told (r.plain.alone s).state := by
  induction r generalizing s with
  | done a => rfl
  | tell entry next ih => exact congrArg (entry :: ·) (ih s)
  | act change tells next ih =>
      have htold := congrArg (tells s ++ ·) (ih s (change s))
      rwa [← List.append_assoc] at htold
  | sleep ms next ih => exact ih s

@[simp] theorem told_silent (r : Routine σ α) (s : σ) :
    (silent r : Narrated ε σ α).told s = [] := by
  induction r generalizing s with
  | done a => rfl
  | act change next ih => exact ih s _
  | sleep ms next ih => exact ih s

theorem told_within {get : σ → τ} {put : τ → σ → σ} (get_put : ∀ t s, get (put t s) = t)
    (r : Narrated ε τ α) (s : σ) : (r.within get put).told s = r.told (get s) := by
  induction r generalizing s with
  | done a => rfl
  | tell entry next ih => exact congrArg (entry :: ·) (ih s)
  | act change tells next ih =>
      have htold := ih (get s) (put (change (get s)) s)
      rw [get_put] at htold
      exact congrArg (tells (get s) ++ ·) htold
  | sleep ms next ih => exact ih s

/-! ## Steps -/

/-- The next step of a narrated routine that starts over with a body until it
ends with an answer, and what is told on the way. -/
def loopStep (body : ι → Narrated ε σ (ι ⊕ α)) :
    Narrated ε σ (ι ⊕ α) → σ → σ × List ε × Move (Narrated ε σ (ι ⊕ α)) α
  | .done (.inl i), s => (s, [], .next (body i))
  | .done (.inr a), s => (s, [], .finish a)
  | .tell entry next, s =>
    let (s, entries, move) := loopStep body next s
    (s, entry :: entries, move)
  | .act change tells next, s => (change s, tells s, .next (next s))
  | .sleep ms next, s => (s, [], .pause ms next)

end Narrated

/-- What a step comes to, with another description of the task. -/
def Move.map (f : σ → τ) : Move σ α → Move τ α
  | .next t => .next (f t)
  | .pause ms t => .pause ms (f t)
  | .finish a => .finish a

/-- A step of a narrated routine is a step of the routine. -/
theorem Narrated.plain_loopStep (body : ι → Narrated ε σ (ι ⊕ α)) (r : Narrated ε σ (ι ⊕ α))
    (s : σ) :
    r.plain.loopStep (fun i => (body i).plain) s =
      ((r.loopStep body s).1, (r.loopStep body s).2.2.map plain) := by
  induction r with
  | done outcome => cases outcome <;> rfl
  | tell entry next ih => exact ih
  | act change tells next _ => rfl
  | sleep ms next _ => rfl

end ActionChain
