/-!
# Routines

Work on a shared state that others work on too. A routine is cut at the points
where somebody else may get a turn: it acts on the state in one go, or lets
time pass, or is done. What it does next may depend on the state it acted on,
so a routine is a tree that branches over states. The tree is well-founded —
every way through it ends — although nothing bounds its depth.

Running a routine alone is then a plain recursion, and what is proved about
that says what happens when nobody interferes. Interference is a question of
whose next cut comes first and needs no second description of the work.

## Main definitions

* `Routine`: acts, pauses and a result.
* `Routine.atomic`, `Routine.read`: a single act.
* `Routine.within`: a routine on a part of a larger state.
* `Routine.alone`: running without interference.

## Theorems

* `Routine.alone_bind`: running in sequence.
* `Routine.alone_within`: running on a part leaves the rest alone.
-/

namespace ActionChain

variable {σ τ α β γ : Type}

/-- Work on a shared state, cut where others may get a turn. -/
inductive Routine (σ α : Type) where
  | done (a : α)
  /-- Changes the state in one go, and continues as the state before the change
  decides. -/
  | act (change : σ → σ) (next : σ → Routine σ α)
  /-- Lets milliseconds pass. -/
  | sleep (ms : Nat) (next : Routine σ α)

namespace Routine

/-- Continues with what the result decides. -/
def bind : Routine σ α → (α → Routine σ β) → Routine σ β
  | .done a, f => f a
  | .act change next, f => .act change fun s => bind (next s) f
  | .sleep ms next, f => .sleep ms (bind next f)

instance : Monad (Routine σ) where
  pure := .done
  bind := bind

theorem bind_done (r : Routine σ α) : bind r .done = r := by
  induction r with
  | done a => rfl
  | act change next ih => exact congrArg _ (funext ih)
  | sleep ms next ih => exact congrArg _ ih

theorem bind_assoc (r : Routine σ α) (f : α → Routine σ β) (g : β → Routine σ γ) :
    bind (bind r f) g = bind r fun a => bind (f a) g := by
  induction r with
  | done a => rfl
  | act change next ih => exact congrArg _ (funext ih)
  | sleep ms next ih => exact congrArg _ ih

instance : LawfulMonad (Routine σ) :=
  LawfulMonad.mk' (Routine σ) bind_done (fun _ _ => rfl) bind_assoc

/-- A single act with a result. -/
def atomic (f : σ → σ × α) : Routine σ α := .act (fun s => (f s).1) fun s => .done (f s).2

/-- A look at the state. -/
def read (f : σ → α) : Routine σ α := .act id fun s => .done (f s)

/-- A change of the state. -/
def modify (f : σ → σ) : Routine σ Unit := .act f fun _ => .done ()

/-- A pause. -/
def pause (ms : Nat) : Routine σ Unit := .sleep ms (.done ())

/-- A routine on a part of a larger state. -/
def within (get : σ → τ) (put : τ → σ → σ) : Routine τ α → Routine σ α
  | .done a => .done a
  | .act change next => .act (fun s => put (change (get s)) s) fun s => within get put (next (get s))
  | .sleep ms next => .sleep ms (within get put next)

/-- What a routine that ran to its end leaves behind. -/
structure Finished (σ α : Type) where
  value : α
  state : σ
  /-- The milliseconds that passed. -/
  elapsed : Nat

/-- Runs a routine without interference. -/
def alone : Routine σ α → σ → Finished σ α
  | .done a, s => ⟨a, s, 0⟩
  | .act change next, s => alone (next s) (change s)
  | .sleep ms next, s =>
    let f := alone next s
    { f with elapsed := ms + f.elapsed }

@[simp] theorem alone_pure (a : α) (s : σ) : alone (pure a : Routine σ α) s = ⟨a, s, 0⟩ := rfl

/-- In sequence, the second routine starts from what the first left behind and
the times add up. -/
theorem alone_bind (r : Routine σ α) (f : α → Routine σ β) (s : σ) :
    alone (r >>= f) s =
      let first := alone r s
      let second := alone (f first.value) first.state
      ⟨second.value, second.state, first.elapsed + second.elapsed⟩ := by
  induction r generalizing s with
  | done a => simp [bind, Bind.bind, alone]
  | act change next ih => exact ih s (change s)
  | sleep ms next ih =>
    have := ih s
    simp only [Bind.bind, bind, alone] at this ⊢
    simp [this, Nat.add_assoc]

@[simp] theorem alone_atomic (f : σ → σ × α) (s : σ) : alone (atomic f) s = ⟨(f s).2, (f s).1, 0⟩ :=
  rfl

@[simp] theorem alone_read (f : σ → α) (s : σ) : alone (read f) s = ⟨f s, s, 0⟩ := rfl

@[simp] theorem alone_modify (f : σ → σ) (s : σ) : alone (modify f) s = ⟨(), f s, 0⟩ := rfl

@[simp] theorem alone_pause (ms : Nat) (s : σ) : alone (pause ms) s = ⟨(), s, ms⟩ := rfl

/-- A routine on a part does to the part what it does alone, and nothing else,
provided that putting a part in place makes it the part. -/
theorem alone_within {get : σ → τ} {put : τ → σ → σ} (get_put : ∀ t s, get (put t s) = t)
    (put_put : ∀ t u s, put t (put u s) = put t s) (put_get : ∀ s, put (get s) s = s)
    (r : Routine τ α) (s : σ) :
    alone (within get put r) s =
      let f := alone r (get s)
      ⟨f.value, put f.state s, f.elapsed⟩ := by
  induction r generalizing s with
  | done a => simp [within, alone, put_get]
  | act change next ih =>
    simp only [within, alone]
    rw [ih, get_put]
    simp [put_put]
  | sleep ms next ih => simp [within, alone, ih]

end Routine

end ActionChain
