import ActionChain.Routine

/-!
# Guarantees

What a routine does to the state, and what it comes to, whoever gets a turn in
between.

Two things are said of a routine without saying when its cuts come. It keeps a
relation if every single act of it does, from any state. And it attains a goal
if, on every way through it, the goal holds after one of its acts or the result
is as wanted. For the second the others are relied on for a condition, which
they keep at every act, and for nothing else: what they do in between may be
anything. Both are found by following the routine, and both survive sequencing
(`Keeps.bind`, `Attains.bind`).

A goal that is never lost again can then be followed through an interleaving
one act at a time: as long as it is not attained, what is left of the routine
still attains it.

## Main definitions

* `Routine.Keeps`: every act keeps a relation.
* `Routine.Attains`: every way through reaches a goal or ends with a wanted
  result.

## Theorems

* `Routine.Keeps.bind`, `Routine.Attains.bind`: in sequence.
* `Routine.Keeps.within`, `Routine.Attains.within`: on a part of a larger state.
* `Routine.Attains.trivial`: any result will do.
-/

namespace ActionChain.Routine

variable {σ τ α β : Type}

/-- Every act of a routine keeps a relation between the states before and
after. -/
inductive Keeps (R : σ → σ → Prop) : Routine σ α → Prop where
  | done (a : α) : Keeps R (.done a)
  | act {change : σ → σ} {next : σ → Routine σ α} (hchange : ∀ s, R s (change s))
      (hnext : ∀ s, Keeps R (next s)) : Keeps R (.act change next)
  | sleep {ms : Nat} {next : Routine σ α} (h : Keeps R next) : Keeps R (.sleep ms next)

/-- Every way through a routine has the goal after one of its acts or ends with
a wanted result, as long as a condition holds whenever the routine acts. -/
inductive Attains (A goal : σ → Prop) (Q : α → Prop) : Routine σ α → Prop where
  | done {a : α} (h : Q a) : Attains A goal Q (.done a)
  | act {change : σ → σ} {next : σ → Routine σ α}
      (hnext : ∀ s, A s → ¬ goal (change s) → Attains A goal Q (next s)) :
      Attains A goal Q (.act change next)
  | sleep {ms : Nat} {next : Routine σ α} (h : Attains A goal Q next) :
      Attains A goal Q (.sleep ms next)

namespace Keeps

variable {R : σ → σ → Prop} {r : Routine σ α}

theorem pure (a : α) : Keeps R (Pure.pure a : Routine σ α) := .done a

theorem bind {f : α → Routine σ β} (h : Keeps R r) (hf : ∀ a, Keeps R (f a)) :
    Keeps R (r >>= f) := by
  induction h with
  | done a => exact hf a
  | act hchange _ ih => exact .act hchange ih
  | sleep _ ih => exact .sleep ih

theorem atomic {f : σ → σ × α} (h : ∀ s, R s (f s).1) : Keeps R (Routine.atomic f) :=
  .act h fun _ => .done _

theorem read (f : σ → α) (h : ∀ s, R s s) : Keeps R (Routine.read f) := .act h fun _ => .done _

theorem modify {f : σ → σ} (h : ∀ s, R s (f s)) : Keeps R (Routine.modify f) :=
  .act h fun _ => .done ()

theorem pause (ms : Nat) : Keeps R (Routine.pause ms) := .sleep (.done ())

/-- One after the other. -/
theorem mapM {ι : Type} {f : ι → Routine σ α} (h : ∀ i, Keeps R (f i)) (l : List ι) :
    Keeps R (l.mapM f) := by
  induction l with
  | nil => exact .pure _
  | cons i rest ih =>
      rw [List.mapM_cons]
      exact (h i).bind fun _ => ih.bind fun _ => .pure _

theorem mono {S : σ → σ → Prop} (h : Keeps R r) (hRS : ∀ s t, R s t → S s t) : Keeps S r := by
  induction h with
  | done a => exact .done a
  | act hchange _ ih => exact .act (fun s => hRS _ _ (hchange s)) ih
  | sleep _ ih => exact .sleep ih

/-- On a part of a larger state the relation is kept as far as the part goes. -/
theorem within {get : τ → σ} {put : σ → τ → τ} {S : τ → τ → Prop} (h : Keeps R r)
    (hput : ∀ s t, R (get t) s → S t (put s t)) : Keeps S (Routine.within get put r) := by
  induction h with
  | done a => exact .done a
  | act hchange _ ih => exact .act (fun t => hput _ t (hchange (get t))) fun t => ih (get t)
  | sleep _ ih => exact .sleep ih

/-- Without interference, a relation that every act keeps holds from the first
state to the last. -/
theorem alone (h : Keeps R r) (refl : ∀ s, R s s) (trans : ∀ {s t u}, R s t → R t u → R s u)
    (s : σ) : R s (r.alone s).state := by
  induction h generalizing s with
  | done a => exact refl s
  | act hchange _ ih => exact trans (hchange s) (ih s _)
  | sleep _ ih => exact ih s

end Keeps

/-- Any routine keeps a relation that holds of any change. -/
theorem keeps_of_forall {R : σ → σ → Prop} (hR : ∀ s t, R s t) (r : Routine σ α) : Keeps R r := by
  induction r with
  | done a => exact .done a
  | act change next ih => exact .act (fun s => hR s (change s)) ih
  | sleep ms next ih => exact .sleep ih

namespace Attains

variable {A goal : σ → Prop} {Q : α → Prop} {P : β → Prop} {r : Routine σ α}

theorem pure {a : α} (h : Q a) : Attains A goal Q (Pure.pure a : Routine σ α) := .done h

/-- More to rely on does no harm. -/
theorem mono {B : σ → Prop} (h : Attains A goal Q r) (hBA : ∀ s, B s → A s) :
    Attains B goal Q r := by
  induction h with
  | done h => exact .done h
  | act _ ih => exact .act fun s hB hgoal => ih s (hBA s hB) hgoal
  | sleep _ ih => exact .sleep ih

/-- In sequence, the second routine goes on from a wanted result of the first. -/
theorem bind {f : α → Routine σ β} (h : Attains A goal Q r)
    (hf : ∀ a, Q a → Attains A goal P (f a)) : Attains A goal P (r >>= f) := by
  induction h with
  | done h => exact hf _ h
  | act _ ih => exact .act ih
  | sleep _ ih => exact .sleep ih

theorem read {f : σ → α} (h : ∀ s, A s → ¬ goal s → Q (f s)) :
    Attains A goal Q (Routine.read f) :=
  .act fun s hA hgoal => .done (h s hA hgoal)

theorem atomic {f : σ → σ × α} (h : ∀ s, A s → ¬ goal (f s).1 → Q (f s).2) :
    Attains A goal Q (Routine.atomic f) :=
  .act fun s hA hgoal => .done (h s hA hgoal)

/-- When any result will do there is nothing to attain. -/
theorem trivial (r : Routine σ α) : Attains A goal (fun _ => True) r := by
  induction r with
  | done a => exact .done True.intro
  | act change next ih => exact .act fun s _ _ => ih s
  | sleep ms next ih => exact .sleep ih

theorem within {get : τ → σ} {put : σ → τ → τ} (h : Attains A goal Q r)
    (get_put : ∀ s t, get (put s t) = s) :
    Attains (fun t => A (get t)) (fun t => goal (get t)) Q (Routine.within get put r) := by
  induction h with
  | done h => exact .done h
  | act _ ih =>
      refine .act fun t hA hgoal => ih (get t) hA ?_
      rw [get_put] at hgoal
      exact hgoal
  | sleep _ ih => exact .sleep ih

end Attains

end ActionChain.Routine
