import ActionChain.Proofs.Guarantee
import ActionChain.Proofs.Interference

/-!
# Tracking

What a routine has done so far is not written in the state, nor in what is left
of the routine. A ghost keeps track of it: at every act it changes in a way that
depends on the state before and after, and at the end the result can be told
from it. The ghost is found act by act, whatever state the act meets, as long as
a condition holds that everybody is relied on for.

Where only the result matters there is nothing to keep track of, and the ghost is
left out (`Yields`): the acts keep the condition, and the result is as wanted.

A single step of a routine then leaves a routine that is tracked by the new
ghost, so tracking goes through any interleaving step by step.

## Main definitions

* `Routine.Tracked`: a ghost that keeps track of a routine.
* `Routine.tick`: the next step of a routine, however long it waits.
* `Routine.Yields`: the results of a routine under a condition that it keeps.

## Theorems

* `Routine.Tracked.bind`: in sequence.
* `Routine.Tracked.tick`: a step leaves a tracked routine.
* `Routine.Yields.of_keeps`, `Routine.Yields.of_respects`: what is known of a
  routine otherwise.
* `Routine.Yields.amid`: the result amid changes that keep the condition too.
-/

namespace ActionChain.Routine

variable {σ α β γ : Type}

/-- Whenever the routine acts under a condition, the ghost takes a step that fits
the act, and in the end ghost and result fit. -/
def Tracked (A : σ → Prop) (S : γ → σ → σ → γ → Prop) (Q : γ → α → Prop) :
    Routine σ α → γ → Prop
  | .done a, g => Q g a
  | .act change next, g => ∀ s, A s → ∃ g', S g s (change s) g' ∧ Tracked A S Q (next s) g'
  | .sleep _ next, g => Tracked A S Q next g

namespace Tracked

variable {A : σ → Prop} {S : γ → σ → σ → γ → Prop} {Q : γ → α → Prop} {T : γ → β → Prop}
  {r : Routine σ α} {g : γ}

theorem pure {a : α} (h : Q g a) : Tracked A S Q (Pure.pure a : Routine σ α) g := h

theorem bind {f : α → Routine σ β} (h : Tracked A S Q r g)
    (hf : ∀ g a, Q g a → Tracked A S T (f a) g) : Tracked A S T (r >>= f) g := by
  induction r generalizing g with
  | done a => exact hf g a h
  | act change next ih =>
      intro s hs
      rcases h s hs with ⟨g', hstep, hnext⟩
      exact ⟨g', hstep, ih s hnext⟩
  | sleep ms next ih => exact ih h

theorem atomic {f : σ → σ × α} (h : ∀ s, A s → ∃ g', S g s (f s).1 g' ∧ Q g' (f s).2) :
    Tracked A S Q (Routine.atomic f) g :=
  h

theorem read {f : σ → α} (h : ∀ s, A s → S g s s g ∧ Q g (f s)) :
    Tracked A S Q (Routine.read f) g :=
  fun s hs => ⟨g, h s hs⟩

end Tracked

/-- The next step of a routine; one that is done takes none. How long it waits
does not matter. -/
def tick : Routine σ α → σ → σ × Routine σ α
  | .done a, s => (s, .done a)
  | .act change next, s => (change s, next s)
  | .sleep _ next, s => (s, next)

/-- A step leaves the state and the ghost alone or is an act with a step of the
ghost. -/
theorem Tracked.tick {A : σ → Prop} {S : γ → σ → σ → γ → Prop} {Q : γ → α → Prop}
    {r : Routine σ α} {g : γ} (h : Tracked A S Q r g) {s : σ} (hs : A s) :
    ∃ g', ((g' = g ∧ (r.tick s).1 = s) ∨ S g s (r.tick s).1 g') ∧
      Tracked A S Q (r.tick s).2 g' := by
  cases r with
  | done a => exact ⟨g, .inl ⟨rfl, rfl⟩, h⟩
  | act change next =>
      rcases h s hs with ⟨g', hstep, hnext⟩
      exact ⟨g', .inr hstep, hnext⟩
  | sleep ms next => exact ⟨g, .inl ⟨rfl, rfl⟩, h⟩

/-- Under a condition that its acts keep, a routine only has wanted results. -/
def Yields (A : σ → Prop) (Q : α → Prop) (r : Routine σ α) : Prop :=
  r.Tracked A (fun (_ : Unit) _ after _ => A after) (fun _ a => Q a) ()

namespace Yields

variable {A : σ → Prop} {Q : α → Prop} {P : β → Prop} {r : Routine σ α}

theorem pure {a : α} (h : Q a) : Yields A Q (Pure.pure a : Routine σ α) := h

theorem bind {f : α → Routine σ β} (h : Yields A Q r) (hf : ∀ a, Q a → Yields A P (f a)) :
    Yields A P (r >>= f) :=
  Tracked.bind h fun _ a ha => hf a ha

theorem read {f : σ → α} (h : ∀ s, A s → Q (f s)) : Yields A Q (Routine.read f) :=
  Tracked.read fun s hs => ⟨hs, h s hs⟩

theorem mono {P : α → Prop} (h : Yields A Q r) (hQ : ∀ a, Q a → P a) : Yields A P r := by
  rw [← bind_pure r]
  exact h.bind fun a ha => .pure (hQ a ha)

/-- Any result will do, and there is nothing to keep. -/
theorem trivial (r : Routine σ α) : Yields (fun _ => True) (fun _ => True) r := by
  induction r with
  | done a => exact True.intro
  | act change next ih => exact fun s _ => ⟨(), True.intro, ih s⟩
  | sleep ms next ih => exact ih

/-- What is found without the condition holds under it as well. -/
theorem and (h : Yields A Q r) {P : α → Prop} (h' : Yields (fun _ => True) P r) :
    Yields A (fun a => Q a ∧ P a) r := by
  induction r with
  | done a => exact ⟨h, h'⟩
  | act change next ih =>
      intro s hs
      rcases h s hs with ⟨g, hchange, hnext⟩
      rcases h' s True.intro with ⟨_, -, hnext'⟩
      exact ⟨g, hchange, ih s hnext hnext'⟩
  | sleep ms next ih => exact ih h h'

/-- Acts that keep a relation keep every condition that goes along with it. -/
theorem of_keeps {R : σ → σ → Prop} (h : r.Keeps R) (hR : ∀ s t, A s → R s t → A t) :
    Yields A (fun _ => True) r := by
  induction h with
  | done a => exact True.intro
  | act hchange _ ih => exact fun s hs => ⟨(), hR _ _ hs (hchange s), ih s⟩
  | sleep _ ih => exact ih

/-- What a routine agrees with itself about, from equal states, is found of its results. -/
theorem of_respects {T : α → α → Prop} (h : Respects Eq T r r) :
    Yields (fun _ => True) (fun a => T a a) r := by
  induction r with
  | done a =>
      cases h with
      | done h => exact h
  | act change next ih =>
      cases h with
      | act _ hnext => exact fun s _ => ⟨(), True.intro, ih s (hnext s s rfl)⟩
  | sleep ms next ih =>
      cases h with
      | sleep h => exact ih h

/-- The result is as wanted amid changes that keep the condition. -/
theorem amid (h : Yields A Q r) {meddle : Nat → σ → σ} (hmeddle : ∀ k s, A s → A (meddle k s))
    {s : σ} (hs : A s) : Q (r.amid meddle s).value := by
  induction r generalizing meddle s with
  | done a => exact h
  | act change next ih =>
      rcases h _ (hmeddle 0 s hs) with ⟨_, hchange, hnext⟩
      exact ih _ hnext (fun k => hmeddle (k + 1)) hchange
  | sleep ms next ih => exact ih h (fun k => hmeddle (k + 1)) (hmeddle 0 s hs)

end Yields

end ActionChain.Routine
