import Mathlib.Data.List.Forall2
import Mathlib.Data.Multiset.AddSub

/-!
# Crowds

Any number of members work on one state, and any of them may take the next
step. A schedule is the list of the positions whose turn it is, so every
interleaving is a schedule.

What holds whatever the schedule is often a matter of what each member has
done so far or has yet to do, which neither the member nor the state tells. So
members are given ghosts: a ghost has to fit its member, and the ghosts
together have to fit the state. A step changes one member, and if its ghost can
be exchanged for one that fits again, a crowd that is attended stays so
(`Crowd.Attended.turn`). Ghosts are taken together as a multiset, so what is
asked of a step is asked of one ghost among others, wherever its member stands.

## Main definitions

* `Crowd`: a state and members.
* `Crowd.turn`, `Crowd.play`: a step of one member, and the steps of a schedule.
* `Crowd.Attended`: every member has a ghost.

## Theorems

* `Crowd.Attended.turn`, `Crowd.Attended.play`: steps keep a crowd attended.
* `Crowd.Attended.join`: so do members that join.
-/

namespace ActionChain

variable {σ τ γ : Type}

/-- Members that work on one state. -/
structure Crowd (σ τ : Type) where
  state : σ
  members : List τ

namespace Crowd

/-- A step of the member at a position. -/
def turn (step : τ → σ → σ × τ) (i : Nat) (c : Crowd σ τ) : Crowd σ τ :=
  match c.members[i]? with
  | some m =>
    let (state, m) := step m c.state
    ⟨state, c.members.set i m⟩
  | none => c

/-- The steps of a schedule. -/
def play (step : τ → σ → σ × τ) : (schedule : List Nat) → Crowd σ τ → Crowd σ τ
  | [], c => c
  | i :: rest, c => play step rest (c.turn step i)

/-- Every member has a ghost that fits it, and the ghosts together fit the
state. -/
def Attended (P : τ → γ → Prop) (I : σ → Multiset γ → Prop) (c : Crowd σ τ) : Prop :=
  ∃ ghosts : List γ, List.Forall₂ P c.members ghosts ∧ I c.state ghosts

variable {P : τ → γ → Prop} {I : σ → Multiset γ → Prop} {step : τ → σ → σ × τ}
  {c : Crowd σ τ}

/-- The ghost of a member among those of the others. It can be exchanged together
with its member. -/
theorem exists_ghost {members : List τ} {ghosts : List γ} (h : List.Forall₂ P members ghosts)
    {i : Nat} {m : τ} (hm : members[i]? = some m) :
    ∃ (g : γ) (others : Multiset γ), P m g ∧ (ghosts : Multiset γ) = g ::ₘ others ∧
      ∀ m' g', P m' g' → ∃ ghosts' : List γ, List.Forall₂ P (members.set i m') ghosts' ∧
        (ghosts' : Multiset γ) = g' ::ₘ others := by
  induction h generalizing i with
  | nil => simp at hm
  | @cons m₀ g₀ members ghosts hfit hrest ih =>
      cases i with
      | zero =>
          obtain rfl : m₀ = m := by simpa using hm
          exact ⟨g₀, ghosts, hfit, rfl, fun m' g' hfit' => ⟨g' :: ghosts, .cons hfit' hrest, rfl⟩⟩
      | succ i =>
          rcases ih (by simpa using hm) with ⟨g, others, hg, hghosts, hexchange⟩
          refine ⟨g, g₀ ::ₘ others, hg, ?_, fun m' g' hfit' => ?_⟩
          · rw [← Multiset.cons_coe, hghosts, Multiset.cons_swap]
          · rcases hexchange m' g' hfit' with ⟨ghosts', hall, hghosts'⟩
            refine ⟨g₀ :: ghosts', .cons hfit hall, ?_⟩
            rw [← Multiset.cons_coe, hghosts', Multiset.cons_swap]

namespace Attended

/-- A step keeps a crowd attended if the ghost of its member can be exchanged for
one that fits. -/
theorem turn
    (hstep : ∀ m g s others, P m g → I s (g ::ₘ others) →
      ∃ g', P (step m s).2 g' ∧ I (step m s).1 (g' ::ₘ others))
    (i : Nat) (h : c.Attended P I) : (c.turn step i).Attended P I := by
  rcases h with ⟨ghosts, hall, hstate⟩
  unfold Crowd.turn
  cases hm : c.members[i]? with
  | none => exact ⟨ghosts, hall, hstate⟩
  | some m =>
      rcases exists_ghost hall hm with ⟨g, others, hg, hghosts, hexchange⟩
      rw [hghosts] at hstate
      rcases hstep m g c.state others hg hstate with ⟨g', hg', hstate'⟩
      rcases hexchange _ g' hg' with ⟨ghosts', hall', hghosts'⟩
      exact ⟨ghosts', hall', hghosts' ▸ hstate'⟩

theorem play
    (hstep : ∀ m g s others, P m g → I s (g ::ₘ others) →
      ∃ g', P (step m s).2 g' ∧ I (step m s).1 (g' ::ₘ others))
    (schedule : List Nat) (h : c.Attended P I) : (c.play step schedule).Attended P I := by
  induction schedule generalizing c with
  | nil => exact h
  | cons i rest ih => exact ih (h.turn hstep i)

/-- A member may join if there is a ghost for it. -/
theorem join {m : τ} {g : γ} (hg : P m g)
    (hjoin : ∀ ghosts, I c.state ghosts → I c.state (g ::ₘ ghosts)) (h : c.Attended P I) :
    Attended P I ⟨c.state, c.members ++ [m]⟩ := by
  rcases h with ⟨ghosts, hall, hstate⟩
  refine ⟨ghosts ++ [g], List.rel_append hall (.cons hg .nil), ?_⟩
  have hghosts : ((ghosts ++ [g] : List γ) : Multiset γ) = g ::ₘ (ghosts : Multiset γ) := by
    rw [← Multiset.coe_add, Multiset.add_comm]
    rfl
  rw [hghosts]
  exact hjoin ghosts hstate

/-- Others may change the state if the ghosts fit it still. -/
theorem change {s : σ} (hchange : ∀ ghosts, I c.state ghosts → I s ghosts) (h : c.Attended P I) :
    Attended P I ⟨s, c.members⟩ := by
  rcases h with ⟨ghosts, hall, hstate⟩
  exact ⟨ghosts, hall, hchange ghosts hstate⟩

end Attended

end Crowd

end ActionChain
