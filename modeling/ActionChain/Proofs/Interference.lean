import ActionChain.Routine

/-!
# Interference

What a routine does while somebody else changes the state between its cuts.

Two routines respect a relation between states if their acts keep it, they
pause for equally long, and they go on alike from related states. Such
routines can be told apart by related results only, and this survives any
changes in between that keep the relation as well, whoever makes them and
however differently on the two sides (`Respects.amid`). The induction is on
the routine, once; what is proved about particular routines afterwards is
proved act by act.

## Main definitions

* `Routine.Respects`: acting on related states alike.
* `Routine.amid`: running with a change of the state before every cut and at
  the end.

## Theorems

* `Routine.Respects.bind`: in sequence.
* `Routine.Respects.amid`, `Routine.Respects.alone`: related results and states.
* `Routine.amid_id`: changing nothing is running alone.
* `Routine.amid_map`: the result of a routine, made into something else.
-/

namespace ActionChain.Routine

variable {σ τ α β γ δ : Type}

/-- Two routines that act alike on related states. The results are related as
well. -/
inductive Respects (R : σ → τ → Prop) (Q : α → β → Prop) : Routine σ α → Routine τ β → Prop where
  | done {a : α} {b : β} (h : Q a b) : Respects R Q (.done a) (.done b)
  | act {change : σ → σ} {change' : τ → τ} {next : σ → Routine σ α} {next' : τ → Routine τ β}
      (hchange : ∀ s t, R s t → R (change s) (change' t))
      (hnext : ∀ s t, R s t → Respects R Q (next s) (next' t)) :
      Respects R Q (.act change next) (.act change' next')
  | sleep {ms : Nat} {next : Routine σ α} {next' : Routine τ β} (h : Respects R Q next next') :
      Respects R Q (.sleep ms next) (.sleep ms next')

namespace Respects

variable {R : σ → τ → Prop} {Q : α → β → Prop} {T : γ → δ → Prop}
  {r : Routine σ α} {r' : Routine τ β}

theorem pure {a : α} {b : β} (h : Q a b) :
    Respects R Q (Pure.pure a : Routine σ α) (Pure.pure b : Routine τ β) :=
  .done h

theorem mono {Q' : α → β → Prop} (h : Respects R Q r r') (hQ : ∀ a b, Q a b → Q' a b) :
    Respects R Q' r r' := by
  induction h with
  | done h => exact .done (hQ _ _ h)
  | act hchange _ ih => exact .act hchange ih
  | sleep _ ih => exact .sleep ih

/-- In sequence, what comes second has to act alike from related results. -/
theorem bind {f : α → Routine σ γ} {f' : β → Routine τ δ} (h : Respects R Q r r')
    (hf : ∀ a b, Q a b → Respects R T (f a) (f' b)) : Respects R T (r >>= f) (r' >>= f') := by
  induction h with
  | done h => exact hf _ _ h
  | act hchange _ ih => exact .act hchange ih
  | sleep _ ih => exact .sleep ih

theorem map {f : α → γ} {f' : β → δ} (h : Respects R Q r r')
    (hf : ∀ a b, Q a b → T (f a) (f' b)) : Respects R T (f <$> r) (f' <$> r') := by
  rw [map_eq_pure_bind, map_eq_pure_bind]
  exact h.bind fun a b hab => .pure (hf a b hab)

theorem atomic {f : σ → σ × α} {f' : τ → τ × β}
    (h : ∀ s t, R s t → R (f s).1 (f' t).1 ∧ Q (f s).2 (f' t).2) :
    Respects R Q (Routine.atomic f) (Routine.atomic f') :=
  .act (fun s t hst => (h s t hst).1) fun s t hst => .done (h s t hst).2

theorem read {f : σ → α} {f' : τ → β} (h : ∀ s t, R s t → Q (f s) (f' t)) :
    Respects R Q (Routine.read f) (Routine.read f') :=
  .act (fun _ _ hst => hst) fun s t hst => .done (h s t hst)

theorem modify {f : σ → σ} {f' : τ → τ} (h : ∀ s t, R s t → R (f s) (f' t)) :
    Respects R Eq (Routine.modify f) (Routine.modify f') :=
  .act h fun _ _ _ => .done rfl

theorem pause (ms : Nat) : Respects R Eq (Routine.pause ms) (Routine.pause ms) :=
  .sleep (.done rfl)

/-- Routines run one after the other, as long as each answers equally. -/
theorem mapM {ι : Type} {f : ι → Routine σ α} {f' : ι → Routine τ α}
    (h : ∀ i, Respects R Eq (f i) (f' i)) (l : List ι) : Respects R Eq (l.mapM f) (l.mapM f') := by
  induction l with
  | nil => exact .pure rfl
  | cons i rest ih =>
      rw [List.mapM_cons, List.mapM_cons]
      refine (h i).bind ?_
      rintro a _ rfl
      refine ih.bind ?_
      rintro as _ rfl
      exact .pure rfl

end Respects

/-- Runs a routine while the state is changed by others before every cut and
once more at the end. -/
def amid : Routine σ α → (meddle : Nat → σ → σ) → σ → Finished σ α
  | .done a, meddle, s => ⟨a, meddle 0 s, 0⟩
  | .act change next, meddle, s =>
    let s := meddle 0 s
    amid (next s) (fun k => meddle (k + 1)) (change s)
  | .sleep ms next, meddle, s =>
    let f := amid next (fun k => meddle (k + 1)) (meddle 0 s)
    { f with elapsed := ms + f.elapsed }

/-- Without changes the routine runs alone. -/
theorem amid_id (r : Routine σ α) (s : σ) : r.amid (fun _ => id) s = r.alone s := by
  induction r generalizing s with
  | done a => rfl
  | act change next ih => exact ih s (change s)
  | sleep ms next ih =>
      have hnext := ih s
      simp only [amid, alone, id] at hnext ⊢
      rw [hnext]

/-- What is made of the result has nothing to do with the others. -/
theorem amid_map (f : α → β) (r : Routine σ α) (meddle : Nat → σ → σ) (s : σ) :
    (f <$> r).amid meddle s =
      let g := r.amid meddle s
      ⟨f g.value, g.state, g.elapsed⟩ := by
  rw [map_eq_pure_bind]
  induction r generalizing meddle s with
  | done a => rfl
  | act change next ih => exact ih _ _ _
  | sleep ms next ih =>
      have hnext := ih (fun k => meddle (k + 1)) (meddle 0 s)
      simp only [Bind.bind, bind, amid] at hnext ⊢
      rw [hnext]

/-- Routines that respect a relation end in related states with related
results, after the same time, amid changes that respect it too. -/
theorem Respects.amid {R : σ → τ → Prop} {Q : α → β → Prop} {r : Routine σ α}
    {r' : Routine τ β} (h : Respects R Q r r') {meddle : Nat → σ → σ} {meddle' : Nat → τ → τ}
    (hmeddle : ∀ k s t, R s t → R (meddle k s) (meddle' k t)) {s : σ} {t : τ} (hst : R s t) :
    Q (r.amid meddle s).value (r'.amid meddle' t).value ∧
      R (r.amid meddle s).state (r'.amid meddle' t).state ∧
      (r.amid meddle s).elapsed = (r'.amid meddle' t).elapsed := by
  induction h generalizing meddle meddle' s t with
  | done h => exact ⟨h, hmeddle 0 s t hst, rfl⟩
  | act hchange _ ih =>
      -- The others come first; the act then starts from states that are still related.
      have hst' := hmeddle 0 s t hst
      exact ih _ _ hst' (fun k => hmeddle (k + 1)) (hchange _ _ hst')
  | sleep _ ih =>
      rcases ih (fun k => hmeddle (k + 1)) (hmeddle 0 s t hst) with ⟨hvalue, hstate, helapsed⟩
      exact ⟨hvalue, hstate, congrArg _ helapsed⟩

theorem Respects.alone {R : σ → τ → Prop} {Q : α → β → Prop} {r : Routine σ α}
    {r' : Routine τ β} (h : Respects R Q r r') {s : σ} {t : τ} (hst : R s t) :
    Q (r.alone s).value (r'.alone t).value ∧ R (r.alone s).state (r'.alone t).state ∧
      (r.alone s).elapsed = (r'.alone t).elapsed := by
  rw [← amid_id, ← amid_id]
  exact h.amid (fun _ _ _ hst => hst) hst

end ActionChain.Routine
