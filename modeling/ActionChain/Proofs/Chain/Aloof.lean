import ActionChain.Chain.Run
import ActionChain.Mod.Scripted
import ActionChain.Proofs.Interference

/-!
# What Handlers Have Nothing to Do With

Two bots may differ in a part that no handler looks at: the limit on the steps
of a run, say, or the configured commands. A relation between bots is aloof if
related bots show a handler the same and stay related when the handler changes
both in the same way. Handlers respect every aloof relation, and they answer
equally on both sides.

One thing more is found on the way, as it is asked of the same answers: no
handler complains about the limit on steps (`ChainError.Unlimited`), so that
complaint is the run's own.

## Main definitions

* `Bot.Aloof`: relations that handlers have nothing to do with.
* `Conduct.Disregards`: behaviours that have nothing to do with a relation.
* `ChainError.Unlimited`: no complaint about the limit.

## Theorems

* `Bot.Aloof.respects_builtin`, `Bot.Aloof.respects_shipped`,
  `Bot.Aloof.respects_scripted`: handlers respect aloof relations.
* `Bot.Aloof.respects_advance`, `Bot.Aloof.respects_runFrom`: and so do steps
  and runs.
-/

namespace ActionChain

variable {α β : Type}

/-- An outcome that is no complaint about the limit. -/
def ChainError.Unlimited : Except ChainError α → Prop
  | .error (.stepLimit _ _) => False
  | _ => True

open ChainError (Unlimited)

namespace ChainError

/-- What is asked of an outcome is asked of its error alone. -/
theorem Unlimited.error {γ : Type} {e : ChainError} (h : Unlimited (.error e : Except _ α)) :
    Unlimited (.error e : Except _ γ) := by
  cases e with
  | stepLimit name limit => exact h.elim
  | mod _ _ | invalidParams _ | gateway _ | graph _ => trivial

theorem Unlimited.map {γ : Type} {x : Except ChainError α} (h : Unlimited x) (f : α → γ) :
    Unlimited (x.map f) := by
  cases x with
  | error e => exact h.error
  | ok a => trivial

theorem Unlimited.ne_stepLimit {x : Except ChainError α} (h : Unlimited x) (name : String)
    (limit : Nat) : x ≠ .error (.stepLimit name limit) := by
  rintro rfl
  exact h

end ChainError

/-- Parameters that do not fit are no matter of the limit. -/
theorem Step.unlimited_params {step : Step} {read? : Source → Option α} {e : ChainError}
    (h : step.params read? = .error e) : Unlimited (step.reply (.error e)).result := by
  unfold params at h
  split at h <;> cases h
  trivial

/-- Bots that show a handler the same. -/
structure Bot.Level (a b : Bot β) : Prop where
  registry : b.registry = a.registry
  vars : b.vars = a.vars
  gateway : b.gateway = a.gateway
  deliveries : b.deliveries = a.deliveries
  chance : b.chance = a.chance
  taken : b.taken = a.taken
  notes : b.notes = a.notes

/-- A relation that handlers have nothing to do with: related bots show them
the same, and are related still after the same change to what handlers work
on. -/
class Bot.Aloof (R : Bot β → Bot β → Prop) : Prop where
  level {a b : Bot β} : R a b → a.Level b
  vars {a b : Bot β} (vars : Variables) : R a b → R { a with vars } { b with vars }
  deliveries {a b : Bot β} (deliveries : List Delivery) :
    R a b → R { a with deliveries } { b with deliveries }
  taken {a b : Bot β} (taken : Nat) : R a b → R { a with taken } { b with taken }
  notes {a b : Bot β} (notes : List (String × Note)) :
    R a b → R { a with notes } { b with notes }

/-- Behaviours that have nothing to do with a relation: they act alike on
related bots and answer equally. -/
class Conduct.Disregards (β : Type) [Conduct β] (R : Bot β → Bot β → Prop) : Prop where
  respects_handle (behaviour : β) (step : Step) :
    Routine.Respects R Eq (Conduct.handle behaviour step) (Conduct.handle behaviour step)

/-! ## What handlers do to a bot -/

namespace Bot.Aloof

variable {R : Bot β → Bot β → Prop} [Bot.Aloof R] {a b : Bot β}

theorem storeJson (h : R a b) (scope : Scope) (key : String) (j : Json) :
    R (a.storeJson scope key j).1 (b.storeJson scope key j).1 ∧
      (a.storeJson scope key j).2 = (b.storeJson scope key j).2 ∧
      Unlimited (a.storeJson scope key j).2 := by
  unfold Bot.storeJson
  rw [(level h).vars]
  dsimp only
  split
  · exact ⟨Aloof.vars _ h, rfl, trivial⟩
  · exact ⟨Aloof.vars _ h, rfl, trivial⟩

theorem storeValue (h : R a b) (scope : Scope) (key : String) (value : Value) :
    R (a.storeValue scope key value).1 (b.storeValue scope key value).1 ∧
      (a.storeValue scope key value).2 = (b.storeValue scope key value).2 ∧
      Unlimited (a.storeValue scope key value).2 := by
  unfold Bot.storeValue
  rw [(level h).vars]
  split
  · exact ⟨Aloof.vars _ h, rfl, trivial⟩
  · exact ⟨h, rfl, trivial⟩

theorem draw (h : R a b) : R a.draw.1 b.draw.1 ∧ a.draw.2 = b.draw.2 := by
  have hnumber : b.chance b.taken = a.chance a.taken := by
    rw [(level h).chance, (level h).taken]
  unfold Bot.draw
  rw [hnumber, (level h).taken]
  exact ⟨Aloof.taken _ h, rfl⟩

theorem note (h : R a b) (label : Option String) (n : Note) :
    R (a.note label n) (b.note label n) := by
  cases label with
  | none => exact h
  | some label =>
      unfold Bot.note
      dsimp only
      rw [(level h).notes]
      exact Aloof.notes _ h

/-- What an act answers on either side is the same and no complaint about the
limit. -/
abbrev Same (x y : Except ChainError α) : Prop := x = y ∧ Unlimited x

theorem respects_read {f : Bot β → α} (hf : ∀ a b : Bot β, a.Level b → f a = f b) :
    Routine.Respects R Eq (Routine.read f) (Routine.read f) :=
  .read fun a b hab => hf a b (level hab)

/-! ## Handlers -/

theorem respects_assign (step : Step) (a : Option Builtin.Assignment) :
    Routine.Respects R Same (Builtin.assign step a) (Builtin.assign step a) := by
  cases a with
  | none => exact .pure ⟨rfl, trivial⟩
  | some a =>
      refine .atomic fun s t hst => ?_
      rw [(level hst).vars]
      exact storeJson hst a.scope a.key _

theorem respects_send (channel : UInt64) (text : String) :
    Routine.Respects R Same (Builtin.send channel text) (Builtin.send channel text) := by
  refine .atomic fun s t hst => ?_
  have hrefusal : t.gateway t.deliveries channel text = s.gateway s.deliveries channel text := by
    rw [(level hst).gateway, (level hst).deliveries]
  unfold Bot.send
  simp only [hrefusal]
  rw [(level hst).deliveries]
  cases s.gateway s.deliveries channel text with
  | none => exact ⟨Aloof.deliveries _ hst, rfl, trivial⟩
  | some reason => exact ⟨Aloof.deliveries _ hst, rfl, trivial⟩

theorem respects_speak (step : Step) (p : Builtin.Params) :
    Routine.Respects R Same (Builtin.speak step p) (Builtin.speak step p) := by
  unfold Builtin.speak
  cases p.message with
  | none => exact .pure ⟨rfl, trivial⟩
  | some template =>
      refine (respects_read fun s t hst => by rw [hst.vars]).bind fun text text' hsame => ?_
      subst hsame
      cases p.channel.or step.subject.channelId? with
      | some channel => exact respects_send channel text
      | none => exact .pure ⟨rfl, trivial⟩

theorem respects_builtin (step : Step) :
    Routine.Respects R (fun x y => x = y ∧ Unlimited x.result) (Builtin.handle step)
      (Builtin.handle step) := by
  unfold Builtin.handle
  cases hparams : step.params Builtin.Params.read? with
  | error e => exact .pure ⟨rfl, Step.unlimited_params hparams⟩
  | ok p =>
      refine (respects_assign step p.set).bind ?_
      rintro result _ ⟨rfl, hassigned⟩
      cases result with
      | error e => exact .pure ⟨rfl, hassigned.error⟩
      | ok u =>
          refine (respects_speak step p).bind ?_
          rintro result _ ⟨rfl, hspoken⟩
          cases result with
          | error e => exact .pure ⟨rfl, hspoken.error⟩
          | ok u => exact .pure ⟨rfl, trivial⟩

theorem respects_increment (p : Shipped.Increment) :
    Routine.Respects R Same (Routine.atomic p.apply) (Routine.atomic p.apply) := by
  refine .atomic fun s t hst => ?_
  unfold Shipped.Increment.apply Bot.lookUp
  rw [(level hst).vars]
  rcases hnumber : Shipped.numberOf p.key ((s.vars.scope p.scope).get? p.key) with e | current
  · refine ⟨hst, rfl, ?_⟩
    unfold Shipped.numberOf at hnumber
    split at hnumber <;> cases hnumber
    trivial
  · exact storeValue hst ..

theorem respects_choice (p : Shipped.Choice) :
    Routine.Respects R Same (Routine.atomic p.apply) (Routine.atomic p.apply) := by
  refine .atomic fun s t hst => ?_
  unfold Shipped.Choice.apply
  by_cases hempty : p.choices.isEmpty = true
  · rw [if_pos hempty, if_pos hempty]
    exact ⟨hst, rfl, trivial⟩
  · rw [if_neg hempty, if_neg hempty]
    rcases draw hst with ⟨hdrawn, hnumber⟩
    simp only [← hnumber]
    exact storeValue hdrawn ..

theorem respects_shipped (s : Shipped) (step : Step) :
    Routine.Respects R (fun x y => x = y ∧ Unlimited x.result) (s.handle step)
      (s.handle step) := by
  cases s with
  | ifVar =>
      unfold Shipped.handle
      cases hparams : step.params Shipped.Comparison.read? with
      | error e => exact .pure ⟨rfl, Step.unlimited_params hparams⟩
      | ok p =>
          refine (respects_read fun s t hst => by rw [hst.vars]).bind fun holds holds' hsame => ?_
          subst hsame
          exact .pure ⟨rfl, trivial⟩
  | incrementVar =>
      unfold Shipped.handle
      cases hparams : step.params Shipped.Increment.read? with
      | error e => exact .pure ⟨rfl, Step.unlimited_params hparams⟩
      | ok p =>
          refine (respects_increment p).bind ?_
          rintro result _ ⟨rfl, hresult⟩
          exact .pure ⟨rfl, hresult.map _⟩
  | wait =>
      unfold Shipped.handle
      cases hparams : step.params Shipped.readPause? with
      | error e => exact .pure ⟨rfl, Step.unlimited_params hparams⟩
      | ok ms => exact (Routine.Respects.pause ms).bind fun _ _ _ => .pure ⟨rfl, trivial⟩
  | randomPick =>
      unfold Shipped.handle
      cases hparams : step.params Shipped.Choice.read? with
      | error e => exact .pure ⟨rfl, Step.unlimited_params hparams⟩
      | ok p =>
          refine (respects_choice p).bind ?_
          rintro result _ ⟨rfl, hresult⟩
          exact .pure ⟨rfl, hresult.map _⟩
  | joinLogger => exact .pure ⟨rfl, trivial⟩

theorem respects_scripted (s : Script) (step : Step) :
    Routine.Respects R (fun x y => x = y ∧ Unlimited x.result) (s.handle step)
      (s.handle step) := by
  cases s with
  | listener label failure => exact .pure ⟨rfl, trivial⟩
  | action label name script =>
      have hnote (n : Note) : Routine.Respects R Eq (Script.note label n) (Script.note label n) :=
        .modify fun a b hab => note hab (some label) n
      refine (hnote _).bind fun _ _ _ => .pure ⟨rfl, ?_⟩
      cases script.answer <;> trivial

end Bot.Aloof

theorem Performer.respects_handle {R : Bot Performer → Bot Performer → Prop} [Bot.Aloof R] :
    ∀ (behaviour : Performer) (step : Step),
      Routine.Respects R (fun x y => x = y ∧ Unlimited x.result) (Conduct.handle behaviour step)
        (Conduct.handle behaviour step)
  | .shipped s, step => Bot.Aloof.respects_shipped s step
  | .scripted s, step => Bot.Aloof.respects_scripted s step

instance {R : Bot Shipped → Bot Shipped → Prop} [Bot.Aloof R] : Conduct.Disregards Shipped R :=
  ⟨fun s step => (Bot.Aloof.respects_shipped s step).mono fun _ _ h => h.1⟩

instance {R : Bot Performer → Bot Performer → Prop} [Bot.Aloof R] :
    Conduct.Disregards Performer R :=
  ⟨fun p step => (p.respects_handle step).mono fun _ _ h => h.1⟩

/-! ## Steps and runs -/

namespace Bot.Aloof

variable {R : Bot β → Bot β → Prop} [Bot.Aloof R] [Conduct β] [Conduct.Disregards β R]

theorem respects_advance (chain : Chain) (subject : Subject) (index : Nat) (args : List String) :
    Routine.Respects R Eq (chain.advance subject index args)
      (chain.advance subject index args) := by
  unfold Chain.advance
  cases chain.actions[index]? with
  | none => exact .pure rfl
  | some action =>
      refine (respects_read fun s t hst => ?_).bind fun handler handler' hsame => ?_
      · unfold Chain.handlerOf
        rw [hst.registry]
      · subst hsame
        cases handler with
        | none =>
            refine (respects_builtin _).bind ?_
            rintro reply _ ⟨rfl, -⟩
            exact .pure rfl
        | some behaviour =>
            refine (Conduct.Disregards.respects_handle behaviour _).bind ?_
            rintro reply _ rfl
            exact .pure rfl

theorem respects_runFrom (chain : Chain) (subject : Subject) (limit left index : Nat)
    (args : List String) (executed : List Nat) :
    Routine.Respects R Eq (chain.runFrom subject limit left index args executed)
      (chain.runFrom subject limit left index args executed) := by
  induction left generalizing index args executed with
  | zero =>
      unfold Chain.runFrom
      split <;> exact .pure rfl
  | succ left ih =>
      unfold Chain.runFrom
      split
      · refine (respects_advance chain subject index args).bind ?_
        rintro ⟨_ | _ | _, args⟩ _ rfl
        · exact .pure rfl
        · exact ih _ _ _
        · exact .pure rfl
      · exact .pure rfl

end Bot.Aloof

end ActionChain
