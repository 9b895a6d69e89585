import ActionChain.Chain.Run
import ActionChain.Mod.Shipped
import ActionChain.Proofs.Interference
import ActionChain.Proofs.Variables.Rendering

/-!
# Steps Are Blind to Positions

No step of a chain can tell apart two bots that differ in where the nodes of
their variables lie.

Every handler acts on the variables through a few operations: it looks a value
up and shows it or compares its tree, it copies a tree in and binds a key to
it, or it binds a key to a number or a text. Each of them does the same to
variables that are written the same, and leaves them so. What a handler keeps
from one cut to the next is a text, a truth value or a tree, never a
position.

There is one crack. The complaint about a variable that is not a number shows
the value, and shows the position of the node if the value is structured. So
errors agree if they are equal or are this complaint with two positions.

## Main definitions

* `Bot.Alike`: bots that differ in the positions of nodes only.
* `ChainError.Agrees`: errors that differ in a position only.
* `Reply.Agrees`: replies that do.
* `Conduct.Blind`: behaviours that reply alike to alike bots.

## Theorems

* `Bot.Alike.storeJson`, `Bot.Alike.storeValue`: storing keeps bots alike.
* `Builtin.respects_handle`: the built-in action is blind.
* `Conduct.Blind Shipped`: so are the shipped mods.
* `Chain.respects_advance`: so is a step.
-/

namespace ActionChain

variable {α β : Type}

/-! ## Alike bots -/

/-- Everything but the variables is equal, and the variables are alike. -/
structure Bot.Alike (a b : Bot β) : Prop where
  rest : { a with vars := b.vars } = b
  vars : a.vars.Alike b.vars

namespace Bot.Alike

variable {a b : Bot β}

theorem elim (hab : a.Alike b) : ∃ vars, b = { a with vars := vars } ∧ a.vars.Alike vars :=
  ⟨b.vars, hab.rest.symm, hab.vars⟩

/-- A bot is like itself exactly if its variables are well-formed. -/
theorem refl_iff : a.Alike a ↔ a.vars.WellFormed := by
  constructor
  · intro haa
    exact ⟨(haa.vars .server).left, (haa.vars .global).left⟩
  · intro hvars
    refine ⟨rfl, fun s => ?_⟩
    cases s with
    | server => exact .refl hvars.1
    | global => exact .refl hvars.2

/-- A function that does not look at the variables keeps bots alike. -/
theorem frame (f : Bot β → Bot β) (hab : a.Alike b)
    (hf : ∀ bot vars, f { bot with vars := vars } = { f bot with vars := vars }) :
    (f a).Alike (f b) := by
  rcases hab.elim with ⟨vars, rfl, hvars⟩
  -- Putting the variables in place afterwards is no change, so the function kept them.
  have hkept : (f a).vars = a.vars := (congrArg Bot.vars (hf a a.vars) :)
  refine ⟨?_, ?_⟩
  · rw [hf a vars]
  · rw [hf a vars, hkept]
    exact hvars

/-- Exchanging the graphs of one scope for alike ones keeps bots alike. -/
theorem update (hab : a.Alike b) (s : Scope) {g h : Graph} (hgh : g.Alike h) :
    Bot.Alike { a with vars := a.vars.update s g } { b with vars := b.vars.update s h } := by
  rcases hab.elim with ⟨vars, rfl, hvars⟩
  exact ⟨rfl, hvars.update s hgh⟩

/-- Copying a tree in and binding a key to it succeeds on both sides. -/
theorem storeJson (hab : a.Alike b) (s : Scope) (key : String) (j : Json) :
    (a.storeJson s key j).1.Alike (b.storeJson s key j).1 ∧
      (a.storeJson s key j).2 = .ok () ∧ (b.storeJson s key j).2 = .ok () := by
  have hscope := hab.vars s
  rcases hscope.exists_matches with ⟨ρ, hgh⟩
  rcases Graph.matches_importJson hgh j with ⟨σ, hgh', hvw⟩
  have hg := (Graph.wellFormed_importJson hscope.left j).1
  have hh := (Graph.wellFormed_importJson hscope.right j).1
  rcases hgh'.set hg hh hvw key with ⟨g', h', hsetg, hseth, halike⟩
  simp only [Bot.storeJson, hsetg, hseth]
  exact ⟨hab.update s halike, trivial, trivial⟩

/-- So does binding a key to a value that is not structured. -/
theorem storeValue (hab : a.Alike b) (s : Scope) (key : String) {v : Value}
    (hv : ∀ ρ, v.Matches ρ v) :
    (a.storeValue s key v).1.Alike (b.storeValue s key v).1 ∧
      (a.storeValue s key v).2 = .ok () ∧ (b.storeValue s key v).2 = .ok () := by
  have hscope := hab.vars s
  rcases hscope.exists_matches with ⟨ρ, hgh⟩
  rcases hgh.set hscope.left hscope.right (hv ρ) key with ⟨g', h', hsetg, hseth, halike⟩
  simp only [Bot.storeValue, hsetg, hseth]
  exact ⟨hab.update s halike, trivial, trivial⟩

/-- The same key leads to matching values, or to none on either side. -/
theorem lookUp (hab : a.Alike b) (s : Scope) (key : String) :
    ∃ ρ, (a.vars.scope s).Matches ρ (b.vars.scope s) ∧
      Option.Rel (Value.Matches ρ) (a.lookUp s key) (b.lookUp s key) := by
  rcases (hab.vars s).exists_matches with ⟨ρ, hgh⟩
  exact ⟨ρ, hgh, hgh.get? key⟩

end Bot.Alike

/-- A look at anything but the variables finds the same in alike bots. -/
theorem Bot.Alike.respects_read (f : Bot β → α)
    (hf : ∀ bot vars, f { bot with vars := vars } = f bot) :
    Routine.Respects (Bot.Alike (β := β)) Eq (Routine.read f) (Routine.read f) := by
  refine .read fun s t hst => ?_
  rcases hst.elim with ⟨vars, rfl, -⟩
  exact (hf s vars).symm

/-! ## Agreeing errors and replies -/

namespace ChainError

/-- The complaint about a structured variable that should be a number. -/
def notNumber (key : String) (id : Nat) : ChainError :=
  Shipped.fail .incrementVar ("'" ++ key ++ "' is not a number: " ++ (Value.ref id).describe)

/-- Errors that are equal, or one complaint with two positions. -/
inductive Agrees : ChainError → ChainError → Prop where
  | same (e : ChainError) : Agrees e e
  | notNumber (key : String) (m n : Nat) : Agrees (notNumber key m) (notNumber key n)

/-- Outcomes that are equal, or agreeing errors. -/
inductive Agree : Except ChainError α → Except ChainError α → Prop where
  | ok (a : α) : Agree (.ok a) (.ok a)
  | error {e e' : ChainError} (h : e.Agrees e') : Agree (.error e) (.error e')

theorem Agree.refl (x : Except ChainError α) : Agree x x := by
  cases x with
  | ok a => exact .ok a
  | error e => exact .error (.same e)

theorem Agree.of_ok {x y : Except ChainError α} {a : α} (hx : x = .ok a) (hy : y = .ok a) :
    Agree x y := by
  rw [hx, hy]
  exact .ok a

theorem Agree.map {γ : Type} {x y : Except ChainError α} (h : Agree x y) (f : α → γ) :
    Agree (x.map f) (y.map f) := by
  cases h with
  | ok a => exact .ok (f a)
  | error h => exact .error h

end ChainError

open ChainError (Agree)

/-- Replies with equal arguments and agreeing results. -/
structure Reply.Agrees (x y : Reply) : Prop where
  result : Agree x.result y.result
  args : x.args = y.args

theorem Step.agrees_reply (step : Step) {x y : Except ChainError Continuation}
    (h : Agree x y) : (step.reply x).Agrees (step.reply y) :=
  ⟨h, rfl⟩

/-- Behaviours that reply alike to alike bots, and leave them alike. -/
class Conduct.Blind (β : Type) [Conduct β] : Prop where
  respects_onEvent : ∀ (behaviour : β) (e : PlatformEvent),
    Routine.Respects Bot.Alike Eq (Conduct.onEvent behaviour e) (Conduct.onEvent behaviour e)
  respects_handle : ∀ (behaviour : β) (step : Step),
    Routine.Respects Bot.Alike Reply.Agrees (Conduct.handle behaviour step)
      (Conduct.handle behaviour step)

/-! ## The built-in action -/

namespace Builtin

theorem assignedJson_eq {vars vars' : Variables} (hvars : vars.Alike vars') (step : Step)
    (value : Json) : assignedJson step value vars = assignedJson step value vars' := by
  cases value with
  | string template =>
      simp only [assignedJson, Step.render, Template.render_eq hvars]
  | _ => rfl

theorem respects_assign (step : Step) (a : Option Assignment) :
    Routine.Respects (Bot.Alike (β := β)) Agree (assign step a) (assign step a) := by
  cases a with
  | none => exact .pure (.refl _)
  | some a =>
      refine .atomic fun s t hst => ?_
      rw [assignedJson_eq hst.vars]
      rcases hst.storeJson a.scope a.key (assignedJson step a.value t.vars) with
        ⟨halike, hok, hok'⟩
      exact ⟨halike, .of_ok hok hok'⟩

theorem respects_send (channel : UInt64) (text : String) :
    Routine.Respects (Bot.Alike (β := β)) Agree (send channel text) (send channel text) := by
  refine .atomic fun s t hst => ⟨?_, ?_⟩
  · refine hst.frame (fun bot => (bot.send channel text).1) fun bot vars => ?_
    simp only [Bot.send]
    cases bot.gateway bot.deliveries channel text <;> rfl
  · -- The platform decides in view of the messages, which are equal.
    rcases hst.elim with ⟨vars, rfl, -⟩
    have hsame : (Bot.send { s with vars := vars } channel text).2 = (s.send channel text).2 := by
      simp only [Bot.send]
      cases s.gateway s.deliveries channel text <;> rfl
    simp only [hsame]
    exact .refl _

theorem respects_speak (step : Step) (p : Params) :
    Routine.Respects (Bot.Alike (β := β)) Agree (speak step p) (speak step p) := by
  unfold speak
  cases p.message with
  | none => exact .pure (.refl _)
  | some template =>
      have hread : Routine.Respects (Bot.Alike (β := β)) Eq
          (Routine.read fun bot => step.render template bot.vars)
          (Routine.read fun bot => step.render template bot.vars) := by
        refine .read fun s t hst => ?_
        rw [Step.render, Step.render, Template.render_eq hst.vars]
      refine hread.bind fun text text' htext => ?_
      subst htext
      cases p.channel.or step.subject.channelId? with
      | none => exact .pure (.refl _)
      | some channel => exact respects_send channel text

/-- The built-in action is blind. -/
theorem respects_handle (step : Step) :
    Routine.Respects (Bot.Alike (β := β)) Reply.Agrees (handle step) (handle step) := by
  unfold handle
  cases step.params Params.read? with
  | error e => exact .pure (step.agrees_reply (.refl _))
  | ok p =>
      refine (respects_assign step p.set).bind fun x y hxy => ?_
      cases hxy with
      | error h => exact .pure (step.agrees_reply (.error h))
      | ok u =>
          refine (respects_speak step p).bind fun x y hxy => ?_
          cases hxy with
          | error h => exact .pure (step.agrees_reply (.error h))
          | ok u => exact .pure (step.agrees_reply (.refl _))

end Builtin

/-! ## The shipped mods -/

namespace Shipped

variable {s t : Bot β}

theorem holds_eq (hst : s.Alike t) (p : Comparison) : p.holds s.vars = p.holds t.vars := by
  rcases hst.lookUp p.scope p.key with ⟨ρ, hgh, hrel⟩
  have hactual : Value.Matches ρ (((s.vars.scope p.scope).get? p.key).getD .null)
      (((t.vars.scope p.scope).get? p.key).getD .null) := by
    simp only [Bot.lookUp] at hrel
    revert hrel
    generalize (s.vars.scope p.scope).get? p.key = x
    generalize (t.vars.scope p.scope).get? p.key = y
    rintro (_ | _)
    · assumption
    · exact .null
  simp only [Comparison.holds, Graph.toJson_eq_of_matches hgh hactual]

/-- Matching values stand for the same number, or are refused by agreeing
complaints. -/
theorem agree_numberOf {ρ : Nat → Nat → Prop} (key : String) {x y : Option Value}
    (h : Option.Rel (Value.Matches ρ) x y) : Agree (numberOf key x) (numberOf key y) := by
  cases h with
  | none => exact .refl _
  | some hvw =>
      cases hvw with
      | ref hab => exact .error (.notNumber key _ _)
      | _ => exact .refl _

theorem respects_increment (p : Increment) :
    Routine.Respects (Bot.Alike (β := β)) Agree (Routine.atomic p.apply)
      (Routine.atomic p.apply) := by
  refine .atomic fun s t hst => ?_
  rcases hst.lookUp p.scope p.key with ⟨ρ, -, hrel⟩
  have hnumber := agree_numberOf p.key hrel
  unfold Increment.apply
  -- From here on only the two outcomes of the look-up matter, and they agree.
  generalize numberOf p.key (s.lookUp p.scope p.key) = x at hnumber ⊢
  generalize numberOf p.key (t.lookUp p.scope p.key) = y at hnumber ⊢
  cases hnumber with
  | error h => exact ⟨hst, .error h⟩
  | ok x =>
      rcases hst.storeValue p.scope p.key (fun ρ => .number (x + p.amount)) with
        ⟨halike, hok, hok'⟩
      exact ⟨halike, .of_ok hok hok'⟩

theorem respects_choice (p : Choice) :
    Routine.Respects (Bot.Alike (β := β)) Agree (Routine.atomic p.apply)
      (Routine.atomic p.apply) := by
  refine .atomic fun s t hst => ?_
  unfold Choice.apply
  by_cases hempty : p.choices.isEmpty
  · rw [if_pos hempty, if_pos hempty]
    exact ⟨hst, .refl _⟩
  · rw [if_neg hempty, if_neg hempty]
    -- Both sides take the same number, as many were taken before.
    have hdraw : s.draw.1.Alike t.draw.1 := hst.frame (fun bot => bot.draw.1) fun _ _ => rfl
    have hnumber : t.draw.2 = s.draw.2 := by
      rcases hst.elim with ⟨vars, rfl, -⟩
      rfl
    simp only [hnumber]
    rcases hdraw.storeValue p.scope p.key (v := .text
        ((p.choices[s.draw.2 % p.choices.length]?).getD "")) (fun ρ => .text _) with
      ⟨halike, hok, hok'⟩
    exact ⟨halike, .of_ok hok hok'⟩

/-- An act whose outcomes agree, followed by the next action unless it failed. -/
theorem respects_andNext (step : Step) {r r' : Routine (Bot β) (Except ChainError Unit)}
    (h : Routine.Respects Bot.Alike Agree r r') :
    Routine.Respects Bot.Alike Reply.Agrees (do return andNext step (← r))
      (do return andNext step (← r')) :=
  h.bind fun _ _ hxy => .pure (step.agrees_reply (hxy.map _))

theorem respects_handle (shipped : Shipped) (step : Step) :
    Routine.Respects (Bot.Alike (β := β)) Reply.Agrees (handle shipped step)
      (handle shipped step) := by
  cases shipped with
  | ifVar =>
      simp only [handle]
      cases step.params Comparison.read? with
      | error e => exact .pure (step.agrees_reply (.refl _))
      | ok p =>
          refine (Routine.Respects.read (Q := Eq) fun s t hst => holds_eq hst p).bind
            fun x y hxy => ?_
          subst hxy
          exact .pure (step.agrees_reply (.refl _))
  | incrementVar =>
      simp only [handle]
      cases step.params Increment.read? with
      | error e => exact .pure (step.agrees_reply (.refl _))
      | ok p => exact respects_andNext step (respects_increment p)
  | wait =>
      simp only [handle]
      cases step.params readPause? with
      | error e => exact .pure (step.agrees_reply (.refl _))
      | ok ms =>
          exact (Routine.Respects.pause ms).bind fun _ _ _ => .pure (step.agrees_reply (.refl _))
  | randomPick =>
      simp only [handle]
      cases step.params Choice.read? with
      | error e => exact .pure (step.agrees_reply (.refl _))
      | ok p => exact respects_andNext step (respects_choice p)
  | joinLogger => exact .pure (step.agrees_reply (.refl _))

instance : Conduct.Blind Shipped where
  respects_onEvent _ _ := .pure rfl
  respects_handle := respects_handle

end Shipped

/-! ## A step -/

/-- A step is blind, whoever handles it. -/
theorem Chain.respects_advance [Conduct β] [Conduct.Blind β] (chain : Chain) (subject : Subject)
    (index : Nat) (args : List String) :
    Routine.Respects (Bot.Alike (β := β)) (fun x y => Agree x.1 y.1 ∧ x.2 = y.2)
      (chain.advance subject index args) (chain.advance subject index args) := by
  unfold Chain.advance
  cases chain.actions[index]? with
  | none => exact .pure ⟨.refl _, rfl⟩
  | some action =>
      have hreply : ∀ x y : Reply, x.Agrees y →
          Agree (x.result.map (Continuation.advance index))
            (y.result.map (Continuation.advance index)) ∧ x.args = y.args :=
        fun x y hxy => ⟨hxy.result.map _, hxy.args⟩
      have hhandler := Bot.Alike.respects_read (handlerOf (β := β) action) fun _ _ => rfl
      refine hhandler.bind fun handler handler' hsame => ?_
      subst hsame
      cases handler with
      | some behaviour =>
          exact (Conduct.Blind.respects_handle behaviour _).bind fun x y hxy =>
            .pure (hreply x y hxy)
      | none => exact (Builtin.respects_handle _).bind fun x y hxy => .pure (hreply x y hxy)

end ActionChain
