import ActionChain.Bot

/-!
# Histories of Registrations

What the registry holds after any number of mods were registered one after
the other, none of which brings companions.

A registration that succeeds enters all of a mod's capabilities, and one that
does not enters none. So the registry is determined by the mods that were
accepted, in order: the listeners of a name are the accepted mods that listen
under it, and the handler of a name is the last of the accepted mods that act
under it, or the first one where the settings refuse duplicates. The second
is no rule of the registry, which always replaces. It comes from the refusal:
under that policy no mod that acts is accepted once the name has a handler.

The two tables share nothing but the name. Whether a mod is refused is read
off the table of actions alone, so the listeners of all mods can be taken away
without a difference to any result or any handler; and the listeners are
those that the accepted mods would leave if none of them acted.

## Main definitions

* `Registration`: a registration with the bot before and after it.
* `Bot.registrations`: the registrations of mods in order.
* `Bot.accepted`: the mods whose registration succeeded.
* `DuplicatePolicy.choose`: which of several mods handles a name.
* `Registry.Holds`: a registry that is determined by the accepted mods.
* `BotMod.withoutListener`, `BotMod.withoutAction`: a mod with one capability
  less.

## Theorems

* `Bot.register_eq`: what a registration without companions does.
* `Registry.Holds.bind`: an accepted mod joins those that determine a registry.
* `Bot.holds_registerAll`: the registry is determined by the accepted mods.
* `Bot.Muffled.registerAll`: no result and no handler depends on a listener.
* `Bot.listenersOf_withoutAction`: no listener of an accepted mod depends on
  an action.
* `Bot.registry_of_history`: what a history of registrations leaves and does.
-/

namespace ActionChain

variable {β : Type}

/-! ## One registration -/

namespace Registry

theorem refuses_iff (r : Registry β) (policy : DuplicatePolicy) (m : BotMod β) :
    r.refuses policy m ↔ policy = .reject ∧ m.action.isSome ∧ (r.resolve? m.name).isSome := by
  rw [refuses, Bool.and_eq_true, Bool.and_eq_true, beq_iff_eq, and_assoc, and_left_comm]

end Registry

namespace Bot

@[simp] theorem note_settings (bot : Bot β) (label : Option String) (n : Note) :
    (bot.note label n).settings = bot.settings := by
  cases label <;> rfl

@[simp] theorem note_registry (bot : Bot β) (label : Option String) (n : Note) :
    (bot.note label n).registry = bot.registry := by
  cases label <;> rfl

theorem note_notes (bot : Bot β) (label : Option String) (n : Note) :
    (bot.note label n).notes = bot.notes ++ label.toList.map fun l => (l, n) := by
  cases label
  · exact (List.append_nil _).symm
  · rfl

/-- What registering a mod without companions does. -/
theorem register_eq (bot : Bot β) {m : BotMod β} (halone : m.companions = []) :
    bot.register m =
      if bot.registry.refuses bot.settings.duplicateMods m = true then
        (bot, .error (.duplicate m.name))
      else match m.failure with
        | some reason => (bot.note m.label .started, .error (.init m.name reason))
        | none => ({ bot.note m.label .started with registry := bot.registry.bind m }, .ok ()) := by
  rcases m with ⟨name, label, companions, failure, listener, action⟩
  simp only at halone
  subst halone
  rw [register]
  split
  · rfl
  · cases failure with
    | some reason => rfl
    | none => simp only [registerCompanions, note_registry]

/-- It is refused with nothing done, or starts up and is entered unless it
fails. -/
theorem register_cases (bot : Bot β) {m : BotMod β} (halone : m.companions = []) :
    (bot.registry.refuses bot.settings.duplicateMods m = true ∧
      bot.register m = (bot, .error (.duplicate m.name))) ∨
    (bot.registry.refuses bot.settings.duplicateMods m = false ∧
      ((∃ reason, m.failure = some reason ∧
          bot.register m = (bot.note m.label .started, .error (.init m.name reason))) ∨
        (m.failure = none ∧
          bot.register m =
            ({ bot.note m.label .started with registry := bot.registry.bind m }, .ok ())))) := by
  rw [bot.register_eq halone]
  cases bot.registry.refuses bot.settings.duplicateMods m with
  | true => exact .inl ⟨rfl, rfl⟩
  | false =>
      cases m.failure with
      | some reason => exact .inr ⟨rfl, .inl ⟨reason, rfl, rfl⟩⟩
      | none => exact .inr ⟨rfl, .inr ⟨rfl, rfl⟩⟩

/-- Registering a mod without companions changes no settings. -/
theorem register_settings (bot : Bot β) {m : BotMod β} (halone : m.companions = []) :
    (bot.register m).1.settings = bot.settings := by
  rcases bot.register_cases halone with ⟨-, h⟩ | ⟨-, ⟨reason, -, h⟩ | ⟨-, h⟩⟩ <;> rw [h]
  · exact note_settings bot m.label .started
  · exact note_settings bot m.label .started

end Bot

/-! ## Registrations in order -/

/-- A registration, with the bot before and after it. -/
structure Registration (β : Type) where
  before : Bot β
  mod : BotMod β
  after : Bot β
  result : Except RegistryError Unit

/-- Whether the mod was refused because its action name is taken. -/
def Registration.Refused (c : Registration β) : Prop := ∃ name, c.result = .error (.duplicate name)

namespace Bot

/-- The registrations of mods in order, each from where the one before left
the bot. -/
def registrations : List (BotMod β) → Bot β → List (Registration β)
  | [], _ => []
  | m :: rest, bot =>
    ⟨bot, m, (bot.register m).1, (bot.register m).2⟩ :: registrations rest (bot.register m).1

/-- The mods whose registration succeeded, in order. -/
def accepted (calls : List (Registration β)) : List (BotMod β) :=
  (calls.filter (·.result.isOk)).map (·.mod)

theorem accepted_cons (c : Registration β) (calls : List (Registration β)) :
    accepted (c :: calls) = (if c.result.isOk then [c.mod] else []) ++ accepted calls := by
  rw [accepted, List.filter_cons]
  split <;> rfl

/-- Each registration is of one of the mods and under the same settings. -/
theorem mem_registrations {mods : List (BotMod β)} {bot : Bot β}
    (halone : ∀ m ∈ mods, m.companions = []) {c : Registration β}
    (h : c ∈ registrations mods bot) :
    c.mod ∈ mods ∧ c.before.settings = bot.settings ∧
      c.before.register c.mod = (c.after, c.result) := by
  induction mods generalizing bot with
  | nil => exact absurd h List.not_mem_nil
  | cons m rest ih =>
      rcases List.mem_cons.1 h with rfl | h
      · exact ⟨List.mem_cons_self, rfl, rfl⟩
      · rcases ih (fun k hk => halone k (List.mem_cons_of_mem m hk)) h with
          ⟨hmem, hsettings, hcall⟩
        exact ⟨List.mem_cons_of_mem m hmem,
          hsettings.trans (bot.register_settings (halone m List.mem_cons_self)), hcall⟩

theorem mem_accepted {calls : List (Registration β)} {m : BotMod β} :
    m ∈ accepted calls ↔ ∃ c ∈ calls, c.result = .ok () ∧ c.mod = m := by
  have hok : ∀ c : Registration β, c.result.isOk = true ↔ c.result = .ok () := by
    intro c
    cases c.result <;> simp [Except.isOk, Except.toBool]
  simp only [accepted, List.mem_map, List.mem_filter, hok, and_assoc]

/-- The number that is returned counts the accepted mods. -/
theorem registerAll_count (mods : List (BotMod β)) (bot : Bot β) :
    (bot.registerAll mods).2 = (accepted (registrations mods bot)).length := by
  induction mods generalizing bot with
  | nil => rfl
  | cons m rest ih =>
      rw [registrations, accepted_cons, List.length_append, ← ih, registerAll]
      rcases bot.register m with ⟨after, result⟩
      cases result <;> rfl

end Bot

/-! ## What the accepted mods determine -/

/-- Which of several mods that act under one name handles it. -/
def DuplicatePolicy.choose : DuplicatePolicy → List (BotMod β) → Option (BotMod β)
  | .overwrite, mods => mods.getLast?
  | .reject, mods => mods.head?

namespace Registry

/-- A registry is determined by the mods that were accepted under a policy. -/
structure Holds (policy : DuplicatePolicy) (kept : List (BotMod β)) (r : Registry β) : Prop where
  listeners : ∀ n, r.listenersOf n = kept.filter fun m => m.listener.isSome && m.name == n
  action : ∀ n, r.resolve? n = policy.choose (kept.filter fun m => m.action.isSome && m.name == n)

theorem holds_empty (policy : DuplicatePolicy) : Holds policy [] (empty : Registry β) where
  listeners _ := rfl
  action n := by cases policy <;> exact Dict.get?_empty n

/-- An accepted mod joins those that determine a registry. -/
theorem Holds.bind {policy : DuplicatePolicy} {kept : List (BotMod β)} {r : Registry β}
    {m : BotMod β} (h : Holds policy kept r) (hfree : ¬ r.refuses policy m) :
    Holds policy (kept ++ [m]) (r.bind m) where
  listeners n := by
    rw [listenersOf_bind, h.listeners, List.filter_append]
    congr 1
    simp [List.filter_cons]
  action n := by
    rw [resolve?_bind, List.filter_append]
    by_cases hown : m.action.isSome ∧ n = m.name
    · rcases hown with ⟨hacts, rfl⟩
      have hjoins : [m].filter (fun k => k.action.isSome && k.name == m.name) = [m] := by
        simp [hacts]
      rw [if_pos ⟨hacts, rfl⟩, hjoins]
      cases policy with
      | overwrite => exact List.getLast?_concat.symm
      | reject =>
          -- The name is free, so nothing before the mod acts under it.
          have hnone : r.resolve? m.name = none := by
            rw [refuses_iff] at hfree
            simpa [hacts] using hfree
          rw [h.action] at hnone
          rw [DuplicatePolicy.choose, List.head?_append, show List.head? _ = none from hnone]
          rfl
    · have hapart : [m].filter (fun k => k.action.isSome && k.name == n) = [] := by
        rw [List.filter_cons_of_neg, List.filter_nil]
        simp only [Bool.and_eq_true, beq_iff_eq]
        exact fun h => hown ⟨h.1, h.2.symm⟩
      rw [if_neg hown, hapart, List.append_nil, h.action]

end Registry

namespace Bot

/-- A registration adds the mod to those that determine the registry if it
succeeds, and changes nothing otherwise. -/
theorem holds_register {bot : Bot β} {m : BotMod β} {kept : List (BotMod β)}
    (halone : m.companions = []) (h : bot.registry.Holds bot.settings.duplicateMods kept) :
    (bot.register m).1.registry.Holds bot.settings.duplicateMods
      (kept ++ if (bot.register m).2.isOk then [m] else []) := by
  rcases bot.register_cases halone with ⟨-, hcall⟩ | ⟨hfree, ⟨reason, -, hcall⟩ | ⟨-, hcall⟩⟩ <;>
    rw [hcall]
  -- Neither a refusal nor a failure adds anything.
  · show bot.registry.Holds _ (kept ++ [])
    rwa [List.append_nil]
  · show (bot.note m.label .started).registry.Holds _ (kept ++ [])
    rwa [List.append_nil, note_registry]
  · exact h.bind (by rw [hfree]; exact Bool.false_ne_true)

/-- The registry is determined by the mods that were accepted before and those
that are accepted from there on. -/
theorem holds_registerAll_append {mods kept : List (BotMod β)} {bot : Bot β}
    (halone : ∀ m ∈ mods, m.companions = [])
    (h : bot.registry.Holds bot.settings.duplicateMods kept) :
    (bot.registerAll mods).1.registry.Holds bot.settings.duplicateMods
      (kept ++ accepted (registrations mods bot)) := by
  induction mods generalizing bot kept with
  | nil => rwa [registrations, accepted, List.filter_nil, List.map_nil, List.append_nil]
  | cons m rest ih =>
      have hm := halone m List.mem_cons_self
      have hstep := holds_register hm h
      rw [registerAll, registrations, accepted_cons, ← List.append_assoc]
      rw [← bot.register_settings hm] at hstep ⊢
      exact ih (fun k hk => halone k (List.mem_cons_of_mem m hk)) hstep

/-- The registry is determined by the accepted mods. -/
theorem holds_registerAll {mods : List (BotMod β)} {bot : Bot β} (hempty : bot.registry = .empty)
    (halone : ∀ m ∈ mods, m.companions = []) :
    (bot.registerAll mods).1.registry.Holds bot.settings.duplicateMods
      (accepted (registrations mods bot)) := by
  have hnothing : bot.registry.Holds bot.settings.duplicateMods [] := by
    rw [hempty]
    exact Registry.holds_empty _
  exact holds_registerAll_append halone hnothing

/-! ## What each registration does -/

section Registration

variable {c : Registration β} (halone : c.mod.companions = [])
  (hcall : c.before.register c.mod = (c.after, c.result))
include halone hcall

/-- The ways a registration can go, with what it leaves. -/
theorem call_cases :
    (c.before.registry.refuses c.before.settings.duplicateMods c.mod = true ∧
      c.after = c.before ∧ c.result = .error (.duplicate c.mod.name)) ∨
    (c.before.registry.refuses c.before.settings.duplicateMods c.mod = false ∧
      ((∃ reason, c.mod.failure = some reason ∧
          c.after = c.before.note c.mod.label .started ∧
          c.result = .error (.init c.mod.name reason)) ∨
        (c.mod.failure = none ∧
          c.after = { c.before.note c.mod.label .started with
            registry := c.before.registry.bind c.mod } ∧
          c.result = .ok ()))) := by
  simpa only [hcall, Prod.mk.injEq] using c.before.register_cases halone

/-- A mod is refused exactly if duplicates are and its action name is taken. -/
theorem refused_iff :
    c.Refused ↔ c.before.registry.refuses c.before.settings.duplicateMods c.mod = true := by
  rcases call_cases halone hcall with
    ⟨hrefuses, -, hresult⟩ | ⟨hfree, ⟨reason, -, -, hresult⟩ | ⟨-, -, hresult⟩⟩
  · exact ⟨fun _ => hrefuses, fun _ => ⟨_, hresult⟩⟩
  · simp [Registration.Refused, hresult, hfree]
  · simp [Registration.Refused, hresult, hfree]

/-- A refused mod leaves no trace: it neither starts up nor listens. -/
theorem after_of_refused (hrefused : c.Refused) : c.after = c.before := by
  rw [refused_iff halone hcall] at hrefused
  rcases call_cases halone hcall with ⟨-, hafter, -⟩ | ⟨hfree, -⟩
  · exact hafter
  · exact absurd (hfree.symm.trans hrefused) Bool.false_ne_true

/-- A mod that is not refused starts up once and is accepted unless it fails. -/
theorem started_of_not_refused (hrefused : ¬ c.Refused) :
    c.after.notes = c.before.notes ++ (c.mod.label.toList.map fun l => (l, .started)) ∧
      c.result = match c.mod.failure with
        | some reason => .error (.init c.mod.name reason)
        | none => .ok () := by
  rw [refused_iff halone hcall] at hrefused
  rcases call_cases halone hcall with
    ⟨hrefuses, -⟩ | ⟨-, ⟨reason, hfailure, hafter, hresult⟩ | ⟨hfailure, hafter, hresult⟩⟩
  · exact absurd hrefuses hrefused
  all_goals
    rw [hafter, hresult, hfailure]
    exact ⟨note_notes c.before c.mod.label .started, rfl⟩

/-- A mod that fails to start up leaves the whole registry as it was. -/
theorem registry_after_of_failure (hfailure : c.mod.failure.isSome) :
    c.after.registry = c.before.registry := by
  rcases call_cases halone hcall with
    ⟨-, hafter, -⟩ | ⟨-, ⟨reason, -, hafter, -⟩ | ⟨hnone, -, -⟩⟩
  · rw [hafter]
  · rw [hafter, note_registry]
  · rw [hnone] at hfailure
    cases hfailure

/-- A registration enters the mod whole or changes no table. -/
theorem registry_after :
    c.after.registry = c.before.registry ∨
      c.after.registry = c.before.registry.bind c.mod := by
  rcases call_cases halone hcall with
    ⟨-, hafter, -⟩ | ⟨-, ⟨reason, -, hafter, -⟩ | ⟨-, hafter, -⟩⟩ <;> rw [hafter]
  · exact .inl rfl
  · exact .inl (note_registry c.before c.mod.label .started)
  · exact .inr rfl

/-- A mod that does not listen leaves all listeners as they were. -/
theorem listenersOf_after (hlistener : c.mod.listener = none) (n : String) :
    c.after.registry.listenersOf n = c.before.registry.listenersOf n := by
  rcases registry_after halone hcall with h | h
  · rw [h]
  · simp [h, hlistener]

/-- A mod that does not act leaves all handlers as they were. -/
theorem resolve?_after (haction : c.mod.action = none) (n : String) :
    c.after.registry.resolve? n = c.before.registry.resolve? n := by
  rcases registry_after halone hcall with h | h
  · rw [h]
  · simp [h, haction]

end Registration

end Bot

/-! ## One table without the other -/

namespace BotMod

/-- A mod that no longer listens. -/
def withoutListener (m : BotMod β) : BotMod β := { m with listener := none }

/-- A mod that no longer acts. -/
def withoutAction (m : BotMod β) : BotMod β := { m with action := none }

end BotMod

namespace Bot

/-- Two bots that agree on all actions, though mods listen to the first only. -/
structure Muffled (bot other : Bot β) : Prop where
  policy : other.settings.duplicateMods = bot.settings.duplicateMods
  action : ∀ n, other.registry.resolve? n = (bot.registry.resolve? n).map BotMod.withoutListener

variable {bot other : Bot β}

theorem Muffled.refuses_eq (h : Muffled bot other) (m : BotMod β) :
    other.registry.refuses other.settings.duplicateMods m.withoutListener =
      bot.registry.refuses bot.settings.duplicateMods m := by
  rw [Registry.refuses, Registry.refuses, h.policy, h.action, Option.isSome_map]
  rfl

/-- Whether it listens makes no difference to how a mod's registration ends. -/
theorem Muffled.register (h : Muffled bot other) {m : BotMod β} (halone : m.companions = []) :
    (other.register m.withoutListener).2 = (bot.register m).2 ∧
      Muffled (bot.register m).1 (other.register m.withoutListener).1 := by
  rw [bot.register_eq halone, other.register_eq (m := m.withoutListener) halone, h.refuses_eq m]
  cases bot.registry.refuses bot.settings.duplicateMods m with
  | true => exact ⟨rfl, h⟩
  | false =>
      have hsame : m.withoutListener.failure = m.failure := rfl
      rw [hsame]
      cases m.failure with
      | some reason => exact ⟨rfl, by simpa using h.policy, by simpa using h.action⟩
      | none =>
          refine ⟨rfl, by simpa using h.policy, fun n => ?_⟩
          -- The new handler differs in its listener only, as all others do.
          have hbound : ((bot.registry.bind m).resolve? n).map BotMod.withoutListener =
              (other.registry.bind m.withoutListener).resolve? n := by
            rw [Registry.resolve?_bind, Registry.resolve?_bind, h.action,
              apply_ite (Option.map BotMod.withoutListener)]
            rfl
          exact hbound.symm

/-- No result depends on who listens, and no handler either. -/
theorem Muffled.registerAll (h : Muffled bot other) {mods : List (BotMod β)}
    (halone : ∀ m ∈ mods, m.companions = []) :
    (registrations (mods.map .withoutListener) other).map (·.result) =
        (registrations mods bot).map (·.result) ∧
      Muffled (bot.registerAll mods).1 (other.registerAll (mods.map .withoutListener)).1 := by
  induction mods generalizing bot other with
  | nil => exact ⟨rfl, h⟩
  | cons m rest ih =>
      rcases h.register (halone m List.mem_cons_self) with ⟨hresult, hafter⟩
      rcases ih hafter fun k hk => halone k (List.mem_cons_of_mem m hk) with ⟨hresults, hlast⟩
      refine ⟨?_, hlast⟩
      simp only [List.map_cons, registrations, hresult, hresults]

theorem muffled_of_empty (h : bot.registry = .empty) : Muffled bot bot where
  policy := rfl
  action n := by
    rw [h, Registry.resolve?, Registry.empty, Dict.get?_empty]
    rfl

/-- Mods that neither fail nor act are all accepted. -/
theorem accepted_of_idle {mods : List (BotMod β)} (bot : Bot β)
    (halone : ∀ m ∈ mods, m.companions = []) (hfailure : ∀ m ∈ mods, m.failure = none)
    (haction : ∀ m ∈ mods, m.action = none) : accepted (registrations mods bot) = mods := by
  induction mods generalizing bot with
  | nil => rfl
  | cons m rest ih =>
      have hm : bot.registry.refuses bot.settings.duplicateMods m = false := by
        rw [Registry.refuses, haction m List.mem_cons_self]
        rfl
      have hok : (bot.register m).2 = .ok () := by
        rcases bot.register_cases (halone m List.mem_cons_self) with
          ⟨h, -⟩ | ⟨-, ⟨reason, h, -⟩ | ⟨-, h⟩⟩
        · exact absurd (hm.symm.trans h) Bool.false_ne_true
        · cases (hfailure m List.mem_cons_self).symm.trans h
        · rw [h]
      rw [registrations, accepted_cons, hok, ih _ (fun k hk => halone k (List.mem_cons_of_mem m hk))
        (fun k hk => hfailure k (List.mem_cons_of_mem m hk))
        (fun k hk => haction k (List.mem_cons_of_mem m hk))]
      rfl

/-- The listeners are those that the accepted mods would leave if none of them
acted. -/
theorem listenersOf_withoutAction {mods : List (BotMod β)} (hempty : bot.registry = .empty)
    (halone : ∀ m ∈ mods, m.companions = []) (n : String) :
    let kept := accepted (registrations mods bot)
    (bot.registerAll (kept.map .withoutAction)).1.registry.listenersOf n =
      ((bot.registerAll mods).1.registry.listenersOf n).map .withoutAction := by
  intro kept
  have hkept : ∀ m ∈ kept, m.companions = [] ∧ m.failure = none := by
    intro m hm
    rcases mem_accepted.1 hm with ⟨c, hc, hok, rfl⟩
    rcases mem_registrations halone hc with ⟨hmem, -, hcall⟩
    refine ⟨halone _ hmem, ?_⟩
    rcases call_cases (halone _ hmem) hcall with
      ⟨-, -, hresult⟩ | ⟨-, ⟨reason, -, -, hresult⟩ | ⟨hnone, -, -⟩⟩
    · cases hok.symm.trans hresult
    · cases hok.symm.trans hresult
    · exact hnone
  have hidle : accepted (registrations (kept.map .withoutAction) bot) = kept.map .withoutAction := by
    refine accepted_of_idle bot ?_ ?_ ?_ <;> intro m hm <;>
      rcases List.mem_map.1 hm with ⟨k, hk, rfl⟩
    · exact (hkept k hk).1
    · exact (hkept k hk).2
    · rfl
  have hidleAlone : ∀ m ∈ kept.map BotMod.withoutAction, m.companions = [] := by
    intro m hm
    rcases List.mem_map.1 hm with ⟨k, hk, rfl⟩
    exact (hkept k hk).1
  rw [(holds_registerAll hempty hidleAlone).listeners, (holds_registerAll hempty halone).listeners,
    hidle, List.filter_map]
  rfl

/-! ## Histories -/

/-- What any history of registrations leaves and does, from an empty registry.
The listeners of a name are the accepted mods that listen under it, and its
handler is chosen by the policy from the accepted mods that act under it. A
registration is refused exactly if duplicates are and the action name is taken,
and then nothing happens; a mod that is not refused starts up once, and enters
nothing if it fails. Neither table affects the other. -/
theorem registry_of_history (bot : Bot β) (mods : List (BotMod β))
    (hempty : bot.registry = .empty) (halone : ∀ m ∈ mods, m.companions = []) :
    let calls := registrations mods bot
    let kept := accepted calls
    let last := (bot.registerAll mods).1.registry
    (∀ n, last.listenersOf n = kept.filter fun m => m.listener.isSome && m.name == n) ∧
    (∀ n, last.resolve? n = bot.settings.duplicateMods.choose
      (kept.filter fun m => m.action.isSome && m.name == n)) ∧
    (bot.registerAll mods).2 = kept.length ∧
    (∀ c ∈ calls,
      (c.Refused ↔ bot.settings.duplicateMods = .reject ∧ c.mod.action.isSome ∧
        (c.before.registry.resolve? c.mod.name).isSome) ∧
      (c.Refused → c.after = c.before) ∧
      (¬ c.Refused →
        c.after.notes = c.before.notes ++ (c.mod.label.toList.map fun l => (l, .started)) ∧
        c.result = match c.mod.failure with
          | some reason => .error (.init c.mod.name reason)
          | none => .ok ()) ∧
      (c.mod.failure.isSome → c.after.registry = c.before.registry) ∧
      (c.mod.listener = none →
        ∀ n, c.after.registry.listenersOf n = c.before.registry.listenersOf n) ∧
      (c.mod.action = none →
        ∀ n, c.after.registry.resolve? n = c.before.registry.resolve? n)) ∧
    (registrations (mods.map .withoutListener) bot).map (·.result) = calls.map (·.result) ∧
    (∀ n, (bot.registerAll (mods.map .withoutListener)).1.registry.resolve? n =
      (last.resolve? n).map .withoutListener) ∧
    (∀ n, (bot.registerAll (kept.map .withoutAction)).1.registry.listenersOf n =
      (last.listenersOf n).map .withoutAction) := by
  intro calls kept last
  have hlast := holds_registerAll hempty halone
  rcases (muffled_of_empty hempty).registerAll halone with ⟨hresults, hmuffled⟩
  refine ⟨hlast.listeners, hlast.action, registerAll_count mods bot, fun c hc => ?_, hresults,
    hmuffled.action, listenersOf_withoutAction hempty halone⟩
  rcases mem_registrations halone hc with ⟨hmem, hsettings, hcall⟩
  have hc := halone c.mod hmem
  refine ⟨?_, after_of_refused hc hcall, started_of_not_refused hc hcall,
    registry_after_of_failure hc hcall, listenersOf_after hc hcall, resolve?_after hc hcall⟩
  rw [refused_iff hc hcall, hsettings, Registry.refuses_iff]

/-! ### A history -/

/-- A bot without mods that refuses duplicates. -/
def strict : Bot Nat :=
  load ⟨{ Settings.standard with duplicateMods := .reject }, .null, [], []⟩ .empty
    (fun _ _ _ => none) id

/-- Mods that share names, the last but one of which fails to start up. -/
def namesakes : List (BotMod Nat) :=
  [⟨"greet", some "first", [], none, some 0, some 0⟩,
    ⟨"greet", some "second", [], none, some 1, some 1⟩,
    ⟨"greet", some "third", [], none, some 2, none⟩,
    ⟨"late", some "fourth", [], some "no key", some 3, some 3⟩,
    ⟨"late", some "fifth", [], none, none, some 4⟩]

/-- The second is refused and does not listen, the third listens under the
taken name, and the fourth leaves its name to the fifth. -/
theorem registry_of_namesakes :
    strict.registry = .empty ∧ (∀ m ∈ namesakes, m.companions = []) ∧
    (registrations namesakes strict).map (·.result) =
      [.ok (), .error (.duplicate "greet"), .ok (), .error (.init "late" "no key"), .ok ()] ∧
    ((strict.registerAll namesakes).1.registry.listenersOf "greet").map (·.label) =
      [some "first", some "third"] ∧
    (strict.registerAll namesakes).1.registry.listenersOf "late" = [] ∧
    ((strict.registerAll namesakes).1.registry.resolve? "greet").map (·.label) =
      some (some "first") ∧
    ((strict.registerAll namesakes).1.registry.resolve? "late").map (·.label) =
      some (some "fifth") ∧
    (strict.registerAll namesakes).2 = 3 := by
  have hempty : strict.registry = .empty := rfl
  have halone : ∀ m ∈ namesakes, m.companions = [] := by
    simp only [namesakes, List.forall_mem_cons, List.not_mem_nil, false_implies, implies_true,
      and_self]
  rcases registry_of_history strict namesakes hempty halone with
    ⟨hlisteners, haction, hcount, -⟩
  refine ⟨hempty, halone, rfl, ?_, ?_, ?_, ?_, ?_⟩
  · rw [hlisteners]
    rfl
  · rw [hlisteners]
    rfl
  · rw [haction]
    rfl
  · rw [haction]
    rfl
  · rw [hcount]
    rfl

end Bot

end ActionChain
