import ActionChain.Guild.Hub
import ActionChain.Proofs.Dispatch.Handled
import ActionChain.Proofs.Narration
import Mathlib.Data.Multiset.AddSub

/-!
# What a Pass Has in Mind

A pass is narrated: it tells which lists it was given, which guilds it recorded
and for which guilds it starts the event. Without what it tells it is the pass
itself (`Pass.plain_narratedAttempt`).

Recording a guild and starting its event are far apart. In between the pass looks
at the rest of the list and runs the chains of other guilds, and other passes do
the same. What carries over is what the pass has in mind: the list it was given
last and the guilds it owes the event. Following the pass cut by cut, whatever
the cuts find, a guild comes to be owed only when the pass itself adds it to the
record, and a guild that is owed gets its event before the attempt is over, no
matter how its chains end.

## Main definitions

* `InitEntry`: what is told of passes.
* `Pass.narratedAttempt`: an attempt that tells it.
* `Agenda`: what a pass has in mind.
* `Mindful`: doing what is in mind and nothing else.

## Theorems

* `Pass.plain_narratedAttempt`: a narrated attempt is an attempt.
* `Pass.mindful_look`, `Pass.mindful_greet`: how a guild comes to be owed, and
  how it ceases to be.
* `Pass.mindful_attempt`: an attempt leaves nothing owed.
-/

namespace ActionChain

variable {β κ σ α : Type}

/-- What is told of initialization passes. -/
inductive InitEntry where
  /-- A directory answered with a list. -/
  | listed (guilds : List GuildStatus)
  /-- A pass recorded a guild that was not recorded before. -/
  | recorded (id : UInt64)
  /-- The event for a guild was started. -/
  | started (g : Guild)

/-! ## Narrated passes -/

namespace Pass

/-- Looks over a list and tells which guilds it records. -/
def narratedLook : List GuildStatus → Narrated InitEntry (Bot β) PollOutcome
  | [] => pure ⟨[], []⟩
  | s :: rest => do
    let known ← Narrated.silent (Routine.read fun bot => decide (s.id ∈ bot.loadedGuilds))
    if known then narratedLook rest
    else if !s.available then
      let outcome ← narratedLook rest
      pure { outcome with pending := s.id :: outcome.pending }
    else
      let isNew ← Narrated.atomic
        (fun bot =>
          let (loadedGuilds, isNew) := LoadedGuilds.mark bot.loadedGuilds s.id
          ({ bot with loadedGuilds }, isNew))
        (fun bot => if s.id ∈ bot.loadedGuilds then [] else [.recorded s.id])
      let outcome ← narratedLook rest
      if isNew then pure { outcome with initialized := s.guild :: outcome.initialized }
      else pure outcome

/-- Runs the chains for guilds and tells of each that they start. -/
def narratedGreet [Conduct β] : List Guild → Narrated InitEntry (Bot β) Unit
  | [] => pure ()
  | g :: rest => do
    Narrated.say (.started g)
    let _ ← Narrated.silent (Dispatch.runEvent EventName.botInitialization (.guild g))
    narratedGreet rest

/-- An attempt that tells what it was listed and what came of it. -/
def narratedAttempt [Conduct β] (desk : Desk σ β) (listing : Routine σ (List GuildStatus))
    (polls : Nat) : Narrated InitEntry σ (Nat ⊕ InitReport) := do
  let guilds ← Narrated.silent listing
  Narrated.say (.listed guilds)
  let outcome ← (narratedLook guilds).within desk.get desk.put
  let polls := polls + 1
  (narratedGreet outcome.initialized).within desk.get desk.put
  let policy ← Narrated.silent (Routine.read fun s => (desk.get s).settings.guildPoll)
  if outcome.pending.isEmpty then pure (.inr (.ready polls))
  else if exhausted policy polls then pure (.inr (.gaveUp polls outcome.pending))
  else do
    Narrated.silent (Routine.pause policy.interval)
    pure (.inl polls)

theorem plain_narratedLook (guilds : List GuildStatus) :
    (narratedLook (β := β) guilds).plain = look guilds := by
  induction guilds with
  | nil => rfl
  | cons s rest ih =>
      unfold narratedLook look
      simp only [Narrated.plain_bind, Narrated.plain_silent, apply_ite Narrated.plain,
        Narrated.plain_atomic, Narrated.plain_pure, ih]

theorem plain_narratedGreet [Conduct β] (guilds : List Guild) :
    (narratedGreet (β := β) guilds).plain = greet guilds := by
  induction guilds with
  | nil => rfl
  | cons g rest ih =>
      unfold narratedGreet greet
      simp only [Narrated.plain_bind, Narrated.plain_silent, Narrated.plain_say, pure_bind, ih]

/-- A narrated attempt is an attempt. -/
theorem plain_narratedAttempt [Conduct β] (desk : Desk σ β)
    (listing : Routine σ (List GuildStatus)) (polls : Nat) :
    (narratedAttempt desk listing polls).plain = attempt desk listing polls := by
  unfold narratedAttempt attempt Desk.lift
  simp only [Narrated.plain_bind, Narrated.plain_silent, Narrated.plain_say, Narrated.plain_within,
    Narrated.plain_pure, apply_ite Narrated.plain, plain_narratedLook, plain_narratedGreet,
    pure_bind]

end Pass

/-! ## What a pass keeps in mind -/

/-- What a pass keeps in mind: the list it was given last, and the guilds it has
recorded and owes the event. -/
structure Agenda where
  heard : List GuildStatus
  owed : Multiset Guild

/-- A narrated routine that does what it has in mind. It loses no record. It
records a guild only if it finds it available on the list it was given and is
the one to add it, tells of that at once, and owes the event from then on. It
starts the event only for a guild it owes it. The result and what is left in mind
are as wanted. -/
def Mindful (loaded : σ → List UInt64) (Q : α → Agenda → Prop) :
    Narrated InitEntry σ α → Agenda → Prop
  | .done a, mind => Q a mind
  | .tell (.listed guilds) next, mind => Mindful loaded Q next ⟨guilds, mind.owed⟩
  | .tell (.recorded _) _, _ => False
  | .tell (.started g) next, mind =>
    ∃ owed, mind.owed = g ::ₘ owed ∧ Mindful loaded Q next ⟨mind.heard, owed⟩
  | .act change tells next, mind => ∀ s,
    loaded s ⊆ loaded (change s) ∧
      ((tells s = [] ∧ Mindful loaded Q (next s) mind) ∨
        ∃ status ∈ mind.heard, status.available = true ∧
          status.id ∉ loaded s ∧ status.id ∈ loaded (change s) ∧
          tells s = [.recorded status.id] ∧
          Mindful loaded Q (next s) ⟨mind.heard, status.guild ::ₘ mind.owed⟩)
  | .sleep _ next, mind => Mindful loaded Q next mind

namespace Mindful

variable {γ τ : Type} {loaded : σ → List UInt64} {Q : α → Agenda → Prop} {T : γ → Agenda → Prop}

theorem bind {r : Narrated InitEntry σ α} {f : α → Narrated InitEntry σ γ} {mind : Agenda}
    (h : Mindful loaded Q r mind) (hf : ∀ a mind, Q a mind → Mindful loaded T (f a) mind) :
    Mindful loaded T (r >>= f) mind := by
  induction r generalizing mind with
  | done a => exact hf a mind h
  | tell entry next ih =>
      cases entry with
      | listed guilds => exact ih h
      | recorded id => exact h.elim
      | started g =>
          rcases h with ⟨owed, howed, h⟩
          exact ⟨owed, howed, ih h⟩
  | act change tells next ih =>
      intro s
      rcases h s with ⟨hsubset, ⟨htells, h⟩ | ⟨status, hheard, havailable, hnew, hin, htells, h⟩⟩
      · exact ⟨hsubset, .inl ⟨htells, ih s h⟩⟩
      · exact ⟨hsubset, .inr ⟨status, hheard, havailable, hnew, hin, htells, ih s h⟩⟩
  | sleep ms next ih => exact ih h

/-- A routine of which nothing is told has nothing in mind. -/
theorem silent {r : Routine σ α} (h : r.Keeps fun s t => loaded s ⊆ loaded t) {mind : Agenda}
    (hQ : ∀ a, Q a mind) : Mindful loaded Q (.silent r) mind := by
  induction h with
  | done a => exact hQ a
  | act hchange _ ih => exact fun s => ⟨hchange s, .inl ⟨rfl, ih s⟩⟩
  | sleep _ ih => exact ih

/-- What is silent changes nothing about what is in mind. -/
theorem silent_bind {r : Routine σ α} {f : α → Narrated InitEntry σ γ} {mind : Agenda}
    (h : r.Keeps fun s t => loaded s ⊆ loaded t) (hf : ∀ a, Mindful loaded T (f a) mind) :
    Mindful loaded T (Narrated.silent r >>= f) mind := by
  refine (silent (Q := fun _ left => mind = left) h fun _ => rfl).bind ?_
  rintro a _ rfl
  exact hf a

theorem listed_bind {guilds : List GuildStatus} {f : Unit → Narrated InitEntry σ γ}
    {mind : Agenda} (hf : Mindful loaded T (f ()) ⟨guilds, mind.owed⟩) :
    Mindful loaded T (Narrated.say (.listed guilds) >>= f) mind :=
  hf

theorem started_bind {g : Guild} {f : Unit → Narrated InitEntry σ γ} {heard : List GuildStatus}
    {owed : Multiset Guild} (hf : Mindful loaded T (f ()) ⟨heard, owed⟩) :
    Mindful loaded T (Narrated.say (.started g) >>= f) ⟨heard, g ::ₘ owed⟩ :=
  ⟨owed, rfl, hf⟩

theorem within {get : τ → σ} {put : σ → τ → τ} {r : Narrated InitEntry σ α} {mind : Agenda}
    (h : Mindful loaded Q r mind) (get_put : ∀ s t, get (put s t) = s) :
    Mindful (fun t => loaded (get t)) Q (r.within get put) mind := by
  induction r generalizing mind with
  | done a => exact h
  | tell entry next ih =>
      cases entry with
      | listed guilds => exact ih h
      | recorded id => exact h.elim
      | started g =>
          rcases h with ⟨owed, howed, h⟩
          exact ⟨owed, howed, ih h⟩
  | act change tells next ih =>
      intro t
      simp only [get_put]
      rcases h (get t) with
        ⟨hsubset, ⟨htells, h⟩ | ⟨status, hheard, havailable, hnew, hin, htells, h⟩⟩
      · exact ⟨hsubset, .inl ⟨htells, ih _ h⟩⟩
      · exact ⟨hsubset, .inr ⟨status, hheard, havailable, hnew, hin, htells, ih _ h⟩⟩
  | sleep ms next ih => exact ih h

end Mindful

/-! ## Passes are mindful -/

/-- No record of a guild is lost. -/
def Bot.Retains (before after : Bot β) : Prop := before.loadedGuilds ⊆ after.loadedGuilds

instance : Bot.Admits (Bot.Retains (β := β)) where
  of_handled h := by
    rw [h]
    exact fun _ hid => hid

namespace Pass

/-- Looking over guilds of the list that was heard leaves those that became
initialized owed. -/
theorem mindful_look {guilds : List GuildStatus} {mind : Agenda} (h : guilds ⊆ mind.heard) :
    Mindful Bot.loadedGuilds
      (fun outcome left => left = ⟨mind.heard, mind.owed + outcome.initialized⟩)
      (narratedLook (β := β) guilds) mind := by
  induction guilds generalizing mind with
  | nil =>
      show mind = _
      rw [Multiset.coe_nil, Multiset.add_zero]
  | cons s rest ih =>
      have hrest : rest ⊆ mind.heard := fun t ht => h (List.mem_cons_of_mem s ht)
      refine Mindful.silent_bind (Bot.Admits.keeps_read (R := Bot.Retains (β := β)) _)
        fun known => ?_
      split
      · exact ih hrest
      · split
        · refine (ih hrest).bind ?_
          rintro outcome _ rfl
          exact rfl
        · rename_i havailable
          have hmark : Mindful Bot.loadedGuilds
              (fun (isNew : Bool) left =>
                left = ⟨mind.heard, if isNew then s.guild ::ₘ mind.owed else mind.owed⟩)
              (Narrated.atomic
                (fun bot : Bot β =>
                  let (loadedGuilds, isNew) := LoadedGuilds.mark bot.loadedGuilds s.id
                  ({ bot with loadedGuilds }, isNew))
                (fun bot => if s.id ∈ bot.loadedGuilds then [] else [.recorded s.id])) mind := by
            intro bot
            refine ⟨LoadedGuilds.subset_mark bot.loadedGuilds s.id, ?_⟩
            -- Another pass may have recorded the guild since it was asked about.
            by_cases hknown : s.id ∈ bot.loadedGuilds
            · refine .inl ⟨if_pos hknown, ?_⟩
              simp [Mindful, LoadedGuilds.mark, hknown]
            · refine .inr ⟨s, h List.mem_cons_self, by simpa using havailable, hknown,
                LoadedGuilds.mem_mark bot.loadedGuilds s.id, if_neg hknown, ?_⟩
              simp [Mindful, LoadedGuilds.mark, hknown]
          refine hmark.bind ?_
          rintro isNew _ rfl
          have hothers :=
            @ih ⟨mind.heard, if isNew then s.guild ::ₘ mind.owed else mind.owed⟩ hrest
          refine hothers.bind ?_
          rintro outcome _ rfl
          cases isNew with
          | false => exact rfl
          | true =>
              show Agenda.mk _ _ = _
              simp only [if_true, ← Multiset.cons_coe, Multiset.add_cons, Multiset.cons_add]

variable [Conduct β] [Conduct.Keeps β Bot.Retains]

/-- The event is started for guilds that are owed it. -/
theorem mindful_greet (guilds : List Guild) (heard : List GuildStatus) :
    Mindful Bot.loadedGuilds (fun _ left => left = ⟨heard, 0⟩)
      (narratedGreet (β := β) guilds) ⟨heard, guilds⟩ := by
  induction guilds with
  | nil => exact rfl
  | cons g rest ih =>
      show Mindful _ _ _ ⟨heard, g ::ₘ (rest : Multiset Guild)⟩
      refine Mindful.started_bind ?_
      exact Mindful.silent_bind
        (Dispatch.keeps_runEvent (R := Bot.Retains (β := β)) _ _) fun _ => ih

/-- An attempt leaves no guild owed. -/
theorem mindful_attempt {listing : Routine (Hub β κ) (List GuildStatus)}
    (hlisting : listing.Keeps fun s t => s.bot.Retains t.bot) (polls : Nat)
    (heard : List GuildStatus) :
    Mindful (fun hub => hub.bot.loadedGuilds) (fun _ left => left.owed = 0)
      (narratedAttempt Hub.desk listing polls) ⟨heard, 0⟩ := by
  refine Mindful.silent_bind hlisting fun guilds => Mindful.listed_bind ?_
  have hlook : Mindful (fun hub : Hub β κ => hub.bot.loadedGuilds)
      (fun outcome left => left = ⟨guilds, outcome.initialized⟩)
      ((narratedLook guilds).within Hub.desk.get Hub.desk.put) ⟨guilds, 0⟩ := by
    have h := @mindful_look β guilds ⟨guilds, 0⟩ fun _ h => h
    simp only [Multiset.zero_add] at h
    exact h.within fun _ _ => rfl
  refine hlook.bind ?_
  rintro outcome _ rfl
  refine ((mindful_greet outcome.initialized guilds).within fun _ _ => rfl).bind ?_
  rintro _ _ rfl
  have hpolicy : (Routine.read fun hub : Hub β κ => hub.bot.settings.guildPoll).Keeps
      fun s t => s.bot.Retains t.bot :=
    .read _ fun _ _ h => h
  refine Mindful.silent_bind hpolicy fun policy => ?_
  split
  · exact rfl
  · split <;> exact rfl

end Pass

end ActionChain
