import ActionChain.Platform.Adapter
import ActionChain.Proofs.Dispatch.Steady
import ActionChain.Proofs.Guild.SingleFlight

/-!
# What an Attempt Does for a Guild

An attempt asks the directory, and the directory lists every guild that was
announced. From there on a guild is not lost sight of: the attempt finds it
recorded, records it, or counts it as pending, and an attempt with pending
guilds does not end a pass well. So, whatever others do meanwhile, an attempt
records an announced guild, or the pass goes on, or it gives up on that guild,
which only a bounded number of attempts makes it do (`Station.attains_attempt`).

## Main definitions

* `Station.Recording`: guilds are recorded, and the rest stays as it was.
* `Station.Loaded`, `Station.Announced`: a guild is recorded, or announced.
* `InitReport.Abandons`: a pass gave up on a guild.

## Theorems

* `Presence.mem_directory`: announced guilds are listed.
* `Pass.attains_look`: a listed guild is recorded or pending.
* `Station.keeps_attempt`: attempts do nothing but record guilds.
* `Station.attains_attempt`: what an attempt does for an announced guild.
-/

namespace ActionChain

variable {β : Type}

namespace Presence

/-- Announced guilds are listed, whatever the cache holds. -/
theorem mem_directory {p : Presence} {id : UInt64} (hid : id ≠ 0) (h : p.isAnnounced id = true) :
    ∃ s ∈ p.directory, s.id = id := by
  have hkey : id ∈ p.announced.keys :=
    Entries.mem_of_find?_ne_none (Option.isSome_iff_ne_none.1 h)
  have hlisted : id ∈ p.ids := by
    refine Entries.mem_of_find?_ne_none (Entries.find?_ofList_ne_none (e := (id, ())) ?_)
    refine List.mem_map.2 ⟨id, List.mem_filter.2 ⟨?_, by simpa using hid⟩, rfl⟩
    exact List.mem_append_right _ hkey
  refine ⟨p.status id, List.mem_map.2 ⟨id, hlisted, rfl⟩, ?_⟩
  unfold status
  split <;> rfl

theorem isAnnounced_announce (p : Presence) (id other : UInt64) :
    (p.announce id).isAnnounced other = (decide (other = id) || p.isAnnounced other) := by
  simp only [isAnnounced, announce, Dict.get?_insert]
  by_cases h : other = id <;> simp [h]

end Presence

/-! ## Looking over a list -/

namespace Pass

/-- The guild whose record is asked about is recorded already, unless it is
another or the answer is no. -/
theorem attains_known (id other : UInt64) :
    (Routine.read fun bot : Bot β => decide (other ∈ bot.loadedGuilds)).Attains
      (fun _ => True) (fun bot => id ∈ bot.loadedGuilds)
      (fun known => known = true → other ≠ id) := by
  refine .read fun bot _ hgoal hknown heq => hgoal ?_
  rw [← heq]
  exact of_decide_eq_true hknown

/-- The guild that is marked is recorded, unless it is another. -/
theorem attains_mark (id other : UInt64) :
    (Routine.atomic fun bot : Bot β =>
      let (loadedGuilds, isNew) := LoadedGuilds.mark bot.loadedGuilds other
      ({ bot with loadedGuilds }, isNew)).Attains
      (fun _ => True) (fun bot => id ∈ bot.loadedGuilds) (fun _ => other ≠ id) := by
  refine .atomic fun bot _ hgoal heq => hgoal ?_
  rw [← heq]
  exact LoadedGuilds.mem_mark bot.loadedGuilds other

/-- A guild on the list is recorded by the end of the look, or pending. -/
theorem attains_look {id : UInt64} {guilds : List GuildStatus} (h : ∃ s ∈ guilds, s.id = id) :
    (look (β := β) guilds).Attains (fun _ => True) (fun bot => id ∈ bot.loadedGuilds)
      (fun outcome => id ∈ outcome.pending) := by
  induction guilds with
  | nil =>
      rcases h with ⟨s, hs, -⟩
      cases hs
  | cons s rest ih =>
      have hrest (hne : s.id ≠ id) := ih (by
        rcases h with ⟨t, ht, hid⟩
        rcases List.mem_cons.1 ht with rfl | ht
        · exact absurd hid hne
        · exact ⟨t, ht, hid⟩)
      refine (attains_known id s.id).bind fun known hknown => ?_
      split
      · rename_i htrue
        exact hrest (hknown htrue)
      · split
        · -- Only here can the guild be the one looked at and still not be recorded.
          by_cases hs : s.id = id
          · refine (Routine.Attains.trivial _).bind fun outcome _ => .pure ?_
            exact List.mem_cons.2 (.inl hs.symm)
          · exact (hrest hs).bind fun outcome hmem => .pure (List.mem_cons_of_mem _ hmem)
        · refine (attains_mark id s.id).bind fun isNew hne => ?_
          refine (hrest hne).bind fun outcome hmem => ?_
          split <;> exact .pure hmem

/-- The event leaves the settings and the record of guilds alone. -/
theorem keeps_greet [Conduct β] [Conduct.Steady β] (guilds : List Guild) :
    (greet (β := β) guilds).Keeps Bot.Steady := by
  induction guilds with
  | nil => exact .pure _
  | cons g rest ih => exact (Dispatch.keeps_runEvent _ _).bind fun _ => ih

end Pass

/-! ## Attempts -/

/-- A pass gave up on a guild, as a bounded number of attempts makes it do. -/
def InitReport.Abandons (policy : GuildPoll) (id : UInt64) (report : InitReport) : Prop :=
  policy.maxAttempts ≠ none ∧ ∃ polls pending, report = .gaveUp polls pending ∧ id ∈ pending

namespace Station

/-- A guild is recorded as initialized. -/
def Loaded (id : UInt64) (s : Station β) : Prop := id ∈ s.bot.loadedGuilds

/-- A guild was announced. -/
def Announced (id : UInt64) (s : Station β) : Prop := s.surroundings.isAnnounced id = true

/-- The settings and the surroundings stay, and no guild that was recorded is
lost. -/
structure Recording (before after : Station β) : Prop where
  settings : after.bot.settings = before.bot.settings
  loaded : before.bot.loadedGuilds ⊆ after.bot.loadedGuilds
  surroundings : after.surroundings = before.surroundings

theorem Recording.refl (s : Station β) : Recording s s := ⟨rfl, fun _ h => h, rfl⟩

/-- What is dispatched does not even record. -/
theorem keeps_lift {α : Type} {r : Routine (Bot β) α} (h : r.Keeps Bot.Steady) :
    (lift r).Keeps Recording :=
  h.within fun _ _ hsteady => ⟨hsteady.settings, fun _ hid => hsteady.loadedGuilds ▸ hid, rfl⟩

/-- Looking over a list only adds to the record. -/
theorem keeps_look (guilds : List GuildStatus) :
    (lift (β := β) (Pass.look guilds)).Keeps Recording := by
  let Adds (a b : Bot β) : Prop := b.settings = a.settings ∧ a.loadedGuilds ⊆ b.loadedGuilds
  have hlook : (Pass.look guilds).Keeps Adds := by
    induction guilds with
    | nil => exact .pure _
    | cons s rest ih =>
        refine (Routine.Keeps.read (R := Adds) _ fun bot => ⟨rfl, fun _ h => h⟩).bind
          fun known => ?_
        split
        · exact ih
        · split
          · exact ih.bind fun _ => .pure _
          · have hmark : (Routine.atomic fun bot : Bot β =>
                let (loadedGuilds, isNew) := LoadedGuilds.mark bot.loadedGuilds s.id
                ({ bot with loadedGuilds }, isNew)).Keeps Adds :=
              .atomic fun bot => ⟨rfl, LoadedGuilds.subset_mark bot.loadedGuilds s.id⟩
            refine hmark.bind fun isNew => ih.bind fun _ => ?_
            split <;> exact .pure _
  exact hlook.within fun bot s h => ⟨h.1, h.2, rfl⟩

variable [Conduct β]

/-- An attempt records a guild that is announced all the while, or it is not the
last, or it gives up on that guild. -/
theorem attains_attempt {policy : GuildPoll} {id : UInt64} (hid : id ≠ 0) (polls : Nat) :
    (attempt (β := β) polls).Attains
      (fun s => s.bot.settings.guildPoll = policy ∧ Announced id s) (Loaded id)
      (fun outcome => ∀ report, outcome = .inr report → report.Abandons policy id) := by
  have hlisting : (Routine.read fun s : Station β => s.surroundings.directory).Attains
      (fun s => s.bot.settings.guildPoll = policy ∧ Announced id s) (Loaded id)
      (fun guilds => ∃ g ∈ guilds, g.id = id) :=
    .read fun s hs _ => Presence.mem_directory hid hs.2
  refine hlisting.bind fun guilds hlisted => ?_
  have hlook : (lift (Pass.look guilds)).Attains
      (fun s => s.bot.settings.guildPoll = policy ∧ Announced id s) (Loaded (β := β) id)
      (fun outcome => id ∈ outcome.pending) :=
    ((Pass.attains_look hlisted).within fun _ _ => rfl).mono fun _ _ => trivial
  refine hlook.bind fun outcome hpending => (Routine.Attains.trivial _).bind fun _ _ => ?_
  have hpolicy : (Routine.read fun s : Station β => s.bot.settings.guildPoll).Attains
      (fun s => s.bot.settings.guildPoll = policy ∧ Announced id s) (Loaded id)
      (fun read => read = policy) :=
    .read fun s hs _ => hs.1
  refine hpolicy.bind fun read hread => ?_
  subst hread
  rw [if_neg (by simpa using List.ne_nil_of_mem hpending)]
  split
  · rename_i hexhausted
    refine .pure fun report hreport => ?_
    cases hreport
    refine ⟨fun hnone => ?_, _, _, rfl, hpending⟩
    -- Without a bound there is always an attempt left.
    simp [Pass.exhausted, hnone] at hexhausted
  · exact (Routine.Attains.trivial _).bind fun _ _ => .pure nofun

section Steady

variable [Conduct.Steady β]

theorem keeps_greet (guilds : List Guild) :
    (lift (β := β) (Pass.greet guilds)).Keeps Recording :=
  keeps_lift (Pass.keeps_greet guilds)

/-- Attempts do nothing but record guilds, act by act. -/
theorem keeps_attempt (polls : Nat) : (attempt (β := β) polls).Keeps Recording := by
  have hread {α : Type} (f : Station β → α) : (Routine.read f).Keeps Recording := .read f .refl
  refine (hread _).bind fun guilds => (keeps_look guilds).bind fun outcome => ?_
  refine (keeps_greet _).bind fun _ => (hread _).bind fun policy => ?_
  split
  · exact .pure _
  · split
    · exact .pure _
    · exact (Routine.Keeps.pause _).bind fun _ => .pure _

end Steady

end Station

end ActionChain
