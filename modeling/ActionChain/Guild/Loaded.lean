import ActionChain.Chain.Subject

/-!
# Loaded Guilds

A guild is initialized once, the first time it is seen to be available. The
guilds seen so far are kept in the order in which they were, and the list
only grows. Looking over a list of guilds marks the ones that are new and
available, and reports what is left.

## Main definitions

* `GuildStatus`: a guild as a directory lists it.
* `LoadedGuilds.mark`: recording a guild.
* `PollOutcome`, `LoadedGuilds.poll`: looking over a list.

## Theorems

* `LoadedGuilds.mem_mark`, `LoadedGuilds.subset_mark`: a guild that is recorded
  stays so.
-/

namespace ActionChain

/-- A guild as a directory lists it. -/
structure GuildStatus where
  id : UInt64
  name : String
  available : Bool
  deriving DecidableEq

namespace GuildStatus

/-- The guild without its availability. -/
def guild (s : GuildStatus) : Guild := ⟨s.id, s.name⟩

end GuildStatus

/-- What a look over a list of guilds comes to. -/
structure PollOutcome where
  /-- The guilds that became initialized, in the order of the list. -/
  initialized : List Guild
  /-- The guilds still unavailable, in the order of the list. -/
  pending : List UInt64
  deriving DecidableEq

namespace LoadedGuilds

/-- Records a guild; tells whether it is new. -/
def mark (loaded : List UInt64) (id : UInt64) : List UInt64 × Bool :=
  if id ∈ loaded then (loaded, false) else (loaded ++ [id], true)

/-- Looks over a list of guilds without interruption. -/
def poll (loaded : List UInt64) : List GuildStatus → List UInt64 × PollOutcome
  | [] => (loaded, ⟨[], []⟩)
  | s :: rest =>
    if s.id ∈ loaded then poll loaded rest
    else if !s.available then
      let (loaded, outcome) := poll loaded rest
      (loaded, { outcome with pending := s.id :: outcome.pending })
    else
      let (loaded, outcome) := poll (loaded ++ [s.id]) rest
      (loaded, { outcome with initialized := s.guild :: outcome.initialized })

theorem mem_mark (loaded : List UInt64) (id : UInt64) : id ∈ (mark loaded id).1 := by
  unfold mark
  split
  · assumption
  · exact List.mem_append_right _ (List.mem_singleton.2 rfl)

theorem subset_mark (loaded : List UInt64) (id : UInt64) : loaded ⊆ (mark loaded id).1 := by
  unfold mark
  split
  · exact fun _ h => h
  · exact List.subset_append_left ..

end LoadedGuilds

end ActionChain
