import ActionChain.Guild.Scheduler
import Mathlib.Data.List.Basic

/-!
# The Protocol of Calls

What two flags can and cannot see of the calls for a pass.

A call is reduced to its stage, and a pass to the fact that it was started.
What is left is a board with the two flags, the stages of all calls and a
record of what happened to the requests, and a table that says which stage
follows which under which flags. Any call may take the next turn, so every
interleaving is a sequence of turns.

The flag for running is up exactly while one call holds it. A request in the
flag for requests is never forgotten, because somebody who will look at it is
always awake: the call that left it, or the one that holds the other flag. A
call that finds the flag taken leaves its request to the holder. If the holder
has cleared the flag before, then the request is still up when it lets go, and
whoever clears it starts a pass: the holder, or a call that took the flag from
it since. The record is oldest first, so that one thing happened after another
is a matter of sublists.

## Main definitions

* `Stage`, `Mark`: where a call stands, and what is recorded of requests.
* `Stage.Moves`: the table.
* `Board`, `Board.Turn`: all calls and the flags, and a turn of one of them.
* `Board.Sound`: what holds after any number of turns.

## Theorems

* `Board.Sound.turn`: a turn keeps the board sound.
* `Board.Sound.flags_of_ended`: when all calls are over, both flags are down.
* `Board.Sound.answered_of_ended`: and each request was followed by a pass.
-/

namespace ActionChain

open scoped List

/-- Where a call stands, without the pass it is in or its report. -/
inductive Stage where
  | requesting
  | claiming
  | clearing
  | passing
  | releasing
  | checking
  | reclaiming
  /-- It is over, with a report or without one. -/
  | ended (reported : Bool)
  deriving DecidableEq

/-- What is recorded of the requests, by the positions of calls. -/
inductive Mark where
  /-- A call left its request. -/
  | requested (call : Nat)
  /-- A call took the flag for running. -/
  | took (call : Nat)
  /-- A call found the flag held by another and left it to that one. -/
  | deferred (call : Nat) (holder : Option Nat)
  /-- A call cleared the request and started a pass. -/
  | started (call : Nat)
  deriving DecidableEq

namespace Stage

/-- Between taking the flag for running and letting it go. -/
def holds : Stage → Bool
  | .clearing | .passing | .releasing => true
  | _ => false

/-- Behind its request, and not over yet. -/
def awake : Stage → Bool
  | .requesting | .ended _ => false
  | _ => true

/-- Behind the start of a pass of its own. -/
def hasStarted : Stage → Bool
  | .passing | .releasing | .checking | .reclaiming | .ended true => true
  | _ => false

theorem awake_of_holds {s : Stage} (h : s.holds = true) : s.awake = true := by
  cases s <;> simp_all [holds, awake]

/-- The stage and the flags before and after a turn of a call at a position,
and what is recorded of it. -/
inductive Moves (holder : Option Nat) (i : Nat) : Stage → Flags → Stage → Flags → List Mark → Prop
  | request (f : Flags) :
      Moves holder i .requesting f .claiming { f with requested := true } [.requested i]
  | defer {f : Flags} (hrunning : f.running = true) :
      Moves holder i .claiming f (.ended false) f [.deferred i holder]
  | claim {f : Flags} (hrunning : f.running = false) :
      Moves holder i .claiming f .clearing { f with running := true } [.took i]
  | start (f : Flags) :
      Moves holder i .clearing f .passing { f with requested := false } [.started i]
  | pass (f : Flags) : Moves holder i .passing f .passing f []
  | finish (f : Flags) : Moves holder i .passing f .releasing f []
  | release (f : Flags) : Moves holder i .releasing f .checking { f with running := false } []
  | again {f : Flags} (hrequested : f.requested = true) :
      Moves holder i .checking f .reclaiming f []
  | rest {f : Flags} (hrequested : f.requested = false) :
      Moves holder i .checking f (.ended true) f []
  | reclaim {f : Flags} (hrunning : f.running = false) :
      Moves holder i .reclaiming f .clearing { f with running := true } [.took i]
  | yield {f : Flags} (hrunning : f.running = true) :
      Moves holder i .reclaiming f (.ended true) f []

namespace Moves

variable {holder : Option Nat} {i j : Nat} {s t : Stage} {f f' : Flags} {ms : List Mark}

/-- A call takes the flag for running when it is down, lets it go when it holds
it, or leaves it alone. -/
theorem running (h : Moves holder i s f t f' ms) :
    (s.holds = false ∧ f.running = false ∧ t.holds = true ∧ f'.running = true) ∨
      (s.holds = true ∧ t.holds = false ∧ f'.running = false) ∨
      (s.holds = t.holds ∧ f'.running = f.running) := by
  cases h <;> simp_all [holds]

/-- While a request is up the call stays awake, or it leaves the request to
another call that holds the flag for running. -/
theorem awake (h : Moves holder i s f t f' ms) (hrequested : f'.requested = true) :
    t.awake = true ∨ (s.holds = false ∧ f.running = true) := by
  cases h <;> simp_all [holds, Stage.awake]

/-- A request that was up goes down only when its pass is started. -/
theorem requested (h : Moves holder i s f t f' ms) (hrequested : f.requested = true) :
    f'.requested = true ∨ (s = .clearing ∧ t = .passing ∧ ms = [.started i]) := by
  cases h <;> simp_all

theorem eq_request (h : Moves holder i .requesting f t f' ms) :
    f'.requested = true ∧ ms = [.requested i] := by
  cases h
  exact ⟨rfl, rfl⟩

theorem hasStarted (h : Moves holder i s f t f' ms) (ht : t.hasStarted = true) :
    s.hasStarted = true ∨ (s = .clearing ∧ ms = [.started i]) := by
  cases h <;> simp_all [Stage.hasStarted]

/-- A call that passes or releases has just started, or did so before. -/
theorem inPass (h : Moves holder i s f t f' ms) (ht : t = .passing ∨ t = .releasing) :
    (s = .passing ∧ f' = f ∧ ms = []) ∨ (s = .clearing ∧ ms = [.started i]) := by
  cases h <;> simp_all

theorem eq_ended_false (h : Moves holder i s f (.ended false) f' ms) :
    f.running = true ∧ s = .claiming ∧ ms = [.deferred i holder] := by
  cases h
  exact ⟨‹_›, rfl, rfl⟩

/-- What a turn records of a call that takes the flag. -/
theorem took (h : Moves holder i s f t f' ms) (hs : s.holds = false) (ht : t.holds = true) :
    t = .clearing ∧ ms = [.took i] := by
  cases h <;> simp_all [holds]

/-- A request is recorded only as it is left. -/
theorem of_mem_requested (h : Moves holder i s f t f' ms) (hm : .requested j ∈ ms) :
    f'.requested = true := by
  cases h <;> simp_all

/-- A request is left to others only by a call that finds the flag taken. -/
theorem of_mem_deferred {o : Option Nat} (h : Moves holder i s f t f' ms)
    (hm : .deferred j o ∈ ms) :
    j = i ∧ o = holder ∧ s = .claiming ∧ t = .ended false ∧ f.running = true ∧ f' = f ∧
      ms = [.deferred i holder] := by
  cases h <;> simp_all

end Moves

end Stage

/-! ## All calls at once -/

/-- The flags, the stages of all calls in the order in which they began, and what
is recorded of their requests, oldest first. -/
structure Board where
  flags : Flags
  stages : List Stage
  history : List Mark

namespace Board

/-- The call that holds the flag for running. -/
def holder? (b : Board) : Option Nat := b.stages.findIdx? Stage.holds

/-- A turn of the call at a position. -/
inductive Turn (i : Nat) (b : Board) : Board → Prop
  | mk {s t : Stage} {f : Flags} {ms : List Mark} (hs : b.stages[i]? = some s)
      (h : Stage.Moves b.holder? i s b.flags t f ms) :
      Turn i b ⟨f, b.stages.set i t, b.history ++ ms⟩

/-- What holds of the flags, the stages and the record after any number of
turns. -/
structure Sound (b : Board) : Prop where
  /-- One call at most holds the flag for running. -/
  single : ∀ (i j : Nat) (s t : Stage), b.stages[i]? = some s → b.stages[j]? = some t →
    s.holds = true → t.holds = true → i = j
  running : b.flags.running = true ↔
    ∃ (i : Nat) (s : Stage), b.stages[i]? = some s ∧ s.holds = true
  /-- While a request is up somebody is awake. -/
  awake : b.flags.requested = true →
    ∃ (i : Nat) (s : Stage), b.stages[i]? = some s ∧ s.awake = true
  requested : ∀ (i : Nat) (s : Stage), b.stages[i]? = some s → s ≠ .requesting →
    .requested i ∈ b.history
  /-- A call that has started a pass did so after its own request. -/
  started : ∀ (i : Nat) (s : Stage), b.stages[i]? = some s → s.hasStarted = true →
    [.requested i, .started i] <+ b.history
  /-- A call that is over without a report left its request to another. -/
  deferred : ∀ i : Nat, b.stages[i]? = some (.ended false) →
    ∃ h : Nat, h ≠ i ∧ .deferred i (some h) ∈ b.history
  deferred_requested : ∀ (i : Nat) (o : Option Nat), .deferred i o ∈ b.history →
    [.requested i, .deferred i o] <+ b.history
  /-- Requests from before the pass of the holder are answered by that pass; the
  others are up. -/
  latest : ∀ (h : Nat) (s : Stage), b.stages[h]? = some s → s = .passing ∨ s = .releasing →
    ∀ i : Nat, .requested i ∈ b.history →
      b.flags.requested = true ∨ [.requested i, .started h] <+ b.history
  /-- Who holds the flag after a request was left to a holder is that holder or
  has taken it since. -/
  heir : ∀ i h : Nat, .deferred i (some h) ∈ b.history →
    ∀ (j : Nat) (s : Stage), b.stages[j]? = some s → s.holds = true →
      j = h ∨ [.deferred i (some h), .took j] <+ b.history
  /-- A request that was left to a holder is answered, about to be, or up. -/
  answered : ∀ i h : Nat, .deferred i (some h) ∈ b.history →
    [.requested i, .started h] <+ b.history ∨
      (∃ j : Nat, [.deferred i (some h), .took j, .started j] <+ b.history) ∨
      b.stages[h]? = some .clearing ∨ b.flags.requested = true

variable {b b' : Board} {i : Nat}

/-- After a turn of one call, the others stand where they stood. -/
theorem getElem?_set {l : List Stage} {t u : Stage} {j : Nat} (h : (l.set i t)[j]? = some u) :
    (j = i ∧ u = t) ∨ (j ≠ i ∧ l[j]? = some u) := by
  grind

namespace Sound

/-- Before the first call nothing has happened. -/
theorem start : Sound ⟨.clear, [], []⟩ := by
  constructor <;> simp [Flags.clear]

/-- A call that begins holds nothing and has left no request yet. -/
theorem call (h : b.Sound) : Sound ⟨b.flags, b.stages ++ [.requesting], b.history⟩ := by
  have old {j : Nat} {u : Stage} (hu : (b.stages ++ [.requesting])[j]? = some u)
      (hne : u ≠ .requesting) : b.stages[j]? = some u := by
    grind
  have new {j : Nat} {u : Stage} (hu : b.stages[j]? = some u) :
      (b.stages ++ [.requesting])[j]? = some u := by
    grind
  have holding {u : Stage} (hu : u.holds = true) : u ≠ .requesting := by
    rintro rfl
    exact absurd hu (by decide)
  constructor
  case single =>
    intro i j s t hs ht hhs hht
    exact h.single i j s t (old hs (holding hhs)) (old ht (holding hht)) hhs hht
  case running =>
    rw [h.running]
    constructor
    · rintro ⟨i, s, hs, hh⟩
      exact ⟨i, s, new hs, hh⟩
    · rintro ⟨i, s, hs, hh⟩
      exact ⟨i, s, old hs (holding hh), hh⟩
  case awake =>
    intro hrequested
    rcases h.awake hrequested with ⟨i, s, hs, hawake⟩
    exact ⟨i, s, new hs, hawake⟩
  case requested => exact fun i s hs hne => h.requested i s (old hs hne) hne
  case started =>
    intro i s hs hstarted
    refine h.started i s (old hs ?_) hstarted
    rintro rfl
    exact absurd hstarted (by decide)
  case deferred => exact fun i hs => h.deferred i (old hs (by simp))
  case deferred_requested => exact h.deferred_requested
  case latest =>
    intro k s hs hpass
    refine h.latest k s (old hs ?_) hpass
    rintro rfl
    simp at hpass
  case heir => exact fun i k hd j s hs hh => h.heir i k hd j s (old hs (holding hh)) hh
  case answered =>
    intro i k hd
    rcases h.answered i k hd with hstarted | htook | hclearing | hrequested
    · exact .inl hstarted
    · exact .inr (.inl htook)
    · exact .inr (.inr (.inl (new hclearing)))
    · exact .inr (.inr (.inr hrequested))

/-- While the flag for running is up, somebody is known to hold it. -/
theorem holder (h : b.Sound) (hrunning : b.flags.running = true) :
    ∃ (k : Nat) (u : Stage), b.holder? = some k ∧ b.stages[k]? = some u ∧ u.holds = true := by
  rcases h.running.1 hrunning with ⟨j, v, hv, hhv⟩
  have hsome : b.holder?.isSome = true := by
    rw [holder?, List.findIdx?_isSome, List.any_eq_true]
    exact ⟨v, List.mem_of_getElem? hv, hhv⟩
  obtain ⟨k, hk⟩ := Option.isSome_iff_exists.1 hsome
  obtain ⟨hlt, hhk, -⟩ := List.findIdx?_eq_some_iff_getElem.1 hk
  exact ⟨k, b.stages[k], hk, List.getElem?_eq_getElem hlt, hhk⟩

/-! ## A turn

One field at a time, from what the table says of it. -/

section Turn

variable {s t : Stage} {f : Flags} {ms : List Mark} (h : b.Sound) (hs : b.stages[i]? = some s)
  (hmove : Stage.Moves b.holder? i s b.flags t f ms)
include h hs hmove

/-- Whoever takes the flag finds it down, so nobody else has it. -/
theorem single_of_moves {j k : Nat} {u v : Stage} (hu : (b.stages.set i t)[j]? = some u)
    (hv : (b.stages.set i t)[k]? = some v) (hhu : u.holds = true) (hhv : v.holds = true) :
    j = k := by
  have alone {j : Nat} {u : Stage} (hu : b.stages[j]? = some u) (hhu : u.holds = true)
      (hht : t.holds = true) : j = i := by
    rcases hmove.running with ⟨-, hdown, -⟩ | ⟨-, hfree, -⟩ | ⟨hsame, -⟩
    · exact absurd (h.running.2 ⟨j, u, hu, hhu⟩) (by simp [hdown])
    · exact absurd hht (by simp [hfree])
    · exact h.single j i u s hu hs hhu (hsame.trans hht)
  rcases getElem?_set hu with ⟨hj, rfl⟩ | ⟨-, hu'⟩
  · rcases getElem?_set hv with ⟨hk, -⟩ | ⟨-, hv'⟩
    · exact hj.trans hk.symm
    · exact hj.trans (alone hv' hhv hhu).symm
  · rcases getElem?_set hv with ⟨hk, rfl⟩ | ⟨-, hv'⟩
    · exact (alone hu' hhu hhv).trans hk.symm
    · exact h.single j k u v hu' hv' hhu hhv

theorem running_of_moves : f.running = true ↔
    ∃ (j : Nat) (u : Stage), (b.stages.set i t)[j]? = some u ∧ u.holds = true := by
  have self : (b.stages.set i t)[i]? = some t := by grind
  have others {j : Nat} {u : Stage} (hne : j ≠ i) (hu : b.stages[j]? = some u) :
      (b.stages.set i t)[j]? = some u := by grind
  rcases hmove.running with ⟨-, -, hht, hf⟩ | ⟨hhs, hht, hf⟩ | ⟨hsame, hf⟩
  · exact ⟨fun _ => ⟨i, t, self, hht⟩, fun _ => hf⟩
  · refine ⟨fun hup => absurd hup (by simp [hf]), ?_⟩
    rintro ⟨j, u, hu, hhu⟩
    rcases getElem?_set hu with ⟨-, rfl⟩ | ⟨hne, hu'⟩
    · exact absurd hhu (by simp [hht])
    · exact absurd (h.single j i u s hu' hs hhu hhs) hne
  · rw [hf, h.running]
    constructor
    · rintro ⟨j, u, hu, hhu⟩
      by_cases hj : j = i
      · subst hj
        obtain rfl : s = u := Option.some.inj (hs.symm.trans hu)
        exact ⟨j, t, self, hsame ▸ hhu⟩
      · exact ⟨j, u, others hj hu, hhu⟩
    · rintro ⟨j, u, hu, hhu⟩
      rcases getElem?_set hu with ⟨-, rfl⟩ | ⟨-, hu'⟩
      · exact ⟨i, s, hs, hsame.trans hhu⟩
      · exact ⟨j, u, hu', hhu⟩

/-- A call that is no longer awake while a request is up leaves it to the holder
of the flag. -/
theorem awake_of_moves (hrequested : f.requested = true) :
    ∃ (j : Nat) (u : Stage), (b.stages.set i t)[j]? = some u ∧ u.awake = true := by
  rcases hmove.awake hrequested with hawake | ⟨hhs, hrunning⟩
  · exact ⟨i, t, by grind, hawake⟩
  · rcases h.running.1 hrunning with ⟨j, u, hu, hhu⟩
    have hne : j ≠ i := by
      rintro rfl
      obtain rfl : s = u := Option.some.inj (hs.symm.trans hu)
      exact absurd hhu (by simp [hhs])
    exact ⟨j, u, by grind, Stage.awake_of_holds hhu⟩

theorem requested_of_moves {j : Nat} {u : Stage} (hu : (b.stages.set i t)[j]? = some u)
    (hne : u ≠ .requesting) : .requested j ∈ b.history ++ ms := by
  rcases getElem?_set hu with ⟨rfl, rfl⟩ | ⟨-, hu'⟩
  · by_cases hs' : s = .requesting
    · subst hs'
      rw [hmove.eq_request.2]
      simp
    · exact List.mem_append_left _ (h.requested _ s hs hs')
  · exact List.mem_append_left _ (h.requested j u hu' hne)

theorem started_of_moves {j : Nat} {u : Stage} (hu : (b.stages.set i t)[j]? = some u)
    (hstarted : u.hasStarted = true) : [.requested j, .started j] <+ b.history ++ ms := by
  rcases getElem?_set hu with ⟨rfl, rfl⟩ | ⟨-, hu'⟩
  · rcases hmove.hasStarted hstarted with hbefore | ⟨rfl, rfl⟩
    · exact (h.started _ s hs hbefore).trans (List.sublist_append_left ..)
    · have hrequested := h.requested _ _ hs (by simp)
      exact (List.singleton_sublist.2 hrequested).append (.refl _)
  · exact (h.started j u hu' hstarted).trans (List.sublist_append_left ..)

/-- Whom a request is left to holds the flag, before and after. -/
theorem holder_of_defer {j : Nat} {o : Option Nat} (hm : .deferred j o ∈ ms) :
    ∃ (k : Nat) (u : Stage), o = some k ∧ k ≠ i ∧ b.stages[k]? = some u ∧ u.holds = true := by
  rcases hmove.of_mem_deferred hm with ⟨-, rfl, rfl, -, hrunning, -⟩
  rcases h.holder hrunning with ⟨k, u, hk, hu, hhu⟩
  refine ⟨k, u, hk, ?_, hu, hhu⟩
  rintro rfl
  obtain rfl : Stage.claiming = u := Option.some.inj (hs.symm.trans hu)
  exact absurd hhu (by decide)

theorem deferred_of_moves {j : Nat} (hj : (b.stages.set i t)[j]? = some (.ended false)) :
    ∃ k : Nat, k ≠ j ∧ .deferred j (some k) ∈ b.history ++ ms := by
  rcases getElem?_set hj with ⟨rfl, rfl⟩ | ⟨-, hj'⟩
  · have hm : .deferred j b.holder? ∈ ms := by simp [hmove.eq_ended_false.2.2]
    rcases h.holder_of_defer hs hmove hm with ⟨k, -, hk, hne, -⟩
    exact ⟨k, hne, List.mem_append_right _ (hk ▸ hm)⟩
  · rcases h.deferred j hj' with ⟨k, hne, hk⟩
    exact ⟨k, hne, List.mem_append_left _ hk⟩

theorem deferred_requested_of_moves {j : Nat} {o : Option Nat}
    (hm : .deferred j o ∈ b.history ++ ms) : [.requested j, .deferred j o] <+ b.history ++ ms := by
  rcases List.mem_append.1 hm with hold | hnew
  · exact (h.deferred_requested j o hold).trans (List.sublist_append_left ..)
  · rcases hmove.of_mem_deferred hnew with ⟨rfl, rfl, rfl, -, -, -, rfl⟩
    have hrequested := h.requested _ _ hs (by simp)
    exact (List.singleton_sublist.2 hrequested).append (.refl _)

theorem latest_of_moves {k : Nat} {u : Stage} (hu : (b.stages.set i t)[k]? = some u)
    (hpass : u = .passing ∨ u = .releasing) {j : Nat} (hm : .requested j ∈ b.history ++ ms) :
    f.requested = true ∨ [.requested j, .started k] <+ b.history ++ ms := by
  rcases getElem?_set hu with ⟨rfl, rfl⟩ | ⟨hne, hu'⟩
  · rcases hmove.inPass hpass with ⟨rfl, rfl, rfl⟩ | ⟨rfl, rfl⟩
    · rw [List.append_nil] at hm ⊢
      exact h.latest _ _ hs (.inl rfl) j hm
    · have hm : .requested j ∈ b.history := by simpa using hm
      exact .inr ((List.singleton_sublist.2 hm).append (.refl _))
  · rcases List.mem_append.1 hm with hold | hnew
    · rcases h.latest k u hu' hpass j hold with hup | hstarted
      · rcases hmove.requested hup with hup | ⟨rfl, -⟩
        · exact .inl hup
        · -- Two calls would hold the flag.
          have hhu : u.holds = true := by rcases hpass with rfl | rfl <;> rfl
          exact absurd (h.single k i u .clearing hu' hs hhu rfl) hne
      · exact .inr (hstarted.trans (List.sublist_append_left ..))
    · exact .inl (hmove.of_mem_requested hnew)

theorem heir_of_moves {j k : Nat} (hm : .deferred j (some k) ∈ b.history ++ ms) {l : Nat}
    {u : Stage} (hu : (b.stages.set i t)[l]? = some u) (hhu : u.holds = true) :
    l = k ∨ [.deferred j (some k), .took l] <+ b.history ++ ms := by
  rcases List.mem_append.1 hm with hold | hnew
  · -- A holder from before is known; the other is the one that takes the flag now.
    have before {l : Nat} {u : Stage} (hu : b.stages[l]? = some u) (hhu : u.holds = true) :
        l = k ∨ [.deferred j (some k), .took l] <+ b.history ++ ms :=
      (h.heir j k hold l u hu hhu).imp_right fun htook =>
        htook.trans (List.sublist_append_left ..)
    rcases getElem?_set hu with ⟨rfl, rfl⟩ | ⟨-, hu'⟩
    · by_cases hhs : s.holds = true
      · exact before hs hhs
      · rw [(hmove.took (Bool.eq_false_iff.2 hhs) hhu).2]
        exact .inr ((List.singleton_sublist.2 hold).append (.refl _))
    · exact before hu' hhu
  · rcases hmove.of_mem_deferred hnew with ⟨-, -, -, rfl, -⟩
    rcases h.holder_of_defer hs hmove hnew with ⟨k', v, hk, -, hv, hhv⟩
    obtain rfl : k = k' := Option.some.inj hk
    rcases getElem?_set hu with ⟨-, rfl⟩ | ⟨-, hu'⟩
    · exact absurd hhu (by decide)
    · exact .inl (h.single l k u v hu' hv hhu hhv)

/-- A pass that is started now answers a request that was up: the one who starts
it is the holder the request was left to, or has taken the flag since. -/
theorem answered_of_start {j k : Nat} (hm : .deferred j (some k) ∈ b.history)
    (hclearing : s = .clearing) (hms : ms = [.started i]) :
    [.requested j, .started k] <+ b.history ++ ms ∨
      ∃ l : Nat, [.deferred j (some k), .took l, .started l] <+ b.history ++ ms := by
  subst hclearing hms
  rcases h.heir j k hm i _ hs rfl with rfl | htook
  · have hrequested : .requested j ∈ b.history :=
      (h.deferred_requested j _ hm).subset (by simp)
    exact .inl ((List.singleton_sublist.2 hrequested).append (.refl _))
  · exact .inr ⟨i, htook.append (.refl _)⟩

theorem answered_of_moves {j k : Nat} (hm : .deferred j (some k) ∈ b.history ++ ms) :
    [.requested j, .started k] <+ b.history ++ ms ∨
      (∃ l : Nat, [.deferred j (some k), .took l, .started l] <+ b.history ++ ms) ∨
      (b.stages.set i t)[k]? = some .clearing ∨ f.requested = true := by
  rcases List.mem_append.1 hm with hold | hnew
  · rcases h.answered j k hold with hstarted | ⟨l, htook⟩ | hclearing | hup
    · exact .inl (hstarted.trans (List.sublist_append_left ..))
    · exact .inr (.inl ⟨l, htook.trans (List.sublist_append_left ..)⟩)
    · by_cases hk : k = i
      · subst hk
        obtain rfl : Stage.clearing = s := Option.some.inj (hclearing.symm.trans hs)
        have hms : ms = [.started k] := by cases hmove; rfl
        exact (h.answered_of_start hs hmove hold rfl hms).imp_right .inl
      · exact .inr (.inr (.inl (by grind)))
    · rcases hmove.requested hup with hup | ⟨hs', -, hms⟩
      · exact .inr (.inr (.inr hup))
      · exact (h.answered_of_start hs hmove hold hs' hms).imp_right .inl
  · rcases hmove.of_mem_deferred hnew with ⟨rfl, -, rfl, -, -, rfl, -⟩
    rcases h.holder_of_defer hs hmove hnew with ⟨k', u, hk, hne, hu, hhu⟩
    obtain rfl : k = k' := Option.some.inj hk
    have hrequested : .requested j ∈ b.history := h.requested j _ hs (by simp)
    have answered (hpass : u = .passing ∨ u = .releasing) :
        b.flags.requested = true ∨ [.requested j, .started k] <+ b.history ++ ms :=
      (h.latest k u hu hpass j hrequested).imp_right fun hstarted =>
        hstarted.trans (List.sublist_append_left ..)
    cases u with
    | clearing => exact .inr (.inr (.inl (by grind)))
    | passing => exact (answered (.inl rfl)).elim (fun hup => .inr (.inr (.inr hup))) .inl
    | releasing => exact (answered (.inr rfl)).elim (fun hup => .inr (.inr (.inr hup))) .inl
    | requesting | claiming | checking | reclaiming => exact absurd hhu (by decide)
    | ended reported => exact absurd hhu (by simp [Stage.holds])

end Turn

/-- A turn of any call keeps a board sound. -/
theorem turn (h : b.Sound) (hturn : Turn i b b') : b'.Sound := by
  cases hturn with
  | mk hs hmove =>
      exact {
        single := fun _ _ _ _ hu hv => h.single_of_moves hs hmove hu hv
        running := h.running_of_moves hs hmove
        awake := h.awake_of_moves hs hmove
        requested := fun _ _ => h.requested_of_moves hs hmove
        started := fun _ _ => h.started_of_moves hs hmove
        deferred := fun _ => h.deferred_of_moves hs hmove
        deferred_requested := fun _ _ => h.deferred_requested_of_moves hs hmove
        latest := fun _ _ hu hpass _ => h.latest_of_moves hs hmove hu hpass
        heir := fun _ _ hm _ _ => h.heir_of_moves hs hmove hm
        answered := fun _ _ => h.answered_of_moves hs hmove }

/-! ## When all calls are over -/

section Over

variable (h : b.Sound)
  (hended : ∀ (i : Nat) (s : Stage), b.stages[i]? = some s → ∃ reported, s = .ended reported)
include h hended

/-- Nobody holds the flag for running and nobody is awake for a request. -/
theorem flags_of_ended : b.flags = .clear := by
  have hrunning : b.flags.running = false := by
    rw [Bool.eq_false_iff]
    intro hup
    rcases h.running.1 hup with ⟨i, s, hs, hh⟩
    rcases hended i s hs with ⟨reported, rfl⟩
    exact absurd hh (by simp [Stage.holds])
  have hrequested : b.flags.requested = false := by
    rw [Bool.eq_false_iff]
    intro hup
    rcases h.awake hup with ⟨i, s, hs, hawake⟩
    rcases hended i s hs with ⟨reported, rfl⟩
    exact absurd hawake (by simp [Stage.awake])
  exact congrArg₂ Flags.mk hrunning hrequested

/-- A request that was left to a holder was followed by a pass of that holder or
of one that took the flag from it since. -/
theorem answered_of_ended {i k : Nat} (hm : .deferred i (some k) ∈ b.history) :
    [.requested i, .started k] <+ b.history ∨
      ∃ j : Nat, [.deferred i (some k), .took j, .started j] <+ b.history := by
  rcases h.answered i k hm with hstarted | htook | hclearing | hup
  · exact .inl hstarted
  · exact .inr htook
  · rcases hended k _ hclearing with ⟨_, hs⟩
    cases hs
  · rw [h.flags_of_ended hended] at hup
    cases hup

end Over

end Sound

end Board

end ActionChain
