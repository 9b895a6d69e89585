import ActionChain.Guild.Pass
import Mathlib.Data.List.Nodup
import Mathlib.Data.Nat.Find

/-!
# Polls and What They Leave

What the answers of a directory come to, said of the answers alone.

A guild is recorded after some polls if it was before, or if one of them listed
it available. So an answer has guilds that it is the first to list available,
and it may list guilds that are recorded neither before nor by it; when there are
none of those, everything is settled. Looking over one answer after the other
finds just that (`Polling.poll_answers`), as long as an answer lists no guild
twice: a guild that is listed as unavailable and then as available would be
pending and recorded at once.

A pass ends with the first answer that settles everything. If attempts are bounded
and run out before, it ends with the last that is allowed, and the guilds that are
missing then are those it gives up on. A bound of none allows one attempt.

## Main definitions

* `Polling`: the guilds recorded at the beginning, and the answers.
* `Polling.Recorded`: being recorded after a number of polls.
* `Polling.fresh`, `Polling.missing`: what an answer adds, and what it leaves.
* `Polling.Ends`: after how many polls a pass ends, and with which report.
* `Polling.verdict`: what an attempt comes to.

## Theorems

* `LoadedGuilds.poll_eq`: looking over a list without repetitions.
* `Polling.poll_answers`: looking over the answers in order.
* `Polling.Ends.verdicts`, `Polling.ends_of_verdicts`: a pass ends with its first
  attempt that is not followed by another.
* `Polling.exists_end`: a bounded pass ends within its bound.
-/

namespace ActionChain

/-- Looking over a list without repetitions records the available guilds that are
not recorded, and leaves the unavailable ones that are not. -/
theorem LoadedGuilds.poll_eq {guilds : List GuildStatus}
    (hdistinct : (guilds.map GuildStatus.id).Nodup) (loaded : List UInt64) :
    let fresh := guilds.filter fun s => s.available && decide (s.id ∉ loaded)
    poll loaded guilds = (loaded ++ fresh.map GuildStatus.id,
      ⟨fresh.map GuildStatus.guild,
        (guilds.filter fun s => !s.available && decide (s.id ∉ loaded)).map GuildStatus.id⟩) := by
  induction guilds generalizing loaded with
  | nil => simp [poll]
  | cons s rest ih =>
      rcases List.nodup_cons.1 hdistinct with ⟨hs, hrest⟩
      have ih := ih hrest
      dsimp only at ih ⊢
      unfold poll
      by_cases hloaded : s.id ∈ loaded
      · simp [hloaded, ih loaded]
      · by_cases havailable : s.available
        · -- Recording this guild makes no difference to the others.
          have hother : ∀ t ∈ rest, decide (t.id ∉ loaded ++ [s.id]) = decide (t.id ∉ loaded) := by
            intro t ht
            have hne : t.id ≠ s.id := fun heq => hs (heq ▸ List.mem_map_of_mem ht)
            simp [hne]
          have hfilter (f : GuildStatus → Bool) :
              (rest.filter fun t => f t && decide (t.id ∉ loaded ++ [s.id])) =
                rest.filter fun t => f t && decide (t.id ∉ loaded) :=
            List.filter_congr fun t ht => congrArg (f t && ·) (hother t ht)
          simp only [hloaded, havailable, ih, hfilter, List.filter_cons, if_false, if_true,
            Bool.not_true, Bool.false_and, Bool.true_and, not_false_eq_true, decide_true,
            List.map_cons, List.append_assoc, List.singleton_append, Bool.false_eq_true]
        · simp [hloaded, havailable, ih loaded]

/-- The guilds recorded at the beginning, and what a directory answers to one poll
after the other. -/
structure Polling where
  initial : List UInt64
  answers : Nat → List GuildStatus

namespace Polling

variable (p : Polling)

/-- A guild is recorded after a number of polls if it was recorded before or one
of them listed it available. -/
def Recorded (polls : Nat) (id : UInt64) : Prop :=
  id ∈ p.initial ∨ ∃ k < polls, ∃ s ∈ p.answers k, s.available = true ∧ s.id = id

instance (polls : Nat) : DecidablePred (p.Recorded polls) :=
  fun _ => inferInstanceAs (Decidable (_ ∨ _))

/-- No answer lists a guild twice. -/
def Distinct : Prop := ∀ k, ((p.answers k).map GuildStatus.id).Nodup

/-- The guilds that an answer is the first to list available, in its order. -/
def fresh (k : Nat) : List GuildStatus :=
  (p.answers k).filter fun s => s.available && decide (¬ p.Recorded k s.id)

/-- The guilds that some polls add to the record, in order. -/
def added (polls : Nat) : List UInt64 :=
  (List.range polls).flatMap fun k => (p.fresh k).map GuildStatus.id

/-- The guilds of an answer that are not recorded after it, in its order. -/
def missing (k : Nat) : List UInt64 :=
  ((p.answers k).map GuildStatus.id).filter fun id => decide (¬ p.Recorded (k + 1) id)

/-- After an answer all its guilds are recorded. -/
def Settled (k : Nat) : Prop := ∀ s ∈ p.answers k, p.Recorded (k + 1) s.id

instance : DecidablePred p.Settled := fun k => inferInstanceAs (Decidable (∀ s ∈ p.answers k, _))

/-- After how many polls a pass ends, and with which report. -/
inductive Ends (policy : GuildPoll) : Nat → InitReport → Prop where
  | ready {k : Nat} (hsettled : p.Settled k) (hfirst : ∀ j < k, ¬ p.Settled j)
      (hallowed : ∀ most, policy.maxAttempts = some most → k + 1 ≤ max 1 most) :
      Ends policy (k + 1) (.ready (k + 1))
  | gaveUp {most : Nat} (hmost : policy.maxAttempts = some most)
      (hnever : ∀ k < max 1 most, ¬ p.Settled k) :
      Ends policy (max 1 most) (.gaveUp (max 1 most) (p.missing (max 1 most - 1)))

/-- What the attempt comes to that hears an answer. -/
def verdict (policy : GuildPoll) (k : Nat) : Nat ⊕ InitReport :=
  if (p.missing k).isEmpty then .inr (.ready (k + 1))
  else if Pass.exhausted policy (k + 1) then .inr (.gaveUp (k + 1) (p.missing k))
  else .inl (k + 1)

variable {p} {policy : GuildPoll} {n k : Nat} {id : UInt64}

theorem recorded_succ_iff : p.Recorded (n + 1) id ↔
    p.Recorded n id ∨ ∃ s ∈ p.answers n, s.available = true ∧ s.id = id := by
  simp only [Recorded, Nat.lt_succ_iff_lt_or_eq, or_and_right, exists_or, exists_eq_left, or_assoc]

theorem added_succ : p.added (n + 1) = p.added n ++ (p.fresh n).map GuildStatus.id := by
  simp [added, List.range_succ]

/-- What polls add to the record is what is recorded then and was not before. -/
theorem mem_record_iff : id ∈ p.initial ++ p.added n ↔ p.Recorded n id := by
  induction n with
  | zero => simp [added, Recorded]
  | succ n ih =>
      rw [added_succ, ← List.append_assoc, List.mem_append, ih, recorded_succ_iff]
      constructor
      · rintro (hold | hfresh)
        · exact .inl hold
        · rcases List.mem_map.1 hfresh with ⟨s, hs, rfl⟩
          have hs := List.mem_filter.1 hs
          exact .inr ⟨s, hs.1, (Bool.and_eq_true_iff.1 hs.2).1, rfl⟩
      · rintro (hold | ⟨s, hs, havailable, rfl⟩)
        · exact .inl hold
        · by_cases hold : p.Recorded n s.id
          · exact .inl hold
          · refine .inr (List.mem_map.2 ⟨s, List.mem_filter.2 ⟨hs, ?_⟩, rfl⟩)
            simp [havailable, hold]

theorem missing_eq_nil_iff : p.missing k = [] ↔ p.Settled k := by
  simp [missing, Settled, List.filter_eq_nil_iff]

/-- The unavailable guilds that are not recorded are those that are still missing. -/
theorem missing_eq (hdistinct : p.Distinct) : p.missing k =
    ((p.answers k).filter fun s => !s.available && decide (¬ p.Recorded k s.id)).map
      GuildStatus.id := by
  rw [missing, List.filter_map]
  refine congrArg _ (List.filter_congr fun s hs => ?_)
  have hrecorded : p.Recorded (k + 1) s.id ↔ p.Recorded k s.id ∨ s.available = true := by
    rw [recorded_succ_iff]
    refine or_congr_right ⟨?_, fun h => ⟨s, hs, h, rfl⟩⟩
    rintro ⟨t, ht, havailable, hid⟩
    obtain rfl := List.inj_on_of_nodup_map (hdistinct k) ht hs hid
    exact havailable
  simp only [Function.comp_apply, hrecorded]
  cases s.available <;> simp

/-- Looking over the answers in order adds what is fresh and leaves what is missing. -/
theorem poll_answers (hdistinct : p.Distinct) (k : Nat) :
    LoadedGuilds.poll (p.initial ++ p.added k) (p.answers k) =
      (p.initial ++ p.added (k + 1), ⟨(p.fresh k).map GuildStatus.guild, p.missing k⟩) := by
  rw [LoadedGuilds.poll_eq (hdistinct k), missing_eq hdistinct, added_succ]
  simp only [mem_record_iff, fresh, List.append_assoc]

/-! ## The end of a pass -/

theorem exhausted_iff : Pass.exhausted policy n = true ↔
    ∃ most, policy.maxAttempts = some most ∧ most ≤ n := by
  unfold Pass.exhausted
  cases policy.maxAttempts <;> simp

theorem verdict_eq_inl {polls : Nat} (h : p.verdict policy k = .inl polls) : polls = k + 1 := by
  unfold verdict at h
  split at h
  · cases h
  · split at h
    · cases h
    · cases h
      rfl

/-- An attempt is followed by another if guilds are missing and attempts are left. -/
theorem verdict_eq_inl_iff : p.verdict policy k = .inl (k + 1) ↔
    ¬ p.Settled k ∧ ∀ most, policy.maxAttempts = some most → k + 1 < most := by
  have hleft : ¬ Pass.exhausted policy (k + 1) = true ↔
      ∀ most, policy.maxAttempts = some most → k + 1 < most := by
    simp [exhausted_iff]
  rw [← missing_eq_nil_iff, ← hleft, ← List.isEmpty_iff, verdict]
  split
  · simp [*]
  · split <;> simp [*]

/-- Before the end, attempts are followed by another; the last one is not. -/
theorem Ends.verdicts {report : InitReport} (h : p.Ends policy n report) :
    ∃ k, n = k + 1 ∧ (∀ j < k, p.verdict policy j = .inl (j + 1)) ∧
      p.verdict policy k = .inr report := by
  simp only [verdict_eq_inl_iff]
  cases h with
  | @ready k hsettled hfirst hallowed =>
      refine ⟨k, rfl, fun j hj => ⟨hfirst j hj, fun most hmost => ?_⟩, ?_⟩
      · have hle := hallowed most hmost
        omega
      · rw [verdict, missing_eq_nil_iff.2 hsettled]
        rfl
  | @gaveUp most hmost hnever =>
      refine ⟨max 1 most - 1, by omega, fun j hj => ⟨hnever j (by omega), ?_⟩, ?_⟩
      · intro most' hmost'
        rw [hmost] at hmost'
        cases hmost'
        omega
      · have hmissing : p.missing (max 1 most - 1) ≠ [] :=
          mt missing_eq_nil_iff.1 (hnever _ (by omega))
        have hpolls : max 1 most - 1 + 1 = max 1 most := by omega
        rw [verdict, hpolls, if_neg (by simpa using hmissing),
          if_pos (exhausted_iff.2 ⟨most, hmost, Nat.le_max_right ..⟩)]

/-- Attempts that are followed by another, and one that is not, are an end. -/
theorem ends_of_verdicts {report : InitReport}
    (hbefore : ∀ j < k, p.verdict policy j = .inl (j + 1))
    (hlast : p.verdict policy k = .inr report) : p.Ends policy (k + 1) report := by
  simp only [verdict_eq_inl_iff] at hbefore
  have hallowed : ∀ most, policy.maxAttempts = some most → k + 1 ≤ max 1 most := by
    intro most hmost
    cases k with
    | zero => exact Nat.le_max_left ..
    | succ j => exact Nat.le_trans ((hbefore j (by omega)).2 most hmost) (Nat.le_max_right ..)
  unfold verdict at hlast
  split at hlast
  · rename_i hmissing
    cases hlast
    exact .ready (missing_eq_nil_iff.1 (List.isEmpty_iff.1 hmissing))
      (fun j hj => (hbefore j hj).1) hallowed
  · rename_i hmissing
    split at hlast
    · rename_i hexhausted
      cases hlast
      rcases exhausted_iff.1 hexhausted with ⟨most, hmost, hle⟩
      -- The attempts ran out with this one and not before.
      have hpolls : k + 1 = max 1 most := by
        have hle' := hallowed most hmost
        omega
      have hk : k = max 1 most - 1 := by omega
      have hnever : ∀ j < max 1 most, ¬ p.Settled j := by
        intro j hj
        by_cases hjk : j < k
        · exact (hbefore j hjk).1
        · obtain rfl : j = k := by omega
          exact fun hsettled => hmissing (List.isEmpty_iff.2 (missing_eq_nil_iff.2 hsettled))
      have hends := Ends.gaveUp hmost hnever
      rwa [← hk, ← hpolls] at hends
    · cases hlast

/-- A pass whose attempts are bounded ends within its bound. -/
theorem exists_end (p : Polling) {most : Nat} (hmost : policy.maxAttempts = some most) :
    ∃ n report, p.Ends policy n report ∧ n ≤ max 1 most := by
  by_cases hsettled : ∃ k < max 1 most, p.Settled k
  · have hex : ∃ k, p.Settled k := hsettled.imp fun _ h => h.2
    rcases hsettled with ⟨k, hk, hsettled⟩
    have hle : Nat.find hex + 1 ≤ max 1 most :=
      Nat.lt_of_le_of_lt (Nat.find_min' hex hsettled) hk
    refine ⟨_, _, .ready (Nat.find_spec hex) (fun j hj => Nat.find_min hex hj) ?_, hle⟩
    intro most' hmost'
    rw [hmost] at hmost'
    cases hmost'
    exact hle
  · refine ⟨_, _, .gaveUp hmost fun k hk hsettled' => hsettled ⟨k, hk, hsettled'⟩, Nat.le_refl _⟩

end Polling

end ActionChain
