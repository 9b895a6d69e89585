import ActionChain.Proofs.Guild.Protocol

/-!
# Passes and Requests

How many passes can be started for so many requests.

A pass that is started clears the flag for requests, so one pass answers all
requests that are up, and it may seem that there are no more passes than requests.
That is so as long as a call that takes the flag for running finds a request up.
It need not. Between its own request, or the look at somebody else's, and taking
the flag for running, another call may take that flag, clear the request and run a
pass; the call then takes the flag although nothing is asked for. Counting these
stale takes as well, the balance is kept (`Board.Balanced.charged`).

There is a bound without them. A call goes round again only for a request that
another call left since its own pass was started. Each call leaves one request, so
the first call can go round for all the others, the second for all but one, and so
on (`Board.Balanced.owed`).

## Main definitions

* `Mark.leaves`: whether a request is up behind a mark.
* `Mark.passes`, `Mark.requests`, `Mark.staleTakes`: what is counted.
* `Stage.owes`: a pass may still be started for a request.
* `Board.Balanced`: what holds of the counts after any number of turns.

## Theorems

* `Stage.Moves.counted`: what a turn does to the counts.
* `Board.Balanced.turn`: a turn keeps a board balanced.
-/

namespace ActionChain

namespace Mark

/-- Whether a request is up behind a mark. -/
def leaves (up : Bool) : Mark → Bool
  | .requested _ => true
  | .started _ => false
  | .took _ | .deferred _ _ => up

/-- Whether a request is up behind a record. -/
def leftUp (history : List Mark) : Bool := history.foldl leaves false

/-- The passes that were started. -/
def passes (history : List Mark) : Nat :=
  history.countP fun m => m matches .started _

/-- The requests that were left. -/
def requests (history : List Mark) : Nat :=
  history.countP fun m => m matches .requested _

/-- How often a call took the flag for running while no request was up, from whether one
was up at first. -/
def staleTakesFrom : (up : Bool) → List Mark → Nat
  | _, [] => 0
  | up, .took i :: rest => (if up then 0 else 1) + staleTakesFrom (leaves up (.took i)) rest
  | up, m :: rest => staleTakesFrom (leaves up m) rest

/-- How often a call took the flag for running while no request was up. -/
def staleTakes (history : List Mark) : Nat := staleTakesFrom false history

theorem staleTakesFrom_append (up : Bool) (history ms : List Mark) :
    staleTakesFrom up (history ++ ms) =
      staleTakesFrom up history + staleTakesFrom (history.foldl leaves up) ms := by
  induction history generalizing up with
  | nil => simp [staleTakesFrom]
  | cons m history ih =>
      cases m <;> simp [staleTakesFrom, ih, Nat.add_assoc]

theorem leftUp_append (history ms : List Mark) :
    leftUp (history ++ ms) = ms.foldl leaves (leftUp history) :=
  List.foldl_append ..

@[simp] theorem passes_append (history ms : List Mark) :
    passes (history ++ ms) = passes history + passes ms :=
  List.countP_append

@[simp] theorem requests_append (history ms : List Mark) :
    requests (history ++ ms) = requests history + requests ms :=
  List.countP_append

@[simp] theorem staleTakes_append (history ms : List Mark) :
    staleTakes (history ++ ms) = staleTakes history + staleTakesFrom (leftUp history) ms :=
  staleTakesFrom_append ..

@[simp] theorem passes_nil : passes [] = 0 := rfl

@[simp] theorem requests_nil : requests [] = 0 := rfl

@[simp] theorem passes_singleton (m : Mark) :
    passes [m] = if m matches .started _ then 1 else 0 :=
  List.countP_singleton

@[simp] theorem requests_singleton (m : Mark) :
    requests [m] = if m matches .requested _ then 1 else 0 :=
  List.countP_singleton

end Mark

namespace Stage

/-- A call may still start a pass for a request: its own, one it has seen, or one it will
see when its pass is over. -/
def owes (up : Bool) : Stage → Bool
  | .claiming | .clearing | .reclaiming => true
  | .passing | .releasing | .checking => up
  | .requesting | .ended _ => false

theorem ne_requesting_of_owes {up : Bool} {s : Stage} (h : s.owes up = true) : s ≠ .requesting := by
  rintro rfl
  cases h

theorem owes_of_owes {s : Stage} (h : s.owes false = true) (up : Bool) : s.owes up = true := by
  cases s <;> simp_all [owes]

/-- What a turn does to the counts. A request is left; a pass is started, which clears the
request; the flag for running is taken; or nothing is counted, and no call comes to owe a
pass that did not before. -/
inductive Counted (i : Nat) (s t : Stage) (f f' : Flags) : List Mark → Prop
  | request (hs : s = .requesting) (ht : t = .claiming) (hup : f'.requested = true) :
      Counted i s t f f' [.requested i]
  | start (hs : s = .clearing) (ht : t = .passing) (hup : f'.requested = false) :
      Counted i s t f f' [.started i]
  | take (hs : s = .claiming ∨ s = .reclaiming) (ht : t = .clearing) (hfree : f.running = false)
      (hup : f'.requested = f.requested) : Counted i s t f f' [.took i]
  | other {ms : List Mark} (hms : ms = [] ∨ ∃ o, ms = [.deferred i o])
      (hs : s ≠ .requesting ∧ s ≠ .clearing) (ht : t ≠ .requesting ∧ t ≠ .clearing)
      (howes : ∀ up, f.requested = up → t.owes up = true → s.owes up = true)
      (hup : f'.requested = f.requested) : Counted i s t f f' ms

theorem Moves.counted {holder : Option Nat} {i : Nat} {s t : Stage} {f f' : Flags}
    {ms : List Mark} (h : Moves holder i s f t f' ms) : Counted i s t f f' ms := by
  cases h with
  | request => exact .request rfl rfl rfl
  | start => exact .start rfl rfl rfl
  | claim hrunning => exact .take (.inl rfl) rfl hrunning rfl
  | reclaim hrunning => exact .take (.inr rfl) rfl hrunning rfl
  | defer => exact .other (.inr ⟨_, rfl⟩) (by decide) (by decide) nofun rfl
  | again hrequested =>
      -- Who sees a request owed a pass for it before.
      exact .other (.inl rfl) (by decide) (by decide) (fun up hup _ => hup ▸ hrequested) rfl
  | pass | finish | release => exact .other (.inl rfl) (by decide) (by decide) (fun _ _ h => h) rfl
  | rest | yield => exact .other (.inl rfl) (by decide) (by simp) nofun rfl

end Stage

namespace Board

/-- What holds of the counts after any number of turns. -/
structure Balanced (b : Board) : Prop where
  leftUp : Mark.leftUp b.history = b.flags.requested
  requests : Mark.requests b.history = b.stages.countP (· ≠ .requesting)
  /-- Every pass has a request of its own or was started behind a stale take. -/
  charged : Mark.passes b.history ≤ Mark.requests b.history + Mark.staleTakes b.history
  /-- While a request is up or about to be answered, there is one to spare. -/
  spare : b.flags.requested = true ∨ .clearing ∈ b.stages →
    Mark.passes b.history < Mark.requests b.history + Mark.staleTakes b.history
  /-- The passes that were started and those that are owed are no more than one for every
  request and the call that left it or an earlier one. -/
  owed : 2 * (Mark.passes b.history + b.stages.countP (Stage.owes b.flags.requested)) ≤
    Mark.requests b.history * (Mark.requests b.history + 1)
  /-- A call has started passes only after its request. -/
  behind : ∀ i : Nat, .started i ∈ b.history →
    ∃ s : Stage, b.stages[i]? = some s ∧ s ≠ .requesting
  /-- A call that owes a pass does so for a request of another since its own pass was
  started. -/
  since : ∀ (i : Nat) (s : Stage), b.stages[i]? = some s → s.owes b.flags.requested = true →
    ∀ before after : List Mark, b.history = before ++ .started i :: after →
      ∃ j : Nat, j ≠ i ∧ .requested j ∈ after
  /-- Between two passes of a call another left a request. -/
  between : ∀ (i : Nat) (before mid after : List Mark),
    b.history = before ++ .started i :: (mid ++ .started i :: after) →
      ∃ j : Nat, j ≠ i ∧ .requested j ∈ mid

variable {b b' : Board} {i : Nat}

/-- One call changes its stage. What it no longer counts for is lost, and what it counts for
now is gained. -/
theorem countP_set_add (p : Stage → Bool) {l : List Stage} {s : Stage} (hs : l[i]? = some s)
    (t : Stage) :
    (l.set i t).countP p + (if p s then 1 else 0) = l.countP p + (if p t then 1 else 0) := by
  obtain ⟨hlt, hget⟩ := List.getElem?_eq_some_iff.1 hs
  rw [List.countP_set hlt, hget]
  have hpos : p s = true → 0 < l.countP p := fun hp =>
    List.countP_pos_iff.2 ⟨s, List.mem_of_getElem? hs, hp⟩
  by_cases hp : p s = true
  · have := hpos hp
    simp only [if_pos hp]
    omega
  · simp only [if_neg hp]
    omega

/-- What is put behind a record is a single mark at most. If a mark is singled out in the
result, it stood in the record before or is the new one. -/
theorem append_cases {history ms before after : List Mark} {m : Mark} (hms : ms.length ≤ 1)
    (h : history ++ ms = before ++ m :: after) :
    (∃ rest, after = rest ++ ms ∧ history = before ++ m :: rest) ∨
      (ms = [m] ∧ after = [] ∧ history = before) := by
  rcases List.append_eq_append_iff.1 h with ⟨rest, hbefore, hnew⟩ | ⟨rest, hhistory, hnew⟩
  · have hlength := congrArg List.length hnew
    simp only [List.length_append, List.length_cons] at hlength
    obtain rfl : rest = [] := List.length_eq_zero_iff.1 (by omega)
    obtain rfl : after = [] := List.length_eq_zero_iff.1 (by omega)
    exact .inr ⟨hnew, rfl, by rw [hbefore, List.append_nil]⟩
  · rcases rest with _ | ⟨m', rest⟩
    · rw [List.nil_append] at hnew
      subst hnew
      obtain rfl : after = [] := List.length_eq_zero_iff.1 (by simpa using hms)
      exact .inr ⟨rfl, rfl, by rw [hhistory, List.append_nil]⟩
    · rw [List.cons_append, List.cons.injEq] at hnew
      rcases hnew with ⟨rfl, rfl⟩
      exact .inl ⟨rest, rfl, hhistory⟩

namespace Balanced

theorem start : Balanced ⟨.clear, [], []⟩ := by
  constructor <;> simp [Flags.clear, Mark.leftUp, Mark.requests, Mark.passes]

/-- A call that begins changes no count. -/
theorem call (h : b.Balanced) : Balanced ⟨b.flags, b.stages ++ [.requesting], b.history⟩ := by
  constructor
  case leftUp => exact h.leftUp
  case requests => simpa using h.requests
  case charged => exact h.charged
  case spare => simpa using h.spare
  case owed =>
    rw [List.countP_append]
    simpa [Stage.owes] using h.owed
  case behind =>
    intro i hi
    rcases h.behind i hi with ⟨s, hs, hne⟩
    exact ⟨s, by grind, hne⟩
  case since =>
    intro i s hs howes
    have hne := Stage.ne_requesting_of_owes howes
    exact h.since i s (by grind) howes
  case between => exact h.between

/-! ## A turn

One field at a time, from what a turn does to the counts. -/

section Turn

variable {s t : Stage} {f : Flags} {ms : List Mark} (h : b.Balanced)
  (hs : b.stages[i]? = some s) (hcounted : Stage.Counted i s t b.flags f ms)
include h hs hcounted

omit hs in
theorem leftUp_of_counted : Mark.leftUp (b.history ++ ms) = f.requested := by
  rw [Mark.leftUp_append, h.leftUp]
  cases hcounted with
  | request _ _ hup | start _ _ hup | take _ _ _ hup => exact hup.symm
  | other hms _ _ _ hup => rcases hms with rfl | ⟨o, rfl⟩ <;> exact hup.symm

theorem requests_of_counted :
    Mark.requests (b.history ++ ms) = (b.stages.set i t).countP (· ≠ .requesting) := by
  have hset := countP_set_add (· ≠ .requesting) hs t
  rw [Mark.requests_append, h.requests]
  cases hcounted with
  | request _ _ _ | start _ _ _ => simp_all
  | take hs' _ _ _ => rcases hs' with rfl | rfl <;> simp_all
  | other hms _ _ _ _ => rcases hms with rfl | ⟨o, rfl⟩ <;> simp_all

/-- A pass is charged to the request that is up as the flag is cleared. -/
theorem charged_of_counted :
    Mark.passes (b.history ++ ms) ≤
      Mark.requests (b.history ++ ms) + Mark.staleTakes (b.history ++ ms) := by
  have hcharged := h.charged
  cases hcounted with
  | request _ _ _ | take _ _ _ _ =>
      -- One more request, or one more stale take if any.
      simp
      omega
  | start hs' _ _ =>
      have hspare := h.spare (.inr (hs' ▸ List.mem_of_getElem? hs))
      simp [Mark.staleTakesFrom]
      omega
  | other hms _ _ _ _ =>
      rcases hms with rfl | ⟨o, rfl⟩ <;> simpa [Mark.staleTakesFrom] using hcharged

/-- Who takes the flag behind a stale take has that one to spare. -/
theorem spare_of_counted (hsound : b.Sound)
    (hup : f.requested = true ∨ .clearing ∈ b.stages.set i t) :
    Mark.passes (b.history ++ ms) <
      Mark.requests (b.history ++ ms) + Mark.staleTakes (b.history ++ ms) := by
  have hcharged := h.charged
  cases hcounted with
  | request _ _ _ =>
      simp [Mark.staleTakesFrom]
      omega
  | start hs' ht hdown =>
      -- The flag is down now, and nobody else was about to clear it.
      subst hs' ht
      rcases hup with hup | hmem
      · exact absurd hup (by simp [hdown])
      · obtain ⟨j, hj⟩ := List.mem_iff_getElem?.1 hmem
        rcases getElem?_set hj with ⟨-, hstage⟩ | ⟨hne, hj⟩
        · cases hstage
        · exact absurd (hsound.single j i _ _ hj hs rfl rfl) hne
  | take _ _ _ hsame =>
      by_cases hrequested : b.flags.requested = true
      · have hspare := h.spare (.inl hrequested)
        simp [Mark.staleTakesFrom]
        omega
      · simp [Mark.staleTakesFrom, h.leftUp, hrequested]
        omega
  | other hms _ ht _ hsame =>
      have hspare : b.flags.requested = true ∨ .clearing ∈ b.stages := by
        refine hup.imp (fun h => hsame ▸ h) fun hmem => ?_
        exact (List.mem_or_eq_of_mem_set hmem).resolve_right ht.2.symm
      rcases hms with rfl | ⟨o, rfl⟩ <;> simpa [Mark.staleTakesFrom] using h.spare hspare

/-- Every call is behind its request, so a new request makes at most as many calls owe a pass
as there are requests. -/
theorem owed_of_counted :
    2 * (Mark.passes (b.history ++ ms) + (b.stages.set i t).countP (Stage.owes f.requested)) ≤
      Mark.requests (b.history ++ ms) * (Mark.requests (b.history ++ ms) + 1) := by
  have howed := h.owed
  have hset := countP_set_add (Stage.owes f.requested) hs t
  have hrequests := h.requests_of_counted hs hcounted
  cases hcounted with
  | request hs' ht _ =>
      -- Now everybody with a request may owe a pass, and there are as many as requests.
      have hall : (b.stages.set i t).countP (Stage.owes f.requested) ≤
          (b.stages.set i t).countP (· ≠ .requesting) :=
        List.countP_mono_left fun u _ hu => by simpa using Stage.ne_requesting_of_owes hu
      rw [← hrequests] at hall
      have hnext : (Mark.requests b.history + 1) * (Mark.requests b.history + 1 + 1) =
          Mark.requests b.history * (Mark.requests b.history + 1) +
            2 * (Mark.requests b.history + 1) := by grind
      simp at hall ⊢
      omega
  | start hs' ht hdown =>
      -- The pass is no longer owed, and the others owe no more than they did.
      have hothers : b.stages.countP (Stage.owes f.requested) ≤
          b.stages.countP (Stage.owes b.flags.requested) :=
        List.countP_mono_left fun u _ hu => Stage.owes_of_owes (hdown ▸ hu) _
      have hless : (b.stages.set i t).countP (Stage.owes f.requested) + 1 =
          b.stages.countP (Stage.owes f.requested) := by
        simpa [hs', ht, hdown, Stage.owes] using hset
      simp
      omega
  | take hs' ht _ hup =>
      rw [hup] at hset ⊢
      rcases hs' with rfl | rfl <;> simp_all [Stage.owes]
  | other hms _ _ howes hup =>
      rw [hup] at hset ⊢
      -- The flag is as it was, so what is owed changes by the stage of this call alone.
      have hless : (b.stages.set i t).countP (Stage.owes b.flags.requested) ≤
          b.stages.countP (Stage.owes b.flags.requested) := by
        by_cases ht : t.owes b.flags.requested = true
        · rw [if_pos ht, if_pos (howes _ rfl ht)] at hset
          omega
        · rw [if_neg ht] at hset
          omega
      rcases hms with rfl | ⟨o, rfl⟩ <;> simp <;> omega

omit h hs in
/-- A start that is singled out happened before or is the last thing that happened. -/
theorem started_of_counted {j : Nat} {before after : List Mark}
    (hhistory : b.history ++ ms = before ++ .started j :: after) :
    (∃ rest, after = rest ++ ms ∧ b.history = before ++ .started j :: rest) ∨
      (j = i ∧ s = .clearing ∧ after = [] ∧ b.history = before) := by
  have hms : ms.length ≤ 1 := by
    cases hcounted with
    | request | start | take => simp
    | other hms _ _ _ _ => rcases hms with rfl | ⟨o, rfl⟩ <;> simp
  rcases append_cases hms hhistory with hold | ⟨rfl, hafter, hbefore⟩
  · exact .inl hold
  · cases hcounted with
    | start hs' _ _ => exact .inr ⟨rfl, hs', hafter, hbefore⟩
    | other hms _ _ _ _ => simp at hms

theorem behind_of_counted {j : Nat} (hj : .started j ∈ b.history ++ ms) :
    ∃ u : Stage, (b.stages.set i t)[j]? = some u ∧ u ≠ .requesting := by
  have hne : t ≠ .requesting := by
    cases hcounted with
    | request _ ht _ | start _ ht _ | take _ ht _ _ => simp [ht]
    | other _ _ ht _ _ => exact ht.1
  by_cases hji : j = i
  · subst hji
    exact ⟨t, by grind, hne⟩
  · -- Only the call that moves can have started a pass now.
    obtain ⟨before, after, hhistory⟩ := List.append_of_mem hj
    rcases started_of_counted hcounted hhistory with ⟨rest, -, hold⟩ | ⟨hji', -⟩
    · rcases h.behind j (by simp [hold]) with ⟨u, hu, hne⟩
      exact ⟨u, by grind, hne⟩
    · exact absurd hji' hji

omit h in
/-- Who owes a pass after a turn that leaves no request owed it before, and has not just
started it. -/
theorem owes_of_counted {j : Nat} {u : Stage} (hu : (b.stages.set i t)[j]? = some u)
    (howes : u.owes f.requested = true) :
    (s = .requesting ∧ ms = [.requested i]) ∨
      ∃ v : Stage, b.stages[j]? = some v ∧ v.owes b.flags.requested = true ∧
        (j = i → s ≠ .clearing) := by
  cases hcounted with
  | request hs' _ _ => exact .inl ⟨hs', rfl⟩
  | start hs' ht hdown =>
      rw [hdown] at howes
      rcases getElem?_set hu with ⟨-, rfl⟩ | ⟨hne, hu⟩
      · rw [ht] at howes
        cases howes
      · exact .inr ⟨u, hu, Stage.owes_of_owes howes _, fun hji => absurd hji hne⟩
  | take hs' _ _ hup =>
      rw [hup] at howes
      rcases getElem?_set hu with ⟨rfl, -⟩ | ⟨hne, hu⟩
      · exact .inr ⟨s, hs, by rcases hs' with rfl | rfl <;> rfl,
          by rcases hs' with rfl | rfl <;> simp⟩
      · exact .inr ⟨u, hu, howes, fun hji => absurd hji hne⟩
  | other _ hs' _ hbefore hup =>
      rw [hup] at howes
      rcases getElem?_set hu with ⟨rfl, rfl⟩ | ⟨hne, hu⟩
      · exact .inr ⟨s, hs, hbefore _ rfl howes, fun _ => hs'.2⟩
      · exact .inr ⟨u, hu, howes, fun hji => absurd hji hne⟩

/-- Who sees a request after its own pass was started sees that of another. -/
theorem since_of_counted {j : Nat} {u : Stage} (hu : (b.stages.set i t)[j]? = some u)
    (howes : u.owes f.requested = true) {before after : List Mark}
    (hhistory : b.history ++ ms = before ++ .started j :: after) :
    ∃ k : Nat, k ≠ j ∧ .requested k ∈ after := by
  have hbefore := owes_of_counted hs hcounted hu howes
  rcases started_of_counted hcounted hhistory with ⟨rest, rfl, hold⟩ | ⟨rfl, rfl, rfl, -⟩
  · rcases hbefore with ⟨rfl, rfl⟩ | ⟨v, hv, hvowes, -⟩
    · -- Who leaves a request now has not started a pass yet.
      have hne : i ≠ j := by
        rintro rfl
        rcases h.behind i (by simp [hold]) with ⟨w, hw, hne⟩
        exact hne (Option.some.inj (hw.symm.trans hs))
      exact ⟨i, hne, by simp⟩
    · rcases h.since j v hv hvowes before rest hold with ⟨k, hne, hk⟩
      exact ⟨k, hne, List.mem_append_left _ hk⟩
  · rcases hbefore with ⟨hs', -⟩ | ⟨v, -, -, hne⟩
    · cases hs'
    · exact absurd rfl (hne rfl)

theorem between_of_counted {j : Nat} {before mid after : List Mark}
    (hhistory : b.history ++ ms = before ++ .started j :: (mid ++ .started j :: after)) :
    ∃ k : Nat, k ≠ j ∧ .requested k ∈ mid := by
  have hassoc : b.history ++ ms = (before ++ .started j :: mid) ++ .started j :: after := by
    simpa using hhistory
  rcases started_of_counted hcounted hassoc with ⟨rest, -, hold⟩ | ⟨rfl, hs', -, hold⟩
  · exact h.between j before mid rest (by simpa using hold)
  · -- The pass that is started now was owed for a request since the last one.
    subst hs'
    exact h.since j _ hs rfl before mid hold

end Turn

/-- A turn of any call keeps a sound board balanced. -/
theorem turn (hsound : b.Sound) (h : b.Balanced) (hturn : Turn i b b') : b'.Balanced := by
  cases hturn with
  | mk hs hmove =>
      have hcounted := hmove.counted
      exact {
        leftUp := h.leftUp_of_counted hcounted
        requests := h.requests_of_counted hs hcounted
        charged := h.charged_of_counted hs hcounted
        spare := h.spare_of_counted hs hcounted hsound
        owed := h.owed_of_counted hs hcounted
        behind := fun _ => h.behind_of_counted hs hcounted
        since := fun _ _ hu howes _ _ => h.since_of_counted hs hcounted hu howes
        between := fun _ _ _ _ => h.between_of_counted hs hcounted }

end Balanced

end Board

end ActionChain
