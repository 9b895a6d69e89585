import ActionChain.Proofs.Guild.Balance
import ActionChain.Proofs.Guild.SingleFlight

/-!
# Passes Nobody Asked For

A call goes round again for a request that came in while its pass was under way.
Between looking for the request and taking the flag for running others may have
their turns. If one of them takes the request over and has finished its pass by
then, the flag is down again, and the call runs one more pass although nothing is
asked for. The same can happen to a call between its own request and its first look
at the flag. There are then more passes than requests.

How many more is settled here in both directions. Over all calls and interleavings,
the passes are no more than the requests and the stale takes of the flag, and no more
than there are pairs of a request and one that is no later (`Scene.Reached.passes_le`);
and calls that keep waiting between the two steps do start that many
(`Scene.exists_passes_eq`). If no turn of others falls between the two steps, no pass
is started without a request of its own.

## Main definitions

* `Board.Heeded`: who is about to take the flag for running has a request in view.
* `Scene.Undisturbed`: the scenes in which nobody comes between a look and the taking
  of the flag.
* `Scene.Attainable`: calls can come to stand so, after so many passes and requests.

## Theorems

* `Scene.Reached.balanced`: a reached scene is balanced.
* `Scene.Reached.passes_le`: how many passes are started for so many requests.
* `Scene.exists_passes_eq`: that many can be started.
-/

namespace ActionChain

/-! ## Takes that are not stale -/

namespace Stage

/-- About to take the flag for running. -/
def claims : Stage → Bool
  | .claiming | .reclaiming => true
  | _ => false

/-- Who has just come to be about to take the flag has a request in view. -/
theorem Moves.up_of_claims {holder : Option Nat} {i : Nat} {s t : Stage} {f f' : Flags}
    {ms : List Mark} (h : Moves holder i s f t f' ms) (ht : t.claims = true) :
    f'.requested = true := by
  cases h <;> simp_all [claims]

/-- The flag is taken by one who is about to, and it is stale if no request is up. -/
theorem Moves.staleTakesFrom {holder : Option Nat} {i : Nat} {s t : Stage} {f f' : Flags}
    {ms : List Mark} (h : Moves holder i s f t f' ms)
    (hup : s.claims = true → f.requested = true) : Mark.staleTakesFrom f.requested ms = 0 := by
  cases h <;> simp_all [claims, Mark.staleTakesFrom]

end Stage

namespace Board

/-- Whoever is about to take the flag for running has a request in view, and so had
everybody who took it. -/
structure Heeded (b : Board) : Prop where
  fresh : Mark.staleTakes b.history = 0
  up : ∀ (i : Nat) (s : Stage), b.stages[i]? = some s → s.claims = true →
    b.flags.requested = true

variable {b b' : Board} {i : Nat}

/-- A call that begins is not yet about to take the flag. -/
theorem Heeded.call (h : b.Heeded) : Heeded ⟨b.flags, b.stages ++ [.requesting], b.history⟩ := by
  refine ⟨h.fresh, fun j u hu hclaims => h.up j u ?_ hclaims⟩
  have hne : u ≠ .requesting := by
    rintro rfl
    cases hclaims
  grind

/-- A turn keeps it so if nobody else is about to take the flag. -/
theorem Heeded.turn (h : b.Heeded) (hbalanced : b.Balanced) (hturn : Turn i b b')
    (hnext : ∀ (j : Nat) (s : Stage), b.stages[j]? = some s → s.claims = true → j = i) :
    b'.Heeded := by
  cases hturn with
  | mk hs hmove =>
      constructor
      · rw [Mark.staleTakes_append, h.fresh, hbalanced.leftUp]
        simpa using hmove.staleTakesFrom (h.up i _ hs)
      · intro j u hu hclaims
        rcases getElem?_set hu with ⟨-, rfl⟩ | ⟨hne, hu⟩
        · exact hmove.up_of_claims hclaims
        · exact absurd (hnext j u hu hclaims) hne

end Board

namespace Scene

variable {β κ : Type} {s : Scene β κ}

section Bound

variable [Conduct β]

/-- What is counted of any interleaving is balanced. -/
theorem Reached.balanced (h : Reached s) : s.board.Balanced := by
  induction h with
  | start hflags =>
      simp only [board, Scene.start, hflags]
      exact .start
  | call hlisting h ih =>
      simpa [board, Scene.call, Standing.stage, Caller.start, Call.stage] using ih.call
  | others bot surroundings h ih => exact ih
  | turn i h ih =>
      rcases h.board_turn_cases i with hsame | hturn
      · rwa [hsame]
      · exact ih.turn h.sound hturn

/-- The scenes that are reached if a call that is about to take the flag for running has
the next turn. -/
inductive Undisturbed : Scene β κ → Prop
  | start {hub : Hub β κ} (hflags : hub.flags = .clear) : Undisturbed (start hub)
  | call {s : Scene β κ} {listing : Routine (Hub β κ) (List GuildStatus)}
      (hlisting : listing.Keeps Hub.SameFlags) (h : Undisturbed s) :
      Undisturbed (s.call (Pass.attempt Hub.desk listing))
  | others {s : Scene β κ} (bot : Bot β) (surroundings : κ) (h : Undisturbed s) :
      Undisturbed { s with hub := { s.hub with bot, surroundings } }
  | turn {s : Scene β κ} (i : Nat)
      (hnext : ∀ j : Fin s.standings.length, s.standings[j].stage.claims = true → j = i)
      (h : Undisturbed s) : Undisturbed (s.turn i)

theorem Undisturbed.reached (h : Undisturbed s) : Reached s := by
  induction h with
  | start hflags => exact .start hflags
  | call hlisting _ ih => exact ih.call hlisting
  | others bot surroundings _ ih => exact ih.others bot surroundings
  | turn i _ _ ih => exact ih.turn i

/-- Nobody takes the flag for running behind a request that is gone. -/
theorem Undisturbed.heeded (h : Undisturbed s) : s.board.Heeded := by
  induction h with
  | start hflags => exact ⟨rfl, by simp [board, Scene.start]⟩
  | call hlisting h ih =>
      simpa [board, Scene.call, Standing.stage, Caller.start, Call.stage] using ih.call
  | others bot surroundings h ih => exact ih
  | turn i hnext h ih =>
      rcases h.reached.board_turn_cases i with hsame | hturn
      · rwa [hsame]
      · refine ih.turn h.reached.balanced hturn fun j t ht hclaims => ?_
        rw [board, List.getElem?_map, Option.map_eq_some_iff] at ht
        rcases ht with ⟨standing, hj, rfl⟩
        obtain ⟨hlt, rfl⟩ := List.getElem?_eq_some_iff.1 hj
        exact hnext ⟨j, hlt⟩ hclaims

/-- For so many requests, in every scene that calls, their steps and the doings of others
lead to: the passes are no more than the requests and the stale takes of the flag for
running; no more than the pairs of a request and one that is no later; a call that starts
another pass does so after a request of another call since its last one; and where nobody
comes between a look at a request and the taking of the flag, each pass has a request of
its own. -/
theorem Reached.passes_le (h : Reached s) :
    Mark.passes s.history ≤ Mark.requests s.history + Mark.staleTakes s.history ∧
    2 * Mark.passes s.history ≤ Mark.requests s.history * (Mark.requests s.history + 1) ∧
    (∀ (i : Nat) (before mid after : List Mark),
      s.history = before ++ .started i :: (mid ++ .started i :: after) →
        ∃ j : Nat, j ≠ i ∧ .requested j ∈ mid) ∧
    (Undisturbed s → Mark.passes s.history ≤ Mark.requests s.history) := by
  have hcharged := h.balanced.charged
  refine ⟨hcharged, ?_, h.balanced.between, fun hundisturbed => ?_⟩
  · have howed := h.balanced.owed
    simp only [board] at howed
    omega
  · -- Who takes the flag with a request in view takes it for that request.
    have hfresh := hundisturbed.heeded.fresh
    simp only [board] at hcharged hfresh
    omega

/-- Two calls. The second leaves a request during the pass of the first, and takes the flag,
runs a pass and lets the flag go between the look of the first and its taking of the flag. -/
def hasty : Scene Shipped Unit :=
  ((quiet.call (Pass.attempt Hub.desk (pure []))).call (Pass.attempt Hub.desk (pure []))).play
    [0, 0, 0, 1, 0, 0, 0, 0, 1, 1, 1, 1, 1, 1, 0, 0, 0, 0, 0, 0]

theorem Reached.passes_le_hasty :
    hasty.Reached ∧
    hasty.history = [.requested 0, .took 0, .started 0, .requested 1, .took 1, .started 1,
      .took 0, .started 0] ∧
    Mark.passes hasty.history = 3 ∧ Mark.requests hasty.history = 2 ∧
    Mark.staleTakes hasty.history = 1 ∧
    Mark.passes hasty.history ≤ Mark.requests hasty.history + Mark.staleTakes hasty.history ∧
    ¬ Undisturbed hasty ∧
    Undisturbed pair ∧ Mark.passes pair.history ≤ Mark.requests pair.history := by
  have hcalls : Undisturbed ((quiet.call (Pass.attempt Hub.desk (pure []))).call
      (Pass.attempt Hub.desk (pure []))) :=
    ((Undisturbed.start rfl).call (.pure _)).call (.pure _)
  have hhasty : hasty.Reached := hcalls.reached.play _
  -- The first call takes the flag, the second leaves its request to it.
  have hleft := (((hcalls.turn 0 (by decide)).turn 0 (by decide)).turn 1 (by decide)).turn 1
    (by decide)
  have hpair : Undisturbed pair := by
    have hended := ((((hleft.turn 0 (by decide)).turn 0 (by decide)).turn 0 (by decide)).turn 0
      (by decide)).turn 0 (by decide)
    exact hended
  have hhistory : hasty.history = [.requested 0, .took 0, .started 0, .requested 1, .took 1,
      .started 1, .took 0, .started 0] := rfl
  have hpasses : Mark.passes hasty.history = 3 := by rw [hhistory]; rfl
  have hrequests : Mark.requests hasty.history = 2 := by rw [hhistory]; rfl
  have hstale : Mark.staleTakes hasty.history = 1 := by rw [hhistory]; rfl
  have hle := hhasty.passes_le
  refine ⟨hhasty, hhistory, hpasses, hrequests, hstale, hle.1, fun hundisturbed => ?_, hpair, ?_⟩
  · have hfew := hle.2.2.2 hundisturbed
    omega
  · exact hpair.reached.passes_le.2.2.2 hpair

end Bound

/-! ## How many passes there can be -/

section Attainable

variable [Conduct β]

/-- A call for passes that find no guilds. -/
abbrev idler (c : Call (Hub β κ)) : Standing β κ :=
  .underWay ⟨Pass.attempt Hub.desk (pure []), c⟩

/-- Calls can come to stand so under these flags, after so many passes and requests. -/
def Attainable (standings : List (Standing β κ)) (flags : Flags) (passes requests : Nat) : Prop :=
  ∃ s : Scene β κ, s.Reached ∧ s.standings = standings ∧ s.hub.flags = flags ∧
    Mark.passes s.history = passes ∧ Mark.requests s.history = requests

namespace Attainable

variable {front back standings : List (Standing β κ)} {c d : Call (Hub β κ)} {f g : Flags}
  {p r m q n : Nat}

/-- A call begins. -/
theorem call (h : Attainable standings f p r) :
    Attainable (standings ++ [idler .requesting]) f p r := by
  rcases h with ⟨s, hreached, rfl, hflags, hp, hr⟩
  exact ⟨s.call (Pass.attempt Hub.desk (pure [])), hreached.call (.pure _), rfl, hflags, hp, hr⟩

/-- A call takes a step that it takes under the flags, whatever else the hub is like. -/
theorem turn (h : Attainable (front ++ idler c :: back) f p r)
    (hstep : ∀ (bot : Bot β) (surroundings : κ),
      (idler c).step ⟨bot, f, surroundings⟩ = (⟨bot, g, surroundings⟩, idler d))
    (hmarks : ∀ (holder : Option Nat) (i : Nat),
      Mark.passes (Standing.marks holder i c.stage d.stage) = m ∧
        Mark.requests (Standing.marks holder i c.stage d.stage) = q) :
    Attainable (front ++ idler d :: back) g (p + m) (r + q) := by
  rcases h with ⟨⟨⟨bot, flags, surroundings⟩, standings, history⟩, hreached, rfl, rfl, rfl, rfl⟩
  refine ⟨_, hreached.turn front.length, ?_⟩
  -- The mark names a holder and a position, but what it counts for does not depend on them.
  have hcounts := hmarks
    (board ⟨⟨bot, flags, surroundings⟩, front ++ idler c :: back, history⟩).holder? front.length
  simp only [Scene.turn, List.getElem?_append_right (Nat.le_refl _), Nat.sub_self,
    List.getElem?_cons_zero, hstep bot surroundings, Standing.stage, Mark.passes_append,
    Mark.requests_append, hcounts]
  simp

/-- The same for a step that leaves no mark that counts. -/
theorem turn_silent (h : Attainable (front ++ idler c :: back) f p r)
    (hstep : ∀ (bot : Bot β) (surroundings : κ),
      (idler c).step ⟨bot, f, surroundings⟩ = (⟨bot, g, surroundings⟩, idler d))
    (hmarks : ∀ (holder : Option Nat) (i : Nat),
      Mark.passes (Standing.marks holder i c.stage d.stage) = 0 ∧
        Mark.requests (Standing.marks holder i c.stage d.stage) = 0) :
    Attainable (front ++ idler d :: back) g p r :=
  h.turn hstep hmarks

/-- A call that has the flag for running clears the request, runs a pass and lets the flag
go. -/
theorem pass {up : Bool} (h : Attainable (front ++ idler .clearing :: back) ⟨true, up⟩ p r) :
    Attainable (front ++ idler (.checking (.ready 1)) :: back) .clear (p + 1) r := by
  have hcleared : Attainable
      (front ++ idler (.passing (Pass.attempt Hub.desk (pure []) 0)) :: back)
      ⟨true, false⟩ (p + 1) r :=
    h.turn (m := 1) (q := 0) (fun _ _ => rfl) fun _ _ => ⟨rfl, rfl⟩
  have hlooked : Attainable (front ++ idler (.passing (.done (.inr (.ready 1)))) :: back)
      ⟨true, false⟩ (p + 1) r :=
    hcleared.turn_silent (fun _ _ => rfl) fun _ _ => ⟨rfl, rfl⟩
  have hended : Attainable (front ++ idler (.releasing (.ready 1)) :: back)
      ⟨true, false⟩ (p + 1) r :=
    hlooked.turn_silent (fun _ _ => rfl) fun _ _ => ⟨rfl, rfl⟩
  exact hended.turn_silent (fun _ _ => rfl) fun _ _ => ⟨rfl, rfl⟩

/-- Calls that have run a pass see a request, all before any of them takes the flag. -/
theorem look (n : Nat) (front : List (Standing β κ)) {running : Bool}
    (h : Attainable (front ++ (List.replicate n (idler (.checking (.ready 1))) ++ back))
      ⟨running, true⟩ p r) :
    Attainable (front ++ (List.replicate n (idler (.reclaiming (.ready 1))) ++ back))
      ⟨running, true⟩ p r := by
  induction n generalizing front with
  | zero => exact h
  | succ n ih =>
      -- The first one looks and leaves the request up for those behind it.
      have hfirst : Attainable (front ++ idler (.reclaiming (.ready 1)) ::
          (List.replicate n (idler (.checking (.ready 1))) ++ back)) ⟨running, true⟩ p r :=
        h.turn_silent (fun _ _ => rfl) fun _ _ => ⟨rfl, rfl⟩
      have hrest := ih (front ++ [idler (.reclaiming (.ready 1))]) (by simpa using hfirst)
      simpa [List.replicate_succ] using hrest

/-- One after the other they take the flag and run a pass, though nothing is asked for any
more. -/
theorem goRound (n : Nat) (front : List (Standing β κ))
    (h : Attainable (front ++ (List.replicate n (idler (.reclaiming (.ready 1))) ++ back))
      .clear p r) :
    Attainable (front ++ (List.replicate n (idler (.checking (.ready 1))) ++ back))
      .clear (p + n) r := by
  induction n generalizing front p with
  | zero => exact h
  | succ n ih =>
      -- The one before has let the flag go, so the first one finds it down.
      have htook : Attainable (front ++ idler .clearing ::
          (List.replicate n (idler (.reclaiming (.ready 1))) ++ back)) ⟨true, false⟩ p r :=
        h.turn_silent (fun _ _ => rfl) fun _ _ => ⟨rfl, rfl⟩
      have hrest := ih (front ++ [idler (.checking (.ready 1))]) (by simpa using htook.pass)
      simpa [List.replicate_succ, Nat.add_comm, Nat.add_left_comm] using hrest

/-- One more call leaves a request, and all others see it. Before any of them takes the flag
the call has taken it, cleared the request and let it go. -/
theorem join
    (h : Attainable (List.replicate n (idler (.checking (.ready 1))) : List (Standing β κ))
      .clear p n) :
    Attainable (List.replicate (n + 1) (idler (.checking (.ready 1))) : List (Standing β κ))
      .clear (p + 1 + n) (n + 1) := by
  have hrequested : Attainable
      (List.replicate n (idler (.checking (.ready 1))) ++ [idler .claiming])
      ⟨false, true⟩ p (n + 1) :=
    h.call.turn (m := 0) (q := 1) (fun _ _ => rfl) fun _ _ => ⟨rfl, rfl⟩
  have hseen : Attainable
      (List.replicate n (idler (.reclaiming (.ready 1))) ++ [idler .claiming])
      ⟨false, true⟩ p (n + 1) :=
    hrequested.look n []
  have htook : Attainable
      (List.replicate n (idler (.reclaiming (.ready 1))) ++ [idler .clearing])
      ⟨true, true⟩ p (n + 1) :=
    hseen.turn_silent (fun _ _ => rfl) fun _ _ => ⟨rfl, rfl⟩
  -- Its pass is over before the others move, and they all take the flag for the old request.
  rw [List.replicate_succ']
  exact htook.pass.goRound n []

/-- On a hub where calls come one by one and each is overtaken by the next, all calls wait
behind a pass, and there were as many passes as pairs of a call and one that is no later. -/
theorem overtaken (hub : Hub β κ) (n : Nat) : ∃ p : Nat, 2 * p = n * (n + 1) ∧
    Attainable (List.replicate n (idler (.checking (.ready 1))) : List (Standing β κ))
      .clear p n := by
  induction n with
  | zero =>
      exact ⟨0, rfl, Scene.start { hub with flags := .clear }, .start rfl, rfl, rfl, rfl, rfl⟩
  | succ n ih =>
      rcases ih with ⟨p, hcount, hp⟩
      refine ⟨p + 1 + n, ?_, hp.join⟩
      calc 2 * (p + 1 + n) = n * (n + 1) + 2 * (n + 1) := by omega
        _ = (n + 1) * (n + 1 + 1) := by grind

end Attainable

/-- For every number of calls there are scenes with a request of each and as many passes as
there are pairs of a request and one that is no later. -/
theorem exists_passes_eq (hub : Hub β κ) (n : Nat) : ∃ s : Scene β κ, s.Reached ∧
    Mark.requests s.history = n ∧ 2 * Mark.passes s.history = n * (n + 1) := by
  rcases Attainable.overtaken hub n with ⟨p, hcount, s, hreached, -, -, rfl, hr⟩
  exact ⟨s, hreached, hr, hcount⟩

end Attainable

end Scene

end ActionChain
