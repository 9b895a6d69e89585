import ActionChain.Guild.Hub
import ActionChain.Mod.Shipped
import ActionChain.Proofs.Guarantee
import ActionChain.Proofs.Guild.Protocol

/-!
# Single Flight

Calls for a pass, taking turns in any order.

A scene is a hub with all calls that ever began on it. Any call may take the
next step, whatever time it waits for; calls may begin at any time, each with
a directory of its own; and between two steps the bot and the surroundings may
become anything. Only the flags are out of reach of everyone but the calls. On
the board of a scene a step is then a turn of the protocol, so a scene is
sound, and that says what there is to say about two flags
(`Scene.Reached.singleFlight`): passes never overlap, and when all calls have
returned the flags are down and every request was followed by a pass. Who
starts that pass is a weaker promise than it looks. A holder that lets the flag
go may find the request answered already, by a newer call that took over in
between, and then it does not go round.

## Main definitions

* `Standing`, `Standing.step`: a call under way or returned, and its next step.
* `Scene`, `Scene.turn`: a hub with its calls, and a step of one of them.
* `Scene.Reached`: the scenes that calls, steps and others can lead to.
* `Scene.Answered`: a request that was followed by a pass.

## Theorems

* `Standing.step_moves`: a step is a move of the protocol.
* `Scene.Reached.sound`: the board of a reached scene is sound.
* `Scene.Reached.singleFlight`: one pass at a time, and no request is lost.
* `Scene.Reached.not_answered_by_holder_trio`: a request that a newer call took
  over.
-/

namespace ActionChain

open scoped List

variable {β κ σ : Type}

/-! ## Calls and their stages -/

namespace Call

/-- The stage of a call that has not returned. -/
def stage : Call σ → Stage
  | .requesting => .requesting
  | .claiming => .claiming
  | .clearing => .clearing
  | .passing _ => .passing
  | .releasing _ => .releasing
  | .checking _ => .checking
  | .reclaiming _ => .reclaiming

end Call

/-- A call under way or returned. -/
inductive Standing (β κ : Type) where
  | underWay (c : Caller (Hub β κ))
  | returned (report : Option InitReport)

namespace Standing

def stage : Standing β κ → Stage
  | .underWay c => c.call.stage
  | .returned report => .ended report.isSome

/-- The next step; one that has returned takes none. How long a pass waits does
not matter. -/
def step (hub : Hub β κ) : Standing β κ → Hub β κ × Standing β κ
  | .underWay c =>
    match c.step Hub.post hub with
    | (hub, .next c) => (hub, .underWay c)
    | (hub, .pause _ c) => (hub, .underWay c)
    | (hub, .finish report) => (hub, .returned report)
  | .returned report => (hub, .returned report)

/-- What is recorded of a step of the call at a position, by the stages before
and after. A pass counts as started when the request is cleared for it. -/
def marks (holder : Option Nat) (i : Nat) : Stage → Stage → List Mark
  | .requesting, .claiming => [.requested i]
  | .claiming, .clearing => [.took i]
  | .claiming, .ended false => [.deferred i holder]
  | .clearing, .passing => [.started i]
  | .reclaiming, .clearing => [.took i]
  | _, _ => []

end Standing

/-! ## Hubs and their flags -/

namespace Hub

/-- Nothing but the flags is looked at. -/
def SameFlags (a b : Hub β κ) : Prop := b.flags = a.flags

/-- What a bot does leaves the flags alone. -/
theorem keeps_lift {α : Type} (r : Routine (Bot β) α) :
    (desk.lift r : Routine (Hub β κ) α).Keeps SameFlags :=
  (Routine.keeps_of_forall (R := fun _ _ => True) (fun _ _ => trivial) r).within fun _ _ _ => rfl

end Hub

/-- Attempts over a directory that leaves the flags alone do so themselves. -/
theorem Pass.keeps_attempt [Conduct β] {listing : Routine (Hub β κ) (List GuildStatus)}
    (h : listing.Keeps Hub.SameFlags) (polls : Nat) :
    (Pass.attempt Hub.desk listing polls).Keeps Hub.SameFlags := by
  refine h.bind fun guilds => (Hub.keeps_lift _).bind fun outcome => ?_
  have hread := Routine.Keeps.read (R := Hub.SameFlags (β := β) (κ := κ))
    (fun hub => hub.bot.settings.guildPoll) fun _ => rfl
  refine (Hub.keeps_lift _).bind fun _ => hread.bind fun policy => ?_
  split
  · exact .pure _
  · split
    · exact .pure _
    · exact (Routine.Keeps.pause _).bind fun _ => .pure _

namespace Standing

/-- Every act of the attempts and of the pass under way keeps a relation. -/
def Keeps (R : Hub β κ → Hub β κ → Prop) : Standing β κ → Prop
  | .underWay c =>
    (∀ polls, (c.attempt polls).Keeps R) ∧ ∀ pass, c.call = .passing pass → pass.Keeps R
  | .returned _ => True

theorem Keeps.start {R : Hub β κ → Hub β κ → Prop}
    {attempt : Nat → Routine (Hub β κ) (Nat ⊕ InitReport)} (h : ∀ polls, (attempt polls).Keeps R) :
    Keeps R (.underWay (.start attempt)) :=
  ⟨h, fun _ hpass => by cases hpass⟩

section Steps

variable (attempt : Nat → Routine (Hub β κ) (Nat ⊕ InitReport)) (report : InitReport)
  (hub : Hub β κ)

theorem step_claiming : (underWay ⟨attempt, .claiming⟩).step hub =
    if hub.flags.running then (hub, returned none)
    else ({ hub with flags := { hub.flags with running := true } },
      underWay ⟨attempt, .clearing⟩) := by
  rcases hub with ⟨bot, ⟨running, requested⟩, surroundings⟩
  cases running <;> rfl

theorem step_checking : (underWay ⟨attempt, .checking report⟩).step hub =
    if hub.flags.requested then (hub, underWay ⟨attempt, .reclaiming report⟩)
    else (hub, returned (some report)) := by
  rcases hub with ⟨bot, ⟨running, requested⟩, surroundings⟩
  cases requested <;> rfl

theorem step_reclaiming : (underWay ⟨attempt, .reclaiming report⟩).step hub =
    if hub.flags.running then (hub, returned (some report))
    else ({ hub with flags := { hub.flags with running := true } },
      underWay ⟨attempt, .clearing⟩) := by
  rcases hub with ⟨bot, ⟨running, requested⟩, surroundings⟩
  cases running <;> rfl

end Steps

/-- What a step can be as far as passes are concerned: outside of a pass only
flags change, and inside of one the step is that of the pass. -/
inductive Steps (hub : Hub β κ) : Standing β κ → Hub β κ → Standing β κ → Prop
  | outside {attempt : Nat → Routine (Hub β κ) (Nat ⊕ InitReport)} {call call' : Call (Hub β κ)}
      (flags : Flags) (hcall' : ∀ pass, call' ≠ .passing pass) :
      Steps hub (underWay ⟨attempt, call⟩) { hub with flags } (underWay ⟨attempt, call'⟩)
  | begin {attempt : Nat → Routine (Hub β κ) (Nat ⊕ InitReport)} (call : Call (Hub β κ))
      (flags : Flags) (polls : Nat) :
      Steps hub (underWay ⟨attempt, call⟩) { hub with flags }
        (underWay ⟨attempt, .passing (attempt polls)⟩)
  | act {attempt : Nat → Routine (Hub β κ) (Nat ⊕ InitReport)} {change : Hub β κ → Hub β κ}
      {next : Hub β κ → Routine (Hub β κ) (Nat ⊕ InitReport)} :
      Steps hub (underWay ⟨attempt, .passing (.act change next)⟩) (change hub)
        (underWay ⟨attempt, .passing (next hub)⟩)
  | sleep {attempt : Nat → Routine (Hub β κ) (Nat ⊕ InitReport)} {ms : Nat}
      {next : Routine (Hub β κ) (Nat ⊕ InitReport)} :
      Steps hub (underWay ⟨attempt, .passing (.sleep ms next)⟩) hub
        (underWay ⟨attempt, .passing next⟩)
  | ended {standing : Standing β κ} (report : Option InitReport) :
      Steps hub standing hub (returned report)

theorem steps (standing : Standing β κ) (hub : Hub β κ) :
    Steps hub standing (standing.step hub).1 (standing.step hub).2 := by
  cases standing with
  | returned report => exact .ended report
  | underWay c =>
      rcases c with ⟨attempt, call⟩
      cases call with
      | requesting | releasing report => exact .outside _ nofun
      | clearing => exact .begin _ _ 0
      | claiming =>
          rw [step_claiming]
          split
          · exact .ended none
          · exact .outside _ nofun
      | checking report =>
          rw [step_checking]
          split
          · exact .outside hub.flags nofun
          · exact .ended (some report)
      | reclaiming report =>
          rw [step_reclaiming]
          split
          · exact .ended (some report)
          · exact .outside _ nofun
      | passing pass =>
          rcases pass with (n | report) | _ | _
          · exact .begin _ hub.flags n
          · exact .outside hub.flags nofun
          · exact .act
          · exact .sleep

variable {R : Hub β κ → Hub β κ → Prop} {standing : Standing β κ}

/-- What a pass under way keeps, it keeps in its next step, and a pass that
starts over is an attempt. -/
theorem Keeps.step (h : standing.Keeps R) (hub : Hub β κ) : (standing.step hub).2.Keeps R := by
  have hsteps := standing.steps hub
  generalize standing.step hub = after at hsteps ⊢
  rcases after with ⟨hub', after⟩
  cases hsteps with
  | outside _ hcall' => exact ⟨h.1, fun pass hpass => absurd hpass (hcall' pass)⟩
  | begin _ _ polls =>
      refine ⟨h.1, ?_⟩
      rintro _ ⟨⟩
      exact h.1 polls
  | act =>
      refine ⟨h.1, ?_⟩
      rintro _ ⟨⟩
      cases h.2 _ rfl with
      | act _ hnext => exact hnext hub
  | sleep =>
      refine ⟨h.1, ?_⟩
      rintro _ ⟨⟩
      cases h.2 _ rfl with
      | sleep hnext => exact hnext
  | ended report => trivial

/-- A step changes flags, or does what the pass under way does. -/
theorem Keeps.hub (h : standing.Keeps R) (hflags : ∀ hub flags, R hub { hub with flags })
    (hub : Hub β κ) : R hub (standing.step hub).1 := by
  have hsteps := standing.steps hub
  generalize standing.step hub = after at hsteps ⊢
  rcases after with ⟨hub', after⟩
  cases hsteps with
  | outside flags _ => exact hflags hub flags
  | begin _ flags _ => exact hflags hub flags
  | act =>
      cases h.2 _ rfl with
      | act hchange _ => exact hchange hub
  | sleep => exact hflags _ _
  | ended _ => exact hflags _ _

/-- The attempts a call under way is made of. -/
def Attempts (attempt : Nat → Routine (Hub β κ) (Nat ⊕ InitReport)) : Standing β κ → Prop
  | .underWay c => c.attempt = attempt
  | .returned _ => True

/-- They stay the same. -/
theorem Attempts.step {attempt : Nat → Routine (Hub β κ) (Nat ⊕ InitReport)}
    (h : standing.Attempts attempt) (hub : Hub β κ) : (standing.step hub).2.Attempts attempt := by
  have hsteps := standing.steps hub
  generalize standing.step hub = after at hsteps ⊢
  rcases after with ⟨hub', after⟩
  cases hsteps with
  | outside _ _ | begin _ _ _ | act | sleep => exact h
  | ended _ => trivial

/-- A step of a call that has not returned is a move of the protocol. -/
theorem step_moves {c : Caller (Hub β κ)} (h : Keeps Hub.SameFlags (.underWay c))
    (holder : Option Nat) (i : Nat) (hub : Hub β κ) :
    Stage.Moves holder i c.call.stage hub.flags ((underWay c).step hub).2.stage
      ((underWay c).step hub).1.flags
      (marks holder i c.call.stage ((underWay c).step hub).2.stage) := by
  rcases h with ⟨-, hpassing⟩
  rcases c with ⟨attempt, call⟩
  cases call with
  | requesting => exact .request _
  | clearing => exact .start _
  | releasing report => exact .release _
  | claiming =>
      rw [step_claiming]
      split
      · exact .defer ‹_›
      · exact .claim (Bool.eq_false_iff.2 ‹_›)
  | checking report =>
      rw [step_checking]
      split
      · exact .again ‹_›
      · exact .rest (Bool.eq_false_iff.2 ‹_›)
  | reclaiming report =>
      rw [step_reclaiming]
      split
      · exact .yield ‹_›
      · exact .reclaim (Bool.eq_false_iff.2 ‹_›)
  | passing pass =>
      cases hpassing pass rfl with
      | done a =>
          cases a with
          | inl n => exact .pass _
          | inr report => exact .finish _
      | act hchange _ =>
          have hflags := hchange hub
          exact hflags ▸ .pass _
      | sleep _ => exact .pass _

end Standing

/-! ## Scenes -/

/-- A hub with the calls that began on it, in the order in which they did, and
what is recorded of their requests, oldest first. -/
structure Scene (β κ : Type) where
  hub : Hub β κ
  standings : List (Standing β κ)
  history : List Mark

namespace Scene

/-- What the protocol sees of a scene. -/
def board (s : Scene β κ) : Board := ⟨s.hub.flags, s.standings.map Standing.stage, s.history⟩

/-- Nobody has called yet. -/
def start (hub : Hub β κ) : Scene β κ := ⟨hub, [], []⟩

/-- A call begins. -/
def call (attempt : Nat → Routine (Hub β κ) (Nat ⊕ InitReport)) (s : Scene β κ) : Scene β κ :=
  { s with standings := s.standings ++ [.underWay (.start attempt)] }

/-- The next step of the call at a position. -/
def turn (i : Nat) (s : Scene β κ) : Scene β κ :=
  match s.standings[i]? with
  | none => s
  | some standing =>
    let (hub, after) := standing.step s.hub
    ⟨hub, s.standings.set i after,
      s.history ++ Standing.marks s.board.holder? i standing.stage after.stage⟩

/-- The next steps of calls at several positions, one after the other. -/
def play (order : List Nat) (s : Scene β κ) : Scene β κ := order.foldl (fun s i => s.turn i) s

/-- The scenes that calls and their steps can lead to, in any order, with any
changes of the bot and the surroundings in between. -/
inductive Reached [Conduct β] : Scene β κ → Prop
  | start {hub : Hub β κ} (hflags : hub.flags = .clear) : Reached (start hub)
  | call {s : Scene β κ} {listing : Routine (Hub β κ) (List GuildStatus)}
      (hlisting : listing.Keeps Hub.SameFlags) (h : Reached s) :
      Reached (s.call (Pass.attempt Hub.desk listing))
  | others {s : Scene β κ} (bot : Bot β) (surroundings : κ) (h : Reached s) :
      Reached { s with hub := { s.hub with bot, surroundings } }
  | turn {s : Scene β κ} (i : Nat) (h : Reached s) : Reached (s.turn i)

/-- Every call has returned. -/
def AllReturned (s : Scene β κ) : Prop :=
  ∀ standing ∈ s.standings, ∃ report, standing = .returned report

/-- After the request of a call a pass was started: by the call itself if it
returned a report. Otherwise the call left its request to the holder of the
flag, and the pass was started by that one or by a call that took the flag from
it since. -/
def Answered (s : Scene β κ) (i : Nat) : Option InitReport → Prop
  | some _ => [.requested i, .started i] <+ s.history
  | none => ∃ h : Nat, h ≠ i ∧ [.requested i, .deferred i (some h)] <+ s.history ∧
      ([.requested i, .started h] <+ s.history ∨
        ∃ j : Nat, [.deferred i (some h), .took j, .started j] <+ s.history)

variable {s : Scene β κ}

/-- A step that is taken is a turn on the board. -/
theorem board_turn {i : Nat} {c : Caller (Hub β κ)} (hi : s.standings[i]? = some (.underWay c))
    (hc : Standing.Keeps Hub.SameFlags (.underWay c)) : Board.Turn i s.board (s.turn i).board := by
  have hstage : s.board.stages[i]? = some c.call.stage := by
    simp [board, hi, Standing.stage]
  have hmove := Standing.step_moves hc s.board.holder? i s.hub
  have hboard : (s.turn i).board =
      ⟨((Standing.underWay c).step s.hub).1.flags,
        s.board.stages.set i ((Standing.underWay c).step s.hub).2.stage,
        s.board.history ++ Standing.marks s.board.holder? i c.call.stage
          ((Standing.underWay c).step s.hub).2.stage⟩ := by
    simp only [turn, hi, board, Standing.stage, List.map_set]
  rw [hboard]
  exact .mk hstage hmove

/-- A call that has returned changes nothing any more. -/
theorem turn_returned {i : Nat} {report : Option InitReport}
    (hi : s.standings[i]? = some (.returned report)) : s.turn i = s := by
  have hset : s.standings.set i (.returned report) = s.standings := by
    obtain ⟨hlt, hget⟩ := List.getElem?_eq_some_iff.1 hi
    rw [← hget, List.set_getElem_self]
  simp only [turn, hi, Standing.step, hset, Standing.stage, Standing.marks, List.append_nil]

/-- What every call has, it still has after a turn if a step keeps it. -/
theorem forall_turn {P : Standing β κ → Prop} (h : ∀ standing ∈ s.standings, P standing)
    (hstep : ∀ standing, P standing → P (standing.step s.hub).2) (i : Nat) :
    ∀ standing ∈ (s.turn i).standings, P standing := by
  unfold turn
  split
  · exact h
  · rename_i standing hi
    intro other hmem
    rcases List.mem_or_eq_of_mem_set hmem with hold | rfl
    · exact h other hold
    · exact hstep standing (h standing (List.mem_of_getElem? hi))

/-- A turn changes flags, or does what the pass under way does. -/
theorem hub_turn {R : Hub β κ → Hub β κ → Prop}
    (h : ∀ standing ∈ s.standings, standing.Keeps R)
    (hflags : ∀ hub flags, R hub { hub with flags }) (i : Nat) : R s.hub (s.turn i).hub := by
  unfold turn
  split
  · exact hflags s.hub s.hub.flags
  · exact (h _ (List.mem_of_getElem? ‹_›)).hub hflags s.hub

/-- The protocol sees that all calls are over. -/
theorem AllReturned.ended (h : s.AllReturned) (i : Nat) (t : Stage)
    (ht : s.board.stages[i]? = some t) : ∃ reported, t = .ended reported := by
  rw [board, List.getElem?_map, Option.map_eq_some_iff] at ht
  rcases ht with ⟨standing, hstanding, rfl⟩
  rcases h standing (List.mem_of_getElem? hstanding) with ⟨report, rfl⟩
  exact ⟨_, rfl⟩

/-! ## Reached scenes -/

section Reached

variable [Conduct β]

theorem Reached.keeps (h : Reached s) : ∀ standing ∈ s.standings, standing.Keeps Hub.SameFlags := by
  induction h with
  | start hflags => simp [Scene.start]
  | call hlisting h ih =>
      intro standing hmem
      rcases List.mem_append.1 hmem with hold | hnew
      · exact ih standing hold
      · rw [List.mem_singleton.1 hnew]
        exact .start (Pass.keeps_attempt hlisting)
  | others bot surroundings h ih => exact ih
  | @turn s i h ih => exact forall_turn ih (fun _ hkeeps => hkeeps.step s.hub) i

/-- What the protocol sees of a turn is a turn on the board, or nothing. -/
theorem Reached.board_turn_cases (h : Reached s) (i : Nat) :
    (s.turn i).board = s.board ∨ Board.Turn i s.board (s.turn i).board := by
  cases hi : s.standings[i]? with
  | none => exact .inl (by simp [Scene.turn, hi])
  | some standing =>
      cases standing with
      | returned report => exact .inl (by rw [turn_returned hi])
      | underWay c => exact .inr (board_turn hi (h.keeps _ (List.mem_of_getElem? hi)))

/-- What holds of any interleaving of the protocol holds of a reached scene. -/
theorem Reached.sound (h : Reached s) : s.board.Sound := by
  induction h with
  | start hflags =>
      simp only [board, Scene.start, hflags]
      exact .start
  | call hlisting h ih =>
      simpa [board, Scene.call, Standing.stage, Caller.start, Call.stage] using ih.call
  | others bot surroundings h ih => exact ih
  | turn i h ih =>
      rcases h.board_turn_cases i with hsame | hturn
      · rwa [hsame]
      · exact ih.turn hturn

/-- Turns one after the other lead to reached scenes. -/
theorem Reached.play (h : Reached s) (order : List Nat) : Reached (s.play order) := by
  induction order generalizing s with
  | nil => exact h
  | cons i rest ih => exact ih (h.turn i)

theorem Reached.answered (h : Reached s) (hreturned : s.AllReturned) {i : Nat}
    {report : Option InitReport} (hi : s.standings[i]? = some (.returned report)) :
    s.Answered i report := by
  have hstage : s.board.stages[i]? = some (.ended report.isSome) := by
    simp [board, hi, Standing.stage]
  cases report with
  | some report => exact h.sound.started i _ hstage rfl
  | none =>
      rcases h.sound.deferred i hstage with ⟨k, hne, hm⟩
      exact ⟨k, hne, h.sound.deferred_requested i _ hm,
        h.sound.answered_of_ended hreturned.ended hm⟩

/-- In every scene that calls, their steps and the doings of others lead to, at
most one call is between taking the flag for running and letting it go. When
all calls have returned, both flags are down and the request of every call was
followed by a pass: its own, one of the holder it was left to, or one of a call
that took the flag since. -/
theorem Reached.singleFlight (h : Reached s) :
    (∀ (i j : Nat) (a b : Standing β κ), s.standings[i]? = some a → s.standings[j]? = some b →
      a.stage.holds = true → b.stage.holds = true → i = j) ∧
    (s.AllReturned → s.hub.flags = .clear ∧
      ∀ i < s.standings.length, ∃ report, s.standings[i]? = some (.returned report) ∧
        s.Answered i report) := by
  constructor
  · intro i j a b ha hb hha hhb
    have hstage {k : Nat} {c : Standing β κ} (hc : s.standings[k]? = some c) :
        s.board.stages[k]? = some c.stage := by
      simp [board, hc]
    exact h.sound.single i j _ _ (hstage ha) (hstage hb) hha hhb
  · intro hreturned
    refine ⟨h.sound.flags_of_ended hreturned.ended, fun i hi => ?_⟩
    rcases hreturned s.standings[i] (List.getElem_mem hi) with ⟨report, hreport⟩
    have hi' : s.standings[i]? = some (.returned report) := by
      rw [List.getElem?_eq_getElem hi, hreport]
    exact ⟨report, hi', h.answered hreturned hi'⟩

end Reached

/-- A bot without guilds, and nobody has called yet. -/
def quiet : Scene Shipped Unit :=
  start ⟨Bot.load ⟨.standard, .null, [], []⟩ .empty (fun _ _ _ => none) id, .clear, ()⟩

/-- Two calls, of which the second leaves its request to the first. -/
def pair : Scene Shipped Unit :=
  ((quiet.call (Pass.attempt Hub.desk (pure []))).call (Pass.attempt Hub.desk (pure []))).play
    [0, 0, 1, 1, 0, 0, 0, 0, 0]

theorem Reached.singleFlight_pair :
    pair.Reached ∧ pair.AllReturned ∧
    (∀ (i j : Nat) (a b : Standing Shipped Unit), pair.standings[i]? = some a →
      pair.standings[j]? = some b → a.stage.holds = true → b.stage.holds = true → i = j) ∧
    pair.hub.flags = .clear ∧ pair.Answered 0 (some (.ready 1)) ∧ pair.Answered 1 none := by
  have hpair : pair.Reached := (((Reached.start rfl).call (.pure _)).call (.pure _)).play _
  have hstandings : pair.standings = [.returned (some (.ready 1)), .returned none] := rfl
  have hreturned : pair.AllReturned := by simp [AllReturned, hstandings]
  rcases hpair.singleFlight with ⟨hsingle, hanswered⟩
  rcases hanswered hreturned with ⟨hflags, hall⟩
  refine ⟨hpair, hreturned, hsingle, hflags, ?_, ?_⟩
  · rcases hall 0 (by simp [hstandings]) with ⟨report, hreport, h⟩
    simp only [hstandings] at hreport
    cases hreport
    exact h
  · rcases hall 1 (by simp [hstandings]) with ⟨report, hreport, h⟩
    simp only [hstandings] at hreport
    cases hreport
    exact h

/-- Three calls. The second leaves its request to the first. When the first has
let the flag for running go, and before it looks for a request, the third runs
a pass of its own. -/
def trio : Scene Shipped Unit :=
  (((quiet.call (Pass.attempt Hub.desk (pure []))).call (Pass.attempt Hub.desk (pure []))).call
    (Pass.attempt Hub.desk (pure []))).play [0, 0, 0, 1, 1, 0, 0, 0, 2, 2, 2, 0, 2, 2, 2, 2]

/-- A request can be answered by neither the call that left it nor the one it
was left to: the third call took the flag over, so the first found nothing to
go round for. -/
theorem Reached.not_answered_by_holder_trio :
    trio.Reached ∧ trio.AllReturned ∧ 1 < trio.standings.length ∧
    (¬ ∃ k, (k = 1 ∨ .deferred 1 (some k) ∈ trio.history) ∧
      [.requested 1, .started k] <+ trio.history) ∧
    [.deferred 1 (some 0), .took 2, .started 2] <+ trio.history := by
  have htrio : trio.Reached :=
    ((((Reached.start rfl).call (.pure _)).call (.pure _)).call (.pure _)).play _
  have hstandings : trio.standings =
      [.returned (some (.ready 1)), .returned none, .returned (some (.ready 1))] := rfl
  have hhistory : trio.history =
      [.requested 0, .took 0, .started 0, .requested 1, .deferred 1 (some 0),
        .requested 2, .took 2, .started 2] := rfl
  have hreturned : trio.AllReturned := by simp [AllReturned, hstandings]
  have hself : ¬ [.requested 1, .started 1] <+ trio.history := by
    rw [hhistory]
    decide
  have hholder : ¬ [.requested 1, .started 0] <+ trio.history := by
    rw [hhistory]
    decide
  have hthird : [.deferred 1 (some 0), .took 2, .started 2] <+ trio.history := by
    rw [hhistory]
    decide
  refine ⟨htrio, hreturned, by simp [hstandings], ?_, hthird⟩
  rintro ⟨k, rfl | hk, hpass⟩
  · exact hself hpass
  · obtain rfl : k = 0 := by simpa [hhistory] using hk
    exact hholder hpass

end Scene

end ActionChain
