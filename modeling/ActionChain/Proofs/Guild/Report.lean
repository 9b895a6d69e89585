import ActionChain.Proofs.Guild.Abandoned
import ActionChain.Proofs.Guild.Once
import ActionChain.Proofs.Guild.Polling
import Mathlib.Logic.Function.Iterate

/-!
# A Pass on Its Own

Nobody interferes with the pass, and the directory answers as it likes, from
surroundings that each question may change. Then the pass is determined by the
answers, but for what the chains of the event do to the bot and how long they
take.

It takes one attempt after the other. The chains leave the record of guilds and
the settings alone, so an attempt finds the record as the earlier ones left it,
adds what its answer is the first to list available, and runs the event for that
(`Hub.attempt_alone`, `Hub.attempt_told`). The pass stops with the first attempt that is not followed
by another, which is where its answers end it.

## Main definitions

* `Hub.consult`: asking a directory whose answers come from the surroundings.
* `Hub.polling`: what a pass is up against.
* `Hub.afterPolls`, `Hub.heard`, `Hub.looked`: the hub between attempts, and in one.
* `Polling.visit`: the bot after a number of polls.
* `Polling.book`: what is told of a number of polls.
* `Pass.told`: what a whole pass tells.

## Theorems

* `Pass.alone_look`: looking over a list without interference.
* `Hub.attempt_alone`, `Hub.attempt_told`: an attempt, after any number of earlier
  ones.
* `Hub.alone?_last`, `Hub.alone?_next`: the pass from an attempt on.
* `Hub.alone?_of_ends`, `Hub.ends_of_alone?`: a pass ends where its answers end it.
* `Hub.report_of_answers`: the report and the rest of it.
-/

namespace ActionChain

variable {β κ σ : Type}

/-! ## The parts of an attempt -/

namespace Pass

/-- Without interference, nobody records a guild after it was asked about. -/
theorem alone_look (guilds : List GuildStatus) (bot : Bot β) :
    (look guilds).alone bot = ⟨(LoadedGuilds.poll bot.loadedGuilds guilds).2,
      { bot with loadedGuilds := (LoadedGuilds.poll bot.loadedGuilds guilds).1 }, 0⟩ := by
  induction guilds generalizing bot with
  | nil => rfl
  | cons s rest ih =>
      unfold look LoadedGuilds.poll
      by_cases hloaded : s.id ∈ bot.loadedGuilds
      · simp [Routine.alone_bind, hloaded, ih]
      · by_cases havailable : s.available <;>
          simp [-bind_pure_comp, Routine.alone_bind, hloaded, havailable, ih, LoadedGuilds.mark]

theorem told_look (guilds : List GuildStatus) (bot : Bot β) :
    (narratedLook guilds).told bot =
      (LoadedGuilds.poll bot.loadedGuilds guilds).2.initialized.map fun g => .recorded g.id := by
  induction guilds generalizing bot with
  | nil => rfl
  | cons s rest ih =>
      unfold narratedLook LoadedGuilds.poll
      by_cases hloaded : s.id ∈ bot.loadedGuilds
      · simp [Narrated.told_bind, hloaded, ih]
      · by_cases havailable : s.available <;>
          simp [Narrated.told_bind, hloaded, havailable, ih, LoadedGuilds.mark, GuildStatus.guild]

theorem told_greet [Conduct β] (guilds : List Guild) (bot : Bot β) :
    (narratedGreet guilds).told bot = guilds.map .started := by
  induction guilds generalizing bot with
  | nil => rfl
  | cons g rest ih =>
      unfold narratedGreet
      simp [Narrated.told_bind, ih]

/-- What a pass tells that nobody interferes with; the fuel is counted in attempts. -/
def told [Conduct β] (desk : Desk σ β) (listing : Routine σ (List GuildStatus)) :
    (fuel : Nat) → (polls : Nat) → σ → List InitEntry
  | 0, _, _ => []
  | fuel + 1, polls, s =>
    let f := (attempt desk listing polls).alone s
    (narratedAttempt desk listing polls).told s ++
      match f.value with
      | .inr _ => []
      | .inl polls => told desk listing fuel polls f.state

end Pass

/-! ## What the polls come to -/

/-- The lists that directories answered with, in order. -/
def InitEntry.lists (book : List InitEntry) : List (List GuildStatus) :=
  book.filterMap fun
    | .listed guilds => some guilds
    | _ => none

namespace Polling

/-- What is told of the attempt that hears an answer. -/
def entries (p : Polling) (k : Nat) : List InitEntry :=
  .listed (p.answers k) :: ((p.fresh k).map fun s => .recorded s.id) ++
    (p.fresh k).map fun s => .started s.guild

/-- What is told of a number of polls. -/
def book (p : Polling) (polls : Nat) : List InitEntry := (List.range polls).flatMap p.entries

/-- What the chains come to that run for the guilds an answer adds. -/
def greeting [Conduct β] (p : Polling) (before : Bot β) (k : Nat) :
    Routine.Finished (Bot β) Unit :=
  (Pass.greet ((p.fresh k).map GuildStatus.guild)).alone
    { before with loadedGuilds := p.initial ++ p.added (k + 1) }

/-- The bot after a number of polls, and the milliseconds that its chains took. -/
def visit [Conduct β] (p : Polling) (bot : Bot β) : Nat → Bot β × Nat
  | 0 => (bot, 0)
  | k + 1 =>
    let f := p.greeting (visit p bot k).1 k
    (f.state, (visit p bot k).2 + f.elapsed)

/-- The chains leave the settings and the record of guilds alone. -/
theorem steady_visit [Conduct β] [Conduct.Steady β] (p : Polling) {bot : Bot β}
    (hinitial : bot.loadedGuilds = p.initial) (n : Nat) :
    (p.visit bot n).1.settings = bot.settings ∧
      (p.visit bot n).1.loadedGuilds = p.initial ++ p.added n := by
  induction n with
  | zero => simp [visit, added, hinitial]
  | succ n ih =>
      have hsteady := (Pass.keeps_greet (β := β) ((p.fresh n).map GuildStatus.guild)).alone
        Bot.Steady.refl (fun h h' => ⟨h'.settings.trans h.settings,
          h'.loadedGuilds.trans h.loadedGuilds⟩)
        { (p.visit bot n).1 with loadedGuilds := p.initial ++ p.added (n + 1) }
      exact ⟨hsteady.settings.trans ih.1, hsteady.loadedGuilds⟩

theorem filterMap_book {α : Type} (p : Polling) (f : InitEntry → Option α) (n : Nat) :
    (p.book n).filterMap f = (List.range n).flatMap fun k => (p.entries k).filterMap f := by
  rw [book, List.filterMap_flatMap]

/-- The directory is asked once for every poll. -/
theorem lists_book (p : Polling) (n : Nat) :
    InitEntry.lists (p.book n) = (List.range n).map p.answers := by
  have hentries (k : Nat) : InitEntry.lists (p.entries k) = [p.answers k] := by
    simp [InitEntry.lists, entries, List.filterMap_map]
  rw [InitEntry.lists, filterMap_book, List.map_eq_flatMap]
  exact List.flatMap_congr fun k _ => hentries k

/-- The event is started for the guilds that the polls add to the record, in order. -/
theorem startedIds_book (p : Polling) (n : Nat) : InitEntry.startedIds (p.book n) = p.added n := by
  have hentries (k : Nat) : InitEntry.startedIds (p.entries k) =
      (p.fresh k).map GuildStatus.id := by
    simp [InitEntry.startedIds, entries, List.filterMap_map, GuildStatus.guild]
  rw [InitEntry.startedIds, filterMap_book]
  exact List.flatMap_congr fun k _ => hentries k

end Polling

/-! ## The pass -/

namespace Hub

/-- Asking a directory that answers from the surroundings and may change them. -/
def consult (answer : κ → List GuildStatus) (next : κ → κ) :
    Routine (Hub β κ) (List GuildStatus) :=
  Routine.atomic fun hub =>
    ({ hub with surroundings := next hub.surroundings }, answer hub.surroundings)

variable (answer : κ → List GuildStatus) (next : κ → κ) (hub : Hub β κ)

/-- What a pass is up against that starts from a hub. -/
def polling : Polling := ⟨hub.bot.loadedGuilds, fun k => answer (next^[k] hub.surroundings)⟩

variable [Conduct β]

/-- The hub after a number of polls. -/
def afterPolls (n : Nat) : Hub β κ :=
  { hub with
    bot := ((hub.polling answer next).visit hub.bot n).1
    surroundings := next^[n] hub.surroundings }

/-- The hub once the next answer is heard. -/
def heard (k : Nat) : Hub β κ :=
  { hub.afterPolls answer next k with surroundings := next^[k + 1] hub.surroundings }

/-- The hub once the guilds that the answer adds are recorded. -/
def looked (k : Nat) : Hub β κ :=
  { hub.heard answer next k with
    bot := { (hub.afterPolls answer next k).bot with
      loadedGuilds := (hub.polling answer next).initial ++
        (hub.polling answer next).added (k + 1) } }

variable {answer next hub}

theorem alone_consult (k : Nat) :
    (consult answer next).alone (hub.afterPolls answer next k) =
      ⟨(hub.polling answer next).answers k, hub.heard answer next k, 0⟩ := by
  simp [consult, afterPolls, heard, polling, Function.iterate_succ_apply']

theorem alone_greet_looked (k : Nat) :
    let p := hub.polling answer next
    ((Pass.greet ((p.fresh k).map GuildStatus.guild)).within desk.get desk.put).alone
        (hub.looked answer next k) =
      ⟨(), hub.afterPolls answer next (k + 1), (p.greeting (p.visit hub.bot k).1 k).elapsed⟩ :=
  alone_lift _ (hub.looked answer next k)

variable [Conduct.Steady β]

/-- The record that an attempt finds is the one that the earlier answers come to. -/
theorem poll_visit (hdistinct : (hub.polling answer next).Distinct) (k : Nat) :
    let p := hub.polling answer next
    LoadedGuilds.poll (p.visit hub.bot k).1.loadedGuilds (p.answers k) =
      (p.initial ++ p.added (k + 1), ⟨(p.fresh k).map GuildStatus.guild, p.missing k⟩) := by
  intro p
  rw [(p.steady_visit rfl k).2, Polling.poll_answers hdistinct]

theorem alone_look_heard (hdistinct : (hub.polling answer next).Distinct) (k : Nat) :
    let p := hub.polling answer next
    ((Pass.look (p.answers k)).within desk.get desk.put).alone (hub.heard answer next k) =
      ⟨⟨(p.fresh k).map GuildStatus.guild, p.missing k⟩, hub.looked answer next k, 0⟩ := by
  intro p
  refine (alone_lift _ (hub.heard answer next k)).trans ?_
  rw [Pass.alone_look]
  simp only [looked, heard, afterPolls]
  rw [poll_visit hdistinct]

theorem told_look_heard (hdistinct : (hub.polling answer next).Distinct) (k : Nat) :
    let p := hub.polling answer next
    (Pass.narratedLook (p.answers k)).told (desk.get (hub.heard answer next k)) =
      (p.fresh k).map fun s => .recorded s.id := by
  intro p
  rw [Pass.told_look]
  simp only [desk, heard, afterPolls]
  rw [poll_visit hdistinct, List.map_map]
  rfl

/-- The chains leave the policy alone. -/
theorem alone_policy (k : Nat) :
    (Routine.read fun s => (desk.get s).settings.guildPoll).alone (hub.afterPolls answer next k) =
      ⟨hub.bot.settings.guildPoll, hub.afterPolls answer next k, 0⟩ := by
  have hsettings := ((hub.polling answer next).steady_visit rfl k).1
  exact congrArg (fun settings : Settings => Routine.Finished.mk settings.guildPoll _ 0) hsettings

/-- An attempt, after any number of earlier ones. -/
theorem attempt_alone (hdistinct : (hub.polling answer next).Distinct) (k : Nat) :
    let p := hub.polling answer next
    let policy := hub.bot.settings.guildPoll
    (Pass.attempt desk (consult answer next) k).alone (hub.afterPolls answer next k) =
      ⟨p.verdict policy k, hub.afterPolls answer next (k + 1),
        (p.greeting (p.visit hub.bot k).1 k).elapsed +
          match p.verdict policy k with
          | .inl _ => policy.interval
          | .inr _ => 0⟩ := by
  intro p policy
  unfold Pass.attempt Desk.lift Polling.verdict
  simp only [Routine.alone_bind, alone_consult, alone_look_heard hdistinct, alone_greet_looked,
    alone_policy]
  split
  · simp [p]
  · split <;> simp [-bind_pure_comp, Routine.alone_bind, p, policy]

/-- It tells of the answer, of what the answer adds, and nothing of how it ends. -/
theorem attempt_told (hdistinct : (hub.polling answer next).Distinct) (k : Nat) :
    (Pass.narratedAttempt desk (consult answer next) k).told (hub.afterPolls answer next k) =
      (hub.polling answer next).entries k := by
  have hlens (bot : Bot β) (hub : Hub β κ) : desk.get (desk.put bot hub) = bot := rfl
  unfold Pass.narratedAttempt
  simp only [Narrated.told_bind, Narrated.told_silent, Narrated.told_say, Narrated.plain_silent,
    Narrated.plain_say, Narrated.plain_within, Pass.plain_narratedLook, Pass.plain_narratedGreet,
    Routine.alone_pure, alone_consult, alone_look_heard hdistinct, alone_greet_looked,
    alone_policy, Narrated.told_within hlens, Pass.told_greet, told_look_heard hdistinct]
  split
  · simp [Polling.entries]
  · split <;> simp [-bind_pure_comp, Narrated.told_bind, Polling.entries]

/-- A pass ends with an attempt that is not followed by another. -/
theorem alone?_last (hdistinct : (hub.polling answer next).Distinct) {k : Nat}
    {report : InitReport}
    (hlast : (hub.polling answer next).verdict hub.bot.settings.guildPoll k = .inr report)
    (fuel : Nat) :
    let p := hub.polling answer next
    Pass.alone? desk (consult answer next) (fuel + 1) k (hub.afterPolls answer next k) =
        some ⟨report, hub.afterPolls answer next (k + 1),
          (p.greeting (p.visit hub.bot k).1 k).elapsed⟩ ∧
      Pass.told desk (consult answer next) (fuel + 1) k (hub.afterPolls answer next k) =
        p.entries k := by
  constructor
  · simp only [Pass.alone?, attempt_alone hdistinct, hlast]
    rfl
  · simp only [Pass.told, attempt_alone hdistinct, attempt_told hdistinct, hlast,
      List.append_nil]

/-- A pass goes on behind an attempt that is followed by another, an interval later. -/
theorem alone?_next (hdistinct : (hub.polling answer next).Distinct) {k : Nat}
    (hnext : (hub.polling answer next).verdict hub.bot.settings.guildPoll k = .inl (k + 1))
    (fuel : Nat) :
    let p := hub.polling answer next
    Pass.alone? desk (consult answer next) (fuel + 1) k (hub.afterPolls answer next k) =
        (Pass.alone? desk (consult answer next) fuel (k + 1)
          (hub.afterPolls answer next (k + 1))).map (fun run =>
            { run with elapsed := (p.greeting (p.visit hub.bot k).1 k).elapsed +
              hub.bot.settings.guildPoll.interval + run.elapsed }) ∧
      Pass.told desk (consult answer next) (fuel + 1) k (hub.afterPolls answer next k) =
        p.entries k ++ Pass.told desk (consult answer next) fuel (k + 1)
          (hub.afterPolls answer next (k + 1)) := by
  constructor
  · simp only [Pass.alone?, attempt_alone hdistinct, hnext]
  · simp only [Pass.told, attempt_alone hdistinct, attempt_told hdistinct, hnext]

/-- A pass with attempts behind it takes those that are followed by another, and
the one after them. -/
theorem alone?_of_verdicts (hdistinct : (hub.polling answer next).Distinct)
    {report : InitReport} (more k fuel : Nat)
    (hmore : ∀ i < more, (hub.polling answer next).verdict hub.bot.settings.guildPoll (k + i) =
      .inl (k + i + 1))
    (hlast : (hub.polling answer next).verdict hub.bot.settings.guildPoll (k + more) =
      .inr report) (hfuel : more < fuel) :
    let p := hub.polling answer next
    ∃ elapsed,
      Pass.alone? desk (consult answer next) fuel k (hub.afterPolls answer next k) =
        some ⟨report, hub.afterPolls answer next (k + more + 1), elapsed⟩ ∧
      (p.visit hub.bot k).2 + elapsed =
        more * hub.bot.settings.guildPoll.interval + (p.visit hub.bot (k + more + 1)).2 ∧
      Pass.told desk (consult answer next) fuel k (hub.afterPolls answer next k) =
        (List.range (more + 1)).flatMap fun i => p.entries (k + i) := by
  intro p
  have hvisit (k : Nat) : (p.visit hub.bot (k + 1)).2 =
      (p.visit hub.bot k).2 + (p.greeting (p.visit hub.bot k).1 k).elapsed := rfl
  induction more generalizing k fuel with
  | zero =>
      rcases Nat.exists_eq_add_of_lt hfuel with ⟨rest, rfl⟩
      rw [Nat.add_zero] at hlast
      rcases alone?_last hdistinct hlast (0 + rest) with ⟨hrun, hbook⟩
      refine ⟨_, hrun, ?_, ?_⟩
      · rw [Nat.zero_mul, Nat.zero_add, Nat.add_zero, hvisit]
      · rw [hbook]
        simp [p]
  | succ more ih =>
      rcases Nat.exists_eq_add_of_lt hfuel with ⟨rest, rfl⟩
      have hshift (i : Nat) : k + (i + 1) = k + 1 + i := by omega
      have hfirst := hmore 0 (Nat.succ_pos more)
      rw [Nat.add_zero] at hfirst
      rw [hshift] at hlast
      have hmore' : ∀ i < more, p.verdict hub.bot.settings.guildPoll (k + 1 + i) =
          .inl (k + 1 + i + 1) := by
        intro i hi
        rw [← hshift]
        exact hmore (i + 1) (Nat.succ_lt_succ hi)
      rcases ih (k + 1) (more + 1 + rest) hmore' hlast (by omega) with
        ⟨elapsed, hrun', helapsed, hbook'⟩
      rcases alone?_next hdistinct hfirst (more + 1 + rest) with ⟨hrun, hbook⟩
      rw [hrun'] at hrun
      rw [hbook'] at hbook
      refine ⟨(p.greeting (p.visit hub.bot k).1 k).elapsed +
        hub.bot.settings.guildPoll.interval + elapsed, ?_, ?_, hbook.trans ?_⟩
      · rw [hshift more]
        exact hrun
      · rw [hvisit] at helapsed
        rw [hshift more, Nat.succ_mul]
        omega
      · rw [List.range_succ_eq_map (n := more + 1), List.flatMap_cons, List.flatMap_map]
        exact congrArg (p.entries k ++ ·)
          (List.flatMap_congr fun i _ => congrArg p.entries (hshift i).symm)

/-- A pass that comes to its end took such attempts. -/
theorem verdicts_of_alone? (hdistinct : (hub.polling answer next).Distinct) {fuel k : Nat}
    {run : Routine.Finished (Hub β κ) InitReport}
    (h : Pass.alone? desk (consult answer next) fuel k (hub.afterPolls answer next k) = some run) :
    ∃ more < fuel,
      (∀ i < more, (hub.polling answer next).verdict hub.bot.settings.guildPoll (k + i) =
        .inl (k + i + 1)) ∧
      ∃ report, (hub.polling answer next).verdict hub.bot.settings.guildPoll (k + more) =
        .inr report := by
  induction fuel generalizing k run with
  | zero => cases h
  | succ fuel ih =>
      cases hverdict : (hub.polling answer next).verdict hub.bot.settings.guildPoll k with
      | inr report => exact ⟨0, Nat.succ_pos fuel, nofun, report, hverdict⟩
      | inl polls =>
          obtain rfl : polls = k + 1 := Polling.verdict_eq_inl hverdict
          rw [(alone?_next hdistinct hverdict fuel).1] at h
          rcases Option.map_eq_some_iff.1 h with ⟨run', hrun', -⟩
          rcases ih hrun' with ⟨more, hfuel, hmore, hlast⟩
          have hshift (i : Nat) : k + (i + 1) = k + 1 + i := by omega
          refine ⟨more + 1, Nat.succ_lt_succ hfuel, fun i hi => ?_, ?_⟩
          · cases i with
            | zero => exact hverdict
            | succ i =>
                rw [hshift]
                exact hmore i (Nat.lt_of_succ_lt_succ hi)
          · rw [hshift]
            exact hlast

/-- A pass comes to the end that its answers put to it, with fuel for as many
attempts. -/
theorem alone?_of_ends (hdistinct : (hub.polling answer next).Distinct) {n : Nat}
    {report : InitReport}
    (h : (hub.polling answer next).Ends hub.bot.settings.guildPoll n report) {fuel : Nat}
    (hfuel : n ≤ fuel) :
    Pass.alone? desk (consult answer next) fuel 0 hub =
        some ⟨report, hub.afterPolls answer next n,
          (n - 1) * hub.bot.settings.guildPoll.interval +
            ((hub.polling answer next).visit hub.bot n).2⟩ ∧
      Pass.told desk (consult answer next) fuel 0 hub = (hub.polling answer next).book n := by
  rcases h.verdicts with ⟨more, rfl, hmore, hlast⟩
  have hmore' : ∀ i < more, (hub.polling answer next).verdict hub.bot.settings.guildPoll (0 + i) =
      .inl (0 + i + 1) := by
    intro i hi
    rw [Nat.zero_add]
    exact hmore i hi
  rw [← Nat.zero_add more] at hlast
  rcases alone?_of_verdicts hdistinct more 0 fuel hmore' hlast hfuel with
    ⟨elapsed, hrun, helapsed, hbook⟩
  simp only [Nat.zero_add] at hrun helapsed hbook
  rw [show hub.afterPolls answer next 0 = hub from rfl] at hrun hbook
  rw [show ((hub.polling answer next).visit hub.bot 0).2 = 0 from rfl, Nat.zero_add] at helapsed
  exact ⟨by rw [hrun, helapsed, Nat.add_sub_cancel], hbook⟩

/-- The end that a pass comes to is the one that its answers put to it. -/
theorem ends_of_alone? (hdistinct : (hub.polling answer next).Distinct) {fuel : Nat}
    {run : Routine.Finished (Hub β κ) InitReport}
    (h : Pass.alone? desk (consult answer next) fuel 0 hub = some run) :
    ∃ n ≤ fuel, (hub.polling answer next).Ends hub.bot.settings.guildPoll n run.value := by
  rw [show hub = hub.afterPolls answer next 0 from rfl] at h
  rcases verdicts_of_alone? hdistinct h with ⟨more, hfuel, hmore, report, hlast⟩
  simp only [Nat.zero_add] at hmore hlast
  have hends := Polling.ends_of_verdicts hmore hlast
  have hrun := (alone?_of_ends hdistinct hends hfuel).1
  rw [show hub.afterPolls answer next 0 = hub from rfl, hrun] at h
  cases h
  exact ⟨more + 1, hfuel, hends⟩

/-- A pass on its own, over a directory whose answers list no guild twice, whatever
they are.

Where its answers end it (`Polling.Ends`), it ends, with the report they put to it:
ready after the first answer that settles everything, if as many attempts are
allowed, and giving up on the missing guilds of the last answer that is heard
otherwise. What it leaves is the bot that the chains leave, run for what each answer
adds. The time it takes is theirs, and a pause between any two attempts. It asks the
directory once for each attempt, and starts the event just for the guilds that it
adds to the record, in the order in which the answers do, each with the first answer
that lists it available.

There is no other way for it to end. With a bound on attempts it does, within the
bound, so that a count of attempts in 32 bits is not exceeded if the bound fits;
and without one it only ends well. -/
theorem report_of_answers (answer : κ → List GuildStatus) (next : κ → κ) (hub : Hub β κ)
    (hdistinct : (hub.polling answer next).Distinct) :
    let p := hub.polling answer next
    let policy := hub.bot.settings.guildPoll
    (∀ n report, p.Ends policy n report → ∀ fuel ≥ n,
      Pass.alone? desk (consult answer next) fuel 0 hub =
          some ⟨report, hub.afterPolls answer next n,
            (n - 1) * policy.interval + (p.visit hub.bot n).2⟩ ∧
        Pass.told desk (consult answer next) fuel 0 hub = p.book n) ∧
    (∀ fuel run, Pass.alone? desk (consult answer next) fuel 0 hub = some run →
      ∃ n ≤ fuel, p.Ends policy n run.value) ∧
    (∀ most, policy.maxAttempts = some most → ∃ n report, p.Ends policy n report ∧
      n ≤ max 1 most ∧ (most < UInt32.size → n < UInt32.size)) ∧
    (policy.maxAttempts = none → ∀ n report, p.Ends policy n report → report = .ready n) ∧
    (∀ n, (hub.afterPolls answer next n).bot.loadedGuilds = p.initial ++ p.added n ∧
      (∀ id, id ∈ p.initial ++ p.added n ↔ p.Recorded n id) ∧
      InitEntry.lists (p.book n) = (List.range n).map p.answers ∧
      InitEntry.startedIds (p.book n) = p.added n) ∧
    ∀ polls, (Pass.narratedAttempt desk (consult answer next) polls).plain =
      Pass.attempt (desk (β := β)) (consult answer next) polls := by
  intro p policy
  refine ⟨fun n report h fuel hfuel => alone?_of_ends hdistinct h hfuel,
    fun fuel run h => ends_of_alone? hdistinct h, fun most hmost => ?_, fun hnone n report h => ?_,
    fun n => ⟨(p.steady_visit rfl n).2, fun id => Polling.mem_record_iff, p.lists_book n,
      p.startedIds_book n⟩,
    Pass.plain_narratedAttempt desk (consult answer next)⟩
  · rcases p.exists_end hmost with ⟨n, report, hends, hle⟩
    refine ⟨n, report, hends, hle, fun hsize => Nat.lt_of_le_of_lt hle ?_⟩
    exact Nat.max_lt.2 ⟨by decide, hsize⟩
  · cases h with
    | ready => rfl
    | gaveUp hmost =>
        rw [hnone] at hmost
        cases hmost

/-- A directory whose only guild is unavailable when it is asked first. -/
def latecomer (asked : Bool) : List GuildStatus := [⟨5, "village", asked⟩]

/-- A hub whose passes make two attempts. -/
def patient : Hub Shipped Bool :=
  ⟨.load ⟨{ Settings.standard with guildPoll := ⟨500, some 2⟩ }, .null, [], []⟩ .empty
    (fun _ _ _ => none) id, .clear, false⟩

theorem report_of_answers_latecomer :
    (patient.polling latecomer fun _ => true).Distinct ∧
    ∃ run, Pass.alone? desk (consult latecomer fun _ => true) 2 0 patient = some run ∧
      run.value = .ready 2 ∧ run.elapsed = 500 ∧
      Pass.told desk (consult latecomer fun _ => true) 2 0 patient =
        [.listed [⟨5, "village", false⟩], .listed [⟨5, "village", true⟩], .recorded 5,
          .started ⟨5, "village"⟩] := by
  have hdistinct : (patient.polling latecomer fun _ => true).Distinct :=
    fun _ => List.nodup_singleton _
  have hends : (patient.polling latecomer fun _ => true).Ends patient.bot.settings.guildPoll 2
      (.ready 2) := by
    refine .ready (by decide) (by decide) ?_
    rintro _ ⟨⟩
    decide
  have ⟨hrun, htold⟩ :=
    (report_of_answers latecomer (fun _ => true) patient hdistinct).1 2 _ hends 2 (Nat.le_refl 2)
  exact ⟨hdistinct, _, hrun, rfl, rfl, htold⟩

end Hub

end ActionChain
