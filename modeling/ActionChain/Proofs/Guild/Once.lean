import ActionChain.Proofs.Crowd
import ActionChain.Proofs.Guild.Mindful
import Mathlib.Data.Multiset.Bind

/-!
# Once for Every Guild

The event for the initialization of guilds is started once for a guild at most,
however many passes are under way and wherever they are interrupted.

What is told of all passes goes into one book in the order in which it happens.
The book is kept like a ledger: a guild that some pass records is new to the
record, so it is written once, and from then on it is owed the event by that
pass until the event is started for it. So the guilds that were recorded are at
any time the guilds that got their event together with those that are owed it.
Each pass has its own part of the debt in mind, as its ghost in the crowd of
passes, and pays it before its attempt is over. When nobody is under way nothing
is owed (`Round.Reached.initialized_once`).

Nothing is asked of the directories, and of everybody else only that no record
of a guild is lost, which there is no way to do.

## Main definitions

* `Ledger`: a book that agrees with the record and with what passes have in mind.
* `Round`, `Round.step`: a pass under way or returned, and its next step.
* `Round.Reached`: what calls, steps and others can lead to.
* `InitializedOnce`: what the book of a hub says.

## Theorems

* `Ledger.enter`: an entry that balances the change of an agenda.
* `Mindful.step`: a step of a mindful pass keeps the ledger.
* `Round.Reached.attended`: the ledger is kept on every reached hub.
* `Round.Reached.initialized_once`: what that comes to.
-/

namespace ActionChain

open scoped List

variable {β κ : Type}

namespace InitEntry

/-- The guilds that passes recorded, in order. -/
def recordedIds (book : List InitEntry) : List UInt64 :=
  book.filterMap fun
    | .recorded id => some id
    | _ => none

/-- The guilds that the event was started for, in order. -/
def startedIds (book : List InitEntry) : List UInt64 :=
  book.filterMap fun
    | .started g => some g.id
    | _ => none

theorem recordedIds_append (book entries : List InitEntry) :
    recordedIds (book ++ entries) = recordedIds book ++ recordedIds entries :=
  List.filterMap_append

theorem startedIds_append (book entries : List InitEntry) :
    startedIds (book ++ entries) = startedIds book ++ startedIds entries :=
  List.filterMap_append

end InitEntry

open InitEntry (recordedIds startedIds recordedIds_append startedIds_append)

/-- A list that was told of reports a guild available. -/
def Reported (book : List InitEntry) (g : Guild) : Prop :=
  ∃ guilds, .listed guilds ∈ book ∧ ∃ s ∈ guilds, s.guild = g ∧ s.available = true

/-- The guilds that are owed the event by some pass. -/
def owedIds (agendas : Multiset Agenda) : Multiset UInt64 :=
  agendas.bind fun mind => mind.owed.map Guild.id

@[simp] theorem owedIds_cons (mind : Agenda) (others : Multiset Agenda) :
    owedIds (mind ::ₘ others) = mind.owed.map Guild.id + owedIds others := by
  simp [owedIds]

/-- What was told of passes agrees with the record of guilds and with what the
passes have in mind. -/
structure Ledger (initial loaded : List UInt64) (book : List InitEntry)
    (agendas : Multiset Agenda) : Prop where
  /-- Every guild that was recorded got its event or is owed it. -/
  balance : (startedIds book : Multiset UInt64) + owedIds agendas = recordedIds book
  nodup : (recordedIds book).Nodup
  kept : initial ⊆ loaded
  recorded : ∀ id ∈ recordedIds book, id ∈ loaded ∧ id ∉ initial
  heard : ∀ mind ∈ agendas, mind.heard = [] ∨ .listed mind.heard ∈ book
  owed : ∀ mind ∈ agendas, ∀ g ∈ mind.owed, Reported book g
  started : ∀ g, .started g ∈ book → ∃ guilds, [.listed guilds, .started g] <+ book ∧
    ∃ s ∈ guilds, s.guild = g ∧ s.available = true

namespace Ledger

variable {initial loaded loaded' : List UInt64} {book : List InitEntry} {mind : Agenda}
  {agendas others : Multiset Agenda} {heard : List GuildStatus} {owed : Multiset Guild}

theorem start (initial : List UInt64) : Ledger initial initial [] 0 := by
  constructor <;> simp [recordedIds, startedIds, owedIds]

/-- Before its first list a pass has nothing in mind. -/
theorem join (h : Ledger initial loaded book agendas) :
    Ledger initial loaded book (⟨[], 0⟩ ::ₘ agendas) where
  balance := by simpa using h.balance
  nodup := h.nodup
  kept := h.kept
  recorded := h.recorded
  heard := by
    intro mind hmind
    rcases Multiset.mem_cons.1 hmind with rfl | hmind
    · exact .inl rfl
    · exact h.heard mind hmind
  owed := by
    intro mind hmind g hg
    rcases Multiset.mem_cons.1 hmind with rfl | hmind
    · exact absurd hg (Multiset.notMem_zero g)
    · exact h.owed mind hmind g hg
  started := h.started

/-- Whoever loses no record does no harm. -/
theorem retain (h : Ledger initial loaded book agendas) (hsubset : loaded ⊆ loaded') :
    Ledger initial loaded' book agendas :=
  { h with
    kept := fun _ hid => hsubset (h.kept hid)
    recorded := fun id hid => ⟨hsubset (h.recorded id hid).1, (h.recorded id hid).2⟩ }

theorem Reported.append {g : Guild} (h : Reported book g) (entries : List InitEntry) :
    Reported (book ++ entries) g := by
  rcases h with ⟨guilds, hlisted, hstatus⟩
  exact ⟨guilds, List.mem_append_left _ hlisted, hstatus⟩

/-- An entry goes into the ledger if it balances the change of what its pass has
in mind: a guild that is recorded is new and owed from then on, and a guild that
gets its event was owed it. -/
theorem enter (h : Ledger initial loaded book (mind ::ₘ others)) {entry : InitEntry}
    {left : Agenda} (hsubset : loaded ⊆ loaded')
    (hbalance : (startedIds [entry] : Multiset UInt64) + left.owed.map Guild.id =
      mind.owed.map Guild.id + recordedIds [entry])
    (hnew : ∀ id, entry = .recorded id → id ∉ loaded ∧ id ∈ loaded')
    (hheard : left.heard = mind.heard ∨ entry = .listed left.heard)
    (howed : ∀ g ∈ left.owed, g ∈ mind.owed ∨ Reported book g)
    (hstarted : ∀ g, entry = .started g → g ∈ mind.owed) :
    Ledger initial loaded' (book ++ [entry]) (left ::ₘ others) := by
  have hids : ∀ id ∈ recordedIds [entry], id ∉ loaded ∧ id ∈ loaded' := by
    intro id hid
    cases entry with
    | recorded id' =>
        obtain rfl : id = id' := by simpa [recordedIds] using hid
        exact hnew id rfl
    | listed _ | started _ => simp [recordedIds] at hid
  constructor
  case balance =>
    -- Debts of other passes stand on the same side before and after and cancel out.
    have hold := h.balance
    rw [owedIds_cons] at hold
    rw [recordedIds_append, startedIds_append, owedIds_cons, ← Multiset.coe_add,
      ← Multiset.coe_add, add_assoc, ← add_assoc _ (left.owed.map Guild.id), hbalance, ← hold,
      add_right_comm _ _ (owedIds others), add_assoc, add_assoc, add_assoc]
  case nodup =>
    rw [recordedIds_append]
    refine List.nodup_append.2 ⟨h.nodup, ?_, fun id hid id' hid' heq => ?_⟩
    · cases entry <;> simp [recordedIds]
    · exact (hids id' hid').1 (heq ▸ (h.recorded id hid).1)
  case kept => exact fun _ hid => hsubset (h.kept hid)
  case recorded =>
    intro id hid
    rw [recordedIds_append] at hid
    rcases List.mem_append.1 hid with hold | hnew
    · exact ⟨hsubset (h.recorded id hold).1, (h.recorded id hold).2⟩
    · exact ⟨(hids id hnew).2, fun hinitial => (hids id hnew).1 (h.kept hinitial)⟩
  case heard =>
    intro other hother
    rcases Multiset.mem_cons.1 hother with rfl | hother
    · rcases hheard with hsame | rfl
      · rw [hsame]
        exact (h.heard mind (Multiset.mem_cons_self ..)).imp_right (List.mem_append_left _)
      · exact .inr (List.mem_append_right _ (List.mem_singleton.2 rfl))
    · exact (h.heard other (Multiset.mem_cons_of_mem hother)).imp_right (List.mem_append_left _)
  case owed =>
    intro other hother g hg
    refine Reported.append ?_ _
    rcases Multiset.mem_cons.1 hother with rfl | hother
    · exact (howed g hg).elim (h.owed mind (Multiset.mem_cons_self ..) g) id
    · exact h.owed other (Multiset.mem_cons_of_mem hother) g hg
  case started =>
    intro g hg
    rcases List.mem_append.1 hg with hold | hlast
    · rcases h.started g hold with ⟨guilds, hsublist, hstatus⟩
      exact ⟨guilds, hsublist.trans (List.sublist_append_left ..), hstatus⟩
    · -- The list that reported the guild was heard before the guild came to be owed.
      obtain rfl := List.mem_singleton.1 hlast
      rcases h.owed mind (Multiset.mem_cons_self ..) g (hstarted g rfl) with
        ⟨guilds, hlisted, hstatus⟩
      exact ⟨guilds, (List.singleton_sublist.2 hlisted).append (.refl _), hstatus⟩

theorem listed (h : Ledger initial loaded book (mind ::ₘ others)) (guilds : List GuildStatus) :
    Ledger initial loaded (book ++ [.listed guilds]) (⟨guilds, mind.owed⟩ ::ₘ others) :=
  h.enter (fun _ hid => hid) (by simp [recordedIds, startedIds]) nofun (.inr rfl)
    (fun _ hg => .inl hg) nofun

theorem begun {g : Guild} (h : Ledger initial loaded book (⟨heard, g ::ₘ owed⟩ ::ₘ others)) :
    Ledger initial loaded (book ++ [.started g]) (⟨heard, owed⟩ ::ₘ others) :=
  h.enter (fun _ hid => hid) (by simp [recordedIds, startedIds]) nofun (.inl rfl)
    (fun _ hk => .inl (Multiset.mem_cons_of_mem hk)) (by
      intro k hk
      cases hk
      exact Multiset.mem_cons_self ..)

theorem record (h : Ledger initial loaded book (mind ::ₘ others)) (hsubset : loaded ⊆ loaded')
    {status : GuildStatus} (hheard : status ∈ mind.heard) (havailable : status.available = true)
    (hnew : status.id ∉ loaded) (hin : status.id ∈ loaded') :
    Ledger initial loaded' (book ++ [.recorded status.id])
      (⟨mind.heard, status.guild ::ₘ mind.owed⟩ ::ₘ others) := by
  have hreported : Reported book status.guild := by
    refine ⟨mind.heard, ?_, status, hheard, rfl, havailable⟩
    rcases h.heard mind (Multiset.mem_cons_self ..) with hnil | hlisted
    · simp [hnil] at hheard
    · exact hlisted
  refine h.enter hsubset ?_ ?_ (.inl rfl) ?_ nofun
  · show (0 : Multiset UInt64) + (status.guild ::ₘ mind.owed).map Guild.id =
      mind.owed.map Guild.id + {status.id}
    rw [zero_add, Multiset.map_cons, Multiset.add_comm, Multiset.singleton_add]
    rfl
  · intro id hid
    cases hid
    exact ⟨hnew, hin⟩
  · intro g hg
    rcases Multiset.mem_cons.1 hg with rfl | hg
    · exact .inr hreported
    · exact .inl hg

end Ledger

/-! ## Passes taking turns -/

/-- No record of a guild is lost. -/
def Hub.Retains (before after : Hub β κ) : Prop := before.bot.Retains after.bot

/-- A pass over a directory, under way or returned. -/
inductive Round (β κ : Type) where
  | underWay (listing : Routine (Hub β κ) (List GuildStatus))
      (rest : Narrated InitEntry (Hub β κ) (Nat ⊕ InitReport))
  | returned (report : InitReport)

namespace Round

/-- Whether a pass has returned. -/
def isReturned : Round β κ → Bool
  | .underWay _ _ => false
  | .returned _ => true

/-- The next step of a pass, with what it tells behind what was told before. How
long it waits does not matter. -/
def step [Conduct β] : Round β κ → Hub β κ × List InitEntry →
    (Hub β κ × List InitEntry) × Round β κ
  | .underWay listing rest, (hub, book) =>
    match rest.loopStep (Pass.narratedAttempt Hub.desk listing) hub with
    | (hub, entries, .next rest) => ((hub, book ++ entries), .underWay listing rest)
    | (hub, entries, .pause _ rest) => ((hub, book ++ entries), .underWay listing rest)
    | (hub, entries, .finish report) => ((hub, book ++ entries), .returned report)
  | .returned report, s => (s, .returned report)

/-- A pass does what it has in mind, and owes nothing in the end. -/
def Fits : Round β κ → Agenda → Prop
  | .underWay listing rest, mind => listing.Keeps Hub.Retains ∧
      Mindful (fun hub => hub.bot.loadedGuilds) (fun _ left => left.owed = 0) rest mind
  | .returned _, mind => mind.owed = 0

end Round

/-- What can come of a hub on which passes are called for. Any pass may take the
next step, passes over any directory may be called for at any time, and between
two steps the hub may become anything as long as no record of a guild is lost. -/
inductive Round.Reached [Conduct β] (hub : Hub β κ) :
    Crowd (Hub β κ × List InitEntry) (Round β κ) → Prop
  | start : Reached hub ⟨(hub, []), []⟩
  | call {w : Crowd (Hub β κ × List InitEntry) (Round β κ)}
      {listing : Routine (Hub β κ) (List GuildStatus)} (hlisting : listing.Keeps Hub.Retains)
      (h : Reached hub w) :
      Reached hub ⟨w.state,
        w.members ++ [.underWay listing (Pass.narratedAttempt Hub.desk listing 0)]⟩
  | others {w : Crowd (Hub β κ × List InitEntry) (Round β κ)} {after : Hub β κ}
      (hretains : w.state.1.Retains after) (h : Reached hub w) :
      Reached hub ⟨(after, w.state.2), w.members⟩
  | turn {w : Crowd (Hub β κ × List InitEntry) (Round β κ)} (i : Nat) (h : Reached hub w) :
      Reached hub (w.turn Round.step i)

/-- The ledger of a hub and of what was told of its passes. -/
def Accounted (initial : List UInt64) (s : Hub β κ × List InitEntry)
    (agendas : Multiset Agenda) : Prop :=
  Ledger initial s.1.bot.loadedGuilds s.2 agendas

section

variable [Conduct β]

/-- An entry told on the way is an entry told before. -/
theorem Round.step_tell (listing : Routine (Hub β κ) (List GuildStatus)) (entry : InitEntry)
    (next : Narrated InitEntry (Hub β κ) (Nat ⊕ InitReport)) (hub : Hub β κ)
    (book : List InitEntry) :
    Round.step (.underWay listing (.tell entry next)) (hub, book) =
      Round.step (.underWay listing next) (hub, book ++ [entry]) := by
  unfold Round.step
  dsimp only [Narrated.loopStep]
  rcases next.loopStep (Pass.narratedAttempt Hub.desk listing) hub with ⟨hub, entries, move⟩
  cases move <;> simp

variable [Conduct.Keeps β Bot.Retains] {initial : List UInt64}

/-- What becomes of a pass under way and of the ledger in a step, whatever is told
on the way. -/
theorem Mindful.step {listing : Routine (Hub β κ) (List GuildStatus)}
    (hlisting : listing.Keeps Hub.Retains)
    {rest : Narrated InitEntry (Hub β κ) (Nat ⊕ InitReport)} {mind : Agenda} {hub : Hub β κ}
    {book : List InitEntry} {others : Multiset Agenda}
    (h : Mindful (fun hub => hub.bot.loadedGuilds) (fun _ left => left.owed = 0) rest mind)
    (hledger : Ledger initial hub.bot.loadedGuilds book (mind ::ₘ others)) :
    let after := Round.step (.underWay listing rest) (hub, book)
    hub.Retains after.1.1 ∧
      ∃ left, Round.Fits after.2 left ∧ Accounted initial after.1 (left ::ₘ others) := by
  induction rest generalizing mind book with
  | done outcome =>
      rcases mind with ⟨heard, owed⟩
      obtain rfl : owed = 0 := h
      have hledger' : Accounted initial (hub, book ++ []) (⟨heard, 0⟩ ::ₘ others) := by
        rw [List.append_nil]
        exact hledger
      cases outcome with
      | inl polls =>
          exact ⟨fun _ hid => hid, ⟨heard, 0⟩,
            ⟨hlisting, Pass.mindful_attempt hlisting polls heard⟩, hledger'⟩
      | inr report => exact ⟨fun _ hid => hid, ⟨heard, 0⟩, rfl, hledger'⟩
  | tell entry next ih =>
      rw [Round.step_tell]
      cases entry with
      | listed guilds => exact ih h (hledger.listed guilds)
      | recorded id => exact h.elim
      | started g =>
          rcases mind with ⟨heard, owed⟩
          rcases h with ⟨left, rfl, h⟩
          exact ih h hledger.begun
  | act change tells next _ =>
      rcases h hub with
        ⟨hsubset, ⟨htells, h⟩ | ⟨status, hheard, havailable, hnew, hin, htells, h⟩⟩
      · refine ⟨hsubset, mind, ⟨hlisting, h⟩, ?_⟩
        show Ledger initial _ (book ++ tells hub) _
        rw [htells, List.append_nil]
        exact hledger.retain hsubset
      · refine ⟨hsubset, ⟨mind.heard, status.guild ::ₘ mind.owed⟩, ⟨hlisting, h⟩, ?_⟩
        show Ledger initial _ (book ++ tells hub) _
        rw [htells]
        exact hledger.record hsubset hheard havailable hnew hin
  | sleep ms next _ =>
      refine ⟨fun _ hid => hid, mind, ⟨hlisting, h⟩, ?_⟩
      show Ledger initial _ (book ++ []) _
      rw [List.append_nil]
      exact hledger

/-- A step of any pass keeps the ledger balanced. -/
theorem Round.step_fits (r : Round β κ) (mind : Agenda) (s : Hub β κ × List InitEntry)
    (others : Multiset Agenda) (hfits : r.Fits mind) (h : Accounted initial s (mind ::ₘ others)) :
    s.1.Retains (r.step s).1.1 ∧
      ∃ left, (r.step s).2.Fits left ∧ Accounted initial (r.step s).1 (left ::ₘ others) := by
  cases r with
  | underWay listing rest => exact Mindful.step hfits.1 hfits.2 h
  | returned report => exact ⟨fun _ hid => hid, mind, hfits, h⟩

theorem Round.Reached.attended {hub : Hub β κ} {w : Crowd (Hub β κ × List InitEntry) (Round β κ)}
    (h : Reached hub w) : w.Attended Round.Fits (Accounted hub.bot.loadedGuilds) := by
  induction h with
  | start => exact ⟨[], .nil, Ledger.start _⟩
  | call hlisting _ ih =>
      exact ih.join ⟨hlisting, Pass.mindful_attempt hlisting 0 []⟩ fun _ hledger => hledger.join
  | others hretains _ ih => exact ih.change fun _ hledger => hledger.retain hretains
  | turn i _ ih =>
      exact ih.turn (fun m g s others hfits hledger =>
        (Round.step_fits m g s others hfits hledger).2) i

omit [Conduct.Keeps β Bot.Retains] in
theorem Round.Reached.play {hub : Hub β κ} {w : Crowd (Hub β κ × List InitEntry) (Round β κ)}
    (h : Reached hub w) (schedule : List Nat) : Reached hub (w.play Round.step schedule) := by
  induction schedule generalizing w with
  | nil => exact h
  | cons i rest ih => exact ih (h.turn i)

omit [Conduct β] [Conduct.Keeps β Bot.Retains] in
/-- Passes that have returned owe nothing. -/
theorem owedIds_of_returned {passes : List (Round β κ)} {agendas : List Agenda}
    (h : List.Forall₂ Round.Fits passes agendas) (hreturned : ∀ r ∈ passes, r.isReturned = true) :
    owedIds agendas = 0 := by
  induction h with
  | nil => rfl
  | @cons r mind _ _ hfits _ ih =>
      have howed : mind.owed = 0 := by
        cases r with
        | underWay listing rest =>
            exact absurd (hreturned _ List.mem_cons_self) (by simp [Round.isReturned])
        | returned report => exact hfits
      rw [← Multiset.cons_coe, owedIds_cons, howed,
        ih fun r hr => hreturned r (List.mem_cons_of_mem _ hr)]
      rfl

/-- What was told of passes, and the guilds that were recorded before and are
recorded now. -/
structure InitializedOnce (initial loaded : List UInt64) (book : List InitEntry) : Prop where
  /-- The event was started at most once for a guild. -/
  once : (startedIds book).Nodup
  /-- Before it was started, a list reported the guild available. -/
  reported : ∀ g, .started g ∈ book → ∃ guilds, [.listed guilds, .started g] <+ book ∧
    ∃ s ∈ guilds, s.guild = g ∧ s.available = true
  /-- It was started only for guilds that passes recorded, each of them once. -/
  recorded : startedIds book ⊆ recordedIds book ∧ (recordedIds book).Nodup
  /-- These are new to the record. -/
  added : ∀ id ∈ recordedIds book, id ∈ loaded ∧ id ∉ initial
  kept : initial ⊆ loaded

/-- The event for the initialization of guilds is started at most once for a
guild, whatever directories answer, however many passes there are and however
they take turns, and whatever comes of the chains of the event.

It is started only for guilds that a list reported available before. No step
loses a record of a guild. And when no pass is under way, the guilds it was
started for are the guilds that passes added to the record. What is told of the
passes is told of the passes that run: without it an attempt is the attempt, and
a step is the step. -/
theorem Round.Reached.initialized_once {hub : Hub β κ}
    {w : Crowd (Hub β κ × List InitEntry) (Round β κ)} (h : Reached hub w) :
    InitializedOnce hub.bot.loadedGuilds w.state.1.bot.loadedGuilds w.state.2 ∧
    (∀ i, w.state.1.Retains (w.turn Round.step i).state.1) ∧
    ((∀ r ∈ w.members, r.isReturned = true) →
      startedIds w.state.2 ~ recordedIds w.state.2) ∧
    ∀ listing : Routine (Hub β κ) (List GuildStatus),
      (∀ polls, (Pass.narratedAttempt Hub.desk listing polls).plain =
        Pass.attempt Hub.desk listing polls) ∧
      ∀ (rest : Narrated InitEntry (Hub β κ) (Nat ⊕ InitReport)) (s : Hub β κ),
        rest.plain.loopStep (Pass.attempt Hub.desk listing) s =
        let after := rest.loopStep (Pass.narratedAttempt Hub.desk listing) s
        (after.1, after.2.2.map Narrated.plain) := by
  rcases h.attended with ⟨agendas, hfits, hledger⟩
  have hle : (startedIds w.state.2 : Multiset UInt64) ≤ recordedIds w.state.2 := by
    rw [← hledger.balance]
    exact Multiset.le_add_right ..
  refine ⟨⟨?_, hledger.started, ⟨?_, hledger.nodup⟩, hledger.recorded, hledger.kept⟩, ?_, ?_, ?_⟩
  · exact Multiset.coe_nodup.1 (Multiset.nodup_of_le hle (Multiset.coe_nodup.2 hledger.nodup))
  · exact fun id hid => Multiset.mem_of_le hle hid
  · intro i
    unfold Crowd.turn
    cases hr : w.members[i]? with
    | none => exact fun _ hid => hid
    | some r =>
        rcases Crowd.exists_ghost hfits hr with ⟨mind, others, hmind, hagendas, -⟩
        have hstate : Accounted hub.bot.loadedGuilds w.state (mind ::ₘ others) :=
          hagendas ▸ hledger
        exact (r.step_fits mind w.state others hmind hstate).1
  · intro hreturned
    refine Multiset.coe_eq_coe.1 ?_
    rw [← hledger.balance, owedIds_of_returned hfits hreturned, add_zero]
  · intro listing
    have hattempt := Pass.plain_narratedAttempt (Hub.desk (β := β) (κ := κ)) listing
    refine ⟨hattempt, fun rest s => ?_⟩
    rw [← Narrated.plain_loopStep, ← funext hattempt]

/-- A directory that lists one guild, available. -/
def Hub.village : Routine (Hub Shipped Unit) (List GuildStatus) :=
  Routine.read fun _ => [⟨5, "village", true⟩]

/-- A hub whose bot has a chain for the event that fails. -/
def Hub.clumsy : Hub Shipped Unit :=
  ⟨.load ⟨.standard, .null, [], [⟨EventName.botInitialization, [⟨none, [("stop", .null)]⟩]⟩]⟩ .empty
    (fun _ _ _ => none) id, .clear, ()⟩

/-- Two passes that take turns cut by cut. -/
def Round.rivals : Crowd (Hub Shipped Unit × List InitEntry) (Round Shipped Unit) :=
  Crowd.play Round.step [0, 1, 0, 1, 0, 1, 0, 1, 0, 1, 0, 1, 0, 1, 0, 1, 0, 1]
    ⟨(Hub.clumsy, []), [.underWay Hub.village (Pass.narratedAttempt Hub.desk Hub.village 0),
      .underWay Hub.village (Pass.narratedAttempt Hub.desk Hub.village 0)]⟩

theorem Round.Reached.initialized_once_rivals :
    Reached Hub.clumsy rivals ∧ (∀ r ∈ rivals.members, r.isReturned = true) ∧
    startedIds rivals.state.2 = [5] ∧ startedIds rivals.state.2 ~ recordedIds rivals.state.2 := by
  have hvillage : Hub.village.Keeps Hub.Retains := .read _ fun _ _ hid => hid
  have hreached : Reached Hub.clumsy rivals :=
    ((Reached.start.call hvillage).call hvillage).play _
  have hreturned : ∀ r ∈ rivals.members, r.isReturned = true := by
    have hall : rivals.members.all Round.isReturned = true := rfl
    exact List.all_eq_true.1 hall
  exact ⟨hreached, hreturned, rfl, hreached.initialized_once.2.2.1 hreturned⟩

end

end ActionChain
