import ActionChain.Proofs.Chain.Compaction
import ActionChain.Proofs.Chain.Itinerary

/-!
# Loops and the Limit

What the limit on steps is for. A chain without comparisons that completes passes
no index twice, since it goes the one way there is, and so it takes no more steps
than it has actions. If its way goes round in a circle it never ends, and the
limit is what stops it.

So a limit that is not below the number of actions does no harm to such chains. If
a run is stopped by one, then it has begun as many steps as the chain has actions
and is about to begin another, so an index comes twice among them; and there is no
way to the end at all, under no other limit, for no other variables, and whoever
else is at work.

A failing run does not report which step the limit kept it from, so a route adds
that to its report.

## Main definitions

* `Chain.Route`, `Chain.route`: a run with the steps it began, and the one it was
  kept from.

## Theorems

* `Chain.route_report`: without that, a route is the report of the run.
* `Chain.yields_routeFrom`: a run follows the itinerary.
* `Chain.never_revisits`: what that comes to, with a limit and without.
-/

namespace ActionChain.Chain

open ChainError (Unlimited)

variable {β : Type}

/-! ## Routes -/

/-- What can be seen of a run, and the index of the step the limit kept it from. -/
structure Route extends Report where
  barred : Option Nat

section

variable [Conduct β]

/-- A run from an index that keeps the indices of the steps begun, latest first, and
the one of the step that the limit kept it from. -/
def routeFrom (chain : Chain) (subject : Subject) (limit : Nat) :
    (left index : Nat) → (args : List String) → (started : List Nat) → Routine (Bot β) Route
  | left, index, args, started =>
    if index < chain.actions.length then
      match left with
      | 0 => pure ⟨⟨started.reverse, .error (.stepLimit chain.name limit)⟩, some index⟩
      | left + 1 => do
        match ← advance chain subject index args with
        | (.error e, _) => pure ⟨⟨(index :: started).reverse, .error e⟩, none⟩
        | (.ok .terminated, args) =>
          pure ⟨⟨(index :: started).reverse, .ok ⟨(index :: started).reverse, args⟩⟩, none⟩
        | (.ok (.next target), args) =>
          routeFrom chain subject limit left target args (index :: started)
    else pure ⟨⟨started.reverse, .ok ⟨started.reverse, args⟩⟩, none⟩

/-- A run from an index under the limit of the settings, with the steps it began and
the one it was kept from. -/
def route (chain : Chain) (subject : Subject) (args : List String) (start : Nat) :
    Routine (Bot β) Route := do
  let limit ← Routine.read fun bot => bot.settings.maxChainSteps
  routeFrom chain subject limit limit start args []

theorem routeFrom_report (chain : Chain) (subject : Subject) (limit left index : Nat)
    (args : List String) (started : List Nat) :
    Route.toReport <$> routeFrom (β := β) chain subject limit left index args started =
      reportFrom chain subject limit left index args started := by
  induction left generalizing index args started with
  | zero =>
      unfold routeFrom reportFrom
      split <;> rfl
  | succ left ih =>
      unfold routeFrom reportFrom
      split
      · simp only [map_bind]
        -- Both begin with the same step; what is left depends on its reply.
        refine congrArg _ (funext fun reply => ?_)
        rcases reply with ⟨_ | _ | _, args⟩
        · rfl
        · exact ih _ _ _
        · rfl
      · rfl

/-- Without the step it was kept from, a route is the report of the run. -/
theorem route_report (chain : Chain) (subject : Subject) (args : List String) (start : Nat) :
    Route.toReport <$> route (β := β) chain subject args start =
      chain.report subject args start := by
  rw [route, report, map_bind]
  exact congrArg _ (funext fun limit => routeFrom_report chain subject limit limit start args [])

end

/-! ## Runs follow itineraries -/

/-- What becomes of a run from an index, with some steps left of a limit, that begins
steps at some indices and may be kept from another: it completes on the way to the
end, or the limit stops it when the steps that are left do not suffice, or a step
fails. -/
def Fate (bot : Bot β) (chain : Chain) (limit left index : Nat) (indices : List Nat)
    (barred : Option Nat) : Except ChainError Trace → Prop
  | .ok _ => Itinerary bot chain index indices
  | .error (.stepLimit _ most) => most = limit ∧ indices.length = left ∧
      (∀ i ∈ indices, i < chain.actions.length) ∧
      (∃ ahead < chain.actions.length, barred = some ahead) ∧
      ∀ way, Itinerary bot chain index way → left < way.length
  | .error _ => True

variable {bot : Bot β} {chain : Chain}

theorem Fate.of_outside {limit left index : Nat} (h : ¬ index < chain.actions.length)
    (trace : Trace) : Fate bot chain limit left index [] none (.ok trace) :=
  .outside (Nat.le_of_not_lt h)

/-- A step more, and a step less is left. -/
theorem Fate.step {limit left index target : Nat} {indices : List Nat} {barred : Option Nat}
    {outcome : Except ChainError Trace} (hin : index < chain.actions.length)
    (hleads : chain.leads bot index = .next target)
    (h : Fate bot chain limit left target indices barred outcome) :
    Fate bot chain limit (left + 1) index (index :: indices) barred outcome := by
  rcases outcome with e | trace
  · cases e with
    | mod | invalidParams | gateway | graph => trivial
    | stepLimit name most =>
        rcases h with ⟨hmost, hlength, hinside, hbarred, hway⟩
        refine ⟨hmost, congrArg (· + 1) hlength, List.forall_mem_cons.2 ⟨hin, hinside⟩, hbarred, ?_⟩
        intro way h
        cases h with
        | outside hout => exact absurd hin (Nat.not_lt.2 hout)
        | last _ hlast =>
            rw [hleads] at hlast
            cases hlast
        | step _ hleads' hrest =>
            rw [hleads] at hleads'
            cases hleads'
            exact Nat.succ_lt_succ (hway _ hrest)
  · exact Itinerary.step hin hleads h

variable [Conduct β] [Conduct.Ships β]

/-- A run from an index on follows the itinerary, whatever its steps meet. -/
theorem yields_routeFrom (hunbranched : chain.Unbranched bot) (subject : Subject)
    (limit left index : Nat) (args : List String) (started : List Nat) :
    (routeFrom chain subject limit left index args started).Yields
      (fun s => s.registry = bot.registry)
      (fun route => (∀ trace, route.outcome = .ok trace → trace.executed = route.started) ∧
        ∃ indices, route.started = started.reverse ++ indices ∧
          Fate bot chain limit left index indices route.barred route.outcome) := by
  induction left generalizing index args started with
  | zero =>
      unfold routeFrom
      split
      · rename_i hin
        refine .pure ⟨nofun, [], (List.append_nil _).symm, rfl, rfl, nofun, ⟨index, hin, rfl⟩, ?_⟩
        intro way hway
        cases hway with
        | outside hout => exact absurd hin (Nat.not_lt.2 hout)
        | last => exact Nat.succ_pos _
        | step => exact Nat.succ_pos _
      · rename_i hout
        refine .pure ⟨?_, [], (List.append_nil _).symm, .of_outside hout _⟩
        rintro _ ⟨⟩
        rfl
  | succ left ih =>
      unfold routeFrom
      split
      · rename_i hin
        refine (yields_advance hunbranched subject index args).bind ?_
        rintro ⟨result, args⟩ ⟨hunlimited, hleads⟩
        rcases result with e | (target | _)
        · refine .pure ⟨nofun, [index], List.reverse_cons .., ?_⟩
          -- The failure is not the one of the limit.
          cases e with
          | stepLimit => exact hunlimited.elim
          | mod | invalidParams | gateway | graph => trivial
        · refine (ih target args (index :: started)).mono ?_
          rintro route ⟨hexecuted, indices, hstarted, hfate⟩
          refine ⟨hexecuted, index :: indices, ?_, hfate.step hin (hleads _ rfl).symm⟩
          rw [hstarted, List.reverse_cons, List.append_assoc, List.singleton_append]
        · refine .pure ⟨?_, [index], List.reverse_cons .., .last hin (hleads _ rfl).symm⟩
          rintro _ ⟨⟩
          rfl
      · rename_i hout
        refine .pure ⟨?_, [], (List.append_nil _).symm, .of_outside hout _⟩
        rintro _ ⟨⟩
        rfl

/-- A run under the limit of the settings follows the itinerary. -/
theorem yields_route (hunbranched : chain.Unbranched bot) (subject : Subject)
    (args : List String) (start : Nat) :
    (route chain subject args start).Yields (fun s => s.registry = bot.registry)
      (fun route => (∀ trace, route.outcome = .ok trace → trace.executed = route.started) ∧
        ∃ limit, Fate bot chain limit limit start route.started route.barred route.outcome) := by
  refine (Routine.Yields.read fun _ _ => trivial).bind (Q := fun _ => True) fun limit _ => ?_
  refine (yields_routeFrom hunbranched subject limit limit start args []).mono ?_
  rintro route ⟨hexecuted, indices, hstarted, hfate⟩
  rw [List.reverse_nil, List.nil_append] at hstarted
  exact ⟨hexecuted, limit, hstarted ▸ hfate⟩

omit [Conduct.Ships β] in
/-- Without the steps begun and the one it was kept from, a route is the run, whoever
else is at work. -/
theorem run_amid (chain : Chain) (subject : Subject) (args : List String) (start : Nat)
    (meddle : Nat → Bot β → Bot β) (bot : Bot β) :
    let f := (chain.route subject args start).amid meddle bot
    (chain.run subject args start).amid meddle bot = ⟨f.value.outcome, f.state, f.elapsed⟩ := by
  rw [← report_outcome, ← route_report, Routine.amid_map, Routine.amid_map]

section

variable {s : Bot β} {meddle : Nat → Bot β → Bot β}

theorem fate_amid (hunbranched : chain.Unbranched bot) (hs : s.registry = bot.registry)
    (hmeddle : ∀ k s, (meddle k s).registry = s.registry) (subject : Subject)
    (args : List String) (start : Nat) :
    let f := ((chain.route subject args start).amid meddle s).value
    (∀ trace, f.outcome = .ok trace → trace.executed = f.started) ∧
      ∃ limit, Fate bot chain limit limit start f.started f.barred f.outcome :=
  (yields_route hunbranched subject args start).amid (fun k s hs => (hmeddle k s).trans hs) hs

/-- A run that completes takes the way to the end. -/
theorem itinerary_of_ok (hunbranched : chain.Unbranched bot) (hs : s.registry = bot.registry)
    (hmeddle : ∀ k s, (meddle k s).registry = s.registry) {subject : Subject}
    {args : List String} {start : Nat} {trace : Trace}
    (htrace : ((chain.route subject args start).amid meddle s).value.outcome = .ok trace) :
    Itinerary bot chain start trace.executed := by
  rcases fate_amid hunbranched hs hmeddle subject args start with ⟨hexecuted, limit, hfate⟩
  rw [htrace] at hfate
  rw [hexecuted trace htrace]
  exact hfate

end

/-- A chain whose actions are built in or shipped, with no comparison among them,
completes without passing an index twice, whoever else is at work meanwhile, as long
as nobody changes the mods.

If a limit stops it that is not below the number of its actions, then the indices of
the steps it began and of the one it was about to begin are not all different. And
then it completes in no case: under no limit, on no bot with the same mods, for no
subject and no arguments, and whatever others do. -/
theorem never_revisits (bot : Bot β) (chain : Chain) (hunbranched : chain.Unbranched bot)
    (subject : Subject) (args : List String) (start : Nat) (meddle : Nat → Bot β → Bot β)
    (hmeddle : ∀ k s, (meddle k s).registry = s.registry) :
    let f := (chain.route subject args start).amid meddle bot
    (chain.run subject args start).amid meddle bot = ⟨f.value.outcome, f.state, f.elapsed⟩ ∧
    (∀ trace, f.value.outcome = .ok trace →
      trace.executed.Nodup ∧ trace.executed.length ≤ chain.actions.length) ∧
    ∀ name limit, f.value.outcome = .error (.stepLimit name limit) →
      chain.actions.length ≤ limit →
      (∃ ahead, f.value.barred = some ahead ∧ ¬ (f.value.started ++ [ahead]).Nodup) ∧
      ∀ (bot' : Bot β) (subject' : Subject) (args' : List String)
        (meddle' : Nat → Bot β → Bot β), bot'.registry = bot.registry →
        (∀ k s, (meddle' k s).registry = s.registry) →
        ∀ trace, ((chain.run subject' args' start).amid meddle' bot').value ≠ .ok trace := by
  intro f
  refine ⟨run_amid chain subject args start meddle bot, fun trace htrace => ?_, ?_⟩
  · have h := itinerary_of_ok hunbranched rfl hmeddle htrace
    exact ⟨h.nodup, length_le_of_nodup_of_lt h.nodup h.lt⟩
  · intro name limit houtcome hlimit
    rcases fate_amid hunbranched rfl hmeddle subject args start with ⟨-, limit', hfate⟩
    rw [houtcome] at hfate
    rcases hfate with ⟨rfl, hlength, hinside, ⟨ahead, hahead, hbarred⟩, hnone⟩
    refine ⟨⟨ahead, hbarred, fun hnodup => ?_⟩, ?_⟩
    · -- One index more than there are actions.
      have hle := length_le_of_nodup_of_lt hnodup
        (List.forall_mem_append.2 ⟨hinside, List.forall_mem_singleton.2 hahead⟩)
      rw [List.length_append, hlength, List.length_singleton] at hle
      omega
    · intro bot' subject' args' meddle' hbot' hmeddle' trace htrace
      rw [run_amid] at htrace
      have h := itinerary_of_ok hunbranched hbot' hmeddle' htrace
      have hlt := hnone _ h
      have hle := length_le_of_nodup_of_lt h.nodup h.lt
      omega

/-- Waits and starts over. -/
def carousel : Chain :=
  ⟨"carousel",
    [⟨some "wait", [("ms", .number (.int 1 (by decide)))]⟩,
    ⟨none, [("goto", .number (.int 0 (by decide)))]⟩]⟩

/-- A bot with the shipped mods that allows a run two steps. -/
def hasty : Bot Shipped :=
  (Bot.registerAll (Shipped.manifest id)
    (Bot.load ⟨{ Settings.standard with maxChainSteps := 2 }, .null, [], []⟩ .empty
      (fun _ _ _ => none) id)).1

theorem never_revisits_carousel :
    carousel.Unbranched hasty ∧
    ((carousel.route (.guild ⟨1, "home"⟩) [] 0).amid (fun _ => id) hasty).value =
      ⟨⟨[0, 1], .error (.stepLimit "carousel" 2)⟩, some 0⟩ ∧
    carousel.actions.length ≤ 2 ∧ ¬ [0, 1, 0].Nodup ∧
    ∀ (limit : Nat) (trace : Trace),
      ((carousel.run (.guild ⟨1, "home"⟩) [] 0).alone
        { hasty with settings.maxChainSteps := limit }).value ≠ .ok trace := by
  have hunbranched : carousel.Unbranched hasty := by
    intro action haction behaviour hhandler
    rcases List.mem_cons.1 haction with rfl | haction
    · have hwait : some behaviour = some Shipped.wait := hhandler.symm
      exact ⟨.wait, by decide, Option.some.inj hwait⟩
    · obtain rfl := List.mem_singleton.1 haction
      cases hhandler
  have hroute : ((carousel.route (.guild ⟨1, "home"⟩) [] 0).amid (fun _ => id) hasty).value =
      ⟨⟨[0, 1], .error (.stepLimit "carousel" 2)⟩, some 0⟩ := rfl
  rcases (never_revisits hasty carousel hunbranched (.guild ⟨1, "home"⟩) [] 0 (fun _ => id)
    fun _ _ => rfl).2.2 "carousel" 2 (congrArg (·.outcome) hroute) (Nat.le_refl 2) with
    ⟨⟨ahead, hahead, hrepeats⟩, hnever⟩
  rw [hroute] at hahead hrepeats
  cases hahead
  refine ⟨hunbranched, hroute, Nat.le_refl 2, hrepeats, fun limit trace => ?_⟩
  rw [← Routine.amid_id]
  exact hnever { hasty with settings.maxChainSteps := limit } _ _ _ rfl (fun _ _ => rfl) trace

end ActionChain.Chain
