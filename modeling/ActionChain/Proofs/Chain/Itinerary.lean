import ActionChain.Proofs.Chain.Aloof
import ActionChain.Proofs.Dispatch.Handled
import ActionChain.Proofs.Tracking

/-!
# Itineraries

Where a chain goes that does not look where it goes.

Of the actions that bots come with, only the comparison of a variable asks the
state where to go on. The others go where their parameters say or to the next
action, if they do not fail. So in a chain without comparisons each index leads
to one other, or to the end, and this can be read off the chain: whatever a step
meets on its way, it fails or leads there (`Chain.yields_advance`).

An itinerary is what follows from that for a whole run, the indices on the way
to the end. There may be none, if the way goes round in a circle; and where there
is one, it is the only one and passes no index twice.

## Main definitions

* `Conduct.Ships`: behaviours that include the shipped ones.
* `Chain.Unbranched`: chains that do not look where they go.
* `Chain.leads`: where an index leads.
* `Chain.Itinerary`: the way to the end from an index.

## Theorems

* `Builtin.leads_handle`, `Shipped.leads_handle`: the handlers.
* `Chain.yields_advance`: a step leads where its index leads, or fails.
* `Chain.Itinerary.unique`, `Chain.Itinerary.nodup`: there is one way at most,
  and it passes no index twice.
-/

namespace ActionChain

open ChainError (Unlimited)

variable {α β : Type}

/-! ## The way to the end -/

/-- Where the built-in action leads, as its parameters say. -/
def Builtin.continuation (action : Action) : Continuation :=
  ((Params.read? action.paramSource).map Params.continuation).getD .stop

namespace Chain

variable {bot : Bot β} {chain : Chain}

/-- Where an index leads, on a bot with certain mods, if the step does not fail. -/
def leads (bot : Bot β) (chain : Chain) (index : Nat) : Advance :=
  match chain.actions[index]? with
  | none => .terminated
  | some action =>
    match handlerOf action bot with
    | some _ => .next (index + 1)
    | none => (Builtin.continuation action).advance index

theorem leads_of_none {action : Action} {index : Nat} (haction : chain.actions[index]? = some action)
    (hhandler : handlerOf action bot = none) :
    chain.leads bot index = (Builtin.continuation action).advance index := by
  rw [leads, haction]
  simp only [hhandler]

theorem leads_of_some {action : Action} {behaviour : β} {index : Nat}
    (haction : chain.actions[index]? = some action)
    (hhandler : handlerOf action bot = some behaviour) :
    chain.leads bot index = .next (index + 1) := by
  rw [leads, haction]
  simp only [hhandler]

/-- The indices on the way to the end of a chain, from an index on. -/
inductive Itinerary (bot : Bot β) (chain : Chain) : Nat → List Nat → Prop where
  | outside {index : Nat} (h : chain.actions.length ≤ index) : Itinerary bot chain index []
  | last {index : Nat} (h : index < chain.actions.length)
      (hleads : chain.leads bot index = .terminated) : Itinerary bot chain index [index]
  | step {index target : Nat} {indices : List Nat} (h : index < chain.actions.length)
      (hleads : chain.leads bot index = .next target) (hrest : Itinerary bot chain target indices) :
      Itinerary bot chain index (index :: indices)

namespace Itinerary

variable {index : Nat} {indices indices' : List Nat}

theorem lt (h : Itinerary bot chain index indices) : ∀ i ∈ indices, i < chain.actions.length := by
  induction h with
  | outside => exact nofun
  | last h => simpa using h
  | step h _ _ ih => simpa using ⟨h, ih⟩

/-- There is one way to the end at most. -/
theorem unique (h : Itinerary bot chain index indices) (h' : Itinerary bot chain index indices') :
    indices = indices' := by
  induction h generalizing indices' with
  | outside hout =>
      cases h' with
      | outside => rfl
      | last hin => exact absurd hin (Nat.not_lt.2 hout)
      | step hin => exact absurd hin (Nat.not_lt.2 hout)
  | last hin hleads =>
      cases h' with
      | outside hout => exact absurd hin (Nat.not_lt.2 hout)
      | last => rfl
      | step _ hleads' =>
          rw [hleads] at hleads'
          cases hleads'
  | step hin hleads _ ih =>
      cases h' with
      | outside hout => exact absurd hin (Nat.not_lt.2 hout)
      | last _ hleads' =>
          rw [hleads] at hleads'
          cases hleads'
      | step _ hleads' hrest' =>
          rw [hleads] at hleads'
          cases hleads'
          rw [ih hrest']

/-- From an index on the way, the rest of the way leads to the end. -/
theorem exists_suffix (h : Itinerary bot chain index indices) {i : Nat} (hi : i ∈ indices) :
    ∃ rest, Itinerary bot chain i rest ∧ rest <:+ indices := by
  induction h with
  | outside => cases hi
  | last hin hleads =>
      obtain rfl := List.mem_singleton.1 hi
      exact ⟨_, .last hin hleads, List.suffix_refl _⟩
  | step hin hleads hrest ih =>
      rcases List.mem_cons.1 hi with rfl | hi
      · exact ⟨_, .step hin hleads hrest, List.suffix_refl _⟩
      · rcases ih hi with ⟨rest, hway, hsuffix⟩
        exact ⟨rest, hway, hsuffix.trans (List.suffix_cons ..)⟩

/-- The way to the end passes no index twice. Otherwise the way from the second time
on would be a shorter one from the same index. -/
theorem nodup (h : Itinerary bot chain index indices) : indices.Nodup := by
  induction h with
  | outside => exact List.nodup_nil
  | last => exact List.nodup_cons.2 ⟨nofun, List.nodup_nil⟩
  | @step index _ indices hin hleads hrest ih =>
      refine List.nodup_cons.2 ⟨fun hmem => ?_, ih⟩
      rcases hrest.exists_suffix hmem with ⟨rest, hway, hsuffix⟩
      obtain rfl : index :: indices = rest := (step hin hleads hrest).unique hway
      have hlength := hsuffix.length_le
      rw [List.length_cons] at hlength
      omega

end Itinerary

end Chain

/-! ## Handlers -/

/-- A reply that asks for a certain continuation, unless it is a failure. -/
def Reply.Leads (c : Continuation) (reply : Reply) : Prop :=
  ∀ c', reply.result = .ok c' → c' = c

theorem Step.leads_reply_error (step : Step) (e : ChainError) (c : Continuation) :
    (step.reply (.error e)).Leads c :=
  nofun

theorem Step.leads_reply_ok (step : Step) (c : Continuation) : (step.reply (.ok c)).Leads c := by
  rintro _ ⟨⟩
  rfl

/-- What a reply leads to is where its step goes on. -/
theorem Reply.Leads.advance {c : Continuation} {reply : Reply} (h : reply.Leads c)
    (hunlimited : Unlimited reply.result) (index : Nat) :
    Unlimited (reply.result.map (Continuation.advance index)) ∧
      ∀ a, reply.result.map (Continuation.advance index) = .ok a → a = c.advance index := by
  refine ⟨hunlimited.map _, fun a ha => ?_⟩
  cases hresult : reply.result with
  | error e =>
      rw [hresult] at ha
      cases ha
  | ok c' =>
      rw [hresult] at ha
      cases ha
      rw [h c' hresult]

/-- The built-in action leads where its parameters say, whatever was stored and sent. -/
theorem Builtin.leads_handle (step : Step) :
    (handle (β := β) step).Yields (fun _ => True) (Reply.Leads (continuation step.action)) := by
  unfold handle continuation Step.params
  cases Params.read? step.action.paramSource with
  | none => exact .pure (step.leads_reply_error _ _)
  | some p =>
      refine (Routine.Yields.trivial (assign step p.set)).bind fun result _ => ?_
      cases result with
      | error e => exact .pure (step.leads_reply_error _ _)
      | ok u =>
          refine (Routine.Yields.trivial (speak step p)).bind fun result _ => ?_
          cases result with
          | error e => exact .pure (step.leads_reply_error _ _)
          | ok u => exact .pure (step.leads_reply_ok _)

namespace Shipped

theorem leads_andNext (step : Step) (result : Except ChainError Unit) :
    (andNext step result).Leads .next := by
  cases result with
  | error e => exact step.leads_reply_error _ _
  | ok u => exact step.leads_reply_ok _

/-- The shipped mods lead to the next action, but for the comparison. -/
theorem leads_handle {s : Shipped} (hs : s ≠ .ifVar) (step : Step) :
    (handle (β := β) s step).Yields (fun _ => True) (Reply.Leads .next) := by
  cases s with
  | ifVar => exact absurd rfl hs
  | incrementVar =>
      unfold handle
      cases step.params Increment.read? with
      | error e => exact .pure (step.leads_reply_error _ _)
      | ok p => exact (Routine.Yields.trivial _).bind fun _ _ => .pure (leads_andNext _ _)
  | wait =>
      unfold handle
      cases step.params readPause? with
      | error e => exact .pure (step.leads_reply_error _ _)
      | ok ms => exact (Routine.Yields.trivial _).bind fun _ _ => .pure (leads_andNext _ _)
  | randomPick =>
      unfold handle
      cases step.params Choice.read? with
      | error e => exact .pure (step.leads_reply_error _ _)
      | ok p => exact (Routine.Yields.trivial _).bind fun _ _ => .pure (leads_andNext _ _)
  | joinLogger => exact .pure (leads_andNext _ _)

end Shipped

/-! ## Steps -/

instance : Bot.Aloof (Eq : Bot β → Bot β → Prop) where
  level := by
    rintro a _ rfl
    exact ⟨rfl, rfl, rfl, rfl, rfl, rfl, rfl⟩
  vars _ := by
    rintro rfl
    rfl
  deliveries _ := by
    rintro rfl
    rfl
  taken _ := by
    rintro rfl
    rfl
  notes _ := by
    rintro rfl
    rfl

/-- The mods are the same. -/
def Bot.SameMods (before after : Bot β) : Prop := after.registry = before.registry

instance : Bot.Admits (Bot.SameMods (β := β)) where
  of_handled h := by
    rw [h]
    rfl

/-- Behaviours that include the shipped ones. -/
class Conduct.Ships (β : Type) [Conduct β] where
  embed : Shipped → β
  handle_embed (s : Shipped) (step : Step) : Conduct.handle (embed s) step = s.handle step

instance : Conduct.Ships Shipped := ⟨id, fun _ _ => rfl⟩

instance : Conduct.Ships Performer := ⟨.shipped, fun _ _ => rfl⟩

namespace Chain

variable [Conduct β] [Conduct.Ships β] {bot : Bot β} {chain : Chain}

/-- A chain whose actions are built in or shipped, with no comparison among them, on
a bot with certain mods. -/
def Unbranched (bot : Bot β) (chain : Chain) : Prop :=
  ∀ action ∈ chain.actions, ∀ behaviour, handlerOf action bot = some behaviour →
    ∃ s, s ≠ .ifVar ∧ behaviour = Conduct.Ships.embed s

omit [Conduct β] [Conduct.Ships β] in
/-- A step leads where the replies of its handler lead, if that leaves the mods alone
and does not complain about the limit. -/
theorem yields_reply {r : Routine (Bot β) Reply} {c : Continuation}
    (hmods : r.Keeps Bot.SameMods)
    (hunlimited : r.Respects Eq (fun x y => x = y ∧ Unlimited x.result) r)
    (hleads : r.Yields (fun _ => True) (Reply.Leads c)) (index : Nat) :
    (r >>= fun reply =>
        pure (reply.result.map (Continuation.advance index), reply.args)).Yields
      (fun s => s.registry = bot.registry)
      (fun reply => Unlimited reply.1 ∧ ∀ a, reply.1 = .ok a → a = c.advance index) := by
  have hkept : r.Yields (fun s => s.registry = bot.registry) fun _ => True :=
    .of_keeps hmods fun s t hs hst => hst.trans hs
  refine ((hkept.and (.of_respects hunlimited)).and hleads).bind ?_
  rintro reply ⟨⟨-, -, hunlimited⟩, hleads⟩
  exact .pure (hleads.advance hunlimited index)

/-- A step leads where its index leads, or fails; and it does not complain about the
limit. -/
theorem yields_advance (hunbranched : chain.Unbranched bot) (subject : Subject) (index : Nat)
    (args : List String) :
    (advance chain subject index args).Yields (fun s => s.registry = bot.registry)
      (fun reply => Unlimited reply.1 ∧ ∀ a, reply.1 = .ok a → a = chain.leads bot index) := by
  unfold advance
  cases haction : chain.actions[index]? with
  | none =>
      refine .pure ⟨trivial, ?_⟩
      rintro _ ⟨⟩
      rw [leads, haction]
  | some action =>
      let step : Step := ⟨subject, action, args, chain, index⟩
      -- The handler is looked up when the step comes, but nobody has changed the mods.
      have hlookup : (Routine.read (handlerOf action)).Yields
          (fun s : Bot β => s.registry = bot.registry) (· = handlerOf action bot) := by
        refine .read fun s hs => ?_
        unfold handlerOf
        rw [hs]
      refine hlookup.bind ?_
      rintro _ rfl
      cases hhandler : handlerOf action bot with
      | none =>
          rw [leads_of_none haction hhandler]
          exact yields_reply (Builtin.keeps_handle step) (Bot.Aloof.respects_builtin step)
            (Builtin.leads_handle step) index
      | some behaviour =>
          rcases hunbranched action (List.mem_of_getElem? haction) behaviour hhandler with
            ⟨s, hs, rfl⟩
          rw [leads_of_some haction hhandler]
          simp only [Conduct.Ships.handle_embed]
          exact yields_reply (s.keeps_handle step) (Bot.Aloof.respects_shipped s step)
            (Shipped.leads_handle hs step) index

end Chain

end ActionChain
