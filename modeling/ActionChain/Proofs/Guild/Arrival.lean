import ActionChain.Proofs.Guild.Handler

/-!
# Guilds That Arrive

What becomes of a guild that a platform announced, until nobody is left to see
to it.

A watch is a scene on a platform together with the handlers under way. Signals
may come at any time and everyone takes turns in any order. A handler calls for
a pass if it is the first to announce a guild; the others rely on a pass that
has been waiting for the guild since it was announced. From its announcement on
the guild is recorded, or a handler will call for a pass, or a request is up,
or a call is about to start a pass, is in one that deals with the guild, or had
one that gave up on it (`Watch.Sound.covered`). Of all these, when everybody has
returned, only a pass that gave up can keep a guild from being recorded
(`Watch.Sound.recorded`).

## Main definitions

* `Standing.Serves`: a call that sees to a guild.
* `Scene.SeesTo`: a guild that is recorded, asked for or seen to.
* `Watch`, `Watch.Reached`: a platform's signals, handlers and calls.
* `Watch.Sound`: what holds after any history.

## Theorems

* `Standing.Serves.step`, `Scene.SeesTo.turn`: a turn keeps a guild in sight.
* `Watch.Reached.sound`: every history is sound.
* `Watch.Sound.recorded`: what is left when everybody has returned.
-/

namespace ActionChain

variable {β : Type}

open Station (Onward Recording Loaded Announced)

/-! ## Calls that see to a guild -/

/-- A call that will start a pass, is in one that deals with a guild, or had one
that gave up on it. -/
def Standing.Serves (policy : GuildPoll) (id : UInt64) : Standing β Presence → Prop
  | .underWay c =>
    match c.call with
    | .requesting | .clearing => True
    | .claiming => False
    | .passing pass =>
      pass.Attains (fun s => s.bot.settings.guildPoll = policy ∧ Announced id s) (Loaded id)
        fun outcome => ∀ report, outcome = .inr report → report.Abandons policy id
    | .releasing report | .checking report | .reclaiming report => report.Abandons policy id
  | .returned report => ∃ r, report = some r ∧ r.Abandons policy id

section Steps

variable [Conduct β] {standing : Standing β Presence} {policy : GuildPoll} {id : UInt64}
  {s : Station β}

/-- A step of a call that sees to a guild that is announced: it still does, or the
guild is recorded, or a request is up. -/
theorem Standing.Serves.step (h : standing.Serves policy id)
    (hattempt : standing.Attempts Station.attempt) (hid : id ≠ 0)
    (hs : s.bot.settings.guildPoll = policy ∧ Announced id s) :
    (standing.step s).2.Serves policy id ∨ Loaded id (standing.step s).1 ∨
      (standing.step s).1.flags.requested = true := by
  cases standing with
  | returned report => exact .inl h
  | underWay c =>
      rcases c with ⟨attempt, call⟩
      obtain rfl : attempt = Station.attempt := hattempt
      cases call with
      | requesting => exact .inr (.inr rfl)
      | claiming => exact h.elim
      | clearing => exact .inl (Station.attains_attempt hid 0)
      | releasing report => exact .inl h
      | checking report =>
          rw [step_checking]
          split
          · exact .inl h
          · exact .inl ⟨report, rfl, h⟩
      | reclaiming report =>
          rw [step_reclaiming]
          split
          · exact .inl ⟨report, rfl, h⟩
          · exact .inl trivial
      | passing pass =>
          cases (h : pass.Attains _ _ _) with
          | @done outcome houtcome =>
              cases outcome with
              | inl n => exact .inl (Station.attains_attempt hid n)
              | inr report => exact .inl (houtcome report rfl)
          | @act change next hnext =>
              by_cases hloaded : Loaded id (change s)
              · exact .inr (.inl hloaded)
              · exact .inl (hnext s hs hloaded)
          | sleep hnext => exact .inl hnext

/-- A request goes down only when a pass is started for it. -/
theorem Standing.requested_step (hkeeps : standing.Keeps Hub.SameFlags)
    (hattempts : standing.Attempts Station.attempt) (hid : id ≠ 0)
    (h : s.flags.requested = true) :
    (standing.step s).1.flags.requested = true ∨ (standing.step s).2.Serves policy id := by
  cases standing with
  | returned report => exact .inl h
  | underWay c =>
      rcases (Standing.step_moves hkeeps none 0 s).requested h with hup | ⟨hclearing, -⟩
      · exact .inl hup
      · rcases c with ⟨attempt, call⟩
        obtain rfl : attempt = Station.attempt := hattempts
        cases call <;> simp [Call.stage] at hclearing
        exact .inr (Station.attains_attempt hid 0)

end Steps

namespace Scene

/-- A guild is recorded, or a request is up, or a call sees to the guild. -/
def SeesTo (policy : GuildPoll) (id : UInt64) (s : Scene β Presence) : Prop :=
  Loaded id s.hub ∨ s.hub.flags.requested = true ∨
    ∃ standing ∈ s.standings, standing.Serves policy id

variable {s : Scene β Presence} {policy : GuildPoll} {id : UInt64}

/-- What others do does not take a guild out of sight. -/
theorem SeesTo.onward (h : s.SeesTo policy id) {hub : Station β} (honward : Onward s.hub hub)
    (hflags : Hub.SameFlags s.hub hub) : SeesTo policy id { s with hub } := by
  rcases h with hloaded | hrequested | hserves
  · exact .inl (honward.loaded id hloaded)
  · refine .inr (.inl ?_)
    rw [hflags]
    exact hrequested
  · exact .inr (.inr hserves)

/-- A call that begins will start a pass. -/
theorem seesTo_call (attempt : Nat → Routine (Station β) (Nat ⊕ InitReport)) :
    (s.call attempt).SeesTo policy id :=
  .inr (.inr ⟨.underWay (.start attempt), List.mem_append_right _ (List.mem_singleton.2 rfl),
    trivial⟩)

/-- What holds of every standing and of a call that begins holds of every standing
after a handler, whether or not it called. -/
theorem forall_standings_of_called {P : Standing β Presence → Prop} (called : Bool)
    {attempt : Nat → Routine (Station β) (Nat ⊕ InitReport)}
    (hold : ∀ standing ∈ s.standings, P standing) (hnew : P (.underWay (.start attempt))) :
    ∀ standing ∈ (if called then s.call attempt else s).standings, P standing := by
  cases called with
  | false => exact hold
  | true =>
      intro standing hmem
      rcases List.mem_append.1 hmem with hmem | hmem
      · exact hold standing hmem
      · rw [List.mem_singleton.1 hmem]
        exact hnew

variable [Conduct β]

/-- A turn of any call keeps an announced guild in sight. -/
theorem SeesTo.turn (h : s.SeesTo policy id)
    (hflags : ∀ standing ∈ s.standings, standing.Keeps Hub.SameFlags)
    (hkeeps : ∀ standing ∈ s.standings, standing.Keeps Recording)
    (hattempts : ∀ standing ∈ s.standings, standing.Attempts Station.attempt) (hid : id ≠ 0)
    (hs : s.hub.bot.settings.guildPoll = policy ∧ Announced id s.hub) (i : Nat) :
    (s.turn i).SeesTo policy id := by
  unfold Scene.turn
  split
  · exact h
  · rename_i standing hi
    have hmem := List.mem_of_getElem? hi
    have hrecording := (hkeeps standing hmem).hub (fun _ _ => ⟨rfl, fun _ h => h, rfl⟩) s.hub
    have hset : (standing.step s.hub).2 ∈ s.standings.set i (standing.step s.hub).2 :=
      List.mem_set (List.getElem?_eq_some_iff.1 hi).1 _
    rcases h with hloaded | hrequested | ⟨other, hother, hserves⟩
    · exact .inl (hrecording.loaded hloaded)
    · refine .inr ((Standing.requested_step (hflags standing hmem) (hattempts standing hmem) hid
        hrequested).imp_right fun hserves => ⟨_, hset, hserves⟩)
    · obtain ⟨j, hj⟩ := List.mem_iff_getElem?.1 hother
      by_cases hij : i = j
      · -- The call that sees to the guild takes the turn.
        subst hij
        obtain rfl : other = standing := Option.some.inj (hj.symm.trans hi)
        rcases hserves.step (hattempts other hmem) hid hs with hserves | hloaded | hrequested
        · exact .inr (.inr ⟨_, hset, hserves⟩)
        · exact .inl hloaded
        · exact .inr (.inl hrequested)
      · have hstays : other ∈ s.standings.set i (standing.step s.hub).2 := by
          refine List.mem_iff_getElem?.2 ⟨j, ?_⟩
          rw [List.getElem?_set_ne hij]
          exact hj
        exact .inr (.inr ⟨other, hstays, hserves⟩)

/-- Others may change everything but the flags. -/
theorem Reached.adapt (h : Reached s) {hub : Station β} (hflags : Hub.SameFlags s.hub hub) :
    Reached { s with hub } := by
  rcases hub with ⟨bot, flags, surroundings⟩
  obtain rfl : flags = s.hub.flags := hflags
  exact h.others bot surroundings

end Scene

/-! ## Watches -/

/-- What is left of a handler will call for a pass unless a guild is recorded
first. -/
def Handler.Owes (id : UInt64) (h : Handler β) : Prop :=
  h.rest.Attains (fun _ => True) (Loaded id) (· = true)

/-- A platform's signals, handlers and calls. -/
structure Watch (β : Type) where
  scene : Scene β Presence
  /-- What is left of the handlers under way. -/
  handling : List (Handler β)
  /-- The guilds that have arrived. -/
  arrived : List UInt64
  /-- The guilds whose arrival has been handled. -/
  handled : List UInt64

namespace Watch

variable [Conduct β]

/-- A bot that has just been connected. -/
def start (bot : Bot β) : Watch β := ⟨.start ⟨bot, .clear, .empty⟩, [], [], []⟩

/-- The watches that signals can lead to, with handlers and calls taking turns in
any order. Handlers overlap if it is said so. A guild that arrives is in the
cache by then and stays there; apart from that the cache may change in any
way. -/
inductive Reached (overlapping : Prop) (bot : Bot β) : Watch β → Prop
  | start : Reached overlapping bot (start bot)
  | platform {w : Watch β} (cache : Cache)
      (hkept : ∀ id ∈ w.arrived, (cache.guilds.get? id).isSome = true)
      (h : Reached overlapping bot w) :
      Reached overlapping bot
        { w with scene.hub.surroundings.cache := cache }
  | receive {w : Watch β} (signal : Signal) (now : Instant)
      (hturn : overlapping ∨ w.handling = [])
      (harrival : ∀ id ∈ signal.arrival?,
        id ≠ 0 ∧ (w.scene.hub.surroundings.cache.guilds.get? id).isSome = true)
      (h : Reached overlapping bot w) :
      Reached overlapping bot
        { w with
          handling := ⟨signal, signal.handle now⟩ :: w.handling
          arrived := signal.arrival?.toList ++ w.arrived }
  | act {w : Watch β} (before after : List (Handler β)) {signal : Signal}
      {change : Station β → Station β} {next : Station β → Routine (Station β) Bool}
      (hw : w.handling = before ++ ⟨signal, .act change next⟩ :: after)
      (h : Reached overlapping bot w) :
      Reached overlapping bot
        { w with
          scene.hub := change w.scene.hub
          handling := before ++ ⟨signal, next w.scene.hub⟩ :: after }
  | sleep {w : Watch β} (before after : List (Handler β)) {signal : Signal} {ms : Nat}
      {next : Routine (Station β) Bool}
      (hw : w.handling = before ++ ⟨signal, .sleep ms next⟩ :: after)
      (h : Reached overlapping bot w) :
      Reached overlapping bot { w with handling := before ++ ⟨signal, next⟩ :: after }
  /-- A handler ends and calls for a pass if it says so. -/
  | done {w : Watch β} (before after : List (Handler β)) {signal : Signal} {called : Bool}
      (hw : w.handling = before ++ ⟨signal, .done called⟩ :: after)
      (h : Reached overlapping bot w) :
      Reached overlapping bot
        { w with
          scene := if called then w.scene.call Station.attempt else w.scene
          handling := before ++ after
          handled := signal.arrival?.toList ++ w.handled }
  | turn {w : Watch β} (i : Nat) (h : Reached overlapping bot w) :
      Reached overlapping bot { w with scene := w.scene.turn i }

/-- What holds after any history. -/
structure Sound (overlapping : Prop) (bot : Bot β) (w : Watch β) : Prop where
  scene : w.scene.Reached
  settings : w.scene.hub.bot.settings = bot.settings
  keeps : ∀ standing ∈ w.scene.standings, standing.Keeps Recording
  attempts : ∀ standing ∈ w.scene.standings, standing.Attempts Station.attempt
  handlers : ∀ h ∈ w.handling, h.Sound w.scene.hub
  single : overlapping ∨ w.handling.length ≤ 1
  /-- From its announcement on somebody sees to a guild. -/
  covered : ∀ id, id ≠ 0 → Announced id w.scene.hub →
    (∃ handler ∈ w.handling, handler.Owes id) ∨ w.scene.SeesTo bot.settings.guildPoll id
  /-- A handler that does not overlap others leaves a guild to a call. -/
  handled : ∀ id ∈ w.handled, id ≠ 0 ∧ Announced id w.scene.hub ∧
    (overlapping ∨ w.scene.SeesTo bot.settings.guildPoll id)

namespace Sound

variable {overlapping : Prop} {bot : Bot β} {w : Watch β}

/-- What a change of the station that goes onward and leaves the flags alone does
not unsettle. -/
theorem adapt (h : Sound overlapping bot w) {hub : Station β} (honward : Onward w.scene.hub hub)
    (hflags : Hub.SameFlags w.scene.hub hub)
    (hannounced : ∀ id, Announced id hub → Announced id w.scene.hub) :
    Sound overlapping bot { w with scene.hub := hub } where
  scene := h.scene.adapt hflags
  settings := honward.settings.trans h.settings
  keeps := h.keeps
  attempts := h.attempts
  handlers handler hmem := (h.handlers handler hmem).mono honward.announced
  single := h.single
  covered id hid hafter := (h.covered id hid (hannounced id hafter)).imp_right fun hsees =>
    hsees.onward honward hflags
  handled id hmem := by
    rcases h.handled id hmem with ⟨hid, hbefore, hsees⟩
    exact ⟨hid, honward.announced id hbefore, hsees.imp_right fun hsees =>
      hsees.onward honward hflags⟩

theorem start (bot : Bot β) : Sound overlapping bot (start bot) where
  scene := .start rfl
  settings := rfl
  keeps := by simp [Watch.start, Scene.start]
  attempts := by simp [Watch.start, Scene.start]
  handlers := by simp [Watch.start]
  single := .inr (Nat.zero_le 1)
  covered id _ hannounced := by cases hannounced
  handled := by simp [Watch.start]

theorem receive [Conduct.Steady β] (h : Sound overlapping bot w) {signal : Signal} (now : Instant)
    (hturn : overlapping ∨ w.handling = []) (hsignal : ∀ id ∈ signal.arrival?, id ≠ 0) :
    Sound overlapping bot
      { w with
        handling := ⟨signal, signal.handle now⟩ :: w.handling
        arrived := signal.arrival?.toList ++ w.arrived } where
  scene := h.scene
  settings := h.settings
  keeps := h.keeps
  attempts := h.attempts
  handlers := List.forall_mem_cons.2 ⟨Handler.sound_receive now hsignal, h.handlers⟩
  single := hturn.imp_right fun hidle => by simp [hidle]
  covered id hid hannounced := (h.covered id hid hannounced).imp_left fun ⟨handler, hmem, howes⟩ =>
    ⟨handler, List.mem_cons_of_mem _ hmem, howes⟩
  handled := h.handled

/-- A handler that ends leaves what it owed to the call it asks for. -/
theorem sees_of_done {id : UInt64} {before after : List (Handler β)} {signal : Signal}
    {called : Bool} (hw : w.handling = before ++ ⟨signal, .done called⟩ :: after)
    (h : (∃ handler ∈ w.handling, handler.Owes id) ∨
      w.scene.SeesTo bot.settings.guildPoll id) :
    (∃ handler ∈ before ++ after, handler.Owes id) ∨
      (if called then w.scene.call Station.attempt else w.scene).SeesTo bot.settings.guildPoll
        id := by
  rcases h with ⟨handler, hmem, hattains⟩ | hsees
  · rw [hw, List.mem_append, List.mem_cons] at hmem
    rcases hmem with hbefore | rfl | hafter
    · exact .inl ⟨handler, List.mem_append_left _ hbefore, hattains⟩
    · cases (hattains : Routine.Attains _ _ _ _) with
      | done hcalled =>
          subst hcalled
          exact .inr (Scene.seesTo_call _)
    · exact .inl ⟨handler, List.mem_append_right _ hafter, hattains⟩
  · right
    cases called with
    | true => exact Scene.seesTo_call _
    | false => exact hsees

/-- An act of a handler: what it announces first it calls for. -/
theorem covered_of_act {id : UInt64} {before after : List (Handler β)} {signal : Signal}
    {change : Station β → Station β} {next : Station β → Routine (Station β) Bool}
    (h : Sound overlapping bot w) (hid : id ≠ 0)
    (hw : w.handling = before ++ ⟨signal, .act change next⟩ :: after)
    (hannounced : Announced id (change w.scene.hub)) :
    (∃ handler ∈ before ++ ⟨signal, next w.scene.hub⟩ :: after, handler.Owes id) ∨
      Scene.SeesTo bot.settings.guildPoll id { w.scene with hub := change w.scene.hub } := by
  have hmem : (⟨signal, .act change next⟩ : Handler β) ∈ w.handling := by simp [hw]
  have hhandler := h.handlers _ hmem
  cases hhandler.keeps with
  | act hchange _ =>
      rcases hchange w.scene.hub with ⟨honward, hflags⟩
      have owing (hnext : (next w.scene.hub).Attains (fun _ => True) (Loaded id) (· = true)) :
          ∃ handler ∈ before ++ ⟨signal, next w.scene.hub⟩ :: after, handler.Owes id :=
        ⟨⟨signal, next w.scene.hub⟩, by simp, hnext⟩
      by_cases hbefore : Announced id w.scene.hub
      · rcases h.covered id hid hbefore with ⟨handler, hmem, hattains⟩ | hsees
        · rw [hw, List.mem_append, List.mem_cons] at hmem
          rcases hmem with hother | rfl | hother
          · exact .inl ⟨handler, List.mem_append_left _ hother, hattains⟩
          · by_cases hloaded : Loaded id (change w.scene.hub)
            · exact .inr (.inl hloaded)
            · cases (hattains : Routine.Attains _ _ _ _) with
              | act hnext => exact .inl (owing (hnext _ trivial hloaded))
          · exact .inl ⟨handler, by simp [hother], hattains⟩
        · exact .inr (hsees.onward honward hflags)
      · cases hhandler.calls with
        | act hnew _ => exact .inl (owing (hnew _ id hannounced hbefore))

theorem act {before after : List (Handler β)} {signal : Signal}
    {change : Station β → Station β} {next : Station β → Routine (Station β) Bool}
    (h : Sound overlapping bot w)
    (hw : w.handling = before ++ ⟨signal, .act change next⟩ :: after) :
    Sound overlapping bot
      { w with
        scene.hub := change w.scene.hub
        handling := before ++ ⟨signal, next w.scene.hub⟩ :: after } := by
  have hmem : (⟨signal, .act change next⟩ : Handler β) ∈ w.handling := by simp [hw]
  have hhandler := h.handlers _ hmem
  have ⟨honward, hflags⟩ : Onward w.scene.hub (change w.scene.hub) ∧
      Hub.SameFlags w.scene.hub (change w.scene.hub) := by
    cases hhandler.keeps with
    | act hchange _ => exact hchange w.scene.hub
  constructor
  case scene => exact h.scene.adapt hflags
  case settings => exact honward.settings.trans h.settings
  case keeps => exact h.keeps
  case attempts => exact h.attempts
  case handlers =>
    intro handler hhandling
    rw [List.mem_append, List.mem_cons] at hhandling
    rcases hhandling with hother | rfl | hother
    · exact (h.handlers handler (by simp [hw, hother])).mono honward.announced
    · exact hhandler.act
    · exact (h.handlers handler (by simp [hw, hother])).mono honward.announced
  case single =>
    refine h.single.imp_right fun hlength => ?_
    simpa [hw] using hlength
  case covered => exact fun id hid hannounced => h.covered_of_act hid hw hannounced
  case handled =>
    intro id hmem
    rcases h.handled id hmem with ⟨hid, hbefore, hsees⟩
    exact ⟨hid, honward.announced id hbefore, hsees.imp_right fun hsees =>
      hsees.onward honward hflags⟩

theorem sleep {before after : List (Handler β)} {signal : Signal} {ms : Nat}
    {next : Routine (Station β) Bool} (h : Sound overlapping bot w)
    (hw : w.handling = before ++ ⟨signal, .sleep ms next⟩ :: after) :
    Sound overlapping bot { w with handling := before ++ ⟨signal, next⟩ :: after } := by
  refine { h with handlers := ?_, single := ?_, covered := ?_ }
  · intro handler hmem
    rw [List.mem_append, List.mem_cons] at hmem
    rcases hmem with hother | rfl | hother
    · exact h.handlers handler (by simp [hw, hother])
    · exact (h.handlers ⟨signal, .sleep ms next⟩ (by simp [hw])).sleep
    · exact h.handlers handler (by simp [hw, hother])
  · refine h.single.imp_right fun hlength => ?_
    simpa [hw] using hlength
  · intro id hid hannounced
    refine (h.covered id hid hannounced).imp_left ?_
    rintro ⟨handler, hmem, howes⟩
    rw [hw, List.mem_append, List.mem_cons] at hmem
    rcases hmem with hother | rfl | hother
    · exact ⟨handler, by simp [hother], howes⟩
    · cases (howes : Routine.Attains _ _ _ _) with
      | sleep hnext => exact ⟨⟨signal, next⟩, by simp, hnext⟩
    · exact ⟨handler, by simp [hother], howes⟩

theorem done [Conduct.Steady β] {before after : List (Handler β)} {signal : Signal} {called : Bool}
    (h : Sound overlapping bot w)
    (hw : w.handling = before ++ ⟨signal, .done called⟩ :: after) :
    Sound overlapping bot
      { w with
        scene := if called then w.scene.call Station.attempt else w.scene
        handling := before ++ after
        handled := signal.arrival?.toList ++ w.handled } := by
  have hhub : (if called then w.scene.call Station.attempt else w.scene).hub = w.scene.hub := by
    cases called <;> rfl
  constructor
  case scene =>
    cases called with
    | false => exact h.scene
    | true => exact h.scene.call (.read _ fun _ => rfl)
  case settings => exact (congrArg (·.bot.settings) hhub).trans h.settings
  case keeps =>
    exact Scene.forall_standings_of_called called h.keeps (.start Station.keeps_attempt)
  case attempts => exact Scene.forall_standings_of_called called h.attempts rfl
  case handlers =>
    intro handler hmem
    rw [hhub]
    refine h.handlers handler ?_
    rw [hw, List.mem_append, List.mem_cons]
    exact (List.mem_append.1 hmem).imp_right .inr
  case single =>
    refine h.single.imp_right fun hlength => ?_
    simp only [hw, List.length_append, List.length_cons] at hlength ⊢
    omega
  case covered =>
    intro id hid hannounced
    rw [hhub] at hannounced
    exact sees_of_done hw (h.covered id hid hannounced)
  case handled =>
    intro id hmem
    rw [hhub]
    have hsees (hid : id ≠ 0) (hannounced : Announced id w.scene.hub) : overlapping ∨
        (if called then w.scene.call Station.attempt else w.scene).SeesTo bot.settings.guildPoll
          id := by
      -- Without overlaps this was the only handler, so nobody owes anything now.
      rcases h.single with hoverlapping | hlength
      · exact .inl hoverlapping
      · simp only [hw, List.length_append, List.length_cons] at hlength
        have hbefore : before = [] := List.eq_nil_of_length_eq_zero (by omega)
        have hafter : after = [] := List.eq_nil_of_length_eq_zero (by omega)
        refine .inr ((sees_of_done hw (h.covered id hid hannounced)).resolve_left ?_)
        simp [hbefore, hafter]
    rcases List.mem_append.1 hmem with hnew | hold
    · have ⟨hid, hannounced⟩ :=
        (h.handlers ⟨signal, .done called⟩ (by simp [hw])).done (Option.mem_toList.1 hnew)
      exact ⟨hid, hannounced, hsees hid hannounced⟩
    · have ⟨hid, hannounced, _⟩ := h.handled id hold
      exact ⟨hid, hannounced, hsees hid hannounced⟩

theorem turn (h : Sound overlapping bot w) (i : Nat) :
    Sound overlapping bot { w with scene := w.scene.turn i } := by
  have hrecording : Recording w.scene.hub (w.scene.turn i).hub :=
    Scene.hub_turn h.keeps (fun _ _ => ⟨rfl, fun _ h => h, rfl⟩) i
  have honward := hrecording.onward
  -- A turn of a call announces nothing.
  have hannounced (id : UInt64) (hafter : Announced id (w.scene.turn i).hub) :
      Announced id w.scene.hub := by
    unfold Announced at hafter ⊢
    rw [hrecording.surroundings] at hafter
    exact hafter
  have hsees {id : UInt64} (hid : id ≠ 0) (hannounced : Announced id w.scene.hub)
      (hsees : w.scene.SeesTo bot.settings.guildPoll id) :
      (w.scene.turn i).SeesTo bot.settings.guildPoll id :=
    hsees.turn h.scene.keeps h.keeps h.attempts hid
      ⟨congrArg Settings.guildPoll h.settings, hannounced⟩ i
  constructor
  case scene => exact h.scene.turn i
  case settings => exact honward.settings.trans h.settings
  case keeps => exact Scene.forall_turn h.keeps (fun _ hkeeps => hkeeps.step _) i
  case attempts => exact Scene.forall_turn h.attempts (fun _ hattempts => hattempts.step _) i
  case handlers =>
    exact fun handler hmem => (h.handlers handler hmem).mono honward.announced
  case single => exact h.single
  case covered =>
    intro id hid hafter
    exact (h.covered id hid (hannounced id hafter)).imp_right (hsees hid (hannounced id hafter))
  case handled =>
    intro id hmem
    rcases h.handled id hmem with ⟨hid, hbefore, hseen⟩
    exact ⟨hid, honward.announced id hbefore, hseen.imp_right (hsees hid hbefore)⟩

end Sound

variable {overlapping : Prop} {bot : Bot β} {w : Watch β}

theorem Reached.sound [Conduct.Steady β] (h : Reached overlapping bot w) :
    Sound overlapping bot w := by
  -- One constructor is one kind of step, and each has its lemma.
  induction h with
  | start => exact .start bot
  | platform cache hkept h ih => exact ih.adapt ⟨rfl, fun _ h => h, fun _ h => h⟩ rfl fun _ h => h
  | receive signal now hturn harrival h ih =>
      exact ih.receive now hturn fun id hid => (harrival id hid).1
  | act before after hw h ih => exact ih.act hw
  | sleep before after hw h ih => exact ih.sleep hw
  | done before after hw h ih => exact ih.done hw
  | turn i h ih => exact ih.turn i

/-- When everybody has returned, nothing is left but the guilds that a pass gave
up on. -/
theorem Sound.recorded (h : Sound overlapping bot w) (hreturned : w.scene.AllReturned)
    (hidle : ¬ overlapping ∨ w.handling = []) {id : UInt64} (hid : id ∈ w.handled) :
    Loaded id w.scene.hub ∨ ∃ report, .returned (some report) ∈ w.scene.standings ∧
      report.Abandons bot.settings.guildPoll id := by
  rcases h.handled id hid with ⟨hne, hannounced, hsees⟩
  have hsees : w.scene.SeesTo bot.settings.guildPoll id := by
    rcases hidle with hsequential | hidle
    · exact hsees.resolve_left hsequential
    · refine (h.covered id hne hannounced).resolve_left ?_
      simp [hidle]
  rcases hsees with hloaded | hrequested | ⟨standing, hmem, hserves⟩
  · exact .inl hloaded
  · have hclear : w.scene.hub.flags = .clear := h.scene.sound.flags_of_ended hreturned.ended
    rw [hclear] at hrequested
    cases hrequested
  · rcases hreturned standing hmem with ⟨report, rfl⟩
    rcases hserves with ⟨report, rfl, habandons⟩
    exact .inr ⟨report, hmem, habandons⟩

end Watch

end ActionChain
