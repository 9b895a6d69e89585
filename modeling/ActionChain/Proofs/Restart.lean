import ActionChain.Proofs.Dispatch.Reached
import ActionChain.Proofs.Variables.Rereading

/-!
# Restarting

What is left of the variables when a bot is started again from the files of
the last one.

A file that was written holds what was written to it, and writing one file
changes no other, so after both scope files were written a scope is loaded
from the text of its own graph (`Storage.loadScope_flushVariables`). The rest
is reading that text back, and a bot that messages and events can lead to has
all its references inside, which is what reading back asks for.

The answer is all or nothing per scope, because the text is read as a whole.
A sum that overflows is the value to watch: it is stored like any other
number, is written as null, and null is not read as a number, so every
variable of its scope is gone (`Bot.restart`).

## Main definitions

* `Bot.writeError`: how writing the scope files fared when a bot persisted.

## Theorems

* `Storage.read_write`: what was written is read.
* `Storage.loadScope_flushVariables`: a scope is loaded from what it wrote.
* `Bot.restart`: which variables a restart keeps.
-/

namespace ActionChain

namespace Storage

variable {s s' : Storage}

theorem blocked_write {f : DataFile} {text : String} (h : s.write f text = .ok s') :
    s.blocked f.folder = false ∧ s'.blocked = s.blocked := by
  rcases eq_put_of_write h with ⟨hopen, rfl⟩
  exact ⟨hopen, rfl⟩

/-- A file holds what was written to it, also after other files were written. -/
theorem read_write {f : DataFile} {text : String} (h : s.write f text = .ok s') :
    s'.read f = .ok (Symbols.ofString text) := by
  rcases blocked_write h with ⟨hopen, hblocked⟩
  unfold read
  rw [hblocked, hopen, place_write h, if_pos rfl]
  rfl

theorem read_write_of_ne {f f' : DataFile} {text : String} (h : s.write f text = .ok s')
    (hne : f' ≠ f) : s'.read f' = s.read f' := by
  unfold read
  rw [(blocked_write h).2, place_write h, if_neg hne]

theorem attempt_eq_none {f : DataFile} {text : String} (h : (s.attempt f text).2 = none) :
    s.write f text = .ok (s.attempt f text).1 := by
  unfold attempt at h ⊢
  cases hwrite : s.write f text with
  | error e =>
      rw [hwrite] at h
      cases h
  | ok s' =>
      rw [hwrite] at h
      dsimp only at h ⊢
      split at h
      · cases h
      · rfl

theorem combine_eq_none {errors : List StoreError} :
    StoreError.combine errors = none ↔ errors = [] := by
  rcases errors with _ | ⟨e, _ | ⟨e', rest⟩⟩ <;> simp [StoreError.combine]

/-- Both scope files hold the texts of their graphs once both were written. -/
theorem read_flushVariables {vars : Variables} (h : (s.flushVariables vars).2 = none) (t : Scope) :
    (s.flushVariables vars).1.read (.scope t)
      = .ok (Symbols.ofString (vars.scope t).fileText) := by
  have hnone := List.append_eq_nil_iff.1 (combine_eq_none.1 h)
  have hserver := attempt_eq_none (Option.toList_eq_nil_iff.1 hnone.1)
  have hglobal := attempt_eq_none (Option.toList_eq_nil_iff.1 hnone.2)
  -- The global file is written last and leaves the server's alone.
  cases t with
  | server => exact (read_write_of_ne hglobal (by decide)).trans (read_write hserver)
  | global => exact read_write hglobal

/-- A scope is loaded from what it wrote. -/
theorem loadScope_flushVariables {vars : Variables} (h : (s.flushVariables vars).2 = none)
    (t : Scope) : (s.flushVariables vars).1.loadScope t = (vars.scope t).reloaded := by
  have hdecoded : (s.flushVariables vars).1.decode? (.scope t) Persisted.read?
      = (vars.scope t).encode.mapM? Value.reread? := by
    rw [decode?, read_flushVariables h t]
    exact Persisted.read?_fileText (vars.scope t)
  rw [loadScope, scope?, hdecoded]
  rfl

end Storage

namespace Bot

variable {bot : Bot Shipped} {calls : List Pending}

/-- How writing the scope files fares when a bot persists. -/
def writeError (bot : Bot Shipped) : Option StoreError :=
  ((bot.storage.flushUsers bot.users).1.flushVariables bot.vars).2

theorem loadScope_persist (h : bot.writeError = none) (s : Scope) :
    bot.persist.storage.loadScope s = (bot.vars.scope s).reloaded :=
  Storage.loadScope_flushVariables h s

/-- Which variables a restart keeps. Wherever messages and events lead a bot
with the shipped mods, once it persisted and both scope files were written, a
scope is loaded as it was written exactly if every value of it lasts, and is
loaded empty if one of them cannot be read. Where the finite numbers are read
back as themselves, it is overflow that decides. -/
theorem restart (hbot : Reached bot calls) (hwritten : bot.writeError = none) (s : Scope) :
    let held := (bot.persist.vars.scope s).encode
    let loaded := bot.persist.storage.loadScope s
    held = (bot.vars.scope s).encode ∧
    (loaded.encode = held ↔ ∀ v ∈ held.values, v.Durable) ∧
    ((∃ v ∈ held.values, v.reread? = none) → loaded = .empty) ∧
    ((∀ x, .number (.finite x) ∈ held.values → x.reread? = some (.finite x)) →
      held.nodes.length ≤ UInt64.size →
      (loaded.encode = held ↔ ∀ x, .number x ∈ held.values → ∃ y, x = .finite y)) := by
  have hscope : (bot.vars.scope s).WellFormed := by
    cases s with
    | server => exact hbot.wellFormed.1
    | global => exact hbot.wellFormed.2
  have hheld : (bot.persist.vars.scope s).encode = (bot.vars.scope s).encode := by
    rw [persist, Variables.scope_compact]
    exact Graph.encode_compact hscope
  have hloaded := loadScope_persist hwritten s
  simp only [hheld, hloaded]
  refine ⟨trivial, Graph.encode_reloaded_iff hscope, ?_, Graph.encode_reloaded_iff_finite hscope⟩
  rintro ⟨v, hv, hlost⟩
  exact Graph.reloaded_eq_empty hv hlost

/-- Adds the greatest number to a variable of the server, twice, and one to a
global variable. -/
def surgeChain : Chain :=
  ⟨EventName.userJoinsServer, List.replicate 2
    ⟨some "increment-var",
      [("by", .number (.float ⟨false, Binary64.ranks - 1, Binary64.ranks_pred_lt⟩)),
        ("key", .string "i"), ("scope", .string "server")]⟩ ++
    [⟨some "increment-var", [("key", .string "n"), ("scope", .string "global")]⟩]⟩

/-- A bot without files that greeted its first member by adding up. -/
def surge : Bot Shipped :=
  ((pending (Dispatch.event (.memberJoined ⟨1, ⟨2, "ann", false⟩⟩))).alone
    (start ⟨.standard, .null, [], [surgeChain]⟩ .empty (fun _ _ _ => none) id)).state

theorem values_surge :
    (surge.vars.scope .server).encode.values = [.number (.infinite false)] ∧
      (surge.vars.scope .global).encode.values = [.number .one] := by
  decide +kernel

/-- Both files were written. The server's sum overflowed and its scope is loaded
empty; the global one is loaded as it was. -/
theorem restart_surge :
    Reached surge [] ∧ surge.writeError = none ∧
    surge.persist.storage.loadScope .server = .empty ∧
    (surge.persist.storage.loadScope .server).encode
      ≠ (surge.persist.vars.scope .server).encode ∧
    (surge.persist.storage.loadScope .global).encode
      = (surge.persist.vars.scope .global).encode := by
  have hbot : Reached surge [] :=
    ((Reached.start ⟨.standard, .null, [], [surgeChain]⟩ .empty (fun _ _ _ => none) id).event
      (.memberJoined ⟨1, ⟨2, "ann", false⟩⟩)).finish
  have hwritten : surge.writeError = none := by decide +kernel
  rcases restart hbot hwritten .server with ⟨hserver, hkept, hlost, -⟩
  rcases restart hbot hwritten .global with ⟨hglobal, -, -, hfinite⟩
  have hmem : .number (.infinite false) ∈ (surge.persist.vars.scope .server).encode.values := by
    rw [hserver, values_surge.1]
    exact List.mem_singleton_self _
  have hone : ∃ y, Binary64.one = .finite y ∧ y.reread? = some (.finite y) :=
    ⟨⟨false, 1023 * Binary64.binade, by decide⟩, by decide +kernel, by decide +kernel⟩
  rcases hone with ⟨y, hy, hread⟩
  refine ⟨hbot, hwritten, hlost ⟨_, hmem, rfl⟩, fun hsame => ?_, (hfinite ?_ ?_).2 ?_⟩
  · have hdurable : (Value.number (.infinite false)).reread? = some (.number (.infinite false)) :=
      hkept.1 hsame _ hmem
    cases hdurable
  · intro x hx
    rw [hglobal, values_surge.2, List.mem_singleton, hy] at hx
    cases hx
    exact hread
  · decide +kernel
  · intro x hx
    rw [hglobal, values_surge.2, List.mem_singleton, hy] at hx
    cases hx
    exact ⟨y, rfl⟩

end Bot

end ActionChain
