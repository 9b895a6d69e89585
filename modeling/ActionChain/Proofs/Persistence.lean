import ActionChain.Proofs.Garbage
import ActionChain.Proofs.Restart
import ActionChain.Proofs.Variables.Table

/-!
# Files That Fail Alone

What a bot leaves behind when it persists and any of its three writes fails.

A write looks at three things: the folder of its file, the place of its file, and
the mishap that is in store for it. It changes the place of its own file and
nothing else, whether it fails or not. So the writes of different files do not
matter to each other, and each of the three files is left as if it were the only
one to be written (`Bot.place_persist`). That also decides which error is
reported: the two scope files are attempted in any case, and what is made of their
failures can be read off a table of four lines.

Afterwards the scopes are compacted. That was no part of writing them, so it
happens when every write failed as well, and it changes neither what would be
written nor what is shown.

## Main definitions

* `Storage.SameFor`: two data directories look the same to a write of a file.
* `Bot.fileText?`: the text that a bot writes into a file.

## Theorems

* `Storage.exists_attempt_eq_put`: a write changes the place of its own file.
* `Storage.SameFor.attempt`: and depends on nothing that other writes change.
* `Bot.place_persist`: each file is left as if it were written alone.
* `Bot.persist_isolates`: what holds of the files, the error and the state.
-/

namespace ActionChain

namespace Storage

variable {s s' : Storage} {f f' : DataFile} {text : String}

/-- Two data directories look the same to a write of a file. -/
structure SameFor (f : DataFile) (s s' : Storage) : Prop where
  place : s'.place f = s.place f
  blocked : s'.blocked = s.blocked
  mishap : s'.mishap = s.mishap

theorem put_place_self (s : Storage) (f : DataFile) : s.put f (s.place f) = s := by
  have hplace : (fun f' => if f' = f then s.place f else s.place f') = s.place := by
    funext f'
    by_cases h : f' = f
    · rw [if_pos h, h]
    · rw [if_neg h]
  rw [put, hplace]

/-- Whether it fails or not, a write changes the place of its own file at most. -/
theorem exists_attempt_eq_put (s : Storage) (f : DataFile) (text : String) :
    ∃ p, (s.attempt f text).1 = s.put f p := by
  unfold attempt
  cases hwrite : s.write f text with
  | error e =>
      -- Nothing was made, so what stood there stands there still.
      exact ⟨s.place f, (put_place_self s f).symm⟩
  | ok s' =>
      dsimp only
      split
      · exact ⟨_, rfl⟩
      · exact ⟨_, (eq_put_of_write hwrite).2⟩

/-- Another file's write finds everything as it was. -/
theorem sameFor_attempt (s : Storage) (text : String) (h : f ≠ f') :
    SameFor f s (s.attempt f' text).1 := by
  rcases exists_attempt_eq_put s f' text with ⟨p, hput⟩
  rw [hput]
  exact ⟨if_neg h, rfl, rfl⟩

/-- A write of a file fares the same in data directories that look the same to it. -/
theorem SameFor.attempt (h : SameFor f s s') (text : String) :
    (s'.attempt f text).2 = (s.attempt f text).2 ∧
      (s'.attempt f text).1.place f = (s.attempt f text).1.place f := by
  unfold Storage.attempt write
  rw [h.blocked, h.mishap, h.place]
  -- A folder in the way, a file that is no file, and each kind of mishap.
  by_cases hblocked : s.blocked f.folder = true
  · simp [hblocked, h.place]
  · by_cases hfolder : s.place f = .folder
    · simp [hblocked, hfolder, h.place]
    · cases s.mishap f with
      | none => simp [hblocked, hfolder, put]
      | some m => cases m <;> simp [hblocked, hfolder, put, h.place]

/-- A write that succeeds leaves the text to be read. -/
theorem read_attempt (h : (s.attempt f text).2 = none) :
    (s.attempt f text).1.read f = .ok (Symbols.ofString text) :=
  read_write (attempt_eq_none h)

/-- What is read of a file depends on what a write of it depends on. -/
theorem read_eq (hplace : s'.place f = s.place f) (hblocked : s'.blocked = s.blocked) :
    s'.read f = s.read f := by
  unfold read
  rw [hplace, hblocked]

theorem blocked_attempt (s : Storage) (f : DataFile) (text : String) :
    (s.attempt f text).1.blocked = s.blocked := by
  rcases exists_attempt_eq_put s f text with ⟨p, hput⟩
  rw [hput]
  rfl

theorem place_attempt_of_ne (s : Storage) (text : String) (h : f ≠ f') :
    (s.attempt f' text).1.place f = s.place f :=
  (sameFor_attempt s text h).place

/-- Both scope files are attempted, whatever happens to the first. -/
theorem place_flushVariables (s : Storage) (vars : Variables) (f : DataFile) :
    (s.flushVariables vars).1.place f =
      match f with
      | .scope t => (s.attempt (.scope t) (vars.scope t).fileText).1.place (.scope t)
      | _ => s.place f := by
  have hglobal {f : DataFile} (hf : f ≠ .scope .global) :
      (s.flushVariables vars).1.place f =
        (s.attempt (.scope .server) vars.server.fileText).1.place f :=
    place_attempt_of_ne _ _ hf
  cases f with
  | scope t =>
      cases t with
      | server => exact hglobal (by decide)
      | global =>
          -- The last write finds its own file as it was at first.
          have hsame := sameFor_attempt s vars.server.fileText
            (show DataFile.scope .global ≠ .scope .server by decide)
          exact (hsame.attempt vars.global.fileText).2
  | settings | rules | commands | events | users =>
      exact (hglobal (by decide)).trans (place_attempt_of_ne _ _ (by decide))

/-- The error of both scope files, from how each fares by itself: none, the only one, or
that there were two and the one of the server. -/
theorem error_flushVariables (s : Storage) (vars : Variables) :
    (s.flushVariables vars).2 =
      match (s.attempt (.scope .server) vars.server.fileText).2,
        (s.attempt (.scope .global) vars.global.fileText).2 with
      | none, none => none
      | some e, none => some e
      | none, some e => some e
      | some e, some _ => some (.several 2 e) := by
  have hsame := sameFor_attempt s vars.server.fileText
    (show DataFile.scope .global ≠ .scope .server by decide)
  have hglobal := (hsame.attempt vars.global.fileText).1
  unfold flushVariables
  dsimp only
  rw [hglobal]
  cases (s.attempt (.scope .server) vars.server.fileText).2 <;>
    cases (s.attempt (.scope .global) vars.global.fileText).2 <;> rfl

theorem blocked_flushVariables (s : Storage) (vars : Variables) :
    (s.flushVariables vars).1.blocked = s.blocked :=
  (blocked_attempt _ _ _).trans (blocked_attempt _ _ _)

end Storage

namespace Bot

variable {β : Type} {bot : Bot β}

/-- The text that a bot writes into a file when it persists, if it writes it at all. -/
def fileText? (bot : Bot β) : DataFile → Option String
  | .users => some bot.users.written.toPrettyText
  | .scope s => some (bot.vars.scope s).encode.written.toPrettyText
  | .settings | .rules | .commands | .events => none

/-- Each file is left as if it were the only one to be written. -/
theorem place_persist (bot : Bot β) (f : DataFile) :
    bot.persist.storage.place f =
      match bot.fileText? f with
      | some text => (bot.storage.attempt f text).1.place f
      | none => bot.storage.place f := by
  have hflush := Storage.place_flushVariables (bot.storage.flushUsers bot.users).1 bot.vars f
  have hplace : bot.persist.storage.place f =
      ((bot.storage.flushUsers bot.users).1.flushVariables bot.vars).1.place f := rfl
  rw [hplace, hflush]
  cases f with
  | users => rfl
  | scope s =>
      have hsame := Storage.sameFor_attempt bot.storage bot.users.written.toPrettyText
        (show DataFile.scope s ≠ .users from nofun)
      exact (hsame.attempt _).2
  | settings | rules | commands | events =>
      exact Storage.place_attempt_of_ne _ _ (by decide)

theorem blocked_persist (bot : Bot β) : bot.persist.storage.blocked = bot.storage.blocked :=
  (Storage.blocked_flushVariables _ _).trans (Storage.blocked_attempt _ _ _)

/-- How writing the scopes fares does not depend on how writing the user cache fared. -/
theorem error_persist (bot : Bot β) :
    ((bot.storage.flushUsers bot.users).1.flushVariables bot.vars).2 =
      (bot.storage.flushVariables bot.vars).2 := by
  have herror (s : Scope) :
      ((bot.storage.flushUsers bot.users).1.attempt (.scope s) (bot.vars.scope s).fileText).2 =
        (bot.storage.attempt (.scope s) (bot.vars.scope s).fileText).2 :=
    ((Storage.sameFor_attempt bot.storage _ (show DataFile.scope s ≠ .users from nofun)).attempt
      _).1
  have hserver := herror .server
  have hglobal := herror .global
  simp only [Variables.scope] at hserver hglobal
  rw [Storage.error_flushVariables, Storage.error_flushVariables, hserver, hglobal]

theorem encode_persist (hvars : bot.vars.WellFormed) (s : Scope) :
    (bot.persist.vars.scope s).encode = (bot.vars.scope s).encode := by
  rw [persist, Variables.scope_compact]
  exact Graph.encode_compact (Variables.wellFormed_iff.1 hvars s)

/-- What a bot writes is the same after it persisted. -/
theorem fileText?_persist (hvars : bot.vars.WellFormed) (f : DataFile) :
    bot.persist.fileText? f = bot.fileText? f := by
  cases f with
  | scope s => rw [fileText?, fileText?, encode_persist hvars]
  | settings | rules | commands | events | users => rfl

/-- A file whose write succeeds holds what the bot then has in mind, whatever happens to the
other files. -/
theorem read_persist (hvars : bot.vars.WellFormed) {f : DataFile} {text : String}
    (htext : bot.persist.fileText? f = some text)
    (hwritten : (bot.storage.attempt f text).2 = none) :
    bot.persist.storage.read f = .ok (Symbols.ofString text) := by
  -- What the bot has in mind now is what it wrote, as compaction does not show.
  rw [fileText?_persist hvars] at htext
  have hplace := bot.place_persist f
  rw [htext] at hplace
  have hblocked := bot.blocked_persist.trans (Storage.blocked_attempt bot.storage f text).symm
  rw [Storage.read_eq hplace hblocked, Storage.read_attempt hwritten]

/-- Persisting keeps failures apart. Whatever the three writes come to, each file is left as
if it were the only one to be written; one whose write succeeds holds the text of what the
bot has in mind then, and no other file changes. Of the scope files there is no error
exactly if both were written, the one there is if one failed, and two with the server's first
if both failed, whatever became of the user file. The user cache stays as it is, a scope is
written the same as before, and nothing is left in it that no root reaches. -/
theorem persist_isolates (hvars : bot.vars.WellFormed) :
    (∀ f, bot.persist.storage.place f =
      match bot.fileText? f with
      | some text => (bot.storage.attempt f text).1.place f
      | none => bot.storage.place f) ∧
    (∀ f text, bot.persist.fileText? f = some text → (bot.storage.attempt f text).2 = none →
      bot.persist.storage.read f = .ok (Symbols.ofString text)) ∧
    ((bot.storage.flushUsers bot.users).1.flushVariables bot.vars).2 =
      (match (bot.storage.attempt (.scope .server) bot.vars.server.fileText).2,
        (bot.storage.attempt (.scope .global) bot.vars.global.fileText).2 with
      | none, none => none
      | some e, none => some e
      | none, some e => some e
      | some e, some _ => some (.several 2 e)) ∧
    bot.persist.users = bot.users ∧
    ∀ s, (bot.persist.vars.scope s).encode = (bot.vars.scope s).encode ∧
      ∀ id, (bot.persist.vars.scope s).Reaches id ↔
        id < (bot.persist.vars.scope s).nodeCount := by
  refine ⟨bot.place_persist, fun f text => read_persist hvars, ?_, rfl,
    fun s => ⟨encode_persist hvars s, fun _ => reaches_persist_iff hvars s⟩⟩
  rw [error_persist, Storage.error_flushVariables]

/-- A bot with garbage whose device breaks off in the user file, and where a folder stands in
the place of the server's file. -/
def unlucky : Bot Shipped :=
  { hoarder with
    storage :=
      { Storage.empty.put (.scope .server) .folder with
        mishap := fun f =>
          if f = .users then some (.brokenOff 1 "No space left on device (os error 28)")
          else none } }

/-- The global file is written all the same, and the garbage is gone. -/
theorem persist_isolates_unlucky :
    unlucky.vars.WellFormed ∧
    unlucky.persist.storage.place .users = .file [some '\x7b'] ∧
    unlucky.persist.storage.place (.scope .server) = .folder ∧
    (∃ text, unlucky.persist.fileText? (.scope .global) = some text ∧
      (unlucky.storage.attempt (.scope .global) text).2 = none ∧
      unlucky.persist.storage.read (.scope .global) = .ok (Symbols.ofString text)) ∧
    ((unlucky.storage.flushUsers unlucky.users).1.flushVariables unlucky.vars).2 =
      some (.io .isAFolder) ∧
    (unlucky.vars.scope .server).nodeCount = 4 ∧
    ∀ id, (unlucky.persist.vars.scope .server).Reaches id ↔
      id < (unlucky.persist.vars.scope .server).nodeCount := by
  have hhoarder : Reached hoarder [] :=
    ((Reached.start ⟨.standard, .null, [], [hoardChain]⟩ .empty (fun _ _ _ => none) id).event
      (.memberJoined ⟨1, ⟨2, "ann", false⟩⟩)).finish
  have hvars : unlucky.vars.WellFormed := hhoarder.wellFormed
  have hwritten : (unlucky.storage.attempt (.scope .global)
      (unlucky.persist.vars.scope .global).encode.written.toPrettyText).2 = none := by
    decide +kernel
  rcases persist_isolates hvars with ⟨hplace, hread, herror, -, hscopes⟩
  refine ⟨hvars, ?_, ?_, ?_, ?_, ?_, (hscopes .server).2⟩
  · rw [hplace]
    decide +kernel
  · rw [hplace]
    decide +kernel
  · exact ⟨_, rfl, hwritten, hread _ _ rfl hwritten⟩
  · rw [herror]
    decide +kernel
  · decide +kernel

end Bot

end ActionChain
