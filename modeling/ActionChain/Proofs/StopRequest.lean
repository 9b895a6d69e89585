import ActionChain.Control
import ActionChain.Proofs.Text.Octets

/-!
# The Request to Stop Among Other Lines

When a bot hears the request to stop.

A line may be text or not, and text may ask to stop or not. Text that does not
ask is passed over, whatever it says, so among lines that are all text the first
request is heard. A line that is no text is not passed over: reading ends with
it, and what stands behind it is not looked at, a request included
(`Control.request_heard`).

Reading is the same for every way in which it can end: lines that are passed
over, and then the one that ends it, if there is one (`Control.watch_eq_iff`).

## Main definitions

* `Control.Splits`: the lines of an input.
* `Control.IsText`, `Control.AsksToStop`: what a line can be.
* `Control.PassedOver`: text that does not ask to stop.
* `Control.Watched`: how reading lines ends.

## Theorems

* `Control.splits_iff`: an input has one list of lines.
* `Control.watch_eq_iff`: how reading ends, and what is left unread.
* `Control.request_heard`: which inputs stop a bot.
-/

namespace ActionChain.Control

variable {line bs : List UInt8} {ls rest front : List (List UInt8)}

/-! ## Lines -/

/-- An input consists of lines. Each ends with a line feed, but for the last one, which may
also end with the input if there is anything in it. -/
inductive Splits : List UInt8 → List (List UInt8) → Prop where
  | nil : Splits [] []
  | last {line : List UInt8} (hline : lineFeed ∉ line) (hne : line ≠ []) : Splits line [line]
  | line {line bs : List UInt8} {ls : List (List UInt8)} (hline : lineFeed ∉ line)
      (h : Splits bs ls) : Splits (line ++ lineFeed :: bs) (line :: ls)

/-- A line ends at the first line feed. -/
theorem lines_append (h : lineFeed ∉ line) (bs : List UInt8) :
    lines (line ++ lineFeed :: bs) = line :: lines bs := by
  induction line with
  | nil => rw [List.nil_append, lines, if_pos rfl]
  | cons b line ih =>
      have hb : b ≠ lineFeed := fun hb => h (hb ▸ List.mem_cons_self)
      rw [List.cons_append, lines, if_neg hb, ih fun hmem => h (List.mem_cons_of_mem _ hmem)]

/-- What follows the last line feed is a line, if it is anything. -/
theorem lines_of_not_mem (h : lineFeed ∉ line) : lines line = if line = [] then [] else [line] := by
  induction line with
  | nil => rfl
  | cons b line ih =>
      have hb : b ≠ lineFeed := fun hb => h (hb ▸ List.mem_cons_self)
      rw [lines, if_neg hb, ih fun hmem => h (List.mem_cons_of_mem _ hmem)]
      by_cases hline : line = [] <;> simp [hline]

theorem lines_of_splits (h : Splits bs ls) : lines bs = ls := by
  induction h with
  | nil => rfl
  | last hline hne => rw [lines_of_not_mem hline, if_neg hne]
  | line hline h ih => rw [lines_append hline, ih]

theorem splits_lines (bs : List UInt8) : Splits bs (lines bs) := by
  induction bs with
  | nil => exact .nil
  | cons b bs ih =>
      by_cases hb : b = lineFeed
      · rw [lines, if_pos hb, hb]
        exact .line List.not_mem_nil ih
      · rw [lines, if_neg hb]
        -- An octet joins the first of the lines behind it.
        have hcons {line : List UInt8} (hline : lineFeed ∉ line) : lineFeed ∉ b :: line := by
          rw [List.mem_cons, not_or]
          exact ⟨Ne.symm hb, hline⟩
        generalize lines bs = ls at ih ⊢
        cases ih with
        | nil => exact .last (hcons List.not_mem_nil) (List.cons_ne_nil _ _)
        | last hline hne => exact .last (hcons hline) (List.cons_ne_nil _ _)
        | line hline h => exact .line (hcons hline) h

/-- An input has one list of lines. -/
theorem splits_iff : Splits bs ls ↔ lines bs = ls :=
  ⟨lines_of_splits, fun h => h ▸ splits_lines bs⟩

/-! ## What a line can be -/

/-- A line is the UTF-8 form of a text. -/
def IsText (line : List UInt8) : Prop := ∃ text : String, text.toUTF8.data.toList = line

/-- A line is the form of a text which between its blanks is a message that asks to stop. -/
def AsksToStop (line : List UInt8) : Prop :=
  ∃ (text : String) (m : ControlMessage), text.toUTF8.data.toList = line ∧
    ControlMessage.parse? text = some m ∧ m.action = "STOP"

/-- A line is a text that is no message, or a message that asks for something else. -/
def PassedOver (line : List UInt8) : Prop := IsText line ∧ ¬ AsksToStop line

/-! ## Reading lines -/

theorem watch_requested (h : AsksToStop line) (rest : List (List UInt8)) :
    watch (line :: rest) = (.requested, rest) := by
  rcases h with ⟨text, m, htext, hm, hstop⟩
  have hisStop : m.isStop = true := beq_iff_eq.2 hstop
  rw [watch, Utf8.text?_decode_eq_some_iff.2 htext]
  dsimp only
  rw [hm]
  exact if_pos hisStop

theorem watch_unreadable (h : ¬ IsText line) (rest : List (List UInt8)) :
    watch (line :: rest) = (.unreadable, rest) := by
  cases htext : Symbols.text? (Utf8.decode line) with
  | none => rw [watch, htext]
  | some text => exact absurd ⟨text, Utf8.text?_decode_eq_some_iff.1 htext⟩ h

theorem watch_passedOver (h : PassedOver line) (rest : List (List UInt8)) :
    watch (line :: rest) = watch rest := by
  rcases h with ⟨⟨text, htext⟩, hasks⟩
  rw [watch, Utf8.text?_decode_eq_some_iff.2 htext]
  dsimp only
  cases hm : ControlMessage.parse? text with
  | none => rfl
  | some m =>
      -- It would ask to stop otherwise.
      have hisStop : m.isStop ≠ true := fun hstop => hasks ⟨text, m, htext, hm, beq_iff_eq.1 hstop⟩
      exact if_neg hisStop

/-- Lines that are passed over leave no trace. -/
theorem watch_append (h : ∀ l ∈ front, PassedOver l)
    (ls : List (List UInt8)) : watch (front ++ ls) = watch ls := by
  induction front with
  | nil => rfl
  | cons l front ih =>
      rw [List.cons_append, watch_passedOver (h l List.mem_cons_self)]
      exact ih fun l' hl' => h l' (List.mem_cons_of_mem _ hl')

/-- How reading lines ends, and with which lines unread. -/
def Watched (ls : List (List UInt8)) : Ending → List (List UInt8) → Prop
  | .requested, rest =>
    ∃ front line, ls = front ++ line :: rest ∧ AsksToStop line ∧ ∀ l ∈ front, PassedOver l
  | .unreadable, rest =>
    ∃ front line, ls = front ++ line :: rest ∧ ¬ IsText line ∧ ∀ l ∈ front, PassedOver l
  | .closed, rest => rest = [] ∧ ∀ l ∈ ls, PassedOver l

/-- The lines that are passed over come first. -/
theorem watched_watch (ls : List (List UInt8)) : Watched ls (watch ls).1 (watch ls).2 := by
  induction ls with
  | nil => exact ⟨rfl, nofun⟩
  | cons l ls ih =>
      by_cases htext : IsText l
      · by_cases hasks : AsksToStop l
        · rw [watch_requested hasks]
          exact ⟨[], l, rfl, hasks, nofun⟩
        · have hpassed : PassedOver l := ⟨htext, hasks⟩
          have hall {front : List (List UInt8)} (h : ∀ l' ∈ front, PassedOver l') :
              ∀ l' ∈ l :: front, PassedOver l' :=
            List.forall_mem_cons.2 ⟨hpassed, h⟩
          rw [watch_passedOver hpassed]
          -- One more line is passed over, however reading the others ends.
          revert ih
          rcases watch ls with ⟨ending, rest⟩
          cases ending with
          | requested =>
              rintro ⟨front, line, rfl, hline, hfront⟩
              exact ⟨l :: front, line, rfl, hline, hall hfront⟩
          | unreadable =>
              rintro ⟨front, line, rfl, hline, hfront⟩
              exact ⟨l :: front, line, rfl, hline, hall hfront⟩
          | closed =>
              rintro ⟨hrest, hfront⟩
              exact ⟨hrest, hall hfront⟩
      · rw [watch_unreadable htext]
        exact ⟨[], l, rfl, htext, nofun⟩

theorem watch_eq_of_watched {ending : Ending} (h : Watched ls ending rest) :
    watch ls = (ending, rest) := by
  cases ending with
  | requested =>
      rcases h with ⟨front, line, rfl, hline, hfront⟩
      rw [watch_append hfront, watch_requested hline]
  | unreadable =>
      rcases h with ⟨front, line, rfl, hline, hfront⟩
      rw [watch_append hfront, watch_unreadable hline]
  | closed =>
      rcases h with ⟨rfl, hfront⟩
      have hwatch := watch_append hfront []
      rwa [List.append_nil] at hwatch

/-- There is one way in which reading lines can end. -/
theorem watch_eq_iff {ending : Ending} : watch ls = (ending, rest) ↔ Watched ls ending rest := by
  refine ⟨fun h => ?_, watch_eq_of_watched⟩
  have hwatched := watched_watch ls
  rwa [h] at hwatched

/-- Behind text of any kind a request is heard, this one or one before it. -/
theorem watch_of_isText (hfront : ∀ l ∈ front, IsText l) (hline : AsksToStop line)
    (rest : List (List UInt8)) : (watch (front ++ line :: rest)).1 = .requested := by
  induction front with
  | nil => rw [List.nil_append, watch_requested hline]
  | cons l front ih =>
      rw [List.cons_append]
      by_cases hasks : AsksToStop l
      · rw [watch_requested hasks]
      · rw [watch_passedOver ⟨hfront l List.mem_cons_self, hasks⟩]
        exact ih fun l' hl' => hfront l' (List.mem_cons_of_mem _ hl')

/-- A line that is no text ends the reading, unless one of the lines before it does. -/
theorem watch_of_not_isText (hfront : ∀ l ∈ front, ¬ AsksToStop l) (hline : ¬ IsText line)
    (rest : List (List UInt8)) : (watch (front ++ line :: rest)).1 = .unreadable := by
  induction front with
  | nil => rw [List.nil_append, watch_unreadable hline]
  | cons l front ih =>
      rw [List.cons_append]
      by_cases htext : IsText l
      · rw [watch_passedOver ⟨htext, hfront l List.mem_cons_self⟩]
        exact ih fun l' hl' => hfront l' (List.mem_cons_of_mem _ hl')
      · rw [watch_unreadable htext]

theorem wait?_eq_hostRequest_iff (input : List UInt8) (interrupted : Bool) :
    wait? input interrupted = some .hostRequest ↔ (watch (lines input)).1 = .requested := by
  unfold wait?
  cases (watch (lines input)).1 <;> cases interrupted <;> simp

theorem wait?_eq_none (input : List UInt8) (h : (watch (lines input)).1 = .unreadable) :
    wait? input false = none := by
  unfold wait?
  rw [h]
  rfl

/-- Which inputs stop a bot that nobody interrupts. An input has one list of lines. The bot
stops exactly if a line asks for it and every line before it is text; then reading ends with
the first line that asks, and what is behind it stays unread. Among lines that are all text
it is enough that one of them asks, whatever the others say. Behind a line that is no text
nothing is heard: unless a line before it asked, the bot goes on for good. -/
theorem request_heard (input : List UInt8) :
    ∃ ls, Splits input ls ∧ (∀ others, Splits input others → others = ls) ∧
      (wait? input false = some .hostRequest ↔
        ∃ front line rest, ls = front ++ line :: rest ∧ AsksToStop line ∧
          ∀ l ∈ front, IsText l) ∧
      (∀ rest, watch (lines input) = (.requested, rest) ↔
        ∃ front line, ls = front ++ line :: rest ∧ AsksToStop line ∧
          ∀ l ∈ front, IsText l ∧ ¬ AsksToStop l) ∧
      ((∀ l ∈ ls, IsText l) →
        (wait? input false = some .hostRequest ↔ ∃ l ∈ ls, AsksToStop l)) ∧
      ∀ front line rest, ls = front ++ line :: rest → (∀ l ∈ front, ¬ AsksToStop l) →
        ¬ IsText line → wait? input false = none := by
  have hheard : wait? input false = some .hostRequest ↔
      ∃ front line rest, lines input = front ++ line :: rest ∧ AsksToStop line ∧
        ∀ l ∈ front, IsText l := by
    rw [wait?_eq_hostRequest_iff]
    constructor
    · intro h
      rcases hwatch : watch (lines input) with ⟨ending, rest⟩
      rw [hwatch] at h
      subst h
      rcases watch_eq_iff.1 hwatch with ⟨front, line, hls, hline, hfront⟩
      exact ⟨front, line, rest, hls, hline, fun l hl => (hfront l hl).1⟩
    · rintro ⟨front, line, rest, hls, hline, hfront⟩
      rw [hls]
      exact watch_of_isText hfront hline rest
  refine ⟨lines input, splits_lines input, fun others h => (splits_iff.1 h).symm, hheard,
    fun rest => watch_eq_iff, fun htext => ?_, fun front line rest hls hfront hline => ?_⟩
  · rw [hheard]
    constructor
    · rintro ⟨front, line, rest, hls, hline, -⟩
      exact ⟨line, by simp [hls], hline⟩
    · rintro ⟨line, hmem, hline⟩
      rcases List.append_of_mem hmem with ⟨front, rest, hls⟩
      exact ⟨front, line, rest, hls, hline, fun l hl => htext l (by simp [hls, hl])⟩
  · refine wait?_eq_none input ?_
    rw [hls]
    exact watch_of_not_isText hfront hline rest

/-- The octets of a line that asks to stop, with blanks at its ends. -/
def stopLine : List UInt8 := " \x7b\"action\":\"STOP\"\x7d\r".toUTF8.data.toList

/-- The request behind an octet that belongs to no character, and a line feed. -/
def unheard : List UInt8 := 0xFF :: lineFeed :: (stopLine ++ [lineFeed])

/-- One octet that is no text is enough: the request behind it is not heard. -/
theorem request_heard_unheard :
    Splits unheard [[0xFF], stopLine] ∧ AsksToStop stopLine ∧ ¬ IsText [0xFF] ∧
    wait? stopLine false = some .hostRequest ∧ wait? unheard false = none := by
  have hrequest : Splits (stopLine ++ [lineFeed]) [stopLine] := .line (by decide) .nil
  have hsplits : Splits unheard [[0xFF], stopLine] :=
    .line (show lineFeed ∉ ([0xFF] : List UInt8) by decide) hrequest
  have hstop : AsksToStop stopLine :=
    ⟨" \x7b\"action\":\"STOP\"\x7d\r", ⟨"STOP"⟩, rfl, by decide +kernel, rfl⟩
  have hoctet : ¬ IsText [0xFF] := by
    rintro ⟨text, htext⟩
    have hnone : Symbols.text? (Utf8.decode [0xFF]) = none := by decide +kernel
    rw [Utf8.text?_decode_eq_some_iff.2 htext] at hnone
    cases hnone
  rcases request_heard stopLine with ⟨ls, hls, -, hheard, -⟩
  rcases request_heard unheard with ⟨others, -, hunique, -, -, -, hdeaf⟩
  refine ⟨hsplits, hstop, hoctet, ?_, ?_⟩
  · have hone : ls = [stopLine] := (splits_iff.1 hls).symm.trans (lines_of_not_mem (by decide))
    exact hheard.2 ⟨[], stopLine, [], hone, hstop, nofun⟩
  · exact hdeaf [] [0xFF] [stopLine] (hunique _ hsplits).symm nofun hoctet

end ActionChain.Control
