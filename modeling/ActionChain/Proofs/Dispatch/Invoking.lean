import ActionChain.Dispatch.Command
import ActionChain.Proofs.Template.Reading
import ActionChain.Proofs.Text.Trimming
import Mathlib.Data.List.Basic

/-!
# What a Message Invokes

The words of an invocation, said without saying how they are found.

Behind the marker the blanks of every kind are taken away at both ends. What is
left is cut at spaces and at nothing else: the words are its longest stretches
without a space, in order, and a tab between two letters belongs to a word like
any other character. There is one such list of words (`Invocation.runs_iff`).

An invocation can be written down again, its words with one space or more
between each two. The text starts and ends with a word, and words of an
invocation neither start nor end it with a blank, so trimming takes nothing away
and the same words are found. A template in which all arguments stand writes
them with single spaces, which is one such text.

## Main definitions

* `Invocation.IsWord`, `Invocation.Runs`: the words of a text.
* `Invocation.words`: the words an invocation consists of.
* `Invocation.Spaced`: words with spaces between them.

## Theorems

* `Invocation.runs_iff`: cutting at spaces finds the only list of words.
* `Invocation.parse?_append_eq_some_iff`: what is invoked behind a marker.
* `Invocation.parse?_spaced`: words written down are invoked.
* `Invocation.parse?_exact`: which invocation a message holds, and how it is
  written down again.
-/

namespace ActionChain.Invocation

/-! ## Words -/

/-- Nothing but spaces. -/
def IsGap (gap : List Char) : Prop := ∀ c ∈ gap, c = ' '

/-- At least one character and no space. -/
def IsWord (word : List Char) : Prop := word ≠ [] ∧ ' ' ∉ word

/-- The longest stretches of a text without a space, in order. Where one ends,
the text ends or a space follows. -/
inductive Runs : List Char → List (List Char) → Prop where
  | gap {gap : List Char} (hgap : IsGap gap) : Runs gap []
  | word {gap word rest : List Char} {runs : List (List Char)} (hgap : IsGap gap)
      (hword : IsWord word) (hends : ∀ c ∈ rest.head?, c = ' ') (h : Runs rest runs) :
      Runs (gap ++ (word ++ rest)) (word :: runs)

theorem isGap_nil : IsGap [] := nofun

theorem IsGap.append {gap gap' : List Char} (h : IsGap gap) (h' : IsGap gap') :
    IsGap (gap ++ gap') :=
  fun c hc => (List.mem_append.1 hc).elim (h c) (h' c)

theorem isGap_replicate (n : Nat) : IsGap (List.replicate n ' ') :=
  fun _ hc => (List.mem_replicate.1 hc).2

/-- Spaces in front make no difference. -/
theorem Runs.gap_append {gap cs : List Char} {runs : List (List Char)} (hgap : IsGap gap)
    (h : Runs cs runs) : Runs (gap ++ cs) runs := by
  cases h with
  | gap hgap' => exact .gap (hgap.append hgap')
  | word hgap' hword hends h =>
      rw [← List.append_assoc]
      exact .word (hgap.append hgap') hword hends h

theorem Runs.isGap {cs : List Char} (h : Runs cs []) : IsGap cs := by
  cases h
  assumption

theorem Runs.isWord {cs : List Char} {runs : List (List Char)} (h : Runs cs runs) :
    ∀ word ∈ runs, IsWord word := by
  induction h with
  | gap _ => nofun
  | word _ hword _ _ ih =>
      intro word hmem
      rcases List.mem_cons.1 hmem with rfl | hrest
      · exact hword
      · exact ih word hrest

/-! ### Cutting at spaces -/

theorem pieces_of_not_mem {cs : List Char} (h : ' ' ∉ cs) : pieces cs = [cs] := by
  induction cs with
  | nil => rfl
  | cons c cs ih =>
      have hc : c ≠ ' ' := fun hc => h (hc ▸ List.mem_cons_self)
      rw [pieces, if_neg hc, ih fun hmem => h (List.mem_cons_of_mem _ hmem)]

theorem pieces_append_space {word : List Char} (h : ' ' ∉ word) (rest : List Char) :
    pieces (word ++ ' ' :: rest) = word :: pieces rest := by
  induction word with
  | nil => rw [List.nil_append, pieces, if_pos rfl]
  | cons c word ih =>
      have hc : c ≠ ' ' := fun hc => h (hc ▸ List.mem_cons_self)
      rw [List.cons_append, pieces, if_neg hc, ih fun hmem => h (List.mem_cons_of_mem _ hmem)]

theorem words_gap {gap : List Char} (hgap : IsGap gap) : words gap = [] := by
  induction gap with
  | nil => rfl
  | cons c gap ih =>
      rw [hgap c List.mem_cons_self]
      exact ih fun d hd => hgap d (List.mem_cons_of_mem _ hd)

theorem words_gap_append {gap : List Char} (hgap : IsGap gap) (cs : List Char) :
    words (gap ++ cs) = words cs := by
  induction gap with
  | nil => rfl
  | cons c gap ih =>
      rw [hgap c List.mem_cons_self]
      exact ih fun d hd => hgap d (List.mem_cons_of_mem _ hd)

theorem words_word_append {word rest : List Char} (hword : IsWord word)
    (hends : ∀ c ∈ rest.head?, c = ' ') : words (word ++ rest) = word :: words rest := by
  cases rest with
  | nil => simp [words, pieces_of_not_mem hword.2, pieces, hword.1]
  | cons c rest =>
      obtain rfl : c = ' ' := hends c rfl
      have hpieces : pieces (' ' :: rest) = [] :: pieces rest := rfl
      simp [words, pieces_append_space hword.2, hpieces, hword.1]

theorem words_of_runs {cs : List Char} {runs : List (List Char)} (h : Runs cs runs) :
    words cs = runs := by
  induction h with
  | gap hgap => exact words_gap hgap
  | word hgap hword hends _ ih =>
      rw [words_gap_append hgap, words_word_append hword hends, ih]

/-- Words are found one after the other, each from where the one before it ends. -/
theorem exists_runs (cs : List Char) : ∃ runs, Runs cs runs := by
  rcases Text.exists_append_dropWhile (· == ' ') cs with ⟨gap, hcs, hgap, hhead⟩
  have hgap' : IsGap gap := fun c hc => by simpa using hgap c hc
  rw [hcs]
  cases hbody : cs.dropWhile (· == ' ') with
  | nil => exact ⟨[], .gap (by simpa using hgap')⟩
  | cons c body =>
      rw [hbody] at hhead
      have hc : c ≠ ' ' := by simpa using hhead c rfl
      -- The first word ends at the next space, and the rest is shorter.
      rcases Text.exists_append_dropWhile (· != ' ') body with ⟨word, hrest, hword, hends⟩
      have hlt : (body.dropWhile (· != ' ')).length < cs.length := by
        have hbodyle := List.length_dropWhile_le (· == ' ') cs
        have hrestle := List.length_dropWhile_le (· != ' ') body
        rw [hbody, List.length_cons] at hbodyle
        omega
      rcases exists_runs (body.dropWhile (· != ' ')) with ⟨runs, hruns⟩
      have hisWord : IsWord (c :: word) := by
        refine ⟨List.cons_ne_nil _ _, fun hmem => ?_⟩
        rcases List.mem_cons.1 hmem with heq | hmem
        · exact hc heq.symm
        · simpa using hword _ hmem
      refine ⟨(c :: word) :: runs, ?_⟩
      rw [hrest, ← List.cons_append]
      exact .word hgap' hisWord (fun d hd => by simpa using hends d hd) hruns
termination_by cs.length

/-- Cutting at spaces finds the only list of words. -/
theorem runs_iff {cs : List Char} {runs : List (List Char)} : Runs cs runs ↔ words cs = runs := by
  refine ⟨words_of_runs, ?_⟩
  rintro rfl
  rcases exists_runs cs with ⟨runs, hruns⟩
  rwa [words_of_runs hruns]

/-! ## What is invoked -/

/-- The words an invocation consists of, the name first. -/
def toWords (i : Invocation) : List (List Char) := i.name.toList :: i.args.map String.toList

/-- An invocation without words, or the one that consists of the words of a
text. -/
def Says (inner : List Char) (i : Invocation) : Prop :=
  (inner = [] ∧ i = ⟨"", []⟩) ∨ (inner ≠ [] ∧ Runs inner i.toWords)

theorem toWords_ofWords_cons (word : List Char) (more : List (List Char)) :
    (ofWords (word :: more)).toWords = word :: more := by
  simp [ofWords, toWords, Function.comp_def]

theorem ofWords_toWords (i : Invocation) : ofWords i.toWords = i := by
  simp [ofWords, toWords, Function.comp_def]

theorem behind?_eq_some_iff {marker cs rest : List Char} :
    behind? marker cs = some rest ↔ cs = marker ++ rest := by
  induction marker generalizing cs with
  | nil => simp [behind?]
  | cons m marker ih =>
      cases cs with
      | nil => simp [behind?]
      | cons c cs =>
          by_cases h : m = c
          · simp [behind?, h, ih]
          · simp [behind?, h, Ne.symm h]

/-- Behind a marker stands what is invoked. -/
theorem parse?_append (marker rest : String) :
    parse? marker (marker ++ rest) = some (ofWords (words (Text.trimBlanks rest.toList))) := by
  rw [parse?, behind?_eq_some_iff.2 String.toList_append, Option.map_some]

theorem parse?_eq_none_iff {marker content : String} :
    parse? marker content = none ↔ ¬ ∃ rest, content = marker ++ rest := by
  constructor
  · rintro h ⟨rest, rfl⟩
    rw [parse?_append] at h
    cases h
  · intro h
    rw [parse?, Option.map_eq_none_iff, Option.eq_none_iff_forall_ne_some]
    intro rest hrest
    refine h ⟨String.ofList rest, String.ext ?_⟩
    rw [behind?_eq_some_iff.1 hrest, String.toList_append, String.toList_ofList]

theorem exists_of_parse? {marker content : String} {i : Invocation}
    (h : parse? marker content = some i) : ∃ rest, content = marker ++ rest := by
  by_contra hnone
  rw [parse?_eq_none_iff.2 hnone] at h
  cases h

theorem isBlank_space : Text.isBlank ' ' = true := rfl

/-- A text that does not start with a blank is empty or has a word. -/
theorem says_ofWords {inner : List Char} (hhead : ∀ c ∈ inner.head?, ¬ Text.isBlank c) :
    Says inner (ofWords (words inner)) := by
  have hruns : Runs inner (words inner) := runs_iff.2 rfl
  cases inner with
  | nil => exact .inl ⟨rfl, rfl⟩
  | cons c inner =>
      refine .inr ⟨List.cons_ne_nil _ _, ?_⟩
      cases hwords : words (c :: inner) with
      | nil =>
          have hc : c = ' ' := (hwords ▸ hruns).isGap c List.mem_cons_self
          exact absurd (hc ▸ isBlank_space) (hhead c rfl)
      | cons word more =>
          rw [toWords_ofWords_cons, ← hwords]
          exact hruns

theorem eq_ofWords_of_says {inner : List Char} {i : Invocation} (h : Says inner i) :
    i = ofWords (words inner) := by
  rcases h with ⟨rfl, rfl⟩ | ⟨-, hruns⟩
  · rfl
  · rw [words_of_runs hruns, ofWords_toWords]

/-- What is invoked behind a marker are the words of the rest without the blanks at its
ends. -/
theorem parse?_append_eq_some_iff {marker rest : String} {i : Invocation} :
    parse? marker (marker ++ rest) = some i ↔
      ∃ inner, Text.Trims rest.toList inner ∧ Says inner i := by
  rw [parse?_append, Option.some.injEq]
  constructor
  · rintro rfl
    have htrims := Text.trims_trimBlanks rest.toList
    exact ⟨_, htrims, says_ofWords htrims.head⟩
  · rintro ⟨inner, htrims, hsays⟩
    rw [Text.trims_iff.1 htrims, eq_ofWords_of_says hsays]

/-! ## Writing an invocation down -/

/-- Words with one space or more between each two. -/
inductive Spaced : List (List Char) → List Char → Prop where
  | last (word : List Char) : Spaced [word] word
  | cons (word : List Char) (n : Nat) {more : List (List Char)} {text : List Char}
      (h : Spaced more text) : Spaced (word :: more) (word ++ (List.replicate (n + 1) ' ' ++ text))

theorem Spaced.runs {words : List (List Char)} {text : List Char} (h : Spaced words text)
    (hwords : ∀ word ∈ words, IsWord word) : Runs text words := by
  induction h with
  | last word =>
      have hword := hwords word List.mem_cons_self
      have hends : ∀ c ∈ ([] : List Char).head?, c = ' ' := nofun
      simpa using Runs.word isGap_nil hword hends (.gap isGap_nil)
  | cons word n h ih =>
      have hword := hwords word List.mem_cons_self
      have hmore := ih fun word' hmem => hwords word' (List.mem_cons_of_mem _ hmem)
      refine Runs.word isGap_nil hword ?_ (hmore.gap_append (isGap_replicate _))
      simp [List.replicate_succ]

/-- Words that an invocation can consist of: no blank at either end would be trimmed. -/
structure Spellable (words : List (List Char)) : Prop where
  isWord : ∀ word ∈ words, IsWord word
  first : ∀ word ∈ words.head?, ∀ c ∈ word.head?, ¬ Text.isBlank c
  last : ∀ word ∈ words.getLast?, ∀ c ∈ word.getLast?, ¬ Text.isBlank c

theorem Spaced.mem_head? {words : List (List Char)} {text : List Char} (h : Spaced words text)
    (hwords : ∀ word ∈ words, IsWord word) {c : Char} (hc : c ∈ text.head?) :
    ∃ word ∈ words.head?, c ∈ word.head? := by
  cases h with
  | last => exact ⟨text, rfl, hc⟩
  | cons word n h =>
      rw [List.head?_append_of_ne_nil _ (hwords word List.mem_cons_self).1] at hc
      exact ⟨word, rfl, hc⟩

theorem Spaced.ne_nil {words : List (List Char)} {text : List Char} (h : Spaced words text)
    (hwords : ∀ word ∈ words, IsWord word) : text ≠ [] := by
  cases h with
  | last => exact (hwords text List.mem_cons_self).1
  | cons word n h => simp [(hwords word List.mem_cons_self).1]

theorem Spaced.mem_getLast? {words : List (List Char)} {text : List Char} (h : Spaced words text)
    (hwords : ∀ word ∈ words, IsWord word) {c : Char} (hc : c ∈ text.getLast?) :
    ∃ word ∈ words.getLast?, c ∈ word.getLast? := by
  induction h with
  | last word => exact ⟨word, rfl, hc⟩
  | @cons word n more text h ih =>
      have hmore : ∀ word' ∈ more, IsWord word' := fun word' hmem =>
        hwords word' (List.mem_cons_of_mem _ hmem)
      have htext := h.ne_nil hmore
      rw [List.getLast?_append_of_ne_nil _ (by simp [htext]),
        List.getLast?_append_of_ne_nil _ htext] at hc
      rcases ih hmore hc with ⟨last, hlast, hcl⟩
      have hne : more ≠ [] := by
        rintro rfl
        cases hlast
      rw [List.getLast?_cons_of_ne_nil hne]
      exact ⟨last, hlast, hcl⟩

/-- Words written down with spaces between them, and with blanks of any kind around, are
invoked behind a marker. -/
theorem parse?_spaced (marker : String) {i : Invocation} {text : List Char}
    (left right : List Char) (hspaced : Spaced i.toWords text) (hspellable : Spellable i.toWords)
    (hleft : ∀ c ∈ left, Text.isBlank c) (hright : ∀ c ∈ right, Text.isBlank c) :
    parse? marker (marker ++ String.ofList (left ++ text ++ right)) = some i := by
  rw [parse?_append_eq_some_iff, String.toList_ofList]
  refine ⟨text, ⟨⟨left, right, rfl, hleft, hright⟩, fun c hc => ?_, fun c hc => ?_⟩,
    .inr ⟨hspaced.ne_nil hspellable.isWord, hspaced.runs hspellable.isWord⟩⟩
  · rcases hspaced.mem_head? hspellable.isWord hc with ⟨word, hword, hcw⟩
    exact hspellable.first word hword c hcw
  · rcases hspaced.mem_getLast? hspellable.isWord hc with ⟨word, hword, hcw⟩
    exact hspellable.last word hword c hcw

/-! ### Invocations that were found -/

theorem Runs.mem_head? {cs : List Char} {runs : List (List Char)} (h : Runs cs runs)
    (hcs : ∀ c ∈ cs.head?, c ≠ ' ') {word : List Char} (hword : word ∈ runs.head?) {c : Char}
    (hc : c ∈ word.head?) : c ∈ cs.head? := by
  cases h with
  | gap => cases hword
  | @word gap first rest runs hgap hfirst _ h =>
      cases hword
      cases gap with
      | nil => rwa [List.nil_append, List.head?_append_of_ne_nil _ hfirst.1]
      | cons d gap => exact absurd (hgap d List.mem_cons_self) (hcs d rfl)

/-- Behind the last word there are only spaces, so a text that ends otherwise ends with it. -/
theorem Runs.mem_getLast? {cs : List Char} {runs : List (List Char)} (h : Runs cs runs)
    (hcs : ∀ c ∈ cs.getLast?, c ≠ ' ') {word : List Char} (hword : word ∈ runs.getLast?)
    {c : Char} (hc : c ∈ word.getLast?) : c ∈ cs.getLast? := by
  induction h with
  | gap => cases hword
  | @word gap first rest runs hgap hfirst hends h ih =>
      by_cases hrest : rest = []
      · subst hrest
        have hruns : runs = [] := (words_of_runs h).symm
        subst hruns
        cases hword
        rwa [List.append_nil, List.getLast?_append_of_ne_nil _ hfirst.1]
      · have hlast : (gap ++ (first ++ rest)).getLast? = rest.getLast? := by
          rw [List.getLast?_append_of_ne_nil _ (by simp [hrest]),
            List.getLast?_append_of_ne_nil _ hrest]
        rw [hlast] at hcs ⊢
        refine ih hcs ?_
        rwa [List.getLast?_cons_of_ne_nil] at hword
        -- A rest without words would end with a space.
        rintro rfl
        have hspace := h.isGap _ (List.getLast_mem hrest)
        exact hcs _ (List.getLast?_eq_some_getLast hrest) hspace

theorem spellable_of_says {inner : List Char} {i : Invocation}
    (hhead : ∀ c ∈ inner.head?, ¬ Text.isBlank c) (hlast : ∀ c ∈ inner.getLast?, ¬ Text.isBlank c)
    (hruns : Runs inner i.toWords) : Spellable i.toWords := by
  have hspace {c : Char} (hc : ¬ Text.isBlank c) : c ≠ ' ' := by
    rintro rfl
    exact hc isBlank_space
  exact ⟨hruns.isWord,
    fun _ hword c hc => hhead c (hruns.mem_head? (fun d hd => hspace (hhead d hd)) hword hc),
    fun _ hword c hc => hlast c (hruns.mem_getLast? (fun d hd => hspace (hlast d hd)) hword hc)⟩

theorem spaced_intercalate (word : List Char) (more : List (List Char)) :
    Spaced (word :: more) ([' '].intercalate (word :: more)) := by
  induction more generalizing word with
  | nil => simpa using Spaced.last word
  | cons word' more ih =>
      rw [List.intercalate_cons_cons, List.append_assoc]
      exact .cons word 0 (ih word')

/-- A template that is all arguments writes them with single spaces between them. -/
theorem render_args (subject : Subject) (args : List String) (vars : Variables) :
    Template.render "$args" subject args vars = String.intercalate " " args := by
  have hsplit : Template.split "$args".toList = [.placeholder .args] :=
    Template.reads_iff.1 (.cons (show (Template.Piece.placeholder .args).Fits [] from nofun) .nil)
  rw [Template.render, hsplit, List.flatMap_singleton, Template.Piece.value, String.ofList_toList,
    Template.Placeholder.value]

/-- An invocation that was found is found again in its words with single spaces between
them, also when there are no words at all. -/
theorem parse?_normal {marker content : String} {i : Invocation}
    (h : parse? marker content = some i) :
    parse? marker (marker ++ (i.name ++ " " ++ String.intercalate " " i.args)) = some i := by
  rcases exists_of_parse? h with ⟨rest, rfl⟩
  rcases parse?_append_eq_some_iff.1 h with ⟨inner, htrims, ⟨rfl, rfl⟩ | ⟨-, hruns⟩⟩
  · -- Without words only the space is left, and it is trimmed.
    rw [parse?_append]
    decide
  · have hspellable := spellable_of_says htrims.head htrims.last hruns
    rcases i with ⟨name, args⟩
    cases args with
    | nil =>
        -- The space behind the name is trimmed.
        have htext : name ++ " " ++ String.intercalate " " [] =
            String.ofList ([] ++ name.toList ++ [' ']) := String.ext (by simp)
        rw [htext]
        exact parse?_spaced marker [] [' '] (.last name.toList) hspellable nofun
          (by simp [isBlank_space])
    | cons arg args =>
        have hspaced := spaced_intercalate name.toList ((arg :: args).map String.toList)
        have htext : name ++ " " ++ String.intercalate " " (arg :: args) =
            String.ofList ([] ++ [' '].intercalate (toWords ⟨name, arg :: args⟩) ++ []) :=
          String.ext (by simp [toWords, String.toList_intercalate, List.intercalate_cons_cons])
        rw [htext]
        exact parse?_spaced marker [] [] hspaced hspellable nofun nofun

/-- A message holds no invocation exactly if it does not start with the marker. Otherwise
its words are the longest stretches without a space in what is left behind the marker
without the blanks at both ends, and there is none exactly if nothing is left. What was
found is found again in its name, a space and all arguments as a template writes them; and
any words that can be those of an invocation are found wherever they stand behind the
marker with spaces between them. -/
theorem parse?_exact (marker : String) :
    (∀ content, parse? marker content = none ↔ ¬ ∃ rest, content = marker ++ rest) ∧
    (∀ rest i, parse? marker (marker ++ rest) = some i ↔
      ∃ inner, Text.Trims rest.toList inner ∧
        ((inner = [] ∧ i = ⟨"", []⟩) ∨ (inner ≠ [] ∧ Runs inner i.toWords))) ∧
    (∀ content i subject vars, parse? marker content = some i →
      parse? marker (marker ++ (i.name ++ " " ++ Template.render "$args" subject i.args vars)) =
        some i) ∧
    ∀ i text, Spaced i.toWords text → Spellable i.toWords →
      parse? marker (marker ++ String.ofList text) = some i := by
  refine ⟨fun content => parse?_eq_none_iff, fun rest i => parse?_append_eq_some_iff,
    fun content i subject vars h => ?_, fun i text hspaced hspellable => ?_⟩
  · rw [render_args]
    exact parse?_normal h
  · simpa using parse?_spaced marker [] [] hspaced hspellable nofun nofun

/-- A name with a tab in it and an argument with a no-break space in it, the one followed by
three spaces. -/
def tabbed : Invocation := ⟨"ban\t@user", ["a\u00a0b", "c"]⟩

/-- The marker ends with a space; the tab behind it and the ideographic space at the end are
trimmed. -/
theorem parse?_exact_tabbed :
    parse? "! " "! \t ban\t@user   a\u00a0b c\u3000" = some tabbed ∧
    Spaced tabbed.toWords "ban\t@user   a\u00a0b c".toList ∧ Spellable tabbed.toWords ∧
    parse? "! " ("! " ++ (tabbed.name ++ " " ++
      Template.render "$args" (.guild ⟨1, "home"⟩) tabbed.args .empty)) = some tabbed ∧
    parse? "! " ("! " ++ String.ofList "ban\t@user   a\u00a0b c".toList) = some tabbed := by
  have hparse : parse? "! " "! \t ban\t@user   a\u00a0b c\u3000" = some tabbed := by decide
  have hspaced : Spaced tabbed.toWords "ban\t@user   a\u00a0b c".toList :=
    .cons _ 2 (.cons _ 0 (.last _))
  have hspellable : Spellable tabbed.toWords := by
    constructor
    case isWord => unfold IsWord; decide
    case first => rintro _ ⟨⟩ _ ⟨⟩; decide
    case last => rintro _ ⟨⟩ _ ⟨⟩; decide
  rcases parse?_exact "! " with ⟨-, -, hnormal, hspelled⟩
  exact ⟨hparse, hspaced, hspellable, hnormal _ _ _ _ hparse, hspelled _ _ hspaced hspellable⟩

end ActionChain.Invocation
