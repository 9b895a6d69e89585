import ActionChain.Variables.Numbering
import Mathlib.Data.List.Forall2
import Mathlib.Logic.Relation

/-!
# Matching Graphs

Two graphs that differ only in where their nodes lie. Chains never see a
position of the arena, only what stands there, so two such graphs should be
the same to everybody. What "such" means is said by a relation between the
positions of the two arenas.

The relation is a partner relation rather than a function: every node has at
most one partner on either side, and partners hold values that match in turn.
Nothing is asked of a node without a partner, which is how garbage is
ignored. Because the condition is local, one node and its partner at a time,
a relation is extended by a fresh pair without looking at the rest, and a
circle in the graph needs no special care.

## Main definitions

* `Entries.Matches`: entries under the same keys with related values.
* `Value.Matches`, `Node.Matches`: equal up to the partners of references.
* `Arena.Matches`, `Graph.Matches`: a partner relation between two graphs.

## Theorems

* `Graph.Matches.symm`, `Graph.Matches.trans`: partners can be swapped and
  composed.
* `Entries.Matches.insert`, `Entries.Matches.ofList`: writing under the same
  key on both sides.
* `Arena.Matches.push`: adding a node and its partner.
-/

namespace ActionChain

variable {κ α β γ : Type}

/-- Entries under the same keys, in the same order, with related values. -/
def Entries.Matches (R : α → β → Prop) (es : List (κ × α)) (fs : List (κ × β)) : Prop :=
  List.Forall₂ (fun e f => e.1 = f.1 ∧ R e.2 f.2) es fs

/-- Values that are equal, or refer to partners. -/
inductive Value.Matches (ρ : Nat → Nat → Prop) : Value → Value → Prop where
  | null : Matches ρ .null .null
  | bool (b : Bool) : Matches ρ (.bool b) (.bool b)
  | number (x : Binary64) : Matches ρ (.number x) (.number x)
  | text (s : String) : Matches ρ (.text s) (.text s)
  | ref {a b : Nat} (h : ρ a b) : Matches ρ (.ref a) (.ref b)

/-- Nodes of one kind that hold matching values under the same keys or at the
same positions. -/
inductive Node.Matches (ρ : Nat → Nat → Prop) : Node → Node → Prop where
  | object {fields fields' : Dict String Value}
      (h : Entries.Matches (Value.Matches ρ) fields.entries fields'.entries) :
      Matches ρ (.object fields) (.object fields')
  | list {items items' : List Value} (h : List.Forall₂ (Value.Matches ρ) items items') :
      Matches ρ (.list items) (.list items')

/-- A partner relation between two arenas: partners are unique on either side,
exist, and match. -/
structure Arena.Matches (ρ : Nat → Nat → Prop) (ns ms : Array Node) : Prop where
  unique : Relator.BiUnique ρ
  nodes : ∀ a b, ρ a b → ∃ n m, ns[a]? = some n ∧ ms[b]? = some m ∧ n.Matches ρ m

/-- A partner relation between two graphs: the roots match as well. -/
structure Graph.Matches (ρ : Nat → Nat → Prop) (g h : Graph) : Prop where
  arena : Arena.Matches ρ g.nodes h.nodes
  roots : Entries.Matches (Value.Matches ρ) g.roots.entries h.roots.entries

/-! ## Related answers -/

theorem exists_of_rel_some {R : α → β → Prop} {a : α} {o : Option β}
    (h : Option.Rel R (some a) o) : ∃ b, o = some b ∧ R a b := by
  cases h with
  | some hab => exact ⟨_, rfl, hab⟩

theorem eq_none_of_rel_none {R : α → β → Prop} {o : Option β} (h : Option.Rel R none o) :
    o = none := by
  cases h
  rfl

theorem map_eq_of_rel {R : α → β → Prop} {x : Option α} {y : Option β} {f : α → γ} {f' : β → γ}
    (h : Option.Rel R x y) (hf : ∀ a b, R a b → f a = f' b) : x.map f = y.map f' := by
  cases h with
  | none => rfl
  | some hab => exact congrArg some (hf _ _ hab)

/-! ## Entries -/

namespace Entries.Matches

variable {R S : α → β → Prop} {T : β → γ → Prop} {es : List (κ × α)} {fs : List (κ × β)}

theorem mono (h : Entries.Matches R es fs) (hRS : ∀ a b, R a b → S a b) :
    Entries.Matches S es fs :=
  List.Forall₂.imp (fun _ _ he => ⟨he.1, hRS _ _ he.2⟩) h

theorem symm {R' : β → α → Prop} (h : Entries.Matches R es fs) (hR : ∀ a b, R a b → R' b a) :
    Entries.Matches R' fs es :=
  List.Forall₂.flip (List.Forall₂.imp (fun _ _ he => ⟨he.1.symm, hR _ _ he.2⟩) h)

theorem trans {U : α → γ → Prop} {hs : List (κ × γ)} (h : Entries.Matches R es fs)
    (h' : Entries.Matches T fs hs) (hU : ∀ a b c, R a b → T b c → U a c) :
    Entries.Matches U es hs := by
  induction h generalizing hs with
  | nil =>
      cases h'
      exact .nil
  | cons he _ ih =>
      cases h' with
      | cons hf hrest =>
          exact .cons ⟨he.1.trans hf.1, hU _ _ _ he.2 hf.2⟩ (ih hrest)

/-- The values of matching entries are related, in order. -/
theorem values (h : Entries.Matches R es fs) :
    List.Forall₂ R (es.map Prod.snd) (fs.map Prod.snd) := by
  rw [List.forall₂_map_left_iff, List.forall₂_map_right_iff]
  exact List.Forall₂.imp (fun _ _ he => he.2) h

/-- A look-up finds related values on both sides, or nothing on either. -/
theorem find? [DecidableEq κ] (h : Entries.Matches R es fs) (key : κ) :
    Option.Rel R (Entries.find? key es) (Entries.find? key fs) := by
  induction h with
  | nil => exact .none
  | @cons e f _ _ he _ ih =>
      rcases e with ⟨k, v⟩
      rcases f with ⟨k', w⟩
      have hk : k = k' := he.1
      subst hk
      simp only [Entries.find?]
      by_cases hkey : key = k
      · rw [if_pos hkey, if_pos hkey]
        exact .some he.2
      · rw [if_neg hkey, if_neg hkey]
        exact ih

section Insert

variable [DecidableEq κ] [LT κ] [DecidableLT κ]

/-- Binding a key to related values keeps the entries matching: the keys decide
the place, and they are the same. -/
theorem insert (h : Entries.Matches R es fs) (key : κ) {v : α} {w : β} (hvw : R v w) :
    Entries.Matches R (Entries.insert key v es) (Entries.insert key w fs) := by
  induction h with
  | nil => exact .cons ⟨rfl, hvw⟩ .nil
  | @cons e f _ _ he hrest ih =>
      rcases e with ⟨k, v'⟩
      rcases f with ⟨k', w'⟩
      have hk : k = k' := he.1
      subst hk
      simp only [Entries.insert]
      -- The keys choose the branch, so both sides take the same one.
      by_cases hkey : key = k
      · rw [if_pos hkey, if_pos hkey]
        exact .cons ⟨rfl, hvw⟩ hrest
      · rw [if_neg hkey, if_neg hkey]
        by_cases hlt : key < k
        · rw [if_pos hlt, if_pos hlt]
          exact .cons ⟨rfl, hvw⟩ (.cons he hrest)
        · rw [if_neg hlt, if_neg hlt]
          exact .cons he ih

theorem ofList (h : Entries.Matches R es fs) :
    Entries.Matches R (Entries.ofList es) (Entries.ofList fs) := by
  -- Both lists are inserted one by one, into matching entries so far.
  suffices hacc : ∀ (acc : List (κ × α)) (acc' : List (κ × β)), Entries.Matches R acc acc' →
      Entries.Matches R (es.foldl (fun acc e => Entries.insert e.1 e.2 acc) acc)
        (fs.foldl (fun acc e => Entries.insert e.1 e.2 acc) acc') from
    hacc [] [] .nil
  induction h with
  | nil =>
      intro acc acc' hacc
      exact hacc
  | @cons e f _ _ he _ ih =>
      intro acc acc' hacc
      rw [List.foldl_cons, List.foldl_cons]
      refine ih _ _ ?_
      rw [← he.1]
      exact hacc.insert e.1 he.2

end Insert

end Entries.Matches

/-! ## Values and nodes -/

namespace Value.Matches

variable {ρ σ : Nat → Nat → Prop} {v w x : Value}

theorem mono (h : v.Matches ρ w) (hρσ : ∀ a b, ρ a b → σ a b) : v.Matches σ w := by
  cases h with
  | null => exact .null
  | bool b => exact .bool b
  | number x => exact .number x
  | text s => exact .text s
  | ref h => exact .ref (hρσ _ _ h)

theorem symm (h : v.Matches ρ w) : w.Matches (flip ρ) v := by
  cases h with
  | null => exact .null
  | bool b => exact .bool b
  | number x => exact .number x
  | text s => exact .text s
  | ref h => exact .ref h

theorem trans (h : v.Matches ρ w) (h' : w.Matches σ x) : v.Matches (Relation.Comp ρ σ) x := by
  cases h with
  | null => cases h'; exact .null
  | bool b => cases h'; exact .bool b
  | number x => cases h'; exact .number x
  | text s => cases h'; exact .text s
  | ref h =>
      cases h' with
      | ref h' => exact .ref ⟨_, h, h'⟩

end Value.Matches

namespace Node.Matches

variable {ρ σ : Nat → Nat → Prop} {n m o : Node}

theorem mono (h : n.Matches ρ m) (hρσ : ∀ a b, ρ a b → σ a b) : n.Matches σ m := by
  cases h with
  | object h => exact .object (h.mono fun _ _ hv => hv.mono hρσ)
  | list h => exact .list (h.imp fun _ _ hv => hv.mono hρσ)

theorem symm (h : n.Matches ρ m) : m.Matches (flip ρ) n := by
  cases h with
  | object h => exact .object (h.symm fun _ _ hv => hv.symm)
  | list h => exact .list (List.Forall₂.flip (h.imp fun _ _ hv => hv.symm))

theorem trans (h : n.Matches ρ m) (h' : m.Matches σ o) : n.Matches (Relation.Comp ρ σ) o := by
  cases h with
  | object h =>
      cases h' with
      | object h' => exact .object (h.trans h' fun _ _ _ hv hw => hv.trans hw)
  | @list items items' h =>
      cases h' with
      | @list _ items'' h' =>
          refine .list ?_
          -- The middle list is the same, and the items are followed through it one by one.
          induction h generalizing items'' with
          | nil =>
              cases h'
              exact .nil
          | cons hv _ ih =>
              cases h' with
              | cons hw hrest => exact .cons (hv.trans hw) (ih hrest)

/-- Matching nodes hold matching values in the same order. -/
theorem children (h : n.Matches ρ m) : List.Forall₂ (Value.Matches ρ) n.children m.children := by
  cases h with
  | object h => exact h.values
  | list h => exact h

end Node.Matches

/-! ## Arenas and graphs -/

namespace Arena.Matches

variable {ρ σ : Nat → Nat → Prop} {ns ms os : Array Node}

theorem lt_left (h : Arena.Matches ρ ns ms) {a b : Nat} (hab : ρ a b) : a < ns.size := by
  rcases h.nodes a b hab with ⟨n, _, hn, _, _⟩
  exact (Array.getElem?_eq_some_iff.1 hn).1

theorem symm (h : Arena.Matches ρ ns ms) : Arena.Matches (flip ρ) ms ns := by
  refine ⟨⟨fun a b c hab hcb => h.unique.2 hab hcb, fun a b c hab hac => h.unique.1 hab hac⟩, ?_⟩
  intro b a hab
  rcases h.nodes a b hab with ⟨n, m, hn, hm, hnm⟩
  exact ⟨m, n, hm, hn, hnm.symm⟩

theorem lt_right (h : Arena.Matches ρ ns ms) {a b : Nat} (hab : ρ a b) : b < ms.size :=
  h.symm.lt_left hab

theorem trans (h : Arena.Matches ρ ns ms) (h' : Arena.Matches σ ms os) :
    Arena.Matches (Relation.Comp ρ σ) ns os := by
  refine ⟨⟨?_, ?_⟩, ?_⟩
  · intro a a' c hac hac'
    rcases hac with ⟨b, hab, hbc⟩
    rcases hac' with ⟨b', hab', hbc'⟩
    have hb : b = b' := h'.unique.1 hbc hbc'
    subst hb
    exact h.unique.1 hab hab'
  · intro a c c' hac hac'
    rcases hac with ⟨b, hab, hbc⟩
    rcases hac' with ⟨b', hab', hbc'⟩
    have hb : b = b' := h.unique.2 hab hab'
    subst hb
    exact h'.unique.2 hbc hbc'
  · intro a c hac
    rcases hac with ⟨b, hab, hbc⟩
    rcases h.nodes a b hab with ⟨n, m, hn, hm, hnm⟩
    rcases h'.nodes b c hbc with ⟨m', o, hm', ho, hmo⟩
    rw [hm, Option.some.injEq] at hm'
    subst hm'
    exact ⟨n, o, hn, ho, hnm.trans hmo⟩

/-- A partner relation with one more pair, a new node at the end of either
arena. -/
def extended (ρ : Nat → Nat → Prop) (ns ms : Array Node) (a b : Nat) : Prop :=
  ρ a b ∨ (a = ns.size ∧ b = ms.size)

/-- Two matching nodes added at the ends become partners. No old node had a
partner there, so partners stay unique. -/
theorem push (h : Arena.Matches ρ ns ms) {n m : Node} (hnm : n.Matches ρ m) :
    Arena.Matches (extended ρ ns ms) (ns.push n) (ms.push m) := by
  have hweak : ∀ a b, ρ a b → extended ρ ns ms a b := fun _ _ hab => .inl hab
  -- An old pair lies inside the old arenas and shares neither end with the new one.
  refine ⟨⟨?_, ?_⟩, ?_⟩
  · intro a a' b hab hab'
    rcases hab with hab | ⟨ha, hb⟩
    · rcases hab' with hab' | ⟨_, hb'⟩
      · exact h.unique.1 hab hab'
      · have hlt := h.lt_right hab
        omega
    · rcases hab' with hab' | ⟨ha', _⟩
      · have hlt := h.lt_right hab'
        omega
      · omega
  · intro a b b' hab hab'
    rcases hab with hab | ⟨ha, hb⟩
    · rcases hab' with hab' | ⟨ha', _⟩
      · exact h.unique.2 hab hab'
      · have hlt := h.lt_left hab
        omega
    · rcases hab' with hab' | ⟨_, hb'⟩
      · have hlt := h.lt_left hab'
        omega
      · omega
  · intro a b hab
    -- Old partners still match, as nothing was taken from the relation.
    rcases hab with hab | ⟨ha, hb⟩
    · rcases h.nodes a b hab with ⟨n', m', hn', hm', hnm'⟩
      refine ⟨n', m', ?_, ?_, hnm'.mono hweak⟩
      · rw [Array.getElem?_push_lt (h.lt_left hab), ← Array.getElem?_eq_getElem]
        exact hn'
      · rw [Array.getElem?_push_lt (h.lt_right hab), ← Array.getElem?_eq_getElem]
        exact hm'
    · subst ha hb
      exact ⟨n, m, Array.getElem?_push_size, Array.getElem?_push_size, hnm.mono hweak⟩

end Arena.Matches

namespace Graph.Matches

variable {ρ σ : Nat → Nat → Prop} {g h k : Graph}

theorem symm (hgh : g.Matches ρ h) : h.Matches (flip ρ) g :=
  ⟨hgh.arena.symm, hgh.roots.symm fun _ _ hv => hv.symm⟩

theorem trans (hgh : g.Matches ρ h) (hhk : h.Matches σ k) : g.Matches (Relation.Comp ρ σ) k :=
  ⟨hgh.arena.trans hhk.arena, hgh.roots.trans hhk.roots fun _ _ _ hv hw => hv.trans hw⟩

/-- The same key leads to matching values, or to none on either side. -/
theorem get? (hgh : g.Matches ρ h) (key : String) :
    Option.Rel (Value.Matches ρ) (g.get? key) (h.get? key) :=
  hgh.roots.find? key

end Graph.Matches

end ActionChain
