import Mathlib.Data.Finset.Dedup
import Mathlib.Data.Finset.Lattice.Lemmas
import ActionChain.Permission
import ActionChain.Proofs.Text.Lowering

/-!
# Who May Run a Command

What the answer to a request for permission depends on.

A command that names roles is open to whoever holds one of them, and names are
compared in lower case. So the answer is a question about two sets of lower-case
names, whether they meet, and nothing else about the lists they come from can matter:
not their order, not how often a name occurs, not its capitals. Only a command that
names nobody does not fit, because it is open to everyone; it is the reason why naming
one more role opens a command further only if it names one already.

## Main definitions

* `Text.lowered`: the set of names in lower case.

## Theorems

* `authorize_iff_exists`, `authorize_iff_meet`: the answer, name by name and as sets.
* `Text.lowered_map_lowercase`: a list and its copy in lower case have the same names.
* `authorize_meets`: all of this about one command and somebody's roles.
-/

namespace ActionChain

/-- The set of names in lower case. -/
def Text.lowered (names : List String) : Finset String := (names.map lowercase).toFinset

namespace Text

variable {names names' : List String}

theorem mem_lowered {s : String} : s ∈ lowered names ↔ ∃ name ∈ names, lowercase name = s := by
  simp [lowered]

theorem lowered_eq_empty_iff : lowered names = ∅ ↔ names = [] := by
  simp [lowered]

theorem lowered_mono (h : names ⊆ names') : lowered names ⊆ lowered names' := by
  intro s hs
  rcases mem_lowered.1 hs with ⟨name, hname, rfl⟩
  exact mem_lowered.2 ⟨name, h hname, rfl⟩

/-- A list and its copy in lower case have the same names. -/
@[simp] theorem lowered_map_lowercase (names : List String) :
    lowered (names.map lowercase) = lowered names := by
  simp [lowered, Function.comp_def]

end Text

open Text (lowercase lowered)

variable {c c' : Command} {roles roles' : List String}

theorem authorize_iff_exists : authorize c roles = true ↔
    c.perms = [] ∨ ∃ role ∈ roles, ∃ perm ∈ c.perms, lowercase role = lowercase perm := by
  simp only [authorize, Bool.or_eq_true, List.isEmpty_iff, List.any_eq_true, beq_iff_eq]
  refine or_congr_right (exists_congr fun role => and_congr_right fun _ => ?_)
  exact exists_congr fun perm => and_congr_right fun _ => eq_comm

/-- Someone is allowed if the command names nobody, or if the two sets of names meet. -/
theorem authorize_iff_meet : authorize c roles = true ↔
    lowered c.perms = ∅ ∨ (lowered roles ∩ lowered c.perms).Nonempty := by
  rw [authorize_iff_exists, Text.lowered_eq_empty_iff]
  refine or_congr_right ⟨?_, ?_⟩
  · rintro ⟨role, hrole, perm, hperm, heq⟩
    exact ⟨lowercase role, Finset.mem_inter.2
      ⟨Text.mem_lowered.2 ⟨role, hrole, rfl⟩, Text.mem_lowered.2 ⟨perm, hperm, heq.symm⟩⟩⟩
  · rintro ⟨s, hs⟩
    rcases Finset.mem_inter.1 hs with ⟨hheld, hnamed⟩
    rcases Text.mem_lowered.1 hheld with ⟨role, hrole, hrole'⟩
    rcases Text.mem_lowered.1 hnamed with ⟨perm, hperm, hperm'⟩
    exact ⟨role, hrole, perm, hperm, hrole'.trans hperm'.symm⟩

theorem authorize_congr (hperms : lowered c.perms = lowered c'.perms)
    (hroles : lowered roles = lowered roles') : authorize c roles = authorize c' roles' := by
  rw [Bool.eq_iff_iff, authorize_iff_meet, authorize_iff_meet, hperms, hroles]

/-- The more roles somebody holds, the more commands are open. -/
theorem authorize_of_subset_roles (h : roles ⊆ roles') (hallowed : authorize c roles = true) :
    authorize c roles' = true := by
  refine authorize_iff_meet.2 ((authorize_iff_meet.1 hallowed).imp_right fun hmeet => ?_)
  exact hmeet.mono (Finset.inter_subset_inter_right (Text.lowered_mono h))

/-- The more roles a command names, the more people it is open to, once it names one. -/
theorem authorize_of_subset_perms (hnamed : c.perms ≠ []) (h : c.perms ⊆ c'.perms)
    (hallowed : authorize c roles = true) : authorize c' roles = true := by
  rcases authorize_iff_meet.1 hallowed with hempty | hmeet
  · exact absurd (Text.lowered_eq_empty_iff.1 hempty) hnamed
  · exact authorize_iff_meet.2
      (.inr (hmeet.mono (Finset.inter_subset_inter_left (Text.lowered_mono h))))

/-- A command is open to somebody exactly if it names no role or one of the roles in
lower case is one of the named ones in lower case. So the answer depends on two sets of
lower-case names only; copies of the lists in lower case give the same answer; it stays
positive with more roles, and with more named roles if some were named before. -/
theorem authorize_meets (c : Command) (roles : List String) :
    (authorize c roles = true ↔
      c.perms = [] ∨ ∃ role ∈ roles, ∃ perm ∈ c.perms, lowercase role = lowercase perm) ∧
    (authorize c roles = true ↔
      lowered c.perms = ∅ ∨ (lowered roles ∩ lowered c.perms).Nonempty) ∧
    (∀ c' roles', lowered c.perms = lowered c'.perms → lowered roles = lowered roles' →
      authorize c roles = authorize c' roles') ∧
    (authorize c (roles.map lowercase) = authorize c roles ∧
      authorize { c with perms := c.perms.map lowercase } roles = authorize c roles) ∧
    (∀ roles', roles ⊆ roles' → authorize c roles = true → authorize c roles' = true) ∧
    ∀ perms', c.perms ≠ [] → c.perms ⊆ perms' → authorize c roles = true →
      authorize { c with perms := perms' } roles = true := by
  refine ⟨authorize_iff_exists, authorize_iff_meet, fun c' roles' => authorize_congr,
    ⟨authorize_congr rfl ?_, authorize_congr ?_ rfl⟩, fun roles' => authorize_of_subset_roles,
    fun perms' hnamed hsub => authorize_of_subset_perms hnamed hsub⟩
  · exact Text.lowered_map_lowercase roles
  · exact Text.lowered_map_lowercase c.perms

/-- A command for the roles of two places, one spelled with a dotted capital I and one
with a capital sigma at its end. -/
def ferry : Command := ⟨⟨"ferry", []⟩, ["İSTANBUL", "ΝΑΞΟΣ"]⟩

/-- The sigma at the end of a role becomes a final one, in capitals and in a copy in
lower case alike; a role of another place and one more name do no harm. -/
theorem authorize_meets_ferry :
    authorize ferry ["guest", "Ναξος"] = true ∧
    authorize ferry (["guest", "Ναξος"].map lowercase) = true ∧
    authorize ferry ["captain", "Ναξος", "guest"] = true ∧
    authorize { ferry with perms := "captain" :: ferry.perms } ["guest", "Ναξος"] = true := by
  rcases authorize_meets ferry ["guest", "Ναξος"] with
    ⟨hexists, -, -, ⟨hlowered, -⟩, hroles, hperms⟩
  have hallowed : authorize ferry ["guest", "Ναξος"] = true :=
    hexists.2 (.inr ⟨"Ναξος", by decide, "ΝΑΞΟΣ", by decide, by decide +kernel⟩)
  exact ⟨hallowed, hlowered.trans hallowed, hroles _ (by decide) hallowed,
    hperms _ (by decide) (List.subset_cons_self _ _) hallowed⟩

end ActionChain
