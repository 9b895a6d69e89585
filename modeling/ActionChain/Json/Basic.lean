import ActionChain.Dict
import ActionChain.Numeric.Binary64

/-!
# JSON Values

The free-form values that chains carry around: parameters, rules, data
attached to users, and what a variable looks like once its references are
followed.

An object lists its members. In a value that came from a text the members
are in ascending order and each key occurs once, which `Json.Ordered` states;
two ordered values are the same JSON value exactly when they are equal. The
list itself does not insist, because the same type also lays out records,
whose fields are written in the order the record declares them.

Integers and floating-point numbers are kept apart. `3` and `3.0` are
different numbers in a file and both survive a rewrite; they meet only where
a variable turns them into floating-point numbers.

## Main definitions

* `Number`: an integer of at most 64 bits, or a finite floating-point number.
* `Json`: a value.
* `Json.Ordered`: every object is in ascending order of its keys.
* `Json.mapNumbers`: the value with its numbers replaced.
* `Json.agrees`: equality of values whose zeros may differ in sign.
-/

namespace ActionChain

/-- The integers that stay integers in a JSON value: those of a signed or an
unsigned word of 64 bits. -/
def Number.InRange (i : Int) : Prop := -9223372036854775808 ≤ i ∧ i < 18446744073709551616

instance (i : Int) : Decidable (Number.InRange i) := inferInstanceAs (Decidable (_ ∧ _))

theorem Number.inRange_zero : Number.InRange 0 := by decide

theorem Number.inRange_one : Number.InRange 1 := by decide

/-- A number of a JSON value. -/
inductive Number where
  | int (i : Int) (inRange : Number.InRange i)
  | float (x : Binary64.Finite)
  deriving DecidableEq

namespace Number

/-- The nearest floating-point number. -/
def toBinary64 : Number → Binary64
  | .int i _ => Binary64.ofInt i
  | .float x => .finite x

/-- Whether two numbers are of one kind and have the same value. -/
def sameValue : Number → Number → Bool
  | .int i _, .int j _ => i == j
  | .float x, .float y => x.sameValue y
  | _, _ => false

end Number

/-- A JSON value. -/
inductive Json where
  | null
  | bool (b : Bool)
  | number (n : Number)
  | string (s : String)
  | array (items : List Json)
  | object (members : List (String × Json))

namespace Json

instance : Inhabited Json := ⟨.null⟩

mutual

/-- Every object inside lists its members in ascending order of their keys. -/
def Ordered : Json → Prop
  | .array items => OrderedItems items
  | .object members => Entries.Ascending members ∧ OrderedMembers members
  | _ => True

/-- Every item is ordered. -/
def OrderedItems : List Json → Prop
  | [] => True
  | item :: rest => Ordered item ∧ OrderedItems rest

/-- The value of every member is ordered. -/
def OrderedMembers : List (String × Json) → Prop
  | [] => True
  | (_, value) :: rest => Ordered value ∧ OrderedMembers rest

end

mutual

/-- The value with every number replaced by its image. -/
def mapNumbers (f : Number → Json) : Json → Json
  | .number n => f n
  | .array items => .array (mapItems f items)
  | .object members => .object (mapMembers f members)
  | other => other

/-- `mapNumbers` on every item. -/
def mapItems (f : Number → Json) : List Json → List Json
  | [] => []
  | item :: rest => mapNumbers f item :: mapItems f rest

/-- `mapNumbers` on the value of every member. -/
def mapMembers (f : Number → Json) : List (String × Json) → List (String × Json)
  | [] => []
  | (key, value) :: rest => (key, mapNumbers f value) :: mapMembers f rest

end

mutual

/-- Whether two values have the same shape, the same keys in the same order,
equal texts and numbers of the same value. -/
def agrees : Json → Json → Bool
  | .null, .null => true
  | .bool a, .bool b => a == b
  | .number m, .number n => m.sameValue n
  | .string s, .string t => s == t
  | .array xs, .array ys => agreesItems xs ys
  | .object xs, .object ys => agreesMembers xs ys
  | _, _ => false

/-- `agrees` item by item. -/
def agreesItems : List Json → List Json → Bool
  | [], [] => true
  | x :: xs, y :: ys => agrees x y && agreesItems xs ys
  | _, _ => false

/-- `agrees` member by member. -/
def agreesMembers : List (String × Json) → List (String × Json) → Bool
  | [], [] => true
  | (k, x) :: xs, (l, y) :: ys => k == l && agrees x y && agreesMembers xs ys
  | _, _ => false

end

theorem orderedMembers_iff {members : List (String × Json)} :
    OrderedMembers members ↔ ∀ e ∈ members, e.2.Ordered := by
  induction members with
  | nil => simp [OrderedMembers]
  | cons head rest ih => simp [OrderedMembers, ih]

/-- The members of an object, and none for any other value. -/
def members : Json → List (String × Json)
  | .object members => members
  | _ => []

theorem ascending_iff_keys {κ α : Type} [LT κ] {entries : List (κ × α)} :
    Entries.Ascending entries ↔ (entries.map Prod.fst).Pairwise (· < ·) := by
  simp [Entries.Ascending, List.pairwise_map]

end Json

end ActionChain
