import Mathlib.Data.Rat.Defs
import HermesCluster.Lib.Decimal
/-!
# Values of Python

What a decoder of JSON, or any other function, can hand over to Python code, and
what the code can do with such a value without looking at its type.
-/

/-! ## Exceptions -/

namespace Except

variable {ε α β : Type} {x : Except ε α} {f : α → Except ε β}

theorem bind_eq_ok_iff {b : β} : x >>= f = .ok b ↔ ∃ a, x = .ok a ∧ f a = .ok b := by
  cases x with
  | ok a => exact ⟨fun h => ⟨a, rfl, h⟩, fun ⟨_, ha, h⟩ => by cases ha; exact h⟩
  | error error => exact ⟨fun h => (by cases h), fun ⟨_, ha, _⟩ => (by cases ha)⟩

theorem isOk_bind {a : α} (h : x = .ok a) : (x >>= f).isOk = (f a).isOk := by
  rw [h]
  rfl

theorem isOk_iff : x.isOk = true ↔ ∃ a, x = .ok a := by
  cases x with
  | ok a => exact iff_of_true rfl ⟨a, rfl⟩
  | error error => exact iff_of_false Bool.false_ne_true (fun ⟨_, h⟩ => by cases h)

end Except

/-! ## Values -/

/-- A float. `int` tells the infinities, of either sign, from what is no number. -/
inductive PyFloat where
  | finite (q : Rat)
  | inf
  | nan
  deriving DecidableEq

/-- `int(q)`: towards zero. -/
def PyFloat.truncate (q : Rat) : Int :=
  q.num.tdiv q.den

/-- A value; `object` stands for one that no operation is defined on. -/
inductive PyValue where
  | none
  | bool (b : Bool)
  | int (n : Int)
  | float (x : PyFloat)
  | str (s : String)
  | list (items : List PyValue)
  | dict (fields : List (String × PyValue))
  | object

/-- Exceptions of the operations on values. -/
inductive PyError where
  | typeError | valueError | overflowError | attributeError
  deriving DecidableEq

/-- `str(v)` of a value that is not a text. -/
class PyStr where
  str : PyValue → String

namespace PyValue

/-- `bool(v)`. -/
def truthy : PyValue → Bool
  | .none => false
  | .bool b => b
  | .int n => n ≠ 0
  | .float x => x ≠ .finite 0
  | .str s => s ≠ ""
  | .list items => !items.isEmpty
  | .dict fields => !fields.isEmpty
  | .object => true

/-- `str(v)`. -/
def text [PyStr] : PyValue → String
  | .str s => s
  | v => PyStr.str v

/-- `int(v)`. -/
def toInt [Unicode] : PyValue → Except PyError Int
  | .bool b => .ok (if b then 1 else 0)
  | .int n => .ok n
  | .float (.finite q) => .ok (PyFloat.truncate q)
  | .float .inf => .error .overflowError
  | .float .nan => .error .valueError
  | .str s =>
      match Decimal.int s with
      | some n => .ok n
      | Option.none => .error .valueError
  | _ => .error .typeError

/-- The value, unless it is `None`. -/
def given : PyValue → Option PyValue
  | .none => Option.none
  | v => some v

end PyValue
