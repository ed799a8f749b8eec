import Mathlib.Data.Option.Basic
/-!
# Three-valued logic

Truth values with an unknown (`none`), as SQL has them: an operand that decides alone decides whatever the other is.
A condition selects where it is true, not where it is unknown.

* `selects_and`, `selects_or` — selecting commutes with AND and OR.
-/

namespace ThreeValued

abbrev Truth := Option Bool

def and : Truth → Truth → Truth
  | some false, _ | _, some false => some false
  | some true, some true => some true
  | none, _ | _, none => none

def or : Truth → Truth → Truth
  | some true, _ | _, some true => some true
  | some false, some false => some false
  | none, _ | _, none => none

def selects (t : Truth) : Bool := t == some true

@[simp] theorem selects_some (b : Bool) : selects (some b) = b := by cases b <;> rfl

@[simp] theorem selects_none : selects none = false := rfl

theorem selects_and (a b : Truth) : selects (and a b) = (selects a && selects b) := by
  rcases a with _ | _ | _ <;> rcases b with _ | _ | _ <;> rfl

theorem selects_or (a b : Truth) : selects (or a b) = (selects a || selects b) := by
  rcases a with _ | _ | _ <;> rcases b with _ | _ | _ <;> rfl

end ThreeValued
