import Mathlib.Tactic.Common

/-!
# SQL Truth Values

The three-valued logic a PostgreSQL trigger or `CHECK` constraint computes
with. A comparison that meets a `NULL` is neither true nor false, and the two
places where a condition is used resolve that in opposite directions: an
`IF` in PL/pgSQL runs its branch only when the condition is true, whereas a
`CHECK` rejects a row only when the condition is false. A model that
collapsed the unknown value to either Boolean would get one of the two wrong.

Columns that admit `NULL` are options, so `eq` and `le` take options and
return `unknown` as soon as one side is missing. `distinct` is `IS DISTINCT
FROM`, the comparison that treats `NULL` as an ordinary value and therefore
always has an answer.

## Main definitions

* `Truth`: A SQL truth value, with `none` for unknown.
* `Truth.and`, `Truth.or`, `Truth.not`: The Kleene connectives.
* `eq`, `ne`, `le`, `test`: Comparisons and tests of nullable columns.
* `raises`: When a guarded `RAISE` runs.
* `checks`: When a `CHECK` constraint admits the row.

## Theorems

* `checks_and`, `checks_all`: A constraint that is a conjunction.
* `raises_and`, `raises_all`: A guarded conjunction needs all parts to be true.
-/

namespace Sql

/-- A SQL truth value; `none` is `UNKNOWN`. -/
abbrev Truth := Option Bool

namespace Truth

/-- Conjunction: false wins over unknown. -/
def and : Truth → Truth → Truth
  | some false, _ => some false
  | some true, q => q
  | none, some false => some false
  | none, _ => none

/-- Disjunction: true wins over unknown. -/
def or : Truth → Truth → Truth
  | some true, _ => some true
  | some false, q => q
  | none, some true => some true
  | none, _ => none

/-- Negation leaves unknown alone. -/
def not : Truth → Truth
  | some b => some (!b)
  | none => none

theorem and_some (a b : Bool) : and (some a) (some b) = some (a && b) := by
  cases a <;> rfl

theorem or_some (a b : Bool) : or (some a) (some b) = some (a || b) := by
  cases a <;> rfl

/-- Conjunction of a list of conditions. -/
def all : List Truth → Truth
  | [] => some true
  | p :: ps => and p (all ps)

/-- Disjunction of a list of conditions. -/
def any : List Truth → Truth
  | [] => some false
  | p :: ps => or p (any ps)

end Truth

variable {α : Type}

/-- Lift a binary test to nullable columns: unknown if either is `NULL`. -/
def lift (test : α → α → Bool) : Option α → Option α → Truth
  | some a, some b => some (test a b)
  | _, _ => none

/-- The comparison `a = b` of nullable columns. -/
def eq [DecidableEq α] (a b : Option α) : Truth :=
  lift (fun x y => decide (x = y)) a b

/-- The comparison `a <> b` of nullable columns. -/
def ne [DecidableEq α] (a b : Option α) : Truth :=
  lift (fun x y => decide (x ≠ y)) a b

/-- The comparison `a <= b` of nullable numeric columns. -/
def le (a b : Option Nat) : Truth :=
  lift (fun x y => decide (x ≤ y)) a b

/-- The test `a IN (...)` of a nullable column against constants. -/
def isIn [DecidableEq α] (a : Option α) (constants : List α) : Truth :=
  a.map fun x => decide (x ∈ constants)

/-- The test `a IS NOT NULL`, which is never unknown. -/
def isNotNull (a : Option α) : Truth :=
  some a.isSome

/-- The test `a IS NULL`, which is never unknown. -/
def isNull (a : Option α) : Truth :=
  some a.isNone

/-- A test of the value of a nullable column. -/
def test (p : α → Bool) (a : Option α) : Truth :=
  a.map p

/-- The test `a IS DISTINCT FROM b`, which is never unknown. -/
def distinct [DecidableEq α] (a b : α) : Truth :=
  some (decide (a ≠ b))

/-- A PL/pgSQL `IF p THEN RAISE` fires only when `p` is true. -/
def raises (p : Truth) : Bool :=
  p == some true

/-- A `CHECK (p)` admits the row unless `p` is false. -/
def checks (p : Truth) : Bool :=
  p != some false

/-- A text column takes every text without a zero byte, that is, without NUL. Another
    one is refused before any constraint is looked at. -/
def storable (text : String) : Bool :=
  !text.toUTF8.data.toList.contains 0

@[simp] theorem raises_some (b : Bool) : raises (some b) = b := by
  cases b <;> rfl

@[simp] theorem checks_some (b : Bool) : checks (some b) = b := by
  cases b <;> rfl

/-- A constraint that is a conjunction admits what both parts admit. -/
@[simp] theorem checks_and (p q : Truth) :
    checks (Truth.and p q) = (checks p && checks q) := by
  rcases p with _ | _ | _ <;> rcases q with _ | _ | _ <;> rfl

@[simp] theorem checks_all (ps : List Truth) : checks (Truth.all ps) = ps.all checks := by
  induction ps with
  | nil => rfl
  | cons p rest ih => rw [Truth.all, checks_and, ih, List.all_cons]

/-- A constraint on the value of a column that may be null. -/
@[simp] theorem checks_isNull_or_test (p : α → Bool) (a : Option α) :
    checks (Truth.or (isNull a) (test p a)) = a.all p := by
  cases a with
  | none => rfl
  | some x => exact checks_some (p x)

/-- A guarded conjunction fires exactly when both parts are true. Unknown on
    either side keeps the guard quiet, so this is an equality of Booleans. -/
@[simp] theorem raises_and (p q : Truth) :
    raises (Truth.and p q) = (raises p && raises q) := by
  rcases p with _ | _ | _ <;> rcases q with _ | _ | _ <;> rfl

/-- A guarded disjunction fires when either part is true. -/
@[simp] theorem raises_or (p q : Truth) :
    raises (Truth.or p q) = (raises p || raises q) := by
  rcases p with _ | _ | _ <;> rcases q with _ | _ | _ <;> rfl

/-- A guarded list of conditions fires exactly when all are true. -/
@[simp] theorem raises_all (ps : List Truth) : raises (Truth.all ps) = ps.all raises := by
  induction ps with
  | nil => rfl
  | cons p rest ih => rw [Truth.all, raises_and, ih, List.all_cons]

variable {ps : List Truth}

/-- A disjunction with a true part is true, whatever is unknown. -/
theorem any_eq_true (h : some true ∈ ps) : Truth.any ps = some true := by
  induction ps with
  | nil => cases h
  | cons p rest ih =>
      rcases List.mem_cons.mp h with rfl | hrest
      · rfl
      · rw [Truth.any, ih hrest]
        rcases p with _ | _ | _ <;> rfl

/-- A conjunction of true parts is true. -/
theorem all_eq_true (h : ∀ p ∈ ps, p = some true) : Truth.all ps = some true := by
  induction ps with
  | nil => rfl
  | cons p rest ih =>
      rw [Truth.all, h p List.mem_cons_self, ih fun q hq => h q (List.mem_cons_of_mem p hq)]
      rfl

end Sql
