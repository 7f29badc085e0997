import SkyDiscovery.Text.Blank

/-!
# Conditions of a query language and their truth

The conditions as a database evaluates them on a row, in three-valued logic: a comparison with a
missing value is unknown, and the connectives follow the strong Kleene tables.  A condition selects
a row only if it is true there.

* `Expr.evaluate`: the truth of an expression by that of its tests.
* `Expr.evaluate_joinAll_and`, `Expr.evaluate_joinAll_or`: expressions joined from left to right
  have the conjunction and the disjunction of their truths.
-/

namespace SkyDiscovery.Sql

/-! ## Truth -/

/-- True, false, or unknown. -/
abbrev Truth := Option Bool

namespace Truth

def and : Truth → Truth → Truth
  | some false, _ => some false
  | _, some false => some false
  | some true, some true => some true
  | _, _ => none

def or : Truth → Truth → Truth
  | some true, _ => some true
  | _, some true => some true
  | some false, some false => some false
  | _, _ => none

theorem and_eq_true_iff (a b : Truth) : a.and b = some true ↔ a = some true ∧ b = some true := by
  rcases a with _ | _ | _ <;> rcases b with _ | _ | _ <;> decide

theorem or_eq_true_iff (a b : Truth) : a.or b = some true ↔ a = some true ∨ b = some true := by
  rcases a with _ | _ | _ <;> rcases b with _ | _ | _ <;> decide

theorem and_assoc (a b c : Truth) : (a.and b).and c = a.and (b.and c) := by
  rcases a with _ | _ | _ <;> rcases b with _ | _ | _ <;> rcases c with _ | _ | _ <;> rfl

theorem or_assoc (a b c : Truth) : (a.or b).or c = a.or (b.or c) := by
  rcases a with _ | _ | _ <;> rcases b with _ | _ | _ <;> rcases c with _ | _ | _ <;> rfl

theorem and_true (a : Truth) : a.and (some true) = a := by
  rcases a with _ | _ | _ <;> rfl

theorem or_false (a : Truth) : a.or (some false) = a := by
  rcases a with _ | _ | _ <;> rfl

/-- The conjunction of truths, true without any. -/
def all (as : List Truth) : Truth :=
  as.foldr and (some true)

/-- The disjunction of truths, false without any. -/
def any (as : List Truth) : Truth :=
  as.foldr or (some false)

end Truth

/-! ## Values and operands -/

inductive Value where
  | null
  | number (q : Rat)
  | text (s : List Char)
  deriving DecidableEq

/-- The values of a row under the names of its columns. -/
abbrev Row := List Char → Value

inductive Operand where
  | column (name : List Char)
  | number (q : Rat)
  | text (s : List Char)
  | negative (x : Operand)

namespace Operand

def value (row : Row) : Operand → Value
  | column name => row name
  | number q => .number q
  | text s => .text s
  | negative x =>
    match x.value row with
    | .number q => .number (-q)
    | _ => .null

end Operand

/-- How two values of one kind compare; other pairs do not. -/
def Value.compare? : Value → Value → Option Ordering
  | number p, number q => some (if p < q then .lt else if p = q then .eq else .gt)
  | text s, text t => some (compareOfLessAndEq s t)
  | _, _ => none

/-- Whether a text matches a pattern, in which `%` stands for any text and `_` for any
character. -/
def matchesPattern : List Char → List Char → Bool
  | [], s => s.isEmpty
  | '%' :: p, s => (List.range (s.length + 1)).any fun n => matchesPattern p (s.drop n)
  | '_' :: _, [] => false
  | '_' :: p, _ :: s => matchesPattern p s
  | _ :: _, [] => false
  | c :: p, d :: s => c == d && matchesPattern p s

/-! ## Tests and expressions -/

inductive Relation where
  | equal
  | atMost
  | atLeast

inductive Test where
  | compare (r : Relation) (x y : Operand)
  | between (x low high : Operand)
  | like (x pattern : Operand)
  | isNull (x : Operand)
  | isNotNull (x : Operand)

def Relation.holds : Relation → Ordering → Bool
  | equal, o => o == .eq
  | atMost, o => o != .gt
  | atLeast, o => o != .lt

/-- Whether two values stand in a relation. -/
def Relation.truth (r : Relation) (x y : Value) : Truth :=
  (x.compare? y).map r.holds

def Test.truth (row : Row) : Test → Truth
  | compare r x y => r.truth (x.value row) (y.value row)
  | between x low high =>
    (Relation.atLeast.truth (x.value row) (low.value row)).and
      (Relation.atMost.truth (x.value row) (high.value row))
  | like x pattern =>
    match x.value row, pattern.value row with
    | .text s, .text p => some (matchesPattern p s)
    | _, _ => none
  | isNull x => some (x.value row == .null)
  | isNotNull x => some (x.value row != .null)

inductive Expr where
  | test (t : Test)
  | and (e f : Expr)
  | or (e f : Expr)

namespace Expr

def truth (row : Row) : Expr → Truth
  | test t => t.truth row
  | and e f => (e.truth row).and (f.truth row)
  | or e f => (e.truth row).or (f.truth row)

/-- The truth of an expression whose tests have the truths `v`. -/
def evaluate (v : Test → Truth) : Expr → Truth
  | test t => v t
  | and e f => (e.evaluate v).and (f.evaluate v)
  | or e f => (e.evaluate v).or (f.evaluate v)

theorem evaluate_truth (row : Row) (e : Expr) : e.evaluate (Test.truth row) = e.truth row := by
  induction e with
  | test t => rfl
  | and e f he hf => rw [evaluate, truth, he, hf]
  | or e f he hf => rw [evaluate, truth, he, hf]

/-- Joins an expression to those before it, if there are any. -/
def join (op : Expr → Expr → Expr) : Option Expr → Expr → Option Expr
  | none, e => some e
  | some d, e => some (op d e)

/-- Expressions joined from left to right. -/
def joinAll (op : Expr → Expr → Expr) (es : List Expr) : Option Expr :=
  es.foldl (join op) none

theorem exists_foldl_join (op : Expr → Expr → Expr) (d : Expr) (es : List Expr) :
    ∃ e, es.foldl (join op) (some d) = some e := by
  induction es generalizing d with
  | nil => exact ⟨d, rfl⟩
  | cons x xs ih => exact ih (op d x)

theorem exists_joinAll (op : Expr → Expr → Expr) {es : List Expr} (h : es ≠ []) :
    ∃ e, joinAll op es = some e := by
  obtain ⟨x, xs, rfl⟩ := List.exists_cons_of_ne_nil h
  exact exists_foldl_join op x xs

theorem evaluate_foldl_and (v : Test → Truth) {d e : Expr} {es : List Expr}
    (h : es.foldl (join and) (some d) = some e) :
    e.evaluate v = (d.evaluate v).and (.all (es.map (evaluate v))) := by
  induction es generalizing d with
  | nil =>
    obtain rfl : d = e := by simpa using h
    exact (Truth.and_true _).symm
  | cons x xs ih =>
    rw [List.foldl_cons, join] at h
    rw [ih h, evaluate, Truth.and_assoc]
    rfl

theorem evaluate_foldl_or (v : Test → Truth) {d e : Expr} {es : List Expr}
    (h : es.foldl (join or) (some d) = some e) :
    e.evaluate v = (d.evaluate v).or (.any (es.map (evaluate v))) := by
  induction es generalizing d with
  | nil =>
    obtain rfl : d = e := by simpa using h
    exact (Truth.or_false _).symm
  | cons x xs ih =>
    rw [List.foldl_cons, join] at h
    rw [ih h, evaluate, Truth.or_assoc]
    rfl

theorem evaluate_joinAll_and (v : Test → Truth) {e : Expr} {es : List Expr}
    (h : joinAll and es = some e) : e.evaluate v = .all (es.map (evaluate v)) := by
  cases es with
  | nil => simp [joinAll] at h
  | cons x xs => exact evaluate_foldl_and v h

theorem evaluate_joinAll_or (v : Test → Truth) {e : Expr} {es : List Expr}
    (h : joinAll or es = some e) : e.evaluate v = .any (es.map (evaluate v)) := by
  cases es with
  | nil => simp [joinAll] at h
  | cons x xs => exact evaluate_foldl_or v h

end Expr

end SkyDiscovery.Sql
