import SkyDiscovery.Proofs.Sql.Operand

/-!
# Numerals as a database takes them

A database compares a column of decimals with the number that a numeral writes, and a column of
doubles with the double nearest to that number.  The numeral of a finite double is taken for the
double itself in the second case, and in the first for its shortest decimal.

* `Numerals.take_written`: what the numeral of a magnitude is taken for.
* `Operand.value_ofNumber`: so a printed number is that number, with its sign.
-/

namespace SkyDiscovery

/-- Rounding goes by the value, unless that is beyond all finite numbers. -/
theorem Decimal.nearest_value {d : Decimal} (hpos : d.nearest ≠ 0)
    (hfinite : d.nearest < Binary64.infinite) :
    Binary64.nearest d.value.num.natAbs d.value.den = d.nearest := by
  have hnonneg : 0 ≤ d.value := by
    unfold Decimal.value
    positivity
  have hquotient : (d.value.num.natAbs : ℚ) / (d.value.den : ℚ) = d.value := by
    rw [Nat.cast_natAbs, abs_of_nonneg (Rat.num_nonneg.2 hnonneg), Rat.num_div_den]
  rw [Decimal.nearest_eq] at hpos hfinite ⊢
  split_ifs at hpos hfinite ⊢
  · exact absurd rfl hpos
  · exact absurd hfinite (lt_irrefl _)
  · exact absurd rfl hpos
  · exact Binary64.nearest_congr d.value.den_ne_zero (by positivity) hquotient

namespace Sql

/-! ## Numerals -/

/-- How a database takes the numerals of a query. -/
inductive Numerals where
  /-- As the numbers that they write. -/
  | exact
  /-- As the doubles nearest to these. -/
  | double

namespace Numerals

/-- What the numeral that writes a number is taken for; a numeral has no sign. -/
def take : Numerals → ℚ → ℚ
  | exact, q => q
  | double, q => Binary64.valueOf (Binary64.nearest q.num.natAbs q.den)

/-- What the numeral of a magnitude is taken for. -/
def magnitude : Numerals → ℕ → ℚ
  | exact, m => (Decimal.shortest .upward m).value
  | double, m => Binary64.valueOf m

/-- What a printed number is taken for. -/
def number (n : Numerals) (x : Binary64) : ℚ :=
  if x.isNegative then -n.magnitude x.magnitude else n.magnitude x.magnitude

/-- A database with doubles takes a printed number for the number itself. -/
theorem number_double (x : Binary64) : double.number x = x.toRat := by
  rw [Binary64.toRat]
  dsimp only
  rw [Binary64.div_quotient]
  rfl

theorem take_written (n : Numerals) {m : ℕ} (h : m < Binary64.infinite) :
    n.take (exact.magnitude m) = n.magnitude m := by
  cases n with
  | exact => rfl
  | double =>
    by_cases hm : m = 0
    · have hzero : exact.magnitude 0 = 0 :=
        (Decimal.value_eq_zero_iff _).2 (by decide +kernel)
      rw [hm, hzero]
      rfl
    · have hnearest := Decimal.nearest_shortest .upward h
      rw [take, magnitude, Decimal.nearest_value (by rwa [hnearest]) (by rwa [hnearest]), hnearest]
      rfl

end Numerals

/-! ## Operands, tests and expressions -/

namespace Operand

/-- The operand with its numeral as it is taken. -/
def taking (n : Numerals) : Operand → Operand
  | column name => column name
  | number q => number (n.take q)
  | text s => text s
  | negative x => negative (x.taking n)

theorem taking_exact (x : Operand) : x.taking .exact = x := by
  induction x with
  | column | number | text => rfl
  | negative x ih => rw [taking, ih]

theorem value_ofNumber (n : Numerals) {x : Binary64} (h : x.isFinite) (row : Row) :
    ((ofNumber x).taking n).value row = .number (n.number x) := by
  have hm : x.magnitude < Binary64.infinite := by simpa [Binary64.isFinite] using h
  have hnan : ¬ x.isNaN := by simpa [Binary64.isNaN] using hm.le
  have htake : n.take (Decimal.shortest .upward x.magnitude).value = n.magnitude x.magnitude :=
    n.take_written hm
  unfold ofNumber Numerals.number
  simp only [if_neg hnan, if_pos h]
  split
  · simp only [taking, value, htake]
  · simp only [taking, value, htake]

end Operand

namespace Test

def taking (n : Numerals) : Test → Test
  | compare r x y => compare r (x.taking n) (y.taking n)
  | between x low high => between (x.taking n) (low.taking n) (high.taking n)
  | like x pattern => like (x.taking n) (pattern.taking n)
  | isNull x => isNull (x.taking n)
  | isNotNull x => isNotNull (x.taking n)

theorem taking_exact (t : Test) : t.taking .exact = t := by
  cases t <;> simp only [taking, Operand.taking_exact]

/-- The truth of a test for a database that takes numerals in some way. -/
def truthTaking (n : Numerals) (row : Row) (t : Test) : Truth :=
  (t.taking n).truth row

end Test

namespace Expr

def truthTaking (n : Numerals) (row : Row) (e : Expr) : Truth :=
  e.evaluate (Test.truthTaking n row)

/-- A database that takes numerals as the numbers that they write. -/
theorem truthTaking_exact (row : Row) (e : Expr) : e.truthTaking .exact row = e.truth row := by
  have htests : Test.truthTaking .exact row = Test.truth row := by
    funext t
    rw [Test.truthTaking, Test.taking_exact]
  rw [truthTaking, htests, evaluate_truth]

end Expr

end Sql

end SkyDiscovery
