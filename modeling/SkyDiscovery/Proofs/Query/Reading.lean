import SkyDiscovery.Proofs.Query.Sound
import SkyDiscovery.Proofs.Sql.Operand

/-!
# How conditions are read

A database reads the text of a condition by its own grammar.  Over columns with plain names it reads
every sound condition as an expression of the same shape: true, false or unknown just as the
condition is, whatever the truths of the comparisons.

* `reads_comparison`: a comparison is read as its test.
* `Factor.Sound.exists_expression`: a sound factor is read as one expression with its truth.
* `Conjunction.Sound.exists_expression`: so is a sound conjunction.
-/

namespace SkyDiscovery

open Sql

/-! ## Comparisons -/

/-- The test that the text of a comparison is read as. -/
def Comparison.test : Comparison → Test
  | between column low high =>
    .between (.column column.toList) (.ofNumber (.ofFloat low)) (.ofNumber (.ofFloat high))
  | atMost column bound => .compare .atMost (.column column.toList) (.ofNumber (.ofFloat bound))
  | atLeast column bound => .compare .atLeast (.column column.toList) (.ofNumber (.ofFloat bound))
  | equalsNumber column value =>
    .compare .equal (.column column.toList) (.ofNumber (.ofFloat value))
  | equalsText column value => .compare .equal (.column column.toList) (.text value.toList)
  | like column pattern => .like (.column column.toList) (.text pattern.toList)
  | isNull column => .isNull (.column column.toList)
  | isNotNull column => .isNotNull (.column column.toList)

theorem reads_comparison {c : Comparison} (h : Identifier c.column) :
    Reads c.text.toList [.test c.test] := by
  have hcolumn := operates_column h
  cases c with
  | between column low high =>
    simpa [Comparison.text, Comparison.test, Comparison.column] using
      hcolumn.between (operates_number low) (operates_number high)
  | atMost column bound =>
    simpa [Comparison.text, Comparison.test, Comparison.column] using
      hcolumn.compare spells_atMost rfl (operates_number bound)
  | atLeast column bound =>
    simpa [Comparison.text, Comparison.test, Comparison.column] using
      hcolumn.compare spells_atLeast rfl (operates_number bound)
  | equalsNumber column value =>
    simpa [Comparison.text, Comparison.test, Comparison.column] using
      hcolumn.compare spells_equals rfl (operates_number value)
  | equalsText column value =>
    simpa [Comparison.text, Comparison.test, Comparison.column] using
      hcolumn.compare spells_equals rfl (operates_text value)
  | like column pattern =>
    simpa [Comparison.text, Comparison.test, Comparison.column] using
      hcolumn.like (operates_text pattern)
  | isNull column =>
    simpa [Comparison.text, Comparison.test, Comparison.column] using hcolumn.isNull
  | isNotNull column =>
    simpa [Comparison.text, Comparison.test, Comparison.column] using hcolumn.isNotNull

/-! ## The truth of conditions -/

mutual

/-- The truth of a factor whose comparisons have the truths `v`. -/
def Factor.evaluate (v : Test → Truth) : Factor → Truth
  | .test c => v c.test
  | .group cs => Factor.evaluateAny v cs

def Conjunction.evaluate (v : Test → Truth) : List Factor → Truth
  | [] => some true
  | f :: fs => (f.evaluate v).and (Conjunction.evaluate v fs)

/-- The truth of a disjunction of conjunctions. -/
def Factor.evaluateAny (v : Test → Truth) : List (List Factor) → Truth
  | [] => some false
  | c :: cs => (Conjunction.evaluate v c).or (Factor.evaluateAny v cs)

end

theorem Conjunction.evaluate_singleton (v : Test → Truth) (f : Factor) :
    Conjunction.evaluate v [f] = f.evaluate v := by
  rw [Conjunction.evaluate, Conjunction.evaluate, Truth.and_true]

theorem Conjunction.evaluate_eq_true_iff (v : Test → Truth) (c : List Factor) :
    Conjunction.evaluate v c = some true ↔ ∀ f ∈ c, f.evaluate v = some true := by
  induction c with
  | nil => simp [Conjunction.evaluate]
  | cons f c ih => rw [Conjunction.evaluate, Truth.and_eq_true_iff, ih, List.forall_mem_cons]

theorem Factor.evaluateAny_eq_true_iff (v : Test → Truth) (cs : List (List Factor)) :
    Factor.evaluateAny v cs = some true ↔ ∃ c ∈ cs, Conjunction.evaluate v c = some true := by
  induction cs with
  | nil => simp [Factor.evaluateAny]
  | cons c cs ih =>
    rw [Factor.evaluateAny, Truth.or_eq_true_iff, ih]
    simp only [List.mem_cons, exists_eq_or_imp]

/-- The expression has the truth of the conjunction. -/
def Expresses (e : Expr) (c : List Factor) : Prop :=
  ∀ v, e.evaluate v = Conjunction.evaluate v c

/-- The factors after the first, each with the sign before it, add an expression each. -/
theorem reads_restText {fs : List Factor}
    (h : ∀ f ∈ fs, ∃ e, Reads f.text.toList [e] ∧ Expresses e [f]) {a : List Char}
    {ds : List Expr} (ha : Reads a ds) :
    ∃ es, Reads (a ++ (Conjunction.restText fs).toList) (ds ++ es) ∧
      ∀ v, .all (es.map (Expr.evaluate v)) = Conjunction.evaluate v fs := by
  induction fs generalizing a ds with
  | nil => exact ⟨[], by simpa [Conjunction.restText] using ha, fun _ => rfl⟩
  | cons f fs ih =>
    obtain ⟨e, he, hexpresses⟩ := h f List.mem_cons_self
    obtain ⟨es, hes, hrest⟩ := ih (fun g hg => h g (List.mem_cons_of_mem _ hg)) (ha.and he)
    refine ⟨e :: es, by simpa [Conjunction.restText] using hes, fun v => ?_⟩
    rw [Conjunction.evaluate, ← hrest v, ← Conjunction.evaluate_singleton, ← hexpresses v]
    rfl

theorem exists_reads_conjunction {c : List Factor} (hne : c ≠ [])
    (h : ∀ f ∈ c, ∃ e, Reads f.text.toList [e] ∧ Expresses e [f]) :
    ∃ es e, Reads (Conjunction.text c).toList es ∧ Expr.joinAll .and es = some e ∧
      Expresses e c := by
  obtain ⟨f, fs, rfl⟩ := List.exists_cons_of_ne_nil hne
  obtain ⟨d, hd, hexpresses⟩ := h f List.mem_cons_self
  obtain ⟨es, hes, hrest⟩ := reads_restText (fun g hg => h g (List.mem_cons_of_mem _ hg)) hd
  obtain ⟨e, he⟩ := Expr.exists_joinAll .and (List.cons_ne_nil d es)
  refine ⟨d :: es, e, by simpa [Conjunction.text] using hes, he, fun v => ?_⟩
  rw [Expr.evaluate_joinAll_and v he, Conjunction.evaluate, ← hrest v,
    ← Conjunction.evaluate_singleton, ← hexpresses v]
  rfl

theorem alternatives_alternativesText {cs : List (List Factor)}
    (h : ∀ c ∈ cs, ∃ e, Alternatives (Conjunction.text c).toList [e] ∧ Expresses e c)
    {a : List Char} {ds : List Expr} (ha : Alternatives a ds) :
    ∃ es, Alternatives (a ++ (Factor.alternativesText cs).toList) (ds ++ es) ∧
      ∀ v, .any (es.map (Expr.evaluate v)) = Factor.evaluateAny v cs := by
  induction cs generalizing a ds with
  | nil => exact ⟨[], by simpa [Factor.alternativesText] using ha, fun _ => rfl⟩
  | cons c cs ih =>
    obtain ⟨e, he, hexpresses⟩ := h c List.mem_cons_self
    obtain ⟨es, hes, hrest⟩ := ih (fun d hd => h d (List.mem_cons_of_mem _ hd)) (ha.or he)
    refine ⟨e :: es, by simpa [Factor.alternativesText] using hes, fun v => ?_⟩
    rw [Factor.evaluateAny, ← hrest v, ← hexpresses v]
    rfl

/-- Over columns with plain names a sound factor is read as what it says. -/
theorem Factor.Sound.exists_expression {f : Factor} (h : f.Sound Identifier) :
    ∃ e, Reads f.text.toList [e] ∧ Expresses e [f] := by
  induction h with
  | @test c hcolumn =>
    refine ⟨.test c.test, ?_, fun v => ?_⟩
    · rw [Factor.text]
      exact reads_comparison hcolumn
    · rw [Conjunction.evaluate_singleton, Factor.evaluate, Expr.evaluate]
  | @group alternatives hne hnonempty _ ih =>
    have hall : ∀ c ∈ alternatives,
        ∃ e, Alternatives (Conjunction.text c).toList [e] ∧ Expresses e c := by
      intro c hc
      obtain ⟨es, e, hes, he, hexpresses⟩ := exists_reads_conjunction (hnonempty c hc) (ih c hc)
      exact ⟨e, hes.alternative he, hexpresses⟩
    obtain ⟨c, cs, rfl⟩ := List.exists_cons_of_ne_nil hne
    obtain ⟨d, hd, hexpresses⟩ := hall c List.mem_cons_self
    obtain ⟨es, hes, hrest⟩ :=
      alternatives_alternativesText (fun x hx => hall x (List.mem_cons_of_mem _ hx)) hd
    obtain ⟨e, he⟩ := Expr.exists_joinAll .or (List.cons_ne_nil d es)
    refine ⟨e, by simpa [Factor.text] using hes.group he, fun v => ?_⟩
    rw [Conjunction.evaluate_singleton, Factor.evaluate, Factor.evaluateAny,
      Expr.evaluate_joinAll_or v he, ← hrest v, ← hexpresses v]
    rfl

theorem Conjunction.Sound.exists_expression {c : Conjunction} (h : Conjunction.Sound Identifier c) :
    ∃ es e, Reads (Conjunction.text c).toList es ∧ Expr.joinAll .and es = some e ∧
      Expresses e c :=
  exists_reads_conjunction h.1 fun f hf => (h.2 f hf).exists_expression

end SkyDiscovery
