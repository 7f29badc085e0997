import SkyDiscovery.Proofs.Query.Reading

/-!
# The meaning of compiled conditions

A database reads the text of a query by its own grammar, which knows nothing of the constraints that
the text was made from.  Over columns with plain names it reads every sound condition as what it
was meant to be: a conjunction of its factors, each group a disjunction that its parentheses hold
together.

* `Factor.Sound.evaluate_eq_true_iff`: a sound factor is true where it holds.
* `CatalogQuery.where_text_means_conjunction`: the condition of a compiled query is true on a row
  just if the text of each constraint is true there by itself.
-/

namespace SkyDiscovery

open Sql

/-! ## Comparisons and factors -/

/-- The text of a comparison by itself is true on a row. -/
def Comparison.HoldsOn (row : Sql.Row) (c : Comparison) : Prop :=
  ∃ e, readCondition c.text = some e ∧ e.truth row = some true

/-- What a factor says of a row: that the comparison is true, or all factors of some alternative. -/
inductive Factor.HoldsOn (row : Sql.Row) : Factor → Prop where
  | test {c : Comparison} : c.HoldsOn row → HoldsOn row (.test c)
  | group {alternatives : List (List Factor)} {c : List Factor} : c ∈ alternatives →
      (∀ f ∈ c, HoldsOn row f) → HoldsOn row (.group alternatives)

/-- The expression says of every row what the factors say of it. -/
def Means (e : Expr) (fs : List Factor) : Prop :=
  ∀ row, e.truth row = some true ↔ ∀ f ∈ fs, f.HoldsOn row

theorem Factor.holdsOn_test_iff (row : Sql.Row) (c : Comparison) :
    (Factor.test c).HoldsOn row ↔ c.HoldsOn row := by
  constructor
  · rintro ⟨h⟩
    exact h
  · exact .test

theorem Factor.holdsOn_group_iff (row : Sql.Row) (alternatives : List (List Factor)) :
    (Factor.group alternatives).HoldsOn row ↔
      ∃ c ∈ alternatives, ∀ f ∈ c, f.HoldsOn row := by
  constructor
  · rintro (_ | ⟨hc, hf⟩)
    exact ⟨_, hc, hf⟩
  · rintro ⟨c, hc, hf⟩
    exact .group hc hf

theorem Comparison.holdsOn_iff {c : Comparison} (h : Identifier c.column) (row : Sql.Row) :
    c.HoldsOn row ↔ c.test.truth row = some true := by
  have hread : readCondition c.text = some (.test c.test) :=
    (reads_comparison h).readCondition_eq rfl
  simp [Comparison.HoldsOn, hread, Expr.truth]

/-- Over columns with plain names a sound factor is true where it holds. -/
theorem Factor.Sound.evaluate_eq_true_iff {f : Factor} (h : f.Sound Identifier) (row : Sql.Row) :
    f.evaluate (Test.truth row) = some true ↔ f.HoldsOn row := by
  induction h with
  | test hcolumn => rw [Factor.evaluate, Factor.holdsOn_test_iff, Comparison.holdsOn_iff hcolumn]
  | group _ _ _ ih =>
    rw [Factor.evaluate, Factor.evaluateAny_eq_true_iff, Factor.holdsOn_group_iff]
    refine exists_congr fun c => and_congr_right fun hc => ?_
    rw [Conjunction.evaluate_eq_true_iff]
    exact forall₂_congr (ih c hc)

theorem Conjunction.Sound.exists_reads {c : Conjunction} (h : Conjunction.Sound Identifier c) :
    ∃ es e, Reads (Conjunction.text c).toList es ∧ Expr.joinAll .and es = some e ∧ Means e c := by
  obtain ⟨es, e, hes, he, hexpresses⟩ := h.exists_expression
  refine ⟨es, e, hes, he, fun row => ?_⟩
  rw [← Expr.evaluate_truth, hexpresses, Conjunction.evaluate_eq_true_iff]
  exact forall₂_congr fun f hf => (h.2 f hf).evaluate_eq_true_iff row

/-! ## Queries -/

theorem Constraint.exists_readCondition {k : Constraint}
    (h : Conjunction.Sound Identifier k.condition) :
    ∃ e, readCondition k.text = some e ∧ Means e k.condition := by
  obtain ⟨es, e, hes, he, hmeans⟩ := h.exists_reads
  exact ⟨e, hes.readCondition_eq he, hmeans⟩

/-- The text of every constraint is read by itself. -/
theorem exists_own {ks : List Constraint}
    (h : ∀ k ∈ ks, Conjunction.Sound Identifier k.condition) (default : Expr) :
    ∃ own : Constraint → Expr,
      ∀ k ∈ ks, readCondition k.text = some (own k) ∧ Means (own k) k.condition := by
  refine ⟨fun k => (readCondition k.text).getD default, fun k hk => ?_⟩
  obtain ⟨e, he, hmeans⟩ := Constraint.exists_readCondition (h k hk)
  simp only [he, Option.getD_some]
  exact ⟨trivial, hmeans⟩

namespace CatalogQuery

theorem spells_selectFrom {table : String} (h : Identifier table) :
    Spells ("SELECT * FROM " ++ table).toList
      [.keyword .select, .operator ['*'], .keyword .from, .word table.toList] := by
  have hselect : Spells "SELECT".toList [.keyword .select] :=
    spells_wordChars (by decide) (by decide)
  have hall : Spells "*".toList [.operator ['*']] :=
    spells_operator (by decide) (by decide) (by decide)
  have hfrom : Spells "FROM".toList [.keyword .from] := spells_wordChars (by decide) (by decide)
  simpa using hselect.blank (hall.blank (hfrom.blank h.spells))

theorem readSelect_of_no_condition {table : String} (h : Identifier table) :
    readSelect ("SELECT * FROM " ++ table) = some ⟨table.toList, none⟩ := by
  rw [readSelect, (spells_selectFrom h).tokens_eq]
  rfl

theorem readSelect_of_condition {table w : String} (h : Identifier table) {es : List Expr}
    (hes : Reads w.toList es) {e : Expr} (he : Expr.joinAll .and es = some e) :
    readSelect ("SELECT * FROM " ++ table ++ " WHERE " ++ w) = some ⟨table.toList, some e⟩ := by
  have hword : Spells "WHERE".toList [.keyword .where] :=
    spells_wordChars (by decide) (by decide)
  obtain ⟨ts, hts, hread⟩ := hes.condition?_eq he
  have hchars : ("SELECT * FROM " ++ table ++ " WHERE " ++ w).toList =
      ("SELECT * FROM " ++ table).toList ++ ' ' :: ("WHERE".toList ++ ' ' :: w.toList) := by
    simp
  rw [readSelect, hchars, ((spells_selectFrom h).blank (hword.blank hts)).tokens_eq]
  simp [select?, hread]

/-- Over a table with plain names, the text of a compiled query asks for the rows of the table on
which its condition is true.  That is so just where the text of every constraint, read by itself, is
true, and without constraints there is no condition. -/
theorem where_text_means_conjunction {p : Protocol} {t : TableMapping} {c : Context}
    {s : ParameterSet} {q : CatalogQuery}
    (hcolumns : ∀ canonical column, t.resolve canonical = some column → Identifier column)
    (htable : Identifier q.table) (hcompile : compile p t c s = .ok q) (hcap : 0 < q.recordCap) :
    (q.constraints = [] →
      q.whereText? = none ∧ readSelect q.text = some ⟨q.table.toList, none⟩) ∧
    (q.constraints ≠ [] → ∃ w e, q.whereText? = some w ∧ readCondition w = some e ∧
      readSelect q.text = some ⟨q.table.toList, some e⟩ ∧
      ∃ own : Constraint → Expr,
        (∀ k ∈ q.constraints, readCondition k.text = some (own k)) ∧
        ∀ row, e.truth row = some true ↔
          ∀ k ∈ q.constraints, (own k).truth row = some true) := by
  have hsound := sound_of_compile (forall_column (by decide) hcolumns) hcompile
  constructor
  · intro hnone
    refine ⟨whereText?_of_nil hnone, ?_⟩
    rw [text_of_nil hcap hnone, readSelect_of_no_condition htable]
  · intro hne
    obtain ⟨es, e, hes, he, hmeans⟩ := (sound_condition hsound hne).exists_reads
    have hwhere := whereText?_eq hsound hne
    have hselect : readSelect q.text = some ⟨q.table.toList, some e⟩ := by
      rw [text_of_sound hcap hsound hne, readSelect_of_condition htable hes he]
    obtain ⟨own, hown⟩ := exists_own hsound e
    refine ⟨_, e, hwhere, hes.readCondition_eq he, hselect, own, fun k hk => (hown k hk).1,
      fun row => ?_⟩
    rw [hmeans row]
    constructor
    · intro hall k hk
      exact ((hown k hk).2 row).2 fun f hf => hall f (List.mem_flatMap.2 ⟨k, hk, hf⟩)
    · intro hall f hf
      obtain ⟨k, hk, hf⟩ := List.mem_flatMap.1 hf
      exact ((hown k hk).2 row).1 (hall k hk) f hf

/-- A request whose texts hold a quote, parentheses and the signs of the grammar. -/
theorem where_text_means_conjunction_of_quoted_texts :
    ∃ s q, ParameterSet.read .image [("POL", "I,Q"), ("PubDID", "ivo://x#images:o'brien"),
        ("Collection", "a) OR (b,c"), ("FluxCalib", "relative")] = .ok s ∧
      compile .image TableConfig.empty.mapping { tableName := some "images" } s = .ok q ∧
      0 < q.recordCap ∧ Identifier q.table ∧ q.constraints.length = 4 ∧
      ∃ w e, q.whereText? = some w ∧ readCondition w = some e ∧
        readSelect q.text = some ⟨q.table.toList, some e⟩ ∧
        ∃ own : Constraint → Expr,
          (∀ k ∈ q.constraints, readCondition k.text = some (own k)) ∧
          ∀ row, e.truth row = some true ↔
            ∀ k ∈ q.constraints, (own k).truth row = some true := by
  have hcompiles : ∃ s q, ParameterSet.read .image [("POL", "I,Q"),
        ("PubDID", "ivo://x#images:o'brien"), ("Collection", "a) OR (b,c"),
        ("FluxCalib", "relative")] = .ok s ∧
      compile .image TableConfig.empty.mapping { tableName := some "images" } s = .ok q ∧
      0 < q.recordCap ∧ Identifier q.table ∧ q.constraints.length = 4 :=
    ⟨_, _, rfl, rfl, by decide, by decide, rfl⟩
  obtain ⟨s, q, hread, hcompile, hcap, htable, hlength⟩ := hcompiles
  have hne : q.constraints ≠ [] := by
    intro h
    rw [h] at hlength
    exact absurd hlength (by decide)
  have hcolumns : ∀ canonical column,
      TableConfig.empty.mapping.resolve canonical = some column → Identifier column := by
    intro canonical column h
    simp [TableConfig.empty, TableConfig.mapping, TableConfig.resolve] at h
  exact ⟨s, q, hread, hcompile, hcap, htable, hlength,
    (where_text_means_conjunction hcolumns htable hcompile hcap).2 hne⟩

end CatalogQuery

end SkyDiscovery
