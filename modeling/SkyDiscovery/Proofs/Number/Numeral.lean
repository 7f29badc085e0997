import Mathlib.Algebra.Group.Nat.Defs
import Mathlib.Data.List.TakeWhile
import SkyDiscovery.Number.Shortest
import SkyDiscovery.Proofs.Text.Character

/-!
# The text of numbers

Numbers in messages, predicates and range lists are written without an exponent: a finite number is
a numeral, digits with at most one point among them, after a minus sign if it is negative.  The
other numbers are words.

* `plainNumeral_writeMagnitude`: the magnitude of a finite number is written as a numeral.
* `write_plain_cases`: the forms that the text of a number can take.
* `Layout.not_isBlank_of_mem_write`: it holds no blank.
* `Decimal.read_append`, `Decimal.read_append_point`: how digits are read, with and without a point.
-/

namespace SkyDiscovery

open Text

/-- Digits, with at most one point behind the first of them. -/
inductive PlainNumeral : List Char → Prop where
  | whole {ds : List Char} : ds ≠ [] → (∀ c ∈ ds, c.isDigit) → PlainNumeral ds
  | places {ds es : List Char} : ds ≠ [] → (∀ c ∈ ds, c.isDigit) → (∀ c ∈ es, c.isDigit) →
      PlainNumeral (ds ++ '.' :: es)

namespace PlainNumeral

theorem head {cs : List Char} (h : PlainNumeral cs) : ∃ d ds, cs = d :: ds ∧ d.isDigit := by
  cases h with
  | whole hne hds =>
    obtain ⟨d, ds, rfl⟩ := List.exists_cons_of_ne_nil hne
    exact ⟨d, ds, rfl, hds d List.mem_cons_self⟩
  | @places _ es hne hds _ =>
    obtain ⟨d, ds, rfl⟩ := List.exists_cons_of_ne_nil hne
    exact ⟨d, ds ++ '.' :: es, rfl, hds d List.mem_cons_self⟩

theorem isDigit_or_point {cs : List Char} (h : PlainNumeral cs) {c : Char} (hc : c ∈ cs) :
    c.isDigit ∨ c = '.' := by
  cases h with
  | whole _ hds => exact Or.inl (hds c hc)
  | places _ hds hes =>
    rcases List.mem_append.1 hc with hc | hc
    · exact Or.inl (hds c hc)
    · rcases List.mem_cons.1 hc with hc | hc
      · exact Or.inr hc
      · exact Or.inl (hes c hc)

end PlainNumeral

/-! ## Writing -/

theorem isDigit_of_mem_digits {n : Nat} {c : Char} (h : c ∈ digits n) : c.isDigit :=
  Nat.isDigit_of_mem_toDigits (by decide) (by decide) h

theorem digits_ne_nil (n : Nat) : digits n ≠ [] :=
  Nat.toDigits_ne_nil

theorem plainNumeral_placed {ds : List Char} (hne : ds ≠ []) (hds : ∀ c ∈ ds, c.isDigit)
    (point : Int) : PlainNumeral (Layout.placed false ds point) := by
  have hzero : ∀ (k : Nat), ∀ c ∈ List.replicate k '0', c.isDigit := by
    intro k c hc
    rw [List.eq_of_mem_replicate hc]
    decide
  unfold Layout.placed
  by_cases hpoint : point ≤ 0
  · rw [if_pos hpoint]
    refine @PlainNumeral.places ['0'] _ (by simp) (by decide) fun c hc => ?_
    rcases List.mem_append.1 hc with hc | hc
    · exact hzero _ c hc
    · exact hds c hc
  rw [if_neg hpoint]
  by_cases hwhole : (ds.length : Int) ≤ point
  · rw [if_pos hwhole, if_neg (by decide), List.append_nil]
    refine .whole (by simp [hne]) fun c hc => ?_
    rcases List.mem_append.1 hc with hc | hc
    · exact hds c hc
    · exact hzero _ c hc
  · rw [if_neg hwhole]
    refine .places ?_ (fun c hc => hds c (List.mem_of_mem_take hc))
      fun c hc => hds c (List.mem_of_mem_drop hc)
    rw [ne_eq, List.take_eq_nil_iff, not_or]
    exact ⟨by omega, hne⟩

theorem plainNumeral_writeMagnitude (m : Nat) : PlainNumeral (Layout.plain.writeMagnitude m) := by
  unfold Layout.writeMagnitude
  by_cases hzero : m = 0
  · rw [if_pos hzero]
    exact .whole (by decide) (by decide)
  · rw [if_neg hzero]
    exact plainNumeral_placed (digits_ne_nil _) (fun c hc => isDigit_of_mem_digits hc) _

/-- The text of a number is a numeral or a word, maybe after a minus sign. -/
theorem write_plain_cases (x : Binary64) :
    Layout.plain.write x = "NaN".toList ∨
      ∃ body, (PlainNumeral body ∨ body = "inf".toList) ∧
        (Layout.plain.write x = body ∨ Layout.plain.write x = '-' :: body) := by
  unfold Layout.write
  by_cases hnan : x.isNaN
  · exact Or.inl (if_pos hnan)
  rw [if_neg hnan]
  refine Or.inr ⟨if x.isFinite then Layout.plain.writeMagnitude x.magnitude else "inf".toList,
    ?_, ?_⟩
  · by_cases hfinite : x.isFinite
    · rw [if_pos hfinite]
      exact Or.inl (plainNumeral_writeMagnitude _)
    · rw [if_neg hfinite]
      exact Or.inr rfl
  · by_cases hneg : x.isNegative
    · exact Or.inr (if_pos hneg)
    · exact Or.inl (if_neg hneg)

/-- The characters that the texts of numbers are made of. -/
theorem mem_write_plain {x : Binary64} {c : Char} (hc : c ∈ Layout.plain.write x) :
    c.isDigit ∨ c ∈ ['.', '-', 'N', 'a', 'i', 'n', 'f'] := by
  rcases write_plain_cases x with h | ⟨body, hbody, h⟩
  · rw [h] at hc
    exact Or.inr ((show ∀ c ∈ "NaN".toList, c ∈ ['.', '-', 'N', 'a', 'i', 'n', 'f'] by decide) c hc)
  · have hsign : c = '-' ∨ c ∈ body := by
      rcases h with h | h
      · exact Or.inr (h ▸ hc)
      · exact List.mem_cons.1 (h ▸ hc)
    rcases hsign with rfl | hc
    · exact Or.inr (by decide)
    rcases hbody with hbody | rfl
    · rcases hbody.isDigit_or_point hc with hc | rfl
      · exact Or.inl hc
      · exact Or.inr (by decide)
    · exact Or.inr ((show ∀ c ∈ "inf".toList, c ∈ ['.', '-', 'N', 'a', 'i', 'n', 'f'] by decide) c hc)

/-! ### Blanks

Whatever the layout, the text of a number holds no blank. -/

theorem not_isBlank_of_mem_digits {n : Nat} : ∀ c ∈ digits n, isBlank c = false :=
  fun _ hc => not_isBlank_of_isDigit (isDigit_of_mem_digits hc)

theorem not_isBlank_of_mem_signedDigits {n : Int} : ∀ c ∈ signedDigits n, isBlank c = false := by
  cases n with
  | ofNat n => exact not_isBlank_of_mem_digits
  | negSucc n => exact List.forall_mem_cons.2 ⟨by decide, not_isBlank_of_mem_digits⟩

namespace Layout

theorem not_isBlank_of_mem_placed {ds : List Char} (h : ∀ c ∈ ds, isBlank c = false)
    (keepPoint : Bool) (point : Int) : ∀ c ∈ placed keepPoint ds point, isBlank c = false := by
  have hzeros (k : Nat) : ∀ c ∈ List.replicate k '0', isBlank c = false := by
    intro c hc
    rw [List.eq_of_mem_replicate hc]
    decide
  unfold placed
  split
  · exact List.forall_mem_cons.2 ⟨by decide, List.forall_mem_cons.2 ⟨by decide,
      List.forall_mem_append.2 ⟨hzeros _, h⟩⟩⟩
  · split
    · refine List.forall_mem_append.2 ⟨List.forall_mem_append.2 ⟨h, hzeros _⟩, ?_⟩
      cases keepPoint <;> decide
    · exact List.forall_mem_append.2 ⟨fun c hc => h c (List.mem_of_mem_take hc),
        List.forall_mem_cons.2 ⟨by decide, fun c hc => h c (List.mem_of_mem_drop hc)⟩⟩

theorem not_isBlank_of_mem_scientific {ds : List Char} (h : ∀ c ∈ ds, isBlank c = false)
    (e : Int) : ∀ c ∈ scientific ds e, isBlank c = false := by
  have hplaces : ∀ c ∈ (if ds.length = 1 then [] else '.' :: ds.drop 1), isBlank c = false := by
    split
    · decide
    · exact List.forall_mem_cons.2 ⟨by decide, fun c hc => h c (List.mem_of_mem_drop hc)⟩
  have hsign : ∀ c ∈ 'e' :: (if e < 0 then [] else ['+']), isBlank c = false := by
    split <;> decide
  unfold scientific
  simp only [List.forall_mem_append]
  exact ⟨⟨⟨fun c hc => h c (List.mem_of_mem_take hc), hplaces⟩, hsign⟩,
    not_isBlank_of_mem_signedDigits⟩

theorem not_isBlank_of_mem_write (l : Layout) (x : Binary64) :
    ∀ c ∈ l.write x, isBlank c = false := by
  have hmagnitude : ∀ c ∈ l.writeMagnitude x.magnitude, isBlank c = false := by
    unfold writeMagnitude
    split
    · split <;> decide
    · dsimp only
      split
      · exact not_isBlank_of_mem_placed not_isBlank_of_mem_digits _ _
      · exact not_isBlank_of_mem_scientific not_isBlank_of_mem_digits _
  have hbody : ∀ c ∈ (if x.isFinite then l.writeMagnitude x.magnitude else "inf".toList),
      isBlank c = false := by
    split
    · exact hmagnitude
    · decide
  unfold write
  split
  · decide
  · dsimp only
    split
    · exact List.forall_mem_cons.2 ⟨by decide, hbody⟩
    · exact hbody

end Layout

/-! ## Reading -/

namespace Decimal

/-- The number that a decimal stands for. -/
def value (d : Decimal) : Rat :=
  ((d.coefficient * 10 ^ d.exponent.toNat : Nat) : Rat) / ((10 ^ (-d.exponent).toNat : Nat) : Rat)

/-- The run of digits that a text begins with. -/
theorem span_digits {ds rest : List Char} (hds : ∀ c ∈ ds, c.isDigit)
    (hrest : ∀ c ∈ rest.head?, ¬ c.isDigit) :
    (ds ++ rest).takeWhile Char.isDigit = ds ∧ (ds ++ rest).dropWhile Char.isDigit = rest := by
  rw [List.takeWhile_append_of_pos hds, List.dropWhile_append_of_pos hds]
  cases rest with
  | nil => exact ⟨List.append_nil ds, rfl⟩
  | cons c rest =>
    rw [List.takeWhile_cons_of_neg (hrest c rfl), List.dropWhile_cons_of_neg (hrest c rfl)]
    exact ⟨List.append_nil ds, rfl⟩

/-- Digits without a point are read with the exponent that follows them. -/
theorem read_append {ds rest : List Char} (hds : ∀ c ∈ ds, c.isDigit)
    (hrest : ∀ c ∈ rest.head?, ¬ c.isDigit ∧ c ≠ '.') :
    read (ds ++ rest) =
      if ds = [] then none else (readExponent rest).map fun e => ⟨valueOfDigits 0 ds, e⟩ := by
  obtain ⟨htake, hdrop⟩ := span_digits hds fun c hc => (hrest c hc).1
  unfold read
  rw [htake, hdrop]
  dsimp only
  split
  · exact absurd rfl (hrest '.' rfl).2
  · simp

/-- Digits with a point are read with the exponent that follows them. -/
theorem read_append_point {ds ps rest : List Char} (hds : ∀ c ∈ ds, c.isDigit)
    (hps : ∀ c ∈ ps, c.isDigit) (hrest : ∀ c ∈ rest.head?, ¬ c.isDigit) :
    read (ds ++ '.' :: (ps ++ rest)) =
      if ds ++ ps = [] then none
      else (readExponent rest).map fun e => ⟨valueOfDigits 0 (ds ++ ps), e - ps.length⟩ := by
  have hpoint : ∀ c ∈ ('.' :: (ps ++ rest)).head?, ¬ c.isDigit := by
    rintro c ⟨⟩
    decide
  obtain ⟨htake, hdrop⟩ := span_digits hds hpoint
  obtain ⟨htake', hdrop'⟩ := span_digits hps hrest
  unfold read
  simp only [htake, hdrop, htake', hdrop', Bool.and_eq_true, List.isEmpty_iff,
    List.append_eq_nil_iff]

theorem read_whole {ds : List Char} (hne : ds ≠ []) (hds : ∀ c ∈ ds, c.isDigit) :
    Decimal.read ds = some ⟨valueOfDigits 0 ds, 0⟩ := by
  have h := @read_append ds [] hds nofun
  rwa [List.append_nil, if_neg hne] at h

theorem read_places {ds es : List Char} (hne : ds ≠ []) (hds : ∀ c ∈ ds, c.isDigit)
    (hes : ∀ c ∈ es, c.isDigit) :
    Decimal.read (ds ++ '.' :: es) = some ⟨valueOfDigits 0 (ds ++ es), -(es.length : Int)⟩ := by
  have h := @read_append_point ds es [] hds hes nofun
  rw [List.append_nil, if_neg (List.append_ne_nil_of_left_ne_nil hne es)] at h
  rw [h, readExponent, Option.map_some, Int.zero_sub]

end Decimal

end SkyDiscovery
