import SkyDiscovery.Proofs.Number.RoundTrip
import SkyDiscovery.Proofs.Sql.Parser

/-!
# Operands and tests in query texts

How the pieces of a test are read: a plain name is a column, a quoted text is a text, and a printed
number is an operand whatever its value.  Tests are put together from operands, one rule for each
form that a query text uses.

* `operates_column`, `operates_text`, `operates_number`: the operands.
* `Operates.compare`, `Operates.like`, `Operates.between`, `Operates.isNull`: the tests.
-/

namespace SkyDiscovery.Sql

/-! ## Operands -/

theorem Identifier.isWordChar {name : String} (h : Identifier name) :
    ∀ c ∈ name.toList, isWordChar c := by
  unfold Identifier isIdentifier at h
  split at h
  · exact absurd h (by decide)
  · next c w heq =>
    rw [heq]
    simp only [Bool.and_eq_true, Bool.or_eq_true, beq_iff_eq, List.all_eq_true] at h
    obtain ⟨⟨hc, hw⟩, -⟩ := h
    intro x hx
    rcases List.mem_cons.1 hx with rfl | hx
    · rcases hc with hc | rfl
      · simp [Sql.isWordChar, Char.isAlphanum, hc]
      · decide
    · rcases hw x hx with hx | rfl
      · simp [Sql.isWordChar, hx]
      · decide

theorem Identifier.spells {name : String} (h : Identifier name) :
    Spells name.toList [.word name.toList] := by
  have hw := h.isWordChar
  unfold Identifier isIdentifier at h
  split at h
  · exact absurd h (by decide)
  · next c w heq =>
    simp only [Bool.and_eq_true, Option.isNone_iff_eq_none] at h
    refine spells_word (by simp [heq]) hw ?_
    rw [heq]
    exact h.2

theorem operates_column {name : String} (h : Identifier name) :
    Operates name.toList (.column name.toList) := by
  refine ⟨[.word name.toList], h.spells, by simp [Ordinary], fun rest => ?_⟩
  have hcolumn : operandOfWord? name.toList = some (.column name.toList) := by
    unfold Identifier isIdentifier at h
    split at h
    · exact absurd h (by decide)
    · next c w heq =>
      rw [heq]
      simp only [Bool.and_eq_true, Bool.or_eq_true, beq_iff_eq] at h
      have hc : c.isDigit = false := by
        rcases h.1.1 with hc | rfl
        · exact Text.not_isDigit_of_isAlpha hc
        · decide
      rw [operandOfWord?, if_neg (by simp [hc])]
  simp [operand?, hcolumn]

theorem operates_text (s : String) : Operates (SkyDiscovery.literal s).toList (.text s.toList) :=
  ⟨[.literal s.toList], spells_literal s, by simp [Ordinary], fun _ => rfl⟩

theorem operates_word {w : List Char} (hw : ∀ c ∈ w, isWordChar c)
    (hkeyword : keyword? w = none) {x : Operand} (hx : operandOfWord? w = some x) :
    Operates w x ∧ Operates ('-' :: w) (.negative x) := by
  have hne : w ≠ [] := by rintro rfl; simp [operandOfWord?] at hx
  refine ⟨⟨[.word w], spells_word hne hw hkeyword, by simp [Ordinary], fun rest => ?_⟩,
    ⟨[.operator ['-'], .word w], ?_, by simp [Ordinary], fun rest => ?_⟩⟩
  · simp [operand?, hx]
  · have := spells_negative hne hw
    rwa [Token.recognize, hkeyword] at this
  · simp [operand?, hx]

/-- The operand that a printed number is read as.  A number that is not finite is read as a
column. -/
def Operand.ofNumber (x : Binary64) : Operand :=
  let body : Operand :=
    if x.isFinite then .number (Decimal.shortest .upward x.magnitude).value
    else .column "inf".toList
  if x.isNaN then .column "NaN".toList else if x.isNegative then .negative body else body

/-- A numeral is no keyword, and it is read as the number that it writes. -/
theorem operandOfWord?_writeMagnitude (m : ℕ) :
    (∀ c ∈ Layout.plain.writeMagnitude m, isWordChar c) ∧
      keyword? (Layout.plain.writeMagnitude m) = none ∧
      operandOfWord? (Layout.plain.writeMagnitude m) =
        some (.number (Decimal.shortest .upward m).value) := by
  have h := plainNumeral_writeMagnitude m
  obtain ⟨value, hread, hvalue⟩ := Decimal.exists_read_writeMagnitude m
  obtain ⟨d, ds, hhead, hd⟩ := h.head
  refine ⟨fun c hc => ?_, ?_, ?_⟩
  · rcases h.isDigit_or_point hc with hc | rfl
    · exact isWordChar_of_isDigit hc
    · decide
  · rw [hhead]
    exact keyword?_of_isDigit hd ds
  · rw [hhead] at hread ⊢
    rw [operandOfWord?, if_pos hd, hread, Option.map_some, hvalue]

/-- A printed number is an operand. -/
theorem operates_number (x : Float) :
    Operates (plainText x).toList (.ofNumber (.ofFloat x)) := by
  rw [plainText, Binary64.text, String.toList_ofList]
  generalize Binary64.ofFloat x = x
  unfold Layout.write Operand.ofNumber
  by_cases hnan : x.isNaN
  · rw [if_pos hnan, if_pos hnan]
    exact (operates_word (by decide) (by decide) rfl).1
  rw [if_neg hnan, if_neg hnan]
  have hbody : ∀ body o, ((∀ c ∈ body, isWordChar c) ∧ keyword? body = none ∧
      operandOfWord? body = some o) →
      Operates (if x.isNegative then '-' :: body else body)
        (if x.isNegative then .negative o else o) := by
    rintro body o ⟨hchars, hkeyword, ho⟩
    split
    · exact (operates_word hchars hkeyword ho).2
    · exact (operates_word hchars hkeyword ho).1
  by_cases hfinite : x.isFinite
  · simp only [if_pos hfinite]
    exact hbody _ _ (operandOfWord?_writeMagnitude x.magnitude)
  · simp only [if_neg hfinite]
    exact hbody _ _ ⟨by decide, by decide, rfl⟩

/-! ## Tests -/

section
variable {a b c : List Char} {x y z : Operand}

/-- An operand and ordinary tokens that make a test of it. -/
theorem Operates.test {tail : List Char} {us : List Token} {u : Test} (hx : Operates a x)
    (htail : Spells tail us) (hus : ∀ t ∈ us, Ordinary t) (hu : testOf? x us = some u) :
    Reads (a ++ ' ' :: tail) [.test u] := by
  obtain ⟨ts, hts, hordinary, hoperand⟩ := hx
  refine reads_of_ordinary (hts.blank htail) (fun t ht => ?_) ?_
  · rcases List.mem_append.1 ht with ht | ht
    · exact hordinary t ht
    · exact hus t ht
  · rw [test?, hoperand]
    exact hu

theorem Operates.isNull (h : Operates a x) :
    Reads (a ++ " IS NULL".toList) [.test (.isNull x)] := by
  have htail : Spells ("IS".toList ++ ' ' :: "NULL".toList) [.keyword .is, .keyword .null] :=
    (spells_wordChars (by decide) (by decide)).blank (spells_wordChars (by decide) (by decide))
  exact h.test htail (by decide) rfl

theorem Operates.isNotNull (h : Operates a x) :
    Reads (a ++ " IS NOT NULL".toList) [.test (.isNotNull x)] := by
  have htail : Spells ("IS".toList ++ ' ' :: ("NOT".toList ++ ' ' :: "NULL".toList))
      [.keyword .is, .keyword .not, .keyword .null] :=
    (spells_wordChars (by decide) (by decide)).blank
      ((spells_wordChars (by decide) (by decide)).blank
        (spells_wordChars (by decide) (by decide)))
  exact h.test htail (by decide) rfl

theorem Operates.last (h : Operates b y) : ∃ us, Spells b us ∧ (∀ t ∈ us, Ordinary t) ∧
    lastOperand? us = some y := by
  obtain ⟨us, hus, hordinary, hoperand⟩ := h
  refine ⟨us, hus, hordinary, ?_⟩
  have := hoperand []
  rw [List.append_nil] at this
  rw [lastOperand?, this]

/-- Two operands with a sign between them that is no conjunction. -/
theorem Operates.infix {sign : List Char} {t : Token} {u : Test} (hx : Operates a x)
    (hsign : Spells sign [t]) (ht : Ordinary t) (hy : Operates b y)
    (hu : ∀ us, lastOperand? us = some y → testOf? x (t :: us) = some u) :
    Reads (a ++ ' ' :: (sign ++ ' ' :: b)) [.test u] := by
  obtain ⟨us, hus, hordinary, hlast⟩ := hy.last
  refine hx.test (hsign.blank hus) (fun v hv => ?_) (hu us hlast)
  rcases List.mem_cons.1 hv with rfl | hv
  · exact ht
  · exact hordinary v hv

theorem Operates.like (hx : Operates a x) (hy : Operates b y) :
    Reads (a ++ " LIKE ".toList ++ b) [.test (.like x y)] := by
  have hsign : Spells "LIKE".toList [.keyword .like] := spells_wordChars (by decide) (by decide)
  have := hx.infix hsign (by decide) hy (u := .like x y) fun us hus => by
    rw [testOf?, hus, Option.map_some]
  simpa using this

theorem Operates.compare {sign : List Char} {r : Relation} (hx : Operates a x)
    (hsign : Spells sign [.operator sign]) (hr : relation? sign = some r) (hy : Operates b y) :
    Reads (a ++ ' ' :: (sign ++ ' ' :: b)) [.test (.compare r x y)] := by
  refine hx.infix hsign ?_ hy fun us hus => ?_
  · simp [Ordinary]
  · simp [testOf?, hr, hus]

theorem spells_atMost : Spells "<=".toList [.operator "<=".toList] :=
  spells_operator (by decide) (by decide) (by decide)

theorem spells_atLeast : Spells ">=".toList [.operator ">=".toList] :=
  spells_operator (by decide) (by decide) (by decide)

theorem spells_equals : Spells "=".toList [.operator "=".toList] :=
  spells_operator (by decide) (by decide) (by decide)

theorem Operates.between (hx : Operates a x) (hy : Operates b y) (hz : Operates c z) :
    Reads (a ++ " BETWEEN ".toList ++ b ++ " AND ".toList ++ c) [.test (.between x y z)] := by
  obtain ⟨ts, hts, hordinary, hoperand⟩ := hx
  obtain ⟨us, hus, hordinary', hoperand'⟩ := hy
  obtain ⟨vs, hvs, hordinary'', hlast⟩ := hz.last
  have hbetween : Spells "BETWEEN".toList [.keyword .between] :=
    spells_wordChars (by decide) (by decide)
  have hspells := hts.blank (hbetween.blank (hus.blank (spells_and.blank hvs)))
  have htest : test? (ts ++ .keyword .between :: (us ++ .keyword .and :: vs)) =
      some (.between x y z) := by
    rw [test?, hoperand]
    simp [testOf?, hoperand', hlast]
  have := reads_of_between (by simpa using hspells) hordinary rfl hordinary' hordinary'' htest
  simpa using this

end

end SkyDiscovery.Sql
