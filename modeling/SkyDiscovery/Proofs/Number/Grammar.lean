import SkyDiscovery.Proofs.Number.Nearest

/-!
# The grammar of numbers

A whole number is a run of digits and may have a sign; a decimal number may have a point and an
exponent besides.  Texts are read by this grammar: a whole number as it is, and a decimal number as
the double nearest to it.  A decimal number that is too large, or a word for an infinity or a NaN,
is read as well, but not as a finite double.

* `Text.readInt_eq_some_iff`: which texts are whole numbers.
* `Decimal.read_eq_some_iff`: which texts are decimal numbers without a sign.
* `Binary64.read_finite_iff`: which texts are read as a given finite double.
* `Binary64.read_nonfinite_iff`: which texts are read, but not as a finite double.
-/

namespace SkyDiscovery

namespace Text

/-! ## Signs -/

/-- The text is the body after a minus sign, or after a plus sign or none. -/
inductive Signed (body : List Char) : Bool → List Char → Prop where
  | absent : Signed body false body
  | plus : Signed body false ('+' :: body)
  | minus : Signed body true ('-' :: body)

/-- Whether a text has a minus sign, and what follows its sign. -/
def splitSign : List Char → Bool × List Char
  | '-' :: cs => (true, cs)
  | '+' :: cs => (false, cs)
  | cs => (false, cs)

theorem signed_splitSign (cs : List Char) : Signed (splitSign cs).2 (splitSign cs).1 cs := by
  unfold splitSign
  split
  · exact .minus
  · exact .plus
  · exact .absent

/-- A text begins with none of the two signs. -/
def IsUnsigned (cs : List Char) : Prop :=
  ∀ c ∈ cs.head?, c ≠ '+' ∧ c ≠ '-'

theorem Signed.splitSign_eq {body cs : List Char} {negative : Bool} (h : Signed body negative cs)
    (hbody : IsUnsigned body) : splitSign cs = (negative, body) := by
  cases h with
  | minus => rfl
  | plus => rfl
  | absent =>
    unfold splitSign
    split
    · exact absurd rfl (hbody '-' rfl).2
    · exact absurd rfl (hbody '+' rfl).1
    · rfl

/-- What has no sign of its own can be found behind the sign of a text. -/
theorem exists_signed_iff {p : Bool → List Char → Prop}
    (hp : ∀ negative body, p negative body → IsUnsigned body) (cs : List Char) :
    (∃ negative body, Signed body negative cs ∧ p negative body) ↔
      p (splitSign cs).1 (splitSign cs).2 := by
  constructor
  · rintro ⟨negative, body, hsigned, h⟩
    rwa [hsigned.splitSign_eq (hp _ _ h)]
  · exact fun h => ⟨_, _, signed_splitSign cs, h⟩

/-! ## Whole numbers -/

/-- A run of digits, at least one. -/
def IsDigits (ds : List Char) : Prop :=
  ds ≠ [] ∧ ∀ c ∈ ds, c.isDigit

theorem isUnsigned_of_isDigit_or_point {cs : List Char} (h : ∀ c ∈ cs.head?, c.isDigit ∨ c = '.') :
    IsUnsigned cs := by
  intro c hc
  constructor
  · rintro rfl
    exact absurd (h _ hc) (by decide)
  · rintro rfl
    exact absurd (h _ hc) (by decide)

theorem IsDigits.isUnsigned {ds : List Char} (h : IsDigits ds) : IsUnsigned ds :=
  isUnsigned_of_isDigit_or_point fun c hc => .inl (h.2 c (List.mem_of_mem_head? hc))

theorem readNat_eq_some_iff {cs : List Char} {n : ℕ} :
    readNat cs = some n ↔ IsDigits cs ∧ n = valueOfDigits 0 cs := by
  have hdigits : cs ≠ [] ∧ cs.all Char.isDigit ↔ IsDigits cs := by
    rw [List.all_eq_true, IsDigits]
  rw [readNat]
  split_ifs with h
  · rw [Option.some_inj]
    exact ⟨fun heq => ⟨hdigits.1 h, heq.symm⟩, fun heq => heq.2.symm⟩
  · exact iff_of_false not_false fun heq => h (hdigits.2 heq.1)

/-- A number with a sign before it. -/
def withSign (negative : Bool) (n : ℕ) : ℤ :=
  if negative then -n else n

/-- The text is the whole number, in digits that may have a sign before them. -/
def WritesInt (cs : List Char) (n : ℤ) : Prop :=
  ∃ negative ds, Signed ds negative cs ∧ IsDigits ds ∧ n = withSign negative (valueOfDigits 0 ds)

theorem readInt_eq (cs : List Char) :
    readInt cs = (readNat (splitSign cs).2).map (withSign (splitSign cs).1) := by
  unfold readInt
  split
  · next cs =>
    show _ = (readNat cs).map (withSign true)
    cases readNat cs <;> rfl
  · rfl
  · next hminus hplus =>
    rw [splitSign.eq_3 cs hminus hplus]
    rfl

theorem readInt_eq_some_iff {cs : List Char} {n : ℤ} : readInt cs = some n ↔ WritesInt cs n := by
  rw [WritesInt, exists_signed_iff (fun _ _ h => h.1.isUnsigned), readInt_eq,
    Option.map_eq_some_iff]
  constructor
  · rintro ⟨k, hk, rfl⟩
    obtain ⟨hdigits, rfl⟩ := readNat_eq_some_iff.1 hk
    exact ⟨hdigits, rfl⟩
  · rintro ⟨hdigits, rfl⟩
    exact ⟨_, readNat_eq_some_iff.2 ⟨hdigits, rfl⟩, rfl⟩

theorem readInt64_eq_some_iff {cs : List Char} {n : ℤ} :
    readInt64 cs = some n ↔ WritesInt cs n ∧ -2 ^ 63 ≤ n ∧ n < 2 ^ 63 := by
  rw [readInt64, Option.filter_eq_some_iff, readInt_eq_some_iff, Bool.and_eq_true,
    decide_eq_true_eq, decide_eq_true_eq]
  rfl

end Text

/-! ## Decimal numbers -/

namespace Decimal

open Text

/-- The text is an exponent, or there is none. -/
inductive WritesExponent : List Char → ℤ → Prop where
  | absent : WritesExponent [] 0
  | present {c : Char} {cs : List Char} {n : ℤ} : c = 'e' ∨ c = 'E' → WritesInt cs n →
      WritesExponent (c :: cs) n

/-- The text is a decimal number without a sign: digits, with at most one point before, among or
after them, and then maybe an exponent.  Each digit behind the point takes one from the exponent. -/
inductive Writes : List Char → Decimal → Prop where
  | whole {ds es : List Char} {e : ℤ} : IsDigits ds → WritesExponent es e →
      Writes (ds ++ es) ⟨valueOfDigits 0 ds, e⟩
  | places {ds ps es : List Char} {e : ℤ} : IsDigits (ds ++ ps) → WritesExponent es e →
      Writes (ds ++ '.' :: (ps ++ es)) ⟨valueOfDigits 0 (ds ++ ps), e - ps.length⟩

theorem readExponent_eq_some_iff {cs : List Char} {n : ℤ} :
    readExponent cs = some n ↔ WritesExponent cs n := by
  cases cs with
  | nil =>
    constructor
    · rintro ⟨⟩
      exact .absent
    · rintro ⟨⟩
      rfl
  | cons c cs =>
    rw [readExponent]
    split_ifs with hc
    · rw [readInt_eq_some_iff]
      refine ⟨.present hc, fun h => ?_⟩
      cases h with
      | present _ h => exact h
    · refine iff_of_false not_false fun h => ?_
      cases h with
      | present h _ => exact hc h

/-- Neither a digit nor a point begins an exponent. -/
theorem WritesExponent.head {es : List Char} {e : ℤ} (h : WritesExponent es e) :
    ∀ c ∈ es.head?, ¬ c.isDigit ∧ c ≠ '.' := by
  cases h with
  | absent => exact nofun
  | present hc _ =>
    rintro c ⟨⟩
    rcases hc with rfl | rfl
    · decide
    · decide

/-- Every text is a run of digits and what follows it. -/
theorem exists_digits_append (cs : List Char) :
    ∃ ds rest, cs = ds ++ rest ∧ (∀ c ∈ ds, c.isDigit) ∧ ∀ c ∈ rest.head?, ¬ c.isDigit := by
  refine ⟨cs.takeWhile Char.isDigit, cs.dropWhile Char.isDigit,
    List.takeWhile_append_dropWhile.symm, fun _ hc => List.mem_takeWhile_imp hc, fun c hc => ?_⟩
  have hstop := List.head?_dropWhile_not Char.isDigit cs
  rw [Option.mem_def.1 hc] at hstop
  exact Bool.eq_false_iff.1 hstop

/-- Just the decimal numbers are read. -/
theorem read_eq_some_iff {cs : List Char} {d : Decimal} : read cs = some d ↔ Writes cs d := by
  constructor
  · intro h
    obtain ⟨ds, rest, rfl, hds, hrest⟩ := exists_digits_append cs
    -- what follows the first digits is a point and further digits, or already the exponent
    by_cases hpoint : rest.head? = some '.'
    · obtain ⟨rest, rfl⟩ := List.head?_eq_some_iff.1 hpoint
      obtain ⟨ps, rest, rfl, hps, hrest⟩ := exists_digits_append rest
      rw [read_append_point hds hps hrest] at h
      split_ifs at h with hne
      obtain ⟨e, he, rfl⟩ := Option.map_eq_some_iff.1 h
      exact .places ⟨hne, List.forall_mem_append.2 ⟨hds, hps⟩⟩ (readExponent_eq_some_iff.1 he)
    · rw [read_append hds fun c hc => ⟨hrest c hc, fun hc' => hpoint (hc' ▸ hc)⟩] at h
      split_ifs at h with hne
      obtain ⟨e, he, rfl⟩ := Option.map_eq_some_iff.1 h
      exact .whole ⟨hne, hds⟩ (readExponent_eq_some_iff.1 he)
  · intro h
    cases h with
    | whole hds hes =>
      rw [read_append hds.2 hes.head, if_neg hds.1, readExponent_eq_some_iff.2 hes]
      rfl
    | places hdigits hes =>
      obtain ⟨hds, hps⟩ := List.forall_mem_append.1 hdigits.2
      rw [read_append_point hds hps fun c hc => (hes.head c hc).1, if_neg hdigits.1,
        readExponent_eq_some_iff.2 hes]
      rfl

/-- A decimal number begins with a digit or with its point. -/
theorem Writes.head {cs : List Char} {d : Decimal} (h : Writes cs d) :
    ∀ c ∈ cs.head?, c.isDigit ∨ c = '.' := by
  have hdigit {ds : List Char} (hds : ∀ c ∈ ds, c.isDigit) (hne : ds ≠ []) (rest : List Char) :
      ∀ c ∈ (ds ++ rest).head?, c.isDigit := by
    intro c hc
    rw [List.head?_append_of_ne_nil _ hne] at hc
    exact hds c (List.mem_of_mem_head? hc)
  cases h with
  | whole hds _ => exact fun c hc => .inl (hdigit hds.2 hds.1 _ c hc)
  | @places ds _ _ _ hdigits _ =>
    by_cases hne : ds = []
    · rintro c hc
      rw [hne] at hc
      exact .inr (Option.some.inj hc).symm
    · exact fun c hc => .inl (hdigit (List.forall_mem_append.1 hdigits.2).1 hne _ c hc)

theorem Writes.isUnsigned {cs : List Char} {d : Decimal} (h : Writes cs d) : IsUnsigned cs :=
  isUnsigned_of_isDigit_or_point h.head

end Decimal

/-! ## Doubles -/

namespace Binary64

open Text

/-- The text is a word for an infinity or a NaN, in letters of any case. -/
def IsWord (cs : List Char) : Prop :=
  cs.map Char.toLower ∈ ["inf".toList, "infinity".toList, "nan".toList]

instance (cs : List Char) : Decidable (IsWord cs) :=
  List.instDecidableMemOfLawfulBEq _ _

/-- The text is a decimal number, and the double is a finite one and nearest to it. -/
structure WritesFinite (cs : List Char) (x : Binary64) : Prop where
  finite : x.isFinite
  nearest : ∃ body d, Signed body x.isNegative cs ∧ Decimal.Writes body d ∧
    IsNearest d.value x.magnitude

/-- The text is a decimal number too large for a finite double, or a word for an infinity or a
NaN. -/
inductive WritesNonfinite (cs : List Char) : Prop where
  | large {negative : Bool} {body : List Char} {d : Decimal} : Signed body negative cs →
      Decimal.Writes body d → 2 ^ 1024 - 2 ^ 970 ≤ d.value → WritesNonfinite cs
  | word {negative : Bool} {body : List Char} : Signed body negative cs → IsWord body →
      WritesNonfinite cs

theorem IsWord.head {cs : List Char} (h : IsWord cs) :
    ∃ c rest, cs = c :: rest ∧ (c.toLower = 'i' ∨ c.toLower = 'n') := by
  cases cs with
  | nil => exact absurd h (by decide)
  | cons c rest =>
    refine ⟨c, rest, rfl, ?_⟩
    rw [IsWord, List.map_cons, List.mem_cons, List.mem_cons, List.mem_singleton] at h
    rcases h with h | h | h
    · exact .inl (List.cons.inj h).1
    · exact .inl (List.cons.inj h).1
    · exact .inr (List.cons.inj h).1

theorem IsWord.isUnsigned {cs : List Char} (h : IsWord cs) : IsUnsigned cs := by
  obtain ⟨c, rest, rfl, hc⟩ := h.head
  rintro c ⟨⟩
  constructor
  · rintro rfl
    exact absurd hc (by decide)
  · rintro rfl
    exact absurd hc (by decide)

/-- No word is a decimal number. -/
theorem IsWord.decimalRead {cs : List Char} (h : IsWord cs) : Decimal.read cs = none := by
  obtain ⟨c, rest, rfl, hc⟩ := h.head
  rw [Option.eq_none_iff_forall_ne_some]
  intro d hd
  rcases (Decimal.read_eq_some_iff.1 hd).head c rfl with hdigit | rfl
  · rw [toLower_of_isDigit hdigit] at hc
    rcases hc with rfl | rfl
    · exact absurd hdigit (by decide)
    · exact absurd hdigit (by decide)
  · exact absurd hc (by decide)

theorem toNat_bits_ofMagnitude (negative : Bool) {m : ℕ} (h : m < 2 ^ 63) :
    (ofMagnitude negative m).bits.toNat = if negative then 2 ^ 63 + m else m := by
  refine UInt64.toNat_ofNat_of_lt' ?_
  rw [UInt64.size]
  split_ifs <;> omega

theorem isNegative_ofMagnitude (negative : Bool) {m : ℕ} (h : m < 2 ^ 63) :
    (ofMagnitude negative m).isNegative = negative := by
  rw [isNegative, toNat_bits_ofMagnitude negative h]
  cases negative with
  | false => exact decide_eq_false (Nat.not_le.2 h)
  | true => exact decide_eq_true (Nat.le_add_right _ _)

theorem magnitude_ofMagnitude (negative : Bool) {m : ℕ} (h : m < 2 ^ 63) :
    (ofMagnitude negative m).magnitude = m := by
  rw [magnitude, toNat_bits_ofMagnitude negative h]
  split_ifs <;> omega

theorem isFinite_iff (x : Binary64) : x.isFinite ↔ x.magnitude < infinite :=
  decide_eq_true_iff

/-- The double of a decimal has its sign, and the nearest magnitude up to that of infinity. -/
theorem exists_isNearest_ofMagnitude (negative : Bool) (d : Decimal) :
    ∃ m, IsNearest d.value m ∧ (ofMagnitude negative d.nearest).isNegative = negative ∧
      (ofMagnitude negative d.nearest).magnitude = min infinite m := by
  obtain ⟨m, hm, hnearest⟩ := d.exists_isNearest_nearest
  have hlt : min infinite m < 2 ^ 63 := (Nat.min_le_left infinite m).trans_lt (by decide)
  rw [hnearest]
  exact ⟨m, hm, isNegative_ofMagnitude negative hlt, magnitude_ofMagnitude negative hlt⟩

/-- Words are read as an infinity or a NaN, and nothing else is read as a word. -/
theorem readWord_eq_none_or (negative : Bool) (cs : List Char) :
    (¬ IsWord cs ∧ readWord negative cs = none) ∨
      (IsWord cs ∧ ∃ x, readWord negative cs = some x ∧ ¬ x.isFinite) := by
  have hinfinity : ¬ (infinity negative).isFinite := by cases negative <;> decide
  have hnan : ¬ (nan negative).isFinite := by cases negative <;> decide
  rw [IsWord, List.mem_cons, List.mem_cons, List.mem_singleton, ← or_assoc, readWord]
  split_ifs with h h'
  · exact .inr ⟨.inl h, _, rfl, hinfinity⟩
  · exact .inr ⟨.inr h', _, rfl, hnan⟩
  · exact .inl ⟨not_or.2 ⟨h, h'⟩, rfl⟩

/-- A text is read as a decimal number or as a word. -/
theorem readUnsigned_cases {negative : Bool} {body : List Char} {x : Binary64}
    (h : readUnsigned negative body = some x) :
    (∃ d, Decimal.Writes body d ∧ x = ofMagnitude negative d.nearest) ∨
      (IsWord body ∧ ¬ x.isFinite) := by
  unfold readUnsigned at h
  split at h
  · next d hd => exact .inl ⟨d, Decimal.read_eq_some_iff.1 hd, (Option.some.inj h).symm⟩
  · rcases readWord_eq_none_or negative body with ⟨-, hnone⟩ | ⟨hword, y, hy, hinfinite⟩
    · cases hnone.symm.trans h
    · obtain rfl := Option.some.inj (hy.symm.trans h)
      exact .inr ⟨hword, hinfinite⟩

theorem readUnsigned_of_writes {body : List Char} {d : Decimal} (h : Decimal.Writes body d)
    (negative : Bool) : readUnsigned negative body = some (ofMagnitude negative d.nearest) := by
  rw [readUnsigned, Decimal.read_eq_some_iff.2 h]

theorem exists_readUnsigned_of_isWord {body : List Char} (h : IsWord body) (negative : Bool) :
    ∃ x, readUnsigned negative body = some x ∧ ¬ x.isFinite := by
  rcases readWord_eq_none_or negative body with ⟨hno, -⟩ | ⟨-, hread⟩
  · exact absurd h hno
  · rwa [readUnsigned, h.decimalRead]

theorem read_eq (cs : List Char) : read cs = readUnsigned (splitSign cs).1 (splitSign cs).2 := by
  unfold read
  split
  · rfl
  · rfl
  · next hminus hplus => rw [splitSign.eq_3 cs hminus hplus]

/-- A finite double is read from the decimal numbers to which it is the nearest. -/
theorem read_finite_iff {cs : List Char} {x : Binary64} :
    read cs = some x ∧ x.isFinite ↔ WritesFinite cs x := by
  constructor
  · rintro ⟨hread, hfinite⟩
    rw [read_eq] at hread
    rcases readUnsigned_cases hread with ⟨d, hd, rfl⟩ | ⟨-, hinfinite⟩
    · obtain ⟨m, hm, hnegative, hmagnitude⟩ := exists_isNearest_ofMagnitude (splitSign cs).1 d
      have hlt := (isFinite_iff _).1 hfinite
      rw [hmagnitude, min_lt_iff, or_iff_right (lt_irrefl _)] at hlt
      refine ⟨hfinite, _, d, ?_, hd, ?_⟩
      · rw [hnegative]
        exact signed_splitSign cs
      · rwa [hmagnitude, Nat.min_eq_right hlt.le]
    · exact absurd hfinite hinfinite
  · rintro ⟨hfinite, body, d, hsigned, hd, hnearest⟩
    refine ⟨?_, hfinite⟩
    obtain ⟨m, hm, hmin⟩ := d.exists_isNearest_nearest
    obtain rfl := hm.unique hnearest
    rw [read_eq, hsigned.splitSign_eq hd.isUnsigned, readUnsigned_of_writes hd, hmin,
      Nat.min_eq_right ((isFinite_iff x).1 hfinite).le, ofMagnitude_isNegative_magnitude]

/-- The other doubles are read from the decimal numbers that are too large and from the words. -/
theorem read_nonfinite_iff {cs : List Char} :
    (∃ x, read cs = some x ∧ ¬ x.isFinite) ↔ WritesNonfinite cs := by
  have hlarge (negative : Bool) (d : Decimal) :
      ¬ (ofMagnitude negative d.nearest).isFinite ↔ 2 ^ 1024 - 2 ^ 970 ≤ d.value := by
    obtain ⟨m, hm, -, hmagnitude⟩ := exists_isNearest_ofMagnitude negative d
    rw [isFinite_iff, hmagnitude, not_lt, le_min_iff, and_iff_right le_rfl, hm.infinite_le_iff]
  constructor
  · rintro ⟨x, hread, hinfinite⟩
    rw [read_eq] at hread
    rcases readUnsigned_cases hread with ⟨d, hd, rfl⟩ | ⟨hword, -⟩
    · exact .large (signed_splitSign cs) hd ((hlarge _ d).1 hinfinite)
    · exact .word (signed_splitSign cs) hword
  · intro h
    cases h with
    | large hsigned hd hvalue =>
      rw [read_eq, hsigned.splitSign_eq hd.isUnsigned, readUnsigned_of_writes hd]
      exact ⟨_, rfl, (hlarge _ _).2 hvalue⟩
    | word hsigned hword =>
      rw [read_eq, hsigned.splitSign_eq hword.isUnsigned]
      exact exists_readUnsigned_of_isWord hword _

end Binary64

end SkyDiscovery
