import SkyDiscovery.Calendar.Reader
import SkyDiscovery.Proofs.Number.RoundTrip
import SkyDiscovery.Proofs.Text.Character

/-!
# Reading fields of dates

Every field of a date is a run of digits.  What the readers skip or use up is never the letter `Z`,
which only the full timestamp has a place for.

* `readDigits_append`, `exists_of_readDigits`: what a field reads.
* `proper_of_readDate`: an instant that was read is a leap second only where a minute ends.
* `readDate_of_zulu`: a text with a `Z` is read as a full timestamp or not at all.
-/

namespace SkyDiscovery.Calendar

open Text

/-! ## Digits -/

theorem readDigits_append {ds rest : List Char} (hds : ∀ c ∈ ds, c.isDigit) {least most : Nat}
    (hleast : least ≤ ds.length) (hmost : ds.length ≤ most)
    (hstop : ds.length = most ∨ ∀ c ∈ rest.head?, c.isDigit = false) :
    readDigits least most (ds ++ rest) = some (valueOfDigits 0 ds, rest) := by
  have htake : ((ds ++ rest).take most).takeWhile Char.isDigit = ds := by
    rw [List.take_append, List.take_of_length_le hmost, List.takeWhile_append_of_pos hds]
    rcases hstop with rfl | hstop
    · rw [Nat.sub_self, List.take_zero, List.takeWhile_nil, List.append_nil]
    · cases rest with
      | nil => rw [List.take_nil, List.takeWhile_nil, List.append_nil]
      | cons c cs =>
        cases hk : most - ds.length with
        | zero => rw [List.take_zero, List.takeWhile_nil, List.append_nil]
        | succ k =>
          have hc : ¬ c.isDigit = true := Bool.eq_false_iff.1 (hstop c rfl)
          rw [List.take_succ_cons, List.takeWhile_cons_of_neg hc, List.append_nil]
  rw [readDigits, htake, if_neg (by omega), List.drop_left]

theorem exists_of_readDigits {least most n : Nat} {cs rest : List Char}
    (h : readDigits least most cs = some (n, rest)) :
    ∃ ds, cs = ds ++ rest ∧ (∀ c ∈ ds, c.isDigit) ∧ least ≤ ds.length ∧ ds.length ≤ most ∧
      n = valueOfDigits 0 ds := by
  unfold readDigits at h
  generalize hds : (cs.take most).takeWhile Char.isDigit = ds at h
  obtain ⟨tail, htail⟩ : ds <+: cs :=
    hds ▸ (List.takeWhile_prefix _).trans (List.take_prefix most cs)
  dsimp only at h
  split at h
  · cases h
  · next hlength =>
    obtain ⟨rfl, rfl⟩ := Prod.mk.inj (Option.some.inj h)
    refine ⟨ds, ?_, ?_, by omega, ?_, rfl⟩
    · rw [← htail, List.drop_left]
    · intro c hc
      rw [← hds] at hc
      exact List.mem_takeWhile_imp hc
    · rw [← hds]
      exact (List.takeWhile_prefix _).length_le.trans (List.length_take_le most cs)

theorem readDigits_of_head {least most : Nat} (hleast : 0 < least) {c : Char}
    (hc : c.isDigit = false) (cs : List Char) : readDigits least most (c :: cs) = none := by
  cases h : readDigits least most (c :: cs) with
  | none => rfl
  | some p =>
    obtain ⟨ds, hds, hdigit, hlength, -⟩ := exists_of_readDigits h
    have hne : ds ≠ [] := List.ne_nil_of_length_pos (by omega)
    obtain ⟨d, ds, rfl⟩ := List.exists_cons_of_ne_nil hne
    rw [List.cons_append] at hds
    rw [(List.cons.inj hds).1, hdigit d List.mem_cons_self] at hc
    cases hc

theorem valueOfDigits_lt {ds : List Char} (h : ∀ c ∈ ds, c.isDigit) (start : Nat) :
    valueOfDigits start ds < (start + 1) * 10 ^ ds.length := by
  induction ds generalizing start with
  | nil => simp [valueOfDigits]
  | cons c ds ih =>
    have hc := (isDigit_iff c).1 (h c List.mem_cons_self)
    have hvalue : digitValue c ≤ 9 := by
      unfold digitValue
      omega
    calc valueOfDigits start (c :: ds)
        = valueOfDigits (start * 10 + digitValue c) ds := rfl
      _ < (start * 10 + digitValue c + 1) * 10 ^ ds.length :=
        ih (fun d hd => h d (List.mem_cons_of_mem _ hd)) _
      _ ≤ ((start + 1) * 10) * 10 ^ ds.length := Nat.mul_le_mul_right _ (by omega)
      _ = (start + 1) * 10 ^ (c :: ds).length := by
        rw [List.length_cons, Nat.pow_succ, Nat.mul_assoc, Nat.mul_comm 10]

/-! ## Leap seconds -/

/-- An instant is of less than a second, or is a leap second at the end of a minute. -/
structure Instant.Proper (t : Instant) : Prop where
  nanos_lt : t.nanos < 2_000_000_000
  leap : 1_000_000_000 ≤ t.nanos → t.seconds % 60 = 59

theorem readFraction_lt {n : Nat} {cs rest : List Char} (h : readFraction cs = some (n, rest)) :
    n < 1_000_000_000 := by
  unfold readFraction at h
  split at h
  · obtain ⟨⟨k, r⟩, hread, hpair⟩ := Option.map_eq_some_iff.1 h
    obtain ⟨ds, rfl, hdigit, -, hmost, rfl⟩ := exists_of_readDigits hread
    cases hpair
    have hlt := valueOfDigits_lt hdigit 0
    rw [List.length_append, Nat.add_sub_cancel]
    calc valueOfDigits 0 ds * 10 ^ (9 - ds.length)
        < 10 ^ ds.length * 10 ^ (9 - ds.length) :=
          Nat.mul_lt_mul_of_pos_right (by omega) (Nat.pow_pos (by decide))
      _ = 10 ^ 9 := by rw [← Nat.pow_add, Nat.add_sub_cancel' hmost]
  · cases h
    decide

theorem readOffset_mod {offset : Int} {cs rest : List Char}
    (h : readOffset cs = some (offset, rest)) : offset % 60 = 0 := by
  unfold readOffset at h
  cases cs with
  | nil => cases h
  | cons c cs =>
    dsimp only at h
    split at h
    · cases h
      rfl
    · simp only [Option.bind_eq_bind, Option.bind_eq_some_iff] at h
      obtain ⟨⟨hours, cs⟩, -, cs, -, ⟨minutes, cs⟩, -, h⟩ := h
      dsimp only at h
      split at h
      · split at h
        · cases h
          omega
        · split at h
          · cases h
            omega
          · cases h
      · cases h

theorem proper_of_finish {d : Day} {c : TimeOfDay} {offset : Int} {rest : List Char} {t : Instant}
    (h : finish d c offset rest = some t) (hnanos : c.nanos < 1_000_000_000)
    (hoffset : offset % 60 = 0) : t.Proper := by
  unfold finish at h
  split at h
  · next hvalid =>
    cases h
    have hsecond : c.second ≤ 60 := by
      simp only [TimeOfDay.isValid, Bool.and_eq_true, decide_eq_true_eq] at hvalid
      exact hvalid.2.2
    refine ⟨?_, fun hleap => ?_⟩ <;> simp only [Instant.ofLocal] at *
    · split <;> omega
    · split at hleap
      · push_cast
        omega
      · omega
  · cases h

theorem proper_of_readTimestamp {cs : List Char} {t : Instant} (h : readTimestamp cs = some t) :
    t.Proper := by
  simp only [readTimestamp, Option.bind_eq_bind, Option.bind_eq_some_iff] at h
  obtain ⟨⟨_, _⟩, -, _, -, ⟨_, _⟩, -, _, -, ⟨_, cs⟩, -, h⟩ := h
  cases cs with
  | nil => cases h
  | cons c cs =>
    dsimp only at h
    split at h
    · simp only [Option.bind_eq_some_iff] at h
      obtain ⟨_, -, ⟨_, _⟩, -, _, -, ⟨_, _⟩, -, _, -, ⟨_, _⟩, -, ⟨_, _⟩, hfraction, ⟨_, _⟩, hoffset,
        h⟩ := h
      exact proper_of_finish h (readFraction_lt hfraction) (readOffset_mod hoffset)
    · cases h

theorem proper_of_readDayTime {cs : List Char} {t : Instant} (h : readDayTime cs = some t) :
    t.Proper := by
  simp only [readDayTime, Option.bind_eq_bind, Option.bind_eq_some_iff] at h
  obtain ⟨⟨_, _⟩, -, _, -, ⟨_, _⟩, -, _, -, ⟨_, _⟩, -, _, -, ⟨_, _⟩, -, ⟨_, _⟩, hfraction, h⟩ := h
  exact proper_of_finish h (readFraction_lt hfraction) rfl

theorem proper_of_readDayMinute {cs : List Char} {t : Instant} (h : readDayMinute cs = some t) :
    t.Proper := by
  simp only [readDayMinute, Option.bind_eq_bind, Option.bind_eq_some_iff] at h
  obtain ⟨⟨_, _⟩, -, _, -, ⟨_, _⟩, -, _, -, ⟨_, _⟩, -, h⟩ := h
  exact proper_of_finish h (Nat.zero_lt_succ _) rfl

theorem proper_of_readWholeDay {cs : List Char} {t : Instant} (h : readWholeDay cs = some t) :
    t.Proper := by
  simp only [readWholeDay, Option.bind_eq_bind, Option.bind_eq_some_iff] at h
  obtain ⟨⟨_, _⟩, -, h⟩ := h
  exact proper_of_finish h (by decide) rfl

theorem proper_of_readDate {cs : List Char} {t : Instant} (h : readDate cs = some t) :
    t.Proper := by
  simp only [readDate, readTrimmed, Option.orElse_eq_orElse, Option.orElse_eq_or,
    Option.or_eq_some_iff] at h
  rcases h with h | ⟨-, h | ⟨-, h | ⟨-, h | ⟨-, h⟩⟩⟩⟩
  · exact proper_of_readTimestamp h
  · exact proper_of_readDayTime h
  · exact proper_of_readDayMinute h
  · exact proper_of_readWholeDay h
  · exact proper_of_readWholeDay h

/-! ## The letter Z -/

/-- What a reader leaves of a text with a `Z` holds it still. -/
def KeepsZulu {α : Type} (read : List Char → Option (α × List Char)) : Prop :=
  ∀ a cs rest, read cs = some (a, rest) → 'Z' ∈ cs → 'Z' ∈ rest

/-- Where all that follows a reader fails on a `Z`, the whole fails on it. -/
theorem KeepsZulu.bind_eq_none {α β : Type} {read : List Char → Option (α × List Char)}
    (h : KeepsZulu read) {cs : List Char} (hz : 'Z' ∈ cs) {f : α × List Char → Option β}
    (hf : ∀ a rest, 'Z' ∈ rest → f (a, rest) = none) : (read cs).bind f = none := by
  cases hread : read cs with
  | none => rfl
  | some p =>
    obtain ⟨a, rest⟩ := p
    exact hf a rest (h a cs rest hread hz)

theorem keepsZulu_readDigits (least most : Nat) : KeepsZulu (readDigits least most) := by
  intro n cs rest h hz
  obtain ⟨ds, rfl, hdigit, -⟩ := exists_of_readDigits h
  rcases List.mem_append.1 hz with hz | hz
  · exact absurd (hdigit _ hz) (by decide)
  · exact hz

theorem zulu_of_dropWhile {p : Char → Bool} (hp : p 'Z' = false) {cs : List Char}
    (hz : 'Z' ∈ cs) : 'Z' ∈ cs.dropWhile p := by
  rw [← List.takeWhile_append_dropWhile (p := p) (l := cs)] at hz
  rcases List.mem_append.1 hz with hz | hz
  · rw [List.mem_takeWhile_imp hz] at hp
    cases hp
  · exact hz

theorem zulu_of_expect {c : Char} (hc : c ≠ 'Z') {cs rest : List Char}
    (h : expect c cs = some rest) (hz : 'Z' ∈ cs) : 'Z' ∈ rest := by
  cases cs with
  | nil => cases h
  | cons d cs =>
    rw [expect, Option.ite_none_right_eq_some] at h
    obtain ⟨rfl, h⟩ := h
    cases h
    rcases List.mem_cons.1 hz with hz | hz
    · exact absurd hz.symm hc
    · exact hz

theorem bind_expect_of_zulu {β : Type} {c : Char} (hc : c ≠ 'Z') {cs : List Char} (hz : 'Z' ∈ cs)
    {f : List Char → Option β} (hf : ∀ rest, 'Z' ∈ rest → f rest = none) :
    (expect c cs).bind f = none := by
  cases h : expect c cs with
  | none => rfl
  | some rest => exact hf rest (zulu_of_expect hc h hz)

theorem keepsZulu_readField : KeepsZulu readField := by
  intro n cs rest h hz
  exact keepsZulu_readDigits 1 2 n _ rest h (zulu_of_dropWhile (by decide) hz)

theorem keepsZulu_readYear : KeepsZulu readYear := by
  intro year cs rest h hz
  have hstart : 'Z' ∈ trimStart cs := zulu_of_dropWhile (by decide) hz
  unfold readYear at h
  split at h
  all_goals
    next r heq =>
    obtain ⟨⟨n, r⟩, hread, hpair⟩ := Option.map_eq_some_iff.1 h
    cases hpair
    refine keepsZulu_readDigits _ _ _ _ _ hread ?_
    simpa [heq] using hstart

theorem keepsZulu_readFraction : KeepsZulu readFraction := by
  intro n cs rest h hz
  unfold readFraction at h
  split at h
  · obtain ⟨⟨k, r⟩, hread, hpair⟩ := Option.map_eq_some_iff.1 h
    cases hpair
    refine zulu_of_dropWhile (by decide) (keepsZulu_readDigits _ _ _ _ _ hread ?_)
    simpa using hz
  · cases h
    exact hz

theorem keepsZulu_readDay : KeepsZulu readDay := by
  intro d cs rest h hz
  simp only [readDay, Option.bind_eq_bind, Option.bind_eq_some_iff, Option.pure_def,
    Option.some.injEq, Prod.mk.injEq] at h
  obtain ⟨⟨_, _⟩, hyear, _, h1, ⟨_, _⟩, hmonth, _, h2, ⟨_, _⟩, hday, -, rfl⟩ := h
  have hz := keepsZulu_readYear _ _ _ hyear hz
  have hz := keepsZulu_readField _ _ _ hmonth (zulu_of_expect (by decide) h1 hz)
  exact keepsZulu_readField _ _ _ hday (zulu_of_expect (by decide) h2 hz)

theorem finish_of_zulu {rest : List Char} (hz : 'Z' ∈ rest) (d : Day) (c : TimeOfDay)
    (offset : Int) : finish d c offset rest = none := by
  obtain ⟨a, as, rfl⟩ := List.exists_cons_of_ne_nil (List.ne_nil_of_mem hz)
  simp [finish]

theorem readDayTime_of_zulu {cs : List Char} (hz : 'Z' ∈ cs) : readDayTime cs = none := by
  refine keepsZulu_readDay.bind_eq_none hz fun _ _ hz => ?_
  refine bind_expect_of_zulu (by decide) hz fun _ hz => ?_
  refine keepsZulu_readField.bind_eq_none hz fun _ _ hz => ?_
  refine bind_expect_of_zulu (by decide) hz fun _ hz => ?_
  refine keepsZulu_readField.bind_eq_none hz fun _ _ hz => ?_
  refine bind_expect_of_zulu (by decide) hz fun _ hz => ?_
  refine keepsZulu_readField.bind_eq_none hz fun _ _ hz => ?_
  refine keepsZulu_readFraction.bind_eq_none hz fun _ _ hz => ?_
  exact finish_of_zulu hz _ _ _

theorem readDayMinute_of_zulu {cs : List Char} (hz : 'Z' ∈ cs) : readDayMinute cs = none := by
  refine keepsZulu_readDay.bind_eq_none hz fun _ _ hz => ?_
  refine bind_expect_of_zulu (by decide) hz fun _ hz => ?_
  refine keepsZulu_readField.bind_eq_none hz fun _ _ hz => ?_
  refine bind_expect_of_zulu (by decide) hz fun _ hz => ?_
  refine keepsZulu_readField.bind_eq_none hz fun _ _ hz => ?_
  exact finish_of_zulu hz _ _ _

theorem readWholeDay_of_zulu {cs : List Char} (hz : 'Z' ∈ cs) : readWholeDay cs = none :=
  keepsZulu_readDay.bind_eq_none hz fun _ _ hz => finish_of_zulu hz _ _ _

/-- Of the forms of a date only the full timestamp ends in an offset. -/
theorem readDate_of_zulu {cs : List Char} (hz : 'Z' ∈ cs) (htrim : trim cs = cs) :
    readDate cs = readTimestamp cs := by
  have hmonth : readWholeDay (cs ++ "-01".toList) = none :=
    readWholeDay_of_zulu (List.mem_append_left _ hz)
  rw [readDate, htrim, readTrimmed, readDayTime_of_zulu hz, readDayMinute_of_zulu hz,
    readWholeDay_of_zulu hz, hmonth]
  cases readTimestamp cs <;> rfl

/-! ## Looking like a date -/

theorem exists_of_looksLikeDate {cs : List Char} (h : looksLikeDate cs = true) :
    ∃ d ds, trim cs = d :: ds ∧ d.isDigit ∧ '-' ∈ ds := by
  unfold looksLikeDate at h
  split at h
  · next heq =>
    simp only [Bool.and_eq_true, beq_iff_eq] at h
    obtain ⟨⟨⟨⟨⟨⟨ha, -⟩, -⟩, -⟩, rfl⟩, -⟩, -⟩ := h
    exact ⟨_, _, heq, ha, by simp⟩
  · cases h

end SkyDiscovery.Calendar
