import SkyDiscovery.Proofs.Dictionary
import SkyDiscovery.Proofs.Parameter.Agreement
import SkyDiscovery.Proofs.Range.Pieces

/-!
# Parameters that are refused

A value that cannot be read leaves the set as it was, but for one case: ranges that are held under
its name have taken in what came before the fault, while their text is the old one.

* `set_eq_error`: the set behind a value that was refused.
* `refused_value_leaves_range`: a set that a refused value has changed.
-/

namespace SkyDiscovery.ParameterSet

/-- The set after setting parameters one after the other, whether they were taken or not. -/
def after (p : Protocol) (pairs : List (String × String)) : ParameterSet :=
  pairs.foldl (fun s a => (s.set p a.1 a.2).1) empty

section

variable {p : Protocol} {s t : ParameterSet} {name value k : String} {f : Failure}

/-- Putting a value under a key again changes the set just if the value is another one. -/
theorem store_eq_self_iff {x y : Parameter} (h : s.parameters.get? k = some x) :
    s.store k y = s ↔ y = x := by
  constructor
  · intro hsame
    have hy := get?_store s k y k
    rw [hsame, h, if_pos rfl] at hy
    exact (Option.some.inj hy).symm
  · rintro rfl
    refine congrArg mk (Dictionary.ext_get? fun k' => ?_)
    rw [Dictionary.get?_insert]
    split
    · next hk => rw [← hk, h]
    · rfl

/-- A refused value changes nothing but ranges that are held under its name.  These have taken in
what came before the fault, and so the set is as before just if that adds nothing to them. -/
theorem set_eq_error (h : s.set p name value = (t, .error f)) :
    (∀ k, k ≠ key name → t.parameters.get? k = s.parameters.get? k) ∧
      (s.heldRanges? (key name) (declarationOf p name) = none → t = s) ∧
      ∀ x list, s.heldRanges? (key name) (declarationOf p name) = some (x, list) →
        ∃ list' fault, list.Stops (Text.trimmed value).toList list' fault ∧
          f = ParameterValue.rangeFailure (declarationOf p name).name fault ∧
          t = s.store (key name) { x with value := .ranges list' } ∧
          (t = s ↔ list' = list) := by
  have hothers : ∀ k, k ≠ key name → t.parameters.get? k = s.parameters.get? k := by
    intro k hk
    have hkept := get?_set_of_ne p s value (Ne.symm hk)
    rwa [h] at hkept
  refine ⟨hothers, ?_⟩
  have houtcome := outcome_set p s name value
  rw [h] at houtcome
  cases houtcome with
  | refused f blank held read =>
    refine ⟨fun _ => rfl, fun x list hsome => ?_⟩
    cases held.symm.trans hsome
  | stopped y list list' fault blank held extend =>
    refine ⟨fun hnone => ?_, fun x list hsome => ?_⟩
    · cases hnone.symm.trans held
    · cases held.symm.trans hsome
      obtain ⟨hplace, hvalue⟩ := heldRanges?_eq_some held
      refine ⟨list', fault, RangeList.stops_of_extend_eq_error extend, rfl, rfl, ?_⟩
      rw [store_eq_self_iff hplace]
      constructor
      · intro hsame
        have hranges := (congrArg Parameter.value hsame).trans hvalue
        exact ParameterValue.ranges.inj hranges
      · rintro rfl
        rw [← hvalue]

end

/-! ## A set that is not as before -/

/-- One state of polarization. -/
def oneState : ParameterSet :=
  after .image [("POL", "I")]

/-- A further state is refused for the property without a name behind it, and yet held. -/
theorem exists_refused_state :
    ∃ t f, oneState.set .image "POL" "Q;=x" = (t, .error f) ∧ t.text? "POL" = some "I" ∧
      (t.ranges? "POL").map RangeList.ranges = some [.single (.text "I"), .single (.text "Q")] :=
  ⟨_, _, rfl, rfl, rfl⟩

theorem ne_oneState {t : ParameterSet}
    (h : (t.ranges? "POL").map RangeList.ranges =
      some [.single (.text "I"), .single (.text "Q")]) : t ≠ oneState := by
  have hone : (oneState.ranges? "POL").map RangeList.ranges = some [.single (.text "I")] := rfl
  rintro rfl
  exact absurd (hone.symm.trans h) (by decide)

theorem set_eq_error_of_refused_state :
    ∃ t f x list list' fault, oneState.set .image "POL" "Q;=x" = (t, .error f) ∧
      oneState.heldRanges? (key "POL") (declarationOf .image "POL") = some (x, list) ∧
      list.Stops (Text.trimmed "Q;=x").toList list' fault ∧
      f = ParameterValue.rangeFailure "POL" fault ∧
      t = oneState.store (key "POL") { x with value := .ranges list' } ∧ list' ≠ list := by
  obtain ⟨t, f, hset, -, hranges⟩ := exists_refused_state
  have hheld : ∃ x list, oneState.heldRanges? (key "POL") (declarationOf .image "POL") =
      some (x, list) := ⟨_, _, rfl⟩
  obtain ⟨x, list, hheld⟩ := hheld
  obtain ⟨list', fault, hstops, hfault, hstore, hsame⟩ := (set_eq_error hset).2.2 x list hheld
  exact ⟨t, f, x, list, list', fault, hset, hheld, hstops, hfault, hstore,
    fun heq => ne_oneState hranges (hsame.2 heq)⟩

/-- The refused value has changed the ranges, while their text is the old one. -/
theorem refused_value_leaves_range :
    ∃ t f, (after .image [("POL", "I")]).set .image "POL" "Q;=x" = (t, .error f) ∧
      t ≠ after .image [("POL", "I")] ∧ t.text? "POL" = some "I" ∧
      (t.ranges? "POL").map RangeList.ranges =
        some [.single (.text "I"), .single (.text "Q")] := by
  obtain ⟨t, f, hset, htext, hranges⟩ := exists_refused_state
  exact ⟨t, f, hset, ne_oneState hranges, htext, hranges⟩

end SkyDiscovery.ParameterSet
