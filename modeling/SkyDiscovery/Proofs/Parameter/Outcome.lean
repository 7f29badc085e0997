import SkyDiscovery.Parameter.ParameterSet

/-!
# What setting a parameter comes to

A parameter that is set is taken away, runs into the ranges that are held under its name, or takes
the place of what was there.  Each of the last two can fail, in its own way.

* `outcome_set`: these are all the ways.
-/

namespace SkyDiscovery.ParameterSet

/-- The ways to set a parameter, with the set and the result that come of them. -/
inductive Outcome (p : Protocol) (s : ParameterSet) (name value : String) :
    ParameterSet × Except Failure Unit → Prop
  | taken (blank : (Text.trimmed value).isEmpty = true) :
      Outcome p s name value (⟨s.parameters.erase (key name)⟩, .ok ())
  | extended (x : Parameter) (list t : RangeList) (n : Nat)
      (blank : (Text.trimmed value).isEmpty = false)
      (held : s.heldRanges? (key name) (declarationOf p name) = some (x, list))
      (extend : list.extend (Text.trimmed value).toList = (t, .ok n)) :
      Outcome p s name value
        (s.store (key name) { x with raw := x.raw ++ "," ++ Text.trimmed value, value := .ranges t },
          .ok ())
  | stopped (x : Parameter) (list t : RangeList) (f : RangeFault)
      (blank : (Text.trimmed value).isEmpty = false)
      (held : s.heldRanges? (key name) (declarationOf p name) = some (x, list))
      (extend : list.extend (Text.trimmed value).toList = (t, .error f)) :
      Outcome p s name value
        (s.store (key name) { x with value := .ranges t },
          .error (ParameterValue.rangeFailure (declarationOf p name).name f))
  | replaced (v : ParameterValue)
      (blank : (Text.trimmed value).isEmpty = false)
      (held : s.heldRanges? (key name) (declarationOf p name) = none)
      (read : ParameterValue.read (declarationOf p name).name (declarationOf p name).kind
        (Text.trimmed value) = .ok v) :
      Outcome p s name value
        (s.store (key name) ⟨(declarationOf p name).name, (declarationOf p name).level,
          Text.trimmed value, v⟩, .ok ())
  | refused (f : Failure)
      (blank : (Text.trimmed value).isEmpty = false)
      (held : s.heldRanges? (key name) (declarationOf p name) = none)
      (read : ParameterValue.read (declarationOf p name).name (declarationOf p name).kind
        (Text.trimmed value) = .error f) :
      Outcome p s name value (s, .error f)

section

variable {p : Protocol} {s : ParameterSet} {name value k : String} {d : Declaration}

theorem outcome_set (p : Protocol) (s : ParameterSet) (name value : String) :
    Outcome p s name value (s.set p name value) := by
  cases hblank : (Text.trimmed value).isEmpty with
  | true =>
    rw [set, if_pos hblank]
    exact .taken hblank
  | false =>
    rw [set, if_neg (by simp [hblank])]
    dsimp only
    split
    · next x list hheld =>
      unfold extendRanges
      split
      · next t n hextend => exact .extended x list t n hblank hheld hextend
      · next t f hextend => exact .stopped x list t f hblank hheld hextend
    · next hheld =>
      unfold replace
      split
      · next v hread => exact .replaced v hblank hheld hread
      · next f hread => exact .refused f hblank hheld hread

/-! ## Ranges that are held -/

theorem heldRanges?_of_kind (h : ∀ declared ordered, d.kind ≠ .ranges declared ordered) :
    s.heldRanges? k d = none := by
  unfold heldRanges?
  split
  · next declared ordered _ hkind _ => exact absurd hkind (h declared ordered)
  · rfl

theorem heldRanges?_of_none (h : s.parameters.get? k = none) : s.heldRanges? k d = none := by
  unfold heldRanges?
  split
  · next hsome => cases h.symm.trans hsome
  · rfl

theorem heldRanges?_of_ranges {declared : Option ValueType} {ordered : Bool} {x : Parameter}
    {list : RangeList} (hkind : d.kind = .ranges declared ordered)
    (hx : s.parameters.get? k = some x) (hvalue : x.value = .ranges list) :
    s.heldRanges? k d = some (x, list) := by
  simp only [heldRanges?, hkind, hx, hvalue]

theorem heldRanges?_eq_some {x : Parameter} {list : RangeList}
    (h : s.heldRanges? k d = some (x, list)) :
    s.parameters.get? k = some x ∧ x.value = .ranges list := by
  unfold heldRanges? at h
  split at h
  · next y _ hy =>
    split at h
    · next l hl =>
      cases h
      exact ⟨hy, hl⟩
    · cases h
  · cases h

end

end SkyDiscovery.ParameterSet
