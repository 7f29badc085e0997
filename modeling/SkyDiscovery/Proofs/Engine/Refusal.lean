import Mathlib.Tactic.SplitIfs
import SkyDiscovery.Engine.Run
import SkyDiscovery.Proofs.Failure

/-!
# Requests that are refused

Before the catalog is asked, an engine checks its context, compiles the query of the request and
chooses the fields of the response.  What is wrong then is wrong with the request or with the
settings of the service, never with the catalog, a cutout task or the service itself.

* `compile_refuses`, `directory_refuses`: the kinds of these failures.
* `directory_eq_error_iff`: the fields are refused only for a negative verbosity.
-/

namespace SkyDiscovery

/-- The failure is one of the request or of the settings. -/
def Failure.IsRefusal (f : Failure) : Prop :=
  f.httpStatus = 400

namespace Context

theorem require_refuses (setting : Option String) (what : String) :
    FailsOnly Failure.IsRefusal (require setting what) := by
  unfold require
  cases setting with
  | none => exact failsOnly_error rfl
  | some s =>
    dsimp only
    split_ifs
    · exact failsOnly_error rfl
    · exact failsOnly_ok _

theorem validate_refuses (c : Context) (p : Protocol) :
    FailsOnly Failure.IsRefusal (c.validate p) := by
  refine (require_refuses _ _).bind fun _ => ?_
  split_ifs
  · exact (require_refuses _ _).bind fun _ => (require_refuses _ _).bind fun _ =>
      (require_refuses _ _).bind fun _ => failsOnly_ok _
  · exact failsOnly_ok _

end Context

theorem Frame.supportedOfName_refuses (s : String) :
    FailsOnly Failure.IsRefusal (supportedOfName s) := by
  unfold supportedOfName ofName
  cases table.lookup (Text.capitals (Text.trimmed s)) with
  | none => exact failsOnly_error rfl
  | some f =>
    dsimp only
    split_ifs
    · exact failsOnly_ok _
    · exact failsOnly_error rfl

theorem requireFinite_refuses (parameter : String) (x : Float) :
    FailsOnly Failure.IsRefusal (requireFinite parameter x) := by
  unfold requireFinite
  split_ifs
  · exact failsOnly_ok _
  · exact failsOnly_error rfl

namespace Interval

theorem check_refuses (parameter : String) (r : Range) :
    FailsOnly Failure.IsRefusal (check parameter r) := by
  unfold check
  dsimp only
  split_ifs
  · exact failsOnly_error rfl
  · exact (failsOnly_mapM (requireFinite_refuses parameter) _).bind fun _ => failsOnly_ok _

theorem ofParameter_refuses (s : ParameterSet) (parameter : String) :
    FailsOnly Failure.IsRefusal (ofParameter s parameter) := by
  unfold ofParameter
  split
  · exact failsOnly_ok _
  · exact failsOnly_mapM (check_refuses parameter) _

end Interval

namespace CatalogQuery

theorem recordLimit_refuses (s : ParameterSet) (c : Context) :
    FailsOnly Failure.IsRefusal (recordLimit s c) := by
  unfold recordLimit
  split
  · exact failsOnly_ok _
  · split_ifs
    · exact failsOnly_error rfl
    · exact failsOnly_ok _

theorem numberAt_refuses (parameter : String) (list : RangeList) (index : Nat) :
    FailsOnly Failure.IsRefusal (numberAt parameter list index) := by
  unfold numberAt
  split
  · exact requireFinite_refuses _ _
  · exact failsOnly_error rfl

theorem frameOf_refuses (properties : List (String × String)) :
    FailsOnly Failure.IsRefusal (frameOf properties) := by
  unfold frameOf
  refine failsOnly_foldlM (fun _ property => ?_) _ _
  unfold frameOfProperty
  exact Frame.supportedOfName_refuses _

theorem center?_refuses (p : Protocol) (s : ParameterSet) :
    FailsOnly Failure.IsRefusal (center? p s) := by
  unfold center?
  split
  · exact (frameOf_refuses _).bind fun _ => (numberAt_refuses _ _ _).bind fun _ =>
      (numberAt_refuses _ _ _).bind fun _ => failsOnly_ok _
  · by_cases hp : p = .cone
    · rw [if_pos hp]
      rcases s.float? "RA" with _ | ra <;> rcases s.float? "DEC" with _ | dec
      · dsimp only
        split_ifs
        · exact failsOnly_error rfl
        · exact failsOnly_ok _
      · exact failsOnly_error rfl
      · exact failsOnly_error rfl
      · exact failsOnly_ok _
    · rw [if_neg hp]
      exact failsOnly_ok _

theorem halfWidths_refuses (s : ParameterSet) : FailsOnly Failure.IsRefusal (halfWidths s) := by
  unfold halfWidths
  split
  · refine (numberAt_refuses _ _ _).bind fun w => ?_
    split_ifs
    · exact (numberAt_refuses _ _ _).bind fun _ => failsOnly_ok _
    · exact failsOnly_ok _
  · split
    · exact failsOnly_ok _
    · exact failsOnly_ok _

theorem regionFailure_isRefusal (fault : RegionFault Float) : (regionFailure fault).IsRefusal := by
  cases fault with
  | latitude lat => rfl
  | negativeSize => rfl

theorem region?_refuses (p : Protocol) (s : ParameterSet) :
    FailsOnly Failure.IsRefusal (region? p s) := by
  refine (center?_refuses p s).bind fun center => ?_
  split
  · exact failsOnly_ok _
  · exact (failsOnly_mapError regionFailure_isRefusal _).bind fun _ =>
      (halfWidths_refuses s).bind fun _ => failsOnly_mapError regionFailure_isRefusal _

theorem intervals_refuses (p : Protocol) (a : Axis) (s : ParameterSet) (parameter : String) :
    FailsOnly Failure.IsRefusal (intervals p a s parameter) := by
  unfold intervals
  split_ifs
  · exact Interval.ofParameter_refuses s parameter
  · exact failsOnly_ok _

theorem wishes_refuses (p : Protocol) (s : ParameterSet) :
    FailsOnly Failure.IsRefusal (wishes p s) :=
  (region?_refuses p s).bind fun _ => (intervals_refuses _ _ _ _).bind fun _ =>
    (intervals_refuses _ _ _ _).bind fun _ => failsOnly_ok _

theorem compile_refuses (p : Protocol) (t : TableMapping) (c : Context) (s : ParameterSet) :
    FailsOnly Failure.IsRefusal (compile p t c s) :=
  (Context.require_refuses _ _).bind fun _ => (recordLimit_refuses s c).bind fun _ =>
    (wishes_refuses p s).bind fun _ => failsOnly_ok _

end CatalogQuery

namespace Engine

theorem compile_refuses (g : Engine) (s : ParameterSet) :
    FailsOnly Failure.IsRefusal (g.compile s) :=
  (g.context.validate_refuses g.protocol).bind fun _ => CatalogQuery.compile_refuses _ _ _ _

/-- The fields are refused to a client who asks for a negative verbosity. -/
theorem directory_eq_error_iff (g : Engine) (s : ParameterSet) (f : Failure) :
    g.directory s = .error f ↔
      (∃ v < 0, s.integer? "VERB" = some v) ∧ f = .invalid "VERB" "must not be negative" := by
  unfold directory verbosity
  rcases s.integer? "VERB" with _ | v
  · constructor
    · intro h
      cases h
    · rintro ⟨⟨v, -, hv⟩, -⟩
      cases hv
  · by_cases hv : v < 0
    · simp only [if_pos hv]
      constructor
      · intro h
        cases h
        exact ⟨⟨v, hv, rfl⟩, rfl⟩
      · rintro ⟨-, rfl⟩
        rfl
    · simp only [if_neg hv]
      constructor
      · intro h
        cases h
      · rintro ⟨⟨w, hw, hv'⟩, -⟩
        cases hv'
        exact absurd hw hv

theorem directory_refuses (g : Engine) (s : ParameterSet) :
    FailsOnly Failure.IsRefusal (g.directory s) := by
  intro f hf
  obtain ⟨-, rfl⟩ := (g.directory_eq_error_iff s f).1 hf
  rfl

end Engine

end SkyDiscovery
