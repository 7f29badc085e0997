import Mathlib.Data.List.Forall2
import SkyDiscovery.Proofs.Parameter.Outcome

/-!
# Parameter sets that agree

Setting a parameter touches the place of its name only, and what comes there depends on what was
there before and on nothing else.  So requests that differ in some parameters agree on all others.

* `ParameterSet.get?_set_of_ne`: other places keep their values.
* `ParameterSet.set_congr`: the place that is set, and the result.
* `ParameterSet.agreeOff_read`: requests that are equal but for the values of some names.
-/

namespace SkyDiscovery.ParameterSet

/-- The sets hold the same under all keys but the given ones. -/
def AgreeOff (keys : List String) (s t : ParameterSet) : Prop :=
  ∀ k, k ∉ keys → s.parameters.get? k = t.parameters.get? k

/-- Requests with the same names, and with the same values but under the given keys. -/
def EqualOff (keys : List String) : List (String × String) → List (String × String) → Prop :=
  List.Forall₂ fun a b => key a.1 = key b.1 ∧ (key a.1 ∉ keys → a = b)

theorem get?_store (s : ParameterSet) (k : String) (x : Parameter) (k' : String) :
    (s.store k x).parameters.get? k' = if k = k' then some x else s.parameters.get? k' :=
  Dictionary.get?_insert s.parameters k x k'

theorem get?_set_of_ne (p : Protocol) (s : ParameterSet) {name k : String} (value : String)
    (h : key name ≠ k) : (s.set p name value).1.parameters.get? k = s.parameters.get? k := by
  have houtcome := outcome_set p s name value
  generalize s.set p name value = result at houtcome ⊢
  cases houtcome with
  | taken => rw [Dictionary.get?_erase, if_neg h]
  | extended => rw [get?_store, if_neg h]
  | stopped => rw [get?_store, if_neg h]
  | replaced => rw [get?_store, if_neg h]
  | refused => rfl

/-- Whether a value is taken, and what comes to its place, depends on what was there. -/
theorem set_congr (p : Protocol) {s t : ParameterSet} {name : String} (value : String)
    (h : s.parameters.get? (key name) = t.parameters.get? (key name)) :
    (s.set p name value).2 = (t.set p name value).2 ∧
      (s.set p name value).1.parameters.get? (key name) =
        (t.set p name value).1.parameters.get? (key name) := by
  have hheld : ∀ d, s.heldRanges? (key name) d = t.heldRanges? (key name) d := by
    intro d
    rw [heldRanges?, heldRanges?, h]
  simp only [set]
  split
  · rw [Dictionary.get?_erase, Dictionary.get?_erase, if_pos rfl, if_pos rfl]
    exact ⟨rfl, rfl⟩
  · simp only [hheld]
    split
    · unfold extendRanges
      split <;> exact ⟨rfl, by simp only [get?_store, if_true]⟩
    · unfold replace
      split
      · exact ⟨rfl, by simp only [get?_store, if_true]⟩
      · exact ⟨rfl, h⟩

theorem agreeOff_set (p : Protocol) {keys : List String} {s t : ParameterSet}
    (h : AgreeOff keys s t) {a b : String × String} (hkey : key a.1 = key b.1)
    (hsame : key a.1 ∉ keys → a = b) :
    AgreeOff keys (s.set p a.1 a.2).1 (t.set p b.1 b.2).1 := by
  intro k hk
  by_cases hname : key a.1 = k
  · subst hname
    obtain rfl := hsame hk
    exact (set_congr p _ (h _ hk)).2
  · rw [get?_set_of_ne p s _ hname, get?_set_of_ne p t _ (hkey ▸ hname), h k hk]

theorem agreeOff_setAll (p : Protocol) {keys : List String} {pairs pairs' : List (String × String)}
    (hpairs : EqualOff keys pairs pairs') {s t u v : ParameterSet} (h : AgreeOff keys s t)
    (hu : setAll p s pairs = .ok u) (hv : setAll p t pairs' = .ok v) : AgreeOff keys u v := by
  induction hpairs generalizing s t with
  | nil =>
    obtain rfl := Except.ok.inj hu
    obtain rfl := Except.ok.inj hv
    exact h
  | @cons a b _ _ hab _ ih =>
    have hstep := agreeOff_set p h hab.1 hab.2
    rw [setAll] at hu hv
    split at hu
    · next s' _ hs =>
      split at hv
      · next t' _ ht =>
        rw [hs, ht] at hstep
        exact ih hstep hu hv
      · exact absurd hv (by simp)
    · exact absurd hu (by simp)

theorem agreeOff_read (p : Protocol) {keys : List String} {pairs pairs' : List (String × String)}
    (hpairs : EqualOff keys pairs pairs') {s t : ParameterSet} (hs : read p pairs = .ok s)
    (ht : read p pairs' = .ok t) : AgreeOff keys s t :=
  agreeOff_setAll p hpairs (fun _ _ => rfl) hs ht

end SkyDiscovery.ParameterSet
