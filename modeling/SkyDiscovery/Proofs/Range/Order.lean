import Mathlib.Data.List.Perm.Basic
import SkyDiscovery.Proofs.Text.Utf8
import SkyDiscovery.Range.RangeList

/-!
# The order of ranges

Endpoints are ordered by keys, the type before the value, and ranges by their two endpoints.  Both
orders are total, so that an ordered list stays sorted as ranges are placed in it.  Endpoints are
level only with themselves, numbers bit by bit, and ranges with those that have the same bounds.

* `Range.transCmp`: the order of ranges is a total preorder.
* `Range.compare_isTotalPreorder`: so it is, with the ranges that it does not tell apart and the
  places of those without a bound.
* `sorted_place`, `place_perm`: placing a range keeps a list sorted and adds just the range.
* `place_eq_append`: a range that no range of the list is greater than is placed at the end.
-/

namespace SkyDiscovery

/-! ## Numbers and instants -/

namespace Binary64

/-- No two numbers have one rank, neither the two zeros nor two NaNs. -/
theorem rank_injective : Function.Injective rank := by
  rintro ⟨b⟩ ⟨c⟩ h
  have hb := b.toNat_lt
  have hc := c.toNat_lt
  simp only [rank, isNegative, magnitude, decide_eq_true_eq] at h
  congr 1
  rw [← UInt64.toNat_inj]
  split_ifs at h <;> omega

theorem compareTotal_eq_eq_iff {x y : Binary64} : x.compareTotal y = .eq ↔ x = y := by
  rw [compareTotal, Std.compare_eq_iff_eq, rank_injective.eq_iff]

end Binary64

theorem Calendar.Instant.compare_eq_eq_iff {s t : Instant} : s.compare t = .eq ↔ s = t := by
  cases s
  cases t
  rw [compare, Ordering.then_eq_eq, Std.compare_eq_iff_eq, Std.compare_eq_iff_eq, Instant.mk.injEq]

/-! ## Endpoints -/

namespace Endpoint

/-- The number, or the seconds of the date. -/
def amountKey : Endpoint → Int
  | number x => x.rank
  | date t => t.seconds
  | text _ => 0

def nanosKey : Endpoint → Nat
  | date t => t.nanos
  | _ => 0

def textKey : Endpoint → String
  | text s => s
  | _ => ""

/-- Endpoints are compared by their keys in turn, of which those of other types are equal. -/
theorem compare_eq : Endpoint.compare = compareLex (compareOn fun x => x.type.rank)
    (compareLex (compareOn amountKey) (compareLex (compareOn nanosKey) (compareOn textKey))) := by
  funext a b
  cases a with
  | number x =>
    cases b with
    | number y =>
      show Ord.compare x.rank y.rank = _
      exact Ordering.then_eq.symm
    | text t => rfl
    | date t => rfl
  | text s =>
    cases b with
    | number y => rfl
    | text t => rfl
    | date t => rfl
  | date s =>
    cases b with
    | number y => rfl
    | text t => rfl
    | date t =>
      show (Ord.compare s.seconds t.seconds).then (Ord.compare s.nanos t.nanos) = _
      exact congrArg (Ordering.then _) Ordering.then_eq.symm

instance transCmp : Std.TransCmp Endpoint.compare := by
  rw [compare_eq]
  infer_instance

/-! ### Endpoints that are level -/

theorem compareText_eq_eq_iff {s t : String} : compareOfLessAndEq s t = .eq ↔ s = t :=
  compareOfLessAndEq_eq_eq String.le_refl String.not_le

/-- Only an endpoint itself is level with it. -/
theorem compare_eq_eq_iff {a b : Endpoint} : a.compare b = .eq ↔ a = b := by
  constructor
  · intro h
    cases a with
    | number x =>
      cases b with
      | number y => rw [Binary64.compareTotal_eq_eq_iff.1 h]
      | text t => cases h
      | date t => cases h
    | text s =>
      cases b with
      | number y => cases h
      | text t => rw [compareText_eq_eq_iff.1 h]
      | date t => cases h
    | date s =>
      cases b with
      | number y => cases h
      | text t => cases h
      | date t => rw [Calendar.Instant.compare_eq_eq_iff.1 h]
  · rintro rfl
    exact @Std.ReflCmp.compare_self _ Endpoint.compare _ _

/-- The endpoints are of one type and level in its order: numbers in the total order, texts by their
bytes, dates by their seconds and nanoseconds. -/
inductive Agrees : Endpoint → Endpoint → Prop where
  | number {x y : Binary64} : x.compareTotal y = .eq → Agrees (.number x) (.number y)
  | text {s t : String} :
      Ord.compare (Text.bytes s.toList) (Text.bytes t.toList) = .eq → Agrees (.text s) (.text t)
  | date {s t : Calendar.Instant} : s.compare t = .eq → Agrees (.date s) (.date t)

theorem agrees_iff {a b : Endpoint} : a.Agrees b ↔ a = b := by
  constructor
  · rintro (h | h | h)
    · rw [Binary64.compareTotal_eq_eq_iff.1 h]
    · rw [String.toList_injective (Text.bytes_injective (Std.compare_eq_iff_eq.1 h))]
    · rw [Calendar.Instant.compare_eq_eq_iff.1 h]
  · rintro rfl
    cases a with
    | number x => exact .number (Binary64.compareTotal_eq_eq_iff.2 rfl)
    | text s => exact .text (Std.compare_eq_iff_eq.2 rfl)
    | date t => exact .date (Calendar.Instant.compare_eq_eq_iff.2 rfl)

end Endpoint

/-! ## Ranges -/

namespace Range

instance transCmp_compareLow : Std.TransCmp compareLow where
  eq_swap {a b} := by
    cases a with
    | none => cases b <;> rfl
    | some x =>
      cases b with
      | none => rfl
      | some y => exact @Std.OrientedCmp.eq_swap _ Endpoint.compare _ _ _
  isLE_trans {a b c} hab hbc := by
    cases a with
    | none => cases c <;> rfl
    | some x =>
      cases b with
      | none => cases hab
      | some y =>
        cases c with
        | none => cases hbc
        | some z => exact @Std.TransCmp.isLE_trans _ Endpoint.compare _ _ _ _ hab hbc

instance transCmp_compareHigh : Std.TransCmp compareHigh where
  eq_swap {a b} := by
    cases a with
    | none => cases b <;> rfl
    | some x =>
      cases b with
      | none => rfl
      | some y => exact @Std.OrientedCmp.eq_swap _ Endpoint.compare _ _ _
  isLE_trans {a b c} hab hbc := by
    cases c with
    | none => cases a <;> rfl
    | some z =>
      cases b with
      | none => cases hbc
      | some y =>
        cases a with
        | none => cases hab
        | some x => exact @Std.TransCmp.isLE_trans _ Endpoint.compare _ _ _ _ hab hbc

/-- An order of values is an order of what the values are read off. -/
theorem transCmp_on {α β : Type} (cmp : β → β → Ordering) [Std.TransCmp cmp] (f : α → β) :
    Std.TransCmp fun a b => cmp (f a) (f b) where
  eq_swap {a b} := @Std.OrientedCmp.eq_swap _ cmp _ (f a) (f b)
  isLE_trans {a b c} := @Std.TransCmp.isLE_trans _ cmp _ (f a) (f b) (f c)

instance transCmp : Std.TransCmp Range.compare :=
  have := transCmp_on compareLow low?
  have := transCmp_on compareHigh high?
  inferInstanceAs (Std.TransCmp (compareLex (fun r s : Range => compareLow r.low? s.low?)
    fun r s : Range => compareHigh r.high? s.high?))

/-! ### Ranges that are level -/

theorem compareLow_eq_eq_iff {a b : Option Endpoint} : compareLow a b = .eq ↔ a = b := by
  cases a <;> cases b <;> simp [compareLow, Endpoint.compare_eq_eq_iff]

theorem compareHigh_eq_eq_iff {a b : Option Endpoint} : compareHigh a b = .eq ↔ a = b := by
  cases a <;> cases b <;> simp [compareHigh, Endpoint.compare_eq_eq_iff]

theorem compare_eq_eq_iff {x y : Range} :
    x.compare y = .eq ↔ x.low? = y.low? ∧ x.high? = y.high? := by
  rw [compare, Ordering.then_eq_eq, compareLow_eq_eq_iff, compareHigh_eq_eq_iff]

/-- Two bounds agree: both are missing, or they are endpoints that agree. -/
abbrev BoundsAgree : Option Endpoint → Option Endpoint → Prop :=
  Option.Rel Endpoint.Agrees

theorem boundsAgree_iff {a b : Option Endpoint} : BoundsAgree a b ↔ a = b := by
  constructor
  · rintro (h | _)
    · rw [Endpoint.agrees_iff.1 h]
    · rfl
  · rintro rfl
    cases a with
    | none => exact .none
    | some x => exact .some (Endpoint.agrees_iff.2 rfl)

/-- The first range does not come behind the second. -/
def NotAfter (r s : Range) : Prop :=
  (r.compare s).isLE

instance (r s : Range) : Decidable (r.NotAfter s) :=
  inferInstanceAs (Decidable (_ = true))

theorem notAfter_iff {r s : Range} : r.NotAfter s ↔ r.compare s ≠ .gt := by
  unfold NotAfter
  cases r.compare s <;> decide

theorem notAfter_of_compare {r s : Range} (h : s.compare r = .gt) : r.NotAfter s := by
  unfold NotAfter
  rw [@Std.OrientedCmp.eq_swap _ Range.compare _ _ _, h]
  rfl

theorem NotAfter.trans {r s t : Range} (hrs : r.NotAfter s) (hst : s.NotAfter t) : r.NotAfter t :=
  @Std.TransCmp.isLE_trans _ Range.compare _ _ _ _ hrs hst

/-- A range without a low bound comes before those that have one. -/
theorem compare_of_low?_eq_none {x y : Range} (hx : x.low? = none) (hy : y.low? ≠ none) :
    x.compare y = .lt := by
  obtain ⟨low, hlow⟩ := Option.ne_none_iff_exists'.1 hy
  rw [compare, hx, hlow]
  rfl

/-- Of the ranges with one low bound those without a high bound come last. -/
theorem compare_of_high?_eq_none {x y : Range} (hlow : x.low? = y.low?) (hx : x.high? = none)
    (hy : y.high? ≠ none) : x.compare y = .gt := by
  obtain ⟨high, hhigh⟩ := Option.ne_none_iff_exists'.1 hy
  rw [compare, compareLow_eq_eq_iff.2 hlow, hx, hhigh]
  rfl

/-- The order of ranges is a total preorder.  It does not tell ranges apart whose bounds agree; a
missing low bound comes before every other, and a missing high bound after every other. -/
theorem compare_isTotalPreorder (x y z : Range) :
    y.compare x = (x.compare y).swap ∧
      (x.NotAfter y → y.NotAfter z → x.NotAfter z) ∧
      (x.compare y = .eq ↔ BoundsAgree x.low? y.low? ∧ BoundsAgree x.high? y.high?) ∧
      (x.low? = none → y.low? ≠ none → x.compare y = .lt) ∧
      (BoundsAgree x.low? y.low? → x.high? = none → y.high? ≠ none → x.compare y = .gt) := by
  refine ⟨@Std.OrientedCmp.eq_swap _ Range.compare _ y x, NotAfter.trans, ?_,
    compare_of_low?_eq_none, fun hlow => compare_of_high?_eq_none (boundsAgree_iff.1 hlow)⟩
  rw [boundsAgree_iff, boundsAgree_iff, compare_eq_eq_iff]

/-- A date, a range of NaNs and a half-open one are in order, and the missing bounds say why. -/
theorem compare_isTotalPreorder_mixed :
    let x : Range := .atMost (.date ⟨0, 0⟩)
    let y : Range := .closed (.number (.nan true)) (.number (.nan false))
    let z : Range := .atLeast (.number (.nan true))
    (x.NotAfter y ∧ y.NotAfter z) ∧ x.NotAfter z ∧ x.compare y = .lt ∧ z.compare y = .gt := by
  intro x y z
  obtain ⟨-, htrans, -, hlow, -⟩ := compare_isTotalPreorder x y z
  obtain ⟨-, -, -, -, hhigh⟩ := compare_isTotalPreorder z y x
  have hxy : x.NotAfter y := by decide +kernel
  have hyz : y.NotAfter z := by decide +kernel
  exact ⟨⟨hxy, hyz⟩, htrans hxy hyz, hlow rfl (Option.some_ne_none _),
    hhigh (boundsAgree_iff.2 rfl) rfl (Option.some_ne_none _)⟩

theorem normalize_normalize (r : Range) : r.normalize.normalize = r.normalize := by
  cases r with
  | closed low high =>
    by_cases h : low.compare high = .gt
    · have hback : high.compare low ≠ .gt := by
        rw [@Std.OrientedCmp.eq_swap _ Endpoint.compare _ _ _, h]
        decide
      rw [normalize, if_pos h, normalize, if_neg hback]
    · rw [normalize, if_neg h, normalize, if_neg h]
  | any => rfl
  | single v => rfl
  | atLeast low => rfl
  | atMost high => rfl

/-- The bounds of a closed range are in order once they were put in order. -/
theorem compare_ne_gt_of_normalize {r : Range} {low high : Endpoint}
    (h : r.normalize = closed low high) : low.compare high ≠ .gt := by
  intro hgt
  have hself : (closed low high).normalize = closed low high := by
    rw [← h, normalize_normalize]
  rw [normalize, if_pos hgt] at hself
  cases hself
  rw [@Std.ReflCmp.compare_self _ Endpoint.compare _ _] at hgt
  cases hgt

end Range

/-! ## Ordered lists -/

namespace RangeList

/-- No range stands before one that it is greater than. -/
def Sorted (rs : List Range) : Prop :=
  rs.Pairwise Range.NotAfter

theorem place_perm (r : Range) (rs : List Range) : (place r rs).Perm (r :: rs) := by
  induction rs with
  | nil => exact List.Perm.refl _
  | cons x xs ih =>
    unfold place
    by_cases h : x.compare r = .gt
    · rw [if_pos h]
    · rw [if_neg h]
      exact (ih.cons x).trans (List.Perm.swap r x xs)

theorem sorted_place {rs : List Range} (h : Sorted rs) (r : Range) : Sorted (place r rs) := by
  induction rs with
  | nil => exact List.pairwise_singleton _ r
  | cons x xs ih =>
    obtain ⟨hx, hxs⟩ := List.pairwise_cons.1 h
    unfold place
    by_cases hgt : x.compare r = .gt
    · rw [if_pos hgt]
      have hrx := Range.notAfter_of_compare hgt
      refine List.pairwise_cons.2 ⟨fun y hy => ?_, h⟩
      rcases List.mem_cons.1 hy with rfl | hy
      · exact hrx
      · exact hrx.trans (hx y hy)
    · rw [if_neg hgt]
      refine List.pairwise_cons.2 ⟨fun y hy => ?_, ih hxs⟩
      rcases List.mem_cons.1 ((place_perm r xs).subset hy) with rfl | hy
      · exact Range.notAfter_iff.2 hgt
      · exact hx y hy

/-- A range that comes before none of a list is placed at its end. -/
theorem place_eq_append {r : Range} {rs : List Range} (h : ∀ x ∈ rs, x.NotAfter r) :
    place r rs = rs ++ [r] := by
  induction rs with
  | nil => rfl
  | cons x xs ih =>
    rw [place, if_neg (Range.notAfter_iff.1 (h x List.mem_cons_self)),
      ih fun y hy => h y (List.mem_cons_of_mem _ hy)]
    rfl

end RangeList

end SkyDiscovery
