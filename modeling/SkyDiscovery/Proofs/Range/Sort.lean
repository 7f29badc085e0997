import SkyDiscovery.Proofs.Range.Readable

/-!
# Ranges placed one after the other

An ordered list places each range behind those that are not greater.  However many are placed, in
the end they stand as the stable sort puts them, those that are tied in the order in which they
came: a sorted list is determined by what it holds of each group of tied ranges, and neither
placing nor sorting changes the order within a group.

* `eq_of_tiedWith`: sorted lists with the same groups are equal.
* `place_stableSort`: placing one more range is sorting one more.
* `ranges_addAll`: the ranges of a list after further ones were added.
-/

namespace SkyDiscovery

namespace Range

theorem compare_self (r : Range) : r.compare r = .eq :=
  @Std.ReflCmp.compare_self _ Range.compare _ r

theorem compare_eq_of_notAfter {r s : Range} (h : r.NotAfter s) (h' : s.NotAfter r) :
    r.compare s = .eq := by
  unfold NotAfter at h h'
  rw [@Std.OrientedCmp.eq_swap _ Range.compare _ s r] at h'
  cases hcompare : r.compare s with
  | eq => rfl
  | lt =>
    rw [hcompare] at h'
    cases h'
  | gt =>
    rw [hcompare] at h
    cases h

theorem notAfter_of_compare_eq {r s : Range} (h : r.compare s = .eq) :
    r.NotAfter s ∧ s.NotAfter r := by
  unfold NotAfter
  rw [@Std.OrientedCmp.eq_swap _ Range.compare _ s r, h]
  decide

theorem isLE_trans (r s t : Range) (hrs : (r.compare s).isLE) (hst : (s.compare t).isLE) :
    (r.compare t).isLE :=
  NotAfter.trans hrs hst

theorem isLE_total (r s : Range) : (r.compare s).isLE || (s.compare r).isLE := by
  rw [@Std.OrientedCmp.eq_swap _ Range.compare _ s r]
  cases r.compare s <;> decide

end Range

namespace RangeList

/-! ## Groups of tied ranges -/

/-- The ranges of a list that come neither before nor after a range. -/
def tiedWith (r : Range) (rs : List Range) : List Range :=
  rs.filter fun x => r.compare x == .eq

theorem mem_tiedWith {r x : Range} {rs : List Range} :
    x ∈ tiedWith r rs ↔ x ∈ rs ∧ r.compare x = .eq := by
  rw [tiedWith, List.mem_filter, beq_iff_eq]

theorem tiedWith_cons_of_eq {r x : Range} (h : r.compare x = .eq) (rs : List Range) :
    tiedWith r (x :: rs) = x :: tiedWith r rs := by
  rw [tiedWith, List.filter_cons_of_pos (by rw [h]; rfl), tiedWith]

theorem tiedWith_cons_of_ne {r x : Range} (h : r.compare x ≠ .eq) (rs : List Range) :
    tiedWith r (x :: rs) = tiedWith r rs := by
  rw [tiedWith, List.filter_cons_of_neg (by simpa using h), tiedWith]

theorem notAfter_of_mem {r x : Range} {rs : List Range} (h : Sorted (r :: rs))
    (hx : x ∈ r :: rs) : r.NotAfter x := by
  rcases List.mem_cons.1 hx with rfl | hx
  · exact (Range.notAfter_of_compare_eq x.compare_self).1
  · exact (List.pairwise_cons.1 h).1 x hx

theorem mem_iff_of_tiedWith {rs ss : List Range} (h : ∀ r, tiedWith r rs = tiedWith r ss)
    (x : Range) : x ∈ rs ↔ x ∈ ss := by
  have hself : ∀ ts, x ∈ tiedWith x ts ↔ x ∈ ts := fun ts => by simp [mem_tiedWith, x.compare_self]
  rw [← hself rs, h x, hself ss]

/-- A sorted list is determined by its groups of tied ranges. -/
theorem eq_of_tiedWith {rs ss : List Range} (hrs : Sorted rs) (hss : Sorted ss)
    (h : ∀ r, tiedWith r rs = tiedWith r ss) : rs = ss := by
  have hmem := mem_iff_of_tiedWith h
  induction rs generalizing ss with
  | nil => exact (List.eq_nil_iff_forall_not_mem.2 fun x hx => by simpa using (hmem x).2 hx).symm
  | cons r rs ih =>
    cases ss with
    | nil => simpa using (hmem r).1 List.mem_cons_self
    | cons s ss =>
      have htied : r.compare s = .eq :=
        Range.compare_eq_of_notAfter (notAfter_of_mem hrs ((hmem s).2 List.mem_cons_self))
          (notAfter_of_mem hss ((hmem r).1 List.mem_cons_self))
      -- both first ranges are the first of one group
      have hfirst := h r
      rw [tiedWith_cons_of_eq r.compare_self, tiedWith_cons_of_eq htied] at hfirst
      obtain rfl : r = s := (List.cons.inj hfirst).1
      have hrest : ∀ x, tiedWith x rs = tiedWith x ss := by
        intro x
        have hx := h x
        by_cases hxr : x.compare r = .eq
        · rw [tiedWith_cons_of_eq hxr, tiedWith_cons_of_eq hxr] at hx
          exact (List.cons.inj hx).2
        · rwa [tiedWith_cons_of_ne hxr, tiedWith_cons_of_ne hxr] at hx
      rw [ih (List.pairwise_cons.1 hrs).2 (List.pairwise_cons.1 hss).2 hrest
        (mem_iff_of_tiedWith hrest)]

/-! ## Sorting -/

/-- Ranges sorted, those that are tied in their old order. -/
def stableSort (rs : List Range) : List Range :=
  rs.mergeSort fun r s => (r.compare s).isLE

theorem sorted_stableSort (rs : List Range) : Sorted (stableSort rs) :=
  List.pairwise_mergeSort Range.isLE_trans Range.isLE_total rs

theorem mem_stableSort {r : Range} {rs : List Range} : r ∈ stableSort rs ↔ r ∈ rs :=
  List.mem_mergeSort

/-- Sorting keeps each group in its order. -/
theorem tiedWith_stableSort (r : Range) (rs : List Range) :
    tiedWith r (stableSort rs) = tiedWith r rs := by
  have hgroup : (tiedWith r rs).Pairwise Range.NotAfter := by
    rw [List.pairwise_iff_forall_sublist]
    intro x y hxy
    have hx : r.compare x = .eq := (mem_tiedWith.1 (hxy.subset (by simp))).2
    have hy : r.compare y = .eq := (mem_tiedWith.1 (hxy.subset (by simp))).2
    exact (Range.notAfter_of_compare_eq hx).2.trans (Range.notAfter_of_compare_eq hy).1
  have hsublist : (tiedWith r rs).Sublist (stableSort rs) :=
    List.sublist_mergeSort Range.isLE_trans Range.isLE_total hgroup List.filter_sublist
  have hwithin : (tiedWith r rs).Sublist (tiedWith r (stableSort rs)) := by
    have hfilter := hsublist.filter fun x => r.compare x == .eq
    simpa [tiedWith] using hfilter
  have hlength : (tiedWith r rs).length = (tiedWith r (stableSort rs)).length :=
    ((List.mergeSort_perm rs _).filter _).length_eq.symm
  exact (hwithin.eq_of_length hlength).symm

/-- Placing puts a range behind its group. -/
theorem tiedWith_place (s r : Range) {rs : List Range} (h : Sorted rs) :
    tiedWith s (place r rs) = tiedWith s rs ++ tiedWith s [r] := by
  induction rs with
  | nil => rfl
  | cons x xs ih =>
    rw [place]
    by_cases hgt : x.compare r = .gt
    · rw [if_pos hgt]
      by_cases hs : s.compare r = .eq
      · -- all ranges of the list are greater than the new one, so none is of its group
        have hnone : tiedWith s (x :: xs) = [] := by
          refine List.eq_nil_iff_forall_not_mem.2 fun y hy => ?_
          obtain ⟨hy, hsy⟩ := mem_tiedWith.1 hy
          have hyr : y.NotAfter r :=
            (Range.notAfter_of_compare_eq hsy).2.trans (Range.notAfter_of_compare_eq hs).1
          exact Range.notAfter_iff.1 ((notAfter_of_mem h hy).trans hyr) hgt
        rw [tiedWith_cons_of_eq hs, hnone, tiedWith_cons_of_eq hs]
        rfl
      · rw [tiedWith_cons_of_ne hs, tiedWith_cons_of_ne hs]
        exact (List.append_nil _).symm
    · rw [if_neg hgt]
      have hrest := ih (List.pairwise_cons.1 h).2
      by_cases hs : s.compare x = .eq
      · rw [tiedWith_cons_of_eq hs, tiedWith_cons_of_eq hs, hrest, List.cons_append]
      · rw [tiedWith_cons_of_ne hs, tiedWith_cons_of_ne hs, hrest]

theorem place_stableSort (r : Range) (rs : List Range) :
    place r (stableSort rs) = stableSort (rs ++ [r]) := by
  refine eq_of_tiedWith (sorted_place (sorted_stableSort rs) r) (sorted_stableSort _) fun s => ?_
  rw [tiedWith_place s r (sorted_stableSort rs), tiedWith_stableSort, tiedWith_stableSort]
  exact (List.filter_append _ _).symm

/-! ## The ranges of a list -/

/-- Ranges as a list keeps them: in their order, or with their bounds put in order and sorted. -/
def arrange (ordered : Bool) (rs : List Range) : List Range :=
  if ordered then stableSort (rs.map Range.normalize) else rs

/-- The ranges of a list after a further one was added. -/
theorem ranges_add {s : RangeList} {rs : List Range} (h : s.ranges = arrange s.ordered rs)
    (r : Range) : (s.add r).ranges = arrange s.ordered (rs ++ [r]) := by
  have hadd : (s.add r).ranges =
      if s.ordered then place r.normalize s.ranges else s.ranges ++ [r] := rfl
  rw [hadd, h, arrange, arrange]
  cases s.ordered with
  | true =>
    rw [if_pos rfl, if_pos rfl, if_pos rfl, place_stableSort, List.map_append]
    rfl
  | false => rfl

/-- Adds one range after the other. -/
def addAll (s : RangeList) (rs : List Range) : RangeList :=
  rs.foldl add s

theorem addAll_eq (s : RangeList) (rs : List Range) :
    s.addAll rs = { s with ranges := (s.addAll rs).ranges } := by
  induction rs generalizing s with
  | nil => rfl
  | cons r rs ih => exact ih (s.add r)

theorem ranges_addAll {s : RangeList} {rs : List Range} (h : s.ranges = arrange s.ordered rs)
    (rs' : List Range) : (s.addAll rs').ranges = arrange s.ordered (rs ++ rs') := by
  induction rs' generalizing s rs with
  | nil => rwa [List.append_nil]
  | cons r rs' ih =>
    have hadd := @ih (s.add r) _ (ranges_add h r)
    rwa [List.append_assoc, List.singleton_append] at hadd

theorem arrange_nil (ordered : Bool) : arrange ordered [] = [] := by
  cases ordered <;> simp [arrange, stableSort]

theorem compare_ne_gt_of_mem_arrange {rs : List Range} {low high : Endpoint}
    (h : .closed low high ∈ arrange true rs) : low.compare high ≠ .gt := by
  rw [arrange, if_pos rfl, mem_stableSort] at h
  obtain ⟨r, -, hr⟩ := List.mem_map.1 h
  exact Range.compare_ne_gt_of_normalize hr

end RangeList

end SkyDiscovery
