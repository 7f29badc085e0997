import SkyDiscovery.Proofs.Parameter.Kinds
import SkyDiscovery.Proofs.Query.Outline
import SkyDiscovery.Sample.Contexts

/-!
# The literals of compiled queries

Texts of the client stand in the text of a query within literals only: the pattern of each
polarization state and collection, and the key of a dataset.  The other literals are patterns of the
words for a level of calibration, which are always the same.  The rest of the text does not depend
on the characters of any of them.

* `CatalogQuery.literalTexts`: the texts of the literals, read off the request.
* `CatalogQuery.literals_constraint?`: what the constraint of each axis puts into literals.
* `CatalogQuery.Alike.outline_constraint?`: requests that differ in such texts only have
  constraints of one outline.
* `CatalogQuery.literals_of_compile`: the literals of a compiled query, and the text outside them.
-/

namespace SkyDiscovery

open Sql

namespace CatalogQuery

/-! ## The texts of a request -/

/-- The words of a list, which are its single texts. -/
def wordsOf (list : RangeList) : List String :=
  list.ranges.filterMap fun
    | .single (.text w) => some w
    | _ => none

/-- The polarization states to match: the first four words of the list, or the four of Stokes.  With
`any` there is none in particular. -/
def matchedStates (s : ParameterSet) : List String :=
  match s.text? "POL" with
  | none => []
  | some raw =>
    if Text.lower raw = "any" then []
    else if Text.lower raw = "stokes" then ["I", "Q", "U", "V"]
    else ((s.ranges? "POL").toList.flatMap wordsOf).take 4

/-- The key of the dataset to match: what stands behind the last colon of its identifier. -/
def matchedKey (s : ParameterSet) : List String :=
  (s.text? "PubDID").toList.map fun id => String.ofList (id.toList.rtakeWhile (· != ':'))

/-- The collections to match: the names between commas.  With `all` there is none in particular. -/
def matchedCollections (s : ParameterSet) : List String :=
  match s.text? "Collection" with
  | none => []
  | some raw =>
    if Text.lower raw = "all" then []
    else (Text.items (· == ',') raw.toList).map String.ofList

/-- The words of calibration to match, from that for the level asked for on. -/
def matchedCalibration (s : ParameterSet) (parameter : String) : List String :=
  (s.text? parameter).toList.flatMap fun level =>
    ["relative", "absolute"].dropWhile (· ≠ Text.lower level)

/-- The patterns of the texts that contain a word. -/
def containing (words : List String) : List String :=
  words.map fun w => "%" ++ w ++ "%"

/-- The texts that a request puts into literals, in their order. -/
def literalTexts (s : ParameterSet) : Protocol → List String
  | .image =>
    containing (matchedStates s) ++ matchedKey s ++ containing (matchedCollections s) ++
      containing (matchedCalibration s "ASTCalib") ++ containing (matchedCalibration s "FluxCalib")
  | .spectrum =>
    containing (matchedStates s) ++ matchedKey s ++ containing (matchedCollections s) ++
      containing (matchedCalibration s "FluxCalib") ++ containing (matchedCalibration s "WaveCalib")
  | .cone => []

/-- The texts that the constraint of an axis puts into literals. -/
def axisLiterals (s : ParameterSet) : Axis → List String
  | .polarization => containing (matchedStates s)
  | .identifier => matchedKey s
  | .collection => containing (matchedCollections s)
  | .astrometricCalibration => containing (matchedCalibration s "ASTCalib")
  | .fluxCalibration => containing (matchedCalibration s "FluxCalib")
  | .wavelengthCalibration => containing (matchedCalibration s "WaveCalib")
  | _ => []

theorem flatMap_axisLiterals (s : ParameterSet) (p : Protocol) :
    p.axes.flatMap (axisLiterals s) = literalTexts s p := by
  cases p <;> simp [Protocol.axes, axisLiterals, literalTexts]

/-! ## What is matched -/

section

variable {p : Protocol} {s : ParameterSet}

theorem sameIgnoringCase_iff {a b : String} (hb : Text.lower b = b) :
    Text.sameIgnoringCase a b = true ↔ Text.lower a = b := by
  rw [Text.sameIgnoringCase, hb, beq_iff_eq]

/-- The list of states of a request that was read holds words only. -/
theorem exists_word_of_mem {pairs : List (String × String)}
    (hread : ParameterSet.read p pairs = .ok s) (hp : p.supports .polarization = true)
    {list : RangeList} (hlist : s.ranges? "POL" = some list) {r : Range} (hr : r ∈ list.ranges) :
    ∃ w, r = .single (.text w) := by
  obtain ⟨declared, ordered, hkind, hreadable, -, hdeclared⟩ :=
    (ParameterSet.byKind_of_read hread).ranges? (by decide +kernel) hlist
  have htexts : (ParameterSet.declarationOf p "POL").kind = .textList := by
    cases p with
    | image | spectrum => decide +kernel
    | cone => cases hp
  obtain rfl : declared = some .text := by
    rw [htexts] at hkind
    cases hkind
    rfl
  cases hreadable.ranges r hr with
  | word _ _ => exact ⟨_, rfl⟩
  | bounds hne _ _ => exact absurd hdeclared hne

theorem map_write_value? {list : RangeList} (h : ∀ r ∈ list.ranges, ∃ w, r = .single (.text w)) :
    (list.ranges.filterMap Range.value?).map (fun v => String.ofList v.write) = wordsOf list := by
  rw [wordsOf, List.map_filterMap]
  refine List.filterMap_congr fun r hr => ?_
  obtain ⟨w, rfl⟩ := h r hr
  simp [Range.value?, Range.low?, Endpoint.write]

theorem polarizationStates_eq {pairs : List (String × String)}
    (hread : ParameterSet.read p pairs = .ok s) (hp : p.supports .polarization = true)
    {raw : String} (hraw : s.text? "POL" = some raw) (hany : Text.lower raw ≠ "any") :
    polarizationStates raw (s.ranges? "POL") = matchedStates s := by
  simp only [polarizationStates, matchedStates, hraw, hany, if_false,
    sameIgnoringCase_iff (show Text.lower "stokes" = "stokes" from rfl)]
  split
  · rfl
  · cases hlist : s.ranges? "POL" with
    | none => rfl
    | some list =>
      simp only [Option.toList_some, List.flatMap_singleton]
      rw [map_write_value? fun r hr => exists_word_of_mem hread hp hlist hr]

theorem collectionNames_eq {raw : String} (hraw : s.text? "Collection" = some raw)
    (hall : Text.lower raw ≠ "all") : collectionNames raw = matchedCollections s := by
  simp only [matchedCollections, hraw, hall, if_false]
  rfl

theorem calibrationWords_eq (level : String) :
    calibrationWords level = ["relative", "absolute"].dropWhile (· ≠ Text.lower level) := by
  rw [calibrationWords]
  simp only [sameIgnoringCase_iff (show Text.lower "relative" = "relative" from rfl),
    sameIgnoringCase_iff (show Text.lower "absolute" = "absolute" from rfl), List.dropWhile,
    decide_not, eq_comm (b := Text.lower level)]
  by_cases hrelative : Text.lower level = "relative"
  · simp [hrelative]
  · by_cases habsolute : Text.lower level = "absolute" <;> simp [hrelative, habsolute]

end

variable {p : Protocol} {t : TableMapping} {s : ParameterSet}

theorem literals_spatial (r : Region Float) :
    Conjunction.literals (spatial p t r).condition = [] := by
  have hgroup : ∀ ranges : List (Float × Float), ∀ column, Factor.literalsOfAlternatives
      (ranges.map fun x => [.test (.between column x.1 x.2)]) = [] := by
    intro ranges column
    induction ranges with
    | nil => rfl
    | cons x ranges ih => rw [List.map_cons, Factor.literalsOfAlternatives, ih]; rfl
  unfold spatial
  by_cases hconstrains : r.coarseBox.constrainsLon
  · simp only [hconstrains, if_true]
    rw [Conjunction.literals, Factor.literals, hgroup]
    rfl
  · simp only [hconstrains, Bool.false_eq_true, if_false]
    rfl

theorem literals_overlap (lowColumn highColumn : String) (i : Interval Float) :
    Conjunction.literals (Interval.overlap lowColumn highColumn i) = [] := by
  obtain ⟨low, high⟩ := i
  cases low <;> cases high <;> rfl

theorem literals_anyOverlap? {lowColumn highColumn : String} {is : List (Interval Float)}
    {c : Conjunction} (h : Interval.anyOverlap? lowColumn highColumn is = some c) :
    Conjunction.literals c = [] := by
  have hgroups : ∀ d ∈ (is.map (Interval.overlap lowColumn highColumn)).filter
      (fun c => !c.isEmpty), Conjunction.literals d = [] := by
    intro d hd
    rw [List.mem_filter, List.mem_map] at hd
    obtain ⟨⟨i, -, rfl⟩, -⟩ := hd
    exact literals_overlap lowColumn highColumn i
  unfold Interval.anyOverlap? at h
  split at h
  · exact absurd h (by simp)
  · next d hd =>
    obtain rfl : d = c := by simpa using h
    exact hgroups d (by rw [hd]; exact List.mem_cons_self)
  · next cs _ _ =>
    rw [Option.some.injEq] at h
    subst h
    generalize (is.map (Interval.overlap lowColumn highColumn)).filter
      (fun c => !c.isEmpty) = groups at hgroups ⊢
    rw [Conjunction.literals, Factor.literals, Conjunction.literals, List.append_nil]
    induction groups with
    | nil => rfl
    | cons d groups ih =>
      have hd := hgroups d List.mem_cons_self
      rw [List.map_cons, Factor.literalsOfAlternatives,
        ih fun e he => hgroups e (List.mem_cons_of_mem _ he)]
      simp [Conjunction.literals, Factor.literals, Factor.literalsOfAlternatives, hd]

theorem literals_calibration (parameter canonical : String) {a : Axis}
    (ha : a.calibrationColumn? = some canonical) :
    ((calibration t s parameter a).map fun k => Conjunction.literals k.condition).getD [] =
      containing (matchedCalibration s parameter) := by
  rw [calibration, matchedCalibration]
  cases s.text? parameter with
  | none => rfl
  | some level =>
    rw [Option.bind_some, ha, Option.bind_some, Option.toList_some, List.flatMap_singleton,
      ← calibrationWords_eq]
    have hwords : ∀ words : List String, Factor.literalsOfAlternatives
        (words.map fun w => [.test (.like (t.column canonical) ("%" ++ w ++ "%"))]) =
          containing words := by
      intro words
      induction words with
      | nil => rfl
      | cons w words ih => rw [List.map_cons, Factor.literalsOfAlternatives, ih]; rfl
    simp only
    split
    · next hnil => rw [hnil]; rfl
    · simp only [Option.map_some, Option.getD_some]
      rw [Conjunction.literals, Factor.literals, hwords, Conjunction.literals, List.append_nil]

/-! ## Constraints to match texts -/

/-- The constraint to match one of some texts, if there are any. -/
def matching (kind : ConstraintKind) (parameter column : String) : List String → Option Constraint
  | [] => none
  | w :: ws => some ⟨kind, parameter, [.containsAny column (w :: ws)]⟩

/-- The outline of a condition to match one of a number of texts. -/
def outlineOfMatches (column : String) (n : Nat) : Conjunction :=
  if n = 0 then [] else [.group (List.replicate n [Factor.only (.like column "")])]

theorem literals_matching (kind : ConstraintKind) (parameter column : String)
    (texts : List String) :
    ((matching kind parameter column texts).map fun k =>
      Conjunction.literals k.condition).getD [] = containing texts := by
  cases texts with
  | nil => rfl
  | cons w ws =>
    simp only [matching, Option.map_some, Option.getD_some]
    rw [Conjunction.literals, Factor.literals_containsAny, Conjunction.literals, List.append_nil,
      containing]

theorem outline_matching (kind : ConstraintKind) (parameter column : String)
    (texts : List String) :
    ((matching kind parameter column texts).map fun k =>
      Conjunction.outline k.condition).getD [] = outlineOfMatches column texts.length := by
  cases texts with
  | nil => rfl
  | cons w ws =>
    simp only [matching, Option.map_some, Option.getD_some]
    rw [Conjunction.outline, Factor.outline_containsAny, Conjunction.outline, outlineOfMatches,
      if_neg (by simp)]

section

variable {pairs : List (String × String)} (hread : ParameterSet.read p pairs = .ok s)
  (hp : p.supports .polarization = true)

include hread hp

/-- Unless any state is welcome, the states are matched as texts. -/
theorem polarizationConstraint_eq
    (hany : ∀ raw, s.text? "POL" = some raw → Text.lower raw ≠ "any") :
    polarizationConstraint t s =
      matching .polarization "POL" (t.column "pol_states") (matchedStates s) := by
  rw [polarizationConstraint]
  cases htext : s.text? "POL" with
  | none => rw [matchedStates, htext]; rfl
  | some raw =>
    have hraw := hany raw htext
    simp only [Option.bind_some, sameIgnoringCase_iff (show Text.lower "any" = "any" from rfl), hraw,
      if_false, polarizationStates_eq hread hp htext hraw]
    cases matchedStates s <;> rfl

/-- Where any state is welcome no state is matched. -/
theorem literals_polarization :
    ((polarizationConstraint t s).map fun k => Conjunction.literals k.condition).getD [] =
      containing (matchedStates s) := by
  by_cases hany : ∀ raw, s.text? "POL" = some raw → Text.lower raw ≠ "any"
  · rw [polarizationConstraint_eq hread hp hany, literals_matching]
  · simp only [not_forall, not_not] at hany
    obtain ⟨raw, htext, hraw⟩ := hany
    simp only [polarizationConstraint, matchedStates, htext, Option.bind_some, hraw, if_true,
      sameIgnoringCase_iff (show Text.lower "any" = "any" from rfl)]
    rfl

end

theorem collection_eq :
    collection t s =
      matching .collection "Collection" (t.column "obs_collection") (matchedCollections s) := by
  rw [collection]
  cases htext : s.text? "Collection" with
  | none => rw [matchedCollections, htext]; rfl
  | some raw =>
    simp only [Option.bind_some, sameIgnoringCase_iff (show Text.lower "all" = "all" from rfl)]
    by_cases hall : Text.lower raw = "all"
    · simp only [matchedCollections, htext, hall, if_true]
      rfl
    · rw [if_neg hall, collectionNames_eq htext hall]
      cases matchedCollections s <;> rfl

theorem literals_collection :
    ((collection t s).map fun k => Conjunction.literals k.condition).getD [] =
      containing (matchedCollections s) := by
  rw [collection_eq, literals_matching]

theorem literals_identifier :
    ((identifier t s).map fun k => Conjunction.literals k.condition).getD [] = matchedKey s := by
  rw [identifier, matchedKey]
  cases s.text? "PubDID" <;> rfl

theorem outline_identifier :
    ((identifier t s).map fun k => Conjunction.outline k.condition).getD [] =
      if s.isSet "PubDID" then [Factor.only (.equalsText (t.column "id") "")] else [] := by
  rw [identifier, ParameterSet.text?, ParameterSet.isSet]
  cases s.get? "PubDID" <;> rfl

/-- What the constraint of an axis puts into literals. -/
theorem literals_constraint? {pairs : List (String × String)}
    (hread : ParameterSet.read p pairs = .ok s) (w : Wishes) {a : Axis} (ha : a ∈ p.axes) :
    ((constraint? p t s w a).map fun k => Conjunction.literals k.condition).getD [] =
      axisLiterals s a := by
  cases a with
  | spatial =>
    rw [constraint?, axisLiterals]
    cases w.region with
    | none => rfl
    | some r => exact literals_spatial r
    all_goals simp
  | spectral | temporal =>
    rw [constraint?, axisLiterals, overlapping]
    · cases h : Interval.anyOverlap? _ _ _ with
      | none => rfl
      | some c => exact literals_anyOverlap? h
    all_goals simp
  | spatialResolution | spectralResolution | resolvingPower =>
    rw [constraint?, axisLiterals, minimum]
    · cases s.float? _ <;> rfl
    all_goals simp
  | polarization => exact literals_polarization hread (List.contains_iff_mem.2 ha)
  | identifier => exact literals_identifier
  | collection => exact literals_collection
  | astrometricCalibration => exact literals_calibration "ASTCalib" "s_calib_status" rfl
  | fluxCalibration => exact literals_calibration "FluxCalib" "o_calib_status" rfl
  | wavelengthCalibration => exact literals_calibration "WaveCalib" "em_calib_status" rfl
  | datasetShape =>
    rw [constraint?, axisLiterals, datasetShape]
    · cases s.text? "TYPE" with
      | none => rfl
      | some shape =>
        rw [Option.bind_some]
        split
        · rfl
        · split <;> rfl
    all_goals simp

/-! ## Requests that differ in texts only -/

/-- The parameters whose texts go into literals. -/
def textParameters : List String := ["PubDID", "Collection", "POL"]

/-- The requests are equal but for the characters of the identifier, the collection names and the
polarization states, of which there are as many in both. -/
structure Alike (s s' : ParameterSet) : Prop where
  elsewhere : ∀ name, Text.lower name ∉ textParameters.map Text.lower → s.get? name = s'.get? name
  identifiers : s.isSet "PubDID" = s'.isSet "PubDID"
  collections : (matchedCollections s).length = (matchedCollections s').length
  states : (matchedStates s).length = (matchedStates s').length
  notAny : ∀ raw, s.text? "POL" = some raw → Text.lower raw ≠ "any"
  notAny' : ∀ raw, s'.text? "POL" = some raw → Text.lower raw ≠ "any"

namespace Alike

variable {s' : ParameterSet}

theorem text? (h : Alike s s') (name : String)
    (hname : Text.lower name ∉ textParameters.map Text.lower) : s.text? name = s'.text? name := by
  rw [ParameterSet.text?, ParameterSet.text?, h.elsewhere name hname]

theorem float? (h : Alike s s') (name : String)
    (hname : Text.lower name ∉ textParameters.map Text.lower) : s.float? name = s'.float? name := by
  rw [ParameterSet.float?, ParameterSet.float?, h.elsewhere name hname]

theorem integer? (h : Alike s s') (name : String)
    (hname : Text.lower name ∉ textParameters.map Text.lower) :
    s.integer? name = s'.integer? name := by
  rw [ParameterSet.integer?, ParameterSet.integer?, h.elsewhere name hname]

theorem ranges? (h : Alike s s') (name : String)
    (hname : Text.lower name ∉ textParameters.map Text.lower) :
    s.ranges? name = s'.ranges? name := by
  rw [ParameterSet.ranges?, ParameterSet.ranges?, h.elsewhere name hname]

theorem isSet (h : Alike s s') (name : String)
    (hname : Text.lower name ∉ textParameters.map Text.lower) : s.isSet name = s'.isSet name := by
  rw [ParameterSet.isSet, ParameterSet.isSet, h.elsewhere name hname]

/-- No text that goes into a literal has a part in what is read of the other parameters. -/
theorem wishes_eq (h : Alike s s') (p : Protocol) : wishes p s = wishes p s' := by
  have hranges : ∀ name ∈ ["POS", "SIZE", "BAND", "TIME"],
      Text.lower name ∉ textParameters.map Text.lower := by decide
  have hfloat : ∀ name ∈ ["RA", "DEC", "SR"],
      Text.lower name ∉ textParameters.map Text.lower := by decide
  exact wishes_congr (fun name hname => h.ranges? name (hranges name hname))
    (fun name hname => h.float? name (hfloat name hname)) fun _ => h.isSet "SR" (by decide)

/-- Requests with other values under the names of texts only. -/
theorem of_read {p : Protocol} {pairs pairs' : List (String × String)}
    (hpairs : ParameterSet.EqualOff (textParameters.map Text.lower) pairs pairs')
    (hs : ParameterSet.read p pairs = .ok s) (hs' : ParameterSet.read p pairs' = .ok s')
    (identifiers : s.isSet "PubDID" = s'.isSet "PubDID")
    (collections : (matchedCollections s).length = (matchedCollections s').length)
    (states : (matchedStates s).length = (matchedStates s').length)
    (notAny : ∀ raw, s.text? "POL" = some raw → Text.lower raw ≠ "any")
    (notAny' : ∀ raw, s'.text? "POL" = some raw → Text.lower raw ≠ "any") :
    Alike s s' :=
  ⟨fun name hname => ParameterSet.agreeOff_read p hpairs hs hs' (Text.lower name) hname,
    identifiers, collections, states, notAny, notAny'⟩

/-- Outside literals the constraints of an axis do not tell the requests apart. -/
theorem outline_constraint? (h : Alike s s') {p : Protocol} (t : TableMapping)
    {pairs pairs' : List (String × String)} (hread : ParameterSet.read p pairs = .ok s)
    (hread' : ParameterSet.read p pairs' = .ok s') (w : Wishes) {a : Axis} (ha : a ∈ p.axes) :
    ((constraint? p t s w a).map fun k => Conjunction.outline k.condition).getD [] =
      ((constraint? p t s' w a).map fun k => Conjunction.outline k.condition).getD [] := by
  cases a with
  | spatial | spectral | temporal => rfl
  | polarization =>
    have hp : p.supports .polarization = true := List.contains_iff_mem.2 ha
    rw [constraint?, constraint?, polarizationConstraint_eq hread hp h.notAny,
      polarizationConstraint_eq hread' hp h.notAny', outline_matching, outline_matching, h.states]
  | spatialResolution => simp only [constraint?, minimum, h.float? "SPATRES" (by decide)]
  | spectralResolution => simp only [constraint?, minimum, h.float? "SPECRES" (by decide)]
  | resolvingPower => simp only [constraint?, minimum, h.float? "SPECRP" (by decide)]
  | identifier =>
    rw [constraint?, constraint?, outline_identifier, outline_identifier, h.identifiers]
  | collection =>
    rw [constraint?, constraint?, collection_eq, collection_eq, outline_matching, outline_matching,
      h.collections]
  | astrometricCalibration =>
    simp only [constraint?, calibration, h.text? "ASTCalib" (by decide)]
  | fluxCalibration => simp only [constraint?, calibration, h.text? "FluxCalib" (by decide)]
  | wavelengthCalibration => simp only [constraint?, calibration, h.text? "WaveCalib" (by decide)]
  | datasetShape => simp only [constraint?, datasetShape, h.text? "TYPE" (by decide)]

end Alike

/-! ## The text of a query -/

theorem flatMap_filterMap {α β γ : Type} (f : α → Option β) (g : β → List γ) (xs : List α) :
    (xs.filterMap f).flatMap g = xs.flatMap fun x => ((f x).map g).getD [] := by
  induction xs with
  | nil => rfl
  | cons x xs ih =>
    rw [List.flatMap_cons, ← ih]
    cases hx : f x with
    | none => rw [List.filterMap_cons_none hx]; rfl
    | some y => rw [List.filterMap_cons_some hx, List.flatMap_cons]; rfl

theorem literals_flatMap (ks : List Constraint) :
    Conjunction.literals (ks.flatMap Constraint.condition) =
      ks.flatMap fun k => Conjunction.literals k.condition := by
  induction ks with
  | nil => rfl
  | cons k ks ih => rw [List.flatMap_cons, Conjunction.literals_append, ih, List.flatMap_cons]

theorem outline_flatMap (ks : List Constraint) :
    Conjunction.outline (ks.flatMap Constraint.condition) =
      ks.flatMap fun k => Conjunction.outline k.condition := by
  induction ks with
  | nil => rfl
  | cons k ks ih => rw [List.flatMap_cons, Conjunction.outline_append, ih, List.flatMap_cons]

theorem literals_condition {pairs : List (String × String)}
    (hread : ParameterSet.read p pairs = .ok s) {c : Context} {q : CatalogQuery}
    (h : compile p t c s = .ok q) : Conjunction.literals q.condition = literalTexts s p := by
  obtain ⟨w, -, -, -, hconstraints⟩ := compile_parts h
  rw [condition, literals_flatMap, hconstraints, flatMap_filterMap, ← flatMap_axisLiterals]
  exact List.flatMap_congr fun a ha => literals_constraint? hread w ha

theorem Alike.outline_condition {s' : ParameterSet} (halike : Alike s s')
    {pairs pairs' : List (String × String)} (hread : ParameterSet.read p pairs = .ok s)
    (hread' : ParameterSet.read p pairs' = .ok s') {c : Context} {q q' : CatalogQuery} (h : compile p t c s = .ok q) (h' : compile p t c s' = .ok q') :
    Conjunction.outline q.condition = Conjunction.outline q'.condition := by
  obtain ⟨w, hw, -, -, hconstraints⟩ := compile_parts h
  obtain ⟨w', hw', -, -, hconstraints'⟩ := compile_parts h'
  obtain rfl : w = w' := by
    rw [halike.wishes_eq, hw'] at hw
    exact (Except.ok.inj hw).symm
  rw [condition, condition, outline_flatMap, outline_flatMap, hconstraints, hconstraints',
    flatMap_filterMap, flatMap_filterMap]
  exact List.flatMap_congr fun a ha => halike.outline_constraint? t hread hread' w ha

theorem Alike.table_and_cap {s' : ParameterSet} (halike : Alike s s') {c : Context}
    {q q' : CatalogQuery} (h : compile p t c s = .ok q) (h' : compile p t c s' = .ok q') :
    q'.table = q.table ∧ q'.recordCap = q.recordCap := by
  obtain ⟨-, -, htable, hcap, -⟩ := compile_parts h
  obtain ⟨-, -, htable', hcap', -⟩ := compile_parts h'
  have hlimit : recordLimit s c = recordLimit s' c := by
    rw [recordLimit, recordLimit, halike.integer? "MAXREC" (by decide)]
  refine ⟨?_, ?_⟩
  · rw [htable] at htable'
    exact (Except.ok.inj htable').symm
  · rw [hlimit, hcap'] at hcap
    exact Except.ok.inj hcap

/-- The text of a query for a table with an outline of its condition. -/
def outlineText (table : String) (outline : Conjunction) : String :=
  "SELECT * FROM " ++ table ++
    if outline.isEmpty then "" else " WHERE " ++ Conjunction.text outline

theorem splits_text {q : CatalogQuery}
    (hsound : ∀ k ∈ q.constraints, Conjunction.Sound Unquoted k.condition)
    (htable : Unquoted q.table) (hcap : 0 < q.recordCap) :
    Splits q.text.toList (outlineText q.table (Conjunction.outline q.condition)).toList
      (Conjunction.literals q.condition) := by
  have hstart : '\x27' ∉ ("SELECT * FROM " ++ q.table).toList := by
    rw [String.toList_append, List.mem_append, not_or]
    exact ⟨by decide, htable⟩
  by_cases hne : q.constraints = []
  · have hcondition : q.condition = [] := by rw [condition, hne, List.flatMap_nil]
    rw [text_of_nil hcap hne, hcondition]
    simpa [outlineText, Conjunction.outline, Conjunction.literals] using splits_plain hstart
  · have hcondition := sound_condition hsound hne
    have houtline : (Conjunction.outline q.condition).isEmpty = false := by
      obtain ⟨f, fs, hf⟩ := List.exists_cons_of_ne_nil hcondition.1
      rw [hf, Conjunction.outline, List.isEmpty_cons]
    rw [text_of_sound hcap hsound hne, outlineText, houtline]
    have := (splits_plain hstart).between (w := " WHERE ".toList) (by decide) (by decide)
      hcondition.splits
    simpa using this

/-- The literals of a compiled query are, in order, the texts that the request puts into literals,
and nothing of the text of a query is left in a literal.  Requests that differ in the characters of
these texts only have the same text outside literals. -/
theorem literals_of_compile {p : Protocol} {t : TableMapping} {c : Context} {s : ParameterSet}
    {q : CatalogQuery} {pairs : List (String × String)}
    (hcolumns : ∀ canonical column, t.resolve canonical = some column → Unquoted column)
    (htable : Unquoted q.table) (hread : ParameterSet.read p pairs = .ok s)
    (hcompile : compile p t c s = .ok q) (hcap : 0 < q.recordCap) :
    ∃ symbols, scan q.text.toList = some symbols ∧
      literalsOf symbols = (literalTexts s p).map String.toList ∧
      ∀ pairs' s' q', ParameterSet.read p pairs' = .ok s' → Alike s s' →
        compile p t c s' = .ok q' →
        ∃ symbols', scan q'.text.toList = some symbols' ∧
          outsideOf symbols' = outsideOf symbols := by
  have hsound := sound_of_compile (forall_column (by decide) hcolumns) hcompile
  obtain ⟨xs, ys, hx, hy, hliterals, houtside⟩ := splits_text hsound htable hcap
  refine ⟨xs, hx.scan_eq, ?_, fun pairs' s' q' hread' halike hcompile' => ?_⟩
  · rw [hliterals, literals_condition hread hcompile]
  · have hsound' := sound_of_compile (forall_column (by decide) hcolumns) hcompile'
    obtain ⟨htables, hcaps⟩ := halike.table_and_cap hcompile hcompile'
    obtain ⟨us, vs, hu, hv, -, houtside'⟩ :=
      splits_text hsound' (by rw [htables]; exact htable) (by omega)
    refine ⟨us, hu.scan_eq, ?_⟩
    rw [htables, ← halike.outline_condition hread hread' hcompile hcompile'] at hv
    have hsame : ys = vs := Option.some.inj (hy.scan_eq.symm.trans hv.scan_eq)
    rw [houtside, houtside', hsame]

/-- Two requests with quotes at the ends of texts and within them.  The first names five states, of
which four are matched, and both ask for levels of calibration. -/
theorem literals_of_compile_of_quotes :
    let pairs := [("POL", "'I, Q'',U,V,LL"), ("PubDID", "x:o'brien''"), ("Collection", "'a,b"),
      ("ASTCalib", "Relative"), ("FluxCalib", "absolute")]
    let pairs' := [("POL", "',' OR 1 = 1,%,''"), ("PubDID", "'"), ("Collection", "c,'' OR 1 = 1"),
      ("ASTCalib", "Relative"), ("FluxCalib", "absolute")]
    ∃ s s' q q', ParameterSet.read .image pairs = .ok s ∧ ParameterSet.read .image pairs' = .ok s' ∧
      Alike s s' ∧
      compile .image TableConfig.empty.mapping Sample.imageContext s = .ok q ∧
      compile .image TableConfig.empty.mapping Sample.imageContext s' = .ok q' ∧
      Unquoted q.table ∧ 0 < q.recordCap ∧
      ∃ symbols symbols', scan q.text.toList = some symbols ∧
        literalsOf symbols = ["%'I%", "%Q''%", "%U%", "%V%", "o'brien''", "%'a%", "%b%",
          "%relative%", "%absolute%", "%absolute%"].map String.toList ∧
        scan q'.text.toList = some symbols' ∧ outsideOf symbols' = outsideOf symbols := by
  intro pairs pairs'
  have hcompiles : ((ParameterSet.read .image pairs).toOption.any fun s =>
      (ParameterSet.read .image pairs').toOption.any fun s' =>
        (compile .image TableConfig.empty.mapping Sample.imageContext s).toOption.any fun q =>
          (compile .image TableConfig.empty.mapping Sample.imageContext s').toOption.any fun _ =>
            s.isSet "PubDID" = s'.isSet "PubDID" ∧
            (matchedCollections s).length = (matchedCollections s').length ∧
            (matchedStates s).length = (matchedStates s').length ∧
            (∀ raw ∈ s.text? "POL", Text.lower raw ≠ "any") ∧
            (∀ raw ∈ s'.text? "POL", Text.lower raw ≠ "any") ∧
            Unquoted q.table ∧ 0 < q.recordCap ∧
            literalTexts s .image = ["%'I%", "%Q''%", "%U%", "%V%", "o'brien''", "%'a%", "%b%",
              "%relative%", "%absolute%", "%absolute%"]) = true := by
    decide +kernel
  obtain ⟨s, hs, hrest⟩ := exists_ok_of_any hcompiles
  obtain ⟨s', hs', hrest⟩ := exists_ok_of_any hrest
  obtain ⟨q, hcompile, hrest⟩ := exists_ok_of_any hrest
  obtain ⟨q', hcompile', hrest⟩ := exists_ok_of_any hrest
  obtain ⟨hidentifiers, hcollections, hstates, hpol, hpol', htable, hcap, hliterals⟩ :=
    of_decide_eq_true hrest
  have hpairs : ParameterSet.EqualOff (textParameters.map Text.lower) pairs pairs' :=
    .cons ⟨rfl, by decide⟩ (.cons ⟨rfl, by decide⟩ (.cons ⟨rfl, by decide⟩
      (.cons ⟨rfl, by decide⟩ (.cons ⟨rfl, by decide⟩ .nil))))
  have halike : Alike s s' :=
    .of_read hpairs hs hs' hidentifiers hcollections hstates hpol hpol'
  have hcolumns : ∀ canonical column,
      TableConfig.empty.mapping.resolve canonical = some column → Unquoted column := by
    intro canonical column h
    simp [TableConfig.empty, TableConfig.mapping, TableConfig.resolve] at h
  obtain ⟨symbols, hscan, hdecoded, hother⟩ :=
    literals_of_compile hcolumns htable hs hcompile hcap
  obtain ⟨symbols', hscan', houtside⟩ := hother pairs' s' q' hs' halike hcompile'
  rw [hliterals] at hdecoded
  exact ⟨s, s', q, q', hs, hs', halike, hcompile, hcompile', htable, hcap, symbols, symbols',
    hscan, hdecoded, hscan', houtside⟩

end CatalogQuery

end SkyDiscovery
