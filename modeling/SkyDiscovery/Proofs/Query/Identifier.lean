import SkyDiscovery.Proofs.Parameter.Keys
import SkyDiscovery.Proofs.Query.Sound

/-!
# Requests for one dataset

A request names a dataset by its identifier, of which the text after the last colon is compared
with the id column.

* `datasetKey_append`, `datasetKey_eq_self_iff`: the text after the last colon.
* `exists_identifier_of_compile`: the constraint of a request that names a dataset.
* `compile_of_identifier_only`: the query of a request that asks for nothing else.
-/

namespace SkyDiscovery

namespace CatalogQuery

/-! ## The key of an identifier -/

theorem datasetKey_append (a b : String) :
    datasetKey (a ++ ":" ++ b) = datasetKey b := by
  have hlist : (a ++ ":" ++ b).toList = a.toList ++ ':' :: b.toList := by simp
  rw [datasetKey, hlist, Text.afterLast_append_cons]
  rfl

theorem datasetKey_eq_self_iff {t : String} :
    datasetKey t = t ↔ ':' ∉ t.toList := by
  rw [← Text.afterLast_eq_self_iff, datasetKey]
  constructor
  · intro h
    rw [← String.toList_ofList (l := Text.afterLast ':' t.toList), h]
  · intro h
    rw [h, String.ofList_toList]

/-! ## Requests -/

variable {p : Protocol} {t : TableMapping} {c : Context} {s : ParameterSet} {q : CatalogQuery}
  {did : String}

/-- The condition to be the dataset with a key. -/
def identifierText (t : TableMapping) (key : String) : String :=
  "(" ++ t.column "id" ++ " = '" ++ escapeLiteral key ++ "')"

theorem exists_identifier (hs : s.text? "PubDID" = some did) :
    ∃ k, identifier t s = some k ∧ k.parameter = "PubDID" ∧
      k.text = identifierText t (datasetKey did) := by
  rw [identifier, hs]
  refine ⟨_, rfl, rfl, String.toList_injective ?_⟩
  simp [Constraint.text, Conjunction.text, Conjunction.restText, Factor.only, Factor.text,
    Factor.alternativesText, Comparison.text, literal, identifierText]

theorem identifier_mem_axes (hp : p.hasAccess = true) : Axis.identifier ∈ p.axes := by
  cases p with
  | cone => cases hp
  | image | spectrum => decide

/-- Whatever else a request asks for, it is held to the dataset that it names. -/
theorem exists_identifier_of_compile (hp : p.hasAccess = true) (hs : s.text? "PubDID" = some did)
    (h : compile p t c s = .ok q) : ∃ k ∈ q.constraints, k.parameter = "PubDID" ∧
      k.text = identifierText t (datasetKey did) := by
  obtain ⟨w, -, -, -, hconstraints⟩ := compile_parts h
  obtain ⟨k, hk, hparameter, htext⟩ := exists_identifier (t := t) hs
  refine ⟨k, ?_, hparameter, htext⟩
  rw [hconstraints]
  exact List.mem_filterMap.2 ⟨.identifier, identifier_mem_axes hp, hk⟩

/-- Where nothing is set but the identifier, no other axis has a constraint. -/
theorem constraint?_of_identifier_only
    (hother : ∀ name, Text.lower name ≠ "pubdid" → s.get? name = none) (a : Axis) :
    constraint? p t s ⟨none, [], []⟩ a = if a = .identifier then identifier t s else none := by
  have hfloat : ∀ name, Text.lower name ≠ "pubdid" → s.float? name = none := by
    intro name hname
    rw [ParameterSet.float?, hother name hname]
    rfl
  have htext : ∀ name, Text.lower name ≠ "pubdid" → s.text? name = none := by
    intro name hname
    rw [ParameterSet.text?, hother name hname]
    rfl
  cases a with
  | identifier => rfl
  | spatial | spectral | temporal => rfl
  | polarization => simp [constraint?, polarizationConstraint, htext "POL" (by decide)]
  | spatialResolution => simp [constraint?, minimum, hfloat "SPATRES" (by decide)]
  | spectralResolution => simp [constraint?, minimum, hfloat "SPECRES" (by decide)]
  | resolvingPower => simp [constraint?, minimum, hfloat "SPECRP" (by decide)]
  | collection => simp [constraint?, collection, htext "Collection" (by decide)]
  | astrometricCalibration => simp [constraint?, calibration, htext "ASTCalib" (by decide)]
  | fluxCalibration => simp [constraint?, calibration, htext "FluxCalib" (by decide)]
  | wavelengthCalibration => simp [constraint?, calibration, htext "WaveCalib" (by decide)]
  | datasetShape => simp [constraint?, datasetShape, htext "TYPE" (by decide)]

theorem wishes_of_identifier_only (hp : p.hasAccess = true)
    (hother : ∀ name, Text.lower name ≠ "pubdid" → s.get? name = none) :
    wishes p s = .ok ⟨none, [], []⟩ := by
  have hranges : ∀ name, Text.lower name ≠ "pubdid" → s.ranges? name = none := by
    intro name hname
    rw [ParameterSet.ranges?, hother name hname]
    rfl
  have hintervals : ∀ a name, Text.lower name ≠ "pubdid" → intervals p a s name = .ok [] := by
    intro a name hname
    rw [intervals, Interval.ofParameter, hranges name hname]
    split <;> rfl
  have hcone : p ≠ .cone := by
    rintro rfl
    cases hp
  rw [wishes, region?, center?, hranges "POS" (by decide), if_neg hcone,
    hintervals _ "BAND" (by decide), hintervals _ "TIME" (by decide)]
  rfl

theorem compile_of_identifier_only (hp : p.hasAccess = true) (hs : s.text? "PubDID" = some did)
    (hother : ∀ name, Text.lower name ≠ "pubdid" → s.get? name = none) {table : String}
    (htable : c.requireTable = .ok table) :
    ∃ q, compile p t c s = .ok q ∧ q.table = table ∧ q.recordCap = c.maxRecords ∧
      q.whereText? = some (identifierText t (datasetKey did)) := by
  obtain ⟨k, hk, -, htext⟩ := exists_identifier (t := t) hs
  have hlimit : recordLimit s c = .ok c.maxRecords := by
    rw [recordLimit, ParameterSet.integer?, hother "MAXREC" (by decide)]
    rfl
  have hconstraints : p.axes.filterMap (constraint? p t s ⟨none, [], []⟩) = [k] := by
    have honly : constraint? p t s ⟨none, [], []⟩ =
        fun a => if a = Axis.identifier then some k else none := by
      funext a
      rw [constraint?_of_identifier_only hother, hk]
    rw [honly]
    cases p with
    | cone => cases hp
    | image | spectrum => rfl
  refine ⟨_, by rw [compile, htable, hlimit, wishes_of_identifier_only hp hother]; rfl, rfl, rfl, ?_⟩
  rw [whereText?, hconstraints]
  exact congrArg some ((String.intercalate_singleton).trans htext)

end CatalogQuery

end SkyDiscovery
