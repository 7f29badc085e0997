import SkyDiscovery.Proofs.Engine.Product
import SkyDiscovery.Proofs.Parameter.Undeclared
import SkyDiscovery.Proofs.Query.Sound
import SkyDiscovery.Sample.Collaborators
import SkyDiscovery.Sample.Contexts

/-!
# Runs with parameters that are not declared

The parts of the engine ask for parameters by name, whatever the protocol declares.  Yet a
parameter that is not declared does not matter: a typed value is not found under its name, and the
texts that are asked for are those that the protocol declares.  A cone search asks for the texts of
POL, FORMAT and MODE all the same, but these only choose among variants and describe cutouts, and a
cone search has none.

* `compile_eq_of_sameDeclared`: the query, but for the polarization states of cutouts.
* `run_insert_undeclared`: a run on a request with such a parameter and without.
-/

namespace SkyDiscovery

namespace CatalogQuery

open ParameterSet (SameDeclared)

variable {p : Protocol} {k : String} {s s' : ParameterSet}

/-- The parameters whose texts an axis asks for. -/
def textsOf : Axis → List String
  | .polarization => ["POL"]
  | .identifier => ["PubDID"]
  | .collection => ["Collection"]
  | .astrometricCalibration => ["ASTCalib"]
  | .fluxCalibration => ["FluxCalib"]
  | .wavelengthCalibration => ["WaveCalib"]
  | .datasetShape => ["TYPE"]
  | _ => []

theorem declared_of_mem_textsOf (p : Protocol) : ∀ a ∈ p.axes, ∀ name ∈ textsOf a,
    ∃ d ∈ p.declarations, Text.lower d.name = Text.lower name := by
  cases p <;> decide +kernel

theorem constraint?_congr (h : SameDeclared p k s s') (t : TableMapping) (w : Wishes) {a : Axis}
    (ha : a ∈ p.axes) : constraint? p t s w a = constraint? p t s' w a := by
  have htext : ∀ name ∈ textsOf a, s.text? name = s'.text? name :=
    fun name hname => h.text? (declared_of_mem_textsOf p a ha name hname)
  cases a with
  | spatial | spectral | temporal => rfl
  | polarization =>
    simp only [constraint?, polarizationConstraint, htext "POL" (by simp [textsOf]),
      h.ranges? "POL"]
  | spatialResolution => simp only [constraint?, minimum, h.float? "SPATRES"]
  | spectralResolution => simp only [constraint?, minimum, h.float? "SPECRES"]
  | resolvingPower => simp only [constraint?, minimum, h.float? "SPECRP"]
  | identifier => simp only [constraint?, identifier, htext "PubDID" (by simp [textsOf])]
  | collection => simp only [constraint?, collection, htext "Collection" (by simp [textsOf])]
  | astrometricCalibration =>
    simp only [constraint?, calibration, htext "ASTCalib" (by simp [textsOf])]
  | fluxCalibration => simp only [constraint?, calibration, htext "FluxCalib" (by simp [textsOf])]
  | wavelengthCalibration =>
    simp only [constraint?, calibration, htext "WaveCalib" (by simp [textsOf])]
  | datasetShape => simp only [constraint?, datasetShape, htext "TYPE" (by simp [textsOf])]

/-- A cone search declares the radius whose absence it notices; the others do not look for it. -/
theorem wishes_eq_of_sameDeclared (h : SameDeclared p k s s') : wishes p s = wishes p s' := by
  refine wishes_congr (fun name _ => h.ranges? name) (fun name _ => h.float? name) ?_
  rintro rfl
  exact h.isSet (by decide +kernel)

/-- The queries differ at most in the polarization states that a cutout is made for. -/
theorem compile_eq_of_sameDeclared (h : SameDeclared p k s s') (t : TableMapping) (c : Context) :
    compile p t c s =
      (compile p t c s').map fun q => { q with polarization := s.text? "POL" } := by
  have hlimit : recordLimit s c = recordLimit s' c := by
    rw [recordLimit, recordLimit, h.integer? "MAXREC"]
  have hconstraints : ∀ w, p.axes.filterMap (constraint? p t s w) =
      p.axes.filterMap (constraint? p t s' w) :=
    fun w => List.filterMap_congr fun a ha => constraint?_congr h t w ha
  simp only [compile, hlimit, wishes_eq_of_sameDeclared h, hconstraints]
  cases c.requireTable with
  | error f => rfl
  | ok table =>
    cases recordLimit s' c with
    | error f => rfl
    | ok cap =>
      cases wishes p s' with
      | error f => rfl
      | ok w => rfl

theorem polarization_of_compile {t : TableMapping} {c : Context} {q : CatalogQuery}
    (h : compile p t c s = .ok q) : q.polarization = s.text? "POL" := by
  obtain ⟨table, -, h⟩ := exists_of_bind h
  obtain ⟨cap, -, h⟩ := exists_of_bind h
  obtain ⟨w, -, h⟩ := exists_of_bind h
  cases h
  rfl

end CatalogQuery

/-! ## Rows -/

namespace Expander

variable {z : Synthesizer} {association : Option String} {row : Row}

/-- Variants that are not virtual need no editor. -/
theorem emit_congr_editor (editor editor' : Option Editor) {vs : List Variant}
    (h : ∀ v ∈ vs, v.product ≠ .virtual) (sink : Sink) (done : Expansion) :
    emit z editor association row vs sink done = emit z editor' association row vs sink done := by
  induction vs generalizing sink done with
  | nil => rfl
  | cons v vs ih =>
    have hv := h v List.mem_cons_self
    have hrest := ih fun w hw => h w (List.mem_cons_of_mem v hw)
    simp only [emit, recordOf_archival z editor association row hv,
      recordOf_archival z editor' association row hv, hrest]

/-- A cone search makes the same of a row whatever it is asked for. -/
theorem expand_congr_of_cone {x x' : Expander} (hx : x.protocol = .cone) (hx' : x'.protocol = .cone)
    (editor editor' : Option Editor) (row : Row) (out : Output) :
    x.expand z editor row out = x'.expand z editor' row out := by
  have hvariants : ∀ y : Expander, y.protocol = .cone →
      y.variants row = [⟨Protocol.cone.archivalMime, .archival⟩] := by
    intro y hy
    rw [variants, hy, Variant.select, if_pos rfl]
  have harchival : ∀ v ∈ [(⟨Protocol.cone.archivalMime, .archival⟩ : Variant)],
      v.product ≠ .virtual := by simp
  rw [expand, expand, hvariants x hx, hvariants x' hx']
  simp only [emit_congr_editor editor editor' harchival]

end Expander

namespace Engine

open ParameterSet (SameDeclared)

theorem Pipeline.takeRows_congr {l l' : Pipeline} (hadmits : ∀ row, l.admits row = l'.admits row)
    (hexpand : ∀ row out, l.expander.expand l.synthesizer l.editor row out =
      l'.expander.expand l'.synthesizer l'.editor row out) (items : List CursorItem)
    (progress : Progress) : l.takeRows items progress = l'.takeRows items progress := by
  induction items generalizing progress with
  | nil => rfl
  | cons item items ih => simp only [takeRows, hadmits, hexpand, ih]

/-! ## Runs -/

variable {g : Engine} {k : String} {s s' : ParameterSet}

theorem directory_congr (h : SameDeclared g.protocol k s s') : g.directory s = g.directory s' := by
  rw [directory, directory, verbosity, verbosity, h.integer? "VERB"]

theorem process_congr_of_cone (hg : g.protocol = .cone) (hrun : s.text? "RUNID" = s'.text? "RUNID")
    (q : CatalogQuery) (states : Option String) (d : FieldDirectory) (items : List CursorItem) :
    g.process { q with polarization := states } s d items = g.process q s' d items := by
  have hrows : ∀ items progress,
      (g.pipeline { q with polarization := states } s d).takeRows items progress =
        (g.pipeline q s' d).takeRows items progress := by
    refine Pipeline.takeRows_congr (fun _ => rfl) fun row out => ?_
    have hz : (g.pipeline { q with polarization := states } s d).synthesizer =
        (g.pipeline q s' d).synthesizer := congrArg (Synthesizer.make _ _ _ _) hrun
    rw [hz]
    exact Expander.expand_congr_of_cone hg hg _ _ row out
  simp only [process, hrows]
  rfl

/-- The texts that the engine asks for besides those of the query. -/
theorem pipeline_congr (hg : g.protocol ≠ .cone) (h : SameDeclared g.protocol k s s')
    (q : CatalogQuery) (d : FieldDirectory) : g.pipeline q s d = g.pipeline q s' d := by
  have hdeclared : ∀ p : Protocol, p ≠ .cone → ∀ name ∈ ["FORMAT", "MODE", "RUNID"],
      ∃ d ∈ p.declarations, Text.lower d.name = Text.lower name := by
    intro p hp
    cases p with
    | cone => exact absurd rfl hp
    | image | spectrum => decide +kernel
  have htext := fun name hname => h.text? (hdeclared g.protocol hg name hname)
  simp only [pipeline, Expander.make, htext "FORMAT" (by simp), htext "MODE" (by simp),
    htext "RUNID" (by simp)]

theorem process_congr (h : SameDeclared g.protocol k s s') {q : CatalogQuery}
    (hq : CatalogQuery.compile g.protocol g.table g.context s' = .ok q) (d : FieldDirectory)
    (items : List CursorItem) :
    g.process { q with polarization := s.text? "POL" } s d items = g.process q s' d items := by
  -- Only a cone search does not declare POL, and it makes no cutouts that the states go into.
  by_cases hg : g.protocol = .cone
  · have hrun : s.text? "RUNID" = s'.text? "RUNID" := h.text? (by rw [hg]; decide +kernel)
    exact process_congr_of_cone hg hrun q _ d items
  · have hstates : s.text? "POL" = q.polarization := by
      rw [CatalogQuery.polarization_of_compile hq]
      refine h.text? ?_
      cases hp : g.protocol with
      | cone => exact absurd hp hg
      | image | spectrum => decide +kernel
    rw [hstates, process, process, pipeline_congr hg h]

theorem run_congr (h : SameDeclared g.protocol k s s') (catalog : Catalog) :
    g.run s catalog = g.run s' catalog := by
  rw [run, run, compile, compile, CatalogQuery.compile_eq_of_sameDeclared h, directory_congr h]
  cases g.context.validate g.protocol with
  | error f => rfl
  | ok x =>
    cases hq : CatalogQuery.compile g.protocol g.table g.context s' with
    | error f => rfl
    | ok q =>
      cases g.directory s' with
      | error f => rfl
      | ok d =>
        have htext : CatalogQuery.text { q with polarization := s.text? "POL" } = q.text := rfl
        show g.execute { q with polarization := s.text? "POL" } s d catalog = g.execute q s' d catalog
        simp only [execute, htext, process_congr h hq]

/-- A parameter that the protocol does not declare, put anywhere into a request, changes neither
whether the request is read nor how it fails.  The query keeps all its parts but for the
polarization states of cutouts, the fields of the response are the same, and a run does and returns
the same against every catalog. -/
theorem run_insert_undeclared (g : Engine) (before after : List (String × String))
    (name value : String)
    (h : ∀ d ∈ g.protocol.declarations,
      Text.sameIgnoringCase d.name (Text.trimmed name) = false) :
    (∃ f, ParameterSet.read g.protocol (before ++ (name, value) :: after) = .error f ∧
        ParameterSet.read g.protocol (before ++ after) = .error f) ∨
      ∃ s s', ParameterSet.read g.protocol (before ++ (name, value) :: after) = .ok s ∧
        ParameterSet.read g.protocol (before ++ after) = .ok s' ∧
        CatalogQuery.compile g.protocol g.table g.context s =
          (CatalogQuery.compile g.protocol g.table g.context s').map
            (fun q => { q with polarization := s.text? "POL" }) ∧
        (CatalogQuery.compile g.protocol g.table g.context s).map CatalogQuery.text =
          (CatalogQuery.compile g.protocol g.table g.context s').map CatalogQuery.text ∧
        g.directory s = g.directory s' ∧ ∀ catalog, g.run s catalog = g.run s' catalog := by
  rcases ParameterSet.read_insert_undeclared (Protocol.undeclared_iff.2 h) value before after with
    hfailed | ⟨s, s', hs, hs', hsame⟩
  · exact .inl hfailed
  · have hcompile := CatalogQuery.compile_eq_of_sameDeclared hsame g.table g.context
    refine .inr ⟨s, s', hs, hs', hcompile, ?_, directory_congr hsame, run_congr hsame⟩
    rw [hcompile]
    cases CatalogQuery.compile g.protocol g.table g.context s' with
    | error f => rfl
    | ok q => rfl

/-- A cone search is not changed by a MODE that would ask for cutouts. -/
theorem run_insert_undeclared_mode :
    let g := (Engine.make .cone Sample.coneContext).withCutouts
      ⟨Sample.locatorOf (.ofList [("7", "seven.fits")]), fun _ _ => .ok none⟩
    (∀ d ∈ g.protocol.declarations,
      Text.sameIgnoringCase d.name (Text.trimmed "Mode ") = false) ∧
    ∃ s s', ParameterSet.read .cone [("MAXREC", "3"), ("Mode ", "cutout"), ("VERB", "0")] = .ok s ∧
      ParameterSet.read .cone [("MAXREC", "3"), ("VERB", "0")] = .ok s' ∧
      s.text? "MODE" = some "cutout" ∧ s'.text? "MODE" = none ∧
      ∀ catalog, g.run s catalog = g.run s' catalog := by
  intro g
  have hdeclared : ∀ d ∈ g.protocol.declarations,
      Text.sameIgnoringCase d.name (Text.trimmed "Mode ") = false := by decide +kernel
  have hwith : ((ParameterSet.read .cone
      [("MAXREC", "3"), ("Mode ", "cutout"), ("VERB", "0")]).toOption.any
      fun s => s.text? "MODE" = some "cutout") = true := by decide +kernel
  have hwithout : ((ParameterSet.read .cone [("MAXREC", "3"), ("VERB", "0")]).toOption.any
      fun s => s.text? "MODE" = none) = true := by decide +kernel
  obtain ⟨s, hs, hmode⟩ := exists_ok_of_any hwith
  obtain ⟨s', hs', hnone⟩ := exists_ok_of_any hwithout
  refine ⟨hdeclared, s, s', hs, hs', of_decide_eq_true hmode, of_decide_eq_true hnone, ?_⟩
  rcases run_insert_undeclared g [("MAXREC", "3")] [("VERB", "0")] "Mode " "cutout" hdeclared with
    ⟨f, hf, -⟩ | ⟨t, t', ht, ht', -, -, -, hrun⟩
  · cases hs.symm.trans hf
  · cases hs.symm.trans ht
    cases hs'.symm.trans ht'
    exact hrun

end Engine

end SkyDiscovery
