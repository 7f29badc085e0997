import Mathlib.Data.List.Infix
import SkyDiscovery.Proofs.Engine.Origin
import SkyDiscovery.Proofs.Record.Variant

/-!
# Modes that ask for nothing

A MODE that names neither the stored files nor the cutouts keeps the stored FITS files out of a
response.  The graphics are chosen by FORMAT alone, so they stay, as archival records.

* `graphics_of_other_mode`: what is left in the response to such a request are graphics.
* `archival_despite_mode`: of these there can be some.
-/

namespace SkyDiscovery.Engine

/-- The response to an image or spectrum request whose MODE has none of the words `archival`,
`cutout` and `match` holds graphics only.  Unless FORMAT asks for graphics, no archival record is
left. -/
theorem graphics_of_other_mode (g : Engine) (q : CatalogQuery) (s : ParameterSet)
    (d : FieldDirectory) (items : List CursorItem) (r : Response) (mode : String)
    (hprotocol : g.protocol ≠ .cone) (hmode : s.text? "MODE" = some mode)
    (hwords : ∀ word ∈ ["archival", "cutout", "match"],
      ¬ word.toList <:+: (Text.lower mode).toList)
    (hrun : (g.process q s d items).value = .ok r) :
    ((FormatSelection.ofParameter (s.text? "FORMAT")).graphics = false →
        ∀ a ∈ r.records, a.product ≠ .archival) ∧
      ∀ a ∈ r.records, a.product = .archival ∧ ∃ row, Except.ok row ∈ items ∧
        graphicMime? ((row.text? (g.table.column "access_format")).getD "") = some a.format := by
  obtain ⟨vs, ws, hvisits, -, hrecords, -⟩ := exists_visits_of_process hrun
  have hgraphic : ∀ a ∈ r.records,
      (FormatSelection.ofParameter (s.text? "FORMAT")).graphics = true ∧ a.product = .archival ∧
        ∃ row, Except.ok row ∈ items ∧
          graphicMime? ((row.text? (g.table.column "access_format")).getD "") = some a.format := by
    intro a ha
    obtain ⟨v, hv, hmade⟩ := List.mem_filterMap.1 (hrecords ▸ ha)
    obtain ⟨hitem, hvariant⟩ := Pipeline.mem_visits (hvisits ▸ List.mem_append_left ws hv)
    have hnone : (g.pipeline q s d).expander.modes = ⟨false, false⟩ := by
      have hmodes : (g.pipeline q s d).expander.modes = .ofParameter (s.text? "MODE") := rfl
      rw [hmodes, hmode, ModeSelection.ofParameter_of_no_word hwords]
    rw [Expander.variants, hnone] at hvariant
    obtain ⟨hgraphics, hproduct, hmime⟩ := Variant.mem_select_of_no_mode hprotocol hvariant
    refine ⟨hgraphics, (Pipeline.record?_product hmade).trans hproduct, v.row, hitem, ?_⟩
    rw [(Pipeline.record?_label hmade).1]
    exact hmime
  constructor
  · intro hnot a ha
    rw [(hgraphic a ha).1] at hnot
    cases hnot
  · exact fun a ha => (hgraphic a ha).2

/-! ## A graphic that no mode asks for -/

def mosaicMode : ParameterSet :=
  ⟨.ofList [("mode", ⟨"MODE", .core, "mosaic", .text "mosaic"⟩),
    ("format", ⟨"FORMAT", .core, "all", .text "all"⟩)]⟩

/-- The run over an image that is stored as FITS and as PNG. -/
def runMosaic : Except Failure Response :=
  ((Engine.make .image Sample.imageContext).process ⟨"images", [], 9, none, none, none, none⟩
    mosaicMode .empty
    [.ok (.ofList [("id", .text "7"), ("access_format", .text "image/fits,image/png")])]).value

theorem no_word_in_mosaic : ∀ word ∈ ["archival", "cutout", "match"],
    ¬ word.toList <:+: (Text.lower "mosaic").toList := by
  decide +kernel

theorem exists_ok_runMosaic :
    ∃ r, runMosaic = .ok r ∧ r.records.map Record.product = [.archival] := by
  have hrun : (runMosaic.toOption.any fun r => r.records.map Record.product = [.archival]) =
      true := by decide +kernel
  obtain ⟨r, hr, hproducts⟩ := exists_ok_of_any hrun
  exact ⟨r, hr, of_decide_eq_true hproducts⟩

/-- Of an image that is stored as FITS and as PNG only the PNG is left. -/
theorem graphics_of_other_mode_mosaic :
    ∃ r, runMosaic = .ok r ∧ mosaicMode.text? "MODE" = some "mosaic" ∧
      (∀ word ∈ ["archival", "cutout", "match"],
        ¬ word.toList <:+: (Text.lower "mosaic").toList) ∧
      ∀ a ∈ r.records, a.product = .archival ∧ a.format = "image/png" := by
  have hmode : mosaicMode.text? "MODE" = some "mosaic" := by rfl
  obtain ⟨r, hr, -⟩ := exists_ok_runMosaic
  refine ⟨r, hr, hmode, no_word_in_mosaic, fun a ha => ?_⟩
  obtain ⟨hproduct, row, hrow, hmime⟩ := (graphics_of_other_mode _ _ mosaicMode _ _ r "mosaic"
    (by decide) hmode no_word_in_mosaic hr).2 a ha
  cases List.mem_singleton.1 hrow
  exact ⟨hproduct, (Option.some.inj hmime).symm⟩

/-- A MODE that asks for nothing does not keep archival records out of the response. -/
theorem archival_despite_mode :
    (∀ word ∈ ["archival", "cutout", "match"],
      ¬ word.toList <:+: (Text.lower "mosaic").toList) ∧
    mosaicMode.text? "MODE" = some "mosaic" ∧
    ∃ r, runMosaic = .ok r ∧ ∃ a ∈ r.records, a.product = .archival := by
  obtain ⟨r, hr, hproducts⟩ := exists_ok_runMosaic
  have hmem : Product.archival ∈ r.records.map Record.product := by
    rw [hproducts]
    exact List.mem_singleton_self _
  obtain ⟨a, ha, hproduct⟩ := List.mem_map.1 hmem
  exact ⟨no_word_in_mosaic, rfl, r, hr, a, ha, hproduct⟩

end SkyDiscovery.Engine
