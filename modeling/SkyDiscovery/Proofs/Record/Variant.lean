import Mathlib.Data.List.Infix
import SkyDiscovery.Record.Variant

/-!
# The variants of a row

Which variants a row has depends on the words in MODE and FORMAT and in its stored format.

* `mentions_iff`: a word is found wherever it stands in a text.
* `before_virtual_eq`: the virtual variant stands right behind the stored file.
* `mem_select_of_no_mode`: where MODE asks for nothing, the graphics are left.
-/

namespace SkyDiscovery

/-! ## Words in texts -/

namespace Text

theorem cutWord_isSome_iff (word cs : List Char) : (cutWord word cs).isSome = true ↔ word <:+: cs := by
  induction cs with
  | nil =>
    cases word <;> simp [cutWord]
  | cons c cs ih =>
    rw [List.infix_cons_iff, ← ih, ← List.isPrefixOf_iff_prefix, cutWord]
    cases word.isPrefixOf (c :: cs) <;> simp

/-- A word is found wherever it stands in a text. -/
theorem mentions_iff (word : String) (cs : List Char) :
    mentions word cs = true ↔ word.toList <:+: cs :=
  cutWord_isSome_iff word.toList cs

end Text

theorem occursIn_iff (word text : String) :
    occursIn word text = true ↔ word.toList <:+: (Text.lower text).toList :=
  Text.mentions_iff word _

namespace ModeSelection

/-- Where cutouts are asked for, so are stored files. -/
theorem archival_of_virtual {mode : Option String} (h : (ofParameter mode).virtual = true) :
    (ofParameter mode).archival = true := by
  cases mode with
  | none => rfl
  | some s =>
    simp only [ofParameter] at h ⊢
    rw [h, Bool.true_or]

/-- A MODE without any of the words asks for nothing. -/
theorem ofParameter_of_no_word {mode : String}
    (h : ∀ word ∈ ["archival", "cutout", "match"],
      ¬ word.toList <:+: (Text.lower mode).toList) :
    ofParameter (some mode) = ⟨false, false⟩ := by
  have hword : ∀ word ∈ ["archival", "cutout", "match"], occursIn word mode = false :=
    fun word hmem => Bool.eq_false_iff.2 fun hoccurs => h word hmem ((occursIn_iff word mode).1 hoccurs)
  simp [ofParameter, hword]

end ModeSelection

namespace Variant

variable {p : Protocol} {formats : FormatSelection} {modes : ModeSelection} {stored : String}

theorem before_virtual_ofFits {mime : String} (hmodes : modes.virtual = true → modes.archival = true)
    {before after : List Variant} {v : Variant} (h : ofFits mime modes = before ++ v :: after)
    (hv : v.product = .virtual) : before = [⟨v.mime, .archival⟩] := by
  by_cases hvirtual : modes.virtual = true
  · rw [ofFits, if_pos hvirtual, if_pos (hmodes hvirtual)] at h
    rcases before with _ | ⟨u, _ | ⟨w, before⟩⟩
    · obtain ⟨rfl, -⟩ := List.cons.inj h
      cases hv
    · obtain ⟨rfl, hrest⟩ := List.cons.inj h
      obtain ⟨rfl, -⟩ := List.cons.inj hrest
      rfl
    · simp at h
  · have hmem : v ∈ ofFits mime modes := h ▸ List.mem_append_right before List.mem_cons_self
    rw [ofFits, if_neg hvirtual, List.append_nil] at hmem
    split at hmem
    · obtain rfl := List.mem_singleton.1 hmem
      cases hv
    · cases hmem

/-- Before the virtual variant of a row stands the stored file, and nothing else. -/
theorem before_virtual_eq (hmodes : modes.virtual = true → modes.archival = true)
    {before after : List Variant} {v : Variant}
    (h : select p formats modes stored = before ++ v :: after) (hv : v.product = .virtual) :
    before = [⟨v.mime, .archival⟩] := by
  unfold select at h
  split at h
  · have hmem : v ∈ [(⟨p.archivalMime, .archival⟩ : Variant)] :=
      h ▸ List.mem_append_right before List.mem_cons_self
    obtain rfl := List.mem_singleton.1 hmem
    cases hv
  · have hgraphic : v ∉ (if formats.graphics then
        (graphicMime? stored).toList.map fun mime => (⟨mime, .archival⟩ : Variant) else []) := by
      intro hmem
      split at hmem
      · obtain ⟨mime, -, rfl⟩ := List.mem_map.1 hmem
        cases hv
      · cases hmem
    rcases List.append_eq_append_iff.1 h with ⟨more, -, hgraphics⟩ | ⟨more, hfits, hgraphics⟩
    · exact absurd (hgraphics ▸ List.mem_append_right more List.mem_cons_self) hgraphic
    · rcases more with _ | ⟨u, more⟩
      · rw [List.nil_append] at hgraphics
        exact absurd (hgraphics ▸ List.mem_cons_self) hgraphic
      · obtain ⟨rfl, -⟩ := List.cons.inj hgraphics
        split at hfits
        · exact before_virtual_ofFits hmodes hfits hv
        · simp at hfits

/-- The first variant of a row is not virtual. -/
theorem archival_of_select_eq_cons (hmodes : modes.virtual = true → modes.archival = true)
    {after : List Variant} {v : Variant} (h : select p formats modes stored = v :: after) :
    v.product ≠ .virtual := by
  intro hv
  have hbefore := before_virtual_eq hmodes (h.trans (List.nil_append _).symm) hv
  cases hbefore

/-- Where the modes ask for nothing, the variants are graphics. -/
theorem mem_select_of_no_mode (hp : p ≠ .cone) {v : Variant}
    (h : v ∈ select p formats ⟨false, false⟩ stored) :
    formats.graphics = true ∧ v.product = .archival ∧ graphicMime? stored = some v.mime := by
  simp only [select, if_neg hp, ofFits, Bool.false_eq_true, if_false, List.append_nil, ite_self,
    List.nil_append] at h
  split at h
  · next hgraphics =>
    obtain ⟨mime, hmime, rfl⟩ := List.mem_map.1 h
    exact ⟨hgraphics, rfl, Option.mem_toList.1 hmime⟩
  · cases h

end Variant

end SkyDiscovery
