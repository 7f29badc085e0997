import SkyDiscovery.Proofs.Cutout.Editor
import SkyDiscovery.Proofs.Number.Grammar

/-!
# The values of keywords

A keyword gives its field the value that its text has in the datatype of the field, and a text that
has none is kept as it is.  There is one exception: a real number that is too large for a finite
double, an infinity and a NaN read as doubles but are no values, and nothing of such a text is kept.

* `Field.Denotes`, `Field.IsLost`: the texts of values, and those that are not kept.
* `Field.coerce_of_denotes`, `Field.coerce_of_isLost`, `Field.coerce_cases`: what becomes of a text.
* `Field.coerce_eq_null_iff_isLost`: what is lost, in a field and in the record of a cutout.
-/

namespace SkyDiscovery

namespace Field

/-! ## Texts of values -/

/-- The value that a text has in a datatype. -/
inductive Denotes (datatype s : String) : Json → Prop where
  | whole {n : ℤ} : datatype ∈ ["short", "int", "long"] → Text.WritesInt s.toList n →
      -2 ^ 63 ≤ n → n < 2 ^ 63 → Denotes datatype s (.number (.integer n))
  | real {x : Binary64} : datatype ∈ ["float", "double"] → Binary64.WritesFinite s.toList x →
      Denotes datatype s (.number (.real x.toFloat))
  | truth : datatype = "boolean" → Text.lower s ∈ ["true", "t", "1"] →
      Denotes datatype s (.bool true)
  | falsehood : datatype = "boolean" → Text.lower s ∈ ["false", "f", "0"] →
      Denotes datatype s (.bool false)

/-- The text reads as a double that is not finite, where a double is wanted. -/
def IsLost (datatype s : String) : Prop :=
  datatype ∈ ["float", "double"] ∧ Binary64.WritesNonfinite s.toList

/-! ## Values by datatype -/

variable {f : Field} {s : String}

theorem coerce_of_whole (h : f.datatype ∈ ["short", "int", "long"]) :
    f.coerce s = wholeValue (Text.trimmed s) :=
  if_pos h

theorem coerce_of_real (h : f.datatype ∈ ["float", "double"]) :
    f.coerce s = realValue (Text.trimmed s) := by
  have hdisjoint : ∀ t ∈ ["float", "double"], t ∉ ["short", "int", "long"] := by decide
  rw [coerce, if_neg (hdisjoint _ h), if_pos h]

theorem coerce_of_boolean (h : f.datatype = "boolean") :
    f.coerce s = truthValue (Text.trimmed s) := by
  have hwhole : f.datatype ∉ ["short", "int", "long"] := h ▸ by decide
  have hreal : f.datatype ∉ ["float", "double"] := h ▸ by decide
  rw [coerce, if_neg hwhole, if_neg hreal, if_pos h]

theorem wholeValue_of_writes {n : ℤ} (h : Text.WritesInt s.toList n) (hlow : -2 ^ 63 ≤ n)
    (hhigh : n < 2 ^ 63) : wholeValue s = .number (.integer n) := by
  rw [wholeValue, Text.readInt64_eq_some_iff.2 ⟨h, hlow, hhigh⟩]
  rfl

theorem realValue_of_read {x : Binary64} (h : Binary64.read s.toList = some x) :
    realValue s = if x.isFinite then .number (.real x.toFloat) else .null := by
  rw [realValue, h]
  dsimp only
  rw [Json.ofFloat, Binary64.isFinite_toFloat]

/-- The text of a value is turned into the value. -/
theorem coerce_of_denotes {x : Json} (h : Denotes f.datatype (Text.trimmed s) x) :
    f.coerce s = x := by
  cases h with
  | whole hdatatype hn hlow hhigh =>
    rw [coerce_of_whole hdatatype, wholeValue_of_writes hn hlow hhigh]
  | real hdatatype hx =>
    obtain ⟨hread, hfinite⟩ := Binary64.read_finite_iff.2 hx
    rw [coerce_of_real hdatatype, realValue_of_read hread, if_pos hfinite]
  | truth hdatatype hword =>
    rw [coerce_of_boolean hdatatype, truthValue, if_pos hword]
  | falsehood hdatatype hword =>
    have hdisjoint : ∀ t ∈ ["false", "f", "0"], t ∉ ["true", "t", "1"] := by decide
    rw [coerce_of_boolean hdatatype, truthValue, if_neg (hdisjoint _ hword), if_pos hword]

theorem coerce_of_isLost (h : IsLost f.datatype (Text.trimmed s)) : f.coerce s = .null := by
  obtain ⟨x, hread, hinfinite⟩ := Binary64.read_nonfinite_iff.2 h.2
  rw [coerce_of_real h.1, realValue_of_read hread, if_neg hinfinite]

/-- Any other text is kept. -/
theorem coerce_cases (f : Field) (s : String) :
    Denotes f.datatype (Text.trimmed s) (f.coerce s) ∨ IsLost f.datatype (Text.trimmed s) ∨
      f.coerce s = .text (Text.trimmed s) := by
  by_cases hwhole : f.datatype ∈ ["short", "int", "long"]
  · rw [coerce_of_whole hwhole, wholeValue]
    split
    · next n hn =>
      obtain ⟨hwrites, hlow, hhigh⟩ := Text.readInt64_eq_some_iff.1 hn
      exact .inl (.whole hwhole hwrites hlow hhigh)
    · exact .inr (.inr rfl)
  by_cases hreal : f.datatype ∈ ["float", "double"]
  · cases hx : Binary64.read (Text.trimmed s).toList with
    | none =>
      rw [coerce_of_real hreal, realValue, hx]
      exact .inr (.inr rfl)
    | some x =>
      by_cases hfinite : x.isFinite
      · rw [coerce_of_real hreal, realValue_of_read hx, if_pos hfinite]
        exact .inl (.real hreal (Binary64.read_finite_iff.1 ⟨hx, hfinite⟩))
      · exact .inr (.inl ⟨hreal, Binary64.read_nonfinite_iff.1 ⟨x, hx, hfinite⟩⟩)
  by_cases hboolean : f.datatype = "boolean"
  · rw [coerce_of_boolean hboolean, truthValue]
    split_ifs with htruth hfalsehood
    · exact .inl (.truth hboolean htruth)
    · exact .inl (.falsehood hboolean hfalsehood)
    · exact .inr (.inr rfl)
  · rw [coerce, if_neg hwhole, if_neg hreal, if_neg hboolean]
    exact .inr (.inr rfl)

end Field

namespace Editor

open FieldDirectory (namedAmong?)

variable {d : FieldDirectory}

/-! ## Values in the record of a cutout -/

/-- The text of a keyword, if it names a field. -/
def textFor? (d : FieldDirectory) (f : Field) (keyword : String × String) : Option String :=
  if namedAmong? d.fields keyword.1 = some f then some keyword.2 else none

/-- The text of the last keyword that names a field. -/
def lastText? (d : FieldDirectory) (f : Field) (keywords : List (String × String)) :
    Option String :=
  (keywords.filterMap (textFor? d f)).getLast?

theorem given?_eq (d : FieldDirectory) (f : Field) (k : String × String) :
    given? d f k = (textFor? d f k).map f.coerce := by
  rw [given?, textFor?, apply_ite (Option.map f.coerce)]
  rfl

theorem lastGiven?_eq (d : FieldDirectory) (f : Field) (ks : List (String × String)) :
    lastGiven? d f ks = (lastText? d f ks).map f.coerce := by
  rw [lastGiven?, lastText?, ← List.getLast?_map, List.map_filterMap]
  simp only [given?_eq]

/-- In the record of a cutout a field has the value of the last text for it. -/
theorem get?_edit {e : Editor} {fs : List Field} {r : Record} {publisherId file s : String}
    {keywords : Keywords} {f : Field} (hfinds : e.Finds r publisherId keywords file)
    (hf : f ∈ (FieldDirectory.empty.insertAll fs).fields)
    (hs : lastText? (FieldDirectory.empty.insertAll fs) f keywords.entries = some s) :
    (e.edit (FieldDirectory.empty.insertAll fs) r publisherId).value.1.get? f.id =
      some (f.coerce s) := by
  have hplaced := FieldDirectory.placed_empty.insertAll fs
  have hindexed := FieldDirectory.indexed_empty.insertAll fs
  rcases e.edit_cases (.insertAll .empty fs) r publisherId with
    ⟨keywords', file', turned, hfinds', hredirect, heq⟩ | ⟨hnone, -⟩
  · obtain ⟨rfl, rfl⟩ := hfinds'.unique hfinds
    have hdescribes := describes_describe hplaced hindexed keywords' hredirect
    rw [heq, hdescribes.field f hf, lastGiven?_eq, hs]
    rfl
  · exact absurd hfinds (hnone keywords file)

end Editor

namespace Field

/-! ## What is lost -/

theorem Denotes.ne_null {datatype s : String} {x : Json} (h : Denotes datatype s x) :
    x ≠ .null := by
  cases h <;> exact nofun

/-- A text comes to null exactly if it reads as a double that is not finite, and then the record of
a cutout has a null in place of the text.  Any other text is kept or is turned into the value that
it has, and whatever has a value is turned into it. -/
theorem coerce_eq_null_iff_isLost (f : Field) (s : String) :
    let t := Text.trimmed s
    (f.coerce s = .null ↔ IsLost f.datatype t) ∧
      (¬ IsLost f.datatype t → f.coerce s = .text t ∨ Denotes f.datatype t (f.coerce s)) ∧
      (∀ x, Denotes f.datatype t x → f.coerce s = x) ∧
      ∀ (e : Editor) (fs : List Field) (r : Record) (publisherId : String) (keywords : Keywords)
        (file : String),
        let d := FieldDirectory.empty.insertAll fs
        let value := (e.edit d r publisherId).value.1.get? f.id
        e.Finds r publisherId keywords file → f ∈ d.fields →
          Editor.lastText? d f keywords.entries = some s →
          value = some (f.coerce s) ∧ (value = some .null ↔ IsLost f.datatype t) := by
  intro t
  have hnull : f.coerce s = .null ↔ IsLost f.datatype t := by
    refine ⟨fun h => ?_, coerce_of_isLost⟩
    rcases f.coerce_cases s with hvalue | hlost | htext
    · exact absurd h hvalue.ne_null
    · exact hlost
    · cases htext.symm.trans h
  refine ⟨hnull, fun hkept => ?_, fun x => coerce_of_denotes, ?_⟩
  · rcases f.coerce_cases s with hvalue | hlost | htext
    · exact .inr hvalue
    · exact absurd hlost hkept
    · exact .inl htext
  · intro e fs r publisherId keywords file d value hfinds hf hs
    have hvalue : value = some (f.coerce s) := Editor.get?_edit hfinds hf hs
    rw [hvalue]
    exact ⟨rfl, Option.some_inj.trans hnull⟩

/-- One keyword is lost, and another has its value. -/
theorem coerce_eq_null_iff_isLost_infinity :
    let low : Field := ⟨"em_min", "", "double", none, none, none, "m"⟩
    let scale : Field := ⟨"im_scale", "Image.Scale", "double", none, none, none, "m"⟩
    let e : Editor := ⟨⟨fun _ => .ok (some "7.fits"), fun _ _ => .ok (some (.ofList
      [("MDFILE", "cut"), ("em_min", " -Infinity "), ("Image.Scale", "0.25")]))⟩, {}⟩
    let edited := (e.edit (FieldDirectory.empty.insertAll [low, scale])
      (.empty "image/fits" .archival) "7").value.1
    let quarter : Binary64 := ⟨0x3FD0_0000_0000_0000⟩
    edited.get? "em_min" = some .null ∧ quarter.toRat = 1 / 4 ∧
      edited.get? "im_scale" = some (.number (.real quarter.toFloat)) := by
  intro low scale e edited quarter
  have hfinds : e.Finds (.empty "image/fits" .archival) "7" (.ofList
      [("MDFILE", "cut"), ("em_min", " -Infinity "), ("Image.Scale", "0.25")]) "cut" :=
    ⟨⟨"7.fits", rfl, rfl⟩, by decide +kernel, nofun⟩
  have hlost : IsLost "double" (Text.trimmed " -Infinity ") :=
    ⟨by decide, .word .minus (by decide +kernel)⟩
  have hquarter : Denotes "double" (Text.trimmed "0.25") (.number (.real quarter.toFloat)) :=
    .real (by decide) (Binary64.read_finite_iff.1 (by decide +kernel))
  obtain ⟨-, -, -, hlow⟩ := coerce_eq_null_iff_isLost low " -Infinity "
  obtain ⟨-, -, hvalue, hscale⟩ := coerce_eq_null_iff_isLost scale "0.25"
  refine ⟨?_, by decide +kernel, ?_⟩
  · exact (hlow e _ _ "7" _ _ hfinds (by decide +kernel) (by decide +kernel)).2.2 hlost
  · rw [← hvalue _ hquarter]
    exact (hscale e _ _ "7" _ _ hfinds (by decide +kernel) (by decide +kernel)).1

/-- An infinity and a number too large for a double are texts of which nothing is left. -/
theorem coerce_loses_infinity :
    let low : Field := ⟨"em_min", "", "double", none, none, none, "m"⟩
    low.coerce "inf" = .null ∧ low.coerce "1e999" = .null ∧ low.coerce "NaN" = .null := by
  intro low
  have hread (s : String) (x : Binary64) (h : Binary64.read (Text.trimmed s).toList = some x)
      (hx : ¬ x.isFinite) : low.coerce s = .null := by
    rw [coerce_of_real (by decide), realValue_of_read h, if_neg hx]
  exact ⟨hread "inf" (.infinity false) (by decide +kernel) (by decide),
    hread "1e999" (.infinity false) (by decide +kernel) (by decide),
    hread "NaN" (.nan false) (by decide +kernel) (by decide)⟩

end Field

end SkyDiscovery
