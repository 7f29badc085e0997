import SkyDiscovery.Proofs.Number.Double
import SkyDiscovery.Proofs.Parameter.Keys

/-!
# Values of the declared kinds

Under each name a request holds a value of the kind that the name declares, and the value is such
as reading gives: a number of a declared parameter is finite, and a list has come of the elements
and properties that it took.

* `byKind_set`: setting a parameter keeps it so.
* `byKind_of_read`: so every request that is read holds values of the declared kinds.
* `ByKind.ranges?`, `ByKind.float?`, `ByKind.exists_integer`: what is known of the lists and numbers
  that are looked up.
-/

namespace SkyDiscovery

/-- A value of a kind, as reading gives it. -/
inductive ParameterValue.Fits : ParameterKind → ParameterValue → Prop where
  | ranges {declared : Option ValueType} {ordered : Bool} {list : RangeList} :
      list.Readable → list.ordered = ordered → list.declared = declared →
      RangeList.ReadableProperties list.properties → Fits (.ranges declared ordered) (.ranges list)
  | text (s : String) : Fits .text (.text s)
  | float {x : Binary64} : x.isFinite → Fits .float (.float x.toFloat)
  | integer (n : Int) : Fits .integer (.integer n)
  | boolean (b : Bool) : Fits .boolean (.boolean b)

namespace ParameterValue

theorem fits_of_read {name value : String} {kind : ParameterKind} {v : ParameterValue}
    (h : read name kind value = .ok v) : Fits kind v := by
  cases kind with
  | ranges declared ordered =>
    rw [read] at h
    split at h
    · next list hlist =>
      cases h
      obtain ⟨hread, hordered, hdeclared, hproperties⟩ := RangeList.readable_of_read hlist
      exact .ranges hread hordered hdeclared hproperties
    · cases h
  | text =>
    cases h
    exact .text value
  | float =>
    rw [read, readFloat] at h
    split at h
    · split at h
      · next hfinite =>
        cases h
        exact .float hfinite
      · cases h
    · cases h
  | integer =>
    rw [read, readInteger] at h
    split at h
    · cases h
      exact .integer _
    · cases h
  | boolean =>
    rw [read, readBoolean] at h
    split at h
    · cases h
      exact .boolean true
    · split at h
      · cases h
        exact .boolean false
      · cases h

/-- A list goes on to be of its kind while it takes further texts. -/
theorem Fits.extend {kind : ParameterKind} {list t : RangeList} {cs : List Char} {n : Nat}
    (h : Fits kind (.ranges list)) (hextend : list.extend cs = (t, .ok n)) :
    Fits kind (.ranges t) := by
  cases h with
  | ranges hread hordered hdeclared hproperties =>
    obtain ⟨ht, hordered', hdeclared', hproperties'⟩ := hread.extend hproperties hextend
    exact .ranges ht (hordered'.trans hordered) (hdeclared'.trans hdeclared) hproperties'

end ParameterValue

namespace ParameterSet

open ParameterValue (Fits)

variable {p : Protocol} {s t : ParameterSet}

theorem kind_congr {name name' : String} (h : key name = key name') :
    (declarationOf p name).kind = (declarationOf p name').kind := by
  unfold declarationOf
  rw [declaration?_congr h]
  cases p.declaration? name' <;> rfl

/-- Every value is of the kind that its name declares. -/
def ByKind (p : Protocol) (s : ParameterSet) : Prop :=
  ∀ name x, s.parameters.get? (key name) = some x → Fits (declarationOf p name).kind x.value

theorem byKind_empty (p : Protocol) : ByKind p empty := by
  intro name x hx
  cases hx

theorem ByKind.store (h : ByKind p s) {name : String} {x : Parameter}
    (hx : Fits (declarationOf p name).kind x.value) : ByKind p (s.store (key name) x) := by
  intro name' y hy
  rw [get?_store] at hy
  split at hy
  · next hname =>
    cases hy
    rw [← kind_congr hname]
    exact hx
  · exact h name' y hy

theorem ByKind.erase (h : ByKind p s) (k : String) : ByKind p ⟨s.parameters.erase k⟩ := by
  intro name x hx
  rw [Dictionary.get?_erase] at hx
  split at hx
  · cases hx
  · exact h name x hx

/-- Setting a parameter keeps all values of their kinds. -/
theorem byKind_set (h : ByKind p s) {name value : String} {x : Unit}
    (hset : s.set p name value = (t, .ok x)) : ByKind p t := by
  have houtcome := outcome_set p s name value
  rw [hset] at houtcome
  cases houtcome with
  | taken => exact h.erase _
  | extended y list u n _ held extend =>
    obtain ⟨hy, hvalue⟩ := heldRanges?_eq_some held
    have hfits := h name y hy
    rw [hvalue] at hfits
    exact h.store (hfits.extend extend)
  | replaced v _ _ read => exact h.store (ParameterValue.fits_of_read read)

theorem byKind_setAll (h : ByKind p s) {pairs : List (String × String)}
    (hset : setAll p s pairs = .ok t) : ByKind p t := by
  induction pairs generalizing s with
  | nil =>
    cases hset
    exact h
  | cons a pairs ih =>
    obtain ⟨u, x, hfirst, hrest⟩ := setAll_cons_eq_ok hset
    exact ih (byKind_set h hfirst) hrest

theorem byKind_of_read {pairs : List (String × String)} (h : read p pairs = .ok s) : ByKind p s :=
  byKind_setAll (byKind_empty p) h

/-! ## Looking up values -/

section

variable (h : ByKind p s) {name : String} (hname : key name = Text.lower name)

include h hname

theorem ByKind.get? {x : Parameter} (hx : s.get? name = some x) :
    Fits (declarationOf p name).kind x.value := by
  rw [ParameterSet.get?, ← hname] at hx
  exact h name x hx

theorem ByKind.ranges? {list : RangeList} (hlist : s.ranges? name = some list) :
    ∃ declared ordered, (declarationOf p name).kind = .ranges declared ordered ∧ list.Readable ∧
      list.ordered = ordered ∧ list.declared = declared := by
  unfold ParameterSet.ranges? at hlist
  split at hlist
  · next l hvalue =>
    cases hlist
    obtain ⟨x, hx, hxvalue⟩ := Option.map_eq_some_iff.1 hvalue
    have hfits := h.get? hname hx
    rw [hxvalue] at hfits
    generalize (declarationOf p name).kind = kind at hfits
    cases hfits with
    | ranges hread hordered hdeclared _ => exact ⟨_, _, rfl, hread, hordered, hdeclared⟩
  · cases hlist

/-- A number of a parameter that does not declare whole numbers is finite. -/
theorem ByKind.float? (hkind : (declarationOf p name).kind ≠ .integer) {x : Float}
    (hx : s.float? name = some x) : x.isFinite := by
  unfold ParameterSet.float? at hx
  split at hx
  · next y hvalue =>
    cases hx
    obtain ⟨z, hz, hzvalue⟩ := Option.map_eq_some_iff.1 hvalue
    have hfits := h.get? hname hz
    rw [hzvalue] at hfits
    generalize (declarationOf p name).kind = kind at hfits
    cases hfits with
    | float hfinite => rwa [Binary64.isFinite_toFloat]
  · next n hvalue =>
    obtain ⟨z, hz, hzvalue⟩ := Option.map_eq_some_iff.1 hvalue
    have hfits := h.get? hname hz
    rw [hzvalue] at hfits
    generalize hk : (declarationOf p name).kind = kind at hfits
    cases hfits
    exact absurd hk hkind
  · cases hx

/-- A declared whole number is one if it is given at all. -/
theorem ByKind.exists_integer (hkind : (declarationOf p name).kind = .integer)
    (hset : s.isSet name = true) : ∃ n, s.integer? name = some n := by
  obtain ⟨x, hx⟩ := Option.isSome_iff_exists.1 hset
  have hfits := h.get? hname hx
  rw [hkind] at hfits
  cases hvalue : x.value with
  | integer n => exact ⟨n, by rw [ParameterSet.integer?, hx, Option.map_some, hvalue]⟩
  | ranges | text | float | boolean =>
    rw [hvalue] at hfits
    cases hfits

end

end ParameterSet

end SkyDiscovery
