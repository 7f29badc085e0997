import SkyDiscovery.Proofs.Engine.Limit

/-!
# What comes of a variant

Making the record of a variant gives a record of its product, or none, and asks for at most one
cutout.  Both to be discarded and to have a cutout computed, a record has to be virtual.

* `length_after_virtual_le`: behind a virtual variant of a row there is at most one other.
* `recordOf_product`, `virtual_of_discarded`: the records of variants and those that are discarded.
* `length_callsOf_recordOf_le`, `callsOf_recordOf_archival`: the cutouts that are computed.
-/

namespace SkyDiscovery

namespace Variant

/-- The variants of a row: at most one virtual one, and at most one behind it. -/
theorem select_eq_append (p : Protocol) (formats : FormatSelection) (modes : ModeSelection)
    (stored : String) : ∃ fits graphic, select p formats modes stored = fits ++ graphic ∧
      (fits = [] ∨ (∃ v, fits = [v]) ∨ ∃ u v, fits = [u, v] ∧ u.product = .archival) ∧
      (graphic = [] ∨ ∃ v, graphic = [v] ∧ v.product = .archival) := by
  unfold select
  split
  · exact ⟨[], _, rfl, .inl rfl, .inr ⟨_, rfl, rfl⟩⟩
  · refine ⟨_, _, rfl, ?_, ?_⟩
    · unfold ofFits
      split_ifs <;> simp
    · split_ifs
      · cases graphicMime? stored <;> simp
      · exact .inl rfl

/-- Behind a virtual variant of a row there is at most one other. -/
theorem length_after_virtual_le {p : Protocol} {formats : FormatSelection} {modes : ModeSelection}
    {stored : String} {before after : List Variant} {v : Variant}
    (h : select p formats modes stored = before ++ v :: after) (hv : v.product = .virtual) :
    after.length ≤ 1 := by
  have hsuffix : v :: after <:+ select p formats modes stored := ⟨before, h.symm⟩
  obtain ⟨fits, graphic, hselect, hfits, hgraphic⟩ := select_eq_append p formats modes stored
  rw [hselect] at hsuffix
  rcases hfits with rfl | ⟨a, rfl⟩ | ⟨a, b, rfl, ha⟩ <;>
    rcases hgraphic with rfl | ⟨c, rfl, hc⟩ <;>
    simp [List.suffix_cons_iff] at hsuffix <;> grind

end Variant

/-! ## Calls of the cutout task -/

/-- The file and the request that the cutout task is called with. -/
def Event.call? : Event → Option (String × CutoutRequest)
  | computed path request => some (path, request)
  | _ => none

/-- The calls of the cutout task among events. -/
def callsOf (events : List Event) : List (String × CutoutRequest) :=
  events.filterMap Event.call?

@[simp] theorem callsOf_nil : callsOf [] = [] := rfl

@[simp] theorem callsOf_append (es fs : List Event) :
    callsOf (es ++ fs) = callsOf es ++ callsOf fs :=
  List.filterMap_append

@[simp] theorem callsOf_read : callsOf (Logged.log .read).events = [] := rfl

@[simp] theorem Logged.value_pure {α : Type} (a : α) : (Pure.pure a : Logged α).value = a := rfl

theorem Editor.length_callsOf_edit_le (e : Editor) (d : FieldDirectory) (r : Record) (id : String) :
    (callsOf (e.edit d r id).events).length ≤ 1 := by
  unfold edit
  rcases e.service.locate id with f | _ | path
  · exact Nat.zero_le _
  · exact Nat.zero_le _
  · exact Nat.le_refl _

/-! ## Products of records -/

namespace Editor

theorem applyKeyword_product (d : FieldDirectory) (r : Record) (k : String × String) :
    (applyKeyword d r k).product = r.product := by
  unfold applyKeyword
  split <;> rfl

theorem describe_product (d : FieldDirectory) (keywords : Keywords) (r : Record) :
    (describe d keywords r).product = .virtual := by
  have hfold : ∀ (ks : List (String × String)) (r : Record),
      (ks.foldl (applyKeyword d) r).product = r.product := by
    intro ks
    induction ks with
    | nil => exact fun r => rfl
    | cons k ks ih => exact fun r => (ih _).trans (applyKeyword_product d r k)
  unfold describe
  rw [hfold]
  split <;> rfl

theorem conclude_product {d : FieldDirectory} {r edited : Record} {id : String}
    {answer : Except Failure (Option Keywords)}
    (h : conclude d r id answer = (edited, .applied)) : edited.product = .virtual := by
  unfold conclude at h
  split at h
  · simp at h
  · simp at h
  · split at h
    · simp at h
    · split at h
      · simp at h
      · obtain ⟨rfl, -⟩ := Prod.mk.inj h
        exact describe_product _ _ _

/-- An edited record is virtual. -/
theorem edit_product {e : Editor} {d : FieldDirectory} {r edited : Record} {id : String}
    (h : (e.edit d r id).value = (edited, .ok .applied)) : edited.product = .virtual := by
  unfold edit at h
  rcases hl : e.service.locate id with f | _ | path
  · simp [hl] at h
  · simp [hl] at h
  · simp only [hl, Logged.value_bind, Logged.value_pure, Prod.mk.injEq, Except.ok.injEq] at h
    exact conclude_product (Prod.ext h.1 h.2)

end Editor

namespace Synthesizer

theorem fill_product {z : Synthesizer} {v : Variant} {value : String → Except Failure Json}
    {r : Record} (h : z.fill v value = .ok r) : r.product = v.product := by
  obtain ⟨entries, -, h⟩ := exists_of_bind h
  cases h
  rfl

/-- A record is made by giving values to the declared fields. -/
theorem exists_fill_of_synthesize {z : Synthesizer} {row : Row} {v : Variant} {made : Synthesized}
    (h : z.synthesize row v = .ok made) : ∃ value, z.fill v value = .ok made.record := by
  unfold synthesize at h
  split at h
  · obtain ⟨id, -, h⟩ := exists_of_bind h
    obtain ⟨r, hr, h⟩ := exists_of_bind h
    cases h
    exact ⟨_, hr⟩
  · obtain ⟨r, hr, h⟩ := exists_of_bind h
    cases h
    exact ⟨_, hr⟩

/-- A record is made for the product of its variant. -/
theorem synthesize_product {z : Synthesizer} {row : Row} {v : Variant} {made : Synthesized}
    (h : z.synthesize row v = .ok made) : made.record.product = v.product := by
  obtain ⟨value, hfill⟩ := exists_fill_of_synthesize h
  exact fill_product hfill

end Synthesizer

namespace Expander

theorem withAssociation_product (d : FieldDirectory) (association : Option String) (r : Record) :
    (withAssociation d association r).product = r.product := by
  unfold withAssociation
  split
  · split <;> rfl
  · rfl

theorem complete_product {d : FieldDirectory} {editor : Option Editor} {v : Variant}
    {r completed : Record} {publisherId : Option String} (hr : r.product = v.product)
    (h : (complete d editor v r publisherId).value = .ok (some completed)) :
    completed.product = v.product := by
  unfold complete at h
  split at h
  · next hv =>
    split at h
    · next e id =>
      rcases he : (e.edit d r id).value with ⟨edited, f | _ | reason⟩
      · simp [he] at h
      · simp only [Logged.value_bind, he, Logged.value_pure, Except.ok.injEq,
          Option.some.injEq] at h
        rw [hv, ← h]
        exact Editor.edit_product he
      · simp [he] at h
    · simp at h
  · simp only [Logged.value_pure, Except.ok.injEq, Option.some.injEq] at h
    rw [← h, hr]

theorem recordOf_product {z : Synthesizer} {editor : Option Editor} {association : Option String}
    {row : Row} {v : Variant} {r : Record}
    (h : (recordOf z editor association row v).value = .ok (some r)) : r.product = v.product := by
  unfold recordOf at h
  split at h
  · simp at h
  · next made hmade =>
    exact complete_product
      ((withAssociation_product _ _ _).trans (Synthesizer.synthesize_product hmade)) h

/-- Only virtual records are discarded. -/
theorem virtual_of_discarded {z : Synthesizer} {editor : Option Editor}
    {association : Option String} {row : Row} {v : Variant}
    (h : (recordOf z editor association row v).value = .ok none) : v.product = .virtual := by
  unfold recordOf complete at h
  split at h
  · simp at h
  · split at h
    · assumption
    · simp at h

/-- The record of a variant that is not virtual has nothing to do with cutouts. -/
theorem recordOf_archival (z : Synthesizer) (editor : Option Editor) (association : Option String)
    (row : Row) {v : Variant} (h : v.product ≠ .virtual) :
    recordOf z editor association row v = recordOf z none association row v := by
  simp only [recordOf, complete, if_neg h]

theorem events_complete (d : FieldDirectory) (e : Editor) {v : Variant} (hv : v.product = .virtual)
    (r : Record) (id : String) :
    (complete d (some e) v r (some id)).events = (e.edit d r id).events := by
  simp only [complete, if_pos hv, Logged.events_bind]
  rcases (e.edit d r id).value with ⟨edited, f | _ | reason⟩ <;> simp

theorem length_callsOf_recordOf_le (z : Synthesizer) (editor : Option Editor)
    (association : Option String) (row : Row) (v : Variant) :
    (callsOf (recordOf z editor association row v).events).length ≤ 1 := by
  unfold recordOf
  split
  · exact Nat.zero_le _
  · next made hmade =>
    by_cases hv : v.product = .virtual
    · rcases editor with _ | e
      · simp [complete, hv]
      · rcases made.publisherId with _ | id
        · simp [complete, hv]
        · rw [events_complete _ e hv]
          exact e.length_callsOf_edit_le _ _ id
    · simp [complete, hv]

/-- Only virtual records have a cutout computed. -/
theorem callsOf_recordOf_archival (z : Synthesizer) (editor : Option Editor)
    (association : Option String) (row : Row) {v : Variant} (h : v.product ≠ .virtual) :
    callsOf (recordOf z editor association row v).events = [] := by
  simp only [recordOf, complete, if_neg h]
  split <;> rfl

end Expander

end SkyDiscovery
