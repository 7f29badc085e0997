import SkyDiscovery.Engine.Run

/-!
# The walk through a stream without a limit

A run takes what its stream yields one item after the other and makes the variants of each row
that it admits.  `Pipeline.walk` lists these steps for a whole stream as if there were no limit on
the records, grouped by items; `follow` goes through steps with room for a number of records.

* `follow_append`: steps are followed one part after the other.
* `follow_failed_iff`: following fails exactly with the first failure that is reached in time.
* `records_follow`: otherwise it yields the first records of the steps, as far as there is room.
* `cleared_of_lt_itemsRead`, `not_cleared_of_itemsRead_lt`: how far a stream is read.
-/

namespace SkyDiscovery.Engine

/-- What a run meets: a fault in the place of a row, or a variant of a row. -/
inductive Step where
  | fault (f : Failure)
  | variant (made : Logged (Except Failure (Option Record)))

namespace Step

/-- The record that comes of a step, unless it is discarded. -/
def record? : Step → Option Record
  | variant ⟨_, .ok r⟩ => r
  | _ => none

def failure? : Step → Option Failure
  | fault f => some f
  | variant ⟨_, .error f⟩ => some f
  | variant ⟨_, .ok _⟩ => none

def isVariant : Step → Bool
  | fault _ => false
  | variant _ => true

variable {made : Logged (Except Failure (Option Record))}

theorem failure?_of_error {f : Failure} (h : made.value = .error f) :
    (variant made).failure? = some f := by
  obtain ⟨events, value⟩ := made
  obtain rfl : value = .error f := h
  rfl

theorem failure?_of_ok {r : Option Record} (h : made.value = .ok r) :
    (variant made).failure? = none := by
  obtain ⟨events, value⟩ := made
  obtain rfl : value = .ok r := h
  rfl

theorem record?_of_ok {r : Option Record} (h : made.value = .ok r) :
    (variant made).record? = r := by
  obtain ⟨events, value⟩ := made
  obtain rfl : value = .ok r := h
  rfl

end Step

/-- The records that come of steps, in their order. -/
def recordsOf (steps : List Step) : List Record :=
  steps.filterMap Step.record?

/-- A step is reached with room for its record; only variants need room. -/
def HasRoom (limit : Nat) (before : List Step) (step : Step) : Prop :=
  step.isVariant → (recordsOf before).length < limit

/-- The steps are passed without a failure and without reaching the limit. -/
def Cleared (limit : Nat) (steps : List Step) : Prop :=
  ∀ before step after, steps = before ++ step :: after →
    HasRoom limit before step ∧ step.failure? = none

/-- The first failure of the steps is `f`, and it is met before a variant for which the limit leaves
no room. -/
def FailsWithin (limit : Nat) (steps : List Step) (f : Failure) : Prop :=
  ∃ before step after, steps = before ++ step :: after ∧ Cleared limit before ∧
    HasRoom limit before step ∧ step.failure? = some f

/-! ## Following steps -/

/-- How the following of steps ends. -/
inductive Ending where
  | finished
  | limited
  | failed (f : Failure)

/-- The records of steps with room for a number of records, and how they end. -/
def follow : Nat → List Step → List Record × Ending
  | _, [] => ([], .finished)
  | _, .fault f :: _ => ([], .failed f)
  | 0, .variant _ :: _ => ([], .limited)
  | room + 1, .variant made :: rest =>
    match made.value with
    | .error f => ([], .failed f)
    | .ok none => follow (room + 1) rest
    | .ok (some r) => (r :: (follow room rest).1, (follow room rest).2)

/-- The number of groups of steps that are begun with room for a number of records. -/
def itemsRead : Nat → List (List Step) → Nat
  | _, [] => 0
  | room, group :: rest =>
    match follow room group with
    | (rs, .finished) => itemsRead (room - rs.length) rest + 1
    | _ => 1

theorem follow_append (room : Nat) (steps more : List Step) :
    follow room (steps ++ more) =
      match follow room steps with
      | (rs, .finished) => (rs ++ (follow (room - rs.length) more).1,
          (follow (room - rs.length) more).2)
      | stopped => stopped := by
  fun_induction follow room steps with
  | case1 => simp
  | case2 | case3 => simp [follow]
  | case4 _ _ _ _ h => simp [follow, h]
  | case5 room made rest h ih => simpa [follow, h] using ih
  | case6 room made rest r h ih =>
    simp only [List.cons_append, follow, h, ih]
    rcases follow room rest with ⟨rs, _ | _ | f⟩ <;> simp

/-! ## What following means for the steps themselves -/

@[simp] theorem recordsOf_nil : recordsOf [] = [] := rfl

theorem recordsOf_discarded {made : Logged (Except Failure (Option Record))}
    (h : made.value = .ok none) (steps : List Step) :
    recordsOf (.variant made :: steps) = recordsOf steps :=
  List.filterMap_cons_none (Step.record?_of_ok h)

theorem recordsOf_emitted {made : Logged (Except Failure (Option Record))} {r : Record}
    (h : made.value = .ok (some r)) (steps : List Step) :
    recordsOf (.variant made :: steps) = r :: recordsOf steps :=
  List.filterMap_cons_some (Step.record?_of_ok h)

theorem recordsOf_cons (step : Step) (steps : List Step) :
    recordsOf (step :: steps) = recordsOf [step] ++ recordsOf steps := by
  simp only [recordsOf, ← List.filterMap_append, List.singleton_append]

/-- A step before takes up the room for its own record. -/
theorem hasRoom_cons_iff (limit : Nat) (first : Step) (before : List Step) (step : Step) :
    HasRoom limit (first :: before) step ↔
      HasRoom (limit - (recordsOf [first]).length) before step := by
  rw [HasRoom, HasRoom, recordsOf_cons, List.length_append, Nat.lt_sub_iff_add_lt, Nat.add_comm]

theorem cleared_nil (limit : Nat) : Cleared limit [] := by
  intro before step after h
  simp at h

theorem cleared_cons_iff (limit : Nat) (step : Step) (steps : List Step) :
    Cleared limit (step :: steps) ↔
      HasRoom limit [] step ∧ step.failure? = none ∧
        Cleared (limit - (recordsOf [step]).length) steps := by
  constructor
  · intro h
    obtain ⟨room, sound⟩ := h [] step steps rfl
    refine ⟨room, sound, fun before x after hx => ?_⟩
    obtain ⟨hroom, hsound⟩ := h (step :: before) x after (by rw [hx]; rfl)
    exact ⟨(hasRoom_cons_iff limit step before x).1 hroom, hsound⟩
  · rintro ⟨room, sound, rest⟩ before x after hx
    cases before with
    | nil =>
      simp only [List.nil_append, List.cons.injEq] at hx
      obtain ⟨rfl, rfl⟩ := hx
      exact ⟨room, sound⟩
    | cons y before =>
      simp only [List.cons_append, List.cons.injEq] at hx
      obtain ⟨rfl, hx⟩ := hx
      obtain ⟨hroom, hsound⟩ := rest before x after hx
      exact ⟨(hasRoom_cons_iff limit step before x).2 hroom, hsound⟩

theorem failsWithin_cons_iff (limit : Nat) (step : Step) (steps : List Step) (f : Failure) :
    FailsWithin limit (step :: steps) f ↔
      HasRoom limit [] step ∧ (step.failure? = some f ∨ step.failure? = none ∧
        FailsWithin (limit - (recordsOf [step]).length) steps f) := by
  constructor
  · rintro ⟨before, x, after, hx, clear, room, fails⟩
    cases before with
    | nil =>
      simp only [List.nil_append, List.cons.injEq] at hx
      obtain ⟨rfl, rfl⟩ := hx
      exact ⟨room, Or.inl fails⟩
    | cons y before =>
      simp only [List.cons_append, List.cons.injEq] at hx
      obtain ⟨rfl, hx⟩ := hx
      obtain ⟨hroom, hsound, hclear⟩ := (cleared_cons_iff limit step before).1 clear
      refine ⟨hroom, Or.inr ⟨hsound, before, x, after, hx, hclear, ?_, fails⟩⟩
      exact (hasRoom_cons_iff limit step before x).1 room
  · rintro ⟨room, fails | ⟨sound, before, x, after, hx, clear, hroom, fails⟩⟩
    · exact ⟨[], step, steps, rfl, cleared_nil limit, room, fails⟩
    · refine ⟨step :: before, x, after, by rw [hx]; rfl, ?_, ?_, fails⟩
      · exact (cleared_cons_iff limit step before).2 ⟨room, sound, clear⟩
      · exact (hasRoom_cons_iff limit step before x).2 hroom

theorem not_failsWithin_nil (limit : Nat) (f : Failure) : ¬ FailsWithin limit [] f := by
  rintro ⟨before, step, after, h, -⟩
  simp at h

theorem follow_finished_iff (room : Nat) (steps : List Step) :
    (follow room steps).2 = .finished ↔ Cleared room steps := by
  fun_induction follow room steps with
  | case1 => simp [cleared_nil]
  | case2 => simp [cleared_cons_iff, Step.failure?]
  | case3 => simp [cleared_cons_iff, HasRoom, Step.isVariant]
  | case4 room made rest f h => simp [cleared_cons_iff, Step.failure?_of_error h]
  | case5 room made rest h ih =>
    rw [ih, cleared_cons_iff, Step.failure?_of_ok h, recordsOf_discarded h]
    simp [HasRoom]
  | case6 room made rest r h ih =>
    rw [ih, cleared_cons_iff, Step.failure?_of_ok h, recordsOf_emitted h]
    simp [HasRoom]

theorem follow_failed_iff (room : Nat) (steps : List Step) (f : Failure) :
    (follow room steps).2 = .failed f ↔ FailsWithin room steps f := by
  fun_induction follow room steps with
  | case1 => simp [not_failsWithin_nil]
  | case2 => simp [failsWithin_cons_iff, HasRoom, Step.isVariant, Step.failure?]
  | case3 => simp [failsWithin_cons_iff, HasRoom, Step.isVariant]
  | case4 room made rest g h =>
    simp [failsWithin_cons_iff, HasRoom, Step.failure?_of_error h]
  | case5 room made rest h ih =>
    rw [ih, failsWithin_cons_iff, Step.failure?_of_ok h, recordsOf_discarded h]
    simp [HasRoom]
  | case6 room made rest r h ih =>
    rw [ih, failsWithin_cons_iff, Step.failure?_of_ok h, recordsOf_emitted h]
    simp [HasRoom]

/-- Without a failure, following yields the first records of all steps. -/
theorem records_follow {room : Nat} {steps : List Step}
    (h : ∀ f, (follow room steps).2 ≠ .failed f) :
    (follow room steps).1 = (recordsOf steps).take room := by
  fun_induction follow room steps with
  | case1 => simp [recordsOf]
  | case2 _ f => exact absurd rfl (h f)
  | case3 => simp
  | case4 _ _ _ f => exact absurd rfl (h f)
  | case5 room made rest value ih => rw [ih h, recordsOf_discarded value]
  | case6 room made rest r value ih =>
    rw [ih h, recordsOf_emitted value, List.take_succ_cons]

/-! ## How far a stream is read -/

/-- Following that finishes yields all records. -/
theorem follow_of_finished {room : Nat} {steps : List Step}
    (h : (follow room steps).2 = .finished) : follow room steps = (recordsOf steps, .finished) := by
  fun_induction follow room steps with
  | case1 => rfl
  | case2 | case3 | case4 => simp at h
  | case5 room made rest value ih => rw [ih h, recordsOf_discarded value]
  | case6 room made rest r value ih => rw [ih h, recordsOf_emitted value]

theorem cleared_append_iff (room : Nat) (steps more : List Step) :
    Cleared room (steps ++ more) ↔
      Cleared room steps ∧ Cleared (room - (recordsOf steps).length) more := by
  rw [← follow_finished_iff, ← follow_finished_iff, ← follow_finished_iff, follow_append]
  by_cases h : (follow room steps).2 = .finished
  · simp [follow_of_finished h]
  · rcases hf : follow room steps with ⟨rs, _ | _ | f⟩
    · simp [hf] at h
    · simp
    · simp

theorem itemsRead_cons_of_finished {room : Nat} {group : List Step} (rest : List (List Step))
    (h : (follow room group).2 = .finished) :
    itemsRead room (group :: rest) = itemsRead (room - (recordsOf group).length) rest + 1 := by
  rw [itemsRead, follow_of_finished h]

theorem itemsRead_cons_of_not_finished {room : Nat} {group : List Step} (rest : List (List Step))
    (h : (follow room group).2 ≠ .finished) : itemsRead room (group :: rest) = 1 := by
  rw [itemsRead]
  rcases hf : follow room group with ⟨rs, _ | _ | f⟩
  · simp [hf] at h
  · rfl
  · rfl

theorem itemsRead_le (room : Nat) (groups : List (List Step)) :
    itemsRead room groups ≤ groups.length := by
  induction groups generalizing room with
  | nil => simp [itemsRead]
  | cons group rest ih =>
    by_cases h : (follow room group).2 = .finished
    · rw [itemsRead_cons_of_finished rest h, List.length_cons]
      exact Nat.succ_le_succ (ih _)
    · rw [itemsRead_cons_of_not_finished rest h, List.length_cons]
      omega

/-- All items before the last one that is read are cleared. -/
theorem cleared_of_lt_itemsRead {room : Nat} {groups : List (List Step)} {j : Nat}
    (h : j < itemsRead room groups) : Cleared room (groups.take j).flatten := by
  induction groups generalizing room j with
  | nil => simp [itemsRead] at h
  | cons group rest ih =>
    cases j with
    | zero => exact cleared_nil room
    | succ j =>
      by_cases hg : (follow room group).2 = .finished
      · rw [itemsRead_cons_of_finished rest hg] at h
        rw [List.take_succ_cons, List.flatten_cons, cleared_append_iff]
        exact ⟨(follow_finished_iff room group).1 hg, ih (by omega)⟩
      · rw [itemsRead_cons_of_not_finished rest hg] at h
        omega

/-- A stream that is not read to its end stops at the last item that is read. -/
theorem not_cleared_of_itemsRead_lt {room : Nat} {groups : List (List Step)}
    (h : itemsRead room groups < groups.length) :
    ¬ Cleared room (groups.take (itemsRead room groups)).flatten := by
  induction groups generalizing room with
  | nil => simp at h
  | cons group rest ih =>
    by_cases hg : (follow room group).2 = .finished
    · rw [itemsRead_cons_of_finished rest hg] at h ⊢
      rw [List.take_succ_cons, List.flatten_cons, cleared_append_iff]
      rintro ⟨-, hrest⟩
      exact ih (by simpa using h) hrest
    · rw [itemsRead_cons_of_not_finished rest hg, List.take_succ_cons, List.flatten_cons,
        cleared_append_iff, ← follow_finished_iff]
      rintro ⟨hgroup, -⟩
      exact hg hgroup

/-! ## The steps of a stream -/

/-- The steps of the variants of a row. -/
def variantSteps (z : Synthesizer) (editor : Option Editor) (association : Option String)
    (row : Row) (vs : List Variant) : List Step :=
  vs.map fun v => .variant (Expander.recordOf z editor association row v)

namespace Pipeline

/-- The steps of an item before which `drawn` associations were drawn. -/
def steps (l : Pipeline) (drawn : Nat) : CursorItem → List Step
  | .error f => [.fault f]
  | .ok row =>
    if l.admits row then
      let vs := l.expander.variants row
      variantSteps l.synthesizer l.editor (Expander.associate drawn vs.length).2 row vs
    else []

/-- The number of associations drawn after an item. -/
def drawnAfter (l : Pipeline) (drawn : Nat) : CursorItem → Nat
  | .error _ => drawn
  | .ok row =>
    if l.admits row then (Expander.associate drawn (l.expander.variants row).length).1 else drawn

/-- The steps of a stream, item by item, without a limit and past all failures. -/
def walk (l : Pipeline) (drawn : Nat) : List CursorItem → List (List Step)
  | [] => []
  | item :: rest => l.steps drawn item :: l.walk (l.drawnAfter drawn item) rest

end Pipeline

end SkyDiscovery.Engine
