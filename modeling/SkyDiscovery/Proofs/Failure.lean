import SkyDiscovery.Failure

/-!
# The failures that a computation can have

`FailsOnly P x` says that every failure of `x` satisfies `P`.  There is one rule for each way in
which computations are put together.  A computation of two steps succeeds only if both do.
-/

namespace SkyDiscovery

theorem exists_of_bind {ε α β : Type} {x : Except ε α} {f : α → Except ε β} {b : β}
    (h : x >>= f = .ok b) : ∃ a, x = .ok a ∧ f a = .ok b := by
  cases x with
  | error e => cases h
  | ok a => exact ⟨a, rfl, h⟩

theorem bind_eq_ok_iff {ε α β : Type} {x : Except ε α} {f : α → Except ε β} {b : β} :
    x >>= f = .ok b ↔ ∃ a, x = .ok a ∧ f a = .ok b := by
  refine ⟨exists_of_bind, ?_⟩
  rintro ⟨a, rfl, h⟩
  exact h

theorem exists_ok_of_any {ε α : Type} {x : Except ε α} {p : α → Bool}
    (h : x.toOption.any p = true) : ∃ a, x = .ok a ∧ p a = true := by
  cases x with
  | error e => cases h
  | ok a => exact ⟨a, rfl, h⟩

/-- What holds of every element on which a step succeeds holds of all if all steps do. -/
theorem forall_of_mapM {ε α β : Type} {P : α → Prop} {k : α → Except ε β}
    (hk : ∀ a b, k a = .ok b → P a) {as : List α} {bs : List β} (h : as.mapM k = .ok bs) :
    ∀ a ∈ as, P a := by
  induction as generalizing bs with
  | nil => exact List.forall_mem_nil _
  | cons a as ih =>
    rw [List.mapM_cons] at h
    obtain ⟨b, hb, h⟩ := exists_of_bind h
    obtain ⟨cs, hcs, -⟩ := exists_of_bind h
    exact List.forall_mem_cons.2 ⟨hk a b hb, ih hcs⟩

/-- The failure of a computation, if it fails. -/
def failure? {ε α : Type} : Except ε α → Option ε
  | .error e => some e
  | .ok _ => none

theorem failure?_eq_some_iff {ε α : Type} {x : Except ε α} {e : ε} :
    failure? x = some e ↔ x = .error e := by
  cases x with
  | error e' => simp [failure?]
  | ok a => simp [failure?]

/-- Every failure of a computation satisfies `P`. -/
def FailsOnly {α : Type} (P : Failure → Prop) (x : Except Failure α) : Prop :=
  ∀ f, x = .error f → P f

section

variable {α β : Type} {P Q : Failure → Prop}

theorem failsOnly_ok (a : α) : FailsOnly P (.ok a) := by
  intro f h
  cases h

theorem failsOnly_error {f : Failure} (h : P f) : FailsOnly P (.error f : Except Failure α) := by
  intro g hg
  cases hg
  exact h

theorem FailsOnly.mono {x : Except Failure α} (h : FailsOnly P x) (hPQ : ∀ f, P f → Q f) :
    FailsOnly Q x :=
  fun f hf => hPQ f (h f hf)

theorem FailsOnly.bind {x : Except Failure α} {k : α → Except Failure β} (hx : FailsOnly P x)
    (hk : ∀ a, FailsOnly P (k a)) : FailsOnly P (x >>= k) := by
  intro f hf
  cases x with
  | error g =>
    cases hf
    exact hx _ rfl
  | ok a => exact hk a f hf

theorem FailsOnly.map {x : Except Failure α} (hx : FailsOnly P x) (k : α → β) :
    FailsOnly P (x.map k) := by
  intro f hf
  cases x with
  | error g =>
    cases hf
    exact hx _ rfl
  | ok a => cases hf

theorem failsOnly_mapM {k : α → Except Failure β} (hk : ∀ a, FailsOnly P (k a)) (as : List α) :
    FailsOnly P (as.mapM k) := by
  induction as with
  | nil => exact failsOnly_ok _
  | cons a as ih =>
    rw [List.mapM_cons]
    exact (hk a).bind fun _ => ih.bind fun _ => failsOnly_ok _

theorem failsOnly_foldlM {k : β → α → Except Failure β} (hk : ∀ b a, FailsOnly P (k b a))
    (as : List α) (b : β) : FailsOnly P (as.foldlM k b) := by
  induction as generalizing b with
  | nil => exact failsOnly_ok _
  | cons a as ih =>
    rw [List.foldlM_cons]
    exact (hk b a).bind ih

theorem failsOnly_mapError {ε : Type} {k : ε → Failure} (hk : ∀ e, P (k e)) (x : Except ε α) :
    FailsOnly P (x.mapError k) := by
  cases x with
  | error e => exact failsOnly_error (hk e)
  | ok a => exact failsOnly_ok a

end

end SkyDiscovery
