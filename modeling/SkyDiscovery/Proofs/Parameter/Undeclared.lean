import SkyDiscovery.Proofs.Parameter.Keys

/-!
# Parameters that are not declared

A name that a protocol does not declare is taken with any value, and comes to nothing but a text
under its own key.

* `read_insert_undeclared`: a request with such a parameter in it and without.
* `SameDeclared`: what the two sets have in common; the getters of typed values do not tell them
  apart, nor do the getters of declared names.
-/

namespace SkyDiscovery

/-- No declaration of the protocol has the key. -/
def Protocol.Undeclared (p : Protocol) (k : String) : Prop :=
  ∀ d ∈ p.declarations, Text.lower d.name ≠ k

theorem Protocol.undeclared_iff {p : Protocol} {name : String} :
    p.Undeclared (ParameterSet.key name) ↔
      ∀ d ∈ p.declarations, Text.sameIgnoringCase d.name (Text.trimmed name) = false := by
  simp only [Protocol.Undeclared, Text.sameIgnoringCase, ParameterSet.key, beq_eq_false_iff_ne]

namespace ParameterSet

section

variable {p : Protocol} {s t : ParameterSet} {name k : String} {pairs : List (String × String)}

theorem declarationOf_of_undeclared (h : p.Undeclared (key name)) :
    declarationOf p name = ⟨Text.trimmed name, .text, .client, ""⟩ := by
  have hnone : p.declaration? name = none := by
    refine List.find?_eq_none.2 fun d hd => ?_
    rw [Protocol.undeclared_iff.1 h d hd]
    exact Bool.false_ne_true
  rw [declarationOf, hnone]
  rfl

theorem result_set_of_undeclared (h : p.Undeclared (key name)) (s : ParameterSet) (value : String) :
    (s.set p name value).2 = .ok () := by
  have hdeclaration := declarationOf_of_undeclared h
  have houtcome := outcome_set p s name value
  generalize s.set p name value = result at houtcome ⊢
  cases houtcome with
  | taken | extended | replaced => rfl
  | stopped x list u f _ held _ =>
    rw [hdeclaration, heldRanges?_of_kind (by simp)] at held
    cases held
  | refused f _ _ read =>
    rw [hdeclaration] at read
    cases read

/-- There is nothing but a text under the key. -/
def HoldsText (s : ParameterSet) (k : String) : Prop :=
  ∀ x, s.parameters.get? k = some x → ∃ w, x.value = .text w

theorem holdsText_of_read (h : p.Undeclared k) (hread : read p pairs = .ok s) : s.HoldsText k := by
  intro x hx
  have hleaves := leaves_of_read hread k
  cases hlast : (current (ofKey k pairs)).getLast? with
  | none =>
    rw [hleaves.nothing (List.getLast?_eq_none_iff.1 hlast)] at hx
    cases hx
  | some a =>
    have hmem := (List.rtakeWhile_suffix _ _).mem (List.mem_of_getLast? hlast)
    obtain rfl := key_of_mem_ofKey hmem
    obtain ⟨v, hv, hplace⟩ := hleaves.last a _ hlast (declarationOf_of_undeclared h) (by simp)
    cases hv
    cases hx.symm.trans hplace
    exact ⟨_, rfl⟩

/-! ## Requests with such a parameter and without -/

/-- The sets agree but for a text of the client, under a key that is not declared. -/
structure SameDeclared (p : Protocol) (k : String) (s t : ParameterSet) : Prop where
  undeclared : p.Undeclared k
  agree : AgreeOff [k] s t
  left : s.HoldsText k
  right : t.HoldsText k

theorem setAll_agreeOff (h : p.Undeclared k) (hst : AgreeOff [k] s t) :
    (∃ f, setAll p s pairs = .error f ∧ setAll p t pairs = .error f) ∨
      ∃ u v, setAll p s pairs = .ok u ∧ setAll p t pairs = .ok v ∧ AgreeOff [k] u v := by
  induction pairs generalizing s t with
  | nil => exact .inr ⟨s, t, rfl, rfl, hst⟩
  | cons a pairs ih =>
    have hstep := agreeOff_set p (a := a) (b := a) hst rfl fun _ => rfl
    -- Under the key in question both values are taken, and elsewhere the sets agree.
    have hresult : (s.set p a.1 a.2).2 = (t.set p a.1 a.2).2 := by
      by_cases hkey : key a.1 = k
      · subst hkey
        rw [result_set_of_undeclared h, result_set_of_undeclared h]
      · exact (set_congr p a.2 (hst _ (by simpa using hkey))).1
    rcases hs : s.set p a.1 a.2 with ⟨s', f | x⟩ <;> rcases ht : t.set p a.1 a.2 with ⟨t', g | y⟩ <;>
      rw [hs, ht] at hresult hstep
    · cases hresult
      exact .inl ⟨f, setAll_cons_of_error hs, setAll_cons_of_error ht⟩
    · cases hresult
    · cases hresult
    · rw [setAll_cons_of_ok hs, setAll_cons_of_ok ht]
      exact ih hstep

/-- A parameter that is not declared makes no request fail, and none succeed. -/
theorem read_insert_undeclared (h : p.Undeclared (key name)) (value : String)
    (before after : List (String × String)) :
    (∃ f, read p (before ++ (name, value) :: after) = .error f ∧
        read p (before ++ after) = .error f) ∨
      ∃ s t, read p (before ++ (name, value) :: after) = .ok s ∧ read p (before ++ after) = .ok t ∧
        SameDeclared p (key name) s t := by
  have hread : ∀ pairs, read p (before ++ pairs) =
      read p before >>= fun u => setAll p u pairs := fun _ => setAll_append _ _
  cases hbefore : read p before with
  | error f =>
    refine .inl ⟨f, ?_, ?_⟩ <;> rw [hread, hbefore] <;> rfl
  | ok u =>
    rcases hset : u.set p name value with ⟨v, x⟩
    have hx := result_set_of_undeclared h u value
    rw [hset] at hx
    obtain rfl : x = .ok () := hx
    have hagree : AgreeOff [key name] v u := by
      intro k hk
      have hother := get?_set_of_ne p u value (k := k) (Ne.symm (by simpa using hk))
      rwa [hset] at hother
    have hbehind : ∀ pairs, read p (before ++ pairs) = setAll p u pairs := by
      intro pairs
      rw [hread, hbefore]
      rfl
    have hinsert : read p (before ++ (name, value) :: after) = setAll p v after :=
      (hbehind _).trans (setAll_cons_of_ok hset)
    have hwithout := hbehind after
    rw [hinsert, hwithout]
    rcases setAll_agreeOff h hagree with hfailed | ⟨s, t, hv, hu, hst⟩
    · exact .inl hfailed
    · exact .inr ⟨s, t, hv, hu, h, hst, holdsText_of_read h (hinsert.trans hv),
        holdsText_of_read h (hwithout.trans hu)⟩

end

/-! ## Getters -/

theorem HoldsText.value? {s : ParameterSet} {name : String} (h : s.HoldsText (Text.lower name)) :
    (s.get? name).map Parameter.value = none ∨
      ∃ w, (s.get? name).map Parameter.value = some (.text w) := by
  cases hx : s.get? name with
  | none => exact .inl rfl
  | some x =>
    obtain ⟨w, hw⟩ := h x hx
    exact .inr ⟨w, congrArg some hw⟩

namespace SameDeclared

variable {p : Protocol} {k : String} {s t : ParameterSet}

theorem get? (h : SameDeclared p k s t) {name : String}
    (hname : ∃ d ∈ p.declarations, Text.lower d.name = Text.lower name) :
    s.get? name = t.get? name := by
  obtain ⟨d, hd, hlower⟩ := hname
  have hne : Text.lower name ≠ k := hlower ▸ h.undeclared d hd
  exact h.agree _ (by simpa using hne)

theorem text? (h : SameDeclared p k s t) {name : String}
    (hname : ∃ d ∈ p.declarations, Text.lower d.name = Text.lower name) :
    s.text? name = t.text? name := by
  rw [ParameterSet.text?, ParameterSet.text?, h.get? hname]

theorem isSet (h : SameDeclared p k s t) {name : String}
    (hname : ∃ d ∈ p.declarations, Text.lower d.name = Text.lower name) :
    s.isSet name = t.isSet name := by
  rw [ParameterSet.isSet, ParameterSet.isSet, h.get? hname]

/-- Under any name the sets hold the same, or nothing but texts. -/
theorem get?_or (h : SameDeclared p k s t) (name : String) :
    s.get? name = t.get? name ∨
      s.HoldsText (Text.lower name) ∧ t.HoldsText (Text.lower name) := by
  by_cases hk : Text.lower name = k
  · subst hk
    exact .inr ⟨h.left, h.right⟩
  · exact .inl (h.agree _ (by simpa using hk))

theorem ranges? (h : SameDeclared p k s t) (name : String) : s.ranges? name = t.ranges? name := by
  unfold ParameterSet.ranges?
  rcases h.get?_or name with hsame | ⟨hs, ht⟩
  · rw [hsame]
  · rcases hs.value? with hs | ⟨w, hs⟩ <;> rcases ht.value? with ht | ⟨w', ht⟩ <;> rw [hs, ht]

theorem float? (h : SameDeclared p k s t) (name : String) : s.float? name = t.float? name := by
  unfold ParameterSet.float?
  rcases h.get?_or name with hsame | ⟨hs, ht⟩
  · rw [hsame]
  · rcases hs.value? with hs | ⟨w, hs⟩ <;> rcases ht.value? with ht | ⟨w', ht⟩ <;> rw [hs, ht]

theorem integer? (h : SameDeclared p k s t) (name : String) : s.integer? name = t.integer? name := by
  unfold ParameterSet.integer?
  rcases h.get?_or name with hsame | ⟨hs, ht⟩
  · rw [hsame]
  · rcases hs.value? with hs | ⟨w, hs⟩ <;> rcases ht.value? with ht | ⟨w', ht⟩ <;> rw [hs, ht]

end SameDeclared

end ParameterSet

end SkyDiscovery
