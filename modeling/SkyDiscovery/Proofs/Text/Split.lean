import Mathlib.Data.List.DropRight
import Mathlib.Data.List.Infix
import SkyDiscovery.Text.Split

/-!
# Texts cut and put together

* `trim_trim`: trimming twice is trimming once.
* `trim_append`: what is trimmed of a text that begins with a word.
* `cut_eq_some`, `cut_append`: a text is cut at the first mark.
* `afterLast_append_cons`, `afterLast_eq_self_iff`: what stands behind the last mark.
* `throughLast_cases`: what stands before it.
* `cutWord_append_cons`: a text is cut at the first occurrence of a word.
* `items_intercalate`: the stretches between the separators of joined words are the words.
* `items_trim`: the blanks around a text are no part of them.
-/

namespace SkyDiscovery.Text

/-! ## Trimming -/

theorem trim_isPrefix (cs : List Char) : trim cs <+: trimStart cs :=
  List.rdropWhile_prefix isBlank (trimStart cs)

theorem mem_of_mem_trim {cs : List Char} {c : Char} (h : c ∈ trim cs) : c ∈ cs :=
  (List.dropWhile_sublist isBlank).subset ((trim_isPrefix cs).subset h)

/-- A text without blanks at its two ends is left as it is. -/
theorem trim_eq_self {cs : List Char} (hfirst : ∀ c ∈ cs.head?, isBlank c = false)
    (hlast : ∀ c ∈ cs.getLast?, isBlank c = false) : trim cs = cs := by
  have hstart : trimStart cs = cs := by
    cases cs with
    | nil => rfl
    | cons c cs => exact List.dropWhile_cons_of_neg (by simp [hfirst c rfl])
  rw [trim, hstart]
  refine List.rdropWhile_eq_self_iff.2 fun hne => ?_
  exact Bool.eq_false_iff.1 (hlast _ (List.getLast_mem_getLast? hne))

theorem trim_of_no_blank {cs : List Char} (h : ∀ c ∈ cs, isBlank c = false) : trim cs = cs :=
  trim_eq_self (fun c hc => h c (List.mem_of_mem_head? hc))
    fun c hc => h c (List.mem_of_mem_getLast? hc)

theorem trimmed_of_no_blank {s : String} (h : ∀ c ∈ s.toList, isBlank c = false) :
    trimmed s = s := by
  rw [trimmed, trim_of_no_blank h, String.ofList_toList]

theorem not_isBlank_head_trim (cs : List Char) : ∀ c ∈ (trim cs).head?, isBlank c = false := by
  intro c hc
  obtain ⟨ds, hds⟩ := List.head?_eq_some_iff.1 hc
  obtain ⟨es, hes⟩ := trim_isPrefix cs
  have hne : trimStart cs ≠ [] := by
    rw [← hes, hds]
    exact List.cons_ne_nil _ _
  have hhead : (trimStart cs).head hne = c := by
    simp only [← hes, hds, List.cons_append, List.head_cons]
  rw [← hhead]
  exact List.head_dropWhile_not isBlank hne

theorem not_isBlank_getLast_trim (cs : List Char) :
    ∀ c ∈ (trim cs).getLast?, isBlank c = false := by
  intro c hc
  obtain ⟨hne, rfl⟩ := List.mem_getLast?_eq_getLast hc
  exact Bool.eq_false_iff.2 (List.rdropWhile_last_not isBlank (trimStart cs) hne)

theorem trim_trim (cs : List Char) : trim (trim cs) = trim cs :=
  trim_eq_self (not_isBlank_head_trim cs) (not_isBlank_getLast_trim cs)

/-- A text is what is left of it by trimming, with blanks before and after. -/
theorem exists_blanks_around (cs : List Char) :
    ∃ front back, cs = front ++ (trim cs ++ back) ∧ (∀ c ∈ front, isBlank c = true) ∧
      ∀ c ∈ back, isBlank c = true := by
  refine ⟨cs.takeWhile isBlank, (trimStart cs).rtakeWhile isBlank, ?_, ?_, ?_⟩
  · rw [show trim cs = (trimStart cs).rdropWhile isBlank from rfl,
      List.rdropWhile_append_rtakeWhile, trimStart, List.takeWhile_append_dropWhile]
  · exact fun c hc => List.mem_takeWhile_imp hc
  · exact fun c hc => List.mem_rtakeWhile_imp hc

theorem trim_blank_append {front : List Char} (h : ∀ c ∈ front, isBlank c = true)
    (cs : List Char) : trim (front ++ cs) = trim cs := by
  rw [trim, trimStart, List.dropWhile_append_of_pos h]
  rfl

theorem trim_append_blank {back : List Char} (h : ∀ c ∈ back, isBlank c = true)
    (cs : List Char) : trim (cs ++ back) = trim cs := by
  have hend : ∀ ds, trimEnd (ds ++ back) = trimEnd ds := by
    intro ds
    rw [trimEnd, List.reverse_append, List.dropWhile_append_of_pos (by simpa using h)]
    rfl
  have hall : trimStart back = [] := List.dropWhile_eq_nil_iff.2 h
  rw [trim, trim, trimStart, trimStart, List.dropWhile_append]
  split
  · next hempty => rw [List.isEmpty_iff.1 hempty, ← trimStart, hall]
  · exact hend _

theorem trim_trimEnd (cs : List Char) : trim (trimEnd cs) = trim cs := by
  have hends : trimEnd cs ++ cs.rtakeWhile isBlank = cs := List.rdropWhile_append_rtakeWhile
  conv_rhs => rw [← hends, trim_append_blank fun c hc => List.mem_rtakeWhile_imp hc]

/-- Behind a text without blanks at its ends only the end is trimmed. -/
theorem trim_append {w : List Char} (hne : w ≠ []) (hfirst : ∀ c ∈ w.head?, isBlank c = false)
    (hlast : ∀ c ∈ w.getLast?, isBlank c = false) (cs : List Char) :
    trim (w ++ cs) = w ++ trimEnd cs := by
  obtain ⟨c, w, rfl⟩ := List.exists_cons_of_ne_nil hne
  have hc : ¬ isBlank c = true := Bool.eq_false_iff.1 (hfirst c rfl)
  have hstay : (c :: w).reverse.dropWhile isBlank = (c :: w).reverse := by
    obtain ⟨b, ds, hds⟩ := List.exists_cons_of_ne_nil (List.reverse_ne_nil_iff.2 hne)
    have hb : b ∈ (c :: w).getLast? := by rw [← List.head?_reverse, hds]; rfl
    rw [hds, List.dropWhile_cons_of_neg (Bool.eq_false_iff.1 (hlast b hb))]
  rw [trim, trimStart, List.cons_append, List.dropWhile_cons_of_neg hc, ← List.cons_append, trimEnd,
    List.reverse_append, List.dropWhile_append, hstay]
  split
  · next hempty =>
    rw [trimEnd, List.isEmpty_iff.1 hempty, List.reverse_nil, List.append_nil,
      List.reverse_reverse]
  · rw [List.reverse_append, List.reverse_reverse, trimEnd]

/-! ## Cutting at a mark -/

/-- What stands before the first mark can be longer. -/
theorem cut_append_of_not_mem {mark : Char} {bs : List Char} (h : mark ∉ bs) (cs : List Char) :
    cut mark (bs ++ cs) = (cut mark cs).map fun (before, after) => (bs ++ before, after) := by
  induction bs with
  | nil => cases hcut : cut mark cs <;> simp [hcut]
  | cons b bs ih =>
    rw [List.mem_cons, not_or] at h
    rw [List.cons_append, cut, if_neg (Ne.symm h.1), ih h.2, Option.map_map]
    rfl

theorem cut_append {mark : Char} {before : List Char} (h : mark ∉ before) (after : List Char) :
    cut mark (before ++ mark :: after) = some (before, after) := by
  simp [cut_append_of_not_mem h, cut]

theorem cut_of_not_mem {mark : Char} {cs : List Char} (h : mark ∉ cs) : cut mark cs = none := by
  simpa [cut] using cut_append_of_not_mem h []

theorem cut_eq_some {mark : Char} {cs before after : List Char}
    (h : cut mark cs = some (before, after)) : cs = before ++ mark :: after ∧ mark ∉ before := by
  induction cs generalizing before with
  | nil => cases h
  | cons c cs ih =>
    unfold cut at h
    by_cases hc : c = mark
    · rw [if_pos hc] at h
      cases h
      exact ⟨by rw [hc, List.nil_append], List.not_mem_nil⟩
    · rw [if_neg hc] at h
      obtain ⟨⟨before', after'⟩, hcut, hpair⟩ := Option.map_eq_some_iff.1 h
      cases hpair
      obtain ⟨rfl, hmark⟩ := ih hcut
      refine ⟨rfl, ?_⟩
      rw [List.mem_cons, not_or]
      exact ⟨Ne.symm hc, hmark⟩

theorem not_mem_of_cut_eq_none {mark : Char} {cs : List Char} (h : cut mark cs = none) :
    mark ∉ cs := by
  intro hmark
  obtain ⟨before, after, rfl, hbefore⟩ := List.eq_append_cons_of_mem hmark
  rw [cut_append hbefore] at h
  cases h

theorem bne_of_not_mem {mark : Char} {w : List Char} (h : mark ∉ w) :
    ∀ c ∈ w, (c != mark) = true := by
  intro c hc
  refine bne_iff_ne.2 ?_
  rintro rfl
  exact h hc

theorem before_append_cons {mark : Char} {w : List Char} (h : mark ∉ w) (cs : List Char) :
    before mark (w ++ mark :: cs) = w := by
  rw [before, List.takeWhile_append_of_pos (bne_of_not_mem h),
    List.takeWhile_cons_of_neg (by simp), List.append_nil]

theorem before_of_not_mem {mark : Char} {w : List Char} (h : mark ∉ w) : before mark w = w := by
  rw [before, List.takeWhile_eq_self_iff]
  exact bne_of_not_mem h

/-! ## Cutting at the last mark -/

theorem afterLast_append_cons (mark : Char) (bs cs : List Char) :
    afterLast mark (bs ++ mark :: cs) = afterLast mark cs := by
  have hreverse : (bs ++ mark :: cs).reverse = cs.reverse ++ mark :: bs.reverse := by simp
  rw [afterLast, hreverse, List.takeWhile_append]
  split
  · next hall =>
    rw [List.takeWhile_cons_of_neg (by simp), List.append_nil, afterLast,
      (List.takeWhile_prefix _).eq_of_length hall]
  · rfl

theorem afterLast_eq_self_iff {mark : Char} {cs : List Char} :
    afterLast mark cs = cs ↔ mark ∉ cs := by
  rw [afterLast, List.reverse_eq_iff, List.takeWhile_eq_self_iff]
  constructor
  · intro h hmark
    simpa using h mark (List.mem_reverse.2 hmark)
  · intro h c hc
    have hne : c ≠ mark := by
      rintro rfl
      exact h (List.mem_reverse.1 hc)
    simpa using hne

theorem not_mem_afterLast (mark : Char) (cs : List Char) : mark ∉ afterLast mark cs := by
  intro h
  simpa using List.mem_takeWhile_imp (List.mem_reverse.1 h)

/-- What stands before the last mark ends in it; without a mark there is nothing. -/
theorem throughLast_cases (mark : Char) (cs : List Char) :
    throughLast mark cs = [] ∨ (throughLast mark cs).getLast? = some mark := by
  rw [throughLast, List.getLast?_reverse]
  cases hrest : cs.reverse.dropWhile (· != mark) with
  | nil => exact .inl rfl
  | cons c rest =>
    have hc := List.head_dropWhile_not (· != mark) (l := cs.reverse) (by rw [hrest]; simp)
    simp only [hrest, List.head_cons, bne_eq_false_iff_eq] at hc
    exact .inr (congrArg some hc)

/-! ## Cutting at a word -/

section Word

variable {word : List Char} {mark : Char}

/-- A word without the mark does not reach over a mark. -/
theorem isPrefix_of_append_cons (hmark : mark ∉ word) {a b : List Char}
    (h : word <+: a ++ mark :: b) : word <+: a := by
  by_cases hlength : word.length ≤ a.length
  · exact List.prefix_of_prefix_length_le h (List.prefix_append a _) hlength
  · have hover : a ++ [mark] <+: word := by
      refine List.prefix_of_prefix_length_le ⟨b, by simp⟩ h ?_
      rw [List.length_append, List.length_singleton]
      omega
    exact absurd (hover.subset (by simp)) hmark

theorem cutWord_self (hne : word ≠ []) (rest : List Char) :
    cutWord word (word ++ rest) = some ([], rest) := by
  obtain ⟨c, cs, rfl⟩ := List.exists_cons_of_ne_nil hne
  have hprefix : (c :: cs).isPrefixOf (c :: (cs ++ rest)) = true :=
    List.isPrefixOf_iff_prefix.2 (List.prefix_append (c :: cs) rest)
  rw [List.cons_append, cutWord, if_pos hprefix, ← List.cons_append, List.drop_left]

/-- Behind a stretch without the word the search goes on, if the stretch ends in a mark that is no
part of the word. -/
theorem cutWord_append_cons (hmark : mark ∉ word) {a : List Char} (ha : ¬ word <:+: a)
    (b : List Char) :
    cutWord word (a ++ mark :: b) =
      (cutWord word b).map fun (before, after) => (a ++ mark :: before, after) := by
  induction a with
  | nil =>
    have hno : ¬ word.isPrefixOf (mark :: b) = true := by
      rw [List.isPrefixOf_iff_prefix]
      exact fun h => ha (isPrefix_of_append_cons (a := []) hmark h).isInfix
    rw [List.nil_append, cutWord, if_neg hno]
    rfl
  | cons c a ih =>
    rw [List.infix_cons_iff, not_or] at ha
    have hno : ¬ word.isPrefixOf (c :: (a ++ mark :: b)) = true := by
      rw [List.isPrefixOf_iff_prefix]
      exact fun h => ha.1 (isPrefix_of_append_cons (a := c :: a) hmark h)
    rw [List.cons_append, cutWord, if_neg hno, ih ha.2, Option.map_map]
    rfl

end Word

/-! ## Splitting at separators -/

section Split

variable {stop : Char → Bool}

theorem splitOn_of_no_stop {w : List Char} (h : ∀ c ∈ w, stop c = false) :
    splitOn stop w = [w] := by
  induction w with
  | nil => rfl
  | cons c cs ih =>
    have hc : ¬ stop c = true := by
      rw [h c List.mem_cons_self]
      decide
    rw [splitOn, ih fun d hd => h d (List.mem_cons_of_mem _ hd)]
    exact if_neg hc

/-- A text is split before and after each of its separators. -/
theorem splitOn_append_cons (bs : List Char) {sep : Char} (hsep : stop sep = true)
    (cs : List Char) :
    splitOn stop (bs ++ sep :: cs) = splitOn stop bs ++ splitOn stop cs := by
  induction bs with
  | nil =>
    obtain ⟨v, vs, hvs⟩ := List.exists_cons_of_ne_nil (splitOn_ne_nil stop cs)
    simp [splitOn, hvs, hsep]
  | cons b bs ih =>
    obtain ⟨v, vs, hvs⟩ := List.exists_cons_of_ne_nil (splitOn_ne_nil stop bs)
    rw [List.cons_append, splitOn, ih, splitOn, hvs]
    by_cases hb : stop b = true
    · simp [hb]
    · simp [hb]

theorem splitOn_append {w : List Char} (h : ∀ c ∈ w, stop c = false) {sep : Char}
    (hsep : stop sep = true) (cs : List Char) :
    splitOn stop (w ++ sep :: cs) = w :: splitOn stop cs := by
  rw [splitOn_append_cons w hsep, splitOn_of_no_stop h, List.singleton_append]

/-- A text is split at the first of its marks. -/
theorem splitOn_mark {mark : Char} {w : List Char} (h : mark ∉ w) (cs : List Char) :
    splitOn (· == mark) (w ++ mark :: cs) = w :: splitOn (· == mark) cs := by
  refine splitOn_append (fun c hc => beq_eq_false_iff_ne.2 ?_) ?_ cs
  · rintro rfl
    exact h hc
  · exact beq_self_eq_true mark

theorem splitOn_no_mark {mark : Char} {w : List Char} (h : mark ∉ w) :
    splitOn (· == mark) w = [w] := by
  refine splitOn_of_no_stop fun c hc => beq_eq_false_iff_ne.2 ?_
  rintro rfl
  exact h hc

theorem items_append_cons (bs : List Char) {sep : Char} (hsep : stop sep = true)
    (cs : List Char) : items stop (bs ++ sep :: cs) = items stop bs ++ items stop cs := by
  rw [items, splitOn_append_cons bs hsep, List.map_append, List.filter_append]
  rfl

theorem exists_splitOn_prepend {front : List Char} (h : ∀ c ∈ front, stop c = false)
    (cs : List Char) :
    ∃ v vs, splitOn stop cs = v :: vs ∧ splitOn stop (front ++ cs) = (front ++ v) :: vs := by
  obtain ⟨v, vs, hvs⟩ := List.exists_cons_of_ne_nil (splitOn_ne_nil stop cs)
  refine ⟨v, vs, hvs, ?_⟩
  induction front with
  | nil => exact hvs
  | cons c front ih =>
    have hc : ¬ stop c = true := by
      rw [h c List.mem_cons_self]
      decide
    rw [List.cons_append, splitOn, ih fun d hd => h d (List.mem_cons_of_mem _ hd)]
    exact if_neg hc

theorem exists_splitOn_append {back : List Char} (h : ∀ c ∈ back, stop c = false)
    (cs : List Char) :
    ∃ vs v, splitOn stop cs = vs ++ [v] ∧ splitOn stop (cs ++ back) = vs ++ [v ++ back] := by
  induction cs with
  | nil => exact ⟨[], [], rfl, splitOn_of_no_stop h⟩
  | cons c cs ih =>
    obtain ⟨vs, v, hcs, hback⟩ := ih
    cases vs with
    | nil =>
      by_cases hc : stop c = true
      · exact ⟨[[]], v, by simp [splitOn, hcs, hc], by simp [splitOn, hback, hc]⟩
      · exact ⟨[], c :: v, by simp [splitOn, hcs, hc], by simp [splitOn, hback, hc]⟩
    | cons w ws =>
      by_cases hc : stop c = true
      · exact ⟨[] :: w :: ws, v, by simp [splitOn, hcs, hc], by simp [splitOn, hback, hc]⟩
      · exact ⟨(c :: w) :: ws, v, by simp [splitOn, hcs, hc], by simp [splitOn, hback, hc]⟩

theorem items_blank_append (hstop : ∀ c, isBlank c = true → stop c = false) {front : List Char}
    (h : ∀ c ∈ front, isBlank c = true) (cs : List Char) :
    items stop (front ++ cs) = items stop cs := by
  obtain ⟨v, vs, hcs, hfront⟩ := exists_splitOn_prepend (fun c hc => hstop c (h c hc)) cs
  rw [items, items, hcs, hfront, List.map_cons, List.map_cons, trim_blank_append h]

theorem items_append_blank (hstop : ∀ c, isBlank c = true → stop c = false) {back : List Char}
    (h : ∀ c ∈ back, isBlank c = true) (cs : List Char) :
    items stop (cs ++ back) = items stop cs := by
  obtain ⟨vs, v, hcs, hback⟩ := exists_splitOn_append (fun c hc => hstop c (h c hc)) cs
  rw [items, items, hcs, hback]
  simp only [List.map_append, List.map_cons, trim_append_blank h]

/-- The blanks around a text are no part of its entries. -/
theorem items_trim (hstop : ∀ c, isBlank c = true → stop c = false) (cs : List Char) :
    items stop (trim cs) = items stop cs := by
  obtain ⟨front, back, hcs, hfront, hback⟩ := exists_blanks_around cs
  conv_rhs => rw [hcs, items_blank_append hstop hfront, items_append_blank hstop hback]

theorem eq_of_splitOn {cs w : List Char} (h : splitOn stop cs = [w]) : w = cs := by
  induction cs generalizing w with
  | nil => exact (List.cons.inj h).1.symm
  | cons c cs ih =>
    obtain ⟨v, vs, hvs⟩ := List.exists_cons_of_ne_nil (splitOn_ne_nil stop cs)
    rw [splitOn, hvs] at h
    dsimp only at h
    split at h
    · cases (List.cons.inj h).2
    · obtain ⟨rfl, rfl⟩ := List.cons.inj h
      rw [ih hvs]

/-- The stretches hold characters of the text, and no separator. -/
theorem mem_splitOn {cs w : List Char} (h : w ∈ splitOn stop cs) :
    ∀ c ∈ w, c ∈ cs ∧ stop c = false := by
  induction cs generalizing w with
  | nil =>
    intro c hc
    rw [List.mem_singleton.1 h] at hc
    cases hc
  | cons c cs ih =>
    obtain ⟨v, vs, hvs⟩ := List.exists_cons_of_ne_nil (splitOn_ne_nil stop cs)
    have hlater : ∀ u ∈ v :: vs, ∀ d ∈ u, d ∈ c :: cs ∧ stop d = false := by
      intro u hu d hd
      obtain ⟨hmem, hstop⟩ := ih (hvs ▸ hu) d hd
      exact ⟨List.mem_cons_of_mem _ hmem, hstop⟩
    rw [splitOn, hvs] at h
    dsimp only at h
    by_cases hc : stop c = true
    · rw [if_pos hc] at h
      rcases List.mem_cons.1 h with rfl | h
      · intro d hd
        cases hd
      · exact hlater w h
    · rw [if_neg hc] at h
      rcases List.mem_cons.1 h with rfl | h
      · intro d hd
        rcases List.mem_cons.1 hd with rfl | hd
        · exact ⟨List.mem_cons_self, Bool.eq_false_iff.2 hc⟩
        · exact hlater v List.mem_cons_self d hd
      · exact hlater w (List.mem_cons_of_mem _ h)

/-- The parts of an entry of a separated list: they are trimmed and hold no separator. -/
structure IsPart (stop : Char → Bool) (w : List Char) : Prop where
  trimmed : trim w = w
  no_stop : ∀ c ∈ w, stop c = false

/-- The entries of a separated list are not empty. -/
structure IsItem (stop : Char → Bool) (w : List Char) : Prop extends IsPart stop w where
  ne_nil : w ≠ []

theorem isPart_trim {w : List Char} (h : ∀ c ∈ w, stop c = false) : IsPart stop (trim w) :=
  ⟨trim_trim w, fun c hc => h c (mem_of_mem_trim hc)⟩

theorem isItem_of_no_blank {w : List Char} (hne : w ≠ [])
    (h : ∀ c ∈ w, isBlank c = false ∧ stop c = false) : IsItem stop w :=
  ⟨⟨trim_of_no_blank fun c hc => (h c hc).1, fun c hc => (h c hc).2⟩, hne⟩

theorem IsItem.mono {stop' : Char → Bool} (h : ∀ c, stop' c = true → stop c = true)
    {w : List Char} (hw : IsItem stop w) : IsItem stop' w := by
  refine ⟨⟨hw.trimmed, fun c hc => ?_⟩, hw.ne_nil⟩
  have hstop : stop c ≠ true := by
    rw [hw.no_stop c hc]
    decide
  exact Bool.eq_false_iff.2 fun hc' => hstop (h c hc')

/-- Two parts with a mark between them are an entry. -/
theorem IsPart.join {a b : List Char} (ha : IsPart stop a) (hb : IsPart stop b) {mark : Char}
    (hblank : isBlank mark = false) (hmark : stop mark = false) :
    IsItem stop (a ++ mark :: b) := by
  refine ⟨⟨trim_eq_self ?_ ?_, ?_⟩, by simp⟩
  · intro c hc
    cases a with
    | nil =>
      cases hc
      exact hblank
    | cons d ds => exact not_isBlank_head_trim (d :: ds) c (by rw [ha.trimmed]; exact hc)
  · intro c hc
    cases b with
    | nil =>
      rw [List.getLast?_concat] at hc
      cases hc
      exact hblank
    | cons d ds =>
      rw [List.getLast?_append_of_ne_nil _ (List.cons_ne_nil _ _), List.getLast?_cons_cons] at hc
      exact not_isBlank_getLast_trim (d :: ds) c (by rw [hb.trimmed]; exact hc)
  · intro c hc
    rcases List.mem_append.1 hc with hc | hc
    · exact ha.no_stop c hc
    · rcases List.mem_cons.1 hc with rfl | hc
      · exact hmark
      · exact hb.no_stop c hc

theorem isItem_of_mem_items {cs w : List Char} (h : w ∈ items stop cs) : IsItem stop w := by
  obtain ⟨hmem, hne⟩ := List.mem_filter.1 h
  obtain ⟨v, hv, rfl⟩ := List.mem_map.1 hmem
  exact ⟨isPart_trim fun c hc => (mem_splitOn hv c hc).2, by simpa using hne⟩

theorem mem_of_mem_items {cs w : List Char} (h : w ∈ items stop cs) {c : Char} (hc : c ∈ w) :
    c ∈ cs := by
  obtain ⟨v, hv, rfl⟩ := List.mem_map.1 (List.mem_filter.1 h).1
  exact (mem_splitOn hv c (mem_of_mem_trim hc)).1

theorem not_mem_intercalate {sep c : Char} (hc : c ≠ sep) {ws : List (List Char)}
    (h : ∀ w ∈ ws, c ∉ w) : c ∉ [sep].intercalate ws := by
  induction ws with
  | nil => exact List.not_mem_nil
  | cons w ws ih =>
    have hw := h w List.mem_cons_self
    cases ws with
    | nil => rwa [List.intercalate_singleton]
    | cons v vs =>
      have hrest := ih fun u hu => h u (List.mem_cons_of_mem _ hu)
      rw [List.intercalate_cons_cons, List.mem_append, List.mem_append, List.mem_singleton]
      rintro ((hmem | hmem) | hmem)
      · exact hw hmem
      · exact hc hmem
      · exact hrest hmem

/-- Joined words are split into the words. -/
theorem items_intercalate {sep : Char} (hsep : stop sep = true) {ws : List (List Char)}
    (h : ∀ w ∈ ws, IsItem stop w) : items stop ([sep].intercalate ws) = ws := by
  induction ws with
  | nil => rfl
  | cons w ws ih =>
    obtain ⟨⟨htrim, hstop⟩, hne⟩ := h w List.mem_cons_self
    have hkeep : (!w.isEmpty) = true := by simpa using hne
    cases ws with
    | nil =>
      rw [List.intercalate_singleton, items, splitOn_of_no_stop hstop, List.map_singleton, htrim,
        List.filter_singleton, hkeep, cond_true]
    | cons v vs =>
      have hrest := ih fun u hu => h u (List.mem_cons_of_mem _ hu)
      rw [List.intercalate_cons_cons, List.append_assoc, List.singleton_append, items,
        splitOn_append hstop hsep, List.map_cons, htrim, List.filter_cons, if_pos hkeep]
      exact congrArg (w :: ·) hrest

end Split

end SkyDiscovery.Text
