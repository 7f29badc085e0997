import SkyDiscovery.Proofs.Number.Numeral
import SkyDiscovery.Proofs.Query.Sound
import SkyDiscovery.Proofs.Sql.Scan

/-!
# Literals and outlines of conditions

A condition is written with the texts that it compares in literals.  Its outline is the condition
with every such text replaced by the empty one; outside literals the text of a condition is that of
its outline.

`Splits cs os ls` says that the text `cs` has the literals `ls` and is outside them what `os` is.

* `Factor.Sound.splits`: the text of a sound factor has the literals of its comparisons.
* `Factor.outline_containsAny`: a list of patterns leaves nothing but its length in the outline.
-/

namespace SkyDiscovery

open Sql

/-! ## Literals and outlines of conditions -/

namespace Comparison

/-- The texts of the literals. -/
def literals : Comparison → List String
  | equalsText _ s | like _ s => [s]
  | _ => []

/-- The comparison with an empty text in the place of its own. -/
def outline : Comparison → Comparison
  | equalsText column _ => equalsText column ""
  | like column _ => like column ""
  | c => c

end Comparison

mutual

def Factor.literals : Factor → List String
  | .test c => c.literals
  | .group cs => Factor.literalsOfAlternatives cs

def Conjunction.literals : List Factor → List String
  | [] => []
  | f :: fs => f.literals ++ Conjunction.literals fs

def Factor.literalsOfAlternatives : List (List Factor) → List String
  | [] => []
  | c :: cs => Conjunction.literals c ++ Factor.literalsOfAlternatives cs

end

mutual

def Factor.outline : Factor → Factor
  | .test c => .test c.outline
  | .group cs => .group (Factor.outlineOfAlternatives cs)

def Conjunction.outline : List Factor → List Factor
  | [] => []
  | f :: fs => f.outline :: Conjunction.outline fs

def Factor.outlineOfAlternatives : List (List Factor) → List (List Factor)
  | [] => []
  | c :: cs => Conjunction.outline c :: Factor.outlineOfAlternatives cs

end

theorem Conjunction.literals_append (c d : List Factor) :
    Conjunction.literals (c ++ d) = Conjunction.literals c ++ Conjunction.literals d := by
  induction c with
  | nil => rfl
  | cons f c ih =>
    rw [List.cons_append, Conjunction.literals, ih, Conjunction.literals, List.append_assoc]

theorem Conjunction.outline_append (c d : List Factor) :
    Conjunction.outline (c ++ d) = Conjunction.outline c ++ Conjunction.outline d := by
  induction c with
  | nil => rfl
  | cons f c ih => rw [List.cons_append, Conjunction.outline, ih, Conjunction.outline,
      List.cons_append]

/-! ## Texts with their literals and outlines -/

/-- The text has the literals `ls`, and outside them it is what the outline is. -/
def Splits (cs os : List Char) (ls : List String) : Prop :=
  ∃ xs ys, Scans cs xs ∧ Scans os ys ∧ literalsOf xs = ls.map String.toList ∧
    outsideOf xs = outsideOf ys

theorem literalsOf_append (xs ys : List Symbol) :
    literalsOf (xs ++ ys) = literalsOf xs ++ literalsOf ys :=
  List.filterMap_append

theorem outsideOf_append (xs ys : List Symbol) :
    outsideOf (xs ++ ys) = outsideOf xs ++ outsideOf ys :=
  List.map_append

theorem literalsOf_plain (w : List Char) : literalsOf (w.map .char) = [] := by
  rw [literalsOf, List.filterMap_eq_nil_iff]
  intro x hx
  obtain ⟨c, -, rfl⟩ := List.mem_map.1 hx
  rfl

theorem splits_plain {w : List Char} (hw : '\x27' ∉ w) : Splits w w [] :=
  ⟨_, _, scans_plain hw, scans_plain hw, literalsOf_plain w, rfl⟩

theorem splits_literal (s : String) :
    Splits (literal s).toList (literal "").toList [s] :=
  ⟨_, _, scans_literal s, scans_literal "", rfl, rfl⟩

section
variable {a a' b b' w : List Char} {ls ms : List String}

theorem Splits.plain_append (hw : '\x27' ∉ w) (h : Splits a a' ls) :
    Splits (w ++ a) (w ++ a') ls := by
  obtain ⟨xs, ys, hx, hy, hliterals, houtside⟩ := h
  refine ⟨_, _, hx.plain_append hw, hy.plain_append hw, ?_, ?_⟩
  · rw [literalsOf_append, literalsOf_plain, hliterals, List.nil_append]
  · rw [outsideOf_append, outsideOf_append, houtside]

/-- Two texts with a plain one between them. -/
theorem Splits.between (ha : Splits a a' ls) (hw : '\x27' ∉ w) (hne : w ≠ [])
    (hb : Splits b b' ms) : Splits (a ++ w ++ b) (a' ++ w ++ b') (ls ++ ms) := by
  obtain ⟨xs, ys, hx, hy, hliterals, houtside⟩ := ha
  obtain ⟨us, vs, hu, hv, hliterals', houtside'⟩ := hb.plain_append hw
  have hhead : ∀ d : List Char, (w ++ d).head? ≠ some '\x27' := by
    intro d hd
    obtain ⟨c, w, rfl⟩ := List.exists_cons_of_ne_nil hne
    rw [List.cons_append, List.head?_cons, Option.some.injEq] at hd
    exact hw (hd ▸ List.mem_cons_self)
  refine ⟨xs ++ us, ys ++ vs, ?_, ?_, ?_, ?_⟩
  · rw [List.append_assoc]
    exact hx.append hu (hhead b)
  · rw [List.append_assoc]
    exact hy.append hv (hhead b')
  · rw [literalsOf_append, hliterals, hliterals', List.map_append]
  · rw [outsideOf_append, outsideOf_append, houtside, houtside']

theorem Splits.group (h : Splits a a' ls) : Splits ('(' :: a ++ [')']) ('(' :: a' ++ [')']) ls := by
  have := (h.plain_append (w := ['(']) (by decide)).between (w := [')']) (by decide) (by simp)
    (splits_plain (w := []) (by simp))
  simpa using this

end

/-! ## Comparisons and factors -/

theorem quote_notMem_plainText (x : Float) : '\x27' ∉ (plainText x).toList := by
  rw [plainText, Binary64.text, String.toList_ofList]
  intro h
  rcases mem_write_plain h with h | h
  · exact absurd h (by decide)
  · exact absurd h (by decide)

theorem Comparison.splits {c : Comparison} (h : '\x27' ∉ c.column.toList) :
    Splits c.text.toList c.outline.text.toList c.literals := by
  cases c with
  | between column low high =>
    have hcolumn : '\x27' ∉ column.toList := h
    exact splits_plain (by simp [Comparison.text, hcolumn, quote_notMem_plainText])
  | atMost column x | atLeast column x | equalsNumber column x =>
    have hcolumn : '\x27' ∉ column.toList := h
    exact splits_plain (by simp [Comparison.text, hcolumn, quote_notMem_plainText])
  | isNull column | isNotNull column =>
    have hcolumn : '\x27' ∉ column.toList := h
    exact splits_plain (by simp [Comparison.text, hcolumn])
  | equalsText column s =>
    have hcolumn : '\x27' ∉ (column ++ " = ").toList := by
      rw [String.toList_append, List.mem_append, not_or]
      exact ⟨h, by decide⟩
    simpa only [Comparison.text, Comparison.outline, Comparison.literals, String.toList_append,
      List.append_assoc] using (splits_literal s).plain_append hcolumn
  | like column s =>
    have hcolumn : '\x27' ∉ (column ++ " LIKE ").toList := by
      rw [String.toList_append, List.mem_append, not_or]
      exact ⟨h, by decide⟩
    simpa only [Comparison.text, Comparison.outline, Comparison.literals, String.toList_append,
      List.append_assoc] using (splits_literal s).plain_append hcolumn

/-- No column name holds a quote. -/
abbrev Unquoted (name : String) : Prop :=
  '\x27' ∉ name.toList

theorem splits_restText {fs : List Factor}
    (h : ∀ f ∈ fs, Splits f.text.toList f.outline.text.toList f.literals) {a a' : List Char}
    {ls : List String} (ha : Splits a a' ls) :
    Splits (a ++ (Conjunction.restText fs).toList)
      (a' ++ (Conjunction.restText (Conjunction.outline fs)).toList)
      (ls ++ Conjunction.literals fs) := by
  induction fs generalizing a a' ls with
  | nil => simpa [Conjunction.restText, Conjunction.outline, Conjunction.literals] using ha
  | cons f fs ih =>
    have hand := ha.between (w := " AND ".toList) (by decide) (by decide) (h f List.mem_cons_self)
    have := ih (fun g hg => h g (List.mem_cons_of_mem _ hg)) hand
    simpa only [Conjunction.restText, Conjunction.outline, Conjunction.literals,
      String.toList_append, List.append_assoc] using this

theorem splits_conjunction {c : List Factor}
    (h : ∀ f ∈ c, Splits f.text.toList f.outline.text.toList f.literals) :
    Splits (Conjunction.text c).toList (Conjunction.text (Conjunction.outline c)).toList
      (Conjunction.literals c) := by
  cases c with
  | nil => exact splits_plain (by simp [Conjunction.text])
  | cons f fs =>
    have := splits_restText (fun g hg => h g (List.mem_cons_of_mem _ hg)) (h f List.mem_cons_self)
    simpa only [Conjunction.text, Conjunction.outline, Conjunction.literals,
      String.toList_append] using this

theorem splits_alternativesText {cs : List (List Factor)}
    (h : ∀ c ∈ cs, Splits (Conjunction.text c).toList
      (Conjunction.text (Conjunction.outline c)).toList (Conjunction.literals c))
    {a a' : List Char} {ls : List String} (ha : Splits a a' ls) :
    Splits (a ++ (Factor.alternativesText cs).toList)
      (a' ++ (Factor.alternativesText (Factor.outlineOfAlternatives cs)).toList)
      (ls ++ Factor.literalsOfAlternatives cs) := by
  induction cs generalizing a a' ls with
  | nil =>
    simpa [Factor.alternativesText, Factor.outlineOfAlternatives, Factor.literalsOfAlternatives]
      using ha
  | cons c cs ih =>
    have hor := ha.between (w := " OR ".toList) (by decide) (by decide) (h c List.mem_cons_self)
    have := ih (fun d hd => h d (List.mem_cons_of_mem _ hd)) hor
    simpa only [Factor.alternativesText, Factor.outlineOfAlternatives,
      Factor.literalsOfAlternatives, String.toList_append, List.append_assoc] using this

theorem Factor.Sound.splits {f : Factor} (h : f.Sound Unquoted) :
    Splits f.text.toList f.outline.text.toList f.literals := by
  induction h with
  | test hcolumn => exact Comparison.splits hcolumn
  | @group alternatives hne _ _ ih =>
    obtain ⟨c, cs, rfl⟩ := List.exists_cons_of_ne_nil hne
    have hall : ∀ d ∈ c :: cs, Splits (Conjunction.text d).toList
        (Conjunction.text (Conjunction.outline d)).toList (Conjunction.literals d) :=
      fun d hd => splits_conjunction (ih d hd)
    have := (splits_alternativesText (fun d hd => hall d (List.mem_cons_of_mem _ hd))
      (hall c List.mem_cons_self)).group
    simpa [Factor.text, Factor.outline, Factor.outlineOfAlternatives, Factor.literals,
      Factor.literalsOfAlternatives] using this

theorem Conjunction.Sound.splits {c : Conjunction} (h : Conjunction.Sound Unquoted c) :
    Splits (Conjunction.text c).toList (Conjunction.text (Conjunction.outline c)).toList
      (Conjunction.literals c) :=
  splits_conjunction fun f hf => (h.2 f hf).splits

theorem Factor.literals_containsAny (column : String) (texts : List String) :
    (Factor.containsAny column texts).literals = texts.map fun s => "%" ++ s ++ "%" := by
  rw [Factor.containsAny, Factor.literals]
  induction texts with
  | nil => rfl
  | cons s texts ih =>
    rw [List.map_cons, Factor.literalsOfAlternatives, ih]
    rfl

/-- Outside literals a list of patterns is known by its length. -/
theorem Factor.outline_containsAny (column : String) (texts : List String) :
    (Factor.containsAny column texts).outline =
      .group (List.replicate texts.length [Factor.only (.like column "")]) := by
  rw [Factor.containsAny, Factor.outline]
  congr 1
  induction texts with
  | nil => rfl
  | cons s texts ih =>
    rw [List.map_cons, Factor.outlineOfAlternatives, ih]
    rfl

end SkyDiscovery
