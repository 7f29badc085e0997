import SkyDiscovery.Query.Condition

/-!
# Literals in a query text

A query text is taken apart by the rule for literals alone: a literal opens at a quote, a doubled
quote inside it is one quote character, and any other quote closes it.  `scan` gives the characters
outside literals one by one and each literal decoded; it fails for a text that ends inside a
literal.

Texts are scanned piece by piece.  `Scans cs symbols` says that `cs` leaves the scan outside a
literal after `symbols`, whatever text without a quote at its start follows.

* `scans_plain`: a text without quotes scans to its characters.
* `scans_literal`: a text put between quotes by `literal` scans to itself, whatever it holds.
* `Scans.append`, `Scans.plain_append`: texts are scanned one after the other.
-/

namespace SkyDiscovery.Sql

/-- A character outside literals, or a literal. -/
inductive Symbol where
  | char (c : Char)
  | literal (content : List Char)
  deriving DecidableEq, Repr

namespace Symbol

def literal? : Symbol → Option (List Char)
  | char _ => none
  | literal content => some content

/-- The symbol as it is seen from outside, where a literal is a gap. -/
def outside? : Symbol → Option Char
  | char c => some c
  | literal _ => none

end Symbol

/-- The decoded literals, in their order. -/
def literalsOf (symbols : List Symbol) : List (List Char) :=
  symbols.filterMap Symbol.literal?

/-- The text outside literals, with a gap for each literal. -/
def outsideOf (symbols : List Symbol) : List (Option Char) :=
  symbols.map Symbol.outside?

/-! ## Scanning -/

/-- Where a scan stands.  Within a literal it has its content up to there. -/
inductive Place where
  | outside
  | inside (content : List Char)
  /-- After a quote within a literal, which closes it unless another one follows. -/
  | atQuote (content : List Char)

def scanFrom : Place → List Char → Option (List Symbol)
  | .outside, [] => some []
  | .inside _, [] => none
  | .atQuote w, [] => some [.literal w]
  | .outside, c :: cs =>
    if c = '\x27' then scanFrom (.inside []) cs else (scanFrom .outside cs).map (.char c :: ·)
  | .inside w, c :: cs =>
    if c = '\x27' then scanFrom (.atQuote w) cs else scanFrom (.inside (w ++ [c])) cs
  | .atQuote w, c :: cs =>
    if c = '\x27' then scanFrom (.inside (w ++ ['\x27'])) cs
    else (scanFrom .outside cs).map fun symbols => .literal w :: .char c :: symbols

/-- The symbols of a text, unless it ends inside a literal. -/
def scan (cs : List Char) : Option (List Symbol) :=
  scanFrom .outside cs

theorem scan_cons_of_ne {c : Char} (h : c ≠ '\x27') (cs : List Char) :
    scan (c :: cs) = (scan cs).map (.char c :: ·) := by
  rw [scan, scanFrom, if_neg h, scan]

/-- A quote that no other quote follows closes its literal. -/
theorem scanFrom_atQuote (w : List Char) {rest : List Char} (h : rest.head? ≠ some '\x27') :
    scanFrom (.atQuote w) rest = (scan rest).map (.literal w :: ·) := by
  cases rest with
  | nil => rfl
  | cons c cs =>
    have hc : c ≠ '\x27' := by simpa using h
    rw [scanFrom, if_neg hc, scan_cons_of_ne hc, Option.map_map]
    rfl

/-- Inside a literal an escaped text adds the text itself to the content. -/
theorem scanFrom_inside_escape (w s rest : List Char) :
    scanFrom (.inside w)
        ((s.flatMap fun c => if c = '\x27' then ['\x27', '\x27'] else [c]) ++ rest) =
      scanFrom (.inside (w ++ s)) rest := by
  induction s generalizing w with
  | nil => simp
  | cons c s ih =>
    rw [List.flatMap_cons, List.append_assoc, List.append_cons w c s]
    by_cases hc : c = '\x27'
    · rw [if_pos hc, hc, ← ih]
      simp only [List.cons_append, List.nil_append, scanFrom, if_true]
    · rw [if_neg hc, ← ih]
      simp only [List.cons_append, List.nil_append, scanFrom, if_neg hc]

/-! ## Texts that are scanned as a whole -/

/-- Before any text without a quote at its start, `cs` scans to the given symbols. -/
def Scans (cs : List Char) (symbols : List Symbol) : Prop :=
  ∀ rest : List Char, rest.head? ≠ some '\x27' →
    scan (cs ++ rest) = (scan rest).map (symbols ++ ·)

theorem Scans.scan_eq {cs : List Char} {symbols : List Symbol} (h : Scans cs symbols) :
    scan cs = some symbols := by
  have := h [] (by simp)
  simpa [scan, scanFrom] using this

theorem Scans.plain_append {w cs : List Char} {symbols : List Symbol} (hw : '\x27' ∉ w)
    (h : Scans cs symbols) : Scans (w ++ cs) (w.map .char ++ symbols) := by
  intro rest hrest
  induction w with
  | nil => exact h rest hrest
  | cons c w ih =>
    rw [List.mem_cons, not_or] at hw
    rw [List.cons_append, List.cons_append, scan_cons_of_ne (Ne.symm hw.1), ih hw.2, Option.map_map]
    rfl

theorem scans_nil : Scans [] [] := by
  intro rest _
  simp

theorem scans_plain {w : List Char} (hw : '\x27' ∉ w) : Scans w (w.map .char) := by
  have := scans_nil.plain_append hw
  simpa using this

theorem scans_literal (s : String) : Scans (SkyDiscovery.literal s).toList [.literal s.toList] := by
  intro rest hrest
  have hopen : (SkyDiscovery.literal s).toList ++ rest =
      '\x27' :: ((s.toList.flatMap fun c => if c = '\x27' then ['\x27', '\x27'] else [c]) ++
        '\x27' :: rest) := by
    simp [SkyDiscovery.literal, escapeLiteral]
  rw [hopen, scan, scanFrom, if_pos rfl, scanFrom_inside_escape, List.nil_append, scanFrom,
    if_pos rfl, scanFrom_atQuote _ hrest]
  rfl

theorem Scans.append {cs ds : List Char} {xs ys : List Symbol} (hc : Scans cs xs)
    (hd : Scans ds ys) (hquote : ds.head? ≠ some '\x27') : Scans (cs ++ ds) (xs ++ ys) := by
  intro rest hrest
  have hhead : (ds ++ rest).head? ≠ some '\x27' := by
    cases ds with
    | nil => exact hrest
    | cons d ds => simpa using hquote
  rw [List.append_assoc, hc _ hhead, hd rest hrest, Option.map_map]
  simp [Function.comp_def]

end SkyDiscovery.Sql
