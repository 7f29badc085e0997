import SkyDiscovery.Proofs.Number.Numeral
import SkyDiscovery.Proofs.Sql.Expression
import SkyDiscovery.Proofs.Sql.Token

/-!
# Parsing conditions

A condition is read token by token.  The reader holds a level for each parenthesis that is open: the
disjunction of the alternatives before, the conjunction of the factors before in the current
alternative, and the factor it is in.  A conjunction sign ends a factor, unless the factor is a
range test that still awaits its upper bound; a disjunction sign ends an alternative.  So the
conjunction binds tighter, and `x BETWEEN a AND b` is one test.

`Reads cs es` says that a text, read where a factor can begin, adds the expressions `es` to the
current alternative.

* `Reads.and`: texts joined by the conjunction sign add what they add each.
* `Alternatives.or`, `Alternatives.group`: a disjunction in parentheses adds one expression.
* `Reads.readCondition_eq`: read by itself, a text gives the conjunction of what it adds.
-/

namespace SkyDiscovery.Sql

/-! ## Tests -/

/-- The operand of a word: a number if it begins with a digit, or else a column. -/
def operandOfWord? : List Char → Option Operand
  | [] => none
  | c :: w =>
    if c.isDigit then (Decimal.read (c :: w)).map fun d => .number d.value
    else some (.column (c :: w))

/-- Reads an operand at the start of some tokens. -/
def operand? : List Token → Option (Operand × List Token)
  | .operator ['-'] :: .word w :: rest => (operandOfWord? w).map fun x => (.negative x, rest)
  | .word w :: rest => (operandOfWord? w).map fun x => (x, rest)
  | .literal s :: rest => some (.text s, rest)
  | _ => none

/-- Reads an operand that takes up all tokens. -/
def lastOperand? (ts : List Token) : Option Operand :=
  match operand? ts with
  | some (x, []) => some x
  | _ => none

def relation? (w : List Char) : Option Relation :=
  [("=", Relation.equal), ("<=", .atMost), (">=", .atLeast)].lookup (String.ofList w)

/-- Reads what follows the first operand of a test. -/
def testOf? (x : Operand) : List Token → Option Test
  | [.keyword .is, .keyword .null] => some (.isNull x)
  | [.keyword .is, .keyword .not, .keyword .null] => some (.isNotNull x)
  | .keyword .like :: ts => (lastOperand? ts).map (.like x)
  | .keyword .between :: ts =>
    match operand? ts with
    | some (low, .keyword .and :: ts) => (lastOperand? ts).map (.between x low)
    | _ => none
  | .operator w :: ts => do return .compare (← relation? w) x (← lastOperand? ts)
  | _ => none

def test? (ts : List Token) : Option Test :=
  (operand? ts).bind fun (x, rest) => testOf? x rest

/-! ## Conditions -/

/-- The factor that is being read. -/
inductive Current where
  /-- The tokens of a test up to here, and whether a range test awaits its upper bound. -/
  | test (ts : List Token) (awaits : Bool)
  /-- A condition in parentheses. -/
  | group (e : Expr)

namespace Current

def empty : Current := test [] false

/-- The next conjunction sign belongs to a range test. -/
def awaits : Current → Bool
  | test _ b => b
  | group _ => false

def expr? : Current → Option Expr
  | test ts _ => (test? ts).map .test
  | group e => some e

end Current

structure Level where
  /-- The alternatives before. -/
  alternatives : Option Expr
  /-- The factors before in this alternative. -/
  factors : Option Expr
  current : Current

namespace Level

def start : Level := ⟨none, none, .empty⟩

/-- Joins a factor to those before. -/
def addFactor (l : Level) (e : Expr) : Level :=
  ⟨l.alternatives, Expr.join .and l.factors e, .empty⟩

/-- Joins an alternative to those before. -/
def addAlternative (l : Level) (e : Expr) : Level :=
  ⟨Expr.join .or l.alternatives e, none, .empty⟩

def endFactor (l : Level) : Option Level :=
  l.current.expr?.map l.addFactor

def endAlternative (l : Level) : Option Level :=
  l.endFactor.bind fun m => m.factors.map m.addAlternative

/-- The condition of the level. -/
def close (l : Level) : Option Expr :=
  l.endAlternative.bind Level.alternatives

end Level

/-- The level that is being read and those around it, the nearest first. -/
structure Reader where
  level : Level
  outer : List Level

namespace Reader

def start : Reader := ⟨.start, []⟩

/-- A token that belongs to a test. -/
def take (r : Reader) (t : Token) : Option Reader :=
  match r.level.current with
  | .test ts awaits =>
    some { r with level := { r.level with
      current := .test (ts ++ [t]) (awaits || t == .keyword .between) } }
  | .group _ => none

def step (r : Reader) : Token → Option Reader
  | .opening =>
    match r.level.current with
    | .test [] _ => some ⟨.start, r.level :: r.outer⟩
    | _ => none
  | .closing =>
    match r.outer with
    | [] => none
    | l :: outer => r.level.close.map fun e => ⟨{ l with current := .group e }, outer⟩
  | .keyword .or => r.level.endAlternative.map fun l => { r with level := l }
  | .keyword .and =>
    match r.level.current with
    | .test ts true =>
      some { r with level := { r.level with current := .test (ts ++ [.keyword .and]) false } }
    | _ => r.level.endFactor.map fun l => { r with level := l }
  | t => r.take t

/-- Takes tokens one after the other. -/
def run (r : Reader) (ts : List Token) : Option Reader :=
  ts.foldlM step r

/-- The condition that was read, once all parentheses are closed. -/
def finish (r : Reader) : Option Expr :=
  if r.outer.isEmpty then r.level.close else none

end Reader

/-- The condition that tokens write. -/
def condition? (ts : List Token) : Option Expr :=
  (Reader.start.run ts).bind Reader.finish

/-- Reads the text of a condition. -/
def readCondition (s : String) : Option Expr :=
  (tokens s.toList).bind condition?

/-! ## Queries -/

/-- A query for all columns of a table. -/
structure Select where
  table : List Char
  condition : Option Expr

def select? : List Token → Option Select
  | .keyword .select :: .operator ['*'] :: .keyword .from :: .word table :: rest =>
    match rest with
    | [] => some ⟨table, none⟩
    | .keyword .where :: ts => (condition? ts).map fun e => ⟨table, some e⟩
    | _ => none
  | _ => none

/-- Reads the text of a query. -/
def readSelect (s : String) : Option Select :=
  (tokens s.toList).bind select?

/-! ## Operands and tests as texts -/

/-- A token that a test takes up wherever it stands. -/
def Ordinary (t : Token) : Prop :=
  t ∉ [Token.opening, .closing, .keyword .and, .keyword .or, .keyword .between]

instance : DecidablePred Ordinary :=
  fun t => inferInstanceAs
    (Decidable (t ∉ [Token.opening, .closing, .keyword .and, .keyword .or, .keyword .between]))

/-- The text is an operand, whatever follows. -/
def Operates (cs : List Char) (x : Operand) : Prop :=
  ∃ ts, Spells cs ts ∧ (∀ t ∈ ts, Ordinary t) ∧
    ∀ rest, operand? (ts ++ rest) = some (x, rest)

/-- Read where a factor can begin, the text adds factors to the current alternative. -/
def Reads (cs : List Char) (es : List Expr) : Prop :=
  ∃ ts, Spells cs ts ∧ ∀ r : Reader, r.level.current = .empty →
    ∃ l : Level, r.run ts = some { r with level := l } ∧ l.current.awaits = false ∧
      l.endFactor = some (es.foldl Level.addFactor r.level)

/-- Read where an alternative can begin, the text adds alternatives to the level. -/
def Alternatives (cs : List Char) (es : List Expr) : Prop :=
  ∃ ts, Spells cs ts ∧ ∀ r : Reader, r.level.current = .empty → r.level.factors = none →
    ∃ l : Level, r.run ts = some { r with level := l } ∧
      l.endAlternative = some (es.foldl Level.addAlternative r.level)

namespace Reader

theorem run_append (r : Reader) (ts us : List Token) :
    r.run (ts ++ us) = (r.run ts).bind fun s => s.run us :=
  List.foldlM_append

theorem run_cons (r : Reader) (t : Token) (ts : List Token) :
    r.run (t :: ts) = (r.step t).bind fun s => s.run ts :=
  List.foldlM_cons

theorem step_of_ordinary {t : Token} (h : Ordinary t) (r : Reader) : r.step t = r.take t := by
  simp only [Ordinary, List.mem_cons, List.not_mem_nil, or_false, not_or] at h
  obtain ⟨hopening, hclosing, hand, hor, -⟩ := h
  unfold step
  split
  · exact absurd rfl hopening
  · exact absurd rfl hclosing
  · exact absurd rfl hor
  · exact absurd rfl hand
  · rfl

theorem run_ordinary {ts : List Token} (h : ∀ t ∈ ts, Ordinary t) (l : Level)
    (outer : List Level) (us : List Token) (awaits : Bool) :
    run ⟨{ l with current := .test us awaits }, outer⟩ ts =
      some ⟨{ l with current := .test (us ++ ts) awaits }, outer⟩ := by
  induction ts generalizing us with
  | nil => rw [List.append_nil]; rfl
  | cons t ts ih =>
    have ht := h t List.mem_cons_self
    have hbetween : (t == .keyword .between) = false := by
      simp only [Ordinary, List.mem_cons, not_or] at ht
      exact beq_eq_false_iff_ne.2 ht.2.2.2.2.1
    rw [run_cons, step_of_ordinary ht, take]
    simp only [hbetween, Bool.or_false, Option.bind_some]
    rw [ih (fun u hu => h u (List.mem_cons_of_mem _ hu)) (us ++ [t])]
    simp

theorem step_between (r : Reader) :
    r.step (.keyword .between) = r.take (.keyword .between) := rfl

theorem step_and {r : Reader} (h : r.level.current.awaits = false) :
    r.step (.keyword .and) = r.level.endFactor.map fun l => { r with level := l } := by
  rw [step]
  split
  · next heq => simp [heq, Current.awaits] at h
  · rfl

end Reader

namespace Level

theorem alternatives_addFactors (es : List Expr) (l : Level) :
    (es.foldl addFactor l).alternatives = l.alternatives := by
  induction es generalizing l with
  | nil => rfl
  | cons e es ih => exact ih (l.addFactor e)

theorem factors_addFactors (es : List Expr) (l : Level) :
    (es.foldl addFactor l).factors = es.foldl (Expr.join .and) l.factors := by
  induction es generalizing l with
  | nil => rfl
  | cons e es ih => exact ih (l.addFactor e)

theorem alternatives_addAlternatives (es : List Expr) (l : Level) :
    (es.foldl addAlternative l).alternatives = es.foldl (Expr.join .or) l.alternatives := by
  induction es generalizing l with
  | nil => rfl
  | cons e es ih => exact ih (l.addAlternative e)

/-- After factors or alternatives a factor can begin. -/
theorem current_addFactors {es : List Expr} {l : Level} (h : l.current = .empty) :
    (es.foldl addFactor l).current = .empty := by
  induction es generalizing l with
  | nil => exact h
  | cons e es ih => exact ih rfl

theorem current_addAlternatives {es : List Expr} {l : Level} (h : l.current = .empty) :
    (es.foldl addAlternative l).current = .empty := by
  induction es generalizing l with
  | nil => exact h
  | cons e es ih => exact ih rfl

theorem factors_addAlternatives {es : List Expr} {l : Level} (h : l.factors = none) :
    (es.foldl addAlternative l).factors = none := by
  induction es generalizing l with
  | nil => exact h
  | cons e es ih => exact ih rfl

end Level

theorem spells_and : Spells "AND".toList [.keyword .and] :=
  spells_wordChars (by decide) (by decide)

theorem spells_or : Spells "OR".toList [.keyword .or] :=
  spells_wordChars (by decide) (by decide)

/-- Ordinary tokens that are a test add it. -/
theorem reads_of_ordinary {cs : List Char} {ts : List Token} {t : Test} (h : Spells cs ts)
    (hts : ∀ t ∈ ts, Ordinary t) (ht : test? ts = some t) : Reads cs [.test t] := by
  refine ⟨ts, h, fun r hr => ⟨{ r.level with current := .test ts false }, ?_, rfl, ?_⟩⟩
  · have := Reader.run_ordinary hts r.level r.outer [] false
    rw [List.nil_append] at this
    rw [← this, ← Current.empty, ← hr]
  · rw [Level.endFactor, Current.expr?, ht]
    rfl

/-- The conjunction sign after the first operand of a range test and its lower bound is part of the
test. -/
theorem reads_of_between {cs : List Char} {ts us : List Token} {t : Test}
    (h : Spells cs (ts ++ .keyword .between :: us)) (hts : ∀ t ∈ ts, Ordinary t)
    {xs ys : List Token} (hus : us = xs ++ .keyword .and :: ys) (hxs : ∀ t ∈ xs, Ordinary t)
    (hys : ∀ t ∈ ys, Ordinary t) (ht : test? (ts ++ .keyword .between :: us) = some t) :
    Reads cs [.test t] := by
  subst hus
  refine ⟨_, h, fun r hr =>
    ⟨{ r.level with current := .test (ts ++ .keyword .between :: (xs ++ .keyword .and :: ys)) false },
      ?_, rfl, ?_⟩⟩
  · have hstart := Reader.run_ordinary hts r.level r.outer [] false
    rw [List.nil_append, ← Current.empty, ← hr] at hstart
    rw [Reader.run_append, hstart, Option.bind_some, Reader.run_cons, Reader.step_between,
      Reader.take]
    simp only [Option.bind_some, beq_self_eq_true, Bool.or_true]
    rw [Reader.run_append, Reader.run_ordinary hxs, Option.bind_some, Reader.run_cons, Reader.step]
    simp only [Option.bind_some]
    rw [Reader.run_ordinary hys]
    simp
  · rw [Level.endFactor, Current.expr?, ht]
    rfl

/-! ## Putting texts together -/

theorem Reads.and {a b : List Char} {ds es : List Expr} (ha : Reads a ds) (hb : Reads b es) :
    Reads (a ++ " AND ".toList ++ b) (ds ++ es) := by
  obtain ⟨ts, hts, hrun⟩ := ha
  obtain ⟨us, hus, hrun'⟩ := hb
  refine ⟨ts ++ .keyword .and :: us, ?_, fun r hr => ?_⟩
  · simpa using hts.blank (spells_and.blank hus)
  · obtain ⟨l, hl, hawaits, hend⟩ := hrun r hr
    obtain ⟨m, hm, hawaits', hend'⟩ :=
      hrun' ⟨ds.foldl Level.addFactor r.level, r.outer⟩ (Level.current_addFactors hr)
    refine ⟨m, ?_, hawaits', ?_⟩
    · rw [Reader.run_append, hl, Option.bind_some, Reader.run_cons, Reader.step_and hawaits, hend,
        Option.map_some, Option.bind_some, hm]
    · rw [hend', List.foldl_append]

theorem Reads.alternative {cs : List Char} {es : List Expr} {e : Expr} (h : Reads cs es)
    (he : Expr.joinAll .and es = some e) : Alternatives cs [e] := by
  obtain ⟨ts, hts, hrun⟩ := h
  refine ⟨ts, hts, fun r hr hfactors => ?_⟩
  obtain ⟨l, hl, -, hend⟩ := hrun r hr
  refine ⟨l, hl, ?_⟩
  rw [Level.endAlternative, hend, Option.bind_some, Level.factors_addFactors, hfactors,
    ← Expr.joinAll, he, Option.map_some, Level.addAlternative, Level.alternatives_addFactors]
  rfl

theorem Alternatives.or {a b : List Char} {ds es : List Expr} (ha : Alternatives a ds)
    (hb : Alternatives b es) : Alternatives (a ++ " OR ".toList ++ b) (ds ++ es) := by
  obtain ⟨ts, hts, hrun⟩ := ha
  obtain ⟨us, hus, hrun'⟩ := hb
  refine ⟨ts ++ .keyword .or :: us, ?_, fun r hr hfactors => ?_⟩
  · simpa using hts.blank (spells_or.blank hus)
  · obtain ⟨l, hl, hend⟩ := hrun r hr hfactors
    obtain ⟨m, hm, hend'⟩ :=
      hrun' ⟨ds.foldl Level.addAlternative r.level, r.outer⟩ (Level.current_addAlternatives hr)
        (Level.factors_addAlternatives hfactors)
    refine ⟨m, ?_, ?_⟩
    · rw [Reader.run_append, hl, Option.bind_some, Reader.run_cons, Reader.step, hend,
        Option.map_some, Option.bind_some, hm]
    · rw [hend', List.foldl_append]

/-- Parentheses keep a disjunction together. -/
theorem Alternatives.group {cs : List Char} {es : List Expr} {e : Expr} (h : Alternatives cs es)
    (he : Expr.joinAll .or es = some e) : Reads ('(' :: cs ++ [')']) [e] := by
  obtain ⟨ts, hts, hrun⟩ := h
  refine ⟨.opening :: ts ++ [.closing], hts.group, fun r hr => ?_⟩
  obtain ⟨l, hl, hend⟩ := hrun ⟨.start, r.level :: r.outer⟩ rfl rfl
  refine ⟨{ r.level with current := .group e }, ?_, rfl, rfl⟩
  have hopen : r.step .opening = some ⟨.start, r.level :: r.outer⟩ := by
    rw [Reader.step, hr]
    rfl
  have hclose : l.close = some e := by
    rw [Level.close, hend, Option.bind_some, Level.alternatives_addAlternatives, ← he]
    rfl
  rw [List.cons_append, Reader.run_cons, hopen, Option.bind_some, Reader.run_append, hl,
    Option.bind_some, Reader.run_cons, Reader.step]
  simp only [hclose, Option.map_some, Option.bind_some]
  rfl

/-! ## Whole conditions -/

theorem Reads.condition?_eq {cs : List Char} {es : List Expr} {e : Expr} (h : Reads cs es)
    (he : Expr.joinAll .and es = some e) : ∃ ts, Spells cs ts ∧ condition? ts = some e := by
  obtain ⟨ts, hts, hrun⟩ := h.alternative he
  obtain ⟨l, hl, hend⟩ := hrun .start rfl rfl
  refine ⟨ts, hts, ?_⟩
  rw [condition?, hl, Option.bind_some, Reader.finish]
  simp only [Reader.start, List.isEmpty_nil, if_true, Level.close, hend, Option.bind_some]
  rfl

theorem Reads.readCondition_eq {s : String} {es : List Expr} {e : Expr} (h : Reads s.toList es)
    (he : Expr.joinAll .and es = some e) : readCondition s = some e := by
  obtain ⟨ts, hts, hcondition⟩ := h.condition?_eq he
  rw [readCondition, hts.tokens_eq, Option.bind_some, hcondition]

end SkyDiscovery.Sql
