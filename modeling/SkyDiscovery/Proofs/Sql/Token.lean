import SkyDiscovery.Proofs.Sql.Scan
import SkyDiscovery.Proofs.Text.Character

/-!
# Tokens of a query text

The symbols of a text outside literals are grouped into words, operators and parentheses; blanks
only separate.  A word or operator goes on as long as it can, and a word that is a keyword in any
case becomes one.

`Spells cs ts` says that `cs` gives the tokens `ts` before any text that begins with a blank or a
closing parenthesis.  There is one rule for each way in which query texts are put together, so no
text has to be taken apart again.
-/

namespace SkyDiscovery.Sql

open Text

inductive Keyword where
  | select
  | from
  | where
  | and
  | or
  | between
  | like
  | is
  | not
  | null
  deriving DecidableEq, Repr

inductive Token where
  | keyword (k : Keyword)
  | word (w : List Char)
  | operator (w : List Char)
  | opening
  | closing
  | literal (content : List Char)
  deriving DecidableEq, Repr

/-! ## Characters -/

def isWordChar (c : Char) : Bool :=
  c.isAlphanum || c == '_' || c == '.'

/-- Whatever is neither blank nor a parenthesis nor part of a word is part of an operator. -/
def isOperatorChar (c : Char) : Bool :=
  !isBlank c && c != '(' && c != ')' && !isWordChar c

/-- Whether the symbols begin with a character of a kind. -/
def goesOn (kind : Char → Bool) : List Symbol → Bool
  | .char c :: _ => kind c
  | _ => false

/-! ## Lexing -/

def keywords : List (List Char × Keyword) :=
  [("select".toList, .select), ("from".toList, .from), ("where".toList, .where),
    ("and".toList, .and), ("or".toList, .or), ("between".toList, .between),
    ("like".toList, .like), ("is".toList, .is), ("not".toList, .not), ("null".toList, .null)]

/-- The keyword that a word is, in any case. -/
def keyword? (w : List Char) : Option Keyword :=
  keywords.lookup (w.map Char.toLower)

/-- A letter or underscore and then letters, digits and underscores, but no keyword. -/
def isIdentifier : List Char → Bool
  | [] => false
  | c :: w => (c.isAlpha || c == '_') && w.all (fun d => d.isAlphanum || d == '_') &&
      (keyword? (c :: w)).isNone

/-- The text is a plain identifier. -/
def Identifier (name : String) : Prop :=
  isIdentifier name.toList

instance : DecidablePred Identifier :=
  fun name => inferInstanceAs (Decidable (isIdentifier name.toList = true))

/-- Puts a character before the word that goes on with it, or makes it a word. -/
def joinWord (c : Char) (more : Bool) (ts : List Token) : List Token :=
  match more, ts with
  | true, .word w :: rest => .word (c :: w) :: rest
  | _, _ => .word [c] :: ts

/-- Puts a character before the operator that goes on with it, or makes it an operator. -/
def joinOperator (c : Char) (more : Bool) (ts : List Token) : List Token :=
  match more, ts with
  | true, .operator w :: rest => .operator (c :: w) :: rest
  | _, _ => .operator [c] :: ts

/-- The tokens of symbols, in which no word is a keyword yet. -/
def lex : List Symbol → List Token
  | [] => []
  | .literal s :: rest => .literal s :: lex rest
  | .char c :: rest =>
    if isBlank c then lex rest
    else if c = '(' then .opening :: lex rest
    else if c = ')' then .closing :: lex rest
    else if isWordChar c then joinWord c (goesOn isWordChar rest) (lex rest)
    else joinOperator c (goesOn isOperatorChar rest) (lex rest)

def Token.recognize : Token → Token
  | .word w =>
    match keyword? w with
    | some k => .keyword k
    | none => .word w
  | t => t

def lexed (symbols : List Symbol) : List Token :=
  (lex symbols).map Token.recognize

/-- The tokens of a text, unless it ends inside a literal. -/
def tokens (cs : List Char) : Option (List Token) :=
  (scan cs).map lexed

theorem not_isBlank_of_isWordChar {c : Char} (h : isWordChar c) : isBlank c = false := by
  simp only [isWordChar, Bool.or_eq_true, beq_iff_eq] at h
  rcases h with (h | rfl) | rfl
  · exact not_isBlank_of_isAlphanum h
  · decide
  · decide

theorem isWordChar_of_isDigit {c : Char} (h : c.isDigit) : isWordChar c := by
  simp [isWordChar, Char.isAlphanum, h]

theorem isAlpha_of_mem_keywords : ∀ k ∈ keywords, ∀ c ∈ k.1, c.isAlpha := by decide

/-- A word that begins with a digit is no keyword. -/
theorem keyword?_of_isDigit {d : Char} (h : d.isDigit) (w : List Char) :
    keyword? (d :: w) = none := by
  rw [keyword?, List.lookup_eq_none_iff]
  intro k hk
  rw [bne_iff_ne, List.map_cons, toLower_of_isDigit h]
  intro heq
  have hd := isAlpha_of_mem_keywords k hk d (heq ▸ List.mem_cons_self)
  rw [not_isDigit_of_isAlpha hd] at h
  exact absurd h (by decide)

theorem lex_blank (rest : List Symbol) : lex (.char ' ' :: rest) = lex rest := by
  rw [lex, if_pos (by decide)]

theorem lex_opening (rest : List Symbol) :
    lex (.char '(' :: rest) = .opening :: lex rest := by
  rw [lex, if_neg (by decide), if_pos rfl]

theorem lex_closing (rest : List Symbol) :
    lex (.char ')' :: rest) = .closing :: lex rest := by
  rw [lex, if_neg (by decide), if_neg (by decide), if_pos rfl]

theorem lex_wordChar {c : Char} (h : isWordChar c) (rest : List Symbol) :
    lex (.char c :: rest) = joinWord c (goesOn isWordChar rest) (lex rest) := by
  have hopening : c ≠ '(' := by rintro rfl; exact absurd h (by decide)
  have hclosing : c ≠ ')' := by rintro rfl; exact absurd h (by decide)
  rw [lex, if_neg (by simp [not_isBlank_of_isWordChar h]), if_neg hopening, if_neg hclosing,
    if_pos h]

theorem lex_operatorChar {c : Char} (h : isOperatorChar c) (rest : List Symbol) :
    lex (.char c :: rest) = joinOperator c (goesOn isOperatorChar rest) (lex rest) := by
  simp only [isOperatorChar, Bool.and_eq_true, Bool.not_eq_true', bne_iff_ne] at h
  obtain ⟨⟨⟨hblank, hopening⟩, hclosing⟩, hword⟩ := h
  rw [lex, if_neg (by simp [hblank]), if_neg hopening, if_neg hclosing, if_neg (by simp [hword])]

/-- A word ends where the text goes on with another kind of character. -/
theorem lex_word {w : List Char} (hne : w ≠ []) (hw : ∀ c ∈ w, isWordChar c)
    {rest : List Symbol} (hrest : goesOn isWordChar rest = false) :
    lex (w.map .char ++ rest) = .word w :: lex rest := by
  induction w with
  | nil => exact absurd rfl hne
  | cons c w ih =>
    rw [List.map_cons, List.cons_append, lex_wordChar (hw c List.mem_cons_self)]
    cases w with
    | nil => rw [List.map_nil, List.nil_append, hrest, joinWord]; simp
    | cons d w =>
      have hd : isWordChar d := hw d (by simp)
      rw [ih (by simp) fun x hx => hw x (List.mem_cons_of_mem _ hx)]
      simp [goesOn, hd, joinWord]

theorem lex_operator {w : List Char} (hne : w ≠ []) (hw : ∀ c ∈ w, isOperatorChar c)
    {rest : List Symbol} (hrest : goesOn isOperatorChar rest = false) :
    lex (w.map .char ++ rest) = .operator w :: lex rest := by
  induction w with
  | nil => exact absurd rfl hne
  | cons c w ih =>
    rw [List.map_cons, List.cons_append, lex_operatorChar (hw c List.mem_cons_self)]
    cases w with
    | nil => rw [List.map_nil, List.nil_append, hrest, joinOperator]; simp
    | cons d w =>
      have hd : isOperatorChar d := hw d (by simp)
      rw [ih (by simp) fun x hx => hw x (List.mem_cons_of_mem _ hx)]
      simp [goesOn, hd, joinOperator]

/-! ## Texts that are lexed as a whole -/

/-- The symbols go on with neither a word nor an operator. -/
def Boundary (rest : List Symbol) : Prop :=
  goesOn isWordChar rest = false ∧ goesOn isOperatorChar rest = false

/-- At a boundary the text has given the tokens `ts`. -/
def Spells (cs : List Char) (ts : List Token) : Prop :=
  ∃ symbols, Scans cs symbols ∧
    ∀ rest, Boundary rest → lexed (symbols ++ rest) = ts ++ lexed rest

theorem Spells.tokens_eq {cs : List Char} {ts : List Token} (h : Spells cs ts) :
    tokens cs = some ts := by
  obtain ⟨symbols, hscan, hlex⟩ := h
  have := hlex [] ⟨rfl, rfl⟩
  rw [List.append_nil, lexed, lexed, lex, List.map_nil, List.append_nil] at this
  rw [tokens, hscan.scan_eq, Option.map_some, lexed, this]

theorem quote_notMem {w : List Char} (hw : ∀ c ∈ w, isWordChar c) : '\x27' ∉ w := by
  intro hc
  exact absurd (hw _ hc) (by decide)

theorem spells_wordChars {w : List Char} (hne : w ≠ []) (hw : ∀ c ∈ w, isWordChar c) :
    Spells w [Token.recognize (.word w)] := by
  refine ⟨w.map .char, scans_plain (quote_notMem hw), fun rest hrest => ?_⟩
  rw [lexed, lex_word hne hw hrest.1]
  rfl

theorem spells_word {w : List Char} (hne : w ≠ []) (hw : ∀ c ∈ w, isWordChar c)
    (hkeyword : keyword? w = none) : Spells w [.word w] := by
  have := spells_wordChars hne hw
  rwa [Token.recognize, hkeyword] at this

theorem spells_operator {w : List Char} (hne : w ≠ []) (hw : ∀ c ∈ w, isOperatorChar c)
    (hquote : '\x27' ∉ w) : Spells w [.operator w] := by
  refine ⟨w.map .char, scans_plain hquote, fun rest hrest => ?_⟩
  rw [lexed, lex_operator hne hw hrest.2]
  rfl

/-- A minus sign is an operator of its own before a word. -/
theorem spells_negative {w : List Char} (hne : w ≠ []) (hw : ∀ c ∈ w, isWordChar c) :
    Spells ('-' :: w) [.operator ['-'], Token.recognize (.word w)] := by
  refine ⟨('-' :: w).map .char, scans_plain ?_, fun rest hrest => ?_⟩
  · rw [List.mem_cons, not_or]
    exact ⟨by decide, quote_notMem hw⟩
  · have hminus : goesOn isOperatorChar (w.map Symbol.char ++ rest) = false := by
      obtain ⟨c, w, rfl⟩ := List.exists_cons_of_ne_nil hne
      have hc := hw c List.mem_cons_self
      simp [goesOn, isOperatorChar, hc]
    have := lex_operator (w := ['-']) (by simp) (by decide) hminus
    rw [List.map_cons, List.map_nil, List.singleton_append] at this
    rw [lexed, List.map_cons, List.cons_append, this, lex_word hne hw hrest.1]
    rfl

theorem spells_literal (s : String) :
    Spells (SkyDiscovery.literal s).toList [.literal s.toList] :=
  ⟨[.literal s.toList], scans_literal s, fun _ _ => rfl⟩

theorem Spells.blank {a b : List Char} {ts us : List Token} (ha : Spells a ts)
    (hb : Spells b us) : Spells (a ++ ' ' :: b) (ts ++ us) := by
  obtain ⟨xs, hscan, hlex⟩ := ha
  obtain ⟨ys, hscan', hlex'⟩ := hb
  refine ⟨xs ++ .char ' ' :: ys, hscan.append (hscan'.plain_append (w := [' ']) (by decide))
    (by simp), fun rest hrest => ?_⟩
  rw [List.append_assoc, hlex _ ⟨rfl, rfl⟩, List.cons_append, lexed, lex_blank, ← lexed,
    hlex' rest hrest, List.append_assoc]

theorem Spells.group {a : List Char} {ts : List Token} (h : Spells a ts) :
    Spells ('(' :: a ++ [')']) (.opening :: ts ++ [.closing]) := by
  obtain ⟨xs, hscan, hlex⟩ := h
  refine ⟨.char '(' :: xs ++ [.char ')'], ?_, fun rest hrest => ?_⟩
  · exact (hscan.plain_append (w := ['(']) (by decide)).append
      (scans_plain (w := [')']) (by decide)) (by simp)
  · rw [List.append_assoc, List.cons_append, lexed, lex_opening, List.map_cons, ← lexed,
      hlex _ ⟨rfl, rfl⟩, List.singleton_append, lexed, lex_closing]
    simp [Token.recognize, lexed]

end SkyDiscovery.Sql
