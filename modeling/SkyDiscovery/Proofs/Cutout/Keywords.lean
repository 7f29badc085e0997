import SkyDiscovery.Cutout.Keywords
import SkyDiscovery.Proofs.Dictionary
import SkyDiscovery.Proofs.Text.Character
import SkyDiscovery.Proofs.Text.Split

/-!
# Keywords read from their own text

The lines of a text are read one by one, and of several lines with one keyword the last counts.  So
a text is read as its parts are, and entries that are written one to a line are read back whatever
stands between them.

* `entriesOf_append`: the entries of a text put together are those of its parts.
* `ofLine?_write`: a line gives the entry that was written on it.
* `read_concatenates_and_inverts`: both for whole texts.
-/

namespace SkyDiscovery.Keywords

open Text

/-! ## Written texts -/

/-- A line is an entry, or a remark that is passed over. -/
inductive Line where
  | entry (key value : String)
  | remark (cs : List Char)

inductive LineEnd where
  | lf
  | crlf

/-- Lines with their ends, and a last line without one. -/
structure Sheet where
  ended : List (Line × LineEnd)
  last : Line

namespace Line

def write : Line → List Char
  | entry key value => key.toList ++ ' ' :: '=' :: ' ' :: value.toList
  | remark cs => cs

def entry? : Line → Option (String × String)
  | entry key value => some (key, value)
  | remark _ => none

end Line

def LineEnd.write : LineEnd → List Char
  | lf => ['\n']
  | crlf => ['\r', '\n']

namespace Sheet

def lines (t : Sheet) : List Line :=
  t.ended.map Prod.fst ++ [t.last]

def write (t : Sheet) : List Char :=
  t.ended.flatMap (fun (line, stop) => line.write ++ stop.write) ++ t.last.write

end Sheet

/-! ## What can be written -/

/-- A keyword stands before the first `=` of its line and does not look like a remark. -/
structure IsKey (cs : List Char) : Prop where
  ne_nil : cs ≠ []
  trimmed : trim cs = cs
  not_mem_mark : '=' ∉ cs
  not_mem_break : '\n' ∉ cs
  not_remark : ∀ c ∈ cs.head?, c ≠ '#' ∧ c ≠ '['

instance : DecidablePred IsKey := fun cs =>
  decidable_of_iff
    (cs ≠ [] ∧ trim cs = cs ∧ '=' ∉ cs ∧ '\n' ∉ cs ∧ ∀ c ∈ cs.head?, c ≠ '#' ∧ c ≠ '[')
    ⟨fun ⟨hne, htrim, hmark, hbreak, hremark⟩ => ⟨hne, htrim, hmark, hbreak, hremark⟩,
      fun ⟨hne, htrim, hmark, hbreak, hremark⟩ => ⟨hne, htrim, hmark, hbreak, hremark⟩⟩

structure IsValue (cs : List Char) : Prop where
  trimmed : trim cs = cs
  not_mem_break : '\n' ∉ cs

instance : DecidablePred IsValue := fun cs =>
  decidable_of_iff (trim cs = cs ∧ '\n' ∉ cs) ⟨fun ⟨h₁, h₂⟩ => ⟨h₁, h₂⟩, fun ⟨h₁, h₂⟩ => ⟨h₁, h₂⟩⟩

/-- A remark is a blank line, a comment or a section header: if anything stands behind its leading
blanks, it begins with `#` or `[`. -/
structure IsRemark (cs : List Char) : Prop where
  head : ∀ c ∈ (trimStart cs).head?, c = '#' ∨ c = '['
  not_mem_break : '\n' ∉ cs

instance : DecidablePred IsRemark := fun cs =>
  decidable_of_iff ((∀ c ∈ (trimStart cs).head?, c = '#' ∨ c = '[') ∧ '\n' ∉ cs)
    ⟨fun ⟨h₁, h₂⟩ => ⟨h₁, h₂⟩, fun ⟨h₁, h₂⟩ => ⟨h₁, h₂⟩⟩

def Line.IsProper : Line → Prop
  | entry key value => IsKey key.toList ∧ IsValue value.toList
  | remark cs => IsRemark cs

instance : DecidablePred Line.IsProper
  | .entry key value => inferInstanceAs (Decidable (IsKey key.toList ∧ IsValue value.toList))
  | .remark cs => inferInstanceAs (Decidable (IsRemark cs))

/-! ## Lines -/

theorem ofLine?_congr {a b : List Char} (h : trim a = trim b) : ofLine? a = ofLine? b := by
  rw [ofLine?, ofLine?, h]

theorem ofLine?_remark {cs : List Char} (h : IsRemark cs) : ofLine? cs = none := by
  unfold ofLine?
  cases htrim : trim cs with
  | nil => rfl
  | cons c ds =>
    obtain ⟨es, hes⟩ := trim_isPrefix cs
    have hhead : (trimStart cs).head? = some c := by rw [← hes, htrim]; rfl
    exact if_pos (h.head c hhead)

/-- The blank behind the `=` is trimmed away if the value is empty. -/
theorem trim_entry {key : List Char} (hkey : IsKey key) (value : List Char) :
    trim (key ++ ' ' :: '=' :: ' ' :: value) = key ++ ' ' :: '=' :: trimEnd (' ' :: value) := by
  have hfirst : ∀ c ∈ (key ++ [' ', '=']).head?, isBlank c = false := by
    intro c hc
    rw [List.head?_append_of_ne_nil _ hkey.ne_nil, ← hkey.trimmed] at hc
    exact not_isBlank_head_trim key c hc
  have hlast : ∀ c ∈ (key ++ [' ', '=']).getLast?, isBlank c = false := by
    intro c hc
    rw [List.getLast?_append] at hc
    cases hc
    rfl
  simpa using trim_append (List.append_ne_nil_of_left_ne_nil hkey.ne_nil _) hfirst hlast
    (' ' :: value)

theorem cut_entry {key : List Char} (hkey : IsKey key) (rest : List Char) :
    cut '=' (key ++ ' ' :: '=' :: rest) = some (key ++ [' '], rest) := by
  have hmark : '=' ∉ key ++ [' '] := by
    rw [List.mem_append, not_or]
    exact ⟨hkey.not_mem_mark, by decide⟩
  simpa using cut_append hmark rest

theorem ofLine?_entry {key value : List Char} (hkey : IsKey key) (hvalue : IsValue value) :
    ofLine? (key ++ ' ' :: '=' :: ' ' :: value) =
      some (String.ofList key, String.ofList value) := by
  have hbefore : trim (key ++ [' ']) = key := by
    rw [trim_append_blank (by decide), hkey.trimmed]
  have hafter : trim (trimEnd (' ' :: value)) = value := by
    rw [trim_trimEnd, ← List.singleton_append, trim_blank_append (by decide), hvalue.trimmed]
  have hcut := cut_entry hkey (trimEnd (' ' :: value))
  obtain ⟨c, cs, rfl⟩ := List.exists_cons_of_ne_nil hkey.ne_nil
  obtain ⟨hcomment, hheading⟩ := hkey.not_remark c rfl
  rw [List.cons_append] at hcut
  rw [ofLine?, trim_entry hkey, List.cons_append]
  dsimp only
  rw [if_neg (not_or.2 ⟨hcomment, hheading⟩), hcut]
  dsimp only
  rw [hbefore, hafter]
  rfl

namespace Line

theorem ofLine?_write {l : Line} (h : l.IsProper) : ofLine? l.write = l.entry? := by
  cases l with
  | entry key value =>
    rw [write, ofLine?_entry h.1 h.2, String.ofList_toList, String.ofList_toList]
    rfl
  | remark cs => exact ofLine?_remark h

theorem not_mem_break {l : Line} (h : l.IsProper) : '\n' ∉ l.write := by
  cases l with
  | entry key value =>
    obtain ⟨hkey, hvalue⟩ := h
    simp [write, hkey.not_mem_break, hvalue.not_mem_break]
  | remark cs => exact h.not_mem_break

end Line

/-! ## Texts -/

/-- The entries of a text, line by line. -/
def entriesOf (cs : List Char) : List (String × String) :=
  (splitOn (· == '\n') cs).filterMap ofLine?

theorem read_eq (cs : List Char) : read cs = .ofList (entriesOf cs) := rfl

theorem entriesOf_append (a b : List Char) :
    entriesOf (a ++ '\n' :: b) = entriesOf a ++ entriesOf b := by
  rw [entriesOf, splitOn_append_cons a (by decide), List.filterMap_append]
  rfl

theorem entriesOf_line {cs : List Char} (h : '\n' ∉ cs) : entriesOf cs = (ofLine? cs).toList := by
  rw [entriesOf, splitOn_no_mark h]
  cases hline : ofLine? cs <;> simp [hline]

theorem entriesOf_write {l : Line} (h : l.IsProper) : entriesOf l.write = l.entry?.toList := by
  rw [entriesOf_line (Line.not_mem_break h), Line.ofLine?_write h]

/-- The carriage return before a line feed is a blank at the end of the line. -/
theorem entriesOf_ended {l : Line} (h : l.IsProper) (stop : LineEnd) (cs : List Char) :
    entriesOf (l.write ++ stop.write ++ cs) = l.entry?.toList ++ entriesOf cs := by
  cases stop with
  | lf =>
    rw [LineEnd.write, List.append_assoc, List.singleton_append, entriesOf_append,
      entriesOf_write h]
  | crlf =>
    have hreturn : '\n' ∉ l.write ++ ['\r'] := by
      rw [List.mem_append, not_or]
      exact ⟨Line.not_mem_break h, by decide⟩
    have hblank : trim (l.write ++ ['\r']) = trim l.write := trim_append_blank (by decide) _
    have hsplit : l.write ++ LineEnd.crlf.write ++ cs = (l.write ++ ['\r']) ++ '\n' :: cs := by
      simp [LineEnd.write]
    rw [hsplit, entriesOf_append, entriesOf_line hreturn, ofLine?_congr hblank,
      Line.ofLine?_write h]

theorem Sheet.entriesOf_write (t : Sheet) (h : ∀ l ∈ t.lines, l.IsProper) :
    entriesOf t.write = t.lines.filterMap Line.entry? := by
  obtain ⟨ended, last⟩ := t
  unfold lines write at *
  dsimp only at *
  induction ended with
  | nil =>
    rw [List.flatMap_nil, List.nil_append, Keywords.entriesOf_write (h last (by simp))]
    cases hentry : last.entry? <;> simp [hentry]
  | cons e ended ih =>
    obtain ⟨line, stop⟩ := e
    have hrest := ih fun l hl => h l (List.mem_cons_of_mem _ hl)
    rw [List.flatMap_cons, List.append_assoc, entriesOf_ended (h line (by simp)), hrest,
      List.map_cons, List.cons_append, List.filterMap_cons]
    cases line.entry? <;> rfl

/-- A text put together of two is read as the first, overridden by the second.  And dictionaries
whose keywords and values fit on lines are read back from any text with one line for each entry and
remarks between them. -/
theorem read_concatenates_and_inverts :
    (∀ (a b : List Char) (key : String),
      (read (a ++ '\n' :: b)).get? key = ((read b).get? key).or ((read a).get? key)) ∧
    ∀ (m : Keywords) (t : Sheet),
      (∀ e ∈ m.entries, IsKey e.1.toList ∧ IsValue e.2.toList) →
      (∀ cs, .remark cs ∈ t.lines → IsRemark cs) →
      (t.lines.filterMap Line.entry?).Perm m.entries → read t.write = m := by
  constructor
  · intro a b key
    rw [read_eq, entriesOf_append, Dictionary.get?_ofList_append]
    rfl
  · intro m t hentries hremarks hperm
    have hproper : ∀ l ∈ t.lines, l.IsProper := by
      intro l hl
      cases l with
      | entry key value =>
        have hmem : (key, value) ∈ t.lines.filterMap Line.entry? :=
          List.mem_filterMap.2 ⟨_, hl, rfl⟩
        exact hentries _ (hperm.mem_iff.1 hmem)
      | remark cs => exact hremarks cs hl
    rw [read_eq, t.entriesOf_write hproper, Dictionary.ofList_of_perm hperm]

/-- Keywords and values made of the marks of the format. -/
def markedKeywords : Keywords :=
  .ofList [("MDFILE", "/tmp/a=b.md"), ("a[0]", "[x] # y"), ("empty", ""), ("title", "# M 31")]

/-- The marked keywords out of order, with every kind of remark and of line end. -/
def markedSheet : Sheet where
  ended := [(.remark "# cutout = metadata".toList, .crlf), (.entry "title" "# M 31", .lf),
    (.remark " \t".toList, .crlf), (.entry "MDFILE" "/tmp/a=b.md", .crlf),
    (.remark "  [image] = 1".toList, .lf), (.entry "empty" "", .lf), (.remark [], .lf)]
  last := .entry "a[0]" "[x] # y"

theorem read_concatenates_and_inverts_marked :
    String.ofList markedSheet.write =
        "# cutout = metadata\r\ntitle = # M 31\n \t\r\nMDFILE = /tmp/a=b.md\r\n" ++
          "  [image] = 1\nempty = \n\na[0] = [x] # y" ∧
      read markedSheet.write = markedKeywords := by
  have hproper : ∀ l ∈ markedSheet.lines, l.IsProper := by decide +kernel
  exact ⟨by decide +kernel, read_concatenates_and_inverts.2 markedKeywords markedSheet
    (by decide +kernel) (fun cs hcs => hproper _ hcs) (by decide +kernel)⟩

end SkyDiscovery.Keywords
