import SkyDiscovery.Text.Blank

/-!
# Cutting texts

Texts cut at separators, at the first or last occurrence of a character, and at the first
occurrence of a word.
-/

namespace SkyDiscovery.Text

/-- The stretches between the characters that satisfy `stop`; there is always at least one. -/
def splitOn (stop : Char → Bool) : List Char → List (List Char)
  | [] => [[]]
  | c :: cs =>
    match splitOn stop cs with
    | [] => [[c]]
    | w :: ws => if stop c then [] :: w :: ws else (c :: w) :: ws

theorem splitOn_ne_nil (stop : Char → Bool) (cs : List Char) : splitOn stop cs ≠ [] := by
  cases cs with
  | nil => simp [splitOn]
  | cons c cs =>
    simp only [splitOn]
    split
    · simp
    · split <;> simp

/-- The stretches between separators, trimmed, without those that are blank. -/
def items (stop : Char → Bool) (cs : List Char) : List (List Char) :=
  ((splitOn stop cs).map trim).filter fun w => !w.isEmpty

/-- The texts before and after the first `mark`, if there is one. -/
def cut (mark : Char) : List Char → Option (List Char × List Char)
  | [] => none
  | c :: cs =>
    if c = mark then some ([], cs)
    else (cut mark cs).map fun (before, after) => (c :: before, after)

/-- The text up to the first `mark`, or all of it. -/
def before (mark : Char) (cs : List Char) : List Char :=
  cs.takeWhile (· != mark)

/-- The text after the last `mark`, or all of it. -/
def afterLast (mark : Char) (cs : List Char) : List Char :=
  (cs.reverse.takeWhile (· != mark)).reverse

/-- The text up to and with the last `mark`; empty when there is none. -/
def throughLast (mark : Char) (cs : List Char) : List Char :=
  (cs.reverse.dropWhile (· != mark)).reverse

theorem throughLast_append_afterLast (mark : Char) (cs : List Char) :
    throughLast mark cs ++ afterLast mark cs = cs := by
  rw [throughLast, afterLast, ← List.reverse_append, List.takeWhile_append_dropWhile,
    List.reverse_reverse]

/-- The texts before and after the first occurrence of `word`, if there is one. -/
def cutWord (word : List Char) : List Char → Option (List Char × List Char)
  | [] => if word.isEmpty then some ([], []) else none
  | c :: cs =>
    if word.isPrefixOf (c :: cs) then some ([], (c :: cs).drop word.length)
    else (cutWord word cs).map fun (before, after) => (c :: before, after)

/-- Whether `word` occurs in the text. -/
def mentions (word : String) (cs : List Char) : Bool :=
  (cutWord word.toList cs).isSome

end SkyDiscovery.Text
