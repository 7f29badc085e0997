import SkyDiscovery.Json.Reader

/-!
# Quoted texts of settings

The settings hold printable characters only.  A quoted text may run over the line breaks that JSON
takes for ordinary characters; its lines are then folded into one.  A key stands on one line with
its colon, and close to it.
-/

namespace SkyDiscovery.ConfigText

/-! ## Characters -/

/-- Whether a character may stand in settings as it is. -/
def isPrintable (c : Char) : Bool :=
  let n := c.toNat
  n == 0x09 || n == 0x0A || n == 0x0D || (0x20 ≤ n && n ≤ 0x7E) || n == 0x85
    || (0xA0 ≤ n && n ≤ 0xFFFD) || 0x10000 ≤ n

/-- The line break that only ends a line. -/
def nextLine : Char := '\u0085'

/-- The line breaks of a quoted text: a plain one, and those that separate lines and paragraphs. -/
def isBreak (c : Char) : Bool :=
  c == nextLine || c == '\u2028' || c == '\u2029'

/-! ## Folding -/

/-- A line break that is kept; a plain one is a line feed, which JSON writes as an escape. -/
def kept (c : Char) : List Char :=
  if c = nextLine then ['\\', 'n'] else [c]

/-- What stands for a run of line breaks: a blank for a single plain one, and else all of them but
a plain one at the front. -/
def folded : List Char → List Char
  | [] => []
  | c :: cs =>
    if c = nextLine then if cs.isEmpty then [' '] else cs.flatMap kept
    else (c :: cs).flatMap kept

/-- What stands for blanks and line breaks between two words; blanks beside a break are dropped. -/
def between (blanks breaks : List Char) : List Char :=
  if breaks.isEmpty then blanks else folded breaks

/-- Folds a quoted text after the given blanks and breaks. -/
def foldFrom (blanks breaks : List Char) : List Char → List Char
  | [] => between blanks breaks
  | c :: cs =>
    if isBreak c then foldFrom [] (breaks ++ [c]) cs
    else if c = ' ' then foldFrom (blanks ++ [c]) breaks cs
    else between blanks breaks ++ c :: foldFrom [] [] cs

/-- Folds the lines of a quoted text. -/
def fold (cs : List Char) : List Char :=
  foldFrom [] [] cs

/-! ## Reading -/

/-- The characters of a quoted text as written, from behind its opening mark, and what follows its
closing one. -/
def cut : List Char → Option (List Char × List Char)
  | [] => none
  | '"' :: cs => some ([], cs)
  | '\\' :: c :: cs => (cut cs).map fun (quoted, rest) => ('\\' :: c :: quoted, rest)
  | c :: cs => (cut cs).map fun (quoted, rest) => (c :: quoted, rest)

/-- Whether a line begins with the mark that separates documents, or with the one that ends
them. -/
def isMarked (line : List Char) : Bool :=
  ["---".toList, "...".toList].any fun mark =>
    mark.isPrefixOf line && (line.drop 3).head?.any fun c => c == ' ' || isBreak c

/-- Whether a line of a quoted text, other than the first, is marked. -/
def hasMarkedLine : List Char → Bool
  | [] => false
  | c :: cs => (isBreak c && isMarked cs) || hasMarkedLine cs

/-- The text that is written in quotes, with its lines folded and its escapes resolved. -/
def value? (quoted : List Char) : Option String :=
  if hasMarkedLine quoted then none
  else
    match Json.readText (fold quoted ++ ['"']) with
    | some (cs, []) => some (String.ofList cs)
    | _ => none

/-! ## Keys -/

/-- The bytes that characters take. -/
def width (cs : List Char) : Nat :=
  cs.foldl (fun n c => n + c.utf8Size) 0

/-- The most bytes that a key takes, with its quotes and the blanks before its colon. -/
def keyWidth : Nat := 1024

/-- Whether a quoted text may be a key, with the given blanks before its colon. -/
def isKey (quoted blanks : List Char) : Bool :=
  !quoted.any isBreak && blanks.all (fun c => c != '\n' && c != '\r')
    && width quoted + 2 + width blanks ≤ keyWidth

end SkyDiscovery.ConfigText
