import SkyDiscovery.Json.Basic
import SkyDiscovery.Text.Hexadecimal

/-!
# JSON text

Values written on one line without blanks, or with every item on a line of its own, indented by
two blanks a level.
-/

namespace SkyDiscovery.Json

/-- The two characters of a short escape, or `\u` and four small hexadecimal digits. -/
def escapeControl (c : Char) : List Char :=
  if c = '\n' then ['\\', 'n']
  else if c = '\r' then ['\\', 'r']
  else if c = '\t' then ['\\', 't']
  else if c = '\x08' then ['\\', 'b']
  else if c = '\x0c' then ['\\', 'f']
  else
    let hex (n : Nat) : Char := (Text.hexDigit n).toLower
    ['\\', 'u', '0', '0', hex (c.toNat / 16), hex (c.toNat % 16)]

/-- Quotes, backslashes and control characters are escaped; all else stands for itself. -/
def escapeChar (c : Char) : List Char :=
  if c = '"' then ['\\', '"']
  else if c = '\\' then ['\\', '\\']
  else if c.toNat < 0x20 then escapeControl c
  else [c]

def quoted (s : String) : String :=
  String.ofList ('"' :: s.toList.flatMap escapeChar ++ ['"'])

mutual

/-- The text of a value on one line. -/
def compact : Json → String
  | null => "null"
  | bool true => "true"
  | bool false => "false"
  | number n => String.ofList n.write
  | text s => quoted s
  | array [] => "[]"
  | array (x :: xs) => "[" ++ compact x ++ compactItems xs ++ "]"
  | object [] => "\x7b\x7d"
  | object ((k, x) :: ms) => "\x7b" ++ quoted k ++ ":" ++ compact x ++ compactMembers ms ++ "\x7d"

/-- The items after the first. -/
def compactItems : List Json → String
  | [] => ""
  | x :: xs => "," ++ compact x ++ compactItems xs

/-- The members after the first. -/
def compactMembers : List (String × Json) → String
  | [] => ""
  | (k, x) :: ms => "," ++ quoted k ++ ":" ++ compact x ++ compactMembers ms

end

/-- A new line at the given level. -/
def newLine (level : Nat) : String :=
  String.ofList ('\n' :: List.replicate (2 * level) ' ')

mutual

/-- The text of a value with every item on a line of its own. -/
def pretty (level : Nat) : Json → String
  | array (x :: xs) =>
    "[" ++ newLine (level + 1) ++ pretty (level + 1) x ++ prettyItems (level + 1) xs
      ++ newLine level ++ "]"
  | object ((k, x) :: ms) =>
    "\x7b" ++ newLine (level + 1) ++ quoted k ++ ": " ++ pretty (level + 1) x
      ++ prettyMembers (level + 1) ms ++ newLine level ++ "\x7d"
  | x => compact x

def prettyItems (level : Nat) : List Json → String
  | [] => ""
  | x :: xs => "," ++ newLine level ++ pretty level x ++ prettyItems level xs

def prettyMembers (level : Nat) : List (String × Json) → String
  | [] => ""
  | (k, x) :: ms =>
    "," ++ newLine level ++ quoted k ++ ": " ++ pretty level x ++ prettyMembers level ms

end

/-- The text of a value in the chosen form. -/
def render (indented : Bool) (x : Json) : String :=
  if indented then pretty 0 x else compact x

end SkyDiscovery.Json
