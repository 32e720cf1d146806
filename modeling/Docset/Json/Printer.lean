import Docset.Json.Basic

/-!
# Writing a JSON document

Every item and member goes on a line of its own, indented by two spaces per level;
empty arrays and objects stay on one line. In strings the quote, the backslash and
the control characters are escaped, with a short escape where there is one and
lower-case hexadecimal digits otherwise; everything else is written as it is.
The two values that carry no content are written as `null`.
-/
namespace Docset.Json

def hexDigit (n : Nat) : Char := Nat.digitChar (n % 16)

/-- The written form of one character of a string. -/
def escapeChar (c : Char) : List Char :=
  if c = '"' then ['\\', '"']
  else if c = '\\' then ['\\', '\\']
  else if c = '\x08' then ['\\', 'b']
  else if c = '\x0C' then ['\\', 'f']
  else if c = '\n' then ['\\', 'n']
  else if c = '\r' then ['\\', 'r']
  else if c = '\t' then ['\\', 't']
  else if c < ' ' then ['\\', 'u', '0', '0', hexDigit (c.toNat / 16), hexDigit c.toNat]
  else [c]

def quoted (s : String) : List Char := '"' :: (s.toList.flatMap escapeChar ++ ['"'])

/-- A line break and the indentation of a level. -/
def newLine (depth : Nat) : List Char := '\n' :: List.replicate (2 * depth) ' '

mutual

/-- The text of a value that starts at a level of nesting. -/
def render (depth : Nat) : Json → List Char
  | .null => "null".toList
  | .number => "null".toList
  | .unreadable => "null".toList
  | .bool true => "true".toList
  | .bool false => "false".toList
  | .natural n => Nat.toDigits 10 n
  | .string s => quoted s
  | .array [] => ['[', ']']
  | .array (v :: items) =>
      '[' :: (newLine (depth + 1) ++ render (depth + 1) v ++ renderItems (depth + 1) items ++
        newLine depth ++ [']'])
  | .object [] => ['{', '}']
  | .object ((k, v) :: members) =>
      '{' :: (newLine (depth + 1) ++ quoted k ++ [':', ' '] ++ render (depth + 1) v ++
        renderMembers (depth + 1) members ++ newLine depth ++ ['}'])

/-- The items after the first one. -/
def renderItems (depth : Nat) : List Json → List Char
  | [] => []
  | v :: items => ',' :: (newLine depth ++ render depth v ++ renderItems depth items)

/-- The members after the first one. -/
def renderMembers (depth : Nat) : List (String × Json) → List Char
  | [] => []
  | (k, v) :: members =>
      ',' :: (newLine depth ++ quoted k ++ [':', ' '] ++ render depth v ++
        renderMembers depth members)

end

/-- The document that writes a value. -/
def pretty (v : Json) : String := String.ofList (render 0 v)

end Docset.Json
