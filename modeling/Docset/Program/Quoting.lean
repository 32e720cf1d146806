import Docset.Program.Basic

/-!
# Names in messages

Messages quote the names that they are about, so that a name can be told from the
words around it, and so that it can be copied into a script. Bytes that cannot be
shown are written as escapes.
-/
namespace Docset.Program

/-- Whether a byte can be shown. -/
def isShown (c : Char) : Bool := ' ' ≤ c && c ≤ '~'

def octalDigits (c : Char) : List Char :=
  let digits := Nat.toDigits 8 c.toNat
  List.replicate (3 - digits.length) '0' ++ digits

/-- The control codes that have a letter of their own. -/
def controlLetters : List (Nat × Char) :=
  [(7, 'a'), (8, 'b'), (9, 't'), (10, 'n'), (11, 'v'), (12, 'f'), (13, 'r')]

/-- The escape for a byte that cannot be shown. -/
def escape (c : Char) : List Char :=
  match controlLetters.lookup c.toNat with
  | some letter => ['\\', letter]
  | none => '\\' :: octalDigits c

/-- A text in single quotes, in which quotes and backslashes are escaped. -/
def quote (s : String) : String :=
  let shown (c : Char) : List Char :=
    if c = '\'' || c = '\\' then ['\\', c] else if isShown c then [c] else escape c
  "'" ++ String.ofList ((textChars s).flatMap shown) ++ "'"

/-- Characters that mean the same in single and in double quotes. -/
def isNeutral (c : Char) : Bool := c.isAlphanum || " %+,-./:@]_\x7b\x7d~'#".toList.contains c

/-- The rest of a text in quotes that a shell understands; `inEscape` says that the quotes at hand
hold escapes. -/
def quotedRest (inEscape : Bool) : List Char → List Char
  | [] => ['\'']
  | c :: rest =>
      if isShown c then
        let start := if inEscape then "''".toList else []
        let shown := if c = '\'' then "'\\''".toList else [c]
        start ++ shown ++ quotedRest false rest
      else
        let start := if inEscape then [] else "'$'".toList
        start ++ escape c ++ quotedRest true rest

/-- A text in quotes that a shell understands. -/
def inQuotes (s : String) : String :=
  let cs := textChars s
  if cs.contains '\'' && cs.all isNeutral then "\"" ++ s ++ "\""
  else String.ofList ('\'' :: quotedRest false cs)

/-- Characters for which a name is put in quotes. -/
def isDelicate (c : Char) : Bool :=
  !isShown c || " !\"$&()*;<=>[^\x60|'\\?".toList.contains c

/-- A name, in quotes only if it needs them. -/
def shownName (s : String) : String :=
  let cs := textChars s
  let delicate := cs.isEmpty || cs.any isDelicate || cs.head? = some '~' || cs.head? = some '#' ||
    cs = ['\x7b'] || cs = ['\x7d']
  if delicate then inQuotes s else s

end Docset.Program
