import Docset.Shell.Tree

/-!
# Reading scripts

Reads a script from its text, one complete command at a time: a command that can be
read is run before the next one is looked at. Words are read character by
character, since quotes and references nest; the commands inside `$(…)` are read
by the same rules as those outside.

A reading loop is given as many steps as characters are left, plus one, which is
more than it can take: each step but the last takes a character.
-/
namespace Docset.Shell

/-- What a redirection operator asks for. -/
inductive Redirector where
  | file (opening : Opening)
  | duplicate
  | document (stripTabs : Bool)
  deriving DecidableEq, Repr

inductive Token where
  | endOfFile
  | newline
  | semicolon
  | background
  | and
  | or
  | pipe
  | opening
  | closing
  | endBranch
  | redirection (channel : Nat) (kind : Redirector)
  | word (w : Word)
  | keyword (s : String)

namespace Token

/-- How complaints call a token. -/
def name : Token → String
  | endOfFile => "end of file"
  | newline => "newline"
  | semicolon => "\";\""
  | background => "\"&\""
  | and => "\"&&\""
  | or => "\"||\""
  | pipe => "\"|\""
  | opening => "\"(\""
  | closing => "\")\""
  | endBranch => "\";;\""
  | redirection _ _ => "redirection"
  | word _ => "word"
  | keyword s => "\"" ++ s ++ "\""

def keywords : List String :=
  ["!", "case", "do", "done", "elif", "else", "esac", "fi", "for", "if", "in", "then", "until",
    "while", "\x7b", "\x7d"]

/-- The token that a token is where keywords count. -/
def recognize : Token → Token
  | word w =>
      match w.literal? with
      | some s => if keywords.contains s then keyword s else word w
      | none => word w
  | t => t

def isKeyword (s : String) : Token → Bool
  | keyword k => k = s
  | _ => false

/-- Whether a token ends a list of commands that stands inside another command. -/
def endsList : Token → Bool
  | endBranch => true
  | closing => true
  | keyword k => ["else", "elif", "do", "done", "esac", "fi", "then", "\x7d"].contains k
  | _ => false

end Token

/-- A here-document that was asked for. -/
structure DocumentRequest where
  number : Nat
  delimiter : String
  stripTabs : Bool
  /-- Whether references in it stand for themselves. -/
  verbatim : Bool
  deriving DecidableEq, Repr

/-- A script that is being read. -/
structure Source where
  rest : List Char
  line : Nat := 1
  /-- A token that was looked at and put back. -/
  pushed : Option Token := none
  pending : List DocumentRequest := []
  documents : List (Nat × Word) := []
  /-- The number of the next here-document. -/
  next : Nat := 0

/-- Reading fails with a complaint; the line it is about is where the reading stands. -/
abbrev Reading := EStateM String Source

namespace Reading

/-- Skips line breaks that are preceded by a backslash. -/
def joinLines (line : Nat) : List Char → Nat × List Char
  | '\\' :: '\n' :: rest => joinLines (line + 1) rest
  | rest => (line, rest)

/-- The characters ahead, lines joined. -/
def ahead : Reading (List Char) := do
  let s ← get
  let (line, rest) := joinLines s.line s.rest
  set { s with line, rest }
  return rest

/-- Takes one character. -/
def skip : Reading Unit :=
  modify fun s =>
    match s.rest with
    | '\n' :: rest => { s with rest, line := s.line + 1 }
    | _ :: rest => { s with rest }
    | [] => s

def drop : Nat → Reading Unit
  | 0 => pure ()
  | n + 1 => do skip; drop n

/-- How many steps a reading loop may take. -/
def steps : Reading Nat := return (← get).rest.length + 1

/-- The complaint about a token that cannot stand where it does. -/
def unexpected {α : Type} (t : Token) (expecting : String) : Reading α :=
  let wanted := if expecting = "" then "" else " (expecting " ++ expecting ++ ")"
  throw (String.ofList ((t.name ++ " unexpected" ++ wanted).toList.take 63))

/-! ## Words -/

/-- Where in a word the reading stands. -/
inductive Context where
  | bare
  /-- Inside the braces of a reference outside quotes. -/
  | braces
  | double
  /-- Inside the braces of a reference in double quotes; `inner` says whether quotes are open. -/
  | doubleBraces (inner : Bool)
  | document
  /-- Inside a calculation, with so many parentheses open. -/
  | arithmetic (depth : Nat)
  deriving DecidableEq, Repr

namespace Context

/-- Whether text stands for itself. -/
def quotes : Context → Bool
  | bare => false
  | braces => false
  | _ => true

/-- The context inside the braces of a reference. -/
def inBraces (ctx : Context) : Use → Context
  | .trim _ _ => braces
  | _ => if ctx.quotes then doubleBraces false else braces

/-- The complaint about a text that ends in the midst of a word. -/
def complaint? : Context → Option String
  | bare => none
  | document => none
  | braces => some "Missing '\x7d'"
  | double => some "Unterminated quoted string"
  | doubleBraces _ => some "Unterminated quoted string"
  | arithmetic _ => some "Missing '))'"

/-- Whether a backslash before a character is dropped, in text that stands for itself. -/
def escapes (ctx : Context) (c : Char) : Bool :=
  c = '\\' || c = '\x60' || c = '$' || (c = '"' && ctx ≠ document) ||
    match ctx with
    | doubleBraces _ => c = '}'
    | _ => false

end Context

/-- Adds a character to the parts of a word, which are kept last first. -/
def addChar (quoted : Bool) (c : Char) (parts : List Part) : List Part :=
  match quoted, parts with
  | false, .text s :: rest => .text (s.push c) :: rest
  | true, .quoted s :: rest => .quoted (s.push c) :: rest
  | false, _ => .text c.toString :: parts
  | true, _ => .quoted c.toString :: parts

/-- Parameters that have a sign for a name. -/
def isSpecial (c : Char) : Bool := "*@#?-$!".toList.contains c || c.isDigit

def isNameStart (c : Char) : Bool := isNameChar c && !c.isDigit

/-- The start of a reference in braces. -/
structure Head where
  name : String
  use : Use
  /-- Whether the reference ends here. -/
  closed : Bool
  rest : List Char

/-- The fallback that a sign stands for. -/
def fallback? (c : Char) : Option Fallback :=
  [('-', Fallback.instead), ('=', .assign), ('?', .refuse), ('+', .otherwise)].lookup c

/-- What follows the name of a parameter in braces. -/
def operator (name : String) : List Char → Head
  | '}' :: rest => ⟨name, .value, true, rest⟩
  | '%' :: '%' :: rest => ⟨name, .trim true true, false, rest⟩
  | '%' :: rest => ⟨name, .trim true false, false, rest⟩
  | '#' :: '#' :: rest => ⟨name, .trim false true, false, rest⟩
  | '#' :: rest => ⟨name, .trim false false, false, rest⟩
  | ':' :: c :: rest =>
      match fallback? c with
      | some f => ⟨name, .unset f true, false, rest⟩
      | none => ⟨name, .bad, false, if c = '}' then rest else c :: rest⟩
  | c :: rest =>
      match fallback? c with
      | some f => ⟨name, .unset f false, false, rest⟩
      | none => ⟨name, .bad, false, c :: rest⟩
  | [] => ⟨name, .bad, false, []⟩

/-- The longest name or number at the start of a text. -/
def nameAhead (cs : List Char) : List Char :=
  if cs.head?.any Char.isDigit then cs.takeWhile Char.isDigit else cs.takeWhile isNameChar

def braceHead (cs : List Char) : Head :=
  let bad : Head := ⟨"", .bad, false, cs⟩
  match cs with
  | [] => bad
  | '}' :: _ => bad
  | '#' :: '}' :: rest => ⟨"#", .value, true, rest⟩
  | '#' :: rest =>
      let name := nameAhead rest
      if !name.isEmpty then
        match rest.drop name.length with
        | '}' :: rest => ⟨String.ofList name, .length, true, rest⟩
        | rest => ⟨String.ofList name, .bad, false, rest⟩
      else
        match rest with
        | c :: '}' :: more =>
            if isSpecial c then ⟨c.toString, .length, true, more⟩ else operator "#" rest
        | _ => operator "#" rest
  | c :: rest =>
      let name := nameAhead cs
      if !name.isEmpty then operator (String.ofList name) (cs.drop name.length)
      else if isSpecial c then operator c.toString rest
      else bad

/-- Reads another text in place of the one at hand. -/
def within {α : Type} (text : List Char) (line : Nat) (act : Reading α) : Reading α := do
  let outer ← get
  set { outer with rest := text, line, pushed := none, pending := [] }
  let a ← act
  modify fun s =>
    { s with rest := outer.rest, line := outer.line, pushed := outer.pushed,
             pending := outer.pending }
  return a

/-- Reads the commands of `$(…)`, after its opening parenthesis. -/
def substitution (list : Reading Tree) : Reading Tree := do
  let outer ← get
  set { outer with pushed := none, pending := [] }
  let t ← list
  match (← get).pushed with
  | some .closing =>
      modify fun s => { s with pushed := outer.pushed, pending := outer.pending }
      return t
  | other => unexpected (other.getD .endOfFile) Token.closing.name

/-- Takes the text up to a closing backquote. -/
def backquoted (inDouble : Bool) : Nat → List Char → Reading (List Char)
  | 0, text => return text.reverse
  | fuel + 1, text => do
      match ← ahead with
      | [] => throw "EOF in backquote substitution"
      | '\x60' :: _ =>
          skip
          return text.reverse
      | '\\' :: c :: _ =>
          drop 2
          if c = '\\' || c = '\x60' || c = '$' || (inDouble && c = '"') then
            backquoted inDouble fuel (c :: text)
          else backquoted inDouble fuel (c :: '\\' :: text)
      | c :: _ =>
          skip
          backquoted inDouble fuel (c :: text)

/-- Takes the text up to a closing single quote. -/
def singleQuoted : Nat → String → Reading String
  | 0, text => return text
  | fuel + 1, text => do
      match (← get).rest with
      | [] => throw "Unterminated quoted string"
      | '\'' :: _ =>
          skip
          return text
      | c :: _ =>
          skip
          singleQuoted fuel (text.push c)

/-- Reads what a dollar sign starts; `none` if it stands for itself. -/
def reference? (list : Reading Tree) (parts : Context → Reading (List Part)) (ctx : Context) :
    Reading (Option Part) := do
  let named (name : List Char) : Reading (Option Part) := do
    drop name.length
    return some (.parameter (String.ofList name) .value (.ofParts []) ctx.quotes)
  match ← ahead with
  | '(' :: '(' :: _ =>
      drop 2
      return some (.arithmetic (.ofParts (← parts (.arithmetic 0))) ctx.quotes)
  | '(' :: _ =>
      skip
      return some (.output (← substitution list) ctx.quotes)
  | '{' :: cs =>
      let head := braceHead cs
      modify fun s => { s with rest := head.rest }
      let word ← if head.closed then pure [] else parts (ctx.inBraces head.use)
      return some (.parameter head.name head.use (.ofParts word) ctx.quotes)
  | c :: cs =>
      if isNameStart c then named ((c :: cs).takeWhile isNameChar)
      else if isSpecial c then named [c]
      else return none
  | [] => return none

/-- Characters that end a word outside quotes. -/
def endsWord (c : Char) : Bool := " \t\n<>();&|".toList.contains c

/-- Reads the parts of a word to the end of its context, which is taken too unless the word is
bare. The parts read so far are kept last first. -/
def readParts (list : Reading Tree) : Nat → Context → List Part → Reading (List Part)
  | 0, _, acc => return acc.reverse
  | fuel + 1, ctx, acc => do
      let add (c : Char) : Reading (List Part) := do
        skip
        readParts list fuel ctx (addChar ctx.quotes c acc)
      match ← ahead with
      | [] =>
          match ctx.complaint? with
          | some complaint => throw complaint
          | none => return acc.reverse
      | '\\' :: [] =>
          skip
          readParts list fuel ctx (addChar true '\\' acc)
      | '\\' :: c :: _ =>
          drop 2
          if ctx.quotes && !ctx.escapes c then
            readParts list fuel ctx (addChar true c (addChar true '\\' acc))
          else readParts list fuel ctx (addChar true c acc)
      | '$' :: _ =>
          skip
          match ← reference? list (readParts list fuel · []) ctx with
          | some part => readParts list fuel ctx (part :: acc)
          | none => readParts list fuel ctx (addChar ctx.quotes '$' acc)
      | '\x60' :: _ =>
          skip
          let text ← backquoted ctx.quotes (← steps) []
          let t ← within text 1 list
          readParts list fuel ctx (.output t ctx.quotes :: acc)
      | c :: following =>
          match ctx with
          | .bare =>
              if endsWord c then return acc.reverse
              else if c = '\'' then
                skip
                readParts list fuel ctx (.quoted (← singleQuoted (← steps) "") :: acc)
              else if c = '"' then
                skip
                let inner ← readParts list fuel .double []
                let inner := if inner.isEmpty then [.quoted ""] else inner
                readParts list fuel ctx (inner.reverse ++ acc)
              else add c
          | .braces =>
              if c = '}' then
                skip
                return acc.reverse
              else if c = '\'' then
                skip
                readParts list fuel ctx (.quoted (← singleQuoted (← steps) "") :: acc)
              else if c = '"' then
                skip
                let inner ← readParts list fuel .double []
                let inner := if inner.isEmpty then [.quoted ""] else inner
                readParts list fuel ctx (inner.reverse ++ acc)
              else add c
          | .double =>
              if c = '"' then
                skip
                return acc.reverse
              else add c
          | .doubleBraces inner =>
              if c = '}' && !inner then
                skip
                return acc.reverse
              else if c = '"' then
                skip
                readParts list fuel (.doubleBraces !inner) acc
              else add c
          | .document => add c
          | .arithmetic depth =>
              if c = '(' then
                skip
                readParts list fuel (.arithmetic (depth + 1)) (addChar true c acc)
              else if c = ')' then
                match depth, following with
                | 0, ')' :: _ =>
                    drop 2
                    return acc.reverse
                | _, _ =>
                    skip
                    readParts list fuel (.arithmetic (depth - 1)) (addChar true c acc)
              else add c

def readWord (list : Reading Tree) (ctx : Context) : Reading Word :=
  return .ofParts (← readParts list (← steps) ctx [])

/-! ## Here-documents -/

/-- The text of a here-document and what follows it; the text is kept last character first, and so
is the line at hand. -/
def documentText (r : DocumentRequest) (text line : List Char) : List Char → List Char × List Char
  | [] => if String.ofList line.reverse = r.delimiter then (text, []) else (line ++ text, [])
  | '\n' :: rest =>
      if String.ofList line.reverse = r.delimiter then (text, rest)
      else documentText r ('\n' :: line ++ text) [] rest
  | c :: rest =>
      if r.stripTabs && c = '\t' && line.isEmpty then documentText r text line rest
      else documentText r text (c :: line) rest

/-- Reads the here-documents that were asked for. -/
def readDocuments (list : Reading Tree) : Reading Unit := do
  let requests := (← get).pending
  modify fun s => { s with pending := [] }
  requests.forM fun r => do
    let s ← get
    let (text, rest) := documentText r [] [] s.rest
    let text := text.reverse
    let lines := (s.rest.take (s.rest.length - rest.length)).count '\n'
    let word ←
      if r.verbatim then pure (Word.ofParts [.quoted (String.ofList text)])
      else within text s.line (readWord list .document)
    modify fun s =>
      { s with rest, line := s.line + lines, documents := (r.number, word) :: s.documents }

/-! ## Tokens -/

/-- The redirection at the start of a text, and how many characters it takes. -/
def redirector? : List Char → Option (Redirector × Nat)
  | '<' :: '<' :: '-' :: _ => some (.document true, 3)
  | '<' :: '<' :: _ => some (.document false, 2)
  | '<' :: '&' :: _ => some (.duplicate, 2)
  | '<' :: '>' :: _ => some (.file .both, 2)
  | '<' :: _ => some (.file .input, 1)
  | '>' :: '>' :: _ => some (.file .append, 2)
  | '>' :: '&' :: _ => some (.duplicate, 2)
  | '>' :: '|' :: _ => some (.file .output, 2)
  | '>' :: _ => some (.file .output, 1)
  | _ => none

/-- The operator at the start of a text, and how many characters it takes. -/
def operator? : List Char → Option (Token × Nat)
  | [] => some (.endOfFile, 0)
  | '&' :: '&' :: _ => some (.and, 2)
  | '&' :: _ => some (.background, 1)
  | '|' :: '|' :: _ => some (.or, 2)
  | '|' :: _ => some (.pipe, 1)
  | ';' :: ';' :: _ => some (.endBranch, 2)
  | ';' :: _ => some (.semicolon, 1)
  | '(' :: _ => some (.opening, 1)
  | ')' :: _ => some (.closing, 1)
  | d :: cs =>
      if d.isDigit then
        (redirector? cs).map fun (kind, n) => (.redirection (d.toNat - '0'.toNat) kind, n + 1)
      else
        (redirector? (d :: cs)).map fun (kind, n) =>
          (.redirection (if d = '<' then 0 else 1) kind, n)

/-- Takes a token from the text. -/
def freshToken (list : Reading Tree) : Nat → Reading Token
  | 0 => return .endOfFile
  | fuel + 1 => do
      match ← ahead with
      | '\n' :: _ =>
          skip
          readDocuments list
          return .newline
      | cs =>
          match operator? cs, cs with
          | some (t, n), _ =>
              drop n
              return t
          | none, c :: _ =>
              if c = ' ' || c = '\t' then
                skip
                freshToken list fuel
              else if c = '#' then
                modify fun s => { s with rest := s.rest.dropWhile (· ≠ '\n') }
                freshToken list fuel
              else return .word (← readWord list .bare)
          | none, [] => return .endOfFile

def pushBack (t : Token) : Reading Unit := modify fun s => { s with pushed := some t }

/-- The token put back, or a fresh one. -/
def anyToken (list : Reading Tree) : Reading Token := do
  match (← get).pushed with
  | some t =>
      modify fun s => { s with pushed := none }
      return t
  | none => freshToken list (← steps)

def pastNewlines (list : Reading Tree) : Nat → Reading Token
  | 0 => anyToken list
  | fuel + 1 => do
      match ← anyToken list with
      | .newline => pastNewlines list fuel
      | t => return t

/-- The next token, where neither keywords nor line breaks have a meaning of their own. -/
def plain (list : Reading Tree) : Reading Token := anyToken list

/-- The next token, where keywords count. -/
def orKeyword (list : Reading Tree) : Reading Token := return (← anyToken list).recognize

/-- The next token past line breaks, where keywords count. -/
def pastBreaks (list : Reading Tree) : Reading Token :=
  return (← pastNewlines list ((← steps) + 1)).recognize

/-! ## Commands -/

/-- Where a list of commands stands. -/
inductive Place where
  /-- At the outside, where it ends with its line. -/
  | outside
  /-- Inside another command, where it has a command at least. -/
  | inside
  /-- Inside another command, where it may be empty. -/
  | insideOrEmpty
  deriving DecidableEq, Repr

/-- How lists of commands are read. -/
abbrev Lists := Place → Reading Tree

section
variable (lists : Lists)

/-- The reading of commands inside words. -/
def inWords : Reading Tree := lists .insideOrEmpty

/-- The text of a word that delimits a here-document. -/
def delimiter (w : Word) : String :=
  String.join (w.parts.map fun part =>
    match part with
    | .text s => s
    | .quoted s => s
    | .parameter name _ _ _ => "$" ++ name
    | _ => "")

/-- Reads what a redirection refers to. -/
def redirection (channel : Nat) (kind : Redirector) : Reading Redirection := do
  match ← plain (inWords lists) with
  | .word w =>
      match kind with
      | .file opening => return .file channel opening w
      | .duplicate => return .duplicate channel w
      | .document stripTabs =>
          let s ← get
          let verbatim := w.parts.any fun part =>
            match part with
            | .quoted _ => true
            | _ => false
          let request : DocumentRequest := ⟨s.next, delimiter w, stripTabs, verbatim⟩
          set { s with next := s.next + 1, pending := s.pending ++ [request] }
          return .document channel request.number
  | t => unexpected t ""

/-- Reads redirections as long as there are any. -/
def redirections : Nat → List Redirection → Reading (List Redirection)
  | 0, acc => return acc.reverse
  | fuel + 1, acc => do
      match ← orKeyword (inWords lists) with
      | .redirection channel kind =>
          redirections fuel ((← redirection lists channel kind) :: acc)
      | t =>
          pushBack t
          return acc.reverse

/-- Names that functions cannot have. -/
def reservedNames : List String :=
  [".", ":", "break", "continue", "eval", "exec", "exit", "export", "readonly", "return", "set",
    "shift", "times", "trap", "unset"]

/-- Reads a simple command or the definition of a function. What was read of it is kept last
first. -/
def simple (command : Reading Tree) (line : Nat) :
    Nat → List Word → List Word → List Redirection → Reading Tree
  | 0, assignments, words, reds =>
      return .simple line assignments.reverse words.reverse reds.reverse
  | fuel + 1, assignments, words, reds => do
      match ← plain (inWords lists) with
      | .word w =>
          if words.isEmpty && w.isAssignment then
            simple command line fuel (w :: assignments) words reds
          else simple command line fuel assignments (w :: words) reds
      | .redirection channel kind =>
          simple command line fuel assignments words
            ((← redirection lists channel kind) :: reds)
      | t =>
          match t, assignments, words, reds with
          | .opening, [], [w], [] =>
              match ← plain (inWords lists) with
              | .closing =>
                  match w.literal? with
                  | some name =>
                      if isName name && !reservedNames.contains name then
                        pushBack (← pastBreaks (inWords lists))
                        return .function name (← command)
                      else throw "Bad function name"
                  | none => throw "Bad function name"
              | t => unexpected t Token.closing.name
          | _, _, _, _ =>
              pushBack t
              return .simple line assignments.reverse words.reverse reds.reverse

/-- Takes a keyword that has to come now. -/
def expect (keyword : String) (t : Token) : Reading Unit :=
  if t.isKeyword keyword then pure () else unexpected t (Token.keyword keyword).name

/-- Reads a conditional after the word that starts it, down to the word that ends it. -/
def conditional : Nat → Reading Tree
  | 0 => throw ""
  | fuel + 1 => do
      let test ← lists .inside
      expect "then" (← orKeyword (inWords lists))
      let yes ← lists .inside
      let t ← orKeyword (inWords lists)
      if t.isKeyword "elif" then return .conditional test yes (some (← conditional fuel))
      else if t.isKeyword "else" then
        let no ← lists .inside
        expect "fi" (← orKeyword (inWords lists))
        return .conditional test yes (some no)
      else
        expect "fi" t
        return .conditional test yes none

def loop (untilSuccess : Bool) : Reading Tree := do
  let test ← lists .inside
  expect "do" (← orKeyword (inWords lists))
  let body ← lists .inside
  expect "done" (← orKeyword (inWords lists))
  return .loop untilSuccess test body

/-- Reads words up to the end of their line. -/
def wordsToEnd : Nat → List Word → Reading (List Word)
  | 0, acc => return acc.reverse
  | fuel + 1, acc => do
      match ← plain (inWords lists) with
      | .word w => wordsToEnd fuel (w :: acc)
      | .newline => return acc.reverse
      | .semicolon => return acc.reverse
      | t => unexpected t ""

/-- All positional parameters. -/
def allParameters : Word := .ofParts [.parameter "@" .value (.ofParts []) true]

def each (line : Nat) : Reading Tree := do
  match ← plain (inWords lists) with
  | .word w =>
      match w.literal? with
      | some name =>
          if !isName name then throw "Bad for loop variable"
          else
            let t ← pastBreaks (inWords lists)
            let words ←
              if t.isKeyword "in" then wordsToEnd lists (← steps) []
              else
                match t with
                | .semicolon => pure [allParameters]
                | t =>
                    pushBack t
                    pure [allParameters]
            expect "do" (← pastBreaks (inWords lists))
            let body ← lists .inside
            expect "done" (← orKeyword (inWords lists))
            return .each line name words body
      | none => throw "Bad for loop variable"
  | _ => throw "Bad for loop variable"

/-- Reads patterns up to the parenthesis that closes them, after the first one. Whatever follows a
bar counts as a pattern. -/
def patterns : Nat → List Word → Reading (List Word)
  | 0, acc => return acc.reverse
  | fuel + 1, acc => do
      match ← plain (inWords lists) with
      | .pipe =>
          match ← plain (inWords lists) with
          | .word w => patterns fuel (w :: acc)
          | _ => patterns fuel (.ofParts [] :: acc)
      | .closing => return acc.reverse
      | t => unexpected t Token.closing.name

/-- Reads the branches of a choice. -/
def branches : Nat → List Branch → Reading (List Branch)
  | 0, acc => return acc.reverse
  | fuel + 1, acc => do
      let t ← pastBreaks (inWords lists)
      if t.isKeyword "esac" then return acc.reverse
      else
        let t ←
          match t with
          | .opening => plain (inWords lists)
          | t => pure t
        let first : Word :=
          match t with
          | .word w => w
          | .keyword s => .ofParts [.text s]
          | _ => .ofParts []
        let ps ← patterns lists (← steps) [first]
        let body ← lists .insideOrEmpty
        let acc := .when ps body :: acc
        match ← pastBreaks (inWords lists) with
        | .endBranch => branches fuel acc
        | t =>
            if t.isKeyword "esac" then return acc.reverse
            else unexpected t Token.endBranch.name

def choice (line : Nat) : Reading Tree := do
  match ← plain (inWords lists) with
  | .word subject =>
      let t ← pastBreaks (inWords lists)
      expect "in" t
      return .choice line subject (← branches lists (← steps) [])
  | t => unexpected t "word"

/-- Adds redirections to a command. -/
def redirected (line : Nat) (t : Tree) : List Redirection → Tree
  | [] => t
  | reds =>
      match t with
      | .subshell line body _ => .subshell line body reds
      | t => .redirected line t reds

/-- Reads a command. -/
def command : Nat → Reading Tree
  | 0 => throw ""
  | fuel + 1 => do
      let line := (← get).line
      let t ← orKeyword (inWords lists)
      let finish (act : Reading Tree) : Reading Tree := do
        let t ← act
        return redirected line t (← redirections lists (← steps) [])
      match t with
      | .word _ =>
          let line := (← get).line
          pushBack t
          simple lists (command fuel) line (← steps) [] [] []
      | .redirection _ _ =>
          let line := (← get).line
          pushBack t
          simple lists (command fuel) line (← steps) [] [] []
      | .opening => finish do
          let body ← lists .inside
          match ← orKeyword (inWords lists) with
          | .closing => return .subshell line body []
          | t => unexpected t Token.closing.name
      | .keyword k =>
          if k = "if" then finish (conditional lists (← steps))
          else if k = "while" then finish (loop lists false)
          else if k = "until" then finish (loop lists true)
          else if k = "for" then finish (each lists line)
          else if k = "case" then finish (choice lists line)
          else if k = "\x7b" then finish do
            let body ← lists .inside
            expect "\x7d" (← orKeyword (inWords lists))
            return body
          else unexpected t ""
      | t => unexpected t ""

/-- Reads the commands that are joined to one by pipes. -/
def pipeline : Nat → List Tree → Reading Tree
  | 0, acc => return .pipeline acc.reverse
  | fuel + 1, acc => do
      match ← plain (inWords lists) with
      | .pipe =>
          pushBack (← pastBreaks (inWords lists))
          let next ← command lists (← steps)
          pipeline fuel (next :: acc)
      | t =>
          pushBack t
          match acc with
          | [single] => return single
          | acc => return .pipeline acc.reverse

/-- Reads commands joined by pipes, which may be negated as a whole. -/
def negatable : Reading Tree := do
  let t ← orKeyword (inWords lists)
  if t.isKeyword "!" then
    pushBack (← orKeyword (inWords lists))
    let first ← command lists (← steps)
    return .negation (← pipeline lists (← steps) [first])
  else
    pushBack t
    let first ← command lists (← steps)
    pipeline lists (← steps) [first]

/-- Reads what is joined to a command by `&&` and `||`. -/
def andOr : Nat → Tree → Reading Tree
  | 0, acc => return acc
  | fuel + 1, acc => do
      match ← plain (inWords lists) with
      | .and =>
          pushBack (← pastBreaks (inWords lists))
          andOr fuel (.both acc (← negatable lists))
      | .or =>
          pushBack (← pastBreaks (inWords lists))
          andOr fuel (.either acc (← negatable lists))
      | t =>
          pushBack t
          return acc

/-- Puts a command after others. -/
def append (t : Tree) : Option Tree → Tree
  | none => t
  | some before => .sequence before t

/-- Reads commands up to where a list ends in its place. The token that ends it is put back, unless
it is the end of the line at the outside. -/
def listFrom (place : Place) : Nat → Option Tree → Reading Tree
  | 0, acc => return acc.getD .nothing
  | fuel + 1, acc => do
      let t ← if place = .outside then orKeyword (inWords lists) else pastBreaks (inWords lists)
      match t with
      | .newline => return acc.getD .nothing
      | .endOfFile =>
          pushBack t
          return acc.getD .nothing
      | t =>
          pushBack t
          if t.endsList && place ≠ .outside && (place = .insideOrEmpty || acc.isSome) then
            return acc.getD .nothing
          else
            let next ← andOr lists (← steps) (← negatable lists)
            match ← plain (inWords lists) with
            | .background => listFrom place fuel (append (.background next) acc)
            | .semicolon => listFrom place fuel (append next acc)
            | .newline =>
                pushBack .newline
                listFrom place fuel (append next acc)
            | .endOfFile =>
                pushBack .endOfFile
                return append next acc
            | t =>
                if place = .outside then unexpected t ""
                else
                  pushBack t
                  return append next acc

end

/-- Reads a list of commands; lists inside one another are at most so many. -/
def list : Nat → Place → Reading Tree
  | 0, _ => throw ""
  | depth + 1, place => do
      listFrom (list depth) place ((← steps) + 1) none

/-- Reads the next complete command; `none` at the end of the script. -/
def completeCommand : Reading (Option Tree) := do
  modify fun s => { s with pending := [] }
  match (← get).pushed with
  | some .endOfFile => return none
  | _ =>
      let depth ← steps
      return some (← list depth .outside)

end Reading

end Docset.Shell
