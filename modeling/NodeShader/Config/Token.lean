import NodeShader.Text.Basic
import NodeShader.Text.Cluster
import NodeShader.Text.Name

/-!
# Places in a text

Lines and columns count from one. A column is a grapheme cluster, so a letter with its marks takes
one; a span ends before its second place.
-/

namespace NodeShader.Config

structure Position where
  line : Nat
  column : Nat
  deriving DecidableEq, Repr, Inhabited

structure Span where
  start : Position
  stop : Position
  deriving DecidableEq, Repr, Inhabited

namespace Position

/-- The first place of a text. -/
def first : Position := ⟨1, 1⟩

/-- The place after one cluster: a line feed starts the next line. -/
def step (p : Position) (cluster : List Char) : Position :=
  if cluster = ['\n'] ∨ cluster = ['\r', '\n'] then ⟨p.line + 1, 1⟩ else ⟨p.line, p.column + 1⟩

/-- The place after a text. -/
def advance (p : Position) (text : List Char) : Position := (Text.clusters text).foldl step p

end Position

/-- From where one span starts to where another ends. -/
def Span.through (s t : Span) : Span := ⟨s.start, t.stop⟩

end NodeShader.Config

/-!
## Tokens of configuration files

Outside of templates a file is words, numbers, marks and line ends; blanks and comments only separate
them, and a comment that runs to the end of its line stands for that line end. Quotes and `<<NAME`
open a template, whose text is taken as it stands up to the closing quote or the line that holds
NAME alone. Inside a template `${` and `%{` open a sequence of ordinary tokens up to its closing
brace, so the scanner keeps a stack of what is open (`Scope`).
-/

namespace NodeShader.Config

inductive TokenKind where
  | word (name : String)
  | number (digits : List Char)
  | mark (symbol : String)
  | lineEnd
  | openQuote
  | closeQuote
  /-- The opening of a template by lines; `flush` asks to drop the common indentation. -/
  | openLines (flush : Bool)
  | closeLines
  | text (value : List Char)
  /-- `${`; a tilde asks to drop the blanks before it. -/
  | openValue (trim : Bool)
  /-- `%{`; a tilde asks to drop the blanks before it. -/
  | openControl (trim : Bool)
  /-- The brace that closes a sequence; a tilde asks to drop the blanks after it. -/
  | closeSequence (trim : Bool)
  deriving DecidableEq, Repr

structure Token where
  kind : TokenKind
  span : Span
  deriving DecidableEq, Repr

/-- What the scanner is inside of. -/
inductive Scope where
  /-- Ordinary tokens with a count of open braces. -/
  | plain (braces : Nat)
  | quoted
  | lines (marker : List Char) (atStart : Bool)
  deriving DecidableEq, Repr

/-- Part of the input: what it stands for, if anything, and how many characters it takes. -/
structure Lexeme where
  kind : Option TokenKind
  size : Nat

namespace Lexeme

def gap (size : Nat) : Lexeme := ⟨none, size⟩

def token (kind : TokenKind) (size : Nat) : Lexeme := ⟨some kind, size⟩

end Lexeme

/-! ### Ordinary tokens -/

def marks : List String :=
  ["...", "==", "!=", ">=", "<=", "&&", "||", "=>", "::", "[", "]", "(", ")", ".", ",", "*", "/",
    "%", "+", "-", "=", "<", ">", "!", "?", ":"]

/-- Digits, points and exponents after the first digit of a number. -/
def numberTail : List Char → List Char
  | [] => []
  | c :: cs =>
    if c.isDigit || c = '.' then c :: numberTail cs
    else if c = 'e' || c = 'E' then
      match cs with
      | d :: ds =>
        if d.isDigit then c :: d :: numberTail ds
        else if d = '+' || d = '-' then
          match ds with
          | x :: xs => if x.isDigit then c :: d :: x :: numberTail xs else []
          | [] => []
        else []
      | [] => []
    else []

/-- The number at the front, which ends in no point. -/
def number (cs : List Char) : List Char :=
  (numberTail cs).reverse.dropWhile (· == '.') |>.reverse

/-- How many characters a block comment takes after its opening. -/
def blockComment? : List Char → Option Nat
  | '*' :: '/' :: _ => some 2
  | _ :: cs => (blockComment? cs).map (· + 1)
  | [] => none

/-- A comment that runs to the end of its line, which it includes. -/
def lineComment (cs : List Char) : Lexeme :=
  let body := cs.takeWhile (· != '\n')
  if body.length < cs.length then .token .lineEnd (body.length + 1) else .gap body.length

/-- The opening of a template by lines: whether it is flush, its marker, and its size. -/
def openLines? : List Char → Option (Bool × List Char × Nat)
  | '<' :: '<' :: cs =>
    let flush := cs.head? = some '-'
    let start := if flush then cs.drop 1 else cs
    if start.head?.any Text.isNameStart then
      let marker := start.takeWhile fun c => Text.isNamePart c || c == '-'
      let size := 2 + (if flush then 1 else 0) + marker.length
      match start.drop marker.length with
      | '\n' :: _ => some (flush, marker, size + 1)
      | '\r' :: '\n' :: _ => some (flush, marker, size + 2)
      | _ => none
    else none
  | _ => none

/-- The word, number or mark at the front. -/
def simpleLexeme? (cs : List Char) : Option Lexeme :=
  if cs.head?.any Text.isNameStart then
    let name := cs.takeWhile fun c => Text.isNamePart c || c == '-'
    some (.token (.word (String.ofList name)) name.length)
  else if cs.head?.any Char.isDigit then
    let digits := number cs
    some (.token (.number digits) digits.length)
  else
    (marks.find? fun m => m.toList.isPrefixOf cs).map fun m => .token (.mark m) m.length

/-- The ordinary token at the front, and what is open after it. -/
def plainLexeme? (braces : Nat) (outer : List Scope) (cs : List Char) :
    Option (Lexeme × List Scope) :=
  let same := .plain braces :: outer
  match cs with
  | ' ' :: _ | '\t' :: _ => some (.gap 1, same)
  | '\n' :: _ => some (.token .lineEnd 1, same)
  | '\r' :: '\n' :: _ => some (.token .lineEnd 2, same)
  | '#' :: _ | '/' :: '/' :: _ => some (lineComment cs, same)
  | '/' :: '*' :: rest => (blockComment? rest).map fun n => (.gap (n + 2), same)
  | '"' :: _ => some (.token .openQuote 1, .quoted :: same)
  | '\x7b' :: _ => some (.token (.mark "\x7b") 1, .plain (braces + 1) :: outer)
  | '\x7d' :: _ =>
    match braces, outer with
    | 0, [] => none
    | 0, _ => some (.token (.closeSequence false) 1, outer)
    | n + 1, _ => some (.token (.mark "\x7d") 1, .plain n :: outer)
  | '~' :: '\x7d' :: _ =>
    if braces = 0 ∧ outer ≠ [] then some (.token (.closeSequence true) 2, outer) else none
  | _ =>
    match openLines? cs with
    | some (flush, marker, size) =>
      some (.token (.openLines flush) size, .lines marker true :: same)
    | none => (simpleLexeme? cs).map fun l => (l, same)

/-! ### Templates -/

/-- A sequence that opens at the front. -/
def openSequence? : List Char → Option Lexeme
  | '$' :: '\x7b' :: '~' :: _ => some (.token (.openValue true) 3)
  | '$' :: '\x7b' :: _ => some (.token (.openValue false) 2)
  | '%' :: '\x7b' :: '~' :: _ => some (.token (.openControl true) 3)
  | '%' :: '\x7b' :: _ => some (.token (.openControl false) 2)
  | _ => none

/-- A doubled sign that keeps a sequence from opening: the sign it stands for. -/
def plainSign? : List Char → Option Char
  | '$' :: '$' :: '\x7b' :: _ => some '$'
  | '%' :: '%' :: '\x7b' :: _ => some '%'
  | _ => none

/-- The value of `count` hexadecimal digits at the front. -/
def hexCode? (count : Nat) (cs : List Char) : Option Nat :=
  let ds := cs.take count
  if ds.length = count then
    (ds.mapM Text.hexValue?).map fun vs => vs.foldl (fun n v => 16 * n + v) 0
  else none

/-- The character of an escape after its backslash, and how many characters the escape takes. -/
def escape? : List Char → Option (Char × Nat)
  | 'n' :: _ => some ('\n', 1)
  | 'r' :: _ => some ('\r', 1)
  | 't' :: _ => some ('\t', 1)
  | '"' :: _ => some ('"', 1)
  | '\\' :: _ => some ('\\', 1)
  | 'u' :: cs => (hexCode? 4 cs).bind fun n => if n.isValidChar then some (Char.ofNat n, 5) else none
  | 'U' :: cs => (hexCode? 8 cs).bind fun n => if n.isValidChar then some (Char.ofNat n, 9) else none
  | _ => none

/-- Text up to the quote or sequence that ends it: what it stands for and its size. -/
def quotedText? : List Char → Option (List Char × Nat)
  | [] => none
  | c :: cs =>
    if c = '"' ∨ (openSequence? (c :: cs)).isSome then some ([], 0)
    else if c = '\n' ∨ c = '\r' then none
    else if c = '\\' then
      match escape? cs with
      | some (e, n) => (quotedText? (cs.drop n)).map fun (value, size) => (e :: value, size + n + 1)
      | none => none
    else
      match plainSign? (c :: cs) with
      | some sign =>
        (quotedText? (cs.drop 2)).map fun (value, size) => (sign :: '\x7b' :: value, size + 3)
      | none => (quotedText? cs).map fun (value, size) => (c :: value, size + 1)
termination_by cs => cs.length
decreasing_by all_goals (simp only [List.length_cons, List.length_drop]; omega)

/-- The template token at the front inside quotes. -/
def quotedLexeme? (outer : List Scope) (cs : List Char) : Option (Lexeme × List Scope) :=
  match cs with
  | '"' :: _ => some (.token .closeQuote 1, outer)
  | _ =>
    match openSequence? cs with
    | some l => some (l, .plain 0 :: .quoted :: outer)
    | none =>
      (quotedText? cs).map fun (value, size) => (.token (.text value) size, .quoted :: outer)

/-- Text up to and including the line end, or up to a sequence: what it stands for, its size, and
whether the line ended. -/
def lineText? : List Char → Option (List Char × Nat × Bool)
  | [] => none
  | c :: cs =>
    if c = '\n' then some (['\n'], 1, true)
    else if c = '\r' then
      if cs.head? = some '\n' then some (['\r', '\n'], 2, true) else none
    else if (openSequence? (c :: cs)).isSome then some ([], 0, false)
    else
      match plainSign? (c :: cs) with
      | some sign =>
        (lineText? (cs.drop 2)).map fun (value, size, ended) =>
          (sign :: '\x7b' :: value, size + 3, ended)
      | none => (lineText? cs).map fun (value, size, ended) => (c :: value, size + 1, ended)
termination_by cs => cs.length
decreasing_by all_goals (simp only [List.length_cons, List.length_drop]; omega)

/-- The template token at the front of a template by lines. -/
def linesLexeme? (marker : List Char) (atStart : Bool) (outer : List Scope) (cs : List Char) :
    Option (Lexeme × List Scope) :=
  match openSequence? cs with
  | some l => some (l, .plain 0 :: .lines marker false :: outer)
  | none =>
    match lineText? cs with
    | none => none
    | some (value, size, ended) =>
      let line := cs.take size
      if ended ∧ atStart ∧ (Text.trim (String.ofList line)).toList = marker then
        let body := (line.takeWhile fun c => c != '\n' && c != '\r').length
        some (.token .closeLines body, outer)
      else some (.token (.text value) size, .lines marker ended :: outer)

/-! ### The whole -/

/-- The token at the front. -/
def lexeme? (scopes : List Scope) (cs : List Char) : Option (Lexeme × List Scope) :=
  match scopes with
  | [] => none
  | .plain braces :: outer => plainLexeme? braces outer cs
  | .quoted :: outer => quotedLexeme? outer cs
  | .lines marker atStart :: outer => linesLexeme? marker atStart outer cs

/-- The tokens of a text from a place on, unless some part is none or a template is left open. -/
def scanFrom? (scopes : List Scope) (place : Position) : List Char → Option (List Token)
  | [] =>
    match scopes with
    | [.plain _] => some []
    | _ => none
  | c :: cs =>
    match lexeme? scopes (c :: cs) with
    | none => none
    | some (⟨kind, size⟩, scopes) =>
      let stop := place.advance ((c :: cs).take size)
      let rest := scanFrom? scopes stop (cs.drop (size - 1))
      match kind with
      | some kind => rest.map (⟨kind, ⟨place, stop⟩⟩ :: ·)
      | none => rest
termination_by cs => cs.length
decreasing_by all_goals (simp only [List.length_cons, List.length_drop]; omega)

/-- The tokens of a file; a byte order mark at its start does not count. -/
def scan? (source : List Char) : Option (List Token) :=
  match source with
  | '\uFEFF' :: rest => scanFrom? [.plain 0] .first rest
  | _ => scanFrom? [.plain 0] .first source

end NodeShader.Config
