import NodeShader.Number.FloatFormat
import NodeShader.Text.Basic
import NodeShader.Text.Scalar

/-!
# Tokens of expressions

An expression is split into words, marks and literals, each as long as it can be, with blanks and
comments from `//` to the end of the line between them (`tokens?`). Text literals are read in two
steps: `quoted?` finds where one ends and `unescape?` replaces its escape sequences.
-/

namespace NodeShader.Math

inductive Token where
  | word (name : String)
  | mark (symbol : String)
  | integer (value : Nat)
  | unsigned (value : Nat)
  | decimal (value : Float)
  | text (value : String)
  | bytes (value : List UInt8)
  deriving Inhabited

/-! ### Character classes -/

def isWordStart (c : Char) : Bool := c.isAlpha || c == '_'

def isWordPart (c : Char) : Bool := isWordStart c || c.isDigit

def isGap (c : Char) : Bool := [' ', '\t', '\n', '\r', '\x0c'].contains c

def marks : List String :=
  ["==", "!=", "<=", ">=", "&&", "||", "<", ">", "[", "]", "\x7b", "\x7d", "(", ")", ".", ",",
    "-", "!", "?", ":", "+", "*", "/", "%"]

/-- A token and the number of characters it takes. -/
abbrev Lexeme := Token × Nat

/-! ### Numbers -/

/-- The value of hexadecimal digits. -/
def hexNumber (cs : List Char) : Nat :=
  cs.foldl (fun n c => 16 * n + (Text.hexValue? c).getD 0) 0

/-- The exponent part at the front, with the number of characters it takes. -/
def exponent? : List Char → Option (Int × Nat)
  | c :: cs =>
    if c = 'e' ∨ c = 'E' then
      let (negative, ds) := Text.splitSign cs
      let digits := ds.takeWhile Char.isDigit
      (Text.digitsValue? digits).map fun (n : Nat) =>
        (if negative then -(n : Int) else n, 1 + (cs.length - ds.length) + digits.length)
    else none
  | [] => none

/-- The number with the given digits before and after the point, unless it is beyond the range. -/
def decimal? (whole part : List Char) (power : Int) : Option Float :=
  let digits := (Text.digitsValue? (whole ++ part)).getD 0
  let size : Int := (Nat.toDigits 10 digits).length + power - part.length
  let bits :=
    if digits = 0 ∨ size < -400 then some (FloatFormat.binary64.round false 0 1)
    else if 400 < size then none
    else some (FloatFormat.binary64.ofDecimal false digits (power - part.length))
  match bits with
  | some bits =>
    if FloatFormat.binary64.decode bits = .infinite false then none else some (floatOfPattern bits)
  | none => none

/-- An integer, which a `u` after its digits makes unsigned. -/
def integerLexeme (value size : Nat) : List Char → Lexeme
  | c :: _ => if c = 'u' ∨ c = 'U' then (.unsigned value, size + 1) else (.integer value, size)
  | [] => (.integer value, size)

/-- The number at the front. -/
def number? (cs : List Char) : Option Lexeme :=
  let whole := cs.takeWhile Char.isDigit
  let rest := cs.dropWhile Char.isDigit
  let part :=
    match rest with
    | '.' :: ds => ds.takeWhile Char.isDigit
    | _ => []
  if !part.isEmpty then
    let size := whole.length + 1 + part.length
    match exponent? (cs.drop size) with
    | some (power, n) => (decimal? whole part power).map fun x => (.decimal x, size + n)
    | none => (decimal? whole part 0).map fun x => (.decimal x, size)
  else if whole.isEmpty then none
  else
    match exponent? rest with
    | some (power, n) => (decimal? whole [] power).map fun x => (.decimal x, whole.length + n)
    | none =>
      match cs with
      | '0' :: 'x' :: ds =>
        let digits := ds.takeWhile fun c => (Text.hexValue? c).isSome
        if digits.isEmpty then some (.integer 0, 1)
        else some (integerLexeme (hexNumber digits) (2 + digits.length) (ds.drop digits.length))
      | _ => (Text.digitsValue? whole).map fun n => integerLexeme n whole.length rest

/-! ### Text -/

/-- What stands before the closing quotes, and what follows them. Text in single quotes stays on
its line; unless it is raw, the character after a backslash closes nothing. -/
def quoted? (raw triple : Bool) (quote : Char) : List Char → Option (List Char × List Char)
  | [] => none
  | [c] => if c = quote ∧ !triple then some ([], []) else none
  | c :: d :: cs =>
    if c = quote ∧ !triple then some ([], d :: cs)
    else if c = quote ∧ d = quote ∧ cs.head? = some quote then some ([], cs.drop 1)
    else if !triple && (c = '\n' || c = '\r') then none
    else if c = '\\' ∧ !raw then
      (quoted? raw triple quote cs).map fun (body, rest) => (c :: d :: body, rest)
    else (quoted? raw triple quote (d :: cs)).map fun (body, rest) => (c :: body, rest)

/-- Line ends of every kind become line feeds. -/
def joinLines : List Char → List Char
  | '\r' :: '\n' :: cs => '\n' :: joinLines cs
  | '\r' :: cs => '\n' :: joinLines cs
  | c :: cs => c :: joinLines cs
  | [] => []

/-- The character a letter after a backslash stands for. -/
def escapeLetter? : Char → Option Char
  | 'a' => some '\x07'
  | 'b' => some '\x08'
  | 'f' => some '\x0c'
  | 'n' => some '\n'
  | 'r' => some '\r'
  | 't' => some '\t'
  | 'v' => some '\x0b'
  | '\\' => some '\\'
  | '\'' => some '\''
  | '"' => some '"'
  | '\x60' => some '\x60'
  | '?' => some '?'
  | _ => none

/-- The kinds of literal differ in what their elements are. -/
structure Alphabet (α : Type) where
  plain : Char → List α
  /-- What an escape by code stands for. -/
  code? : Nat → Option (List α)
  /-- Whether escapes of four and eight digits may be used. -/
  wide : Bool

/-- Text: codes stand for characters. -/
def Alphabet.characters : Alphabet Char where
  plain c := [c]
  code? n := if n.isValidChar then some [Char.ofNat n] else none
  wide := true

/-- Bytes: characters are written in UTF-8 and codes stand for bytes. -/
def Alphabet.octets : Alphabet UInt8 where
  plain := String.utf8EncodeChar
  code? n := some [n.toUInt8]
  wide := false

/-- The code of an escape after its backslash, and how many characters it takes. -/
def escapeCode? (wide : Bool) : List Char → Option (Nat × Nat)
  | c :: cs =>
    let digits (count : Nat) : Option (Nat × Nat) :=
      let ds := cs.take count
      if ds.length = count ∧ ds.all fun d => (Text.hexValue? d).isSome then
        some (hexNumber ds, count + 1)
      else none
    if c = 'x' ∨ c = 'X' then digits 2
    else if c = 'u' then if wide then digits 4 else none
    else if c = 'U' then if wide then digits 8 else none
    else
      match cs with
      | d :: e :: _ =>
        let octal (c : Char) (most : Nat) : Option Nat :=
          if '0' ≤ c ∧ c.toNat ≤ 48 + most then some (c.toNat - 48) else none
        match octal c 3, octal d 7, octal e 7 with
        | some a, some b, some c => some (64 * a + 8 * b + c, 3)
        | _, _, _ => none
      | _ => none
  | [] => none

/-- The elements of a literal. -/
def unescape? {α : Type} (alphabet : Alphabet α) : List Char → Option (List α)
  | [] => some []
  | c :: cs =>
    if c = '\\' then
      match cs.head?.bind escapeLetter? with
      | some e => (unescape? alphabet (cs.drop 1)).map (alphabet.plain e ++ ·)
      | none =>
        match escapeCode? alphabet.wide cs with
        | some (n, size) =>
          match alphabet.code? n with
          | some front => (unescape? alphabet (cs.drop size)).map (front ++ ·)
          | none => none
        | none => none
    else (unescape? alphabet cs).map (alphabet.plain c ++ ·)
termination_by cs => cs.length
decreasing_by all_goals (simp only [List.length_cons, List.length_drop]; omega)

/-- The text of a literal whose quotes start at the front, and the number of characters taken. -/
def literal? (raw : Bool) (cs : List Char) : Option (List Char × Nat) := do
  let quote ← cs.head?
  if quote ≠ '"' ∧ quote ≠ '\'' then none
  else
    let long :=
      if cs.take 3 = [quote, quote, quote] then quoted? raw true quote (cs.drop 3) else none
    let (body, rest) ← long <|> quoted? raw false quote (cs.drop 1)
    return (body, cs.length - rest.length)

/-- A text or byte literal with its marks: `b` for bytes, then `r` for raw. -/
def textLexeme? (cs : List Char) : Option (Option Lexeme) :=
  let take (c d : Char) (cs : List Char) : Bool × List Char :=
    match cs with
    | h :: t => if h = c ∨ h = d then (true, t) else (false, cs)
    | [] => (false, cs)
  let (isBytes, afterBytes) := take 'b' 'B' cs
  let (raw, start) := take 'r' 'R' afterBytes
  (literal? raw start).map fun (body, size) =>
    let size := cs.length - start.length + size
    let body := joinLines body
    if isBytes then
      (if raw then some (body.flatMap String.utf8EncodeChar) else unescape? .octets body).map
        fun bs => (.bytes bs, size)
    else
      (if raw then some body else unescape? .characters body).map
        fun cs => (.text (String.ofList cs), size)

/-! ### The whole -/

/-- The token at the front of a text that starts with no blank. -/
def lexeme? (cs : List Char) : Option Lexeme :=
  match textLexeme? cs with
  | some found => found
  | none =>
    if cs.head?.any isWordStart then
      let name := cs.takeWhile isWordPart
      some (.word (String.ofList name), name.length)
    else
      match number? cs with
      | some found => some found
      | none =>
        if cs.head?.any Char.isDigit then none
        else
          (marks.find? fun m => m.toList.isPrefixOf cs).map fun m => (.mark m, m.length)

/-- All tokens of an expression, unless some part is none. -/
def tokens? : List Char → Option (List Token)
  | [] => some []
  | c :: cs =>
    if isGap c then tokens? cs
    else if c = '/' ∧ cs.head? = some '/' then tokens? (cs.dropWhile (· != '\n'))
    else
      match lexeme? (c :: cs) with
      | some (token, size) => (tokens? (cs.drop (size - 1))).map (token :: ·)
      | none => none
termination_by cs => cs.length
decreasing_by
  · simp
  · simp only [List.length_cons]
    exact Nat.lt_succ_of_le (List.dropWhile_suffix _).length_le
  · simp only [List.length_cons, List.length_drop]; omega

end NodeShader.Math
