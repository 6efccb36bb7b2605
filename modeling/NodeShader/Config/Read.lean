import NodeShader.Config.Expr
import NodeShader.Config.Token

/-!
# Reading configuration files

`Body.parse?` reads a whole file, or nothing if any part of it is outside the grammar. Line ends part
attributes, blocks and the items of objects; inside other brackets they do not count, so readers
take a flag that tells whether line ends count where they stand.
-/

namespace NodeShader.Config

/-- Readers take tokens off the front. -/
abbrev Reader := StateT (List Token) Option

/-- An expression and where it stands. -/
abbrev Placed := Expr × Span

namespace Reader

def isLineEnd (t : Token) : Bool := t.kind = .lineEnd

/-- The tokens from here on, without the line ends before them where those do not count. -/
def ahead (lines : Bool) : Reader (List Token) := do
  if !lines then modify (·.dropWhile isLineEnd)
  get

/-- Takes the next token, if it passes a test. -/
def accept {α : Type} (lines : Bool) (test : TokenKind → Option α) : Reader (Option (α × Span)) := do
  match ← ahead lines with
  | t :: rest =>
    match test t.kind with
    | some a =>
      set rest
      return some (a, t.span)
    | none => return none
  | [] => return none

/-- Takes a token that must be there. -/
def expect {α : Type} (lines : Bool) (test : TokenKind → Option α) : Reader (α × Span) := do
  match ← accept lines test with
  | some found => return found
  | none => failure

def isMark (symbol : String) : TokenKind → Option Unit
  | .mark m => if m = symbol then some () else none
  | _ => none

def isWord : TokenKind → Option String
  | .word w => some w
  | _ => none

def isKeyword (word : String) : TokenKind → Option Unit
  | .word w => if w = word then some () else none
  | _ => none

def isSequenceEnd : TokenKind → Option Bool
  | .closeSequence trim => some trim
  | _ => none

/-- Takes a mark, if it comes next. -/
def acceptMark (lines : Bool) (symbol : String) : Reader (Option Span) := do
  return (← accept lines (isMark symbol)).map (·.2)

/-- Takes a mark that must come next. -/
def expectMark (lines : Bool) (symbol : String) : Reader Span := do
  return (← expect lines (isMark symbol)).2

def ofOption {α : Type} (a : Option α) : Reader α := fun ts => a.map fun a => (a, ts)

/-- Whether the next token, line ends aside, starts a loop. -/
def startsLoop : Reader Bool := fun ts =>
  match ts.dropWhile isLineEnd with
  | t :: _ => some (t.kind = .word "for", ts)
  | [] => some (false, ts)

end Reader

open Reader

/-- The operators by level; a higher level binds closer. -/
def operator? (level : Nat) : TokenKind → Option BinaryOp
  | .mark m =>
    match level, m with
    | 0, "||" => some .or
    | 1, "&&" => some .and
    | 2, "==" => some .equal
    | 2, "!=" => some .notEqual
    | 3, ">" => some .greater
    | 3, ">=" => some .greaterEqual
    | 3, "<" => some .less
    | 3, "<=" => some .lessEqual
    | 4, "+" => some .add
    | 4, "-" => some .subtract
    | 5, "*" => some .multiply
    | 5, "/" => some .divide
    | 5, "%" => some .modulo
    | _, _ => none
  | _ => none

/-- The level above those of the operators. -/
def operandLevel : Nat := 6

/-- A name by itself; some names are literals. -/
def named (name : String) : Expr :=
  match name with
  | "true" => .literal (.bool true)
  | "false" => .literal (.bool false)
  | "null" => .literal (.null .any)
  | _ => .name name []

/-- A number that indexes after a point has no point of its own. -/
def indexNumber? (digits : List Char) : Option Value :=
  if digits.contains '.' then none else (Number.parse? digits).map .number

/-- The variables of a loop, up to and including `in`. -/
def loopVariables : Reader LoopVariables := do
  let (first, _) ← expect false isWord
  let vars : LoopVariables ←
    match ← acceptMark false "," with
    | some _ =>
      let (second, _) ← expect false isWord
      pure ⟨some first, second⟩
    | none => pure ⟨none, first⟩
  let _ ← expect false (isKeyword "in")
  return vars

/-- The rest of a function's name after its first word: words behind double colons. -/
def functionName : (fuel : Nat) → (lines : Bool) → String → Reader String
  | 0, _, _ => failure
  | fuel + 1, lines, name => do
    match ← acceptMark lines "::" with
    | some _ =>
      let (word, _) ← expect lines isWord
      functionName fuel lines (name ++ "::" ++ word)
    | none => return name

/-- The steps after a star: names and numbers behind points. -/
def starSteps : (fuel : Nat) → (lines : Bool) → Span → Reader (List Step × Span)
  | 0, _, _ => failure
  | fuel + 1, lines, last => do
    match ← acceptMark lines "." with
    | none => return ([], last)
    | some _ =>
      let test : TokenKind → Option Step
        | .word w => some (.field w)
        | .number digits => (indexNumber? digits).map .index
        | _ => none
      let (step, span) ← expect lines test
      let (rest, last) ← starSteps fuel lines span
      return (step :: rest, last)

mutual

/-- An expression. -/
def expression : (fuel : Nat) → (lines : Bool) → Reader Placed
  | 0, _ => failure
  | fuel + 1, lines => do
    let (condition, start) ← binary fuel 0 lines
    match ← acceptMark lines "?" with
    | none => return (condition, start)
    | some _ =>
      let (yes, _) ← expression fuel lines
      let _ ← expectMark lines ":"
      let (no, stop) ← expression fuel lines
      return (.choice condition yes no, start.through stop)

/-- Operands joined by operators of a level or above. -/
def binary : (fuel level : Nat) → (lines : Bool) → Reader Placed
  | 0, _, _ => failure
  | fuel + 1, level, lines => do
    if level = operandLevel then operand fuel lines
    else
      let left ← binary fuel (level + 1) lines
      binaryRest fuel level lines left

/-- What operators of a level join to a left operand, from left to right. -/
def binaryRest : (fuel level : Nat) → (lines : Bool) → Placed → Reader Placed
  | 0, _, _, _ => failure
  | fuel + 1, level, lines, (left, start) => do
    match ← accept lines (operator? level) with
    | none => return (left, start)
    | some (op, _) =>
      let (right, stop) ← binary fuel (level + 1) lines
      binaryRest fuel level lines (.binary op left right, start.through stop)

/-- A term and the steps into it. -/
def operand : (fuel : Nat) → (lines : Bool) → Reader Placed
  | 0, _ => failure
  | fuel + 1, lines => do
    let (e, span) ← term fuel lines
    traversal fuel lines span (e, span)

/-- A term. -/
def term : (fuel : Nat) → (lines : Bool) → Reader Placed
  | 0, _ => failure
  | fuel + 1, lines => do
    match ← ahead lines with
    | [] => failure
    | t :: rest =>
      set rest
      match t.kind with
      | .number digits =>
        let n ← ofOption (Number.parse? digits)
        return (.literal (.number n), t.span)
      | .word w => wordTerm fuel lines w t.span
      | .openQuote =>
        let (cuts, stop) ← pieces fuel .closeQuote
        return (← ofOption (Piece.assemble? false cuts), t.span.through stop)
      | .openLines flush =>
        let (cuts, stop) ← pieces fuel .closeLines
        return (← ofOption (Piece.assemble? flush cuts), t.span.through stop)
      | .mark "(" =>
        let (e, _) ← expression fuel false
        let stop ← expectMark false ")"
        return (.parens e, t.span.through stop)
      | .mark "-" =>
        let (e, stop) ← operand fuel lines
        return (.unary .negate e, t.span.through stop)
      | .mark "!" =>
        let (e, stop) ← operand fuel lines
        return (.unary .not e, t.span.through stop)
      | .mark "[" =>
        if ← startsLoop then
          let (e, stop) ← loopIn fuel "]"
          return (e, t.span.through stop)
        else
          let (items, stop) ← items fuel "]"
          return (.tuple items, t.span.through stop)
      | .mark "\x7b" =>
        if ← startsLoop then
          let (e, stop) ← loopIn fuel "\x7d"
          return (e, t.span.through stop)
        else
          let (items, stop) ← objectItems fuel
          return (.object items, t.span.through stop)
      | _ => failure

/-- A word: a call if a parenthesis follows, else a name. -/
def wordTerm : (fuel : Nat) → (lines : Bool) → String → Span → Reader Placed
  | 0, _, _, _ => failure
  | fuel + 1, lines, word, span => do
    let function ← functionName fuel lines word
    match ← acceptMark lines "(" with
    | some _ =>
      let stop ← arguments fuel
      return (.call function, span.through stop)
    | none => if function = word then return (named word, span) else failure

/-- The arguments of a call, up to and including the parenthesis that closes it. -/
def arguments : (fuel : Nat) → Reader Span
  | 0 => failure
  | fuel + 1 => do
    match ← acceptMark false ")" with
    | some stop => return stop
    | none =>
      let _ ← expression fuel false
      match ← acceptMark false "," with
      | some _ => arguments fuel
      | none =>
        let _ ← acceptMark false "..."
        expectMark false ")"

/-- The items of a tuple up to its closing bracket; a comma may stand after the last. -/
def items : (fuel : Nat) → (close : String) → Reader (List Expr × Span)
  | 0, _ => failure
  | fuel + 1, close => do
    match ← acceptMark false close with
    | some stop => return ([], stop)
    | none =>
      let (e, _) ← expression fuel false
      match ← acceptMark false "," with
      | some _ =>
        let (rest, stop) ← items fuel close
        return (e :: rest, stop)
      | none => return ([e], ← expectMark false close)

/-- The items of an object up to its closing brace, parted by commas or line ends. -/
def objectItems : (fuel : Nat) → Reader (List Item × Span)
  | 0 => failure
  | fuel + 1 => do
    match ← acceptMark false "\x7d" with
    | some stop => return ([], stop)
    | none =>
      let computed := (← ahead true).head?.any fun t => t.kind = .mark "("
      let (key, keySpan) ← expression fuel true
      let isAssign : TokenKind → Option Unit
        | .mark "=" | .mark ":" => some ()
        | _ => none
      let _ ← expect true isAssign
      let (value, valueSpan) ← expression fuel true
      let item := Item.mk key computed keySpan value valueSpan
      match ← acceptMark true "\x7d" with
      | some stop => return ([item], stop)
      | none =>
        let isSeparator : TokenKind → Option Unit
          | .mark "," | .lineEnd => some ()
          | _ => none
        let _ ← expect true isSeparator
        let (rest, stop) ← objectItems fuel
        return (item :: rest, stop)

/-- A loop up to its closing bracket. One in braces makes an object and needs keys. -/
def loopIn : (fuel : Nat) → (close : String) → Reader Placed
  | 0, _ => failure
  | fuel + 1, close => do
    let _ ← expect false (isKeyword "for")
    let vars ← loopVariables
    let (collection, _) ← expression fuel false
    let _ ← expectMark false ":"
    let (first, _) ← expression fuel false
    let second : Option Expr ←
      match ← acceptMark false "=>" with
      | some _ => do
        let (e, _) ← expression fuel false
        pure (some e)
      | none => pure none
    let group := (← acceptMark false "...").isSome
    let condition : Option Expr ←
      match ← accept false (isKeyword "if") with
      | some _ => do
        let (e, _) ← expression fuel false
        pure (some e)
      | none => pure none
    let stop ← expectMark false close
    match second with
    | some result =>
      if close = "\x7d" then return (.loopObject vars collection first result group condition, stop)
      else failure
    | none =>
      if close = "\x7d" || group then failure
      else return (.loopTuple vars collection first condition, stop)

/-- The steps into an expression; `start` is where the whole began. -/
def traversal : (fuel : Nat) → (lines : Bool) → (start : Span) → Placed → Reader Placed
  | 0, _, _, _ => failure
  | fuel + 1, lines, start, (e, span) => do
    match ← acceptMark lines "." with
    | some _ =>
      match ← acceptMark lines "*" with
      | some star =>
        let (ss, last) ← starSteps fuel lines star
        let each := if ss.isEmpty then Expr.element else .steps .element ss
        traversal fuel lines start (.splat e each, start.through last)
      | none =>
        let test : TokenKind → Option Step
          | .word w => some (.field w)
          | .number digits => (indexNumber? digits).map .index
          | _ => none
        let (s, last) ← expect lines test
        traversal fuel lines start (e.step s, span.through last)
    | none =>
      match ← acceptMark lines "[" with
      | some opening =>
        match ← acceptMark lines "*" with
        | some _ =>
          let close ← expectMark lines "]"
          let bracket := opening.through close
          let (each, stop) ← traversal fuel lines bracket (.element, bracket)
          traversal fuel lines start (.splat e each, start.through stop)
        | none =>
          let (key, _) ← expression fuel false
          let close ← expectMark false "]"
          match key.fixedKey? with
          | some v => traversal fuel lines start (e.step (.index v), span.through close)
          | none => traversal fuel lines start (.index e key, start.through close)
      | none => return (e, span)

/-- The pieces of a template up to the token that closes it. -/
def pieces : (fuel : Nat) → (close : TokenKind) → Reader (List Cut × Span)
  | 0, _ => failure
  | fuel + 1, close => do
    match ← get with
    | [] => failure
    | t :: rest =>
      set rest
      if t.kind = close then return ([], t.span)
      else
        let cut : Cut ←
          match t.kind with
          | .text value => pure ⟨.text value, false, false⟩
          | .openValue before => do
            let (e, _) ← expression fuel false
            let (after, _) ← expect false isSequenceEnd
            pure ⟨.value e, before, after⟩
          | .openControl before => do
            let piece ← control fuel
            let (after, _) ← expect false isSequenceEnd
            pure ⟨piece, before, after⟩
          | _ => failure
        let (cuts, stop) ← pieces fuel close
        return (cut :: cuts, stop)

/-- The mark of a choice or loop in a template. -/
def control : (fuel : Nat) → Reader Piece
  | 0 => failure
  | fuel + 1 => do
    let (word, _) ← expect false isWord
    match word with
    | "if" => do
      let (e, _) ← expression fuel false
      return .openIf e
    | "else" => return .otherwise
    | "endif" => return .closeIf
    | "for" => do
      let vars ← loopVariables
      let (e, _) ← expression fuel false
      return .openFor vars e
    | "endfor" => return .closeFor
    | _ => failure

end

/-! ### Bodies -/

/-- A label in quotes, which holds no sequences. -/
def quotedLabel : (fuel : Nat) → Reader (List Char × Span)
  | 0 => failure
  | fuel + 1 => do
    let test : TokenKind → Option (Option (List Char))
      | .closeQuote => some none
      | .text value => some (some value)
      | _ => none
    match ← expect true test with
    | (none, stop) => return ([], stop)
    | (some value, _) =>
      let (rest, stop) ← quotedLabel fuel
      return (value ++ rest, stop)

/-- The labels of a block up to its opening brace, and where the last one stands. -/
def labels : (fuel : Nat) → Span → Reader (List String × Span)
  | 0, _ => failure
  | fuel + 1, last => do
    match ← acceptMark true "\x7b" with
    | some _ => return ([], last)
    | none =>
      match ← accept true isWord with
      | some (word, span) =>
        let (rest, last) ← labels fuel span
        return (word :: rest, last)
      | none =>
        let (_, start) ← expect true fun k => if k = .openQuote then some () else none
        let (label, stop) ← quotedLabel fuel
        let (rest, last) ← labels fuel (start.through stop)
        return (String.ofList label :: rest, last)

/-- The end of a line or of the file. -/
def lineEnd : Reader Unit := fun ts =>
  match ts with
  | [] => some ((), [])
  | t :: rest => if t.kind = .lineEnd then some ((), rest) else none

/-- A body with one more attribute, unless it has one of the name. -/
def Body.addAttribute? (b : Body) (a : Attribute) : Option Body :=
  if b.attributes.any fun other => other.name == a.name then none
  else some { b with attributes := a :: b.attributes }

mutual

/-- Attributes and blocks up to the end: that of the file, or a closing brace. -/
def body : (fuel : Nat) → (inner : Bool) → Reader Body
  | 0, _ => failure
  | fuel + 1, inner => do
    match ← ahead false with
    | [] => if inner then failure else return ⟨[], []⟩
    | t :: rest =>
      set rest
      match t.kind with
      | .mark "\x7d" => if inner then return ⟨[], []⟩ else failure
      | .word name =>
        match ← acceptMark true "=" with
        | some _ =>
          let (expr, _) ← expression (16 * (rest.length + 2)) true
          lineEnd
          let others ← body fuel inner
          ofOption (others.addAttribute? ⟨name, expr⟩)
        | none =>
          let block ← block fuel name t.span
          let others ← body fuel inner
          return { others with blocks := block :: others.blocks }
      | _ => failure

/-- A block after its kind. On one line it holds at most one attribute. -/
def block : (fuel : Nat) → (kind : String) → Span → Reader Block
  | 0, _, _ => failure
  | fuel + 1, kind, start => do
    let (labels, last) ← labels fuel start
    let content : Body ←
      match ← accept true isWord with
      | some (name, _) => do
        let _ ← expectMark true "="
        let (expr, _) ← expression (16 * ((← get).length + 2)) true
        let _ ← expectMark true "\x7d"
        pure ⟨[⟨name, expr⟩], []⟩
      | none => do
        let ends := (← get).head?.any fun t => t.kind = .lineEnd || t.kind = .mark "\x7d"
        if ends then body fuel true else failure
    lineEnd
    return .mk kind labels (start.through last) content.attributes content.blocks

end

/-- Reads a file, or nothing if some part of it is outside the grammar. Between two tokens the readers
call each other at most a dozen times, so the fuel never runs out first. -/
def Body.parse? (source : String) : Option Body := do
  let tokens ← scan? source.toList
  let (b, _) ← (body (2 * tokens.length + 2) false).run tokens
  return b

end NodeShader.Config
