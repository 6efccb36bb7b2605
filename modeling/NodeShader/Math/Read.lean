import NodeShader.Math.Expr
import NodeShader.Math.Token

/-!
# Syntax of expressions

Expressions are written in a general expression language: choices, logic, comparisons, arithmetic,
member selection, calls, lists, maps and messages. Only a part of it has a meaning here, so the
tree keeps what later checks need to know and folds the rest into `Term.other`.

`Term.ofTokens?` reads a whole expression. It gives up on text outside the grammar, on reserved
words used as names, on literals out of range, on text nested deeper than `maxDepth` (`Nesting`)
and on trees higher than that (`Term.height`).
-/

namespace NodeShader.Math

/-- A literal that is not a number. -/
inductive Literal where
  | text (value : String)
  | bytes (value : List UInt8)
  | bool (value : Bool)
  | null
  deriving DecidableEq, Repr, Inhabited

/-- A parsed expression. -/
inductive Term where
  | number (value : Float)
  | literal (value : Literal)
  | name (name : String)
  | call (function : String) (args : List Term)
  | member (function : String) (target : Term) (args : List Term)
  | select (target : Term)
  /-- A loop over a target. -/
  | loop (target : Term) (args : List Term)
  /-- A list, map or message. -/
  | other (items : List Term)
  deriving Inhabited

namespace Term

/-- Words with a meaning of their own. -/
def keywords : List String := ["in", "true", "false", "null"]

/-- Words that name neither a value nor a function. -/
def reserved : List String :=
  ["as", "break", "const", "continue", "else", "for", "function", "if", "import", "let", "loop",
    "package", "namespace", "return", "var", "void", "while"]

/-- How deep expressions may be nested. -/
def maxDepth : Nat := 250

/-- How many brackets and operators a reader stands in. A comparison or arithmetic operator holds its
right operand; what stands left of it is over by the time it is read. -/
structure Nesting where
  /-- Expressions: the whole, those in brackets, and the last result of a choice. -/
  expressions : Nat
  comparisons : Nat
  sums : Nat
  deriving DecidableEq, Repr

namespace Nesting

def outside : Nesting := ⟨0, 0, 0⟩

/-- Inside one more expression, unless that is too deep. -/
def expression? (n : Nesting) : Option Nesting :=
  if n.expressions < maxDepth then some { n with expressions := n.expressions + 1 } else none

/-- Inside one more operand of comparisons, unless that is too deep. -/
def comparison? (n : Nesting) : Option Nesting :=
  if n.comparisons < maxDepth then some { n with comparisons := n.comparisons + 1 } else none

/-- Inside one more operand of arithmetic, unless that is too deep. -/
def sum? (n : Nesting) : Option Nesting :=
  if n.sums < maxDepth then some { n with sums := n.sums + 1 } else none

end Nesting

/-- The function an operator calls, by the level of the operator: a higher level binds closer. -/
def operator? (level : Nat) : Token → Option String
  | .mark m =>
    match level, m with
    | 0, "||" => some "_||_"
    | 1, "&&" => some "_&&_"
    | 2, "<" => some "_<_"
    | 2, "<=" => some "_<=_"
    | 2, ">" => some "_>_"
    | 2, ">=" => some "_>=_"
    | 2, "==" => some "_==_"
    | 2, "!=" => some "_!=_"
    | 3, "+" => some "_+_"
    | 3, "-" => some "_-_"
    | 4, "*" => some "_*_"
    | 4, "/" => some "_/_"
    | 4, "%" => some "_%_"
    | _, _ => none
  | .word "in" => if level = 2 then some "@in" else none
  | _ => none

/-- The level of comparisons. -/
def comparisonLevel : Nat := 2

/-- The first level of arithmetic. -/
def sumLevel : Nat := 3

/-- The level above those of the binary operators. -/
def unaryLevel : Nat := 5

/-- Where the first operand of a level stands: comparisons and sums start inside themselves. -/
def Nesting.first? (n : Nesting) (level : Nat) : Option Nesting :=
  if level = comparisonLevel then n.comparison?
  else if level = sumLevel then n.sum?
  else some n

/-- Where the right operand of an operator of a level stands. -/
def Nesting.right? (n : Nesting) (level : Nat) : Option Nesting :=
  if level = comparisonLevel then n.comparison?
  else if sumLevel ≤ level then n.sum?
  else some n

/-- The operators that make a tree higher: choices, comparisons, arithmetic and look-ups. -/
def raising : List String :=
  ["_?_:_", "_<_", "_<=_", "_>_", "_>=_", "_==_", "_!=_", "@in", "_+_", "_-_", "_*_", "_/_", "_%_",
    "_[_]"]

mutual

/-- The height of a tree. Logic, signs, plain calls and brackets add nothing to it. -/
def height : Term → Nat
  | number _ | literal _ | name _ => 0
  | call f args => if raising.contains f then heights args + 1 else heights args
  | member _ target args | loop target args => max target.height (heights args) + 1
  | select target => target.height + 1
  | other items => heights items

/-- The height of the highest tree. -/
def heights : List Term → Nat
  | [] => 0
  | t :: ts => max t.height (heights ts)

end

/-- What a call of a function on no target stands for: a test for a field is not a call. -/
def globalCall? (function : String) (args : List Term) : Option Term :=
  match function, args with
  | "has", [arg] =>
    match arg with
    | select target => some (select target)
    | _ => none
  | _, _ => some (call function args)

/-- The name that loops keep for what they gather. -/
def gathered : String := "__result__"

/-- What a call of a function on a target stands for: loops over the target are not calls, and
the first argument of a loop names its variable. -/
def memberCall? (function : String) (target : Term) (args : List Term) : Option Term :=
  let isLoop :=
    match args.length with
    | 2 => ["all", "exists", "exists_one", "filter", "map"].contains function
    | 3 => function == "map"
    | _ => false
  if isLoop then
    match args with
    | name n :: _ => if n = gathered then none else some (loop target args)
    | _ => none
  else some (member function target args)

/-- A signed integer as a number, if it is in range. -/
def integer? (negative : Bool) (n : Nat) : Option Term :=
  if n < 0x8000000000000000 ∨ (negative ∧ n = 0x8000000000000000) then
    some (number (floatOfPattern (FloatFormat.binary64.round (negative ∧ n ≠ 0) n 1)))
  else none

/-- An unsigned integer as a number, if it is in range. -/
def unsigned? (n : Nat) : Option Term :=
  if n < 0x10000000000000000 then some (number (floatOfPattern (FloatFormat.binary64.round false n 1))) else none

/-- Readers take tokens off the front. -/
abbrev Reader := StateT (List Token) Option

/-- Takes a mark if it stands next. -/
def accept (symbol : String) : Reader Bool := fun ts =>
  match ts with
  | .mark m :: rest => if m = symbol then some (true, rest) else some (false, ts)
  | _ => some (false, ts)

/-- Takes a mark that must stand next. -/
def expect (symbol : String) : Reader Unit := do
  if ← accept symbol then pure () else failure

/-- Takes a word that names a field or function. -/
def field : Reader String := fun ts =>
  match ts with
  | .word w :: rest => if keywords.contains w then none else some (w, rest)
  | _ => none

/-- Takes a word that names a value or function of its own. -/
def identifier : Reader String := do
  let w ← field
  if reserved.contains w then failure else return w

/-- Takes an operator of a level if one stands next. -/
def acceptOperator (level : Nat) : Reader (Option String) := fun ts =>
  match ts with
  | t :: rest =>
    match operator? level t with
    | some f => some (some f, rest)
    | none => some (none, ts)
  | [] => some (none, ts)

/-- Takes all of a mark that stand next and counts them. -/
def acceptAll (symbol : String) : Reader Nat := fun ts =>
  let isMark : Token → Bool
    | .mark m => m = symbol
    | _ => false
  some ((ts.takeWhile isMark).length, ts.dropWhile isMark)

/-- A dotted name followed by an opening brace starts a message; the tokens after the brace. -/
def messageBody? : List Token → Option (List Token)
  | .word w :: .mark "\x7b" :: rest => if keywords.contains w then none else some rest
  | .word w :: .mark "." :: rest => if keywords.contains w then none else messageBody? rest
  | _ => none

/-- Whether a minus sign and the number it belongs to stand next. -/
def startsNegative : List Token → Bool
  | .mark "-" :: .integer _ :: _ => true
  | .mark "-" :: .decimal _ :: _ => true
  | _ => false

/-- Whether a word that may be a name stands next. -/
def startsName : List Token → Bool
  | .word w :: _ => !keywords.contains w
  | _ => false

/-- A value that must be there. -/
def ofOption {α : Type} : Option α → Reader α
  | some a => pure a
  | none => failure

/-- A literal. -/
def literal? (negative : Bool) : Token → Option Term
  | .integer n => integer? negative n
  | .decimal x => some (number (if negative then -x else x))
  | .unsigned n => if negative then none else unsigned? n
  | .text s => if negative then none else some (literal (.text s))
  | .bytes bs => if negative then none else some (literal (.bytes bs))
  | .word "true" => if negative then none else some (literal (.bool true))
  | .word "false" => if negative then none else some (literal (.bool false))
  | .word "null" => if negative then none else some (literal .null)
  | _ => none

/-- Takes a literal that must stand next. -/
def takeLiteral (negative : Bool) : Reader Term := fun ts =>
  match ts with
  | t :: rest => (literal? negative t).map (·, rest)
  | [] => none

/-- The brackets that hold several items. -/
inductive Bracket where
  | arguments
  | list
  | map
  | message
  deriving DecidableEq

/-- The mark that closes a bracket. -/
def Bracket.close : Bracket → String
  | arguments => ")"
  | list => "]"
  | map => "\x7d"
  | message => "\x7d"

/-- Whether a comma may stand before the closing mark. -/
def Bracket.looseComma : Bracket → Bool
  | arguments => false
  | _ => true

mutual

/-- An expression: a choice between two, or anything that binds closer. -/
def expr : (fuel : Nat) → Nesting → Reader Term
  | fuel + 1, n => do
    let n ← ofOption n.expression?
    let condition ← chain fuel n 0
    if ← accept "?" then
      let first ← chain fuel n 0
      expect ":"
      let second ← expr fuel n
      return call "_?_:_" [condition, first, second]
    else return condition
  | 0, _ => failure

/-- Operands joined by the operators of a level. -/
def chain : (fuel : Nat) → Nesting → (level : Nat) → Reader Term
  | fuel + 1, n, level => do
    if level = unaryLevel then unary fuel n
    else
      let n ← ofOption (n.first? level)
      let first ← chain fuel n (level + 1)
      continued fuel n level first
  | 0, _, _ => failure

/-- The rest of a chain: operators group to the left. -/
def continued : (fuel : Nat) → Nesting → (level : Nat) → Term → Reader Term
  | fuel + 1, n, level, left => do
    match ← acceptOperator level with
    | some f =>
      let right ← chain fuel (← ofOption (n.right? level)) (level + 1)
      continued fuel n level (call f [left, right])
    | none => return left
  | 0, _, _, _ => failure

/-- An operand after any number of one sign; each pair of equal signs cancels out, and a single
minus belongs to the number after it. -/
def unary : (fuel : Nat) → Nesting → Reader Term
  | fuel + 1, n => do
    let nots ← acceptAll "!"
    if nots ≠ 0 then
      let operand ← operand fuel n
      return if nots % 2 = 0 then operand else call "!_" [operand]
    else if startsNegative (← get) then operand fuel n
    else
      let minuses ← acceptAll "-"
      let operand ← operand fuel n
      return if minuses % 2 = 0 then operand else call "-_" [operand]
  | 0, _ => failure

/-- A primary expression with its selections. -/
def operand : (fuel : Nat) → Nesting → Reader Term
  | fuel + 1, n => do
    let first ← primary fuel n
    suffixes fuel n first
  | 0, _ => failure

/-- A name, call or literal, or something in brackets. -/
def primary : (fuel : Nat) → Nesting → Reader Term
  | fuel + 1, n => do
    let dotted ← accept "."
    match messageBody? (← get) with
    | some rest =>
      set rest
      return other (← items fuel n .message)
    | none =>
      if dotted then named fuel n ("." ++ (← identifier))
      else if startsName (← get) then named fuel n (← identifier)
      else if ← accept "(" then
        let inner ← expr fuel n
        expect ")"
        return inner
      else if ← accept "[" then
        return other (← items fuel n .list)
      else if ← accept "\x7b" then
        return other (← items fuel n .map)
      else takeLiteral (← accept "-")
  | 0, _ => failure

/-- A name, or a call if an opening bracket follows. -/
def named : (fuel : Nat) → Nesting → String → Reader Term
  | fuel + 1, n, f => do
    if ← accept "(" then
      let args ← items fuel n .arguments
      ofOption (globalCall? f args)
    else return name f
  | 0, _, _ => failure

/-- Selections, member calls and look-ups after an operand. -/
def suffixes : (fuel : Nat) → Nesting → Term → Reader Term
  | fuel + 1, n, operand => do
    if ← accept "." then
      let f ← field
      if ← accept "(" then
        let args ← items fuel n .arguments
        suffixes fuel n (← ofOption (memberCall? f operand args))
      else suffixes fuel n (select operand)
    else if ← accept "[" then
      let index ← expr fuel n
      expect "]"
      suffixes fuel n (call "_[_]" [operand, index])
    else return operand
  | 0, _, _ => failure

/-- The items up to the mark that closes a bracket. -/
def items : (fuel : Nat) → Nesting → Bracket → Reader (List Term)
  | fuel + 1, n, bracket => do
    if ← accept bracket.close then return []
    else if bracket.looseComma && (← accept ",") then
      expect bracket.close
      return []
    else someItems fuel n bracket
  | 0, _, _ => failure

/-- At least one item up to the mark that closes a bracket. -/
def someItems : (fuel : Nat) → Nesting → Bracket → Reader (List Term)
  | fuel + 1, n, bracket => do
    let first ← item fuel n bracket
    if ← accept "," then
      if bracket.looseComma && (← accept bracket.close) then return first
      else
        let rest ← someItems fuel n bracket
        return first ++ rest
    else
      expect bracket.close
      return first
  | 0, _, _ => failure

/-- One item of a bracket; that of a map is a key and a value. -/
def item : (fuel : Nat) → Nesting → Bracket → Reader (List Term)
  | fuel + 1, n, bracket => do
    match bracket with
    | .map =>
      let key ← expr fuel n
      expect ":"
      return [key, ← expr fuel n]
    | .message =>
      let _ ← field
      expect ":"
    | _ => pure ()
    return [← expr fuel n]
  | 0, _, _ => failure

end

/-- Reads all tokens as one expression. Between two tokens the readers call each other at most
eleven times, so the fuel never runs out first. -/
def ofTokens? (ts : List Token) : Option Term :=
  match (expr (12 * (ts.length + 1)) .outside).run ts with
  | some (t, []) => if t.height ≤ maxDepth then some t else none
  | _ => none

end Term

end NodeShader.Math

/-!
## Reading expressions

`Expr.parse` reads the text of an expression whose names must be among the given inputs. Text
outside the grammar is one kind of failure; text inside it that is no arithmetic over the inputs
is another, and tells the first thing that is wrong, from the outside in.
-/

namespace NodeShader.Math

/-- Why a well-formed term is not an arithmetic expression. -/
inductive Misuse where
  | literal (value : Literal)
  | unknownInput (name : String) (inputs : List String)
  | member (function : String)
  | unknownFunction (function : String)
  | arity (function : String) (want got : Nat)
  | construct
  deriving DecidableEq, Repr

/-- A literal as messages show it. -/
def Literal.shown : Literal → String
  | text s => s
  | bytes bs => "[" ++ " ".intercalate (bs.map fun b => toString b.toNat) ++ "]"
  | bool b => if b then "true" else "false"
  | null => "0"

def Misuse.message : Misuse → String
  | literal v => s!"unsupported literal {v.shown}"
  | unknownInput name inputs =>
    let known := " ".intercalate inputs
    s!"unknown variable {Text.quote name}, expected one of [{known}]"
  | member f => s!"member function {Text.quote f} not supported"
  | unknownFunction f => s!"unknown function {Text.quote f}"
  | arity f want got => s!"function {Text.quote f} takes {want} arguments, got {got}"
  | construct => "unsupported construct in expression"

/-- The arithmetic function that a call of the given name stands for. -/
def Operation.ofFunction? : String → Option Operation
  | "_+_" => some (.binary .add)
  | "_-_" => some (.binary .sub)
  | "_*_" => some (.binary .mul)
  | "_/_" => some (.binary .div)
  | "-_" => some (.unary .neg)
  | f => Operation.ofName? f

mutual

/-- The arithmetic expression of a term. -/
def Term.toExpr (inputs : List String) : Term → Except Misuse Expr
  | .number v => .ok (.number v)
  | .literal v => .error (.literal v)
  | .name n => if inputs.contains n then .ok (.input n) else .error (.unknownInput n inputs)
  | .call f args =>
    match Operation.ofFunction? f with
    | none => .error (.unknownFunction f)
    | some operation =>
      let wrong := Misuse.arity operation.name operation.arity args.length
      if args.length ≠ operation.arity then .error wrong
      else do
        let args ← Term.toExprs inputs args
        match operation.expr? args with
        | some e => .ok e
        | none => .error wrong
  | .member f _ _ => .error (.member f)
  | .select _ | .loop _ _ | .other _ => .error .construct

/-- The arithmetic expressions of the arguments of a call. -/
def Term.toExprs (inputs : List String) : List Term → Except Misuse (List Expr)
  | [] => .ok []
  | t :: ts => do
    let e ← t.toExpr inputs
    let es ← Term.toExprs inputs ts
    return e :: es

end

/-- Why a text is not an arithmetic expression. -/
inductive ParseFault where
  | malformed (source : String)
  | misuse (source : String) (reason : Misuse)
  deriving DecidableEq, Repr

def ParseFault.message : ParseFault → String
  | malformed source => s!"mathexpr: failed to parse {Text.quote source}"
  | misuse source reason => s!"mathexpr: invalid expression {Text.quote source}: {reason.message}"

/-- The longest text that is read, in characters. -/
def maxLength : Nat := 100000

/-- Reads an expression over the given inputs. -/
def Expr.parse (source : String) (inputs : List String) : Except ParseFault Expr :=
  let term? := if source.length ≤ maxLength then (tokens? source.toList).bind Term.ofTokens? else none
  match term? with
  | none => .error (.malformed source)
  | some term => (term.toExpr inputs).mapError (.misuse source)

end NodeShader.Math
