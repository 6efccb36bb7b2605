import NodeShader.Config.Token
import NodeShader.Config.Value
import NodeShader.Text.Basic

/-!
# Expressions and blocks of configuration files

A file holds attributes, each a name with an expression, and blocks, which have a kind, labels and
attributes and blocks of their own. Expressions are kept unevaluated: an attribute may be meant as a
reference and not as a value (`Expr.path?`). Object items keep the places of their key and value, to
which messages point.
-/

namespace NodeShader.Config

/-- One step into a value. -/
inductive Step where
  | field (name : String)
  | index (key : Value)
  deriving Inhabited

inductive BinaryOp where
  | or
  | and
  | equal
  | notEqual
  | less
  | lessEqual
  | greater
  | greaterEqual
  | add
  | subtract
  | multiply
  | divide
  | modulo
  deriving DecidableEq, Repr

inductive UnaryOp where
  | negate
  | not
  deriving DecidableEq, Repr

/-- The variables of a loop: that of the value, and that of the key if there is one. -/
structure LoopVariables where
  key : Option String
  value : String
  deriving DecidableEq, Repr

mutual

inductive Expr where
  | literal (value : Value)
  /-- A name and steps from it. -/
  | name (root : String) (steps : List Step)
  /-- Steps from any other expression. -/
  | steps (source : Expr) (steps : List Step)
  | call (function : String)
  | choice (condition yes no : Expr)
  | index (collection key : Expr)
  | tuple (items : List Expr)
  | object (items : List Item)
  | loopTuple (vars : LoopVariables) (collection result : Expr) (condition : Option Expr)
  | loopObject (vars : LoopVariables) (collection key result : Expr) (group : Bool)
    (condition : Option Expr)
  /-- An expression evaluated for every element of a source. -/
  | splat (source each : Expr)
  /-- The element inside a splat. -/
  | element
  | template (parts : List Expr)
  /-- A template that is a single sequence, whose value need not be a text. -/
  | wrapped (inner : Expr)
  /-- The texts of a loop in a template, joined. -/
  | joined (loop : Expr)
  | binary (op : BinaryOp) (left right : Expr)
  | unary (op : UnaryOp) (operand : Expr)
  | parens (inner : Expr)

/-- An item of an object. A key in parentheses is never taken for a name. -/
inductive Item where
  | mk (key : Expr) (computed : Bool) (keySpan : Span) (value : Expr) (valueSpan : Span)

end

instance : Inhabited Expr := ⟨.element⟩

namespace Expr

/-- The keyword that a literal was written as. -/
def keyword? : Value → Option String
  | .null _ => some "null"
  | .bool b => some (if b then "true" else "false")
  | _ => none

/-- An expression read as a reference: a name and steps from it. The keywords count as names. -/
def path? : Expr → Option (String × List Step)
  | literal v => (keyword? v).map fun k => (k, [])
  | name root ss => some (root, ss)
  | steps source ss => source.path?.map fun (root, first) => (root, first ++ ss)
  | _ => none

/-- The name that an object key stands for by itself. -/
def keyName? (key : Expr) : Option String :=
  match key.path? with
  | some (root, []) => some root
  | _ => none

/-- An expression with one more step. -/
def step (e : Expr) (s : Step) : Expr :=
  match e with
  | name root ss => name root (ss ++ [s])
  | steps source ss => steps source (ss ++ [s])
  | e => steps e [s]

/-- The fixed key of an index: a literal, or a template that is plain text. -/
def fixedKey? : Expr → Option Value
  | literal v => some v
  | template [literal v] => some v
  | _ => none

end Expr

structure Attribute where
  name : String
  expr : Expr

inductive Block where
  | mk (kind : String) (labels : List String) (heading : Span) (attributes : List Attribute)
    (blocks : List Block)

/-- The attributes and blocks of a file or block. -/
structure Body where
  attributes : List Attribute
  blocks : List Block

namespace Block

def kind : Block → String
  | mk kind .. => kind

def labels : Block → List String
  | mk _ labels .. => labels

/-- Where the kind and labels stand. -/
def heading : Block → Span
  | mk _ _ heading .. => heading

def body : Block → Body
  | mk _ _ _ attributes blocks => ⟨attributes, blocks⟩

end Block

end NodeShader.Config

/-!
## Templates

A template is read as a flat list of pieces: text, values, and the marks of choices and loops. Tildes
drop the blanks beside a sequence, and a flush template loses the indentation that all its lines
share; then the marks are matched up (`Piece.assemble?`).
-/

namespace NodeShader.Config

inductive Piece where
  | text (value : List Char)
  | value (expr : Expr)
  | openIf (condition : Expr)
  | otherwise
  | closeIf
  | openFor (vars : LoopVariables) (collection : Expr)
  | closeFor

/-- A piece, and whether it drops the blanks before and after it. -/
structure Cut where
  piece : Piece
  before : Bool
  after : Bool

namespace Piece

def isText : Piece → Bool
  | text _ => true
  | _ => false

/-- Drops the blanks that tildes ask to drop; `trim` tells whether the piece before asks for it. -/
def trimmed (trim : Bool) : List Cut → List Piece
  | [] => []
  | ⟨text cs, _, _⟩ :: rest =>
    let cs := if trim then cs.dropWhile Text.isBlank else cs
    let next :=
      match rest with
      | ⟨_, before, _⟩ :: _ => before
      | [] => false
    let cs := if next then (cs.reverse.dropWhile Text.isBlank).reverse else cs
    text cs :: trimmed false rest
  | ⟨p, _, after⟩ :: rest => p :: trimmed after rest

/-- The number of blanks that start a line, unless there is nothing else on it. -/
def indentation? (p : Piece) : Option Nat :=
  match p with
  | text cs =>
    let blanks := cs.takeWhile Text.isBlank
    if blanks.length = cs.length ∧ cs.getLast? = some '\n' then none
    else some (Text.clusters blanks).length
  | _ => some 0

def endsLine : Piece → Bool
  | text cs => cs.getLast? = some '\n'
  | _ => false

/-- The pieces with a note of which start a line. -/
def lineStarts (atStart : Bool) : List Piece → List (Piece × Bool)
  | [] => []
  | p :: ps => (p, atStart) :: lineStarts p.endsLine ps

/-- Drops from each line as many blanks as the least indented line has. -/
def flushed (ps : List Piece) : List Piece :=
  let marked := lineStarts true ps
  let indents := marked.filterMap fun (p, first) => if first then p.indentation? else none
  match indents.min? with
  | none => ps
  | some n =>
    marked.map fun (p, first) =>
      match p with
      | text cs =>
        if first ∧ p.indentation?.isSome then text ((Text.clusters cs).drop n).flatten else p
      | p => p

/-- Joins texts that stand side by side. -/
def melded : List Piece → List Piece
  | [] => []
  | text cs :: rest =>
    match melded rest with
    | text ds :: rest => text (cs ++ ds) :: rest
    | rest => text cs :: rest
  | p :: rest => p :: melded rest

/-- A text as an expression. -/
def literal (cs : List Char) : Expr := .literal (.ofText (String.ofList cs))

/-- Parts as a template, which has at least one. -/
def template (parts : List Expr) : Expr := .template (if parts.isEmpty then [literal []] else parts)

/-- The parts up to a mark that closes something, and what follows. -/
def parts? : (fuel : Nat) → List Piece → Option (List Expr × List Piece)
  | 0, _ => none
  | _ + 1, [] => some ([], [])
  | fuel + 1, p :: rest =>
    match p with
    | text cs => (parts? fuel rest).map fun (es, rest) => (literal cs :: es, rest)
    | value e => (parts? fuel rest).map fun (es, rest) => (e :: es, rest)
    | openIf c => do
      let (yes, rest) ← parts? fuel rest
      match rest with
      | closeIf :: rest =>
        let (es, rest) ← parts? fuel rest
        return (.choice c (template yes) (template []) :: es, rest)
      | otherwise :: rest =>
        let (no, rest) ← parts? fuel rest
        match rest with
        | closeIf :: rest =>
          let (es, rest) ← parts? fuel rest
          return (.choice c (template yes) (template no) :: es, rest)
        | _ => none
      | _ => none
    | openFor vars collection => do
      let (body, rest) ← parts? fuel rest
      match rest with
      | closeFor :: rest =>
        let (es, rest) ← parts? fuel rest
        return (.joined (.loopTuple vars collection (template body) none) :: es, rest)
      | _ => none
    | otherwise | closeIf | closeFor => some ([], p :: rest)

/-- The template of the pieces. A sequence that stands alone is kept as it is. -/
def assemble? (flush : Bool) (cuts : List Cut) : Option Expr :=
  let ps := trimmed false cuts
  let ps := melded (if flush then flushed ps else ps)
  match ps with
  | [value e] => some (.wrapped e)
  | ps =>
    match parts? (ps.length + 1) ps with
    | some (es, []) => some (template es)
    | _ => none

end Piece

end NodeShader.Config
