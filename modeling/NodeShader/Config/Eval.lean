import NodeShader.Config.Compare
import NodeShader.Config.Expr

/-!
# Values of expressions

`Expr.eval` gives the value of an expression together with all that is wrong in it. A file has no
variables but those of its loops and no functions; what depends on a missing one is unknown, and
evaluation goes on so that every fault is told.
-/

namespace NodeShader.Config

/-- What can be wrong with an expression. -/
inductive Fault where
  | noVariables
  | unknownVariable
  | noFunctions
  | operand
  | operation
  | interpolation
  | choiceTypes
  | nullCondition
  | conditionType
  | nullKey
  | keyType
  | ambiguousKey
  | noField
  | noElement
  | fieldOfNull
  | index
  | indexOfNull
  | loopOverNull
  | loopOverOther
  | nullLoopCondition
  | loopCondition
  | loopKey
  | repeatedKey
  | splatOfNull
  | splatTypes
  deriving DecidableEq, Repr

def Fault.summary : Fault → String
  | noVariables => "Variables not allowed"
  | unknownVariable => "Unknown variable"
  | noFunctions => "Function calls not allowed"
  | operand => "Invalid operand"
  | operation => "Operation failed"
  | interpolation => "Invalid template interpolation value"
  | choiceTypes => "Inconsistent conditional result types"
  | nullCondition => "Null condition"
  | conditionType => "Incorrect condition type"
  | nullKey => "Null value as key"
  | keyType => "Incorrect key type"
  | ambiguousKey => "Ambiguous attribute key"
  | noField => "Unsupported attribute"
  | noElement => "Missing map element"
  | fieldOfNull => "Attempt to get attribute from null value"
  | index => "Invalid index"
  | indexOfNull => "Attempt to index null value"
  | loopOverNull => "Iteration over null value"
  | loopOverOther => "Iteration over non-iterable value"
  | nullLoopCondition => "Condition is null"
  | loopCondition => "Invalid 'for' condition"
  | loopKey => "Invalid object key"
  | repeatedKey => "Duplicate object key"
  | splatOfNull => "Splat of null value"
  | splatTypes => "Invalid nested splat expressions"

/-- A value and what is wrong with the way to it. -/
abbrev Outcome := Value × List Fault

/-- The names in scope. Outside of loops there are none, which is a fault of its own. -/
structure Names where
  values : Option (List (String × Value))
  element : Option Value

namespace Names

def none : Names := ⟨.none, .none⟩

/-- The names inside a loop. -/
def bind (names : Names) (vars : LoopVariables) (key value : Value) : Names :=
  let keyed :=
    match vars.key with
    | some k => [(k, key)]
    | .none => []
  { names with values := some ((vars.value, value) :: keyed ++ names.values.getD []) }

/-- The value of a variable. -/
def lookup (names : Names) (name : String) : Except Fault Value :=
  match names.values with
  | .none => .error .noVariables
  | some vs =>
    match vs.find? fun v => v.1 == name with
    | some (_, v) => .ok v
    | .none => .error .unknownVariable

end Names

/-! ### Steps -/

/-- A field of an object or map; it has a type even if the whole is unknown. -/
def fieldOf (v : Value) (name : String) : Except Fault Value :=
  let name := Text.composed name
  match v, v.type with
  | .null _, _ => .error .fieldOfNull
  | .object fields, _ => (Value.field? fields name).elim (.error .noField) .ok
  | .map _ fields, _ => (Value.field? fields name).elim (.error .noElement) .ok
  | _, .object ts => (Shape.field? ts name).elim (.error .noField) fun t => .ok (.ofShape t)
  | _, .map t => .ok (.ofShape t)
  | _, .any => .ok .undetermined
  | _, _ => .error .noField

/-- The position that a number stands for, if it is below a count. -/
def position? (n : Number) (count : Nat) : Option Nat :=
  match n.toInt? with
  | some (.ofNat i) => if i < count then some i else none
  | _ => none

/-- The element at a position, given the types of all. -/
def itemAt (v : Value) (ts : List Shape) (n : Number) : Except Fault Value :=
  match position? n ts.length with
  | none => .error .index
  | some i =>
    match v with
    | .tuple items => .ok (items[i]?.getD .undetermined)
    | _ => .ok (.ofShape (ts[i]?.getD .any))

/-- The element of a tuple or list, or the field of an object or map, at a key. -/
def elementAt (v key : Value) : Except Fault Value :=
  if v.isNull then .error .indexOfNull
  else if key.isNull then .error .index
  else if v.type.isAny || key.type.isAny then .ok .undetermined
  else
    match v.type with
    | .tuple ts =>
      match key.convert? .number with
      | some (.number n) => itemAt v ts n
      | some _ => .ok .undetermined
      | none => .error .index
    | .list t =>
      match key.convert? .number, v with
      | none, _ => .error .index
      | some (.number n), .list _ items =>
        ((position? n items.length).bind (items[·]?)).elim (.error .index) .ok
      | some _, _ => .ok (.ofShape t)
    | .map t =>
      match key.convert? .text, v with
      | none, _ => .error .index
      | some (.text name), .map _ fields => (Value.field? fields name).elim (.error .index) .ok
      | some _, _ => .ok (.ofShape t)
    | .object ts =>
      match key.convert? .text, v with
      | none, _ => .error .index
      | some (.text name), .object fields => (Value.field? fields name).elim (.error .index) .ok
      | some (.text name), _ => (Shape.field? ts name).elim (.error .index) fun t => .ok (.ofShape t)
      | some _, _ => .ok .undetermined
    | _ => .error .index

def Step.take (s : Step) (v : Value) : Except Fault Value :=
  match s with
  | .field name => fieldOf v name
  | .index key => elementAt v key

/-- The value at the end of some steps; a step that fails ends them. -/
def follow (v : Value) : List Step → Outcome
  | [] => (v, [])
  | s :: ss =>
    match s.take v with
    | .ok v => follow v ss
    | .error f => (.undetermined, [f])

/-! ### Operators -/

namespace BinaryOp

/-- The type of the operands. -/
def operandShape : BinaryOp → Shape
  | or | and => .bool
  | equal | notEqual => .any
  | _ => .number

/-- The type of the result. -/
def resultShape : BinaryOp → Shape
  | add | subtract | multiply | divide | modulo => .number
  | _ => .bool

/-- The result for two numbers, if there is one. -/
def arithmetic? (op : BinaryOp) (x y : Number) : Option Number :=
  match op with
  | add => x.add? y
  | subtract => x.sub? y
  | multiply => Number.mul? x y
  | divide => x.div? y
  | modulo => x.mod? y
  | _ => none

/-- The outcome of a comparison, if the operator is one. -/
def comparison? (op : BinaryOp) (x y : Value) : Option (Option Bool) :=
  match op with
  | equal => some (x.equals? y)
  | notEqual => some ((x.equals? y).map not)
  | less => some (x.lessThan? y)
  | lessEqual => some (x.atMost? y)
  | greater => some (y.lessThan? x)
  | greaterEqual => some (y.atMost? x)
  | _ => none

/-- Whether null may be an operand. -/
def takesNull (op : BinaryOp) : Bool := op == equal || op == notEqual

/-- The result for operands of the right types. -/
def apply (op : BinaryOp) (x y : Value) : Except Fault Value :=
  if !op.takesNull && (x.isNull || y.isNull) then .error .operation
  else
    match op.comparison? x y with
    | some outcome => .ok (outcome.elim (.someOf .bool) .bool)
    | none =>
      match x, y with
      | .bool a, .bool b => .ok (.bool (if op = or then a || b else a && b))
      | .number a, .number b => (op.arithmetic? a b).elim (.error .operation) fun n => .ok (.number n)
      | _, _ => .ok (.someOf op.resultShape)

/-- Whether an operand is known to be true. Null is not. -/
def isTrue : Value → Bool
  | .bool b => b
  | _ => false

/-- Whether an operand settles the result by itself: a true one does for `or`, one that is not true
for `and`. -/
def settles (op : BinaryOp) (v : Value) : Bool := v.isKnown && if op = or then isTrue v else !isTrue v

/-- The result of a logical operator if one operand settles it or leaves it to the other, along with
what is wrong with that operand alone. -/
def logical? (op : BinaryOp) (left right : Outcome) : Option Outcome :=
  let (x, xs) := left
  let (y, ys) := right
  if !x.isKnown && !y.isKnown then if xs.isEmpty then some (.someOf .bool, xs) else none
  else if op.settles x then some (.bool (op = or), xs)
  else if op.settles y then some (.bool (op = or), ys)
  else if !x.isKnown then some (.someOf .bool, xs)
  else if !y.isKnown then some (.someOf .bool, ys)
  else none

/-- The result of an operator. Operands that cannot be converted are told first. -/
def result (op : BinaryOp) (left right : Outcome) : Outcome :=
  let (v, vs) := left
  let (w, ws) := right
  match v.convert? op.operandShape, w.convert? op.operandShape with
  | some x, some y =>
    let early := if op = or ∨ op = and then op.logical? (x, vs) (y, ws) else none
    match early with
    | some outcome => outcome
    | none =>
      if !(vs ++ ws).isEmpty then (.ofShape op.resultShape, vs ++ ws)
      else
        match op.apply x y with
        | .ok v => (v, [])
        | .error f => (.ofShape op.resultShape, [f])
  | x, y =>
    let wrong := [x, y].filterMap fun (operand : Option Value) =>
      if operand.isNone then some Fault.operand else none
    (.ofShape op.resultShape, wrong ++ vs ++ ws)

end BinaryOp

namespace UnaryOp

def shape : UnaryOp → Shape
  | negate => .number
  | not => .bool

def result (op : UnaryOp) (operand : Outcome) : Outcome :=
  let (v, faults) := operand
  match v.convert? op.shape with
  | none => (.ofShape op.shape, faults ++ [.operand])
  | some v =>
    if !faults.isEmpty then (.ofShape op.shape, faults)
    else
      match op, v with
      | negate, .number n => (.number n.neg, [])
      | not, .bool b => (.bool !b, [])
      | _, .null _ => (.ofShape op.shape, [.operation])
      | _, _ => (.someOf op.shape, [])

end UnaryOp

/-! ### Choices, templates, objects and loops -/

/-- The type of the result of a choice. Null without a type takes that of the other result, and one of
an open type leaves the whole open. -/
def choiceShape? (yes no : Value) : Option Shape :=
  match yes, no with
  | .null .any, _ => some no.type
  | _, .null .any => some yes.type
  | _, _ => if yes.type.isAny || no.type.isAny then some .any else Shape.unify? [yes.type, no.type]

/-- The lower of two lower ends, an infinity being none. -/
def lowerOf (a b : Bound) : Option Bound :=
  let least :=
    if Number.below a.number b.number then a
    else if Number.same a.number b.number then { b with closed := a.closed || b.closed }
    else b
  if least.closed then some least else none

/-- The higher of two upper ends, an infinity being none. -/
def higherOf (a b : Bound) : Option Bound :=
  let largest :=
    if Number.below b.number a.number then a
    else if Number.same a.number b.number then { b with closed := a.closed || b.closed }
    else b
  if largest.closed then some largest else none

/-- What is known of the result while the choice is open. -/
def eitherOf (shape : Shape) (yes no : Value) : Value :=
  let notNull := yes.isPresent && no.isPresent
  if yes.isNull && no.isNull then .null shape
  else
    match yes.type, no.type with
    | .number, .number =>
      let unbounded := (Facts.none.lowest, Facts.none.highest)
      let (yesLow, yesHigh) := yes.range?.getD unbounded
      let (noLow, noHigh) := no.range?.getD unbounded
      .refined .number
        { Facts.none with notNull, low := lowerOf yesLow noLow, high := higherOf yesHigh noHigh }
    | s, t =>
      if (s.isList || s.isMap) && s == t then
        let (yesMin, yesMax) := yes.lengths
        let (noMin, noMax) := no.lengths
        let most := yesMax.bind fun m => noMax.map (max m)
        .refined shape (.ofLength notNull (min yesMin noMin) most)
      else .refined shape (.ofLength notNull 0 none)

/-- The result of a choice; only the chosen result's faults are told. -/
def choose (condition yes no : Outcome) : Outcome :=
  match choiceShape? yes.1 no.1 with
  | none => (.undetermined, [.choiceTypes])
  | some shape =>
    let (c, faults) := condition
    if c.isNull then (.ofShape shape, faults ++ [.nullCondition])
    else if !c.isKnown then (eitherOf shape yes.1 no.1, faults)
    else
      match c.convert? .bool with
      | some (.bool b) =>
        let (v, more) := if b then yes else no
        match v.convert? shape with
        | some v => (v, faults ++ more)
        | none => (.ofShape shape, faults ++ more ++ [.choiceTypes])
      | _ => (.ofShape shape, faults ++ [.conditionType])

/-- Characters that no other joins to make one sign. -/
def isSeparator (c : Char) : Bool := "-_:;/\\,.()\x7b\x7d[]|?!~ \t@#$%^&*+\"'".contains c

/-- The part of a text that stays as it is whatever follows: without the last sign, unless that is a
separator. -/
def settledStart (s : String) : String :=
  let signs := Text.clusters (Text.composed s).toList
  match signs.getLast? with
  | some [c] => if isSeparator c then String.ofList signs.flatten else String.ofList signs.dropLast.flatten
  | _ => String.ofList signs.dropLast.flatten

/-- How many bytes of the start of an unfinished text are kept. -/
def startLimit : Nat := 128

/-- The characters of a text up to a number of bytes. -/
def firstBytes : (limit : Nat) → List Char → List Char
  | _, [] => []
  | limit, c :: cs => if c.utf8Size ≤ limit then c :: firstBytes (limit - c.utf8Size) cs else []

/-- The text of a template so far. -/
structure TextSoFar where
  text : String
  known : Bool
  faults : List Fault

/-- Adds a part to a template. After a fault nothing more is written. -/
def TextSoFar.add (t : TextSoFar) (part : Outcome) : TextSoFar :=
  let (v, more) := part
  let faults := t.faults ++ more
  if v.isNull then { t with faults := faults ++ [.interpolation] }
  else if !v.isKnown then { t with known := false, faults }
  else
    match v.convert? .text with
    | some (.text s) =>
      { t with text := if t.known && faults.isEmpty then t.text ++ s else t.text, faults }
    | _ => { t with faults := faults ++ [.interpolation] }

/-- The text of a template. Of one that is not known, the start may be. -/
def concatenated (parts : List Outcome) : Outcome :=
  let t := parts.foldl TextSoFar.add ⟨"", true, []⟩
  let start := settledStart (String.ofList (firstBytes startLimit t.text.toList))
  let facts : Facts := { Facts.present with start := if t.faults.isEmpty then start else "" }
  (if t.known then .ofText t.text else .unknown .text facts, t.faults)

/-- The texts of a loop joined up to the first that is not known. -/
def joinItems (acc : String) (faults : List Fault) : List Value → Outcome
  | [] => (.ofText acc, faults)
  | v :: vs =>
    if v.isNull then joinItems acc (faults ++ [.interpolation]) vs
    else
      match v.convert? .text with
      | some (.text s) => joinItems (acc ++ s) faults vs
      | some _ => (.ofShape .text, faults)
      | none => joinItems acc (faults ++ [.interpolation]) vs

/-- The texts of a loop joined; what is not known leaves the whole unknown. -/
def joinTexts (loop : Outcome) : Outcome :=
  match loop with
  | (.tuple items, faults) => joinItems "" faults items
  | (_, faults) => (.ofShape .text, faults)

/-- The fields of an object so far; `none` once a key is not known. -/
abbrev FieldsSoFar := Option (List (String × Value)) × List Fault

/-- Adds an item to an object. -/
def addField (acc : FieldsSoFar) (key value : Outcome) : FieldsSoFar :=
  let faults := acc.2 ++ key.2 ++ value.2
  if !key.2.isEmpty then (none, faults)
  else if key.1.isNull then (none, faults ++ [.nullKey])
  else
    match key.1.convert? .text with
    | some (.text name) => (acc.1.map fun fs => Value.insertField fs name value.1, faults)
    | some _ => (none, faults)
    | none => (none, faults ++ [.keyType])

def ofFields : FieldsSoFar → Outcome
  | (some fields, faults) => (.object fields, faults)
  | (none, faults) => (.undetermined, faults)

/-- The keys and elements of a value that can be looped over. -/
def elements : Value → List (Value × Value)
  | .tuple items | .list _ items => items.zipIdx.map fun (v, i) => (.number (.ofPosition i), v)
  | .object fields | .map _ fields => fields.map fun (name, v) => (.text name, v)
  | _ => []

/-- Whether values of a type can be looped over. -/
def isLoopable (t : Shape) : Bool := t.isTuple || t.isObject || t.isList || t.isMap

/-- What to loop over, or the result if that is no collection. -/
def loopSource (collection : Outcome) : Except Outcome Value :=
  let (v, faults) := collection
  if v.isNull then .error (.undetermined, faults ++ [.loopOverNull])
  else if v.type.isAny then .error (.undetermined, faults)
  else if !isLoopable v.type then .error (.undetermined, faults ++ [.loopOverOther])
  else .ok v

/-- Whether an element is taken by a condition; without a condition all are. -/
inductive Admission where
  | taken
  | left
  | unknown
  | invalid

/-- Whether a condition takes an element. It may be `lenient` about unknown values of any type. -/
def admission (lenient : Bool) (condition : Option Outcome) : Admission :=
  match condition with
  | none => .taken
  | some (v, _) =>
    if v.isNull then .invalid
    else if lenient && !v.isKnown then .unknown
    else
      match v.convert? .bool with
      | some (.bool b) => if b then .taken else .left
      | some _ => .unknown
      | none => .invalid

/-- A condition tried before the loop, with nothing known of the elements: what is wrong with it, if
anything is. -/
def trial (condition : Option Outcome) : Option (List Fault) :=
  match condition with
  | none => none
  | some (v, faults) =>
    if v.isNull then some (faults ++ [.nullLoopCondition])
    else if (v.convert? .bool).isNone then some (faults ++ [.loopCondition])
    else if faults.isEmpty then none
    else some faults

def conditionFaults (condition : Option Outcome) : List Fault := condition.elim [] (·.2)

/-- What a loop has gathered, and whether that is all there is to it. -/
structure LoopSoFar (α : Type) where
  gathered : α
  known : Bool
  faults : List Fault

namespace LoopSoFar

/-- Leaves the result unknown; the reason is told if it was known until now. -/
def spoil {α : Type} (acc : LoopSoFar α) (reason : Fault) : LoopSoFar α :=
  { acc with known := false, faults := if acc.known then acc.faults ++ [reason] else acc.faults }

/-- One round of a loop: the element's condition, and what it adds if it is taken. -/
def round {α : Type} (acc : LoopSoFar α) (lenient : Bool) (condition : Option Outcome)
    (add : LoopSoFar α → LoopSoFar α) : LoopSoFar α :=
  let acc := { acc with faults := acc.faults ++ conditionFaults condition }
  match admission lenient condition with
  | .taken => add acc
  | .left => acc
  | .unknown => { acc with known := false }
  | .invalid => acc.spoil .loopCondition

/-- Adds an item that a loop makes. -/
def addItem (acc : LoopSoFar (List Value)) (value : Outcome) : LoopSoFar (List Value) :=
  { acc with gathered := value.1 :: acc.gathered, faults := acc.faults ++ value.2 }

/-- Adds a field that a loop makes. Grouped fields gather all values of a key, others may not repeat. -/
def addField (acc : LoopSoFar (List (String × List Value))) (group : Bool) (key value : Outcome) :
    LoopSoFar (List (String × List Value)) :=
  let acc := { acc with faults := acc.faults ++ key.2 }
  if key.1.isNull then acc.spoil .loopKey
  else if !key.1.isKnown then { acc with known := false }
  else
    match key.1.convert? .text with
    | some (.text name) =>
      let acc := { acc with faults := acc.faults ++ value.2 }
      match acc.gathered.lookup name with
      | none => { acc with gathered := Value.insertField acc.gathered name [value.1] }
      | some vs =>
        if group then { acc with gathered := Value.insertField acc.gathered name (vs ++ [value.1]) }
        else { acc with faults := acc.faults ++ [.repeatedKey] }
    | _ => acc.spoil .loopKey

/-- The tuple that a loop makes. -/
def toTuple (acc : LoopSoFar (List Value)) : Outcome :=
  (if acc.known then .tuple acc.gathered.reverse else .undetermined, acc.faults)

/-- The object that a loop makes. -/
def toObject (group : Bool) (acc : LoopSoFar (List (String × List Value))) : Outcome :=
  let field (vs : List Value) : Value := if group then .tuple vs else vs.head?.getD .undetermined
  (if acc.known then .object (acc.gathered.map fun (name, vs) => (name, field vs)) else .undetermined,
    acc.faults)

end LoopSoFar

/-- The type that a splat over a tuple or list has, given what the types of its items alone give. -/
def splatShape (source : Shape) (trials : List Outcome) : Shape :=
  let types := trials.map fun o => o.1.type
  if source.isList then .list (types.head?.getD .any) else .tuple types

/-- The result of a splat over some items; what their types alone give is tried only if it is needed.
A list must have items of one type. -/
def splatResult (source : Shape) (trials : Unit → List Outcome) (outcomes : List Outcome) : Outcome :=
  let faults := outcomes.flatMap (·.2)
  let values := outcomes.map (·.1)
  if !faults.isEmpty then (.ofShape (splatShape source (trials ())), faults)
  else if !source.isList then (.tuple values, [])
  else if values.isEmpty then
    let tried := trials ()
    (.list ((splatShape source tried).parts.head?.getD .any) [], tried.flatMap (·.2))
  else
    match Value.itemShape? values with
    | some t => (.list t values, [])
    | none => (.undetermined, [.splatTypes])

/-- The result of a splat over an unknown source. -/
def unknownSplat (source : Value) (trials : List Outcome) : Outcome :=
  let (least, most) := source.lengths
  let shape := splatShape source.type trials
  let value : Value := if shape.isList then .refined shape (.ofLength true least most) else .someOf shape
  (value, trials.flatMap (·.2))

/-- The value of an object key, given its value as an expression. Unless it is computed, a bare name
stands for its own text and a name with steps is refused. -/
def keyOutcome (computed : Bool) (key : Expr) (value : Outcome) : Outcome :=
  if computed then value
  else
    match key with
    | .name _ (_ :: _) => (.undetermined, [.ambiguousKey])
    | key =>
      match key.keyName? with
      | some name => (.ofText name, [])
      | none => value

mutual

/-- The value of an expression, and all that is wrong in it. -/
def Expr.eval (names : Names) : Expr → Outcome
  | .literal v => (v, [])
  | .name root ss =>
    match names.lookup root with
    | .ok v => follow v ss
    | .error f => (.undetermined, [f])
  | .steps source ss =>
    let (v, faults) := source.eval names
    let (w, more) := follow v ss
    (w, faults ++ more)
  | .call _ => (.undetermined, [.noFunctions])
  | .choice c yes no => choose (c.eval names) (yes.eval names) (no.eval names)
  | .index collection key =>
    let (v, faults) := collection.eval names
    let (k, more) := key.eval names
    match elementAt v k with
    | .ok w => (w, faults ++ more)
    | .error f => (.undetermined, faults ++ more ++ [f])
  | .tuple items =>
    let outcomes := evalAll names items
    (.tuple (outcomes.map (·.1)), outcomes.flatMap (·.2))
  | .object items => ofFields (evalItems names items (some [], []))
  | .loopTuple vars collection result condition =>
    let c := collection.eval names
    match loopSource c with
    | .error outcome => outcome
    | .ok source =>
      match trial (evalOption (names.bind vars .undetermined .undetermined) condition) with
      | some faults => (.undetermined, c.2 ++ faults)
      | none =>
        let start : LoopSoFar (List Value) := ⟨[], source.isKnown, c.2⟩
        let done := (elements source).foldl
          (fun acc (k, v) =>
            let inner := names.bind vars k v
            acc.round true (evalOption inner condition) fun acc => acc.addItem (result.eval inner))
          start
        done.toTuple
  | .loopObject vars collection key result group condition =>
    let c := collection.eval names
    match loopSource c with
    | .error outcome => outcome
    | .ok source =>
      match trial (evalOption (names.bind vars .undetermined .undetermined) condition) with
      | some faults => (.undetermined, c.2 ++ faults)
      | none =>
        let start : LoopSoFar (List (String × List Value)) := ⟨[], source.isKnown, c.2⟩
        let done := (elements source).foldl
          (fun acc (k, v) =>
            let inner := names.bind vars k v
            acc.round false (evalOption inner condition) fun acc =>
              acc.addField group (key.eval inner) (result.eval inner))
          start
        done.toObject group
  | .splat source each =>
    let (v, faults) := source.eval names
    let upgrades := !(v.type.isTuple || v.type.isList)
    if !faults.isEmpty then (.undetermined, faults)
    else if v.isNull then if upgrades then (.tuple [], []) else (.undetermined, [.splatOfNull])
    else if v.type.isAny then (.undetermined, [])
    else
      let whole := if upgrades then .tuple [v] else v
      let item (v : Value) : Outcome := each.eval { names with element := some v }
      let trials (_ : Unit) := whole.type.parts.map fun t => item (.ofShape t)
      if !whole.isKnown then unknownSplat whole (trials ())
      else
        let outcomes := (elements whole).map fun (_, v) => item v
        if upgrades && !v.isPresent then (.undetermined, outcomes.flatMap (·.2))
        else splatResult whole.type trials outcomes
  | .element => (names.element.getD .undetermined, [])
  | .template parts => concatenated (evalAll names parts)
  | .wrapped inner => inner.eval names
  | .joined loop => joinTexts (loop.eval names)
  | .binary op left right => op.result (left.eval names) (right.eval names)
  | .unary op operand => op.result (operand.eval names)
  | .parens inner => inner.eval names

def evalAll (names : Names) : List Expr → List Outcome
  | [] => []
  | e :: es => e.eval names :: evalAll names es

def evalOption (names : Names) : Option Expr → Option Outcome
  | none => none
  | some e => some (e.eval names)

/-- The items of an object in order. A key that is a bare name stands for its own text. -/
def evalItems (names : Names) : List Item → FieldsSoFar → FieldsSoFar
  | [], acc => acc
  | .mk key computed _ value _ :: rest, acc =>
    evalItems names rest (addField acc (keyOutcome computed key (key.eval names)) (value.eval names))

end

/-- The value of an object key. -/
def Item.keyValue (names : Names) : Item → Outcome
  | .mk key computed _ _ _ => keyOutcome computed key (key.eval names)

end NodeShader.Config
