import NodeShader.Config.Value

/-!
# Comparing values

Comparisons have three outcomes: true, false, or not known yet (`none`). What is known of an unknown
value can rule out equality, or settle which of two numbers is less. Null equals null, whatever the
types; other values of different types are not equal.
-/

namespace NodeShader.Config

namespace Number

/-- Whether numbers are equal, which they are if they have the same text. -/
def same (x y : Number) : Bool := x.sameText y

def below (x y : Number) : Bool := x.compare y == .lt

def atMost (x y : Number) : Bool := below x y || same x y

end Number

namespace Facts

/-- The least number, or the infinity below all numbers. -/
def lowest (f : Facts) : Bound :=
  f.low.getD ⟨Precise.infinity Number.writtenPrecision true, false⟩

/-- The largest number, or the infinity above all numbers. -/
def highest (f : Facts) : Bound :=
  f.high.getD ⟨Precise.infinity Number.writtenPrecision false, false⟩

/-- Whether anything is known that numbers can be held against. -/
def isOfNumbers (f : Facts) : Bool := f.notNull || f.low.isSome || f.high.isSome

/-- Whether a number is within the range. -/
def admits (f : Facts) (x : Number) : Bool :=
  (if f.lowest.closed then Number.atMost f.lowest.number x else Number.below f.lowest.number x)
    && if f.highest.closed then Number.atMost x f.highest.number else Number.below x f.highest.number

end Facts

namespace Value

/-- Whether a known value cannot be an unknown one of the given type, by what is known of that. -/
def isRuledOut (t : Shape) (facts : Facts) (v : Value) : Bool :=
  if v.isNull then facts.notNull
  else if !v.type.conforms t then true
  else
    match t, v with
    | .number, number n => facts.isOfNumbers && !facts.admits n
    | .text, text s => !facts.start.isPrefixOf s
    | .list _, v | .map _, v =>
      let (count, _) := v.lengths
      count < facts.minLength || facts.maxLength.any (· < count)
    | _, _ => false

mutual

/-- Whether no part of a value has an open type. -/
def isTyped : Value → Bool
  | unknown t _ => !t.hasOpen
  | tuple items => allTyped items
  | object fields => allTypedFields fields
  | list _ items => allTyped items
  | map _ fields => allTypedFields fields
  | _ => true

def allTyped : List Value → Bool
  | [] => true
  | v :: vs => v.isTyped && allTyped vs

def allTypedFields : List (String × Value) → Bool
  | [] => true
  | (_, v) :: vs => v.isTyped && allTypedFields vs

end

/-- Equality of a known value and an unknown one. -/
def equalsUnknown? (v : Value) (t : Shape) (facts : Facts) : Option Bool :=
  if isRuledOut t facts v then some false
  else if v.isNull || t.hasOpen then none
  else if v.type == t then none
  else some false

/-- Whether two known values have different types, as far as that can be told. -/
def differByType? (v w : Value) : Option Bool :=
  if v.isTyped && w.isTyped then some (v.type != w.type)
  else if !v.type.conforms w.type && !w.type.conforms v.type then some true
  else none

mutual

/-- Whether two values are equal. -/
def equals? : Value → Value → Option Bool
  | unknown _ _, unknown _ _ => none
  | unknown s facts, w => w.equalsUnknown? s facts
  | v, unknown t facts => v.equalsUnknown? t facts
  | null _, w => some w.isNull
  | _, null _ => some false
  | bool a, w =>
    match w with
    | bool b => some (a == b)
    | _ => some false
  | number a, w =>
    match w with
    | number b => some (Number.same a b)
    | _ => some false
  | text a, w =>
    match w with
    | text b => some (a == b)
    | _ => some false
  | tuple vs, w =>
    match differByType? (tuple vs) w, w with
    | none, _ => none
    | some false, tuple ws => allEqual? vs ws
    | _, _ => some false
  | object vs, w =>
    match differByType? (object vs) w, w with
    | none, _ => none
    | some false, object ws => fieldsEqual? vs ws
    | _, _ => some false
  | list s vs, w =>
    match differByType? (list s vs) w, w with
    | none, _ => none
    | some false, list _ ws => allEqual? vs ws
    | _, _ => some false
  | map s vs, w =>
    match differByType? (map s vs) w, w with
    | none, _ => none
    | some false, map _ ws => fieldsEqual? vs ws
    | _, _ => some false

/-- The first pair that is not equal, or not known to be, tells. -/
def allEqual? : List Value → List Value → Option Bool
  | [], [] => some true
  | v :: vs, w :: ws =>
    match v.equals? w with
    | some true => allEqual? vs ws
    | other => if vs.length = ws.length then other else some false
  | _, _ => some false

def fieldsEqual? : List (String × Value) → List (String × Value) → Option Bool
  | [], [] => some true
  | (m, v) :: vs, (n, w) :: ws =>
    if m == n then
      match v.equals? w with
      | some true => fieldsEqual? vs ws
      | other => if vs.map (·.1) = ws.map (·.1) then other else some false
    else some false
  | _, _ => some false

end

/-- The range that a number is in, known or not. -/
def range? : Value → Option (Bound × Bound)
  | number n => some (⟨n, true⟩, ⟨n, true⟩)
  | unknown .number facts => some (facts.lowest, facts.highest)
  | _ => none

/-- Whether one number is less than another. The ends of ranges count as outside of them. -/
def lessThan? (v w : Value) : Option Bool :=
  match v, w with
  | number a, number b => some (Number.below a b)
  | _, _ =>
    match v.range?, w.range? with
    | some (vLow, vHigh), some (wLow, wHigh) =>
      if Number.below vHigh.number wLow.number then some true
      else if Number.below wHigh.number vLow.number then some false
      else none
    | _, _ => none

/-- Whether one of two statements is true. -/
def either? (a b : Option Bool) : Option Bool :=
  if a = some true ∨ b = some true then some true
  else if a = some false ∧ b = some false then some false
  else none

def atMost? (v w : Value) : Option Bool := either? (v.lessThan? w) (v.equals? w)

end Value

end NodeShader.Config
