import NodeShader.Config.Shape
import NodeShader.Number.Precise
import NodeShader.Text.Compose

/-!
# Values of configuration files

A value may be unknown (nothing in a file gives names a value, so what depends on one stays open) and
may be null; both can carry a type. Of an unknown value some facts may be known nevertheless: that it
is not null, how large it can be, how it starts (`Facts`). Lists and maps only come from turning
tuples and objects into one type; a list or map keeps the type of its items. `Value.convert?` turns a
value into one of another type.
-/

namespace NodeShader.Config

/-! ### Numbers

Numbers that are written out have 512 significant bits, those that count elements 64. Products may
grow up to the larger of the two. -/

abbrev Number := Precise

namespace Number

/-- The precision of numbers that are written out. -/
def writtenPrecision : Nat := 512

/-- The precision of the positions of elements. -/
def positionPrecision : Nat := 64

/-- The position of an element. -/
def ofPosition (n : Nat) : Number := Precise.ofNat positionPrecision n

/-- Reads a number. -/
def parse? (cs : List Char) : Option Number := Precise.parse? writtenPrecision cs

/-- A product, with more precision than its factors where it needs it. -/
def mul? (x y : Number) : Option Number := Precise.mulUpTo? writtenPrecision x y

end Number

/-! ### Values -/

/-- An end of a range of numbers, and whether it belongs to the range. -/
structure Bound where
  number : Number
  closed : Bool
  deriving DecidableEq, Repr

/-- What is known of an unknown value. -/
structure Facts where
  notNull : Bool
  low : Option Bound
  high : Option Bound
  minLength : Nat
  maxLength : Option Nat
  /-- How a text starts. -/
  start : String
  deriving DecidableEq, Repr

namespace Facts

def none : Facts := ⟨false, .none, .none, 0, .none, ""⟩

def present : Facts := { none with notNull := true }

/-- The facts of something that is null or not, and of the given length. -/
def ofLength (notNull : Bool) (minLength : Nat) (maxLength : Option Nat) : Facts :=
  { none with notNull, minLength, maxLength }

end Facts

/-- A value; the fields of an object or map are in the order of their names. -/
inductive Value where
  | unknown (type : Shape) (facts : Facts)
  | null (type : Shape)
  | bool (value : Bool)
  | number (value : Number)
  | text (value : String)
  | tuple (items : List Value)
  | object (fields : List (String × Value))
  | list (item : Shape) (items : List Value)
  | map (item : Shape) (fields : List (String × Value))
  deriving Inhabited

namespace Value

mutual

/-- The type of a value. -/
def type : Value → Shape
  | unknown t _ => t
  | null t => t
  | bool _ => .bool
  | number _ => .number
  | text _ => .text
  | tuple items => .tuple (types items)
  | object fields => .object (fieldTypes fields)
  | list t _ => .list t
  | map t _ => .map t

def types : List Value → List Shape
  | [] => []
  | v :: vs => v.type :: types vs

def fieldTypes : List (String × Value) → List (String × Shape)
  | [] => []
  | (name, v) :: vs => (name, v.type) :: fieldTypes vs

end

/-- Texts are kept in their composed form, so those that read the same are equal. -/
def ofText (s : String) : Value := text (Text.composed s)

/-- A value of which nothing is known. -/
def undetermined : Value := unknown .any .none

/-- A value of which only the type is known. -/
def ofShape (t : Shape) : Value := unknown t .none

/-- A value of a known type that is known not to be null. -/
def someOf (t : Shape) : Value := unknown t (if t.isAny then .none else .present)

def isNull : Value → Bool
  | null _ => true
  | _ => false

def isKnown : Value → Bool
  | unknown _ _ => false
  | _ => true

/-- Whether a value is known not to be null. -/
def isPresent : Value → Bool
  | null _ => false
  | unknown _ facts => facts.notNull
  | _ => true

/-- An unknown value of which some facts are known. If they leave only one value, it is that one; a
list of known length is a list of unknown items. -/
def refined (t : Shape) (facts : Facts) : Value :=
  if t.isAny then undetermined
  else if !facts.notNull then unknown t facts
  else
    match t, facts.low, facts.high with
    | .number, some low, some high =>
      if low.closed && high.closed && low.number.sameText high.number then number low.number
      else unknown t facts
    | .list item, _, _ =>
      if facts.maxLength = some facts.minLength then
        list item (List.replicate facts.minLength (ofShape item))
      else unknown t facts
    | .map item, _, _ => if facts.maxLength = some 0 then map item [] else unknown t facts
    | _, _, _ => unknown t facts

/-- The least and largest length that a list or map can have. -/
def lengths : Value → Nat × Option Nat
  | unknown _ facts => (facts.minLength, facts.maxLength)
  | list _ items => (items.length, some items.length)
  | map _ fields => (fields.length, some fields.length)
  | _ => (0, none)

/-- Fields with one set; they keep the order of their names. -/
def insertField {α : Type} (fields : List (String × α)) (name : String) (value : α) :
    List (String × α) :=
  match fields with
  | [] => [(name, value)]
  | (n, v) :: rest =>
    if name < n then (name, value) :: (n, v) :: rest
    else if name = n then (name, value) :: rest
    else (n, v) :: insertField rest name value

def field? (fields : List (String × Value)) (name : String) : Option Value :=
  (fields.find? fun f => f.1 == name).map (·.2)

/-! ### Conversion -/

/-- A truth value from its text. -/
def boolOfText? : String → Option Bool
  | "true" => some true
  | "1" => some true
  | "false" => some false
  | "0" => some false
  | _ => none

/-- A scalar turned into one of another type, if it can be. -/
def convertScalar? (v : Value) (t : Shape) : Option Value :=
  match v, t with
  | number n, .text => some (text n.text)
  | bool b, .text => some (text (if b then "true" else "false"))
  | text s, .number => (Number.parse? s.toList).map number
  | text s, .bool => (boolOfText? s).map bool
  | v, t => if v.type == t then some v else none

/-- What a conversion leaves of an unknown value: its type, whether it can be null, and a length. -/
def convertUnknown (s : Shape) (facts : Facts) (t : Shape) : Value :=
  let type := Shape.filled s t
  let exact (n : Nat) : Facts := .ofLength facts.notNull n (some n)
  match s, type with
  | .object fields, .map _ => refined type (exact fields.length)
  | .tuple items, .list _ => refined type (exact items.length)
  | .list _, .list _ | .map _, .map _ =>
    refined type (.ofLength facts.notNull facts.minLength facts.maxLength)
  | _, _ => refined type (.ofLength facts.notNull 0 none)

/-- The type that items agree on, open ones aside. -/
def itemShape? (vs : List Value) : Option Shape :=
  let given := (types vs).filter fun t => !t.isAny
  match given with
  | [] => some .any
  | t :: rest => if rest.all (· == t) then some t else none

/-- The type of items once a conversion to an open type has settled on one. -/
def settled (ts : List Shape) (t : Shape) : Shape := if t.isAny then (Shape.unify? ts).getD .any else t

mutual

/-- A value turned into one of another type that its own type allows for. What is unknown or null stays
so. -/
def convertTo? : Value → Shape → Option Value
  | v, .any => some v
  | unknown s facts, t => some (if s == t then unknown s facts else convertUnknown s facts t)
  | null s, t => some (null (Shape.filled s t))
  | tuple items, .list t =>
    (convertAll? items (settled (types items) t)).bind fun vs =>
      (itemShape? vs).map fun s => list (if vs.isEmpty then t else s) vs
  | list s items, .list t =>
    (convertAll? items t).bind fun vs =>
      (itemShape? vs).map fun u => list (if vs.isEmpty then if t.isAny then s else t else u) vs
  | tuple items, .tuple ts => (convertEach? items ts).map tuple
  | object fields, .map t =>
    (convertFields? fields (settled ((fieldTypes fields).map (·.2)) t)).bind fun fs =>
      (itemShape? (fs.map (·.2))).map fun s => map (if fs.isEmpty then t else s) fs
  | map s fields, .map t =>
    (convertFields? fields t).bind fun fs =>
      (itemShape? (fs.map (·.2))).map fun u => map (if fs.isEmpty then if t.isAny then s else t else u) fs
  | object fields, .object ts =>
    (convertNamed? fields ts).bind fun fs => if fs.length = ts.length then some (object fs) else none
  | map _ fields, .object ts =>
    (convertNamed? fields ts).bind fun fs => if fs.length = ts.length then some (object fs) else none
  | v, t => v.convertScalar? t

def convertAll? : List Value → Shape → Option (List Value)
  | [], _ => some []
  | v :: vs, t =>
    match v.convertTo? t, convertAll? vs t with
    | some v, some vs => some (v :: vs)
    | _, _ => none

def convertEach? : List Value → List Shape → Option (List Value)
  | [], [] => some []
  | v :: vs, t :: ts =>
    match v.convertTo? t, convertEach? vs ts with
    | some v, some vs => some (v :: vs)
    | _, _ => none
  | _, _ => none

def convertFields? : List (String × Value) → Shape → Option (List (String × Value))
  | [], _ => some []
  | (name, v) :: vs, t =>
    match v.convertTo? t, convertFields? vs t with
    | some v, some vs => some ((name, v) :: vs)
    | _, _ => none

/-- The fields that are asked for; others are left out. -/
def convertNamed? :
    List (String × Value) → List (String × Shape) → Option (List (String × Value))
  | [], _ => some []
  | (name, v) :: vs, ts =>
    match Shape.field? ts name with
    | none => convertNamed? vs ts
    | some t =>
      match v.convertTo? t, convertNamed? vs ts with
      | some v, some vs => some ((name, v) :: vs)
      | _, _ => none

end

/-- A value turned into one of another type, if it can be. -/
def convert? (v : Value) (t : Shape) : Option Value :=
  if v.type == t then some v
  else if v.type.converts t then v.convertTo? t
  else none

end Value

end NodeShader.Config
