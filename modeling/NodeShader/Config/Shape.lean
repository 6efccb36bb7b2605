/-!
# Types of configuration values

Tuples and objects have a type for each part, lists and maps one for all. A type may be open
(`Shape.any`). `Shape.converts` tells which types can be turned into which, as far as types alone
decide it, and `Shape.unify?` finds the type that values of several types can be turned into.
-/

namespace NodeShader.Config

inductive Shape where
  /-- Nothing is known of the type. -/
  | any
  | bool
  | number
  | text
  | tuple (items : List Shape)
  /-- The fields are in the order of their names. -/
  | object (fields : List (String × Shape))
  | list (item : Shape)
  | map (item : Shape)
  deriving Repr, Inhabited

namespace Shape

mutual

/-- Whether two types are the same. -/
def same : Shape → Shape → Bool
  | any, any | bool, bool | number, number | text, text => true
  | tuple ss, tuple ts => sameAll ss ts
  | object ss, object ts => sameFields ss ts
  | list s, list t => s.same t
  | map s, map t => s.same t
  | _, _ => false

def sameAll : List Shape → List Shape → Bool
  | [], [] => true
  | s :: ss, t :: ts => s.same t && sameAll ss ts
  | _, _ => false

def sameFields : List (String × Shape) → List (String × Shape) → Bool
  | [], [] => true
  | (m, s) :: ss, (n, t) :: ts => m == n && s.same t && sameFields ss ts
  | _, _ => false

end

instance : BEq Shape := ⟨same⟩

def isAny : Shape → Bool
  | any => true
  | _ => false

def isScalar : Shape → Bool
  | bool | number | text => true
  | _ => false

def isTuple : Shape → Bool
  | tuple _ => true
  | _ => false

def isObject : Shape → Bool
  | object _ => true
  | _ => false

def isList : Shape → Bool
  | list _ => true
  | _ => false

def isMap : Shape → Bool
  | map _ => true
  | _ => false

/-- The types of the parts: those of each part, or the one of all. -/
def parts : Shape → List Shape
  | tuple items => items
  | object fields => fields.map (·.2)
  | list item | map item => [item]
  | _ => []

mutual

/-- How deep a type is nested. -/
def depth : Shape → Nat
  | tuple items => maxDepth items + 1
  | object fields => maxFieldDepth fields + 1
  | list item | map item => item.depth + 1
  | _ => 0

def maxDepth : List Shape → Nat
  | [] => 0
  | t :: ts => max t.depth (maxDepth ts)

def maxFieldDepth : List (String × Shape) → Nat
  | [] => 0
  | (_, t) :: ts => max t.depth (maxFieldDepth ts)

end

mutual

/-- Whether some part of a type is open. -/
def hasOpen : Shape → Bool
  | any => true
  | tuple items => anyOpen items
  | object fields => anyOpenField fields
  | list item | map item => item.hasOpen
  | _ => false

def anyOpen : List Shape → Bool
  | [] => false
  | t :: ts => t.hasOpen || anyOpen ts

def anyOpenField : List (String × Shape) → Bool
  | [] => false
  | (_, t) :: ts => t.hasOpen || anyOpenField ts

end

mutual

/-- Whether a type is what another asks for, which may leave parts open. -/
def conforms : (given wanted : Shape) → Bool
  | _, any => true
  | tuple given, tuple wanted => conformAll given wanted
  | object given, object wanted => conformFields given wanted
  | list given, list wanted => given.conforms wanted
  | map given, map wanted => given.conforms wanted
  | given, wanted => given == wanted

def conformAll : (given wanted : List Shape) → Bool
  | [], [] => true
  | s :: ss, t :: ts => s.conforms t && conformAll ss ts
  | _, _ => false

def conformFields : (given wanted : List (String × Shape)) → Bool
  | [], [] => true
  | (m, s) :: ss, (n, t) :: ts => m == n && s.conforms t && conformFields ss ts
  | _, _ => false

end

/-! ### Conversion and common types -/

/-- The field of a name. -/
def field? (fields : List (String × Shape)) (name : String) : Option Shape := fields.lookup name

/-- Whether scalars of one type can be turned into another: everything into text, and text, if it
reads so, into everything. -/
def scalarConverts (s t : Shape) : Bool :=
  match s, t with
  | bool, text | number, text | text, bool | text, number => true
  | _, _ => false

/-- The rows of a table as columns, the first row telling how many there are. -/
def columns (rows : List (List Shape)) : List (List Shape) :=
  match rows with
  | [] => []
  | first :: _ => (List.range first.length).map fun i => rows.filterMap (·[i]?)

/-- The order in which types are tried as the common one: text before other scalars, lists and maps
before tuples and objects, open types last. -/
def rank : Shape → Nat
  | text | list _ | map _ => 0
  | bool | number | tuple _ | object _ => 1
  | any => 2

def byRank (ts : List Shape) : List Shape :=
  [0, 1, 2].flatMap fun r => ts.filter fun t => t.rank == r

/-- The names of an object's fields. -/
def names : Shape → List String
  | object fields => fields.map (·.1)
  | _ => []

/-- Whether all types that are not open fulfil a test, and there are such. -/
def givenAre (test : Shape → Bool) (ts : List Shape) : Bool :=
  let given := ts.filter fun t => !t.isAny
  !given.isEmpty && given.all test

mutual

/-- Whether values of a type may be turned into another, as far as the types tell. -/
def convertsIn : (fuel : Nat) → (s t : Shape) → Bool
  | 0, _, _ => false
  | fuel + 1, s, t =>
    s == t ||
      match s, t with
      | _, any => true
      | any, _ => true
      | tuple ss, tuple ts => ss.length == ts.length && (ss.zip ts).all fun (s, t) => convertsIn fuel s t
      | object ss, object ts =>
        ts.all fun (name, t) => (field? ss name).any fun s => convertsIn fuel s t
      | list s, list t => convertsIn fuel s t
      | map s, map t => convertsIn fuel s t
      | tuple ss, list t => collects fuel ss t
      | object ss, map t => collects fuel (ss.map (·.2)) t
      | map s, object ts => ts.all fun (_, t) => convertsIn fuel s t
      | s, t => scalarConverts s t

/-- Whether parts may become the parts of one type. If that is open, they must have one in common. -/
def collects : (fuel : Nat) → List Shape → Shape → Bool
  | 0, _, _ => false
  | fuel + 1, ss, t =>
    if ss.isEmpty then true
    else if t.isAny then
      match unifyIn? fuel ss with
      | none => false
      | some any => ss.all isAny
      | some t => ss.all fun s => convertsIn fuel s t
    else ss.all fun s => convertsIn fuel s t

/-- The type that values of all the given types can be turned into. Tuples of one length and objects
of the same fields go part by part, others become lists and maps; otherwise one of the given types
must do. -/
def unifyIn? : (fuel : Nat) → List Shape → Option Shape
  | 0, _ => none
  | fuel + 1, ts =>
    let isOpen := ts.any isAny
    if givenAre isMap ts then
      if isOpen then some any else (unifyIn? fuel (ts.flatMap parts)).map map
    else if givenAre isList ts then
      if isOpen then some any else (unifyIn? fuel (ts.flatMap parts)).map list
    else if givenAre isObject ts then
      if isOpen then some any
      else
        let shared := ts.head?.elim [] names
        if ts.all fun t => t.names == shared then
          ((columns (ts.map parts)).mapM (unifyIn? fuel)).map fun us => object (shared.zip us)
        else (unifyIn? fuel (ts.flatMap parts)).map map
    else if givenAre isTuple ts then
      if isOpen then some any
      else
        let count := ts.head?.elim 0 fun t => t.parts.length
        if ts.all fun t => t.parts.length == count then
          ((columns (ts.map parts)).mapM (unifyIn? fuel)).map tuple
        else (unifyIn? fuel (ts.flatMap parts)).map list
    else if ts.any isObject && ts.any isTuple then none
    else
      let uniform :=
        if givenAre (fun t => t.isMap || t.isObject) ts then
          withParts? fuel isObject map ts
        else if givenAre (fun t => t.isList || t.isTuple) ts then
          withParts? fuel isTuple list ts
        else none
      match uniform with
      | some t => some t
      | none => (byRank ts).find? fun t => ts.all fun s => convertsIn fuel s t

/-- The common type when those with parts of their own are taken for lists or maps. -/
def withParts? : (fuel : Nat) → (test : Shape → Bool) → (collection : Shape → Shape) → List Shape →
    Option Shape
  | 0, _, _, _ => none
  | fuel + 1, test, collection, ts =>
    match unifyIn? fuel ((ts.filter test).flatMap parts) with
    | none => none
    | some item =>
      match unifyIn? fuel (ts.map fun t => if test t then collection item else t) with
      | some (list t) => some (list t)
      | some (map t) => some (map t)
      | _ => none

end

/-- Between two levels of nesting the functions above call each other at most five times. -/
def fuelFor (ts : List Shape) : Nat := 6 * (maxDepth ts + 2)

/-- Whether values of a type may be turned into another, as far as the types tell. -/
def converts (s t : Shape) : Bool := convertsIn (fuelFor [s, t]) s t

/-- The type that values of all the given types can be turned into. -/
def unify? (ts : List Shape) : Option Shape := unifyIn? (fuelFor ts) ts

mutual

/-- A type with its open parts taken from the type of the value that is to be turned into it. -/
def filled (source : Shape) : Shape → Shape
  | any => source
  | object fields => if source.isAny then object fields else object (filledFields source fields)
  | tuple items => if source.isAny then tuple items else tuple (filledItems source.parts items)
  | list item => if source.isAny then list item else list (filled ((unify? source.parts).getD any) item)
  | map item => if source.isAny then map item else map (filled ((unify? source.parts).getD any) item)
  | t => t

def filledFields (source : Shape) : List (String × Shape) → List (String × Shape)
  | [] => []
  | (name, t) :: ts =>
    let part :=
      match source with
      | object fields => field? fields name
      | map item => some item
      | _ => none
    (name, part.elim t fun s => filled s t) :: filledFields source ts

def filledItems (sources : List Shape) : List Shape → List Shape
  | [] => []
  | t :: ts => (sources.head?.elim t fun s => filled s t) :: filledItems sources.tail ts

end

end Shape

end NodeShader.Config
