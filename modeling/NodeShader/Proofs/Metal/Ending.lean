import Mathlib.Data.List.Nodup
import Mathlib.Logic.Function.Iterate
import Mathlib.Logic.Relation
import NodeShader.Proofs.Metal.Heading
import NodeShader.Proofs.Metal.Sharing

/-!
# Recursions that end

Writing a program follows the module in three recursions: from block to block, from a type to the types
its name is made of, and from a constant to its parts.  Each is bounded by a number of rounds, and the
question is whether the bound is ever met.  `EndsAt` says that it is not: after some number of rounds it
does not matter what comes next.

* `rounds_eq_blocksFrom`: **writing blocks ends** if writing their instructions does, since no block is
  written twice.
* `typeRound_ends`, `typeNameWithin_circular`: naming a type ends if and only if the type is not named after
  itself.
* `literalRound_ends`, `not_gives_literal`: writing a constant ends if the constant is no part of itself and
  naming its types does; a constant that is a part of itself is never written.

`NodeShader.Proofs.Metal.Limits` puts the three together.
-/

namespace NodeShader.Metal

open Spirv

/-! ### Recursions -/

/-- **A recursion that ends at an argument.**  One round says what to do at an argument, given what to
do at those it asks for; after some number of rounds nothing is asked for any more. -/
def EndsAt {α β : Type} (round : (α → β) → α → β) (n : Nat) (x : α) : Prop :=
  ∀ next next' : α → β, round^[n] next x = round^[n] next' x

/-- An argument that leads back to itself, or to one that does. -/
def Circular {α : Type} (R : α → α → Prop) (x : α) : Prop :=
  ∃ y, Relation.ReflTransGen R x y ∧ Relation.TransGen R y y

theorem Circular.next {α : Type} {R : α → α → Prop} {x : α} (h : Circular R x) :
    ∃ y, R x y ∧ Circular R y := by
  obtain ⟨z, hxz, hzz⟩ := h
  rcases hxz.cases_head with rfl | ⟨y, hxy, hyz⟩
  · obtain ⟨y, hxy, hyx⟩ := Relation.TransGen.head'_iff.1 hzz
    exact ⟨y, hxy, x, hyx, hzz⟩
  · exact ⟨y, hxy, z, hyz, hzz⟩

theorem Circular.of_next {α : Type} {R : α → α → Prop} {x y : α} (hxy : R x y) (h : Circular R y) :
    Circular R x := by
  obtain ⟨z, hyz, hzz⟩ := h
  exact ⟨z, hyz.head hxy, hzz⟩

/-- **Induction along a relation without circles.**  What is known of an argument after a round if it is
known of all it leads to is known after as many rounds as there are arguments that lead anywhere. -/
theorem rounds_induction {α : Type} {R : α → α → Prop} {keys : List α}
    (hkeys : ∀ x y, R x y → x ∈ keys) {P : Nat → α → Prop}
    (hround : ∀ n x, (∀ y, R x y → P n y) → P (n + 1) x) {x : α} (hx : ¬ Circular R x) {n : Nat}
    (hn : keys.length < n) : P n x := by
  -- the arguments passed so far all lead here, and are distinct since there is no circle
  suffices hall : ∀ (n : Nat) (passed : List α) (x : α), ¬ Circular R x → passed.Nodup →
      (∀ y ∈ passed, y ∈ keys ∧ Relation.TransGen R y x) → keys.length < n + passed.length → P n x from
    hall n [] x hx List.nodup_nil (fun _ h => absurd h List.not_mem_nil) hn
  intro n
  induction n with
  | zero =>
    intro passed x _ hnodup hpassed hlen
    have hle := (List.subperm_of_subset hnodup fun y hy => (hpassed y hy).1).length_le
    omega
  | succ n ih =>
    intro passed x hx hnodup hpassed hlen
    refine hround n x fun y hxy => ?_
    refine ih (x :: passed) y (fun h => hx (h.of_next hxy)) (List.nodup_cons.2 ⟨fun hmem => ?_, hnodup⟩) ?_ ?_
    · exact hx ⟨x, .refl, (hpassed x hmem).2⟩
    · refine List.forall_mem_cons.2 ⟨⟨hkeys x y hxy, .single hxy⟩, fun z hz => ?_⟩
      exact ⟨(hpassed z hz).1, (hpassed z hz).2.tail hxy⟩
    · rw [List.length_cons]
      omega

/-! ### Types -/

variable (t : Tables)

/-- One round of naming a type. -/
def typeRound (next : UInt32 → Naming String) (id : UInt32) : Naming String := do
  match ← t.typeOf id with
  | .void => return "void"
  | .bool => return "bool"
  | .int width signed =>
    return if width = 16 then (if signed then "short" else "ushort")
      else if signed then "int" else "uint"
  | .float width => return if width = 16 then "half" else "float"
  | .vector element count => return s!"{← next element}{count}"
  | .matrix element count =>
    let column ← t.typeOf element
    return s!"{← next column.element}{count}x{column.count}"
  | .image element dim sampled _ =>
    match dimName? dim with
    | none => fail id s!"unsupported image dimension {dim}"
    | some dim =>
      let access := if sampled = 2 then ", access::write" else ""
      return s!"texture{dim}<{← next element}{access}>"
  | .sampler => return "sampler"
  | .struct _ => identifier t id "Struct"
  | _ => fail id "type has no MSL representation"

theorem typeNameWithin_eq (depth : Nat) :
    typeNameWithin t depth = (typeRound t)^[depth] fun _ => t.cutOff := by
  induction depth with
  | zero => rfl
  | succ depth ih =>
    rw [Function.iterate_succ_apply', ← ih]
    rfl

/-- The type whose name is part of the name of a type. -/
inductive Tables.NamedAfter (t : Tables) : UInt32 → UInt32 → Prop
  | vector {x element count : UInt32} : t.typeOf x = .ok (.vector element count) →
      NamedAfter t x element
  | matrix {x element count : UInt32} {column : TypeInfo} : t.typeOf x = .ok (.matrix element count) →
      t.typeOf element = .ok column → NamedAfter t x column.element
  | image {x element dim sampled format : UInt32} {name : String} :
      t.typeOf x = .ok (.image element dim sampled format) → dimName? dim = some name →
      NamedAfter t x element

/-- A name asks for the name it is made of only. -/
theorem typeRound_congr {next next' : UInt32 → Naming String} {x : UInt32}
    (h : ∀ y, t.NamedAfter x y → next y = next' y) : typeRound t next x = typeRound t next' x := by
  cases hx : t.typeOf x with
  | error e => rw [typeRound, typeRound, hx]; rfl
  | ok info =>
    refine (lift_bind hx).trans (Eq.trans ?_ (lift_bind hx).symm)
    cases info with
    | vector element count =>
      dsimp only
      rw [h _ (.vector hx)]
    | matrix element count =>
      cases hc : t.typeOf element with
      | error e =>
        dsimp only
        rw [hc]
        rfl
      | ok column =>
        refine (lift_bind hc).trans (Eq.trans ?_ (lift_bind hc).symm)
        rw [h _ (.matrix hx hc)]
    | image element dim sampled format =>
      dsimp only
      cases hd : dimName? dim with
      | none => rfl
      | some name =>
        dsimp only
        rw [h _ (.image hx hd)]
    | _ => rfl

/-- **A type with a name in its name** is called by it. -/
theorem typeRound_eq {x y : UInt32} (h : t.NamedAfter x y) :
    ∃ call : String → String, ∀ next, typeRound t next x = next y >>= fun s => pure (call s) := by
  cases h with
  | @vector element count hx => exact ⟨_, fun next => lift_bind hx⟩
  | @matrix element count column hx hc =>
    exact ⟨_, fun next => (lift_bind hx).trans (lift_bind hc)⟩
  | @image element dim sampled format name hx hd =>
    refine ⟨fun s => "texture" ++ name ++ "<" ++ s ++ (if sampled = 2 then ", access::write" else "") ++ ">",
      fun next => (lift_bind hx).trans ?_⟩
    dsimp only
    rw [hd]
    rfl

/-- Types that are named after one. -/
theorem Tables.NamedAfter.mem {t : Tables} {x y : UInt32} (h : t.NamedAfter x y) :
    x ∈ t.types.map (·.1) := by
  have hmem : ∀ {info : TypeInfo}, t.typeOf x = .ok info → x ∈ t.types.map (·.1) := by
    intro info hx
    rw [typeOf] at hx
    split at hx
    · rename_i hlookup
      exact List.mem_map.2 ⟨_, lookup_mem hlookup, rfl⟩
    · cases hx
  cases h with
  | vector hx => exact hmem hx
  | matrix hx _ => exact hmem hx
  | image hx _ => exact hmem hx

/-- **A type that is not named after itself has a name**, or an error. -/
theorem typeRound_ends {x : UInt32} (hx : ¬ Circular t.NamedAfter x) {n : Nat} (hn : t.types.length < n) :
    EndsAt (typeRound t) n x := by
  refine rounds_induction (P := fun n x => EndsAt (typeRound t) n x) (fun _ _ h => h.mem) ?_ hx
    (by rwa [List.length_map])
  intro n x h next next'
  rw [Function.iterate_succ_apply', Function.iterate_succ_apply']
  exact typeRound_congr t fun y hy => h y hy next next'

/-- **A type that is named after itself has no name**: it is followed until that is cut off. -/
theorem typeNameWithin_circular {x : UInt32} (hx : Circular t.NamedAfter x) (n : Nat) (names : Names) :
    (typeNameWithin t n x).run names = .error t.limit.cutOff := by
  induction n generalizing x with
  | zero => rfl
  | succ n ih =>
    obtain ⟨y, hxy, hy⟩ := hx.next
    obtain ⟨call, hcall⟩ := typeRound_eq t hxy
    show StateT.run (typeRound t (typeNameWithin t n) x) names = _
    rw [hcall, StateT.run_bind, ih hy]
    rfl

/-! ### Constants -/

/-- One round of writing a constant, which names its types. -/
def literalRound (next : UInt32 → Naming String) (id : UInt32) : Naming String := do
  let c := (t.constants.lookup id).getD ⟨.nop, 0, []⟩
  if c.opcode = .constantTrue then return "true"
  else if c.opcode = .constantFalse then return "false"
  else if c.opcode = .constantNull then zeroLiteral t c.type
  else if c.opcode = .constantComposite then
    let parts ← c.operands.mapM next
    return (← typeName t c.type) ++ "(" ++ ", ".intercalate parts ++ ")"
  else
    let info ← t.typeOf c.type
    let word ← operand c.operands 0
    match info with
    | .float width =>
      if width = 16 then return floatLiteral (halfValue word) "h"
      else return floatLiteral (FloatFormat.binary32.decode word.toNat) "f"
    | .int _ true => return toString (signedWord word)
    | .int _ false => return s!"{word}u"
    | _ => fail id s!"unsupported constant of type {← typeName t c.type}"

theorem literalWithin_eq (depth : Nat) :
    literalWithin t depth = (literalRound t)^[depth] fun _ => t.cutOff := by
  induction depth with
  | zero => rfl
  | succ depth ih =>
    rw [Function.iterate_succ_apply', ← ih]
    rfl

/-- The parts of a composite constant. -/
def Tables.HasPart (t : Tables) (x y : UInt32) : Prop :=
  ∃ type parts, t.constants.lookup x = some ⟨.constantComposite, type, parts⟩ ∧ y ∈ parts

theorem literalRound_congr {next next' : UInt32 → Naming String} {x : UInt32}
    (h : ∀ y, t.HasPart x y → next y = next' y) : literalRound t next x = literalRound t next' x := by
  by_cases hc : ((t.constants.lookup x).getD ⟨.nop, 0, []⟩).opcode = .constantComposite
  · cases hx : t.constants.lookup x with
    | none =>
      rw [hx] at hc
      exact absurd hc (by decide)
    | some c =>
      obtain ⟨op, type, parts⟩ := c
      rw [hx] at hc
      obtain rfl : op = .constantComposite := hc
      have hparts : parts.mapM next = parts.mapM next' := mapM_congr fun y hy => h y ⟨type, parts, hx, hy⟩
      simp only [literalRound, hx, Option.getD_some, hparts]
  · simp only [literalRound, if_neg hc]

theorem Tables.HasPart.mem {t : Tables} {x y : UInt32} (h : t.HasPart x y) :
    x ∈ t.constants.map (·.1) := by
  obtain ⟨type, parts, hx, -⟩ := h
  exact List.mem_map.2 ⟨_, lookup_mem hx, rfl⟩

/-- **A constant that is no part of itself is written** when its types are named. -/
theorem literalRound_ends {x : UInt32} (hx : ¬ Circular t.HasPart x) {n : Nat}
    (hn : t.constants.length < n) : EndsAt (literalRound t) n x := by
  refine rounds_induction (P := fun n x => EndsAt (literalRound t) n x) (fun _ _ h => h.mem) ?_ hx
    (by rwa [List.length_map])
  intro n x h next next'
  rw [Function.iterate_succ_apply', Function.iterate_succ_apply']
  exact literalRound_congr t fun y hy => h y hy next next'

/-- **A constant that is a part of itself is not written**, however deep its parts are followed. -/
theorem not_gives_literal {x : UInt32} (hx : Circular t.HasPart x) (n : Nat) (names names' : Names)
    (s : String) : ¬ Gives (literalWithin t n x) names s names' := by
  induction n generalizing x names names' s with
  | zero => exact fun h => by cases h
  | succ n ih =>
    obtain ⟨y, ⟨type, parts, hlookup, hy⟩, hcircular⟩ := hx.next
    intro h
    rw [literalWithin, hlookup] at h
    obtain ⟨texts, names₁, htexts, -⟩ := gives_bind.1 h
    have hall : List.Forall₂ (fun p text => ∃ names names', Gives (literalWithin t n p) names text names')
        parts texts := gives_mapM (fun p _ names text names' h => ⟨names, names', h⟩) htexts
    obtain ⟨text, -, names₂, names₃, htext⟩ := exists_of_mem_left hall hy
    exact ih hcircular names₂ names₃ text htext

/-! ### Blocks -/

/-- What is written after the instructions of a block in a round. -/
def endRound (next : UInt32 × UInt32 → Emit Unit) (b : Block) (label stop : UInt32) : Emit Unit := do
  let ops := b.terminator.operands
  if b.terminator.opcode = .returnVoid then
    Emit.line (if (← get).hasOutputs then "return out;" else "return;")
  else if b.terminator.opcode = .branch then
    let target ← operand ops 0
    Emit.assignPhis t label target
    next (target, stop)
  else if b.terminator.opcode = .branchConditional then
    if b.merge = 0 then fail label "conditional branch without a selection merge"
    let arm (target : UInt32) : Emit Unit :=
      Emit.braces (if target = b.merge then Emit.assignPhis t label b.merge
        else next (target, b.merge))
    Emit.line ("if (" ++ (← Emit.value t (← operand ops 0)) ++ ")")
    arm (← operand ops 1)
    Emit.line "else"
    arm (← operand ops 2)
    next (b.merge, stop)
  else fail label s!"unsupported block terminator {b.terminator.opcode.name}"

/-- One round of writing blocks, from a label on up to another, which writes their instructions. -/
def blockRound (next : UInt32 × UInt32 → Emit Unit) (p : UInt32 × UInt32) : Emit Unit := do
  if p.1 = p.2 then return
  match t.block? p.1 with
  | none => Emit.refuse t p.1
  | some b =>
    if (← get).visited.contains p.1 then Emit.refuse t p.1
    modify fun e => { e with visited := p.1 :: e.visited }
    b.instructions.forM (Emit.instruction t)
    endRound t next b p.1 p.2

theorem blocksFrom_succ (n : Nat) (label stop : UInt32) :
    Emit.blocksFrom t (n + 1) label stop =
      blockRound t (fun p => Emit.blocksFrom t n p.1 p.2) (label, stop) := by
  rw [Emit.blocksFrom.eq_def]
  unfold blockRound endRound
  dsimp only
  cases t.block? label with
  | none => rfl
  | some b => dsimp only

/-- How many blocks are not written yet. -/
def Emission.unvisited (e : Emission) : Nat := ((t.blocks.map (·.label)).filter (· ∉ e.visited)).length

theorem Emission.unvisited_le (e : Emission) : e.unvisited t ≤ t.blocks.length := by
  have h := List.length_filter_le (· ∉ e.visited) (t.blocks.map (·.label))
  rwa [List.length_map] at h

theorem Emission.Begins.unvisited_le {e e' : Emission} (h : e.Begins e') : e'.unvisited t ≤ e.unvisited t := by
  refine (List.monotone_filter_right _ fun l hl => ?_).length_le
  simp only [decide_eq_true_eq] at hl ⊢
  exact fun hmem => hl (h.visited hmem)

/-- A block that is written is one block less. -/
theorem Emission.unvisited_visit {e : Emission} {label : UInt32} {b : Block} (hb : t.block? label = some b)
    (hv : label ∉ e.visited) : unvisited t { e with visited := label :: e.visited } < e.unvisited t := by
  have hmem : label ∈ (t.blocks.map (·.label)).filter (· ∉ e.visited) := by
    rw [List.mem_filter, List.mem_map]
    refine ⟨⟨b, List.mem_reverse.1 (List.mem_of_find?_eq_some hb), ?_⟩, by simpa using hv⟩
    simpa using List.find?_some hb
  have hfilter : (t.blocks.map (·.label)).filter (· ∉ label :: e.visited) =
      ((t.blocks.map (·.label)).filter (· ∉ e.visited)).filter (· ≠ label) := by
    rw [List.filter_filter]
    refine List.filter_congr fun l _ => ?_
    simp [List.mem_cons, not_or]
  rw [unvisited, unvisited, hfilter]
  exact List.length_filter_lt_length_iff_exists.2 ⟨label, hmem, by simp⟩

section Agreement

variable {α β : Type} {A : Emission → Prop}

/-- Steps that do the same wherever something holds. -/
def AgreeOn (A : Emission → Prop) (x y : Emit α) : Prop := ∀ e, A e → x.run e = y.run e

theorem AgreeOn.refl (x : Emit α) : AgreeOn A x x := fun _ _ => rfl

/-- Steps agree if their parts do, since what was written stays so. -/
theorem AgreeOn.bind (hA : ∀ e e', e.Begins e' → A e → A e') {x y : Emit α} {f g : α → Emit β}
    (hxy : AgreeOn A x y) (hy : Keeps y) (hfg : ∀ a, AgreeOn A (f a) (g a)) :
    AgreeOn A (x >>= f) (y >>= g) := by
  intro e he
  rw [StateT.run_bind, StateT.run_bind, hxy e he]
  cases hrun : y.run e with
  | error err => rfl
  | ok p =>
    obtain ⟨a, e'⟩ := p
    exact hfg a e' (hA e e' (hy hrun) he)

theorem AgreeOn.ite {P : Prop} [Decidable P] {x x' y y' : Emit α} (h : AgreeOn A x y)
    (h' : AgreeOn A x' y') : AgreeOn A (if P then x else x') (if P then y else y') := by
  split
  · exact h
  · exact h'

theorem AgreeOn.braces (hA : ∀ e e', e.Begins e' → A e → A e')
    (hindent : ∀ (e : Emission) (k : Nat), A e → A { e with indent := k })
    {x y : Emit Unit} (h : AgreeOn A x y) (hy : Keeps y) :
    AgreeOn A (Emit.braces x) (Emit.braces y) := by
  refine AgreeOn.bind hA (.refl _) (keeps_line _) fun _ => ?_
  intro e he
  have hclose : ∀ _ : Unit, AgreeOn A
      (do modify fun e => { e with indent := e.indent - 1 }; Emit.line "\x7d" : Emit Unit)
      (do modify fun e => { e with indent := e.indent - 1 }; Emit.line "\x7d" : Emit Unit) := fun _ => .refl _
  exact AgreeOn.bind hA h hy hclose { e with indent := e.indent + 1 } (hindent e _ he)

end Agreement

variable {t} in
theorem endRound_agree {f g : UInt32 × UInt32 → Emit Unit} {n : Nat} (hg : ∀ p, Keeps (g p))
    (h : ∀ p, AgreeOn (fun e => e.unvisited t < n) (f p) (g p)) (b : Block) (label stop : UInt32) :
    AgreeOn (fun e => e.unvisited t < n) (endRound t f b label stop) (endRound t g b label stop) := by
  have hA : ∀ e e' : Emission, e.Begins e' → e.unvisited t < n → e'.unvisited t < n :=
    fun e e' h he => Nat.lt_of_le_of_lt (h.unvisited_le t) he
  have harm : ∀ target, AgreeOn (fun e => e.unvisited t < n)
      (Emit.braces (if target = b.merge then Emit.assignPhis t label b.merge else f (target, b.merge)))
      (Emit.braces (if target = b.merge then Emit.assignPhis t label b.merge else g (target, b.merge))) :=
    fun target => AgreeOn.braces hA (fun _ _ he => he) (.ite (.refl _) (h _))
      (every_ite (keeps_assignPhis t _ _) (hg _))
  have harms : ∀ target, Keeps
      (Emit.braces (if target = b.merge then Emit.assignPhis t label b.merge else g (target, b.merge))) :=
    fun target => keeps_braces (every_ite (keeps_assignPhis t _ _) (hg _))
  refine .ite (.refl _) (.ite ?_ (.ite ?_ (.refl _)))
  · exact .bind hA (.refl _) (keeps_lift _) fun target => .bind hA (.refl _) (keeps_assignPhis t _ _) fun _ => h _
  · refine .ite (.bind hA (.refl _) (keeps_lift _) fun _ => ?_) ?_
    all_goals
      exact .bind hA (.refl _) (keeps_lift _) fun _ => .bind hA (.refl _) (keeps_value t _) fun _ =>
        .bind hA (.refl _) (keeps_line _) fun _ => .bind hA (.refl _) (keeps_lift _) fun _ =>
          .bind hA (harm _) (harms _) fun _ => .bind hA (.refl _) (keeps_line _) fun _ =>
            .bind hA (.refl _) (keeps_lift _) fun _ => .bind hA (harm _) (harms _) fun _ => h _

/-- **One round of writing blocks** goes on with fewer blocks that are not written. -/
theorem blockRound_agree {f g : UInt32 × UInt32 → Emit Unit} {n : Nat} (hg : ∀ p, Keeps (g p))
    (h : ∀ p, AgreeOn (fun e => e.unvisited t < n) (f p) (g p)) (p : UInt32 × UInt32) :
    AgreeOn (fun e => e.unvisited t < n + 1) (blockRound t f p) (blockRound t g p) := by
  intro e he
  by_cases hne : p.1 = p.2
  · rw [blockRound, blockRound, if_pos hne, if_pos hne]
  cases hb : t.block? p.1 with
  | none => rw [blockRound, blockRound, if_neg hne, if_neg hne, hb]
  | some b =>
    have hA : ∀ e e' : Emission, e.Begins e' → e.unvisited t < n → e'.unvisited t < n :=
      fun e e' h he => Nat.lt_of_le_of_lt (h.unvisited_le t) he
    have hrest : AgreeOn (fun e => e.unvisited t < n)
        (b.instructions.forM (Emit.instruction t) >>= fun _ => endRound t f b p.1 p.2)
        (b.instructions.forM (Emit.instruction t) >>= fun _ => endRound t g b p.1 p.2) :=
      .bind hA (.refl _) (keeps_forM (keeps_instruction t) _) fun _ => endRound_agree hg h b p.1 p.2
    rw [blockRound, blockRound, if_neg hne, if_neg hne, hb]
    by_cases hv : e.visited.contains p.1 = true
    · show StateT.run (if e.visited.contains p.1 = true then _ else _) e =
        StateT.run (if e.visited.contains p.1 = true then _ else _) e
      obtain ⟨err, herr⟩ : ∃ err, (Emit.refuse t p.1 : Emit PUnit).run e = .error err := by
        rw [Emit.refuse]
        split <;> exact ⟨_, rfl⟩
      have hstop : ∀ k : PUnit × Emission → Result (Unit × Emission), (Except.error err >>= k) = .error err :=
        fun _ => rfl
      rw [if_pos hv, if_pos hv, StateT.run_bind, StateT.run_bind, herr, hstop, hstop]
    · show StateT.run (if e.visited.contains p.1 = true then _ else _) e =
        StateT.run (if e.visited.contains p.1 = true then _ else _) e
      rw [if_neg hv, if_neg hv]
      have hlt := e.unvisited_visit t hb (by simpa using hv)
      exact hrest { e with visited := p.1 :: e.visited } (by omega)

/-- As many rounds as there are blocks to be written write them, whatever comes next. -/
theorem rounds_agree (n : Nat) (next : UInt32 × UInt32 → Emit Unit) (p : UInt32 × UInt32) :
    AgreeOn (fun e => e.unvisited t < n) ((blockRound t)^[n] next p) (Emit.blocksFrom t n p.1 p.2) := by
  induction n generalizing p with
  | zero => exact fun e he => absurd he (Nat.not_lt_zero _)
  | succ n ih =>
    rw [Function.iterate_succ_apply', blocksFrom_succ]
    exact blockRound_agree t (fun p => keeps_blocksFrom t n p.1 p.2) ih p

theorem rounds_eq_blocksFrom {n : Nat} (hn : t.blocks.length < n) (next : UInt32 × UInt32 → Emit Unit)
    (p : UInt32 × UInt32) : (blockRound t)^[n] next p = Emit.blocksFrom t n p.1 p.2 :=
  StateT.ext fun e => rounds_agree t n next p e (Nat.lt_of_le_of_lt (e.unvisited_le t) hn)

end NodeShader.Metal
