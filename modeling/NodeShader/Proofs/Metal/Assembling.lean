import NodeShader.Proofs.Metal.Emitting
import NodeShader.Proofs.Metal.Literals

/-!
# What is written for an instruction

Every identifier of code is spelled in one way (`Spells`): by the name of its local, as a literal, or by
the variable or the member of a variable it stands for.  An instruction prints the statements that are put
together from how its operands are spelled (`Prints`): the declaration of a local (`Initialises`), another
statement (`Performs`), or nothing.

* `instruction_prints`: **what is written for an instruction** that runs is what it prints, its text reads
  back as it was put together, and it names only locals that are declared before.
-/

namespace NodeShader.Metal

open Spirv

/-! ### Names and statements -/

/-- The name of a local. -/
def localName (x : UInt32) : String := s!"_{x}"

/-- The expression of the variable that a binding is of. -/
def variableText (b : Binding) : String :=
  match b.kind with
  | .stageOutput => "out." ++ b.name
  | .stageInput => if b.builtIn = Emit.gridPosition then b.name else "in." ++ b.name
  | _ => b.name

/-- A statement of a function: a local is declared with its value, or something is done. -/
inductive Statement where
  | declare (type : String) (x : UInt32) (pieces : List Piece)
  | perform (pieces : List Piece)

namespace Statement

/-- The pieces of the value or of what is done. -/
def pieces : Statement → List Piece
  | declare _ _ ps => ps
  | perform ps => ps

/-- The text of a statement. -/
def text : Statement → String
  | declare type x ps => type ++ " " ++ localName x ++ " = " ++ textOf ps ++ ";"
  | perform ps => textOf ps

/-- The local that a statement declares. -/
def declared : Statement → List UInt32
  | declare _ x _ => [x]
  | perform _ => []

end Statement

/-- An instruction whose result has no local: it stands for a place or an object. -/
def Silent (t : Tables) (i : Instruction) : Prop :=
  i.opcode = .accessChain ∨ i.opcode = .sampledImage ∨
    i.opcode = .load ∧ ∃ info, t.typeOf i.resultType = .ok info ∧ info.isOpaque = true

section Spelling

variable (t : Tables) (bs : List Binding) (W : List Instruction)

/-- **The expression of a place**: a variable, or a member of what a variable holds. -/
inductive Place : UInt32 → String → Prop
  | variable_ {b : Binding} : b ∈ bs → Place b.variable_ (variableText b)
  | member {t' x b k w struct : UInt32} {s : String} : ⟨.accessChain, [t', x, b, k]⟩ ∈ W → Place b s →
      t.constantValue k = .ok w → Place x (s ++ "." ++ memberName t struct w.toNat)

/-- **The expression of a result**: the name of its local, or what it stands for. -/
inductive Named : UInt32 → String → Prop
  | local_ {i : Instruction} {x : UInt32} : i ∈ W → i.result? = some x → ¬ Silent t i → Named x (localName x)
  | place {x : UInt32} {s : String} : Place t bs W x s → Named x s
  | object {t' x p : UInt32} {s : String} : ⟨.load, [t', x, p]⟩ ∈ W → Silent t ⟨.load, [t', x, p]⟩ →
      Place t bs W p s → Named x s

/-- **How an identifier is spelled**: as a result is, or as a literal. -/
inductive Spells : UInt32 → String → Prop
  | named {x : UInt32} {s : String} : Named t bs W x s → Spells x s
  | literal {x : UInt32} {s : String} {names names' : Names} : (t.constants.lookup x).isSome = true →
      Gives (literal t x) names s names' → Spells x s

/-- **The value that a local is declared with**, for the instruction it is the result of. -/
inductive Initialises (i : Instruction) : List Piece → Prop
  | binary {op a b : String} {x y : UInt32} : binaryOperators.lookup i.opcode = some op → i.args = [x, y] →
      Spells t bs W x a → Spells t bs W y b →
      Initialises i [.operand x a, .gap, .token op, .gap, .operand y b]
  | negate {a : String} {x : UInt32} : i.opcode = .fNegate ∨ i.opcode = .sNegate → i.args = [x] →
      Spells t bs W x a → Initialises i [.token "-", .operand x a]
  | construct {type : String} {args : List (UInt32 × String)} {names names' : Names} :
      i.opcode = .compositeConstruct ∨ i.opcode = .convertUToF → args.map (·.1) = i.args →
      Gives (typeName t i.resultType) names type names' → (∀ a ∈ args, Spells t bs W a.1 a.2) →
      Initialises i (call type (args.map fun a => .operand a.1 a.2))
  | extract {a : String} {x k : UInt32} {letter : Char} : i.opcode = .compositeExtract → i.args = [x, k] →
      Spells t bs W x a → componentLetter k = .ok letter →
      Initialises i [.operand x a, .token ".", .token (String.ofList [letter])]
  | shuffle {a : String} {x y : UInt32} {ks : List UInt32} {letters : List Char} :
      i.opcode = .vectorShuffle → i.args = x :: y :: ks → Spells t bs W x a →
      List.Forall₂ (fun k letter => componentLetter k = .ok letter) ks letters →
      Initialises i [.operand x a, .token ".", .token (String.ofList letters)]
  | dot {a b : String} {x y : UInt32} : i.opcode = .dot → i.args = [x, y] → Spells t bs W x a →
      Spells t bs W y b → Initialises i (call "dot" [.operand x a, .operand y b])
  | function {fn : String} {set k : UInt32} {args : List (UInt32 × String)} : i.opcode = .extInst →
      i.args = set :: k :: args.map (·.1) → (k, fn) ∈ extendedFunctions ++ scalarFunctions →
      (∀ a ∈ args, Spells t bs W a.1 a.2) →
      Initialises i (call fn (args.map fun a => .operand a.1 a.2))
  | sample {image sampler position : String} {t' j x y p : UInt32} : i.opcode = .imageSampleImplicitLod →
      i.args = [j, p] → ⟨.sampledImage, [t', j, x, y]⟩ ∈ W → Spells t bs W x image →
      Spells t bs W y sampler → Spells t bs W p position →
      Initialises i (.operand x image :: .token "." ::
        call "sample" [.operand y sampler, .operand p position])
  | sampleLevel {image sampler position level : String} {t' j x y p z : UInt32} :
      i.opcode = .imageSampleExplicitLod → i.args = [j, p, imageOperandsLod, z] →
      ⟨.sampledImage, [t', j, x, y]⟩ ∈ W → Spells t bs W x image → Spells t bs W y sampler →
      Spells t bs W p position → Spells t bs W z level →
      Initialises i (.operand x image :: .token "." :: .token "sample" :: .token "(" ::
        .operand y sampler :: .token "," :: .gap :: .operand p position :: .token "," :: .gap ::
          (call "level" [.operand z level] ++ [.token ")"]))
  | load {a : String} {x : UInt32} : i.opcode = .load → i.args = [x] → Spells t bs W x a →
      Initialises i [.operand x a]
  | loadPacked {a : String} {x : UInt32} : i.opcode = .load → i.args = [x] → Spells t bs W x a →
      Initialises i (call "float3" [.operand x a])

/-- **What is done** for an instruction without a result. -/
inductive Performs (i : Instruction) : List Piece → Prop
  | store {a b : String} {p x : UInt32} : i = ⟨.store, [p, x]⟩ → Spells t bs W p a → Spells t bs W x b →
      Performs i [.operand p a, .gap, .token "=", .gap, .operand x b, .token ";"]
  | write {image coordinate texel : String} {x y z : UInt32} : i = ⟨.imageWrite, [x, y, z]⟩ →
      Spells t bs W x image → Spells t bs W y coordinate → Spells t bs W z texel →
      Performs i (.operand x image :: .token "." ::
        (call "write" [.operand z texel, .operand y coordinate] ++ [.token ";"]))

/-- A sign before a signed number, which are read as one operator. -/
def Doubles (ps : List Piece) : Prop :=
  ∃ x s v, ps = [.token "-", .operand x s] ∧ s.toList = '-' :: v ∧ tokens s.toList = ['-'] :: tokens v ∧
    tokens (textOf ps).toList = ['-', '-'] :: tokens v

/-- **What an instruction prints**: nothing if it is one of those that open, join and end blocks, or if its
result has no local. -/
inductive Prints (i : Instruction) : List Statement → Prop
  | control : i.opcode ∈ Code.controlOps → Prints i []
  | silent : Silent t i → Prints i []
  | declare {type : String} {ps : List Piece} {names names' : Names} :
      Gives (typeName t i.resultType) names type names' → Initialises t bs W i ps →
      ReadsBack ps ∨ Doubles ps → Prints i [.declare type i.result ps]
  | perform {ps : List Piece} : Performs t bs W i ps → ReadsBack ps → Prints i [.perform ps]

end Spelling

/-- **A text names only some locals.** -/
def Mentions (xs : List UInt32) (s : List Char) : Prop :=
  ∀ w ∈ tokens s, w.head? = some '_' → ∃ x ∈ xs, w = (localName x).toList

/-- What is held by an identifier of code: a local that is declared, or a place or an object. -/
inductive Held (t : Tables) (W : List Instruction) (xs : List UInt32) (x : UInt32) (ty : Ty) : Prop
  | local_ {i : Instruction} : i ∈ W → i.result? = some x → ¬ Silent t i → x ∈ xs →
      Emission.isLocal ty = true → Held t W xs x ty
  | silent {i : Instruction} : i ∈ W → i.result? = some x → Silent t i →
      (∀ k c, ty = .pointer k c → i.opcode = .accessChain) → Held t W xs x ty

/-- **The variables of a module have bindings**, whose names are words of the language. -/
structure Listed (t : Tables) (bs : List Binding) : Prop where
  ids : bs.map (·.variable_) = t.globals.map (·.id)
  names : ∀ b ∈ bs, b.name.toList.head?.any Char.isAlpha = true ∧ ∀ c ∈ b.name.toList, isWordChar c = true

/-! ### Texts -/

/-- **The text of a place**: words with points between them, none of which is a local. -/
structure IsPath (s : String) : Prop where
  closed : Closed s.toList
  start : s.toList.head?.any Char.isAlpha = true
  plain : ∀ w ∈ tokens s.toList, w.head? ≠ some '_'

section Texts

variable {t : Tables} {bs : List Binding} {W : List Instruction} {x : UInt32} {s s' : String}
  {xs ys : List UInt32} {ps : List Piece}

theorem isIdentifier_of_start (hstart : s.toList.head?.any Char.isAlpha = true)
    (hword : ∀ c ∈ s.toList, isWordChar c = true) : isIdentifier s.toList = true := by
  cases hs : s.toList with
  | nil =>
    rw [hs] at hstart
    cases hstart
  | cons c cs =>
    rw [hs] at hstart hword
    have hc : c.isAlpha = true := hstart
    rw [isIdentifier_cons, hc]
    exact ⟨rfl, fun d hd => hword d (List.mem_cons_of_mem _ hd)⟩

theorem head_of_start {s : List Char} (hstart : s.head?.any Char.isAlpha = true) : s.head? ≠ some '_' := by
  intro h
  rw [h] at hstart
  cases hstart

/-- A word is the text of a place. -/
theorem isPath_word (hstart : s.toList.head?.any Char.isAlpha = true)
    (hword : ∀ c ∈ s.toList, isWordChar c = true) : IsPath s := by
  have hid := isIdentifier_of_start hstart hword
  refine ⟨closed_identifier hid, hstart, ?_⟩
  rw [tokens_of_identifier hid]
  exact List.forall_mem_singleton.2 (head_of_start hstart)

/-- A member of a place. -/
theorem IsPath.member (h : IsPath s) (hstart : s'.toList.head?.any Char.isAlpha = true)
    (hword : ∀ c ∈ s'.toList, isWordChar c = true) : IsPath (s ++ "." ++ s') := by
  have hlist : (s ++ "." ++ s').toList = s.toList ++ '.' :: s'.toList := by
    rw [String.toList_append, String.toList_append, List.append_assoc]
    rfl
  obtain ⟨hclosed, htokens⟩ := h.closed.member (isIdentifier_of_start hstart hword) hstart
  refine ⟨hlist ▸ hclosed, ?_, ?_⟩
  · have h := h.start
    rw [hlist]
    cases hs : s.toList with
    | nil =>
      rw [hs] at h
      cases h
    | cons c cs =>
      rw [hs] at h
      exact h
  · rw [hlist, htokens]
    refine List.forall_mem_append.2 ⟨h.plain, List.forall_mem_cons.2 ⟨by decide, ?_⟩⟩
    exact List.forall_mem_singleton.2 (head_of_start hstart)

theorem IsPath.opens (h : IsPath s) : Opens s.toList := by
  have hstart := h.start
  cases hs : s.toList with
  | nil =>
    rw [hs] at hstart
    cases hstart
  | cons c cs =>
    rw [hs] at hstart
    have hc : c.isAlpha = true := hstart
    exact opens_of_word (isWordChar_of_start (by rw [hc]; rfl))

theorem IsPath.mentions (h : IsPath s) : Mentions xs s.toList := fun w hw hmark =>
  absurd hmark (h.plain w hw)

theorem memberName_start (struct : UInt32) (k : Nat) :
    (memberName t struct k).toList.head?.any Char.isAlpha = true ∧
      ∀ c ∈ (memberName t struct k).toList, isWordChar c = true := by
  rw [memberName]
  split
  · exact ⟨(sanitize_spec _).start, (sanitize_spec _).word⟩
  · have hlist : (s!"m{k}" : String).toList = 'm' :: Nat.toDigits 10 k := by
      show ("m" ++ toString k : String).toList = _
      rw [String.toList_append, show (toString k).toList = _ from String.toList_ofList]
      rfl
    rw [hlist]
    exact ⟨rfl, List.forall_mem_cons.2 ⟨rfl, fun c hc => (isWordChar_of_isDigit
      (Nat.isDigit_of_mem_toDigits (by decide) (by decide) hc)).1⟩⟩

/-- The expression of a variable is a path. -/
theorem isPath_variableText (h : Listed t bs) {b : Binding} (hb : b ∈ bs) : IsPath (variableText b) := by
  obtain ⟨hstart, hword⟩ := h.names b hb
  have hmember : ∀ {w : String}, w.toList.head?.any Char.isAlpha = true → w.toList.all isWordChar = true →
      IsPath (w ++ "." ++ b.name) := fun hs hw =>
    (isPath_word hs (List.all_eq_true.1 hw)).member hstart hword
  rw [variableText]
  split
  · exact hmember (w := "out") rfl rfl
  · split
    · exact isPath_word hstart hword
    · exact hmember (w := "in") rfl rfl
  · exact isPath_word hstart hword

/-- **The expression of a place is a path.** -/
theorem Place.isPath (h : Listed t bs) (hp : Place t bs W x s) : IsPath s := by
  induction hp with
  | variable_ hb => exact isPath_variableText h hb
  | member _ _ _ ih => exact ih.member (memberName_start _ _).1 (memberName_start _ _).2

theorem localName_toList (x : UInt32) : (localName x).toList = '_' :: Nat.toDigits 10 x.toNat := by
  show ("_" ++ toString x : String).toList = _
  rw [String.toList_append, show (toString x).toList = _ from String.toList_ofList]
  rfl

theorem isIdentifier_localName (x : UInt32) : isIdentifier (localName x).toList = true := by
  rw [localName_toList, isIdentifier_cons]
  exact ⟨rfl, fun c hc => (isWordChar_of_isDigit (Nat.isDigit_of_mem_toDigits (by decide) (by decide) hc)).1⟩

theorem Mentions.mono (h : Mentions xs s.toList) (hsub : xs ⊆ ys) : Mentions ys s.toList := fun w hw hmark =>
  (h w hw hmark).imp fun _ hx => ⟨hsub hx.1, hx.2⟩

/-- The name of a local mentions it. -/
theorem mentions_localName (h : x ∈ xs) : Mentions xs (localName x).toList := by
  intro w hw _
  rw [tokens_of_identifier (isIdentifier_localName x), List.mem_singleton] at hw
  exact ⟨x, h, hw⟩

/-- Every token of a text is part of it. -/
theorem mem_of_mem_tokens {s w : List Char} (hw : w ∈ tokens s) : ∀ c ∈ w, c ∈ s := by
  induction hn : s.length using Nat.strongRecOn generalizing s with
  | ind n ih =>
    cases s with
    | nil => cases hw
    | cons c s =>
      by_cases hc : isBlank c = true
      · rw [tokens_blank hc] at hw
        exact fun d hd => List.mem_cons_of_mem _ (ih s.length (hn ▸ Nat.lt_succ_self _) hw rfl d hd)
      · rw [Bool.not_eq_true] at hc
        obtain ⟨u, v, hsplit, hu, hmax⟩ := exists_token (s := s) hc
        rw [hsplit, tokens_token hu hmax, List.mem_cons] at hw
        rw [hsplit]
        rcases hw with rfl | hw
        · exact fun d hd => List.mem_append_left _ hd
        · refine fun d hd => List.mem_append_right _ (ih v.length ?_ hw rfl d hd)
          have hpos : u ≠ [] := by
            rintro rfl
            cases hu
          have := List.length_pos_of_ne_nil hpos
          rw [← hn, hsplit, List.length_append]
          omega

/-- A text without underscores mentions no local. -/
theorem mentions_of_unmarked (h : '_' ∉ s.toList) : Mentions xs s.toList := by
  intro w hw hmark
  obtain ⟨v, rfl⟩ : ∃ v, w = '_' :: v := by
    cases w with
    | nil => cases hmark
    | cons c v =>
      obtain rfl : c = '_' := Option.some.inj hmark
      exact ⟨v, rfl⟩
  exact absurd (mem_of_mem_tokens hw '_' List.mem_cons_self) h

/-- A piece that names only some locals. -/
def Piece.Mentions (xs : List UInt32) (p : Piece) : Prop :=
  ∀ w ∈ p.tokens, w.head? = some '_' → ∃ x ∈ xs, w = (localName x).toList

theorem mentions_token (h : s.toList.head? ≠ some '_') : (Piece.token s).Mentions xs := by
  intro w hw hmark
  obtain rfl := List.mem_singleton.1 (show w ∈ [s.toList] from hw)
  exact absurd hmark h

theorem mentions_gap : Piece.gap.Mentions xs := fun _ hw => absurd hw List.not_mem_nil

/-- **Pieces that read back name what their parts name.** -/
theorem mentions_textOf (hps : ∀ p ∈ ps, p.Mentions xs) (h : ReadsBack ps ∨ Doubles ps) :
    Mentions xs (textOf ps).toList := by
  rcases h with h | ⟨x, s, v, rfl, hs, htokens, hdouble⟩
  · intro w hw
    rw [h, List.mem_flatMap] at hw
    obtain ⟨p, hp, hw⟩ := hw
    exact hps p hp w hw
  · intro w hw hmark
    rw [hdouble, List.mem_cons] at hw
    rcases hw with rfl | hw
    · cases hmark
    · refine hps (.operand x s) (by simp) w ?_ hmark
      show w ∈ tokens s.toList
      rw [htokens]
      exact List.mem_cons_of_mem _ hw

theorem mentions_commas (h : ∀ p ∈ ps, p.Mentions xs) : ∀ p ∈ commas ps, p.Mentions xs := by
  fun_induction commas ps with
  | case1 => exact h
  | case2 p => exact h
  | case3 p q ps ih =>
    rw [List.forall_mem_cons] at h
    exact List.forall_mem_cons.2 ⟨h.1, List.forall_mem_cons.2 ⟨mentions_token (by decide),
      List.forall_mem_cons.2 ⟨mentions_gap, ih h.2⟩⟩⟩

theorem mentions_call {f : String} (hf : f.toList.head? ≠ some '_') (h : ∀ p ∈ ps, p.Mentions xs) :
    ∀ p ∈ call f ps, p.Mentions xs :=
  List.forall_mem_cons.2 ⟨mentions_token hf, List.forall_mem_cons.2 ⟨mentions_token (by decide),
    List.forall_mem_append.2 ⟨mentions_commas h, List.forall_mem_singleton.2 (mentions_token (by decide))⟩⟩⟩

end Texts

/-! ### What is known while lines are written -/

/-- A line at a depth. -/
def indented (depth : Nat) (s : String) : String := if s = "" then "" else "".pushn ' ' (4 * depth) ++ s

namespace Emission

/-- **All expressions that are known** are those of results and places. -/
structure Speaks (t : Tables) (bs : List Binding) (W : List Instruction) (e : Emission) : Prop where
  exprs : ∀ p ∈ e.exprs, Named t bs W p.1 p.2
  sampled : ∀ p ∈ e.sampled, ∃ t' a b, ⟨.sampledImage, [t', p.1, a, b]⟩ ∈ W ∧
    (Spells t bs W a p.2.1 ∧ IsPath p.2.1) ∧ Spells t bs W b p.2.2 ∧ IsPath p.2.2

/-- **Some lines are added** at the depth that writing has come to. -/
structure Adds (ls : List String) (e e' : Emission) : Prop where
  lines : e'.lines.toList = e.lines.toList ++ ls
  indent : e'.indent = e.indent
  outputs : e'.hasOutputs = e.hasOutputs

theorem Adds.refl (e : Emission) : e.Adds [] e := ⟨(List.append_nil _).symm, rfl, rfl⟩

theorem Adds.trans {ls ls' : List String} {e e' e'' : Emission} (h : e.Adds ls e') (h' : e'.Adds ls' e'') :
    e.Adds (ls ++ ls') e'' :=
  ⟨by rw [h'.lines, h.lines, List.append_assoc], h'.indent.trans h.indent, h'.outputs.trans h.outputs⟩

end Emission

/-- All identifiers of a context are held. -/
def HeldAll {I : Interpretation} (t : Tables) (W : List Instruction) (xs : List UInt32) (Γ : Context I) : Prop :=
  ∀ a ∈ Γ, Held t W xs a.1 a.2.1

theorem HeldAll.mono {I : Interpretation} {t : Tables} {W : List Instruction} {xs ys : List UInt32}
    {Γ : Context I} (h : HeldAll t W xs Γ) (hsub : xs ⊆ ys) : HeldAll t W ys Γ := by
  intro a ha
  cases h a ha with
  | local_ hi hr hs hx hp => exact .local_ hi hr hs (hsub hx) hp
  | silent hi hr hs hp => exact .silent hi hr hs hp

/-- **The state that a line is written from**, and what is known there. -/
structure Writing {I : Interpretation} (t : Tables) (bs : List Binding) (D W : List Instruction)
    (xs : List UInt32) (Γ : Context I) (e : Emission) : Prop where
  sound : e.Sound D W
  tells : e.TellsAll D Γ
  speaks : e.Speaks t bs W
  held : HeldAll t W xs Γ

/-- Other names are given, and other lines are there. -/
theorem Writing.same {I : Interpretation} {t : Tables} {bs : List Binding} {D W : List Instruction}
    {xs : List UInt32} {Γ : Context I} {e e' : Emission} (w : Writing t bs D W xs Γ e)
    (hexprs : e'.exprs = e.exprs) (htypes : e'.valueTypes = e.valueTypes)
    (hpointees : e'.pointees = e.pointees) (hsampled : e'.sampled = e.sampled) :
    Writing t bs D W xs Γ e' where
  sound := ⟨htypes ▸ w.sound.types, hpointees ▸ w.sound.pointees, hexprs ▸ hpointees ▸ w.sound.declared⟩
  tells := w.tells.mono ⟨hexprs ▸ List.suffix_refl _, htypes ▸ List.suffix_refl _,
    hpointees ▸ List.suffix_refl _, hsampled ▸ List.suffix_refl _⟩
  speaks := ⟨hexprs ▸ w.speaks.exprs, hsampled ▸ w.speaks.sampled⟩
  held := w.held

/-- Other names are given. -/
theorem Writing.named {I : Interpretation} {t : Tables} {bs : List Binding} {D W : List Instruction}
    {xs : List UInt32} {Γ : Context I} {e : Emission} (w : Writing t bs D W xs Γ e) (names : Names) :
    Writing t bs D W xs Γ { e with names } := w.same rfl rfl rfl rfl

/-! ### Steps taken apart -/

section Steps

variable {t : Tables} {e e' : Emission} {x : UInt32} {s : String} {u : Unit} {α : Type} {a : α}

/-- What a step yields it gives. -/
theorem Yields.of_gives {σ : Type} {step : StateT σ Result α} {s s' : σ} {Q : α → σ → Prop} (h : Yields step s Q)
    (hg : Gives step s a s') : Q a s' := by
  obtain ⟨b, s'', hb, hQ⟩ := h
  obtain ⟨rfl, rfl⟩ := Gives.unique hg hb
  exact hQ

theorem gives_naming {step : Naming α} (h : Gives (Emit.naming step) e a e') :
    ∃ names, e' = { e with names } ∧ Gives step e.names a names := by
  rw [Emit.naming, gives_get_bind] at h
  obtain ⟨⟨b, names⟩, hstep, h⟩ := gives_lift_bind.1 h
  obtain ⟨_, e₁, h₁, h⟩ := gives_bind.1 h
  obtain ⟨rfl, rfl⟩ := gives_pure.1 h
  exact ⟨names, gives_modify.1 h₁, hstep⟩

theorem gives_line (h : Gives (Emit.line s) e u e') :
    e' = { e with lines := e.lines.push (indented e.indent s) } := gives_modify.1 h

/-- The expression of an identifier is known, or it is a literal. -/
theorem gives_value (h : Gives (Emit.value t x) e s e') : ∃ names, e' = { e with names } ∧
    ((x, s) ∈ e.exprs ∨ e.exprs.lookup x = none ∧ (t.constants.lookup x).isSome = true ∧
      Gives (literal t x) e.names s names) := by
  rw [Emit.value, gives_get_bind] at h
  split at h
  · rename_i expr hl
    obtain ⟨rfl, rfl⟩ := gives_pure.1 h
    exact ⟨e'.names, rfl, .inl (lookup_mem hl)⟩
  · rename_i hl
    split at h
    · rename_i hc
      obtain ⟨names, rfl, hlit⟩ := gives_naming h
      exact ⟨names, rfl, .inr ⟨hl, hc, hlit⟩⟩
    · cases (gives_lift.1 h).1

/-- A local is declared with its value. -/
theorem gives_declare {i : Instruction} {expr : String} (h : Gives (Emit.declare t i expr) e u e') :
    ∃ type names, Gives (typeName t i.resultType) e.names type names ∧
      e' = { e with
        names
        lines := e.lines.push (indented e.indent s!"{type} _{i.result} = {expr};")
        exprs := (i.result, localName i.result) :: e.exprs
        valueTypes := (i.result, i.resultType) :: e.valueTypes } := by
  obtain ⟨type, e₁, h₁, h⟩ := gives_bind.1 h
  obtain ⟨names, rfl, htype⟩ := gives_naming h₁
  obtain ⟨_, e₂, h₂, h⟩ := gives_bind.1 h
  obtain ⟨_, e₃, h₃, h⟩ := gives_bind.1 h
  refine ⟨type, names, htype, ?_⟩
  rw [gives_modify.1 h, gives_modify.1 h₃, gives_line h₂]
  rfl

end Steps

section Setting

variable [NameLimit] {I : Interpretation} {t : Tables} {bs : List Binding} {s : Surroundings I}
  {A : List Instruction} {R : List UInt32} {globals W : List Instruction} {Γ Γ' : Context I}
  {i j : Instruction} {x y : UInt32} {ty : Ty} {v : I.Value} {d : Datum I.Value} {e e' : Emission}
  {text : String} {xs : List UInt32} {u : Unit}

variable (S : Setting t s A R globals W) (L : Listed t bs)
include S L

/-- What a variable with a binding is declared by. -/
theorem Listed.declared {b : Binding} (hb : b ∈ bs) :
    ∃ i ∈ globals, i.opcode = .variableDecl ∧ i.result? = some b.variable_ := by
  obtain ⟨g, hg, hid⟩ : ∃ g ∈ t.globals, g.id = b.variable_ :=
    List.mem_map.1 (L.ids ▸ List.mem_map.2 ⟨b, hb, rfl⟩)
  rw [S.hold.globals, List.mem_filterMap] at hg
  obtain ⟨⟨op, ops⟩, hi, hdecl⟩ := hg
  unfold declaredVariable? at hdecl
  split at hdecl
  · rename_i hop
    split at hdecl
    · rename_i p x s hops
      cases hdecl
      cases hop
      cases hops
      exact ⟨_, hi, rfl, congrArg some hid⟩
    · cases hdecl
  · cases hdecl

omit L in
/-- Places and objects are no locals. -/
theorem Setting.not_silent (hi : i ∈ W) (hx : i.result? = some x) (hs : Silent t i) (hj : j ∈ W)
    (hx' : j.result? = some x) (hs' : ¬ Silent t j) : False :=
  hs' (S.eq_of_result hi hj hx hx' ▸ hs)

/-- **How an operand is written**: as it is spelled, with the locals that are declared. -/
structure Worded (t : Tables) (bs : List Binding) (W : List Instruction) (xs : List UInt32) (x : UInt32)
    (text : String) : Prop where
  spells : Spells t bs W x text
  mentions : Mentions xs text.toList
  opens : Opens text.toList

omit [NameLimit] S L in
/-- The expression of a place or an object. -/
theorem Named.worded_path (h : Named t bs W x text) (hp : IsPath text) :
    Worded t bs W xs x text ∧ Closed text.toList :=
  ⟨⟨.named h, hp.mentions, hp.opens⟩, hp.closed⟩

omit [NameLimit] S L in
theorem opens_localName (x : UInt32) : Opens (localName x).toList := by
  rw [localName_toList]
  exact opens_of_word rfl

/-- **The expression of an identifier of code.** -/
theorem Named.worded (h : Named t bs W x text) (hx : Held t W xs x ty) :
    Worded t bs W xs x text ∧ Closed text.toList := by
  have hn := h
  cases h with
  | place hp => exact hn.worded_path (hp.isPath L)
  | object _ _ hp => exact hn.worded_path (hp.isPath L)
  | local_ hj hr' hs' =>
    cases hx with
    | silent hi hr hs => exact (S.not_silent hi hr hs hj hr' hs').elim
    | local_ _ _ _ hmem =>
      exact ⟨⟨.named hn, mentions_localName hmem, opens_localName x⟩,
        closed_identifier (isIdentifier_localName x)⟩

omit [NameLimit] S L in
/-- A constant is declared as one. -/
theorem declared_of_value {D : List Instruction} (h : GlobalAt I D x ty (.value v)) :
    ∃ i ∈ D, i.opcode ≠ .variableDecl ∧ i.result? = some x := by
  have hops : ∀ op ∈ [Opcode.constant, .constantTrue, .constantFalse, .constantNull, .constantComposite],
      op ≠ .variableDecl := by decide
  cases h with
  | scalar hs =>
    cases hs with
    | word hm => exact ⟨_, hm, hops _ (by simp), rfl⟩
    | yes hm => exact ⟨_, hm, hops _ (by simp), rfl⟩
    | no hm => exact ⟨_, hm, hops _ (by simp), rfl⟩
  | null hm => exact ⟨_, hm, hops _ (by simp), rfl⟩
  | composite hm => exact ⟨_, hm, hops _ (by simp), rfl⟩

omit L in
/-- A constant is a scalar or a vector. -/
theorem component_of_value (h : GlobalAt I s.decls x ty (.value v)) : ty.component.isScalar = true := by
  have hscalar : ∀ {ty : Ty}, ty.isScalar = true → ty.component.isScalar = true := by
    intro ty h
    cases ty with
    | bool | int | float => rfl
    | _ => cases h
  cases h with
  | scalar hs =>
    cases hs with
    | word _ _ hs => exact hscalar hs
    | yes | no => rfl
  | null _ _ hs => exact hs
  | composite _ hc => exact (S.vector hc).1

/-- A constant is written as a literal. -/
theorem Named.not_constant (h : Named t bs W x text) (hx : GlobalAt I s.decls x ty (.value v)) : False := by
  obtain ⟨i, hi, hop, hr⟩ := declared_of_value hx
  have hi := S.decls.subset hi
  cases h with
  | local_ hj hr' => exact S.not_global hi hr hj hr'
  | object hj => exact S.not_global hi hr hj rfl
  | place hp =>
    cases hp with
    | member hj => exact S.not_global hi hr hj rfl
    | variable_ hb =>
      obtain ⟨j, hj, hop', hr'⟩ := L.declared S hb
      exact hop (NodeShader.Spirv.eq_of_result S.distinct hi hj hr hr' ▸ hop')

omit L in
/-- **The text of a constant.** -/
theorem literal_worded (h : GlobalAt I s.decls x ty (.value v)) {names names' : Names}
    (hc : (t.constants.lookup x).isSome = true) (hg : Gives (literal t x) names text names') :
    Worded t bs W xs x text ∧ (ty.isScalar = false → Closed text.toList) := by
  have hlit := literal_spec S.toScope S.hold h hg
  refine ⟨⟨.literal hc hg, mentions_of_unmarked hlit.unmarked, hlit.opens⟩, fun hs => ?_⟩
  obtain ⟨c, n, rfl⟩ : ∃ c n, ty = .vector c n := by
    have hcomponent := component_of_value S h
    cases ty with
    | vector c n => exact ⟨c, n, rfl⟩
    | _ => cases hs.symm.trans hcomponent
  obtain ⟨w, hw⟩ := hlit.closes c n rfl
  rw [hw]
  exact closed_concat rfl w

/-- **The text of a value.** -/
theorem value_spec (w : Writing t bs s.decls W xs Γ e) (h : Known s Γ x ty (.value v)) (hn : named ty = true) (hg : Gives (Emit.value t x) e text e') :
    ∃ names, e' = { e with names } ∧ Worded t bs W xs x text ∧ (ty.isScalar = false → Closed text.toList) := by
  obtain ⟨names, rfl, hmem | ⟨hnone, hc, hlit⟩⟩ := gives_value hg
  · refine ⟨names, rfl, ?_⟩
    have hname : Named t bs W x text := w.speaks.exprs _ hmem
    rcases h with h | h
    · exact (hname.worded S L (w.held _ h)).imp id fun hclosed _ => hclosed
    · exact (hname.not_constant S L h).elim
  · refine ⟨names, rfl, ?_⟩
    rcases h with h | h
    · have hsome := (w.tells _ h).expr (ne_of_named hn)
      rw [hnone] at hsome
      cases hsome
    · exact literal_worded S h hc hlit

omit L in
/-- **The text of a place.** -/
theorem place_spec {k b : UInt32} {path : List UInt32} (w : Writing t bs s.decls W xs Γ e) (h : Known s Γ x (.pointer k ty) (.place b path))
    (hg : Gives (Emit.value t x) e text e') : ∃ names, e' = { e with names } ∧ Place t bs W x text := by
  obtain ⟨names, rfl, hmem | ⟨hnone, -, -⟩⟩ := gives_value hg
  · refine ⟨names, rfl, ?_⟩
    have hname : Named t bs W x text := w.speaks.exprs _ hmem
    cases hname with
    | place hp => exact hp
    | local_ hj hr' hs' =>
      rcases h with h | h
      · cases w.held _ h with
        | local_ _ _ _ _ hp => cases hp
        | silent hi hr hs => exact (S.not_silent hi hr hs hj hr' hs').elim
      · obtain ⟨i, hi, hr⟩ := h.declared
        exact (S.not_both hi hr hj hr').elim
    | object hj =>
      rcases h with h | h
      · cases w.held _ h with
        | local_ _ _ _ _ hp => cases hp
        | silent hi hr _ hop =>
          have hop := hop _ _ rfl
          rw [S.eq_of_result hi hj hr rfl] at hop
          cases hop
      · obtain ⟨i, hi, hr⟩ := h.declared
        exact (S.not_both hi hr hj rfl).elim
  · have hsome := (S.place w.sound w.tells h).1
    rw [hnone] at hsome
    cases hsome

/-- The text of an argument. -/
theorem argument_spec {n : Nat} (w : Writing t bs s.decls W xs Γ e) (hx : i.args[n]? = some x)
    (h : Known s Γ x ty (.value v)) (hn : named ty = true)
    (hg : Gives (do Emit.value t (← operand i.args n) : Emit String) e text e') : ∃ names, e' = { e with names } ∧
      Worded t bs W xs x text ∧ (ty.isScalar = false → Closed text.toList) := by
  obtain ⟨y, hy, hg⟩ := gives_lift_bind.1 hg
  rw [operand_eq hx, Except.ok.injEq] at hy
  subst hy
  exact value_spec S L w h hn hg

/-- The texts of values. -/
theorem texts_spec {ids : List UInt32} {ts : List Ty} {texts : List String} (w : Writing t bs s.decls W xs Γ e)
    (hts : ∀ ty ∈ ts, named ty = true)
    (h : List.Forall₂ (fun x ty => ∃ v : I.Value, Known s Γ x ty (.value v)) ids ts)
    (hg : Gives (ids.mapM (Emit.value t)) e texts e') : ∃ names, e' = { e with names } ∧
      ∃ args : List (UInt32 × String), args.map (·.1) = ids ∧ texts = args.map (·.2) ∧
        ∀ a ∈ args, Worded t bs W xs a.1 a.2 := by
  induction h generalizing e texts with
  | nil =>
    obtain ⟨rfl, rfl⟩ := gives_pure.1 hg
    exact ⟨e'.names, rfl, [], rfl, rfl, List.forall_mem_nil _⟩
  | cons hx _ ih =>
    rw [List.forall_mem_cons] at hts
    obtain ⟨v, hx⟩ := hx
    rw [List.mapM_cons] at hg
    obtain ⟨text, e₁, h₁, hg⟩ := gives_bind.1 hg
    obtain ⟨names, rfl, hw, -⟩ := value_spec S L w hx hts.1 h₁
    obtain ⟨texts', e₂, h₂, hg⟩ := gives_bind.1 hg
    obtain ⟨rfl, rfl⟩ := gives_pure.1 hg
    obtain ⟨names', rfl, args, hargs, rfl, hall⟩ := ih (w.named names) hts.2 h₂
    exact ⟨names', rfl, (_, text) :: args, by rw [List.map_cons, hargs], rfl, List.forall_mem_cons.2 ⟨hw, hall⟩⟩

/-- **The texts of values**, with commas. -/
theorem values_spec {ids : List UInt32} {ts : List Ty} (w : Writing t bs s.decls W xs Γ e)
    (hts : ∀ ty ∈ ts, named ty = true)
    (h : List.Forall₂ (fun x ty => ∃ v : I.Value, Known s Γ x ty (.value v)) ids ts)
    (hg : Gives (Emit.values t ids) e text e') : ∃ names, e' = { e with names } ∧
      ∃ args : List (UInt32 × String), args.map (·.1) = ids ∧ text = ", ".intercalate (args.map (·.2)) ∧
        ∀ a ∈ args, Worded t bs W xs a.1 a.2 := by
  obtain ⟨texts, e₁, htexts, hg⟩ := gives_bind.1 hg
  obtain ⟨rfl, rfl⟩ := gives_pure.1 hg
  obtain ⟨names, rfl, args, hargs, rfl, hall⟩ := texts_spec S L w hts h htexts
  exact ⟨names, rfl, args, hargs, rfl, hall⟩

/-! ### Instructions -/

/-- **What is written for an instruction**, from where some locals are declared: what it prints, which names
only these locals. -/
def Wrote (t : Tables) (bs : List Binding) (W : List Instruction) (xs : List UInt32) (i : Instruction)
    (e e' : Emission) (Γ' : Context I) : Prop :=
  ∃ ss : List Statement, Prints t bs W i ss ∧ e.Adds (ss.map fun a => indented e.indent a.text) e' ∧
    e'.Speaks t bs W ∧ (∀ a ∈ ss, Mentions xs (textOf a.pieces).toList) ∧
    HeldAll t W (xs ++ ss.flatMap Statement.declared) Γ'

omit [NameLimit] S L in
theorem text_declare (type : String) (x : UInt32) (ps : List Piece) :
    s!"{type} _{x} = {textOf ps};" = (Statement.declare type x ps).text := by
  show type ++ " _" ++ toString x ++ " = " ++ textOf ps ++ ";" =
    type ++ " " ++ ("_" ++ toString x) ++ " = " ++ textOf ps ++ ";"
  rw [show (" _" : String) = " " ++ "_" from rfl]
  simp only [String.append_assoc]

omit [NameLimit] S L in
/-- **A local is declared** for a result. -/
theorem wrote_declare {D : List Instruction} {ps : List Piece} {expr : String} {names : Names} (w : Writing t bs D W xs Γ e)
    (hi : i ∈ W) (hr : i.opcode.hasResult = true) (hs : ¬ Silent t i) (hty : Emission.isLocal ty = true)
    (hinit : Initialises t bs W i ps) (htext : textOf ps = expr) (hreads : ReadsBack ps ∨ Doubles ps)
    (hm : ∀ p ∈ ps, p.Mentions xs) (hg : Gives (Emit.declare t i expr) { e with names } u e') :
    Wrote t bs W xs i e e' ((i.result, ty, d) :: Γ) := by
  have hresult : i.result? = some i.result := by rw [Instruction.result?, if_pos hr]
  obtain ⟨type, names', htype, rfl⟩ := gives_declare hg
  subst htext
  refine ⟨[.declare type i.result ps], .declare htype hinit hreads, ⟨?_, rfl, rfl⟩, ⟨?_, w.speaks.sampled⟩,
    List.forall_mem_singleton.2 (mentions_textOf hm hreads), List.forall_mem_cons.2 ⟨?_, ?_⟩⟩
  · rw [text_declare]
    exact Array.toList_push
  · exact List.forall_mem_cons.2 ⟨.local_ hi hresult hs, w.speaks.exprs⟩
  · exact .local_ hi hresult hs (List.mem_append_right _ List.mem_cons_self) hty
  · exact w.held.mono (List.subset_append_left _ _)

omit [NameLimit] S L in
/-- Only an instruction of some kinds has no local. -/
theorem not_silent_of_opcode (h : i.opcode ∉ [Opcode.accessChain, .sampledImage, .load]) : ¬ Silent t i := by
  rintro (hop | hop | ⟨hop, -⟩) <;> exact h (by rw [hop]; decide)

omit [NameLimit] S L in
/-- The letters of components are letters. -/
theorem componentLetter_start {k : UInt32} {letter : Char} (h : componentLetter k = .ok letter) :
    letter.isAlpha = true := by
  rw [componentLetter] at h
  split at h
  · rename_i c hc
    cases h
    have hall : ['x', 'y', 'z', 'w'].all Char.isAlpha = true := by decide
    exact List.all_eq_true.1 hall _ (List.mem_of_getElem? hc)
  · cases h

omit [NameLimit] S L in
/-- **A word after a point** keeps its tokens, and so do those before it. -/
theorem legible_member {fn : String} {qs : List Piece} (hclosed : Closed text.toList)
    (hstart : fn.toList.head?.any Char.isAlpha = true) (h : Legible (.token fn :: qs)) :
    Legible (.operand x text :: .token "." :: .token fn :: qs) := by
  refine ⟨hclosed _ (by rw [textOf, String.toList_append]; rfl), ?_, h⟩
  show tokens ('.' :: (textOf (.token fn :: qs)).toList) = ['.'] :: tokens (textOf (.token fn :: qs)).toList
  refine tokens_point ?_
  rw [textOf, String.toList_append]
  show (fn.toList ++ (textOf qs).toList).head?.any Char.isAlpha = true
  cases hl : fn.toList with
  | nil =>
    rw [hl] at hstart
    cases hstart
  | cons c cs =>
    rw [hl] at hstart
    exact hstart

omit [NameLimit] S L in
/-- **Letters after a point** read back. -/
theorem readsBack_member {fn : String} (hclosed : Closed text.toList)
    (hstart : fn.toList.head?.any Char.isAlpha = true) (hword : ∀ c ∈ fn.toList, isWordChar c = true) :
    ReadsBack [.operand x text, .token ".", .token fn] := by
  have hid := isIdentifier_of_start hstart hword
  have hfn : Legible [.token fn] := ⟨Piece.fits_token (by rw [isToken, hid]; rfl) rfl, trivial⟩
  exact (legible_member hclosed hstart hfn).readsBack

omit [NameLimit] S L in
/-- The letters of a swizzle. -/
theorem letters_start {w : List Char} (hne : w ≠ []) (hall : ∀ c ∈ w, c.isAlpha = true) :
    (String.ofList w).toList.head?.any Char.isAlpha = true ∧
      (∀ c ∈ (String.ofList w).toList, isWordChar c = true) ∧
        (String.ofList w).toList.head? ≠ some '_' := by
  rw [String.toList_ofList]
  have hstart : w.head?.any Char.isAlpha = true := by
    cases w with
    | nil => exact absurd rfl hne
    | cons c cs => exact hall c List.mem_cons_self
  exact ⟨hstart, fun c hc => isWordChar_of_start (by rw [hall c hc]; rfl), head_of_start hstart⟩

omit [NameLimit] S L in
/-- A sample with a level of detail. -/
theorem text_sampleLevel (image sampler position level : String) (x y p z : UInt32) :
    textOf (.operand x image :: .token "." :: .token "sample" :: .token "(" :: .operand y sampler :: .token "," ::
      .gap :: .operand p position :: .token "," :: .gap :: (call "level" [.operand z level] ++ [.token ")"])) =
      image ++ ".sample(" ++ sampler ++ ", " ++ position ++ (", level(" ++ level ++ ")") ++ ")" := by
  apply String.toList_injective
  simp only [textOf, textOf_append, textOf_call, List.map_cons, List.map_nil, Piece.text,
    String.intercalate_singleton, String.toList_append, List.append_assoc]
  rfl

omit [NameLimit] S L in
/-- A texel that is written. -/
theorem text_write (image texel coordinate : String) (x y z : UInt32) :
    textOf (.operand x image :: .token "." ::
      (call "write" [.operand z texel, .operand y coordinate] ++ [.token ";"])) =
      image ++ ".write(" ++ texel ++ ", " ++ coordinate ++ ");" := by
  apply String.toList_injective
  simp only [textOf, textOf_append, textOf_call, List.map_cons, List.map_nil, Piece.text,
    String.intercalate_cons_cons, String.intercalate_singleton, String.toList_append, List.append_assoc]
  rfl

section Computing

variable {tx ty' c : Ty} {a b : I.Value} {k n : UInt32} (w : Writing t bs s.decls W xs Γ e) (hi : i ∈ W)
  (hr : i.opcode.hasResult = true) (hp : Emission.isLocal ty = true)
include w hi hr hp

/-- **An operator of two operands.** -/
theorem wrote_binary {op : String} (hop : binaryOperators.lookup i.opcode = some op) (hargs : i.args = [x, y])
    (hx : Known s Γ x tx (.value a)) (hxn : named tx = true) (hy : Known s Γ y ty' (.value b))
    (hyn : named ty' = true) (hg : Gives (Emit.instruction t i) e u e') :
    Wrote t bs W xs i e e' ((i.result, ty, d) :: Γ) := by
  rw [Emit.instruction, hop] at hg
  obtain ⟨text, e₁, h₁, hg⟩ := gives_bind.1 hg
  obtain ⟨names, rfl, hw₁, -⟩ := argument_spec S L w (by rw [hargs]; rfl) hx hxn h₁
  have w₁ := w.named names
  obtain ⟨text', e₂, h₂, hg⟩ := gives_bind.1 hg
  obtain ⟨names', rfl, hw₂, -⟩ := argument_spec S L w₁ (by rw [hargs]; rfl) hy hyn h₂
  have hmem := lookup_mem hop
  have hops : ∀ p ∈ binaryOperators, isToken p.2.toList = true ∧ p.2.toList.head? ≠ some '_' ∧
      p.1 ∉ [Opcode.accessChain, .sampledImage, .load] := by decide
  obtain ⟨htoken, hhead, hsilent⟩ := hops _ hmem
  refine wrote_declare w hi hr (not_silent_of_opcode hsilent) hp (.binary hop hargs hw₁.spells hw₂.spells) ?_
    (.inl (Legible.readsBack ⟨?_, Piece.fits_gap _, ?_, Piece.fits_gap _, ?_, trivial⟩)) ?_ hg
  · simp only [textOf, Piece.text, String.append_empty, String.append_assoc]
  · exact Piece.fits_operand (by rw [textOf, String.toList_append]; rfl)
  · exact Piece.fits_token htoken (by rw [textOf, String.toList_append]; rfl)
  · exact Piece.fits_operand rfl
  · exact List.forall_mem_cons.2 ⟨hw₁.mentions, List.forall_mem_cons.2 ⟨mentions_gap, List.forall_mem_cons.2
      ⟨mentions_token hhead, List.forall_mem_cons.2 ⟨mentions_gap, List.forall_mem_singleton.2 hw₂.mentions⟩⟩⟩⟩

/-- A negation, which takes the sign of a number for part of an operator. -/
theorem wrote_negate (hop : i.opcode = .fNegate ∨ i.opcode = .sNegate) (hargs : i.args = [x])
    (hx : Known s Γ x tx (.value a)) (hxn : named tx = true) (hg : Gives (Emit.instruction t i) e u e') :
    Wrote t bs W xs i e e' ((i.result, ty, d) :: Γ) := by
  have heq : Emit.instruction t i = (do
      Emit.declare t i ("-" ++ (← (do Emit.value t (← operand i.args 0))))) := by
    rcases hop with hop | hop <;> rw [Emit.instruction, hop] <;> rfl
  rw [heq] at hg
  obtain ⟨text, e₁, h₁, hg⟩ := gives_bind.1 hg
  obtain ⟨names, rfl, hw, -⟩ := argument_spec S L w (by rw [hargs]; rfl) hx hxn h₁
  have hs : ¬ Silent t i := not_silent_of_opcode (by rcases hop with hop | hop <;> rw [hop] <;> decide)
  have htext : (textOf [.token "-", .operand x text]).toList = '-' :: text.toList := by
    simp [textOf, Piece.text]
  refine wrote_declare w hi hr hs hp (.negate hop hargs hw.spells) ?_ ?_ ?_ hg
  · simp only [textOf, Piece.text, String.append_empty]
  · by_cases hsign : text.toList.head? = some '-'
    · obtain ⟨v, hv⟩ : ∃ v, text.toList = '-' :: v := by
        cases hl : text.toList with
        | nil =>
          rw [hl] at hsign
          cases hsign
        | cons c v =>
          rw [hl] at hsign
          cases hsign
          exact ⟨v, rfl⟩
      have hdigit := hw.opens.sign v hv
      refine .inr ⟨x, text, v, rfl, hv, ?_, ?_⟩
      · rw [hv]
        refine tokens_minus fun c hc hhead => ?_
        rw [hhead] at hdigit
        have hall : ['-', '=', '>'].all (fun c => !c.isDigit) = true := by decide
        have := List.all_eq_true.1 hall c hc
        rw [show c.isDigit = true from hdigit] at this
        cases this
      · rw [htext, hv]
        exact tokens_minus_minus v
    · refine .inl (Legible.readsBack ⟨?_, Piece.fits_operand rfl, trivial⟩)
      show tokens ('-' :: (textOf [.operand x text]).toList) = ['-'] :: tokens (textOf [.operand x text]).toList
      refine tokens_minus fun c hc hhead => ?_
      have hlist : textOf [.operand x text] = text := by simp only [textOf, Piece.text, String.append_empty]
      rw [hlist] at hhead
      simp only [List.mem_cons, List.not_mem_nil, or_false] at hc
      rcases hc with rfl | rfl | rfl
      · exact hsign hhead
      · exact hw.opens.apart.1 hhead
      · exact hw.opens.apart.2 hhead
  · exact List.forall_mem_cons.2 ⟨mentions_token (by decide), List.forall_mem_singleton.2 hw.mentions⟩

omit w hi hr hp L S in
omit [NameLimit] in
theorem text_args (args : List (UInt32 × String)) :
    (args.map fun a => Piece.operand a.1 a.2).map Piece.text = args.map (·.2) := by
  rw [List.map_map]
  rfl

omit w hi hr hp L S in
omit [NameLimit] in
theorem mentions_args {args : List (UInt32 × String)} (h : ∀ a ∈ args, Worded t bs W xs a.1 a.2) :
    ∀ p ∈ args.map fun a => Piece.operand a.1 a.2, p.Mentions xs := by
  intro p hp
  obtain ⟨a, ha, rfl⟩ := List.mem_map.1 hp
  exact (h a ha).mentions

/-- **A vector** made of its parts, or converted from another. -/
theorem wrote_construct {ts : List Ty} (hop : i.opcode = .compositeConstruct ∨ i.opcode = .convertUToF)
    (hts : ∀ ty ∈ ts, named ty = true)
    (hargs : List.Forall₂ (fun x ty => ∃ v : I.Value, Known s Γ x ty (.value v)) i.args ts)
    (hty : TypeAt s.decls i.resultType ty) (hs : ty.component.isScalar = true)
    (hg : Gives (Emit.instruction t i) e u e') : Wrote t bs W xs i e e' ((i.result, ty, d) :: Γ) := by
  have heq : Emit.instruction t i = (do
      let type ← Emit.naming (typeName t i.resultType)
      Emit.declare t i (type ++ "(" ++ (← Emit.values t i.args) ++ ")")) := by
    rcases hop with hop | hop <;> rw [Emit.instruction, hop] <;> rfl
  rw [heq] at hg
  obtain ⟨type, e₁, h₁, hg⟩ := gives_bind.1 hg
  obtain ⟨names, rfl, htype⟩ := gives_naming h₁
  obtain ⟨text, e₂, h₂, hg⟩ := gives_bind.1 hg
  obtain ⟨names', rfl, args, hids, rfl, hall⟩ := values_spec S L (w.named names) hts hargs h₂
  have hword := typeName_plain S.toScope S.hold hty hs htype
  have hsilent : ¬ Silent t i := not_silent_of_opcode (by rcases hop with hop | hop <;> rw [hop] <;> decide)
  refine wrote_declare w hi hr hsilent hp (.construct hop hids htype fun a ha => (hall a ha).spells) ?_
    (.inl (legible_call (by rw [isToken, hword.isIdentifier]; rfl) args).readsBack)
    (mentions_call (head_of_start hword.start) (mentions_args hall)) hg
  rw [textOf_call, text_args]

omit hp in
/-- **A component of a vector.** -/
theorem wrote_extract (hop : i.opcode = .compositeExtract) (hargs : i.args = [x, k])
    (hx : Known s Γ x (.vector ty n) (.value a)) (hg : Gives (Emit.instruction t i) e u e') :
    Wrote t bs W xs i e e' ((i.result, ty, d) :: Γ) := by
  have heq : Emit.instruction t i = (do
      let expr ← (do Emit.value t (← operand i.args 0))
      let type ← Emit.valueType t (← operand i.args 0)
      Emit.declare t i (← Emit.extract t i.result expr type (i.args.drop 1))) := by
    rw [Emit.instruction, hop]
    rfl
  have hget : i.args[0]? = some x := by rw [hargs]; rfl
  rw [heq] at hg
  obtain ⟨text, e₁, h₁, hg⟩ := gives_bind.1 hg
  obtain ⟨names, rfl, hw, hclosed⟩ := argument_spec S L w hget hx rfl h₁
  have w₁ := w.named names
  obtain ⟨y, hy, hg⟩ := gives_lift_bind.1 hg
  rw [operand_eq hget, Except.ok.injEq] at hy
  subst hy
  obtain ⟨c, e₂, h₂, hg⟩ := gives_bind.1 hg
  obtain ⟨rfl, hc⟩ := (yields_valueType S hx rfl w₁.sound w₁.tells).of_gives h₂
  obtain ⟨expr, e₃, h₃, hg⟩ := gives_bind.1 hg
  rw [hargs] at h₃
  have hlocal : Emission.isLocal ty = true := by
    have hs := (S.vector hc).1
    cases ty <;> first | rfl | cases hs
  obtain ⟨info, hinfo, h₃⟩ := gives_lift_bind.1 h₃
  obtain ⟨info', hinfo', hd⟩ := typeOf_spec S.toScope S.hold hc
  rw [hinfo, Except.ok.injEq] at hinfo'
  subst hinfo'
  cases hd with
  | vector =>
    obtain ⟨letter, hletter, h₃⟩ := gives_lift_bind.1 h₃
    obtain ⟨rfl, rfl⟩ := gives_pure.1 h₃
    obtain ⟨hstart, hword, hhead⟩ := letters_start (w := [letter]) (by simp)
      (List.forall_mem_singleton.2 (componentLetter_start hletter))
    refine wrote_declare w hi hr (not_silent_of_opcode (by rw [hop]; decide)) hlocal
      (.extract hop hargs hw.spells hletter) ?_ (.inl (readsBack_member (hclosed rfl) hstart hword)) ?_ hg
    · simp only [textOf, Piece.text, String.append_empty, String.append_assoc]
      rfl
    · exact List.forall_mem_cons.2 ⟨hw.mentions, List.forall_mem_cons.2
        ⟨mentions_token (by decide), List.forall_mem_singleton.2 (mentions_token hhead)⟩⟩

/-- **Some components of a vector.** -/
theorem wrote_shuffle {ks : List UInt32} (hop : i.opcode = .vectorShuffle) (hargs : i.args = x :: y :: ks)
    (hx : Known s Γ x (.vector c n) (.value a)) (hks : ∀ k ∈ ks, k < n) (hne : ks ≠ [])
    (hg : Gives (Emit.instruction t i) e u e') : Wrote t bs W xs i e e' ((i.result, ty, d) :: Γ) := by
  have heq : Emit.instruction t i = (do Emit.declare t i (← Emit.shuffle t i)) := by
    rw [Emit.instruction, hop]
    rfl
  rw [heq] at hg
  obtain ⟨expr, e₁, h₁, hg⟩ := gives_bind.1 hg
  rw [Emit.shuffle] at h₁
  obtain ⟨x', hx', h₁⟩ := gives_lift_bind.1 h₁
  rw [operand_eq (x := x) (by rw [hargs]; rfl), Except.ok.injEq] at hx'
  subst hx'
  obtain ⟨y', hy', h₁⟩ := gives_lift_bind.1 h₁
  obtain ⟨tid, e₂, h₂, h₃⟩ := gives_bind.1 h₁
  obtain ⟨rfl, htid⟩ := (yields_valueType S hx rfl w.sound w.tells).of_gives h₂
  obtain ⟨info, hinfo, h₃⟩ := gives_lift_bind.1 h₃
  obtain ⟨info', hinfo', hd⟩ := typeOf_spec S.toScope S.hold htid
  rw [hinfo, Except.ok.injEq] at hinfo'
  subst hinfo'
  cases hd with
  | vector =>
    have hdrop : i.args.drop 2 = ks := by rw [hargs]; rfl
    have hall : ks.all (· < n) = true := List.all_eq_true.2 fun k hk => decide_eq_true (hks k hk)
    dsimp only [TypeInfo.count] at h₃
    rw [hdrop, if_pos (.inr hall)] at h₃
    obtain ⟨letters, e₃, h₄, h₃⟩ := gives_bind.1 h₃
    have hletters : List.Forall₂ (fun k letter => componentLetter k = .ok letter) ks letters := by
      refine gives_mapM (fun k hk s letter s' h => ?_) h₄
      have hkn := hks k hk
      rw [UInt32.lt_iff_toNat_lt] at hkn
      have hmod : k % n = k := by
        rw [← UInt32.toNat_inj, UInt32.toNat_mod, Nat.mod_eq_of_lt hkn]
      rw [if_neg fun h => by rw [h] at hkn; exact absurd hkn (Nat.not_lt_zero _), hmod] at h
      exact (gives_lift.1 h).1
    have hstate : e₃ = e₂ := by
      refine every_mapM (R := fun s s' => s' = s) (fun _ => rfl) (fun _ _ _ h h' => h'.trans h)
        (fun k hk s letter s' h => ?_) h₄
      split at h
      · exact (gives_lift.1 h).2
      · exact (gives_lift.1 h).2
    obtain ⟨text, e₄, h₅, h₃⟩ := gives_bind.1 h₃
    obtain ⟨rfl, rfl⟩ := gives_pure.1 h₃
    subst hstate
    obtain ⟨names, rfl, hw, hclosed⟩ := value_spec S L w hx rfl h₅
    obtain ⟨hstart, hword, hhead⟩ := letters_start (w := letters) (by
        rintro rfl
        cases hletters
        exact hne rfl) fun c hc => by
      obtain ⟨k, -, hk⟩ := exists_of_mem_right hletters hc
      exact componentLetter_start hk
    refine wrote_declare w hi hr (not_silent_of_opcode (by rw [hop]; decide)) hp
      (.shuffle hop hargs hw.spells hletters) ?_ (.inl (readsBack_member (hclosed rfl) hstart hword)) ?_ hg
    · simp only [textOf, Piece.text, String.append_empty, String.append_assoc]
    · exact List.forall_mem_cons.2 ⟨hw.mentions, List.forall_mem_cons.2
        ⟨mentions_token (by decide), List.forall_mem_singleton.2 (mentions_token hhead)⟩⟩

/-- A scalar product. -/
theorem wrote_dot (hop : i.opcode = .dot) (hargs : i.args = [x, y]) (hx : Known s Γ x tx (.value a))
    (hy : Known s Γ y tx (.value b)) (hxn : named tx = true) (hg : Gives (Emit.instruction t i) e u e') :
    Wrote t bs W xs i e e' ((i.result, ty, d) :: Γ) := by
  have heq : Emit.instruction t i = (do
      Emit.declare t i ("dot(" ++ (← (do Emit.value t (← operand i.args 0))) ++ ", " ++
        (← (do Emit.value t (← operand i.args 1))) ++ ")")) := by
    rw [Emit.instruction, hop]
    rfl
  rw [heq] at hg
  obtain ⟨text, e₁, h₁, hg⟩ := gives_bind.1 hg
  obtain ⟨names, rfl, hw₁, -⟩ := argument_spec S L w (by rw [hargs]; rfl) hx hxn h₁
  obtain ⟨text', e₂, h₂, hg⟩ := gives_bind.1 hg
  obtain ⟨names', rfl, hw₂, -⟩ := argument_spec S L (w.named names) (by rw [hargs]; rfl) hy hxn h₂
  refine wrote_declare w hi hr (not_silent_of_opcode (by rw [hop]; decide)) hp
    (.dot hop hargs hw₁.spells hw₂.spells) ?_
    (.inl (legible_call (by decide) [(x, text), (y, text')]).readsBack)
    (mentions_call (by decide) (List.forall_mem_cons.2 ⟨hw₁.mentions, List.forall_mem_singleton.2 hw₂.mentions⟩)) hg
  rw [textOf_call]
  simp only [List.map_cons, List.map_nil, Piece.text, String.intercalate_cons_cons,
    String.intercalate_singleton, String.append_assoc]
  rfl

/-- **A function of the extended instruction set.** -/
theorem wrote_extended {set : UInt32} {ks : List UInt32} {ts : List Ty} (hop : i.opcode = .extInst)
    (hargs : i.args = set :: k :: ks) (hts : ∀ ty ∈ ts, named ty = true)
    (hks : List.Forall₂ (fun x ty => ∃ v : I.Value, Known s Γ x ty (.value v)) ks ts)
    (hlocal : ∀ ty ∈ ts, Emission.isLocal ty = true) (hne : ts ≠ [])
    (hg : Gives (Emit.instruction t i) e u e') : Wrote t bs W xs i e e' ((i.result, ty, d) :: Γ) := by
  have heq : Emit.instruction t i = Emit.extended t i := by
    rw [Emit.instruction, hop]
    rfl
  have hdrop : i.args.drop 2 = ks := by rw [hargs]; rfl
  -- a call of whichever function it is
  have hcall : ∀ {fn : String} (names : Names), (k, fn) ∈ extendedFunctions ++ scalarFunctions →
      Gives (do Emit.declare t i (fn ++ "(" ++ (← Emit.values t ks) ++ ")")) { e with names } u e' →
      Wrote t bs W xs i e e' ((i.result, ty, d) :: Γ) := by
    intro fn names hfn hg
    obtain ⟨text, e₁, h₁, hg⟩ := gives_bind.1 hg
    obtain ⟨names', rfl, args, hids, rfl, hall⟩ := values_spec S L (w.named names) hts hks h₁
    have hfns : ∀ p ∈ extendedFunctions ++ scalarFunctions, isToken p.2.toList = true ∧
        p.2.toList.head? ≠ some '_' := by decide
    refine wrote_declare w hi hr (not_silent_of_opcode (by rw [hop]; decide)) hp
      (.function hop (hids ▸ hargs) hfn fun a ha => (hall a ha).spells) ?_
      (.inl (legible_call (hfns _ hfn).1 args).readsBack) (mentions_call (hfns _ hfn).2 (mentions_args hall)) hg
    rw [textOf_call, text_args]
  rw [heq, Emit.extended] at hg
  obtain ⟨set', -, hg⟩ := gives_lift_bind.1 hg
  split at hg
  · obtain ⟨_, _, h, -⟩ := gives_bind.1 hg
    cases (gives_lift.1 h).1
  obtain ⟨k', hk', hg⟩ := gives_lift_bind.1 hg
  rw [operand_eq (x := k) (by rw [hargs]; rfl), Except.ok.injEq] at hk'
  subst hk'
  split at hg
  · cases (gives_lift.1 hg).1
  · rename_i fn hfn
    rw [hdrop] at hg
    dsimp only at hg
    split at hg
    · rename_i scalar hscalar
      cases hks with
      | nil => exact absurd rfl hne
      | @cons x _ ty _ hx =>
        obtain ⟨v, hv⟩ := hx
        obtain ⟨x', hx', hg⟩ := gives_lift_bind.1 hg
        rw [operand_eq (x := x) (by rw [hargs]; rfl), Except.ok.injEq] at hx'
        subst hx'
        obtain ⟨c, e₁, h₁, h₂⟩ := gives_bind.1 hg
        obtain ⟨rfl, hc⟩ := (yields_valueType S hv (hlocal _ List.mem_cons_self) w.sound w.tells).of_gives h₁
        obtain ⟨info, hinfo, h₂⟩ := gives_lift_bind.1 h₂
        obtain ⟨fn', e₂, h₃, h₂⟩ := gives_bind.1 h₂
        obtain ⟨rfl, rfl⟩ := gives_pure.1 h₃
        refine hcall e₂.names ?_ h₂
        split
        · exact List.mem_append_right _ (lookup_mem hscalar)
        · exact List.mem_append_left _ (lookup_mem hfn)
    · obtain ⟨fn', e₂, h₂, h₃⟩ := gives_bind.1 hg
      obtain ⟨rfl, rfl⟩ := gives_pure.1 h₂
      exact hcall e₂.names (List.mem_append_left _ (lookup_mem hfn)) h₃

/-- **A sample of an image**, with a level of detail or without. -/
theorem wrote_sample {lod : List UInt32} (hop : i.opcode = .imageSampleImplicitLod ∧ lod = [] ∨
      i.opcode = .imageSampleExplicitLod ∧ ∃ z v, lod = [imageOperandsLod, z] ∧
        Known s Γ z (.float 32) (.value v))
    (hargs : i.args = x :: y :: lod) (hy : Known s Γ y tx (.value b)) (hn : named tx = true)
    (hg : Gives (Emit.instruction t i) e u e') : Wrote t bs W xs i e e' ((i.result, ty, d) :: Γ) := by
  have heq : Emit.instruction t i = Emit.sample t i := by
    rcases hop with ⟨hop, -⟩ | ⟨hop, -⟩ <;> rw [Emit.instruction, hop] <;> rfl
  have hsilent : ¬ Silent t i := not_silent_of_opcode (by
    rcases hop with ⟨hop, -⟩ | ⟨hop, -⟩ <;> rw [hop] <;> decide)
  rw [heq, Emit.sample, gives_get_bind] at hg
  obtain ⟨x', hx', hg⟩ := gives_lift_bind.1 hg
  rw [operand_eq (x := x) (by rw [hargs]; rfl), Except.ok.injEq] at hx'
  subst hx'
  split at hg
  · cases (gives_lift.1 hg).1
  rename_i image sampler hpair
  obtain ⟨t', p, q, hjoin, ⟨hp₁, hpath⟩, hq₁, hpath'⟩ := w.speaks.sampled _ (lookup_mem hpair)
  obtain ⟨y', hy', hg⟩ := gives_lift_bind.1 hg
  rw [operand_eq (x := y) (by rw [hargs]; rfl), Except.ok.injEq] at hy'
  subst hy'
  obtain ⟨position, e₁, h₁, hg⟩ := gives_bind.1 hg
  obtain ⟨names, rfl, hw, -⟩ := value_spec S L w hy hn h₁
  rcases hop with ⟨hop, rfl⟩ | ⟨hop, z, v, rfl, hz⟩
  · rw [if_neg (by rw [hop]; decide)] at hg
    obtain ⟨level, e₂, h₂, hg⟩ := gives_bind.1 hg
    obtain ⟨rfl, rfl⟩ := gives_pure.1 h₂
    refine wrote_declare w hi hr hsilent hp (.sample hop hargs hjoin hp₁ hq₁ hw.spells) ?_ (.inl (Legible.readsBack
      (legible_member hpath.closed (by rfl) (legible_call (by decide) [(q, sampler), (y, position)])))) ?_ hg
    · show image ++ ("." ++ textOf (call "sample" [.operand q sampler, .operand y position])) =
        image ++ ".sample(" ++ sampler ++ ", " ++ position ++ "" ++ ")"
      rw [textOf_call, String.append_empty, show (".sample(" : String) = "." ++ "sample" ++ "(" from rfl]
      simp only [List.map_cons, List.map_nil, Piece.text, String.intercalate_cons_cons,
        String.intercalate_singleton, String.append_assoc]
    · exact List.forall_mem_cons.2 ⟨hpath.mentions, List.forall_mem_cons.2 ⟨mentions_token (by decide),
        mentions_call (by decide) (List.forall_mem_cons.2 ⟨hpath'.mentions, List.forall_mem_singleton.2 hw.mentions⟩)⟩⟩
  · rw [if_pos hop, hargs] at hg
    dsimp only at hg
    rw [if_neg (by decide)] at hg
    obtain ⟨level, e₂, h₂, hg⟩ := gives_bind.1 hg
    obtain ⟨names', rfl, hw', -⟩ := value_spec S L (w.named names) hz rfl h₂
    obtain ⟨tail, e₃, h₃, hg⟩ := gives_bind.1 hg
    obtain ⟨rfl, rfl⟩ := gives_pure.1 h₃
    have hcall : Legible (call "level" [.operand z level] ++ [.token ")"]) :=
      (legible_call (by decide) [(z, level)]).append
        ⟨Piece.fits_separator (c := ')') rfl rfl rfl _, trivial⟩ rfl
    have hcomma : ∀ v, (Piece.token ",").Fits v := Piece.fits_separator (c := ',') rfl rfl rfl
    refine wrote_declare w hi hr hsilent hp (.sampleLevel hop hargs hjoin hp₁ hq₁ hw.spells hw'.spells) ?_
      (.inl (Legible.readsBack (legible_member hpath.closed (by rfl) ⟨Piece.fits_token (by decide) ?_,
        Piece.fits_separator (c := '(') rfl rfl rfl _, Piece.fits_operand ?_, hcomma _, Piece.fits_gap _,
          Piece.fits_operand ?_, hcomma _, Piece.fits_gap _, hcall⟩))) ?_ hg
    · exact text_sampleLevel ..
    · rw [textOf, String.toList_append]
      rfl
    · rw [textOf, String.toList_append]
      rfl
    · rw [textOf, String.toList_append]
      rfl
    · have hlevel := mentions_call (f := "level") (by decide) (List.forall_mem_singleton.2
        (show (Piece.operand z level).Mentions xs from hw'.mentions))
      simp only [List.forall_mem_cons]
      exact ⟨hpath.mentions, mentions_token (by decide), mentions_token (by decide), mentions_token (by decide),
        hpath'.mentions, mentions_token (by decide), mentions_gap, hw.mentions, mentions_token (by decide),
        mentions_gap, List.forall_mem_append.2 ⟨hlevel, List.forall_mem_singleton.2 (mentions_token (by decide))⟩⟩

end Computing

omit [NameLimit] L S in
/-- **What stands for a place or an object** has no local. -/
theorem wrote_silent {D : List Instruction} (w : Writing t bs D W xs Γ e) (hi : i ∈ W) (hr : i.result? = some x)
    (hs : Silent t i) (hp : ∀ k c, ty = .pointer k c → i.opcode = .accessChain) (hlines : e'.lines = e.lines)
    (hindent : e'.indent = e.indent) (houtputs : e'.hasOutputs = e.hasOutputs) (hspeaks : e'.Speaks t bs W) :
    Wrote t bs W xs i e e' ((x, ty, d) :: Γ) := by
  refine ⟨[], .silent hs, ⟨?_, hindent, houtputs⟩, hspeaks, List.forall_mem_nil _,
    List.forall_mem_cons.2 ⟨.silent hi hr hs hp, w.held.mono (List.subset_append_left _ _)⟩⟩
  rw [hlines]
  exact (List.append_nil _).symm

/-- The expression of an object. -/
theorem object_spec (w : Writing t bs s.decls W xs Γ e) (h : Known s Γ x ty (.value v)) (hn : named ty = true)
    (hshut : Emission.isLocal ty = false) (hg : Gives (Emit.value t x) e text e') :
    ∃ names, e' = { e with names } ∧ Spells t bs W x text ∧ IsPath text := by
  have hknown : (x, ty, .value v) ∈ Γ := by
    rcases h with h | h
    · exact h
    · rw [isLocal_of_component (component_of_value S h)] at hshut
      cases hshut
  obtain ⟨names, rfl, hmem | ⟨hnone, -, -⟩⟩ := gives_value hg
  · have hname : Named t bs W x text := w.speaks.exprs _ hmem
    refine ⟨names, rfl, .named hname, ?_⟩
    cases hname with
    | place hp => exact hp.isPath L
    | object _ _ hp => exact hp.isPath L
    | local_ hj hr' hs' =>
      cases w.held _ hknown with
      | local_ _ _ _ _ hp =>
        rw [hshut] at hp
        cases hp
      | silent hi hr hs => exact (S.not_silent hi hr hs hj hr' hs').elim
  · have hsome := (w.tells _ hknown).expr (ne_of_named hn)
    rw [hnone] at hsome
    cases hsome

omit [NameLimit] S L in
/-- An instruction with a type and a result. -/
theorem eq_of_args (hlen : 2 ≤ i.operands.length) (hop : i.opcode.hasType = true ∧ i.opcode.hasResult = true) :
    ∃ t', i = ⟨i.opcode, t' :: i.result :: i.args⟩ := by
  obtain ⟨op, ops⟩ := i
  match ops, hlen with
  | t' :: x :: ops, _ =>
    refine ⟨t', ?_⟩
    simp only [Instruction.result, Instruction.args, Instruction.resultCount, hop.1, hop.2]
    rfl

/-- An image and a sampler are joined. -/
theorem wrote_join {c : Ty} {k f : UInt32} {a b : I.Value} (w : Writing t bs s.decls W xs Γ e) (hi : i ∈ W)
    (hlen : 2 ≤ i.operands.length) (hop : i.opcode = .sampledImage) (hargs : i.args = [x, y])
    (hx : Known s Γ x (.image c k 1 f) (.value a)) (hy : Known s Γ y .sampler (.value b))
    (hg : Gives (Emit.instruction t i) e u e') :
    Wrote t bs W xs i e e' ((i.result, .sampledImage (.image c k 1 f), d) :: Γ) := by
  have heq : Emit.instruction t i = (do
      let image ← (do Emit.value t (← operand i.args 0))
      let sampler ← (do Emit.value t (← operand i.args 1))
      modify fun e => { e with sampled := (i.result, image, sampler) :: e.sampled }) := by
    rw [Emit.instruction, hop]
    rfl
  have hresult : i.opcode.hasType = true ∧ i.opcode.hasResult = true := by rw [hop]; exact ⟨rfl, rfl⟩
  obtain ⟨t', hjoin⟩ := eq_of_args hlen hresult
  rw [hop, hargs] at hjoin
  rw [heq] at hg
  obtain ⟨image, e₁, h₁, hg⟩ := gives_bind.1 hg
  obtain ⟨x', hx', h₁⟩ := gives_lift_bind.1 h₁
  rw [operand_eq (x := x) (by rw [hargs]; rfl), Except.ok.injEq] at hx'
  subst hx'
  obtain ⟨names, rfl, hspells, hpath⟩ := object_spec S L w hx rfl rfl h₁
  obtain ⟨sampler, e₂, h₂, hg⟩ := gives_bind.1 hg
  obtain ⟨y', hy', h₂⟩ := gives_lift_bind.1 h₂
  rw [operand_eq (x := y) (by rw [hargs]; rfl), Except.ok.injEq] at hy'
  subst hy'
  obtain ⟨names', rfl, hspells', hpath'⟩ := object_spec S L (w.named names) hy rfl rfl h₂
  rw [gives_modify.1 hg]
  refine wrote_silent w hi (by rw [Instruction.result?, if_pos hresult.2]) (.inr (.inl hop))
    (fun _ _ h => by cases h) rfl rfl rfl ⟨w.speaks.exprs, List.forall_mem_cons.2 ⟨?_, w.speaks.sampled⟩⟩
  exact ⟨t', x, y, hjoin ▸ hi, ⟨hspells, hpath⟩, hspells', hpath'⟩

/-! ### Instructions on variables -/

/-- **A load**: an object stands for its variable, all else is a local. -/
theorem wrote_load {t' p k b : UInt32} {path : List UInt32} (w : Writing t bs s.decls W xs Γ e)
    (hi : ⟨.load, [t', x, p]⟩ ∈ W) (hty : TypeAt s.decls t' ty)
    (hp : Known s Γ p (.pointer k ty) (.place b path))
    (hg : Gives (Emit.instruction t ⟨.load, [t', x, p]⟩) e u e') :
    Wrote t bs W xs ⟨.load, [t', x, p]⟩ e e' ((x, ty, d) :: Γ) := by
  have hload : Gives (Emit.load t ⟨.load, [t', x, p]⟩) e u e' := hg
  obtain ⟨-, hn⟩ := S.place w.sound w.tells hp
  obtain ⟨info, hinfo, hd⟩ := typeOf_spec S.toScope S.hold hty
  rw [Emit.load] at hload
  obtain ⟨info', hinfo', hload⟩ := gives_lift_bind.1 hload
  cases hinfo.symm.trans hinfo'
  obtain ⟨source, hsource, hload⟩ := gives_lift_bind.1 hload
  cases hsource
  obtain ⟨expr, e₁, h₁, hload⟩ := gives_bind.1 hload
  obtain ⟨names, rfl, hplace⟩ := place_spec S w hp h₁
  have hpath := hplace.isPath L
  have hsilent : Silent t ⟨.load, [t', x, p]⟩ ↔ info.isOpaque = true := by
    refine ⟨?_, fun h => .inr (.inr ⟨rfl, info, hinfo, h⟩)⟩
    rintro (h | h | ⟨-, info'', hinfo'', h⟩)
    · cases h
    · cases h
    · cases hinfo.symm.trans hinfo''
      exact h
  by_cases hshut : info.isOpaque = true
  · rw [if_pos hshut] at hload
    rw [gives_modify.1 hload]
    refine wrote_silent w hi rfl (hsilent.2 hshut) ?_ rfl rfl rfl
      ⟨List.forall_mem_cons.2 ⟨.object hi (hsilent.2 hshut) hplace, w.speaks.exprs⟩, w.speaks.sampled⟩
    rintro k c rfl
    cases hn
  · rw [if_neg hshut, gives_get_bind] at hload
    have hlocal : Emission.isLocal ty = true := by
      cases hd with
      | image | sampler | sampledImage => exact absurd rfl hshut
      | pointer | function => cases hn
      | _ => rfl
    have hspells : Spells t bs W p expr := .named (.place hplace)
    have hmention : (Piece.operand p expr).Mentions xs := hpath.mentions
    dsimp only at hload
    split at hload
    · refine wrote_declare w hi rfl (mt hsilent.1 hshut) hlocal (.loadPacked rfl rfl hspells) ?_
        (.inl (legible_call (by decide) [(p, expr)]).readsBack)
        (mentions_call (by decide) (List.forall_mem_singleton.2 hmention)) hload
      rw [textOf_call, List.map_singleton, String.intercalate_singleton]
      rfl
    · refine wrote_declare w hi rfl (mt hsilent.1 hshut) hlocal (.load rfl rfl hspells) ?_
        (.inl (Legible.readsBack ⟨Piece.fits_operand rfl, trivial⟩)) (List.forall_mem_singleton.2 hmention) hload
      simp only [textOf, Piece.text, String.append_empty]

omit L in
/-- A member of the block of global values. -/
theorem wrote_access {t' b k m block ct word n : UInt32} {ms : List UInt32} (w : Writing t bs s.decls W xs Γ e)
    (hi : ⟨.accessChain, [t', x, b, k]⟩ ∈ W)
    (hb : GlobalAt I s.decls b (.pointer m (.struct block)) (.place n []))
    (hk : ⟨.constant, [ct, k, word]⟩ ∈ s.decls) (hms : ⟨.typeStruct, block :: ms⟩ ∈ s.decls)
    (hg : Gives (Emit.instruction t ⟨.accessChain, [t', x, b, k]⟩) e u e') :
    Wrote t bs W xs ⟨.accessChain, [t', x, b, k]⟩ e e' ((x, .pointer m ty, d) :: Γ) := by
  have haccess : Gives (Emit.accessChain t ⟨.accessChain, [t', x, b, k]⟩) e u e' := hg
  have hinfo : t.typeOf block = .ok (.struct ms) := typeOf_eq S.toScope S.hold hms rfl
  have hconst := S.constantValue hk
  rw [Emit.accessChain] at haccess
  obtain ⟨base, hbase, haccess⟩ := gives_lift_bind.1 haccess
  cases hbase
  obtain ⟨expr, e₁, h₁, haccess⟩ := gives_bind.1 haccess
  obtain ⟨names, rfl, hplace⟩ := place_spec S w (.inr hb) h₁
  rw [gives_get_bind] at haccess
  split at haccess
  · cases (gives_lift.1 haccess).1
  rename_i type htype
  obtain rfl := S.pointee w.sound hb htype
  obtain ⟨place, e₂, h₂, haccess⟩ := gives_bind.1 haccess
  -- the one index leads to a member
  obtain ⟨rfl, hexpr⟩ : e₂ = { e with names } ∧ place.expr = expr ++ "." ++ memberName t type word.toNat := by
    have hfollow : Gives (Emit.follow t x ⟨expr, type, false⟩ [k]) { e with names } place e₂ := h₂
    rw [Emit.follow] at hfollow
    obtain ⟨info, hinfo', hfollow⟩ := gives_lift_bind.1 hfollow
    cases hinfo.symm.trans hinfo'
    obtain ⟨word', hconst', hfollow⟩ := gives_lift_bind.1 hfollow
    cases hconst.symm.trans hconst'
    dsimp only at hfollow
    split at hfollow
    · cases (gives_lift.1 hfollow).1
    · obtain ⟨packed, hpacked, hfollow⟩ := gives_lift_bind.1 hfollow
      obtain ⟨rfl, rfl⟩ := gives_pure.1 hfollow
      exact ⟨rfl, rfl⟩
  obtain ⟨_, e₃, h₃, haccess⟩ := gives_bind.1 haccess
  rw [gives_modify.1 haccess, gives_modify.1 h₃]
  refine wrote_silent w hi rfl (.inl rfl) (fun _ _ _ => rfl) rfl rfl rfl
    ⟨List.forall_mem_cons.2 ⟨.place ?_, w.speaks.exprs⟩, w.speaks.sampled⟩
  rw [hexpr]
  exact .member hi hplace hconst

omit [NameLimit] S L in
/-- **Something is done.** -/
theorem wrote_perform {D : List Instruction} {ps : List Piece} {expr : String} {names : Names}
    (w : Writing t bs D W xs Γ e) (hdone : Performs t bs W i ps) (htext : textOf ps = expr) (hreads : Legible ps)
    (hm : ∀ p ∈ ps, p.Mentions xs) (hg : Gives (Emit.line expr) { e with names } u e') :
    Wrote t bs W xs i e e' Γ := by
  subst htext
  rw [gives_line hg]
  refine ⟨[.perform ps], .perform hdone hreads.readsBack, ⟨Array.toList_push, rfl, rfl⟩,
    ⟨w.speaks.exprs, w.speaks.sampled⟩, List.forall_mem_singleton.2 (mentions_textOf hm (.inl hreads.readsBack)), ?_⟩
  exact w.held.mono (List.subset_append_left _ _)

/-- A value is stored. -/
theorem wrote_store {p k b : UInt32} {a : I.Value} (w : Writing t bs s.decls W xs Γ e)
    (hp : GlobalAt I s.decls p (.pointer k ty) (.place b [])) (hx : Known s Γ x ty (.value a))
    (hg : Gives (Emit.instruction t ⟨.store, [p, x]⟩) e u e') : Wrote t bs W xs ⟨.store, [p, x]⟩ e e' Γ := by
  have hstore : Gives (do
      Emit.line ((← (do Emit.value t (← operand [p, x] 0))) ++ " = " ++
        (← (do Emit.value t (← operand [p, x] 1))) ++ ";") : Emit Unit) e u e' := hg
  have hn := (S.place w.sound w.tells (.inr hp)).2
  obtain ⟨place, e₁, h₁, hstore⟩ := gives_bind.1 hstore
  obtain ⟨p', hp', h₁⟩ := gives_lift_bind.1 h₁
  cases hp'
  obtain ⟨names, rfl, hplace⟩ := place_spec S w (.inr hp) h₁
  obtain ⟨text, e₂, h₂, hstore⟩ := gives_bind.1 hstore
  obtain ⟨names', rfl, hw, -⟩ :=
    argument_spec S L (i := ⟨.store, [p, x]⟩) (n := 1) (w.named names) rfl hx hn h₂
  refine wrote_perform w (.store rfl (.named (.place hplace)) hw.spells) ?_
    ⟨Piece.fits_operand ?_, Piece.fits_gap _, Piece.fits_token (by decide) ?_, Piece.fits_gap _,
      Piece.fits_operand ?_, Piece.fits_separator (c := ';') rfl rfl rfl _, trivial⟩ ?_ hstore
  · simp only [textOf, Piece.text, String.append_empty, String.append_assoc]
    rfl
  · rw [textOf, String.toList_append]
    rfl
  · rw [textOf, String.toList_append]
    rfl
  · rw [textOf, String.toList_append]
    rfl
  · simp only [List.forall_mem_cons]
    exact ⟨(hplace.isPath L).mentions, mentions_gap, mentions_token (by decide), mentions_gap, hw.mentions,
      mentions_token (by decide), List.forall_mem_nil _⟩

/-- A texel is written. -/
theorem wrote_write {z k f : UInt32} {c : Ty} {a b v : I.Value} (w : Writing t bs s.decls W xs Γ e)
    (hx : Known s Γ x (.image c k 2 f) (.value a)) (hy : Known s Γ y (.texel k) (.value b))
    (hz : Known s Γ z .colour (.value v)) (hg : Gives (Emit.instruction t ⟨.imageWrite, [x, y, z]⟩) e u e') :
    Wrote t bs W xs ⟨.imageWrite, [x, y, z]⟩ e e' Γ := by
  have hwrite : Gives (do
      let image ← (do Emit.value t (← operand [x, y, z] 0))
      let texel ← (do Emit.value t (← operand [x, y, z] 2))
      Emit.line (image ++ ".write(" ++ texel ++ ", " ++ (← (do Emit.value t (← operand [x, y, z] 1))) ++ ");")
      : Emit Unit) e u e' := hg
  have htexel : named (.texel k) = true := by
    unfold Ty.texel
    split <;> rfl
  obtain ⟨image, e₁, h₁, hwrite⟩ := gives_bind.1 hwrite
  obtain ⟨names, rfl, hw₁, hclosed⟩ := argument_spec S L (i := ⟨.imageWrite, [x, y, z]⟩) (n := 0) w rfl hx rfl h₁
  obtain ⟨texel, e₂, h₂, hwrite⟩ := gives_bind.1 hwrite
  obtain ⟨names', rfl, hw₂, -⟩ :=
    argument_spec S L (i := ⟨.imageWrite, [x, y, z]⟩) (n := 2) (w.named names) rfl hz rfl h₂
  obtain ⟨coordinate, e₃, h₃, hwrite⟩ := gives_bind.1 hwrite
  obtain ⟨names'', rfl, hw₃, -⟩ :=
    argument_spec S L (i := ⟨.imageWrite, [x, y, z]⟩) (n := 1) (w.named names') rfl hy htexel h₃
  have hcall : Legible (call "write" [.operand z texel, .operand y coordinate] ++ [.token ";"]) :=
    (legible_call (by decide) [(z, texel), (y, coordinate)]).append
      ⟨Piece.fits_separator (c := ';') rfl rfl rfl _, trivial⟩ rfl
  refine wrote_perform w (.write rfl hw₁.spells hw₃.spells hw₂.spells) ?_
    (legible_member (hclosed rfl) (by rfl) hcall) ?_ hwrite
  · exact text_write ..
  · have hwritten := mentions_call (f := "write") (by decide) (List.forall_mem_cons.2
      ⟨show (Piece.operand z texel).Mentions xs from hw₂.mentions, List.forall_mem_singleton.2
        (show (Piece.operand y coordinate).Mentions xs from hw₃.mentions)⟩)
    exact List.forall_mem_cons.2 ⟨hw₁.mentions, List.forall_mem_cons.2 ⟨mentions_token (by decide),
      List.forall_mem_append.2 ⟨hwritten, List.forall_mem_singleton.2 (mentions_token (by decide))⟩⟩⟩

/-- **What is written for an instruction that computes a value.** -/
theorem wrote_apply {ts : List Ty} {ls : List UInt32} (w : Writing t bs s.decls W xs Γ e) (hi : i ∈ W)
    (hlen : 2 ≤ i.operands.length) (hty : TypeAt s.decls i.resultType ty)
    (hext : i.opcode = .extInst → i.arg? 0 = some s.extended)
    (hvs : List.Forall₂ (fun x ty => ∃ v : I.Value, Known s Γ x ty (.value v)) i.values ts)
    (hls : i.literals = ls) (hsig : Signature i.opcode ls ts ty) (hg : Gives (Emit.instruction t i) e u e') :
    Wrote t bs W xs i e e' ((i.result, ty, d) :: Γ) := by
  have hr := hsig.typed.2
  have hbinary : ∀ op ∈ floatingOps ++ integralOps ++ floatingComparisons ++ integralComparisons,
      (binaryOperators.lookup op).isSome = true ∧ op.layout = .values 0 := by decide
  -- an operator of two operands
  have htwo : ∀ {tx ty' : Ty}, (binaryOperators.lookup i.opcode).isSome = true ∧
      i.opcode.layout = .values 0 → ts = [tx, ty'] → named tx = true → named ty' = true →
      Emission.isLocal ty = true → Wrote t bs W xs i e e' ((i.result, ty, d) :: Γ) := by
    rintro tx ty' ⟨hop, hlayout⟩ rfl htx hty' hl
    obtain ⟨op, hop⟩ := Option.isSome_iff_exists.1 hop
    have hargs := args_of_values hlayout
    generalize i.values = vs at hvs hargs
    obtain _ | ⟨⟨a, hx⟩, _ | ⟨⟨b, hy⟩, _ | _⟩⟩ := hvs
    exact wrote_binary S L w hi hr hl hop hargs hx htx hy hty' hg
  -- a function of operands with components
  have hfunction : ∀ {k : UInt32}, i.opcode = .extInst → ls = [k] →
      (∀ ty ∈ ts, ty.component.isScalar = true) → ts ≠ [] → Emission.isLocal ty = true →
      Wrote t bs W xs i e e' ((i.result, ty, d) :: Γ) := by
    rintro k hop rfl hts hne hl
    exact wrote_extended S L w hi hr hl hop (args_of_extended (by rw [hop]; rfl) (hext hop) hls)
      (fun ty h => named_of_component (hts ty h)) hvs (fun ty h => isLocal_of_component (hts ty h)) hne hg
  generalize hop : i.opcode = op at hsig
  cases hsig with
  | floating h hf =>
    have hs := scalar_of_isFloating hf
    have hn := named_of_component hs
    exact htwo (by rw [hop]; exact hbinary _ (by simp [h])) rfl hn hn (isLocal_of_component hs)
  | integral h hf =>
    have hs := scalar_of_isSigned hf
    have hn := named_of_component hs
    exact htwo (by rw [hop]; exact hbinary _ (by simp [h])) rfl hn hn (isLocal_of_component hs)
  | compareFloating h | compareIntegral h =>
    exact htwo (by rw [hop]; exact hbinary _ (by simp [h])) rfl rfl rfl rfl
  | transform => exact htwo (by rw [hop]; exact ⟨rfl, rfl⟩) rfl rfl rfl rfl
  | fNegate hf =>
    have hs := scalar_of_isFloating hf
    have hargs := args_of_values (i := i) (by rw [hop]; rfl)
    generalize i.values = vs at hvs hargs
    obtain _ | ⟨⟨a, hx⟩, _ | _⟩ := hvs
    exact wrote_negate S L w hi hr (isLocal_of_component hs) (.inl hop) hargs hx (named_of_component hs) hg
  | sNegate hf =>
    have hs := scalar_of_isSigned hf
    have hargs := args_of_values (i := i) (by rw [hop]; rfl)
    generalize i.values = vs at hvs hargs
    obtain _ | ⟨⟨a, hx⟩, _ | _⟩ := hvs
    exact wrote_negate S L w hi hr (isLocal_of_component hs) (.inr hop) hargs hx (named_of_component hs) hg
  | dot =>
    have hargs := args_of_values (i := i) (by rw [hop]; rfl)
    generalize i.values = vs at hvs hargs
    obtain _ | ⟨⟨a, hx⟩, _ | ⟨⟨b, hy⟩, _ | _⟩⟩ := hvs
    exact wrote_dot S L w hi hr rfl hop hargs hx hy rfl hg
  | construct hc hts =>
    rw [← args_of_values (i := i) (by rw [hop]; rfl)] at hvs
    exact wrote_construct S L w hi hr rfl (.inl hop)
      (fun t ht => named_of_component (by rw [hts t ht]; exact hc)) hvs hty hc hg
  | convert =>
    rw [← args_of_values (i := i) (by rw [hop]; rfl)] at hvs
    exact wrote_construct S L w hi hr rfl (.inr hop) (by simp [named]) hvs hty rfl hg
  | extract hk =>
    have hargs := args_of_leading (i := i) (n := 1) (by rw [hop]; rfl)
    rw [hls] at hargs
    generalize i.values = vs at hvs hargs
    obtain _ | ⟨⟨a, hx⟩, _ | _⟩ := hvs
    exact wrote_extract S L w hi hr hop hargs hx hg
  | @shuffle _ _ m _ hks hn4 hlength =>
    have hargs := args_of_leading (i := i) (n := 2) (by rw [hop]; rfl)
    rw [hls] at hargs
    generalize i.values = vs at hvs hargs
    obtain _ | ⟨⟨a, hx⟩, _ | ⟨⟨b, hy⟩, _ | _⟩⟩ := hvs
    refine wrote_shuffle S L w hi hr rfl hop hargs hx hks ?_ hg
    have hpos := (S.vector hty).2.1
    rw [UInt32.lt_iff_toNat_lt, ← hlength] at hpos
    exact List.ne_nil_of_length_pos hpos
  | join =>
    have hargs := args_of_values (i := i) (by rw [hop]; rfl)
    generalize i.values = vs at hvs hargs
    obtain _ | ⟨⟨a, hx⟩, _ | ⟨⟨b, hy⟩, _ | _⟩⟩ := hvs
    exact wrote_join S L w hi hlen hop hargs hx hy hg
  | @sampleImplicit c k f =>
    generalize hvals : i.values = vs at hvs
    obtain _ | ⟨⟨a, hx⟩, _ | ⟨⟨b, hy⟩, _ | _⟩⟩ := hvs
    have hargs := args_of_sampling (by rw [hop]; rfl) hvals
    rw [hls] at hargs
    exact wrote_sample S L w hi hr rfl (.inl ⟨hop, rfl⟩) hargs hy (named_coordinate k) hg
  | @sampleExplicit c k f =>
    generalize hvals : i.values = vs at hvs
    obtain _ | ⟨⟨a, hx⟩, _ | ⟨⟨b, hy⟩, _ | ⟨⟨z, hz⟩, _ | _⟩⟩⟩ := hvs
    have hargs := args_of_sampling (by rw [hop]; rfl) hvals
    rw [hls] at hargs
    exact wrote_sample S L w hi hr rfl (.inr ⟨hop, _, z, rfl, hz⟩) hargs hy (named_coordinate k) hg
  | function h hf | function2 h hf | fMix hf =>
    have hs := scalar_of_isFloating hf
    exact hfunction hop rfl (by simpa using hs) (by simp) (isLocal_of_component hs)
  | sAbs hf | integral2 h hf =>
    have hs := scalar_of_isSigned hf
    exact hfunction hop rfl (by simpa using hs) (by simp) (isLocal_of_component hs)
  | length hf =>
    have hs := scalar_of_isFloating hf
    exact hfunction hop rfl (by simpa using hs) (by simp) (isLocal_of_component (scalar_component hs))

/-- **What is written for an instruction** that runs is what it prints, and it names only locals that are
declared. -/
theorem instruction_prints {o : List (Output I.Value)} (hi : i ∈ W) (h : Step s Γ i Γ' o)
    (w : Writing t bs s.decls W xs Γ e) (hg : Gives (Emit.instruction t i) e u e') :
    Wrote t bs W xs i e e' Γ' := by
  cases h with
  | apply hlen hty hext hargs hsig =>
    refine wrote_apply S L w hi hlen hty hext ?_ rfl hsig hg
    rw [List.forall₂_map_right_iff]
    exact hargs.imp fun x a h => ⟨a.2, h⟩
  | load hty hp _ => exact wrote_load S L w hi hty hp hg
  | access _ hb hk _ hms _ _ => exact wrote_access S w hi hb hk hms hg
  | store hp hx => exact wrote_store S L w hp hx hg
  | write hx hy hz => exact wrote_write S L w hx hy hz hg

end Setting

end NodeShader.Metal
