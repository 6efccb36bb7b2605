import Mathlib.Data.Nat.Bitwise
import NodeShader.Proofs.Outcome
import NodeShader.Spirv.Module

/-!
# The framing of modules

A module is a header and instructions laid end to end, each behind a word that tells its length.  So
the words after the header are read in one way only, and reading is the inverse of writing:

* `lengthOf_head`, `opcodeOf_head`: the first word of an instruction tells its length and opcode, and
  `eq_head` that it holds nothing else.
* `parseInstructions_eq_ok`: reading gives the instructions that spell the words.
* `Module.parse_spelled`: a list of words is a module exactly if instructions spell what follows its
  header, and then these are its instructions.
-/

namespace NodeShader.Spirv

/-- The first word of an instruction. -/
def headWord (length : Nat) (op : Opcode) : UInt32 := length.toUInt32 <<< 16 ||| op.code.toUInt32

/-- An instruction that a module with the given bound may hold: its length can be told, and its
result is below the bound. -/
structure Instruction.Framed (bound : UInt32) (i : Instruction) : Prop where
  short : i.encode.length ≤ 65535
  bounded : i.result = 0 ∨ i.result < bound

/-- **Instructions that spell a list of words**: laid end to end they are that list. -/
def Spells (bound : UInt32) (is : List Instruction) (words : List UInt32) : Prop :=
  words = is.flatMap Instruction.encode ∧ ∀ i ∈ is, i.Framed bound

/-! ### The first word of an instruction -/

theorem toNat_headWord {n : Nat} (h : n ≤ 65535) (op : Opcode) :
    (headWord n op).toNat = n * 65536 + op.code.toNat := by
  have hop : op.code.toNat < 2 ^ 16 := op.code.toNat_lt
  have hn : n.toUInt32.toNat = n := by
    rw [Nat.toUInt32, UInt32.toNat_ofNat']
    omega
  rw [headWord, UInt32.toNat_or, UInt32.toNat_shiftLeft, hn, UInt16.toNat_toUInt32]
  rw [show ((16 : UInt32).toNat % 32) = 16 from rfl, Nat.shiftLeft_eq, Nat.mod_eq_of_lt (by omega),
    Nat.mul_comm n, ← Nat.two_pow_add_eq_or_of_lt hop]

theorem toNat_lengthOf (w : UInt32) : lengthOf w = w.toNat / 65536 := by
  rw [lengthOf, UInt32.toNat_shiftRight, show ((16 : UInt32).toNat % 32) = 16 from rfl,
    Nat.shiftRight_eq_div_pow]

theorem toNat_opcodeOf (w : UInt32) : (opcodeOf w).code.toNat = w.toNat % 65536 := rfl

theorem lengthOf_head {n : Nat} (h : n ≤ 65535) (op : Opcode) : lengthOf (headWord n op) = n := by
  have hop : op.code.toNat < 65536 := op.code.toNat_lt
  rw [toNat_lengthOf, toNat_headWord h]
  omega

theorem opcodeOf_head {n : Nat} (h : n ≤ 65535) (op : Opcode) : opcodeOf (headWord n op) = op := by
  have hop : op.code.toNat < 65536 := op.code.toNat_lt
  have hcode : (opcodeOf (headWord n op)).code = op.code := by
    refine UInt16.toNat_inj.1 ?_
    rw [toNat_opcodeOf, toNat_headWord h]
    omega
  exact congrArg Opcode.mk hcode

/-- A word holds a length and an opcode, and nothing else. -/
theorem eq_head (w : UInt32) : w = headWord (lengthOf w) (opcodeOf w) := by
  have hw : w.toNat < 4294967296 := w.toNat_lt
  refine UInt32.toNat_inj.1 ?_
  rw [toNat_headWord (by rw [toNat_lengthOf]; omega), toNat_lengthOf, toNat_opcodeOf]
  omega

theorem lengthOf_le (w : UInt32) : lengthOf w ≤ 65535 := by
  have hw : w.toNat < 4294967296 := w.toNat_lt
  rw [toNat_lengthOf]
  omega

namespace Instruction

theorem encode_eq (i : Instruction) :
    i.encode = headWord (i.operands.length + 1) i.opcode :: i.operands := rfl

theorem length_encode (i : Instruction) : i.encode.length = i.operands.length + 1 := rfl

theorem exceeds_eq_false {i : Instruction} {bound : UInt32} :
    i.exceeds bound = false ↔ i.result = 0 ∨ i.result < bound := by
  rw [exceeds, Bool.and_eq_false_iff, bne_eq_false_iff_eq, decide_eq_false_iff_not, UInt32.not_le]

end Instruction

/-! ### Reading instructions -/

variable {bound : UInt32} {is js : List Instruction} {i : Instruction} {words rest : List UInt32}

/-- Words that belong to an instruction already read are passed over. -/
theorem parseInstructionsAfter_eq (bound : UInt32) (taken offset : Nat) (words : List UInt32) :
    parseInstructionsAfter bound taken offset words =
      parseInstructions bound offset (words.drop taken) := by
  induction words generalizing taken with
  | nil =>
    rw [List.drop_nil, parseInstructions, parseInstructionsAfter, parseInstructionsAfter]
  | cons w rest ih =>
    cases taken with
    | zero => rfl
    | succ taken => rw [parseInstructionsAfter, ih, List.drop_succ_cons]

/-- **Reading one instruction**, which its first word tells how to cut off. -/
theorem parseInstructions_cons (bound : UInt32) (offset : Nat) (w : UInt32) (rest : List UInt32)
    (hpos : lengthOf w ≠ 0) (hlen : lengthOf w - 1 ≤ rest.length)
    (hi : (⟨opcodeOf w, rest.take (lengthOf w - 1)⟩ : Instruction).exceeds bound = false) :
    parseInstructions bound offset (w :: rest) =
      (parseInstructions bound (offset + lengthOf w) (rest.drop (lengthOf w - 1))).map
        (⟨opcodeOf w, rest.take (lengthOf w - 1)⟩ :: ·) := by
  rw [parseInstructions, parseInstructionsAfter]
  simp only [hpos, hi, Nat.not_lt.2 hlen, if_false, Bool.false_eq_true, parseInstructionsAfter_eq]

/-- What is read before other words. -/
theorem parseInstructions_encode (hi : i.Framed bound) (offset : Nat) (rest : List UInt32) :
    parseInstructions bound offset (i.encode ++ rest) =
      (parseInstructions bound (offset + i.encode.length) rest).map (i :: ·) := by
  have hshort : i.operands.length + 1 ≤ 65535 := hi.short
  have htake : (i.operands ++ rest).take i.operands.length = i.operands := List.take_left
  have hdrop : (i.operands ++ rest).drop i.operands.length = rest := List.drop_left
  have hcons := parseInstructions_cons bound offset
    (headWord (i.operands.length + 1) i.opcode) (i.operands ++ rest)
  rw [lengthOf_head hshort, opcodeOf_head hshort, Nat.add_sub_cancel, htake, hdrop] at hcons
  exact hcons (by omega) (by simp) (Instruction.exceeds_eq_false.2 hi.bounded)

/-- What is written is read again. -/
theorem parseInstructions_of_spells (h : Spells bound is words) (offset : Nat) :
    parseInstructions bound offset words = .ok is := by
  obtain ⟨rfl, hall⟩ := h
  induction is generalizing offset with
  | nil => rfl
  | cons i is ih =>
    rw [List.forall_mem_cons] at hall
    rw [List.flatMap_cons, parseInstructions_encode hall.1, ih _ hall.2]
    rfl

/-- What is read was written so. -/
theorem spells_of_parseInstructions {offset : Nat}
    (h : parseInstructions bound offset words = .ok is) : Spells bound is words := by
  induction hn : words.length using Nat.strong_induction_on generalizing words is offset with
  | _ n ih =>
    cases words with
    | nil =>
      cases h
      exact ⟨rfl, fun _ hi => absurd hi List.not_mem_nil⟩
    | cons w rest =>
      by_cases hpos : lengthOf w = 0
      · rw [parseInstructions, parseInstructionsAfter] at h
        simp only [hpos, if_true] at h
        cases h
      by_cases hlen : rest.length < lengthOf w - 1
      · rw [parseInstructions, parseInstructionsAfter] at h
        simp only [hpos, hlen, if_false, if_true] at h
        cases h
      cases hexc : (⟨opcodeOf w, rest.take (lengthOf w - 1)⟩ : Instruction).exceeds bound with
      | true =>
        rw [parseInstructions, parseInstructionsAfter] at h
        simp only [hpos, hlen, hexc, if_false, if_true] at h
        cases h
      | false =>
        rw [parseInstructions_cons _ offset w rest hpos (by omega) hexc] at h
        obtain ⟨js, hjs, rfl⟩ := map_eq_ok.1 h
        -- the rest is shorter by the instruction that was read
        have hlt : (rest.drop (lengthOf w - 1)).length < n := by
          rw [← hn, List.length_drop, List.length_cons]
          omega
        obtain ⟨hrest, hall⟩ := ih _ hlt hjs rfl
        have hcount : (rest.take (lengthOf w - 1)).length = lengthOf w - 1 := by
          rw [List.length_take]
          omega
        have hencode : (⟨opcodeOf w, rest.take (lengthOf w - 1)⟩ : Instruction).encode =
            w :: rest.take (lengthOf w - 1) := by
          rw [Instruction.encode_eq, hcount, Nat.sub_add_cancel (by omega), ← eq_head]
        refine ⟨?_, List.forall_mem_cons.2 ⟨⟨?_, Instruction.exceeds_eq_false.1 hexc⟩, hall⟩⟩
        · rw [List.flatMap_cons, hencode, ← hrest, List.cons_append, List.take_append_drop]
        · have := lengthOf_le w
          rw [Instruction.length_encode, hcount]
          omega

/-- **Reading instructions** gives those that spell the words. -/
theorem parseInstructions_eq_ok {offset : Nat} :
    parseInstructions bound offset words = .ok is ↔ Spells bound is words :=
  ⟨spells_of_parseInstructions, fun h => parseInstructions_of_spells h offset⟩

/-- Words are spelled in one way. -/
theorem Spells.unique (h : Spells bound is words) (h' : Spells bound js words) : is = js := by
  have hj := parseInstructions_of_spells h' 0
  rw [parseInstructions_of_spells h 0] at hj
  exact Except.ok.inj hj

namespace Module

/-- **Reading a module**: the header, and the instructions that spell what follows it. -/
theorem parse_eq_ok {m : Module} : parse words = .ok m ↔
    ∃ version reserved rest, words = magic :: version :: m.generator :: m.bound :: reserved :: rest ∧
      m.version = .ofWord version ∧ Spells m.bound m.instructions rest := by
  constructor
  · intro h
    unfold parse at h
    split at h
    · rename_i w version generator bound reserved rest
      by_cases hw : w = magic
      · rw [if_neg (not_not.2 hw)] at h
        obtain ⟨is, his, h⟩ := bind_eq_ok.1 h
        cases h
        exact ⟨version, reserved, rest, by rw [hw], rfl, parseInstructions_eq_ok.1 his⟩
      · rw [if_pos hw] at h
        cases h
    · cases h
  · rintro ⟨version, reserved, rest, rfl, hversion, hspells⟩
    obtain ⟨v, generator, bound, is⟩ := m
    simp only at hversion hspells
    rw [parse, if_neg (not_not.2 rfl), parseInstructions_eq_ok.2 hspells, hversion]
    rfl

/-- **A list of words is a module exactly if it is well framed**: it has a header that starts with the
magic number, and instructions that each tell their length and stay below the bound spell the rest.
The module has the header's version, generator and bound, and those instructions, which are the only
ones that spell the rest. -/
theorem parse_spelled (words : List UInt32) :
    ((∃ m, parse words = .ok m) ↔ 5 ≤ words.length ∧ words[0]? = some magic ∧
      ∃ bound is, words[3]? = some bound ∧ Spells bound is (words.drop 5)) ∧
    ∀ m, parse words = .ok m → words[3]? = some m.bound ∧ words[2]? = some m.generator ∧
      (words[1]?).map .ofWord = some m.version ∧
      ∀ is, Spells m.bound is (words.drop 5) ↔ is = m.instructions := by
  constructor
  · constructor
    · rintro ⟨m, hm⟩
      obtain ⟨version, reserved, rest, rfl, -, hspells⟩ := parse_eq_ok.1 hm
      exact ⟨by simp, rfl, m.bound, m.instructions, rfl, hspells⟩
    · rintro ⟨hlen, hmagic, bound, is, hbound, hspells⟩
      match words, hlen with
      | _ :: version :: generator :: _ :: reserved :: rest, _ =>
        cases hmagic
        cases hbound
        exact ⟨⟨.ofWord version, generator, bound, is⟩,
          parse_eq_ok.2 ⟨version, reserved, rest, rfl, rfl, hspells⟩⟩
  · intro m hm
    obtain ⟨version, reserved, rest, rfl, hversion, hspells⟩ := parse_eq_ok.1 hm
    refine ⟨rfl, rfl, by rw [hversion]; rfl, fun is => ⟨fun h => h.unique hspells, ?_⟩⟩
    rintro rfl
    exact hspells

/-- An instruction of no known code and the declaration of a type, below a bound of 5. -/
theorem parse_spelled_type :
    ∃ m, parse [magic, 0x00010300, 1, 5, 0, 0x0003fffe, 7, 7, 0x00020013, 4] = .ok m ∧
      m.instructions = [⟨⟨0xfffe⟩, [7, 7]⟩, ⟨.typeVoid, [4]⟩] ∧
      ∀ is, Spells 5 is [0x0003fffe, 7, 7, 0x00020013, 4] ↔ is = m.instructions := by
  have hparse : parse [magic, 0x00010300, 1, 5, 0, 0x0003fffe, 7, 7, 0x00020013, 4] =
      .ok ⟨⟨1, 3⟩, 1, 5, [⟨⟨0xfffe⟩, [7, 7]⟩, ⟨.typeVoid, [4]⟩]⟩ := by rfl
  exact ⟨_, hparse, rfl, ((parse_spelled _).2 _ hparse).2.2.2⟩

end Module

end NodeShader.Spirv
