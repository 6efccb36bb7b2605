import NodeShader.Proofs.Spirv.Calls
import NodeShader.Proofs.Spirv.Framed

/-!
# Reading what was built

The words of a builder are those of a module, so they are read back if its instructions can be told
apart: each must fit the 16 bits in which its length is written.  A name is an operand of any length,
and one of 262132 bytes is too long (`Call.zeroLength_of_name`).
-/

namespace NodeShader.Spirv

variable {b : ModuleBuilder} {version : Version} {h : History}

theorem Version.toNat_word (v : Version) :
    v.word.toNat = v.major.toNat * 65536 + v.minor.toNat * 256 := by
  have hmajor : v.major.toNat < 256 := v.major.toNat_lt
  have hminor : v.minor.toNat < 256 := v.minor.toNat_lt
  rw [word, UInt32.toNat_or, UInt32.toNat_shiftLeft, UInt32.toNat_shiftLeft,
    show ((16 : UInt32).toNat % 32) = 16 from rfl, show ((8 : UInt32).toNat % 32) = 8 from rfl,
    UInt8.toNat_toUInt32, UInt8.toNat_toUInt32, Nat.shiftLeft_eq, Nat.shiftLeft_eq,
    Nat.mod_eq_of_lt (by omega), Nat.mod_eq_of_lt (by omega), Nat.mul_comm v.major.toNat,
    ← Nat.two_pow_add_eq_or_of_lt (i := 16) (by omega)]

/-- A version is read from its word. -/
theorem Version.ofWord_word (v : Version) : Version.ofWord v.word = v := by
  have hmajor : v.major.toNat < 256 := v.major.toNat_lt
  have hminor : v.minor.toNat < 256 := v.minor.toNat_lt
  have hword := v.toNat_word
  obtain ⟨major, minor⟩ := v
  simp only at hmajor hminor hword
  rw [ofWord, mk.injEq]
  constructor
  · rw [← UInt8.toNat_inj, UInt32.toNat_toUInt8, UInt32.toNat_shiftRight, hword,
      show ((16 : UInt32).toNat % 32) = 16 from rfl, Nat.shiftRight_eq_div_pow]
    omega
  · rw [← UInt8.toNat_inj, UInt32.toNat_toUInt8, UInt32.toNat_shiftRight, hword,
      show ((8 : UInt32).toNat % 32) = 8 from rfl, Nat.shiftRight_eq_div_pow]
    omega

/-- **A builder's words are read back** exactly if its instructions can be told apart. -/
theorem ModuleBuilder.parse_words_eq_ok (b : ModuleBuilder) :
    Module.parse b.words = .ok ⟨b.version, generatorWord, b.nextId.toUInt32, b.instructions⟩ ↔
      ∀ i ∈ b.instructions, i.Framed b.nextId.toUInt32 := by
  rw [Module.parse_eq_ok]
  constructor
  · rintro ⟨version, reserved, rest, hwords, -, hspells⟩
    exact hspells.2
  · intro hall
    exact ⟨b.version.word, 0, _, rfl, (Version.ofWord_word _).symm, rfl, hall⟩

theorem History.Leads.instructions (hl : h.Leads version b) :
    b.instructions = Section.layout.flatMap fun s => (h.appended.filter (·.1 == s)).map (·.2) := by
  rw [ModuleBuilder.instructions, ← hl.entries]
  rfl

/-- **What is built with calls is read back, as long as its instructions are short.**  Take any calls
whose results were handed out by the builder, fewer than `2 ^ 32` of them.  Reading the words gives the
builder's version, generator and bound, and the instructions that were added, section by section in
layout order and within a section in the order of the calls, exactly if none of these instructions
takes more than 65535 words. -/
theorem Call.parse_words_runs (version : Version) (cs : List Call) {xs : List UInt32}
    {b : ModuleBuilder} (hrun : (Call.runs cs).run (ModuleBuilder.new version) = (xs, b))
    (hlt : b.nextId < 4294967296)
    (hresults : ∀ e ∈ History.appended (cs.zip xs),
      e.2.result = 0 ∨ e.2.result ∈ History.handedOut (cs.zip xs)) :
    let is := Section.layout.flatMap fun s =>
      ((History.appended (cs.zip xs)).filter (·.1 == s)).map (·.2)
    Module.parse b.words = .ok ⟨version, generatorWord, b.nextId.toUInt32, is⟩ ↔
      ∀ i ∈ is, i.encode.length ≤ 65535 := by
  intro is
  have hl := (History.Leads.new version).runs cs
  rw [hrun, List.nil_append] at hl
  have his : b.instructions = is := hl.instructions
  rw [← his]
  have hparse := b.parse_words_eq_ok
  rw [hl.version] at hparse
  rw [hparse]
  constructor
  · exact fun hall i hi => (hall i hi).short
  · intro hall i hi
    refine ⟨hall i hi, ?_⟩
    obtain ⟨s, hs⟩ := ModuleBuilder.mem_instructions.1 hi
    rw [hl.entries] at hs
    refine (hresults _ hs).imp_right fun hm => ?_
    rw [hl.handedOut] at hm
    rw [UInt32.lt_iff_toNat_lt, ModuleBuilder.toNat_toUInt32 hlt]
    exact (ModuleBuilder.mem_idsBelow hlt.le hm).2

/-- A type that is asked for twice and named, under a memory model that is set twice. -/
theorem Call.parse_words_float : Module.parse
    ((Call.runs [.memoryModel 0 0, .declare (.typeFloat 32), .name 1 "f", .declare (.typeFloat 32),
      .capability 1, .memoryModel 0 1]).run (ModuleBuilder.new .current)).2.words =
    .ok ⟨.current, 1, 2, [⟨.capability, [1]⟩, ⟨.memoryModel, [0, 1]⟩, ⟨.debugName, [1, 0x66]⟩,
      ⟨.typeFloat, [1, 32]⟩]⟩ := by
  have hrun : (Call.runs [.memoryModel 0 0, .declare (.typeFloat 32), .name 1 "f",
      .declare (.typeFloat 32), .capability 1, .memoryModel 0 1]).run (ModuleBuilder.new .current) =
    ([0, 1, 0, 1, 0, 0], _) := rfl
  exact (parse_words_runs .current _ hrun (by decide) (by decide)).2 (by decide)

/-- **A name can be too long.**  With a name of 262132 to 262135 bytes the instruction takes 65536
words, so its length is written as zero. -/
theorem Call.zeroLength_of_name (version : Version) (text : String)
    (hlen : (Text.bytes text).length / 4 = 65533) :
    Module.parse ((Call.runs [.allocId, .name 1 text]).run (ModuleBuilder.new version)).2.words =
      .error ⟨5, .zeroLength⟩ := by
  have hwords : ((Call.runs [.allocId, .name 1 text]).run (ModuleBuilder.new version)).2.words =
      magic :: version.word :: generatorWord :: 2 :: 0 ::
        headWord 65536 .debugName :: 1 :: (nameWords (Text.bytes text)) := by
    have hhead : (nameWords (Text.bytes text)).length + 1 + 1 = 65536 := by
      rw [length_nameWords, hlen]
    have hentries : ((Call.runs [.allocId, .name 1 text]).run (ModuleBuilder.new version)).2 =
        ⟨version, 2, #[(.debug, ⟨.debugName, 1 :: nameWords (Text.bytes text)⟩)], [], []⟩ := rfl
    rw [hentries, ← hhead]
    simp [ModuleBuilder.words, ModuleBuilder.instructions, Section.layout, ModuleBuilder.sectionOf,
      Instruction.encode_eq]
  rw [hwords]
  rfl

theorem Call.parse_words_long_name : Module.parse ((Call.runs [.allocId,
    .name 1 (String.ofList (List.replicate 262132 'a'))]).run (ModuleBuilder.new .current)).2.words =
      .error ⟨5, .zeroLength⟩ := by
  refine zeroLength_of_name .current _ ?_
  have hlen : (String.utf8EncodeChar 'a').length = 1 := rfl
  rw [Text.bytes, String.toList_ofList, List.length_flatMap, List.map_replicate, hlen,
    List.sum_replicate_nat]

end NodeShader.Spirv
