import Mathlib.Algebra.Group.Nat.Defs
import NodeShader.Proofs.Bytes
import NodeShader.Proofs.Spirv.Building

/-!
# Literals are read back

A name takes its bytes four to a word and ends in a zero; where the bytes fill their words, one more
word has the zero alone.  A reader stops at the first zero, so it finds the bytes again and the place
where the operands behind the name start.  Byte streams and words are two forms of one thing.

* `toNat_wordOfBytes`, `bytesOfWord_wordOfBytes`: four bytes are the digits of their word.
* `wordsOfBytes?_eq_some_iff`: a stream is read as the words it is the bytes of.
* `readName_nameWords`, `drop_readName`: a name, and what is behind it.
* `values_entryPoint`: the interface of an entry point is found behind its name.
* `literals_read_back`: both, for all names without a zero and all streams of full words.
-/

namespace NodeShader.Spirv

/-- What is put above a number's bits is added to it. -/
theorem lor_shiftLeft {x k : Nat} (y : Nat) (h : x < 2 ^ k) : x ||| y <<< k = x + 2 ^ k * y := by
  rw [Nat.or_comm, ← Nat.shiftLeft_add_eq_or_of_lt h, Nat.shiftLeft_eq, Nat.mul_comm, Nat.add_comm]

/-- Four bytes are the digits of their word. -/
theorem toNat_wordOfBytes (a b c d : UInt8) :
    (wordOfBytes a b c d).toNat =
      a.toNat + 2 ^ 8 * b.toNat + 2 ^ 16 * c.toNat + 2 ^ 24 * d.toNat := by
  have ha := a.toNat_lt
  have hb := b.toNat_lt
  have hc := c.toNat_lt
  have hd := d.toNat_lt
  have hshift : ∀ (x : UInt8) (k : Nat), k ≤ 24 → x.toNat <<< k % 2 ^ 32 = x.toNat <<< k := by
    intro x k hk
    have hx := x.toNat_lt
    have hpow : 2 ^ k ≤ 2 ^ 24 := Nat.pow_le_pow_right (by decide) hk
    have hmul : x.toNat * 2 ^ k < 2 ^ 8 * 2 ^ 24 :=
      Nat.mul_lt_mul_of_lt_of_le hx hpow (by decide)
    rw [Nat.shiftLeft_eq]
    exact Nat.mod_eq_of_lt hmul
  simp only [wordOfBytes, UInt32.toNat_or, UInt32.toNat_shiftLeft, UInt8.toNat_toUInt32,
    UInt32.reduceToNat, Nat.reduceMod]
  rw [hshift b 8 (by decide), hshift c 16 (by decide), hshift d 24 (by decide),
    lor_shiftLeft b.toNat ha, lor_shiftLeft c.toNat (by omega), lor_shiftLeft d.toNat (by omega)]

/-- The bytes of a word are the ones it was made of. -/
theorem bytesOfWord_wordOfBytes (a b c d : UInt8) :
    bytesOfWord (wordOfBytes a b c d) = [a, b, c, d] := by
  have ha := a.toNat_lt
  have hb := b.toNat_lt
  have hc := c.toNat_lt
  have hd := d.toNat_lt
  simp only [bytesOfWord, List.cons.injEq, ← UInt8.toNat_inj, UInt32.toNat_toUInt8,
    UInt32.toNat_shiftRight, UInt32.toNat_ofNat, Nat.shiftRight_eq_div_pow, and_true,
    toNat_wordOfBytes]
  simp only [Nat.reduceMod, Nat.reducePow] at *
  omega

/-- Bytes in full groups are the bytes of the words of the groups. -/
theorem bytesOfWords_groupWords (bytes : List UInt8) (h : bytes.length % 4 = 0) :
    bytesOfWords (groupWords bytes) = bytes := by
  fun_induction groupWords bytes with
  | case1 a b c d rest ih =>
    have hrest : rest.length % 4 = 0 := by
      simp only [List.length_cons] at h
      omega
    rw [bytesOfWords, List.flatMap_cons, bytesOfWord_wordOfBytes, ← bytesOfWords, ih hrest]
    rfl
  | case2 bytes hshort =>
    rcases bytes with _ | ⟨a, _ | ⟨b, _ | ⟨c, _ | ⟨d, rest⟩⟩⟩⟩
    · rfl
    · exact absurd h (by simp)
    · exact absurd h (by simp)
    · exact absurd h (by simp)
    · exact absurd rfl (hshort a b c d rest)

theorem wordsOfBytes?_eq_some_iff {bytes : List UInt8} {words : List UInt32} :
    wordsOfBytes? bytes = some words ↔ bytes = bytesOfWords words := by
  constructor
  · intro h
    by_cases hlen : bytes.length % 4 = 0
    · rw [wordsOfBytes?, if_pos hlen, Option.some.injEq] at h
      rw [← h, bytesOfWords_groupWords bytes hlen]
    · rw [wordsOfBytes?, if_neg hlen] at h
      cases h
  · rintro rfl
    have hlen : (bytesOfWords words).length % 4 = 0 := by
      rw [length_bytesOfWords]
      omega
    rw [wordsOfBytes?, if_pos hlen]
    exact congrArg some (bytesOfWords_injective (bytesOfWords_groupWords _ hlen))

/-- A word of bytes that are not zero goes on with the words behind it. -/
theorem readName_cons {a b c d : UInt8} (ha : a ≠ 0) (hb : b ≠ 0) (hc : c ≠ 0) (hd : d ≠ 0)
    (rest : List UInt32) : readName (wordOfBytes a b c d :: rest) =
      (a :: b :: c :: d :: (readName rest).1, (readName rest).2 + 1) := by
  have hbytes : (bytesOfWord (wordOfBytes a b c d)).takeWhile (· != 0) = [a, b, c, d] := by
    rw [bytesOfWord_wordOfBytes]
    simp [ha, hb, hc, hd]
  simp only [readName, hbytes]
  rfl

/-- A word with a zero among its bytes is the last one of a name. -/
theorem readName_last {bytes zeros : List UInt8} {w : UInt32}
    (hw : bytesOfWord w = bytes ++ 0 :: zeros) (hne : ∀ b ∈ bytes, b ≠ 0) (rest : List UInt32) :
    readName (w :: rest) = (bytes, bytes.length / 4 + 1) := by
  have hbytes : (bytesOfWord w).takeWhile (· != 0) = bytes := by
    rw [hw, List.takeWhile_append_of_pos (by simpa using hne)]
    simp
  have hlen : bytes.length < 4 := by
    have h := congrArg List.length hw
    simp only [bytesOfWord, List.length_cons, List.length_append, List.length_nil] at h
    omega
  simp only [readName, hbytes, if_pos hlen, Nat.div_eq_of_lt hlen]

/-- **A name is read up to its end**, whatever is behind it. -/
theorem readName_nameWords (name : List UInt8) (hne : ∀ b ∈ name, b ≠ 0) (rest : List UInt32) :
    readName (nameWords name ++ rest) = (name, name.length / 4 + 1) := by
  -- One word a step, as it is written: the last one has the zero, alone if the name fills its words.
  fun_induction nameWords name with
  | case1 a b c d tail ih =>
    simp only [List.forall_mem_cons] at hne
    obtain ⟨ha, hb, hc, hd, htail⟩ := hne
    rw [List.cons_append, readName_cons ha hb hc hd, ih htail]
    simp only [List.length_cons, Prod.mk.injEq, true_and]
    omega
  | case2 a b c => exact readName_last (bytesOfWord_wordOfBytes a b c 0) hne rest
  | case3 a b => exact readName_last (bytesOfWord_wordOfBytes a b 0 0) hne rest
  | case4 a => exact readName_last (bytesOfWord_wordOfBytes a 0 0 0) hne rest
  | case5 => exact readName_last (show bytesOfWord 0 = [] ++ 0 :: [0, 0, 0] from rfl) hne rest

/-- What is behind a name is found where its words end. -/
theorem drop_readName (name : List UInt8) (hne : ∀ b ∈ name, b ≠ 0) (rest : List UInt32) :
    (nameWords name ++ rest).drop (readName (nameWords name ++ rest)).2 = rest := by
  rw [readName_nameWords name hne, ← length_nameWords, List.drop_left]

/-- The name of the entry points that are written has no zero. -/
theorem main_ne_zero : ∀ b ∈ Text.bytes "main", b ≠ 0 := by
  rw [show Text.bytes "main" = [0x6d, 0x61, 0x69, 0x6e] from rfl]
  simp

/-- What an entry point names besides its model and its name: the function and the interface. -/
theorem values_entryPoint (name : List UInt8) (hne : ∀ b ∈ name, b ≠ 0) (model main : UInt32)
    (interface : List UInt32) :
    (⟨.entryPoint, model :: main :: nameWords name ++ interface⟩ : Instruction).values =
      main :: interface := by
  have hvalues : (⟨.entryPoint, model :: main :: nameWords name ++ interface⟩ : Instruction).values
      = main :: (nameWords name ++ interface).drop (readName (nameWords name ++ interface)).2 := rfl
  rw [hvalues, drop_readName name hne]

/-- **Literals are read back.** A name without a zero byte is read back, whatever words are behind
it, with the number of words it takes; so what is behind it is found again, as the interface of an
entry point is.  A stream of full words is the bytes of the words it is read as, and words are what
their bytes are read as. -/
theorem literals_read_back (name : List UInt8) (hne : ∀ b ∈ name, b ≠ 0) :
    (∀ rest, readName (nameWords name ++ rest) = (name, name.length / 4 + 1) ∧
      (nameWords name).length = name.length / 4 + 1 ∧
      (nameWords name ++ rest).drop (readName (nameWords name ++ rest)).2 = rest) ∧
    (∀ model main interface,
      (⟨.entryPoint, model :: main :: nameWords name ++ interface⟩ : Instruction).values =
        main :: interface) ∧
    (∀ bytes, bytes.length % 4 = 0 →
      ∃ words, wordsOfBytes? bytes = some words ∧ bytesOfWords words = bytes) ∧
    ∀ words, wordsOfBytes? (bytesOfWords words) = some words := by
  refine ⟨fun rest => ⟨?_, ?_, ?_⟩, values_entryPoint name hne, fun bytes hlen => ?_, fun words => ?_⟩
  · exact readName_nameWords name hne rest
  · exact length_nameWords name
  · exact drop_readName name hne rest
  · exact ⟨groupWords bytes, if_pos hlen, bytesOfWords_groupWords bytes hlen⟩
  · exact wordsOfBytes?_eq_some_iff.2 rfl

/-- A name that fills its word takes one more, and the interface is behind that one. -/
theorem literals_read_back_main :
    nameWords (Text.bytes "main") = [0x6e69616d, 0] ∧
      readName [0x6e69616d, 0, 7, 0x0100] = (Text.bytes "main", 2) ∧
      wordsOfBytes? [1, 2, 3, 4] = some [0x04030201] := by
  have hname : nameWords (Text.bytes "main") = [0x6e69616d, 0] := by decide
  obtain ⟨hread, -, hbytes, -⟩ := literals_read_back (Text.bytes "main") main_ne_zero
  refine ⟨hname, ?_, ?_⟩
  · rw [show [0x6e69616d, 0, 7, 0x0100] = nameWords (Text.bytes "main") ++ [7, 0x0100] by
      rw [hname]
      rfl]
    exact (hread _).1
  · obtain ⟨words, hwords, hback⟩ := hbytes [1, 2, 3, 4] rfl
    rw [hwords, bytesOfWords_injective (hback.trans
      (show [1, 2, 3, 4] = bytesOfWords [0x04030201] by decide))]

end NodeShader.Spirv
