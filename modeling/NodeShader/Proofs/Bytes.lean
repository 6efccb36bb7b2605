import Mathlib.Data.List.Basic
import NodeShader.Spirv.Instruction
import NodeShader.Text.Basic

/-!
# Encodings

What is hashed is a chain of encodings, one behind the other, without anything between them. An
encoding is `Delimited` on some values where no value's is the beginning of another's followed by
something else: whatever comes behind it, it tells its value and where it ends. Chains of such
encodings tell all their values.
-/

namespace NodeShader

/-- An encoding that tells its value and its end, whatever is behind it. -/
def Delimited {α β : Type} (encode : α → List β) (P : α → Prop) : Prop :=
  ∀ ⦃a b⦄, P a → P b → ∀ ⦃r s⦄, encode a ++ r = encode b ++ s → a = b ∧ r = s

section Delimited

variable {α β γ : Type} {encode : α → List γ} {P : α → Prop}

/-- Encodings of one length have their end in one place. -/
theorem Delimited.of_length {n : Nat} (hn : ∀ a, P a → (encode a).length = n)
    (hinj : ∀ a b, P a → P b → encode a = encode b → a = b) : Delimited encode P := by
  intro a b ha hb r s h
  obtain ⟨hab, hrs⟩ := List.append_inj h ((hn a ha).trans (hn b hb).symm)
  exact ⟨hinj a b ha hb hab, hrs⟩

theorem Delimited.pair {encode' : β → List γ} {Q : β → Prop} (h : Delimited encode P)
    (h' : Delimited encode' Q) :
    Delimited (fun x : α × β => encode x.1 ++ encode' x.2) fun x => P x.1 ∧ Q x.2 := by
  rintro ⟨a, b⟩ ⟨a', b'⟩ ⟨ha, hb⟩ ⟨ha', hb'⟩ r s heq
  rw [List.append_assoc, List.append_assoc] at heq
  obtain ⟨rfl, hrest⟩ := h ha ha' heq
  obtain ⟨rfl, hrs⟩ := h' hb hb' hrest
  exact ⟨rfl, hrs⟩

/-- Values written one behind the other can be told apart, if none is written with nothing. -/
theorem Delimited.flatMap_inj (h : Delimited encode P) (hne : ∀ a, P a → encode a ≠ [])
    {as bs : List α} (ha : ∀ a ∈ as, P a) (hb : ∀ b ∈ bs, P b)
    (heq : as.flatMap encode = bs.flatMap encode) : as = bs := by
  induction as generalizing bs with
  | nil =>
    cases bs with
    | nil => rfl
    | cons b bs => simp [hne b (hb b List.mem_cons_self)] at heq
  | cons a as ih =>
    cases bs with
    | nil => simp [hne a (ha a List.mem_cons_self)] at heq
    | cons b bs =>
      rw [List.flatMap_cons, List.flatMap_cons] at heq
      obtain ⟨rfl, hrest⟩ := h (ha a List.mem_cons_self) (hb b List.mem_cons_self) heq
      rw [ih (fun c hc => ha c (List.mem_cons_of_mem a hc))
        (fun c hc => hb c (List.mem_cons_of_mem a hc)) hrest]

/-- As many values on both sides tell where the values end. -/
theorem Delimited.flatMap_append_inj (h : Delimited encode P) {as bs : List α}
    (ha : ∀ a ∈ as, P a) (hb : ∀ b ∈ bs, P b) (hlen : as.length = bs.length) {r s : List γ}
    (heq : as.flatMap encode ++ r = bs.flatMap encode ++ s) : as = bs ∧ r = s := by
  induction as generalizing bs with
  | nil =>
    obtain rfl := List.eq_nil_of_length_eq_zero hlen.symm
    exact ⟨rfl, heq⟩
  | cons a as ih =>
    obtain ⟨b, bs, rfl⟩ := List.exists_cons_of_length_eq_add_one hlen.symm
    rw [List.flatMap_cons, List.flatMap_cons, List.append_assoc, List.append_assoc] at heq
    obtain ⟨rfl, hrest⟩ := h (ha a List.mem_cons_self) (hb b List.mem_cons_self) heq
    obtain ⟨rfl, hrs⟩ := ih (fun c hc => ha c (List.mem_cons_of_mem a hc))
      (fun c hc => hb c (List.mem_cons_of_mem a hc)) (by simpa using hlen) hrest
    exact ⟨rfl, hrs⟩

/-- Where values are written one behind the other, the first of some kind is told by what is written,
whatever is behind it. -/
theorem Delimited.first_inj (h : Delimited encode P) {K : α → Prop} {as bs : List α} {a b : α}
    {r s : List γ} (has : ∀ x ∈ as, P x ∧ ¬ K x) (hbs : ∀ x ∈ bs, P x ∧ ¬ K x) (ha : P a ∧ K a)
    (hb : P b ∧ K b)
    (heq : as.flatMap encode ++ (encode a ++ r) = bs.flatMap encode ++ (encode b ++ s)) : a = b := by
  induction as generalizing bs with
  | nil =>
    cases bs with
    | nil => exact (h ha.1 hb.1 heq).1
    | cons y bs =>
      rw [List.flatMap_cons, List.append_assoc] at heq
      have hy := hbs y List.mem_cons_self
      exact absurd ((h ha.1 hy.1 heq).1 ▸ ha.2) hy.2
  | cons x as ih =>
    have hx := has x List.mem_cons_self
    rw [List.flatMap_cons, List.append_assoc] at heq
    cases bs with
    | nil => exact absurd ((h hx.1 hb.1 heq).1 ▸ hb.2) hx.2
    | cons y bs =>
      rw [List.flatMap_cons, List.append_assoc] at heq
      obtain ⟨-, hrest⟩ := h hx.1 (hbs y List.mem_cons_self).1 heq
      exact ih (fun z hz => has z (List.mem_cons_of_mem x hz))
        (fun z hz => hbs z (List.mem_cons_of_mem y hz)) hrest

end Delimited

/-! ### Words -/

namespace Spirv

theorem bytesOfWord_injective : Function.Injective bytesOfWord := by
  intro v w h
  simp only [bytesOfWord, List.cons.injEq, ← UInt8.toNat_inj, UInt32.toNat_toUInt8,
    UInt32.toNat_shiftRight, UInt32.toNat_ofNat, Nat.shiftRight_eq_div_pow, and_true] at h
  obtain ⟨h0, h1, h2, h3⟩ := h
  have hv := v.toNat_lt
  have hw := w.toNat_lt
  simp only [Nat.reduceMod, Nat.reducePow] at *
  exact UInt32.toNat_inj.1 (by omega)

theorem delimited_bytesOfWord : Delimited bytesOfWord fun _ => True :=
  Delimited.of_length (n := 4) (fun _ _ => rfl) fun _ _ _ _ h => bytesOfWord_injective h

theorem length_bytesOfWords (words : List UInt32) :
    (bytesOfWords words).length = 4 * words.length := by
  induction words with
  | nil => rfl
  | cons w words ih =>
    rw [bytesOfWords, List.flatMap_cons, List.length_append, ← bytesOfWords, ih,
      List.length_cons]
    simp only [bytesOfWord, List.length_cons, List.length_nil]
    omega

theorem bytesOfWords_append_inj {v w : List UInt32} {r s : List UInt8}
    (h : bytesOfWords v ++ r = bytesOfWords w ++ s) (hlen : v.length = w.length) : v = w ∧ r = s :=
  delimited_bytesOfWord.flatMap_append_inj (fun _ _ => trivial) (fun _ _ => trivial) hlen h

theorem bytesOfWords_injective : Function.Injective bytesOfWords := by
  intro v w h
  refine delimited_bytesOfWord.flatMap_inj ?_ (fun _ _ => trivial) (fun _ _ => trivial) h
  exact fun _ _ => List.cons_ne_nil _ _

end Spirv

/-! ### Texts -/

namespace Text

/-- The bytes of a text are the ones it is kept as. -/
theorem toByteArray_bytes (s : String) : (bytes s).toByteArray = s.toByteArray := by
  rw [← String.utf8Encode_toList, List.utf8Encode, bytes]

theorem length_bytes (s : String) : (bytes s).length = byteLength s := by
  rw [byteLength, String.utf8ByteSize, ← toByteArray_bytes, List.size_toByteArray]

theorem bytes_injective : Function.Injective bytes := by
  intro s t h
  apply String.toByteArray_inj.1
  rw [← toByteArray_bytes, ← toByteArray_bytes, h]

end Text

end NodeShader
