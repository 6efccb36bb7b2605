import Mathlib.Data.List.Basic
import Mathlib.Data.List.Nodup
import Mathlib.Data.String.Basic
import NodeShader.Evaluate.Wedge
import NodeShader.Proofs.Bytes
import NodeShader.Proofs.Lists

/-!
# What a wedge hash depends on

`WedgeInputs.hashedBytes_eq_iff` says which inputs a stage is keyed by: exactly those in its domain,
and the arguments as a finite map. Every part of what is hashed tells its value and its end, given
the domain: time, transform and model have a fixed length behind their tags, and each argument is a
key and a value with their lengths in front. The arguments are listed in the order of their keys, so
one map has one list.
-/

namespace NodeShader

/-! ### Single parts -/

/-- A text with its length in front tells where it ends, as long as the length fits in a word. -/
theorem delimited_sizedBytes : Delimited sizedBytes fun s => Text.byteLength s < 2 ^ 32 := by
  intro s t hs ht r q h
  rw [sizedBytes, sizedBytes, List.append_assoc, List.append_assoc] at h
  obtain ⟨hword, h⟩ := Spirv.bytesOfWords_append_inj h rfl
  have hlen : Text.byteLength s = Text.byteLength t := by
    have := congrArg UInt32.toNat (List.singleton_inj.1 hword)
    rwa [Nat.toUInt32_eq, Nat.toUInt32_eq, UInt32.toNat_ofNat_of_lt' hs,
      UInt32.toNat_ofNat_of_lt' ht] at this
  obtain ⟨hst, hrq⟩ := List.append_inj h (by rw [Text.length_bytes, Text.length_bytes, hlen])
  exact ⟨Text.bytes_injective hst, hrq⟩

theorem sizedBytes_ne_nil (s : String) : sizedBytes s ≠ [] := by
  rw [sizedBytes]
  exact List.append_ne_nil_of_left_ne_nil (List.cons_ne_nil _ _) _

theorem Uuid.length_toBytes (u : Uuid) : u.toBytes.length = 16 :=
  Vector.length_toList

theorem Uuid.toBytes_injective : Function.Injective Uuid.toBytes := by
  rintro ⟨v⟩ ⟨w⟩ h
  exact congrArg Uuid.mk (Vector.toList_inj.1 h)

/-- A part that is there on a condition is compared on that condition. -/
theorem tagged_append_eq_iff {α : Type} {c : Bool} {tag x y r s : List α}
    (hlen : x.length = y.length) :
    (if c then tag ++ x else []) ++ r = (if c then tag ++ y else []) ++ s ↔
      (c = true → x = y) ∧ r = s := by
  cases c with
  | false => simp
  | true =>
    rw [if_pos rfl, if_pos rfl, List.append_assoc, List.append_assoc, List.append_right_inj]
    constructor
    · intro h
      obtain ⟨hxy, hrs⟩ := List.append_inj h hlen
      exact ⟨fun _ => hxy, hrs⟩
    · rintro ⟨hxy, rfl⟩
      rw [hxy rfl]

/-! ### Arguments -/

/-- A list with each key once is, up to its order, the map that it stands for. -/
theorem perm_iff_lookup {α β : Type} [BEq α] [LawfulBEq α] {l m : List (α × β)}
    (hl : (l.map Prod.fst).Nodup) (hm : (m.map Prod.fst).Nodup) :
    l.Perm m ↔ ∀ key, l.lookup key = m.lookup key := by
  have hmem : ∀ {l : List (α × β)}, (l.map Prod.fst).Nodup → ∀ a, a ∈ l ↔ l.lookup a.1 = some a.2 :=
    fun hl a => ⟨lookup_eq_some_of_mem hl, lookup_mem⟩
  constructor
  · intro h key
    apply Option.ext
    intro b
    rw [← hmem hl (key, b), ← hmem hm (key, b), h.mem_iff]
  · intro h
    rw [List.perm_ext_iff_of_nodup hl.of_map hm.of_map]
    intro a
    rw [hmem hl, hmem hm, h]

namespace WedgeInputs

/-- The arguments are a finite map, and the length of every key and value fits in a word. -/
structure WellFormed (i : WedgeInputs) : Prop where
  nodup : (i.arguments.map Prod.fst).Nodup
  short : ∀ a ∈ i.arguments, Text.byteLength a.1 < 2 ^ 32 ∧ Text.byteLength a.2 < 2 ^ 32

/-- Two inputs are the same as far as a domain goes. The arguments are compared as maps, whatever
order they are listed in. -/
structure Agree (domain : Domain) (i j : WedgeInputs) : Prop where
  time : domain.includes .timeVarying → i.time = j.time
  transform : domain.includes .transformDependent → i.transform = j.transform
  model : domain.includes .modelDependent → i.model = j.model
  arguments : ∀ key, i.arguments.lookup key = j.arguments.lookup key

theorem sortedArguments_perm (i : WedgeInputs) : i.sortedArguments.Perm i.arguments :=
  List.mergeSort_perm _ _

theorem sortedArguments_sorted (i : WedgeInputs) :
    i.sortedArguments.Pairwise fun a b => a.1 ≤ b.1 := by
  have h : i.sortedArguments.Pairwise fun a b => decide (a.1 ≤ b.1) = true := by
    refine List.pairwise_mergeSort (fun a b c hab hbc => ?_) (fun a b => ?_) i.arguments
    · exact decide_eq_true (le_trans (of_decide_eq_true hab) (of_decide_eq_true hbc))
    · simpa using le_total a.1 b.1
  exact h.imp of_decide_eq_true

variable {i j : WedgeInputs}

theorem WellFormed.sorted_eq_iff (hi : i.WellFormed) (hj : j.WellFormed) :
    i.sortedArguments = j.sortedArguments ↔
      ∀ key, i.arguments.lookup key = j.arguments.lookup key := by
  rw [← perm_iff_lookup hi.nodup hj.nodup]
  constructor
  · intro h
    exact i.sortedArguments_perm.symm.trans (h ▸ j.sortedArguments_perm)
  · intro h
    have hperm := i.sortedArguments_perm.trans (h.trans j.sortedArguments_perm.symm)
    refine hperm.eq_of_pairwise ?_ i.sortedArguments_sorted j.sortedArguments_sorted
    -- keys in both orders are one key, and one key has one value
    rintro ⟨k, v⟩ ⟨k', w⟩ hv hw hle hge
    obtain rfl : k = k' := le_antisymm hle hge
    have hv' := lookup_eq_some_of_mem hi.nodup (i.sortedArguments_perm.mem_iff.1 hv)
    have hw' := lookup_eq_some_of_mem hi.nodup
      ((h.trans j.sortedArguments_perm.symm).mem_iff.2 hw)
    rw [hv'.symm.trans hw' |> Option.some.inj]

theorem WellFormed.arguments_eq_iff (hi : i.WellFormed) (hj : j.WellFormed) :
    (i.sortedArguments.flatMap fun (key, value) => sizedBytes key ++ sizedBytes value) =
        j.sortedArguments.flatMap (fun (key, value) => sizedBytes key ++ sizedBytes value) ↔
      ∀ key, i.arguments.lookup key = j.arguments.lookup key := by
  rw [← hi.sorted_eq_iff hj]
  constructor
  · refine (delimited_sizedBytes.pair delimited_sizedBytes).flatMap_inj ?_ ?_ ?_
    · intro a _
      exact List.append_ne_nil_of_left_ne_nil (sizedBytes_ne_nil a.1) _
    · exact fun a ha => hi.short a (i.sortedArguments_perm.mem_iff.1 ha)
    · exact fun a ha => hj.short a (j.sortedArguments_perm.mem_iff.1 ha)
  · intro h
    rw [h]

/-- What is hashed for a stage is the same for two inputs exactly if they agree on what is relevant
to the stage: on time, transform and model where its domain includes them, and on the arguments. -/
theorem hashedBytes_eq_iff (s : CompiledStage) (hi : i.WellFormed) (hj : j.WellFormed) :
    i.hashedBytes s.hash s.stage.domain = j.hashedBytes s.hash s.stage.domain ↔
      Agree s.stage.domain i j := by
  simp only [hashedBytes, List.append_assoc]
  rw [List.append_right_inj,
    tagged_append_eq_iff (by rw [Spirv.length_bytesOfWords, Spirv.length_bytesOfWords]; rfl),
    tagged_append_eq_iff (by simp only [Spirv.length_bytesOfWords, Vector.length_toList]),
    tagged_append_eq_iff (by rw [Uuid.length_toBytes, Uuid.length_toBytes]),
    hi.arguments_eq_iff hj, Spirv.bytesOfWords_injective.eq_iff,
    Spirv.bytesOfWords_injective.eq_iff, List.singleton_inj, Vector.toList_inj,
    Uuid.toBytes_injective.eq_iff]
  constructor
  · rintro ⟨htime, htransform, hmodel, harguments⟩
    exact ⟨htime, htransform, hmodel, harguments⟩
  · rintro ⟨htime, htransform, hmodel, harguments⟩
    exact ⟨htime, htransform, hmodel, harguments⟩

end WedgeInputs

/-! ### A render stage that only reads the model -/

namespace WedgeExample

def stage : CompiledStage where
  stage := {
    root := 0, id := Uuid.zero, kind := .render, domain := .modelDependent, dependencies := [],
    nodes := [0], bodies := [], field := none }
  shaders := []
  hash := [7]

def early : WedgeInputs where
  time := 0
  transform := Vector.replicate 16 0
  model := Uuid.zero
  arguments := [("size", "2"), ("colour", "red")]

/-- Later, seen from elsewhere, with the same arguments in another order. -/
def late : WedgeInputs where
  time := 1
  transform := Vector.replicate 16 1
  model := Uuid.zero
  arguments := [("colour", "red"), ("size", "2")]

/-- As `early`, but with another size. -/
def larger : WedgeInputs :=
  { early with arguments := [("size", "3"), ("colour", "red")] }

end WedgeExample

open WedgeExample in
/-- `late` is not told from `early`, `larger` is. -/
theorem WedgeInputs.hashedBytes_eq_late :
    early.hashedBytes stage.hash stage.stage.domain =
        late.hashedBytes stage.hash stage.stage.domain ∧
      early.hashedBytes stage.hash stage.stage.domain ≠
        larger.hashedBytes stage.hash stage.stage.domain := by
  have hearly : early.WellFormed := ⟨by decide, by decide⟩
  have hlate : late.WellFormed := ⟨by decide, by decide⟩
  have hlarger : larger.WellFormed := ⟨by decide, by decide⟩
  constructor
  · rw [hashedBytes_eq_iff stage hearly hlate]
    exact ⟨by decide, by decide, by decide,
      (perm_iff_lookup hearly.nodup hlate.nodup).1 (List.Perm.swap _ _ _)⟩
  · rw [Ne, hashedBytes_eq_iff stage hearly hlarger]
    intro h
    exact absurd (h.arguments "size") (by decide)

end NodeShader
