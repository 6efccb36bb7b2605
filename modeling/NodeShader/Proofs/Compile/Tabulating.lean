import NodeShader.Proofs.Compile.Accepting

/-!
# The tables of a body

The tables of a body are read from its instructions at module scope.  Names, annotations and variables
are the marks of the draft (`ModuleBuilder.marks`), so what the tables hold of them hangs on the marks
alone, whatever types and constants there are besides.

* `Draft.Coded.filterMap_globals`: what is read of a mark at module scope is read from the marks.
* `Draft.Coded.stands`: **the variables of a body stand for its resources**, in order, and each is
  annotated with where its resource is found.
-/

namespace NodeShader

open Spirv

/-! ### Lists under keys -/

section Keys

variable {α β γ κ : Type} {R : α → β → Prop} {S : α → γ → Prop} {as : List α}

/-- Where keys are told apart, an element has one partner. -/
theorem zip_unique {bs : List β} {f : α → κ} (hlen : as.length ≤ bs.length) (hn : (as.map f).Nodup)
    {x y : α × β} (hx : x ∈ as.zip bs) (hy : y ∈ as.zip bs) (h : f x.1 = f y.1) : x = y := by
  have hmap : (as.zip bs).map (f ∘ Prod.fst) = as.map f := by
    rw [← List.map_map, List.map_fst_zip hlen]
  exact List.inj_on_of_nodup_map (hmap ▸ hn) hx hy h

/-- What is read of related lists, one thing of each, is related. -/
theorem forall₂_filterMap_flatten {ls : List (List β)} {f : β → Option γ}
    (h : List.Forall₂ (fun a l => ∃ c, l.filterMap f = [c] ∧ S a c) as ls) :
    List.Forall₂ S as (ls.flatten.filterMap f) := by
  induction h with
  | nil => exact .nil
  | cons hl _ ih =>
    obtain ⟨c, hc, hS⟩ := hl
    rw [List.flatten_cons, List.filterMap_append, hc]
    exact .cons hS ih

end Keys

/-! ### Marks -/

namespace Spirv

/-- The instructions that are marks, and the sections they stand in. -/
def markSections : List (Opcode × Section) :=
  [(.debugName, .debug), (.memberName, .debug), (.decorate, .annotations),
    (.memberDecorate, .annotations), (.variableDecl, .types)]

variable {e s : Section} {i : Instruction} {op : Opcode}

theorem ModuleBuilder.isMark_of_mem (h : (i.opcode, e) ∈ markSections) : isMark (e, i) = true := by
  simp only [markSections, List.mem_cons, List.not_mem_nil, or_false, Prod.mk.injEq] at h
  rcases h with ⟨-, rfl⟩ | ⟨-, rfl⟩ | ⟨-, rfl⟩ | ⟨-, rfl⟩ | ⟨hop, rfl⟩
  · rfl
  · rfl
  · rfl
  · rfl
  · simp [isMark, hop]

theorem ModuleBuilder.ne_functions_of_isMark {x : Section × Instruction} (h : isMark x = true) :
    x.1 ≠ .functions := by
  intro hx
  rw [isMark, hx] at h
  cases h

/-- A mark stands in its section. -/
theorem Form.section_eq [NameLimit] {D A : List Instruction} {R : List UInt32} (h : Form D A R s i)
    (hm : (i.opcode, e) ∈ markSections) : s = e := by
  simp only [markSections, List.mem_cons, List.not_mem_nil, or_false, Prod.mk.injEq] at hm
  rcases hm with ⟨hop, rfl⟩ | ⟨hop, rfl⟩ | ⟨hop, rfl⟩ | ⟨hop, rfl⟩ | ⟨hop, rfl⟩
  all_goals cases h <;> first | rfl | cases hop

end Spirv

namespace Metal

variable {i : Instruction}

theorem opcode_of_annotation {e : (UInt32 × UInt32) × List UInt32} (h : annotation? i = some e) :
    i.opcode = .decorate := by
  by_contra hne
  rw [annotation?, if_neg hne] at h
  cases h

theorem opcode_of_variable {v : Variable} (h : declaredVariable? i = some v) :
    i.opcode = .variableDecl := by
  by_contra hne
  rw [declaredVariable?, if_neg hne] at h
  cases h

theorem opcode_of_name {e : UInt32 × List UInt8} (h : declaredName? i = some e) :
    i.opcode = .debugName := by
  by_contra hne
  rw [declaredName?, if_neg hne] at h
  cases h

theorem opcode_of_member {e : (UInt32 × UInt32) × List UInt8} (h : declaredMember? i = some e) :
    i.opcode = .memberName := by
  by_contra hne
  rw [declaredMember?, if_neg hne] at h
  cases h

theorem opcode_of_memberAnnotation {e : (UInt32 × UInt32 × UInt32) × List UInt32}
    (h : memberAnnotation? i = some e) : i.opcode = .memberDecorate := by
  by_contra hne
  rw [memberAnnotation?, if_neg hne] at h
  cases h

/-- The annotation of an instruction tells it. -/
theorem annotation_eq {x dec : UInt32} {ps : List UInt32} (h : annotation? i = some ((x, dec), ps)) :
    i = ⟨.decorate, x :: dec :: ps⟩ := by
  obtain ⟨op, ops⟩ := i
  unfold annotation? at h
  split at h
  · rename_i hop
    split at h
    · rename_i hops
      cases hop
      cases hops
      cases h
      rfl
    · cases h
  · cases h

end Metal

namespace Draft

open Metal

variable [NameLimit] {d : Draft} {modes : List (List UInt32)} {t : Tables}

/-- **What is read of a mark** at module scope is read from the marks. -/
theorem Coded.filterMap_globals {β : Type} {f : Instruction → Option β} {op : Opcode} {e : Section}
    (h : d.Coded) (hop : (op, e) ∈ markSections) (hf : ∀ i b, f i = some b → i.opcode = op)
    (modes : List (List UInt32)) : (d.withEntry modes).builder.globals.filterMap f =
      (d.builder.marks.map (·.2)).filterMap f := by
  have hnone : ∀ i : Instruction, i.opcode ≠ op → f i = none := by
    intro i hi
    cases hfi : f i with
    | none => rfl
    | some b => exact absurd (hf i b hfi) hi
  have hsection : e ∈ Section.layout.dropLast ∧ e ≠ .entryPoints ∧ e ≠ .executionModes ∧
      e ≠ .functions ∧ op ≠ .entryPoint ∧ op ≠ .executionMode := by
    revert hop
    have hall : ∀ x ∈ markSections, x.2 ∈ Section.layout.dropLast ∧ x.2 ≠ .entryPoints ∧
        x.2 ≠ .executionModes ∧ x.2 ≠ .functions ∧ x.1 ≠ .entryPoint ∧ x.1 ≠ .executionMode := by
      decide
    exact hall (op, e)
  obtain ⟨hlayout, hentry, hmodes, hfun, hop₁, hop₂⟩ := hsection
  -- only one section has such instructions
  have hother : ∀ s ∈ Section.layout.dropLast, s ≠ e →
      ((d.withEntry modes).builder.sectionOf s).filterMap f = [] := by
    intro s hs hne
    rw [List.filterMap_eq_nil_iff]
    intro i hi
    refine hnone i fun hi' => ?_
    rw [withEntry_sectionOf, List.mem_append, List.mem_append] at hi
    rcases hi with hi | hi | hi
    · exact hne ((h.form hi fun hs' => absurd (hs' ▸ hs) (by decide)).section_eq (hi' ▸ hop))
    · split at hi
      · rw [List.mem_singleton.1 hi] at hi'
        exact hop₁ hi'.symm
      · cases hi
    · split at hi
      · obtain ⟨ps, -, rfl⟩ := List.mem_map.1 hi
        exact hop₂ hi'.symm
      · cases hi
  rw [ModuleBuilder.globals, List.filterMap_flatMap, flatMap_eq_of_mem (by decide) hlayout hother,
    withEntry_sectionOf_of_ne d modes hentry hmodes, ModuleBuilder.sectionOf, ModuleBuilder.marks,
    List.filterMap_map, List.filterMap_map, List.filterMap_filter, List.filterMap_filter]
  refine List.filterMap_congr fun x hx => ?_
  by_cases hxop : x.2.opcode = op
  · have hmark : x.1 = e → ModuleBuilder.isMark x = true := by
      rintro rfl
      exact ModuleBuilder.isMark_of_mem (hxop ▸ hop)
    have hsame : ModuleBuilder.isMark x = true → x.1 = e := fun hm =>
      (h.form (ModuleBuilder.mem_sectionOf.2 hx)
        (ModuleBuilder.ne_functions_of_isMark hm)).section_eq (hxop ▸ hop)
    by_cases hxe : x.1 = e
    · rw [if_pos (beq_iff_eq.2 hxe), if_pos (hmark hxe)]
    · rw [if_neg (by simpa using hxe), if_neg fun hm => hxe (hsame hm)]
  · simp [hnone x.2 hxop]

/-! ### Variables -/

/-- **A variable that stands for a resource**: it has the identifier of the resource, holds what that
asks for, and is annotated with where it is found and with no other place. -/
structure Stands (D : List Instruction) (t : Tables) (r : Resource) (v : Variable) : Prop where
  id : v.id = r.variable_
  holding : ∃ ty, TypeAt D v.pointer (.pointer v.storage ty) ∧ r.Holding v.storage ty
  placing : ∃ decs, r.Placing decs ∧ ∀ dec, [Decoration.descriptorSet, Decoration.binding,
    Decoration.location, Decoration.builtIn].contains dec = true → t.decoration? v.id dec = decs.lookup dec

omit [NameLimit] in
/-- The annotations of a resource are told apart by what they say. -/
theorem nodup_of_placing {r : Resource} {decs : List (UInt32 × List UInt32)} (h : r.Placing decs) :
    (decs.map (·.1)).Nodup := by
  cases h with
  | bound =>
    show [Decoration.descriptorSet, Decoration.binding].Nodup
    decide
  | location => exact List.nodup_singleton _
  | builtIn => exact List.nodup_singleton _

omit [NameLimit] in
/-- The annotations of one variable. -/
theorem mem_placingsOf {k v storage x dec : UInt32} {ps : List UInt32}
    {decs : List (UInt32 × List UInt32)} :
    ⟨.decorate, x :: dec :: ps⟩ ∈ Drafting.placingsOf k v storage decs ↔ x = v ∧ (dec, ps) ∈ decs := by
  rw [Drafting.placingsOf, List.mem_cons, List.mem_map]
  constructor
  · rintro (h | ⟨⟨dec', ps'⟩, he, h⟩)
    · cases h
    · cases h
      exact ⟨rfl, he⟩
  · rintro ⟨rfl, he⟩
    exact .inr ⟨(dec, ps), he, rfl⟩

/-- Annotations with a place are those that were catalogued. -/
theorem Coded.mem_decorations (h : d.Coded) (hold : t.Hold (d.withEntry modes).builder.globals)
    {x dec : UInt32} {ps : List UInt32} (hdec : [Decoration.descriptorSet, Decoration.binding,
      Decoration.location, Decoration.builtIn].contains dec = true) :
    ((x, dec), ps) ∈ t.decorations ↔ ⟨.decorate, x :: dec :: ps⟩ ∈ d.builder.placings := by
  rw [hold.decorations, List.mem_reverse,
    h.filterMap_globals (e := .annotations) (by decide) (fun _ _ => opcode_of_annotation),
    List.mem_filterMap, ModuleBuilder.placings, List.mem_filter]
  constructor
  · rintro ⟨i, hi, hdecl⟩
    rw [annotation_eq hdecl] at hi
    exact ⟨hi, hdec⟩
  · exact fun hi => ⟨_, hi.1, rfl⟩

/-- The variables of a body are those that were catalogued. -/
theorem Coded.globals_eq (h : d.Coded) (hold : t.Hold (d.withEntry modes).builder.globals) :
    t.globals = d.builder.placings.filterMap declaredVariable? := by
  rw [hold.globals, h.filterMap_globals (e := .types) (by decide) (fun _ _ => opcode_of_variable),
    ModuleBuilder.placings, List.filterMap_filter]
  refine List.filterMap_congr fun i _ => ?_
  cases hi : declaredVariable? i with
  | none => rw [ite_self]
  | some v =>
    rw [if_pos]
    simp [ModuleBuilder.isPlacing, opcode_of_variable hi]

/-- **The variables of a body stand for its resources**, in order. -/
theorem Coded.stands (h : d.Coded) (hold : t.Hold (d.withEntry modes).builder.globals)
    (hdistinct : (d.resources.map (·.variable_)).Nodup) :
    List.Forall₂ (Stands d.decls t) d.resources t.globals := by
  obtain ⟨ls, hls, hall⟩ := h.registered.catalogued.placings
  have hlen := hall.length_eq
  have hcatalogued : ∀ r l, (r, l) ∈ d.resources.zip ls → d.Catalogues r l := fun _ _ he =>
    (List.forall₂_iff_zip.1 hall).2 he
  rw [h.globals_eq hold, hls]
  refine forall₂_filterMap_flatten (List.forall₂_iff_zip.2 ⟨hlen, fun {r l} hrl => ?_⟩)
  obtain ⟨k, storage, ty, decs, hk, hholding, hplacing, rfl⟩ := hcatalogued _ _ hrl
  refine ⟨⟨r.variable_, k, storage⟩, ?_, rfl, ⟨ty, hk, hholding⟩, decs, hplacing, fun dec hdec => ?_⟩
  · have hnone : (decs.map fun e => (⟨.decorate, r.variable_ :: e.1 :: e.2⟩ : Instruction)).filterMap
        declaredVariable? = [] := by
      rw [List.filterMap_eq_nil_iff]
      intro i hi
      obtain ⟨e, -, rfl⟩ := List.mem_map.1 hi
      rfl
    exact congrArg (_ :: ·) hnone
  -- the annotations of the variable are those of its own resource
  have hmem : ∀ ps, ((r.variable_, dec), ps) ∈ t.decorations ↔ (dec, ps) ∈ decs := by
    intro ps
    rw [h.mem_decorations hold hdec, hls, List.mem_flatten]
    constructor
    · rintro ⟨l', hl', hi⟩
      obtain ⟨⟨r', l'⟩, hzip, rfl⟩ := List.mem_map.1
        ((List.map_snd_zip hlen.ge).symm ▸ hl' : l' ∈ (d.resources.zip ls).map Prod.snd)
      obtain ⟨k', storage', ty', decs', -, -, -, heq⟩ := hcatalogued _ _ hzip
      have hx := (mem_placingsOf.1 (heq ▸ hi)).1
      cases zip_unique hlen.le hdistinct hrl hzip hx
      exact (mem_placingsOf.1 hi).2
    · exact fun he => ⟨_, (List.of_mem_zip hrl).2, mem_placingsOf.2 ⟨rfl, he⟩⟩
  show t.decorations.lookup (r.variable_, dec) = decs.lookup dec
  cases hl : t.decorations.lookup (r.variable_, dec) with
  | some ps => exact (lookup_eq_some_of_mem (nodup_of_placing hplacing) ((hmem ps).1 (lookup_mem hl))).symm
  | none =>
    rw [List.lookup_eq_none_iff] at hl
    refine (List.lookup_eq_none_iff.2 ?_).symm
    rintro ⟨dec', ps⟩ he
    rw [bne_iff_ne]
    rintro rfl
    exact absurd (hl _ ((hmem ps).2 he)) (by simp)

end Draft

end NodeShader
