import NodeShader.Proofs.Compile.CrossCompiling
import NodeShader.Proofs.Compile.Faithful
import NodeShader.Proofs.Compile.Tabulating

/-!
# Resources and bindings agree

A shader joins two tables by the identifiers of variables: the resources that were declared while its
body was drafted, and the bindings that were read back from the words of the body.  Both list the
variables of the module in order, and agree on whatever both say of a variable (`Shader.Joined`).

* `Body.Made.joined`: **the tables of a shader agree**.
* `Draft.Holds.countP_sampled`: a texture, or a field that is sampled, has one image and one sampler.
* `Graph.Built.compile_joined`: all of this holds of all shaders of a compilation.
-/

namespace NodeShader

open Spirv

/-! ### What agrees -/

/-- **A resource and its binding agree** on the variable, on the class and the dimensions of what it
holds, and on where it is found: the set and slot of what is bound, and otherwise the location, which is
-1 for what is built in. -/
structure ShaderBinding.Agrees (b : ShaderBinding) : Prop where
  id : b.reflected.variable_ = b.resource.variable_
  kind : b.reflected.kind = b.resource.kind
  dim : (b.reflected.dim : Int) = b.resource.dim
  place : b.resource.kind.isBound = true →
    b.reflected.set = b.resource.set ∧ b.reflected.slot = b.resource.slot
  location : b.resource.kind.isBound = false → b.reflected.index = b.resource.location ∧
    (b.resource.location = -1 ↔ b.resource.builtIn ≠ "")

/-- **The two tables of a shader are joined**: there is a binding for each resource and each variable of
the body, in order, the words are read back as these bindings, which agree with the resources, and bound
resources have one slot after the other of set 0. -/
structure Shader.Joined (s : Shader) : Prop where
  resources : s.bindings.map (·.resource) = s.body.resources
  declared : ∃ m, Module.parse s.body.words = .ok m ∧ s.bindings.map (·.resource.variable_) =
    (m.instructions.filter (·.opcode == .variableDecl)).map (·.result)
  distinct : (s.bindings.map (·.resource.variable_)).Nodup
  reflected : ∃ program, Metal.Program.ofWords s.body.words = .ok program ∧
    s.bindings.map (·.reflected) = program.bindings
  agrees : ∀ b ∈ s.bindings, b.Agrees
  slots : ∃ n, (s.body.resources.filter (·.kind.isBound)).map (fun r => (r.set, r.slot)) =
    (List.range n).map fun k => (0, k)

/-! ### One variable -/

theorem Metal.dimOf_ofCount {dim : Int} (h : 1 ≤ dim ∧ dim ≤ 3) : (dimOf (Dim.ofCount dim) : Int) = dim := by
  have hcases : dim = 1 ∨ dim = 2 ∨ dim = 3 := by omega
  rcases hcases with rfl | rfl | rfl
  all_goals rfl

/-- What a resource holds has its class and its dimensions. -/
theorem Resource.Holding.shape {r : Resource} {storage : UInt32} {ty : Ty} (h : r.Holding storage ty) :
    Metal.classOf storage ty = r.kind ∧ (Metal.extentOf ty : Int) = r.dim := by
  cases h with
  | buffer hk hd => exact ⟨hk.symm, hd.symm⟩
  | sampled hk hd => exact ⟨hk.symm, Metal.dimOf_ofCount hd⟩
  | written hk hd => exact ⟨hk.symm, Metal.dimOf_ofCount hd⟩
  | sampler hk hd => exact ⟨hk.symm, hd.symm⟩
  | input hk hd hs =>
    rw [Metal.extentOf_of_component hs]
    exact ⟨hk.symm, hd.symm⟩
  | output hk hd hs =>
    rw [Metal.extentOf_of_component hs]
    exact ⟨hk.symm, hd.symm⟩

/-- **What is read back of a variable agrees** with the resource that the variable stands for. -/
theorem Draft.Stands.agrees {D : List Instruction} {t : Metal.Tables} {r : Resource} {v : Metal.Variable}
    {b : Metal.Binding} (h : Draft.Stands D t r v) (hb : Metal.Reflects D t v b)
    (hD : (D.filterMap (·.result?)).Nodup) (hslot : r.kind.isBound = true → r.slot < 4294967296) :
    ShaderBinding.Agrees ⟨r, b⟩ := by
  obtain ⟨ty, hp, hholding⟩ := h.holding
  obtain ⟨ty', hp', hkind, hdim⟩ := hb.shape
  cases hp.unique hD hp'
  rw [hholding.shape.1] at hkind
  obtain ⟨decs, hplacing, hdecs⟩ := h.placing
  refine ⟨hb.id.trans h.id, hkind, ?_, fun hbound => ?_, fun hfree => ?_⟩
  · show ((b.dim : Nat) : Int) = r.dim
    rw [hdim, hholding.shape.2]
  · obtain ⟨i, j, hi, hj, hset, hslot'⟩ := hb.place (hkind ▸ hbound)
    rw [hdecs _ rfl] at hi hj
    cases hplacing with
    | bound _ h0 _ =>
      cases hi
      cases hj
      refine ⟨hset.trans h0.symm, hslot'.trans ?_⟩
      exact ModuleBuilder.toNat_toUInt32 (hslot hbound)
    | location hfree => rw [hfree] at hbound; cases hbound
    | builtIn hfree => rw [hfree] at hbound; cases hbound
  · have hindex : b.index = t.locationOf v.id := hb.location (hkind ▸ hfree)
    rw [Metal.Tables.locationOf, hdecs _ rfl] at hindex
    cases hplacing with
    | bound hbound => rw [hbound] at hfree; cases hfree
    | @location n _ hn hlt hnone =>
      refine ⟨hindex.trans ?_, ?_⟩
      · show ((n.toUInt32.toNat : Nat) : Int) = r.location
        rw [ModuleBuilder.toNat_toUInt32 hlt, hn]
      · show r.location = -1 ↔ r.builtIn ≠ ""
        rw [hn, hnone]
        simp
    | builtIn _ hloc hsome =>
      exact ⟨hindex.trans hloc.symm, fun _ => hsome, fun _ => hloc⟩

/-! ### Bodies -/

/-- Relations one after the other. -/
theorem forall₂_trans {α β γ : Type} {R : α → β → Prop} {S : β → γ → Prop} {as : List α} {bs : List β}
    {cs : List γ} (h : List.Forall₂ R as bs) (h' : List.Forall₂ S bs cs) :
    List.Forall₂ (fun a c => ∃ b, R a b ∧ S b c) as cs := by
  induction h generalizing cs with
  | nil =>
    cases h'
    exact .nil
  | cons hab _ ih =>
    cases h' with
    | cons hbc hrest => exact .cons ⟨_, hab, hbc⟩ (ih hrest)

/-- Declarations of variables, read in two ways. -/
theorem results_of_variables {l : List Instruction} (h : ∀ i ∈ l, i.opcode = .variableDecl →
    ∃ t x s, i = ⟨.variableDecl, [t, x, s]⟩) :
    (l.filter (·.opcode == .variableDecl)).map (·.result) =
      (l.filterMap Metal.declaredVariable?).map (·.id) := by
  induction l with
  | nil => rfl
  | cons i l ih =>
    rw [List.forall_mem_cons] at h
    by_cases hop : i.opcode = .variableDecl
    · obtain ⟨t, x, s, rfl⟩ := h.1 hop
      exact congrArg (x :: ·) (ih h.2)
    · have hnone : Metal.declaredVariable? i = none := if_neg hop
      rw [List.filter_cons_of_neg (by simpa using hop), List.filterMap_cons_none hnone, ih h.2]

/-- Code declares no variables. -/
theorem Spirv.Runs.no_variables {I : Interpretation} {s : Surroundings I} {Γ Γ' : Context I} {c : Code}
    {o : List (Output I.Value)} (h : Runs s Γ c Γ' o) : ∀ i ∈ c.instructions, i.opcode ≠ .variableDecl := by
  induction h with
  | done => exact fun _ hi => absurd hi List.not_mem_nil
  | plain hs _ ih =>
    refine List.forall_mem_cons.2 ⟨fun hop => ?_, ih⟩
    exact Metal.Tables.step_inner hs (hop ▸ by decide)
  | select _ _ _ _ _ _ _ _ ihy ihn ihr =>
    intro i hi
    simp only [Code.instructions, List.mem_append, List.mem_cons, List.not_mem_nil, or_false] at hi
    rcases hi with (((((rfl | rfl | rfl) | hi) | rfl | rfl) | hi) | rfl | rfl) | rfl | hi
    · exact fun h => by cases h
    · exact fun h => by cases h
    · exact fun h => by cases h
    · exact ihy i hi
    · exact fun h => by cases h
    · exact fun h => by cases h
    · exact ihn i hi
    · exact fun h => by cases h
    · exact fun h => by cases h
    · exact fun h => by cases h
    · exact ihr i hi

namespace Draft

variable [NameLimit] {d : Draft} {modes : List (List UInt32)} {t : Metal.Tables}

/-- The variables of the module are those that its tables list. -/
theorem Coded.variables_eq (h : d.Coded) (hold : t.Hold (d.withEntry modes).builder.globals) :
    ((d.withEntry modes).builder.instructions.filter (·.opcode == .variableDecl)).map (·.result) =
      t.globals.map (·.id) := by
  obtain ⟨I, void, type, entry, c, Γ, o, hruns, heq⟩ := h.instructions_eq modes
  have hnone : (functionOf d.main void type entry c).filter (·.opcode == .variableDecl) = [] := by
    rw [List.filter_eq_nil_iff]
    intro i hi
    rw [beq_iff_eq]
    simp only [functionOf, List.mem_append, List.mem_cons, List.not_mem_nil, or_false] at hi
    rcases hi with ((rfl | rfl) | hi) | rfl | rfl
    · exact fun h => by cases h
    · exact fun h => by cases h
    · exact hruns.no_variables i hi
    · exact fun h => by cases h
    · exact fun h => by cases h
  rw [heq, List.filter_append, hnone, List.append_nil, hold.globals]
  refine results_of_variables fun i hi hop => ?_
  rcases h.mem_globals hi with ⟨e, he, hi⟩ | rfl | ⟨ps, -, rfl⟩
  · cases h.form hi he
    case variableDecl => exact ⟨_, _, _, rfl⟩
    all_goals cases hop
  · cases hop
  · cases hop

/-- The resources of a body are told apart by their variables. -/
theorem Coded.nodup_variables (h : d.Coded) (hfew : d.builder.nextId ≤ 4294967296) :
    (d.resources.map (·.variable_)).Nodup := by
  have hperm := h.sound.alloc
  rw [List.append_nil] at hperm
  exact (hperm.nodup_iff.2 (ModuleBuilder.idsBelow_nodup hfew)).sublist h.registered.distinct

/-- There are fewer slots than identifiers. -/
theorem Coded.slot_lt (h : d.Coded) {r : Resource} (hr : r ∈ d.resources) (hb : r.kind.isBound = true) :
    r.slot < d.builder.nextId := by
  have hslots := h.registered.catalogued.slots
  have hmem : r.slot ∈ List.range d.nextSlot :=
    hslots ▸ List.mem_map.2 ⟨r, List.mem_filter.2 ⟨hr, hb⟩, rfl⟩
  have hcount : d.nextSlot ≤ d.resources.length := by
    have hlen := congrArg List.length hslots
    rw [List.length_map, List.length_range] at hlen
    exact hlen ▸ List.length_filter_le _ _
  have hresults : d.resources.length ≤ d.builder.results.length := by
    have hle := h.registered.distinct.length_le
    rwa [List.length_map] at hle
  have hids : d.builder.results.length = d.builder.nextId - 1 := by
    have hlen := h.sound.alloc.length_eq
    rwa [List.append_nil, idsBelow, List.length_map, List.length_range'] at hlen
  have := List.mem_range.1 hmem
  omega

end Draft

/-- What the shader of a body is made of. -/
theorem Body.shader_spec {g : Graph} {b : Body} {s : Shader} (h : b.shader g = .ok s) :
    s.body = b ∧ ∃ program, Metal.Program.ofWords b.words = .ok program ∧
      List.Forall₂ (fun r x => x.resource = r ∧ program.binding? r.variable_ = some x.reflected)
        b.resources s.bindings := by
  rw [Body.shader] at h
  obtain ⟨program, hprogram, h⟩ := bind_eq_ok.1 h
  obtain ⟨bindings, hbindings, h⟩ := bind_eq_ok.1 h
  cases h
  refine ⟨rfl, program, mapError_eq_ok.1 hprogram, (mapM_eq_ok.1 hbindings).imp fun r x hx => ?_⟩
  split at hx
  · rename_i heq
    cases hx
    exact ⟨rfl, heq⟩
  · cases hx

/-- There were identifiers enough for a body with a shader. -/
theorem Draft.Coded.few_of_shader {d : Draft} {modes : List (List UInt32)} {g : Graph} {s : Shader}
    (h : @Draft.Coded shortNames d) (hmodes : Modes modes) (hs : (d.withEntry modes).body.shader g = .ok s) :
    d.builder.nextId < 4294967296 := by
  obtain ⟨-, program, hprogram, -⟩ := Body.shader_spec hs
  obtain ⟨m, -, hm, -⟩ := Metal.Program.tables_of_ofWords hprogram
  let _ := shortNames
  exact (h.of_parse (Nat.le_refl _) hmodes hm).2

/-- **The tables of a shader agree.** -/
theorem Body.Made.joined {b : Body} (h : b.Made) {g : Graph} {s : Shader} (hs : b.shader g = .ok s) :
    s.Joined := by
  obtain ⟨d, modes, hd, hmodes, rfl⟩ := h
  let _ := shortNames
  obtain ⟨hbody, program, hprogram, hjoin⟩ := Body.shader_spec hs
  obtain ⟨m, -, hm, -⟩ := Metal.Program.tables_of_ofWords hprogram
  obtain ⟨rfl, hfew⟩ := hd.of_parse (Nat.le_refl _) hmodes hm
  obtain ⟨t, program', names, hold, hok, -, hbs⟩ := hd.program (Nat.le_refl _) hmodes hfew
  rw [hprogram] at hok
  cases hok
  have hdistinct := hd.nodup_variables hfew.le
  have hstands := hd.stands hold hdistinct
  have hglobals : d.resources.map (·.variable_) = t.globals.map (·.id) := by
    rw [← List.forall₂_eq_eq_eq, List.forall₂_map_left_iff, List.forall₂_map_right_iff]
    exact hstands.imp fun _ _ h => h.id.symm
  have hids : program.bindings.map (·.variable_) = d.resources.map (·.variable_) :=
    (Metal.ids_of_reflects hbs).trans hglobals.symm
  have hresources : s.bindings.map (·.resource) = d.resources := by
    rw [← List.forall₂_eq_eq_eq, List.forall₂_map_left_iff]
    exact hjoin.flip.imp fun _ _ h => h.1
  have hreflected : s.bindings.map (·.reflected) = program.bindings := by
    have hfound : d.resources.map (fun r => program.binding? r.variable_) = program.bindings.map some := by
      calc d.resources.map (fun r => program.binding? r.variable_)
          = (d.resources.map (·.variable_)).map program.binding? := by rw [List.map_map]; rfl
        _ = (program.bindings.map (·.variable_)).map program.binding? := by rw [hids]
        _ = program.bindings.map some := by
            rw [List.map_map]
            exact List.map_congr_left fun b hb => find?_key (hids ▸ hdistinct) hb
    have hsome : d.resources.map (fun r => program.binding? r.variable_) =
        (s.bindings.map (·.reflected)).map some := by
      rw [List.map_map, ← List.forall₂_eq_eq_eq, List.forall₂_map_left_iff, List.forall₂_map_right_iff]
      exact hjoin.imp fun _ _ h => h.2
    exact (List.map_injective_iff.2 (Option.some_injective _)) (hsome.symm.trans hfound)
  have hvariables : s.bindings.map (·.resource.variable_) = d.resources.map (·.variable_) := by
    rw [← hresources, List.map_map]
    rfl
  have hagrees : List.Forall₂ (fun r b => (⟨r, b⟩ : ShaderBinding).Agrees) d.resources program.bindings := by
    have hboth := forall₂_trans hstands hbs
    rw [List.forall₂_iff_zip] at hboth ⊢
    refine ⟨hboth.1, fun {r b} hrb => ?_⟩
    obtain ⟨v, hv, hb⟩ := hboth.2 hrb
    exact hv.agrees hb (hd.scope hfew.le modes).nodup_decls fun hbound =>
      (hd.slot_lt (List.of_mem_zip hrb).1 hbound).trans hfew
  refine ⟨hbody ▸ hresources, ⟨_, hbody ▸ hm, ?_⟩, hvariables ▸ hdistinct, ⟨program, hbody ▸ hprogram,
    hreflected⟩, fun b hb => ?_, ?_⟩
  · rw [hvariables, hglobals]
    exact (hd.variables_eq hold).symm
  · have hzip : (b.resource, b.reflected) ∈ d.resources.zip program.bindings := by
      rw [← hresources, ← hreflected, List.zip_map']
      exact List.mem_map.2 ⟨b, hb, rfl⟩
    exact (List.forall₂_iff_zip.1 hagrees).2 hzip
  · refine ⟨d.nextSlot, ?_⟩
    rw [hbody, ← hd.registered.catalogued.slots, List.map_map]
    refine List.map_congr_left fun r hr => ?_
    obtain ⟨hr, hbound⟩ := List.mem_filter.1 hr
    obtain ⟨v, -, hv⟩ := exists_of_mem_left hstands hr
    obtain ⟨decs, hplacing, -⟩ := hv.placing
    cases hplacing with
    | bound _ h0 => exact congrArg (·, r.slot) h0
    | location hfree => rw [hfree] at hbound; cases hbound
    | builtIn hfree => rw [hfree] at hbound; cases hbound

/-! ### What is sampled -/

/-- An element that is the only one with a property is counted once. -/
theorem countP_eq_one {α : Type} [BEq α] [LawfulBEq α] {l : List α} {P : α → Bool} {a : α} (hl : l.Nodup)
    (ha : a ∈ l) (hP : P a = true) (hone : ∀ b ∈ l, P b = true → b = a) : l.countP P = 1 := by
  rw [← List.count_eq_one_of_mem hl ha, List.count]
  refine List.countP_congr fun b hb => ?_
  rw [beq_iff_eq]
  exact ⟨hone b hb, fun h => h ▸ hP⟩

/-- The node at a position stands for something that is sampled: a texture, or the field of another
stage. -/
def StagePlan.Sampled (p : StagePlan) (i : Nat) : Prop :=
  p.graph.nodes[i]?.map (·.kind) = some .texture ∨ p.isSampled i = true

section Held

variable [NameLimit] {I : Interpretation} {p : StagePlan} {d : Draft} {void type entry : UInt32}
  {c : Code} {Γ : Context I} {o : List (Output I.Value)} {i : Nat}

/-- What is sampled has one output, and variables that are remembered there. -/
theorem Draft.Holds.field_of_sampled (h : d.Holds p I void type entry c Γ o) (hp : p.Planned)
    (hi : i ∈ p.order) (hs : p.Sampled i) :
    ∃ n out f, p.graph.nodes[i]? = some n ∧ n.outputs = [out] ∧ (out, f) ∈ d.fields := by
  obtain ⟨n, hn, hserves⟩ := h.serves i hi
  have hfit := hp.typed.fits hp.consistent hn
  have hkind : n.kind = .texture ∨ n.kind = .computeField ∧ i ≠ p.root := by
    rw [StagePlan.Sampled, StagePlan.isSampled, hn, Option.map_some, Bool.and_eq_true, bne_iff_ne,
      beq_iff_eq, Option.some.injEq, Option.some.injEq] at hs
    exact hs.imp id And.symm
  have hout : ∃ out, n.outputs = [out] := by
    rcases hkind with hk | ⟨hk, -⟩
    all_goals
      cases hfit with
      | arithmetic hop => rw [hk] at hop; cases hop
      | texture _ _ _ hout => exact ⟨_, hout⟩
      | computeField _ _ _ hout => exact ⟨_, hout⟩
      | _ hk' => rw [hk] at hk'; cases hk'
  obtain ⟨out, hout⟩ := hout
  have hmem : out ∈ n.outputs := by rw [hout]; exact List.mem_singleton_self _
  rcases hkind with hk | ⟨hk, hroot⟩
  · obtain ⟨f, hf⟩ := hserves.texture hk out hmem
    exact ⟨n, out, f, hn, hout, hf⟩
  · obtain ⟨f, hf⟩ := hserves.boundary hk hroot out hmem
    exact ⟨n, out, f, hn, hout, hf⟩

/-- One of the variables of what is sampled is the only one of its class for the node. -/
theorem Draft.Holds.countP_field (h : d.Holds p I void type entry c Γ o) (hp : p.Planned)
    (hdistinct : (d.resources.map (·.variable_)).Nodup) (hi : i ∈ p.order) (hs : p.Sampled i)
    {k : ResourceClass} (held : FieldVariables → UInt32)
    (hlisted : ∀ out f, d.Samples p out f → ∃ j, p.graph.ownerPosition? out = some j ∧
      ∃ r ∈ d.resources, r.variable_ = held f ∧ r.kind = k ∧ r.node = some j)
    (hfields : ∀ r ∈ d.resources, r.kind = k → ∃ e ∈ d.fields, held e.2 = r.variable_) :
    d.resources.countP (fun r => r.kind == k && r.node == some i) = 1 := by
  obtain ⟨n, out, f, hn, hout, hf⟩ := h.field_of_sampled hp hi hs
  have hsame : ∀ r ∈ d.resources, ∀ r' ∈ d.resources, r.variable_ = r'.variable_ → r = r' :=
    fun r hr r' hr' => List.inj_on_of_nodup_map hdistinct hr hr'
  have howner : ∀ o' ∈ n.outputs, p.graph.ownerPosition? o' = some i := fun o' ho' =>
    hp.consistent.ownerPosition?_of_mem hn (show o' ∈ n.portsOf .output from ho')
  obtain ⟨j, hj, r, hr, hv, hk, hnode⟩ := hlisted out f (h.furnished.fields _ hf)
  rw [howner out (by rw [hout]; exact List.mem_singleton_self _)] at hj
  cases hj
  refine countP_eq_one (List.Nodup.of_map _ hdistinct) hr (by simp [hk, hnode]) fun r' hr' hP => ?_
  rw [Bool.and_eq_true, beq_iff_eq, beq_iff_eq] at hP
  obtain ⟨e, he, hv'⟩ := hfields r' hr' hP.1
  have hsamples := h.furnished.fields e he
  obtain ⟨j', hj', r'', hr'', hv'', -, hnode''⟩ := hlisted e.1 e.2 hsamples
  cases hsame r'' hr'' r' hr' (hv''.trans hv')
  rw [hP.2] at hnode''
  cases hnode''
  -- the node has one output, and nothing else is remembered there
  obtain ⟨j, m, hm, hmem⟩ := hsamples.output
  have hjm := hp.consistent.ownerPosition?_of_mem hm (show e.1 ∈ m.portsOf .output from hmem)
  rw [hj'] at hjm
  cases hjm
  rw [hn] at hm
  cases hm
  rw [hout, List.mem_singleton] at hmem
  have hlookup := lookup_eq_some_of_mem h.counted.fields (show (out, e.2) ∈ d.fields from hmem ▸ he)
  rw [lookup_eq_some_of_mem h.counted.fields hf] at hlookup
  cases hlookup
  exact hsame _ hr' _ hr (hv'.symm.trans hv.symm)

/-- **What is sampled has one image and one sampler**, wherever it is sampled from. -/
theorem Draft.Holds.countP_sampled (h : d.Holds p I void type entry c Γ o) (hp : p.Planned)
    (hdistinct : (d.resources.map (·.variable_)).Nodup) (hi : i ∈ p.order) (hs : p.Sampled i) :
    ∀ k ∈ [ResourceClass.sampledImage, .sampler],
      d.resources.countP (fun r => r.kind == k && r.node == some i) = 1 := by
  simp only [List.forall_mem_cons, List.not_mem_nil, false_implies, implies_true, and_true]
  refine ⟨h.countP_field hp hdistinct hi hs (·.image) ?_ h.counted.images,
    h.countP_field hp hdistinct hi hs (·.sampler) ?_ h.counted.samplers⟩
  · intro out f hf
    obtain ⟨j, image, sampler, hj, hl, hk, hn, -⟩ := hf.listed
    exact ⟨j, hj, image, hl.mem, hl.id, hk, hn⟩
  · intro out f hf
    obtain ⟨j, image, sampler, hj, -, -, -, hl, hk, hn⟩ := hf.listed
    exact ⟨j, hj, sampler, hl.mem, hl.id, hk, hn⟩

end Held

/-! ### Compilations -/

/-- No variable of the vertex body belongs to a node. -/
theorem vertexBody_node {b : Body} (h : vertexBody = .ok b) : ∀ r ∈ b.resources, r.node = none := by
  have hall : (vertexBody.toOption.map fun b => b.resources.all (·.node.isNone)) = some true := by
    decide +kernel
  rw [h] at hall
  intro r hr
  exact Option.isNone_iff_eq_none.1 (List.all_eq_true.1 (Option.some.inj hall) r hr)

/-- What a stage samples has one image and one sampler among the variables of its bodies, if their words
are read back. -/
theorem StagePlan.countP_of_generate {p : StagePlan} {s : Stage} {g : Graph} (hp : p.Planned)
    (hnames : p.graph.ShortNames) (hs : p.generate = .ok s)
    (hread : ∀ b ∈ s.bodies, ∃ x, b.shader g = .ok x) {i : Nat} (hi : i ∈ p.order) (hsampled : p.Sampled i) :
    ∀ k ∈ [ResourceClass.sampledImage, .sampler],
      (s.bodies.flatMap (·.resources)).countP (fun r => r.kind == k && r.node == some i) = 1 := by
  let _ := shortNames
  obtain ⟨d', hd', hbodies⟩ := bodies_of_generate hs
  obtain ⟨root, model, mode, params, d, void, type, entry, c, Γ, o, hroot, he, hd, hmodel, -, rfl⟩ :=
    draftBody_spec .trivial hp hnames hd'
  have hmain : (d.declareEntry mode params).body ∈ s.bodies := by
    rcases hbodies with hb | ⟨v, -, hb⟩ <;> rw [hb] <;> simp
  obtain ⟨x, hx⟩ := hread _ hmain
  have hfew := (hd.coded hp hroot (hmodel ▸ he)).few_of_shader (Node.execution_modes he) hx
  intro k hk
  have hone := hd.countP_sampled hp (hd.nodup_variables hfew.le) hi hsampled k hk
  rcases hbodies with hb | ⟨v, hv, hb⟩
  · rw [hb, List.flatMap_singleton]
    exact hone
  · have hvertex : v.resources.countP (fun r => r.kind == k && r.node == some i) = 0 := by
      rw [List.countP_eq_zero]
      intro r hr
      simp [vertexBody_node hv r hr]
    rw [hb, List.flatMap_cons, List.flatMap_singleton, List.countP_append, hvertex, Nat.zero_add]
    exact hone

/-- **Declared resources and reflection agree** in all shaders of a compilation, and whatever a stage
samples has one image and one sampler in it. -/
theorem Graph.Built.compile_joined {g : Graph} (hg : g.Built) (hnames : g.ShortNames) {id : NodeId}
    {options : Options} {c : Compilation} (h : g.compile id options = .ok c) :
    ∀ s ∈ c.stages, (∀ x ∈ s.shaders, x.Joined) ∧
      ∀ i, i ∈ s.stage.dependencies ∨
          i ∈ s.stage.nodes ∧ g.nodes[i]?.map (·.kind) = some .texture →
        ∀ k ∈ [ResourceClass.sampledImage, .sampler], (s.shaders.flatMap (·.body.resources)).countP
          (fun r => r.kind == k && r.node == some i) = 1 := by
  intro s hs
  obtain ⟨htypes, hplans⟩ := compile_plans h
  obtain ⟨p, hplan, -, hbuilds⟩ := hplans s hs
  obtain ⟨t, ht, hbodies⟩ := hbuilds.bodies
  obtain ⟨hplanned, hlabels, -⟩ := Graph.plan_planned hg.consistent htypes hplan
  have hgraph : p.graph = g := by rw [StagePlan.graph, hlabels]; rfl
  have hshaders := mapM_eq_ok.1 hbuilds.shaders
  refine ⟨fun x hx => ?_, fun i hi k hk => ?_⟩
  · obtain ⟨b, hb, hbx⟩ := exists_of_mem_right hshaders hx
    exact (StagePlan.generate_made hplanned (hgraph ▸ hnames) ht b (hbodies ▸ hb)).joined hbx
  · have hsampled : i ∈ p.order ∧ p.Sampled i := by
      rcases hi with hi | ⟨hi, hkind⟩
      · rw [hbuilds.dependencies, List.mem_filter] at hi
        exact ⟨hi.1, .inr hi.2⟩
      · rw [hbuilds.nodes, StagePlan.nodes, List.mem_filter] at hi
        exact ⟨hi.1, .inl (hgraph ▸ hkind)⟩
    have hflat : s.shaders.flatMap (·.body.resources) = t.bodies.flatMap (·.resources) := by
      have hmap : s.shaders.map (·.body) = s.stage.bodies := by
        rw [← List.forall₂_eq_eq_eq, List.forall₂_map_left_iff]
        exact hshaders.flip.imp fun _ _ hbx => (Body.shader_spec hbx).1
      rw [hbodies, ← hmap, List.flatMap_map]
    rw [hflat]
    refine StagePlan.countP_of_generate (g := p.graph) hplanned (hgraph ▸ hnames) ht (fun b hb => ?_)
      hsampled.1 hsampled.2 k hk
    obtain ⟨x, -, hx⟩ := exists_of_mem_left hshaders (hbodies ▸ hb)
    exact ⟨x, hx⟩

/-- The output that shows a field has one image and one sampler for the field. -/
theorem Graph.compile_joined_field : ∃ (c : Compilation) (s : CompiledStage),
    FieldExample.graph.compile (Uuid.ofBytes [4]) ⟨false, 0⟩ = .ok c ∧ s ∈ c.stages ∧
      s.stage.dependencies = [1] ∧ (∀ x ∈ s.shaders, x.Joined) ∧
      ∀ k ∈ [ResourceClass.sampledImage, .sampler],
        (s.shaders.flatMap (·.body.resources)).countP (fun r => r.kind == k && r.node == some 1) = 1 := by
  obtain ⟨c, hc, hroots⟩ := FieldExample.compiles
  obtain ⟨s, hs, hroot⟩ : ∃ s ∈ c.stages, s.stage.root = 3 :=
    List.mem_map.1 (show 3 ∈ c.roots by rw [hroots]; decide)
  have hdependencies : s.stage.dependencies = [1] := by
    obtain ⟨htypes, hplans⟩ := compile_plans hc
    rw [FieldExample.resolved] at htypes
    obtain ⟨p, hp, -, hbuilds⟩ := hplans s hs
    rw [← Except.ok.inj htypes, hroot, FieldExample.plan_shown] at hp
    rw [hbuilds.dependencies, ← Except.ok.inj hp]
    decide +kernel
  obtain ⟨hjoined, hone⟩ := Graph.Built.compile_joined (Built.grown _) FieldExample.names_short hc s hs
  refine ⟨c, s, hc, hs, hdependencies, hjoined, hone 1 (.inl ?_)⟩
  rw [hdependencies]
  exact List.mem_singleton_self _

end NodeShader
