import NodeShader.Proofs.Bytes
import NodeShader.Proofs.Compile.CrossCompiling
import NodeShader.Proofs.Compile.Domains
import NodeShader.Proofs.Stage.Bodies

/-!
# What a stage hash depends on

A stage is hashed with its kind, its bodies and the hashes of the stages it samples, one behind the
other.  Neither the number of bodies nor the number of hashes is written.  Still all of it can be read
back: the kind tells how many bodies there are (`CompiledStage.Framed`), each body has its length in
front, and what is left are hashes of 32 bytes each.

* `hashedBytes_framed_iff`: framed stages are hashed alike only if they have the same kind, bodies and
  hashes.
* `Graph.Built.compile_hashes`: the stages of a compilation are framed, and each is hashed with the
  hashes of the stages it samples.
* `Graph.Built.compile_hash`: **stages with the same hash have the same code**, and so have the stages
  they need, unless two messages of these stages collide.
-/

namespace NodeShader

open Spirv

/-! ### Digests -/

theorem Digest.Sha256.length_digest (message : List UInt8) : (digest message).length = 32 := by
  rw [digest, List.length_flatMap]
  rfl

/-! ### Reading a message back -/

/-- A body without what it was made from: its model of execution and its words. -/
def Body.code (b : Body) : ExecutionModel × List UInt32 := (b.model, b.words)

/-- The models of execution of the bodies of a stage, by its kind. -/
def StageKind.models : StageKind → List ExecutionModel
  | .none => []
  | .render => [.vertex, .fragment]
  | .compute => [.compute]

/-- What is hashed for the code of a body. -/
def encodeCode (code : ExecutionModel × List UInt32) : List UInt8 :=
  bytesOfWords (code.1.code :: code.2.length.toUInt32 :: code.2)

theorem StageKind.code_injective : Function.Injective StageKind.code := by
  intro a b h
  cases a <;> cases b <;> first | rfl | exact absurd h (by decide)

/-- The models that bodies have are told apart by their codes. -/
theorem code_inj_of_mem {k k' : StageKind} {m m' : ExecutionModel} (hm : m ∈ k.models)
    (hm' : m' ∈ k'.models) (h : m.code = m'.code) : m = m' := by
  have hmodels : ∀ (k : StageKind), ∀ m ∈ k.models, m ∈ [ExecutionModel.vertex, .fragment, .compute] := by
    intro k
    cases k <;> decide
  have hinj : ∀ m ∈ [ExecutionModel.vertex, .fragment, .compute],
      ∀ m' ∈ [ExecutionModel.vertex, .fragment, .compute], m.code = m'.code → m = m' := by decide
  exact hinj m (hmodels k m hm) m' (hmodels k' m' hm') h

/-- A body tells where it ends, as long as its length fits in a word. -/
theorem delimited_encodeCode : Delimited encodeCode fun code =>
    (∃ k : StageKind, code.1 ∈ k.models) ∧ code.2.length < 2 ^ 32 := by
  rintro ⟨m, v⟩ ⟨m', w⟩ ⟨⟨k, hm⟩, hv⟩ ⟨⟨k', hm'⟩, hw⟩ r s h
  have hsplit : ∀ code : ExecutionModel × List UInt32, encodeCode code =
      bytesOfWords [code.1.code, code.2.length.toUInt32] ++ bytesOfWords code.2 :=
    fun code => @List.flatMap_append _ _ [code.1.code, code.2.length.toUInt32] _ _
  rw [hsplit, hsplit, List.append_assoc, List.append_assoc] at h
  obtain ⟨hhead, hrest⟩ := bytesOfWords_append_inj h rfl
  obtain ⟨hmodel, hword⟩ := List.cons.inj hhead
  dsimp only at hm hm' hv hw hmodel hword hrest
  have hlen : v.length = w.length := by
    have := congrArg UInt32.toNat (List.singleton_inj.1 hword)
    rwa [Nat.toUInt32_eq, Nat.toUInt32_eq, UInt32.toNat_ofNat_of_lt' hv,
      UInt32.toNat_ofNat_of_lt' hw] at this
  obtain ⟨rfl, hrs⟩ := bytesOfWords_append_inj hrest hlen
  exact ⟨by rw [code_inj_of_mem hm hm' hmodel], hrs⟩

theorem flatMap_hashedBytes (bodies : List Body) :
    bodies.flatMap Body.hashedBytes = (bodies.map Body.code).flatMap encodeCode :=
  (List.flatMap_map Body.code encodeCode bodies).symm

/-- Nothing of a body but its code is hashed. -/
theorem hashedBytes_congr {k k' : StageKind} {bodies bodies' : List Body}
    {hashes hashes' : List (List UInt8)} (hk : k = k')
    (hb : bodies.map Body.code = bodies'.map Body.code) (hh : hashes = hashes') :
    hashedBytes k bodies hashes = hashedBytes k' bodies' hashes' := by
  rw [hashedBytes, hashedBytes, flatMap_hashedBytes, flatMap_hashedBytes, hk, hb, hh]

/-- A stage whose kind tells the models of its bodies, and whose hashes have the length of a digest. -/
structure Framed (kind : StageKind) (bodies : List Body) (hashes : List (List UInt8)) : Prop where
  models : bodies.map (·.model) = kind.models
  hashes : ∀ h ∈ hashes, h.length = 32

/-- **Stages are hashed alike** only if they have the same kind, the same code and the same hashes of
the stages they sample. -/
theorem hashedBytes_framed_iff {k k' : StageKind} {bodies bodies' : List Body}
    {hashes hashes' : List (List UInt8)} (hf : Framed k bodies hashes)
    (hf' : Framed k' bodies' hashes') (hshort : ∀ b ∈ bodies, b.words.length < 2 ^ 32)
    (hshort' : ∀ b ∈ bodies', b.words.length < 2 ^ 32) :
    hashedBytes k bodies hashes = hashedBytes k' bodies' hashes' ↔
      k = k' ∧ bodies.map Body.code = bodies'.map Body.code ∧ hashes = hashes' := by
  have hcode : ∀ {k : StageKind} {bodies : List Body}, bodies.map (·.model) = k.models →
      (∀ b ∈ bodies, b.words.length < 2 ^ 32) → ∀ code ∈ bodies.map Body.code,
      (∃ k : StageKind, code.1 ∈ k.models) ∧ code.2.length < 2 ^ 32 := by
    intro k bodies hmodels hshort code hcode
    obtain ⟨b, hb, rfl⟩ := List.mem_map.1 hcode
    exact ⟨⟨k, hmodels ▸ List.mem_map.2 ⟨b, hb, rfl⟩⟩, hshort b hb⟩
  constructor
  · intro h
    rw [hashedBytes, hashedBytes, List.append_assoc, List.append_assoc] at h
    obtain ⟨hkind, hrest⟩ := bytesOfWords_append_inj h rfl
    obtain rfl := StageKind.code_injective (List.singleton_inj.1 hkind)
    rw [flatMap_hashedBytes, flatMap_hashedBytes] at hrest
    have hcount : (bodies.map Body.code).length = (bodies'.map Body.code).length := by
      have := congrArg List.length (hf.models.trans hf'.models.symm)
      simpa using this
    obtain ⟨hbodies, hflat⟩ := delimited_encodeCode.flatMap_append_inj (hcode hf.models hshort)
      (hcode hf'.models hshort') hcount hrest
    have hdigest : Delimited (id : List UInt8 → List UInt8) fun x => x.length = 32 :=
      .of_length (fun _ hx => hx) fun _ _ _ _ h => h
    refine ⟨rfl, hbodies, hdigest.flatMap_inj ?_ hf.hashes hf'.hashes ?_⟩
    · rintro x hx rfl
      cases hx
    · rwa [List.flatMap_id, List.flatMap_id]
  · rintro ⟨hk, hbodies, hhashes⟩
    exact hashedBytes_congr hk hbodies hhashes

/-! ### Stages of compilations -/

/-- The words of every body of a stage can be counted in a word. -/
def CompiledStage.Short (s : CompiledStage) : Prop :=
  ∀ b ∈ s.stage.bodies, b.words.length < 2 ^ 32

namespace Compilation

/-- The stages that a stage samples, in order. -/
def sampled (c : Compilation) (s : CompiledStage) : List CompiledStage :=
  s.stage.dependencies.filterMap c.stageOf?

/-- The hashes of the stages that a stage samples. -/
def dependencyHashes (c : Compilation) (s : CompiledStage) : List (List UInt8) :=
  (c.sampled s).map (·.hash)

/-- The message whose digest is the hash of a stage. -/
def message (c : Compilation) (s : CompiledStage) : List UInt8 :=
  hashedBytes s.stage.kind s.stage.bodies (c.dependencyHashes s)

/-- **No collisions** between what is hashed for the stages that two stages need. -/
def CollisionFree (c c' : Compilation) (s t : CompiledStage) : Prop :=
  ∀ u v, c.Needs s u → c'.Needs t v →
    Digest.Sha256.digest (c.message u) = Digest.Sha256.digest (c'.message v) →
    c.message u = c'.message v

/-- **Two stages have the same code throughout**: the same kind and bodies, and so have, one by one,
the stages they sample. -/
inductive SameCode (c c' : Compilation) : CompiledStage → CompiledStage → Prop
  | stage {s t : CompiledStage} : s.stage.kind = t.stage.kind →
      s.stage.bodies.map Body.code = t.stage.bodies.map Body.code →
      List.Forall₂ (SameCode c c') (c.sampled s) (c'.sampled t) → SameCode c c' s t

/-- **How a stage is hashed**: with the hashes of the stages it samples, each of which is found. -/
structure Hashes (c : Compilation) (s : CompiledStage) : Prop where
  sampled : (c.sampled s).map (·.stage.root) = s.stage.dependencies
  framed : Framed s.stage.kind s.stage.bodies (c.dependencyHashes s)
  hash : s.hash = Digest.Sha256.digest (c.message s)

end Compilation

variable {g g' : Graph} {p : StagePlan} {c c' : Compilation} {s t : CompiledStage}

/-- A stage is what is generated, with another domain, and is hashed with the stages it samples, among
those built before it. -/
theorem StagePlan.build_parts {built : List CompiledStage} (h : p.build built = .ok s) :
    (∃ u domain, p.generate = .ok u ∧ s.stage = { u with domain }) ∧
      s.hash = stageHash s.stage.kind s.stage.bodies
        ((s.stage.dependencies.filterMap fun d => built.find? (·.stage.root == d)).map (·.hash)) := by
  rw [build] at h
  obtain ⟨u, hu, h⟩ := bind_eq_ok.1 h
  obtain ⟨shaders, -, h⟩ := bind_eq_ok.1 h
  cases h
  exact ⟨⟨u, _, hu, rfl⟩, rfl⟩

/-- The kind of a stage tells the models of its bodies. -/
theorem StagePlan.models_of_generate {u : Stage} (hp : p.Planned) (h : p.generate = .ok u) :
    u.bodies.map (·.model) = u.kind.models := by
  obtain ⟨N, hnames⟩ := p.graph.exists_nameLimit
  obtain ⟨n, d', hn, hd', hbodies, hu⟩ := generate_eq_ok.1 h
  obtain ⟨root, model, mode, params, d, _, _, _, _, _, _, hroot, he, -, hmodel, -, rfl⟩ :=
    draftBody_spec .trivial hp hnames hd'
  obtain rfl : n = root := Option.some.inj (hn.symm.trans hroot)
  have hbody : (d.declareEntry mode params).body.model = model := hmodel
  have hkind : u.kind = n.kind.stage := by rw [hu]
  rw [hkind]
  rcases Node.stage_of_execution he with ⟨hstage, rfl⟩ | ⟨hstage, rfl⟩
  · rw [hstage] at hbodies ⊢
    generalize u.bodies = bodies at hbodies
    cases hbodies with
    | render hv =>
      have hvertex : vertexBody.toOption.map (·.model) = some .vertex := by decide +kernel
      rw [hv] at hvertex
      rw [List.map_cons, List.map_singleton, hbody]
      exact congrArg (fun m => [m, .fragment]) (Option.some.inj hvertex)
    | other hne => exact absurd rfl hne
  · rw [hstage] at hbodies ⊢
    generalize u.bodies = bodies at hbodies
    cases hbodies with
    | other _ => exact congrArg (fun m => [m]) hbody

/-- A stage of a compilation is built from a plan and the stages before it. -/
theorem Graph.compile_split {id : NodeId} {options : Options} {A B : List CompiledStage}
    (h : g.compile id options = .ok c) (hs : c.stages = A ++ s :: B) :
    (g.resolveTypes options.maxSearchNodes).1 = .ok c.types ∧
      ∃ p, g.plan c.types options.foldConstants s.stage.root = .ok p ∧ p.build A = .ok s := by
  rw [compile] at h
  obtain ⟨plan, hplan, h⟩ := bind_eq_ok.1 h
  obtain ⟨stages, hstages, h⟩ := bind_eq_ok.1 h
  cases h
  obtain ⟨-, roots, -, htypes, hplans⟩ := planCompilation_spec hplan
  obtain ⟨p, hp, hbuild⟩ := buildStages_split hstages hs
  obtain ⟨r, -, hr⟩ := exists_of_mem_right hplans hp
  have hroot : p.root = r := by
    rw [Graph.plan] at hr
    obtain ⟨_, -, hr⟩ := bind_eq_ok.1 hr
    obtain ⟨_, -, hr⟩ := bind_eq_ok.1 hr
    cases hr
    rfl
  rw [(StagePlan.build_spec hbuild).root, hroot]
  exact ⟨htypes, p, hr, hbuild⟩

/-- **How the stages of a compilation are hashed.** -/
theorem Graph.Built.compile_hashes (hg : g.Built) {id : NodeId} {options : Options}
    (h : g.compile id options = .ok c) : ∀ s ∈ c.stages, c.Hashes s := by
  intro s hs
  obtain ⟨hordered, -⟩ := hg.compile_ordered h
  obtain ⟨A, B, hAB⟩ := List.append_of_mem hs
  -- what a stage samples was built before it
  have hfound : ∀ d ∈ s.stage.dependencies, ∃ t, A.find? (·.stage.root == d) = some t ∧
      c.stageOf? d = some t := by
    intro d hd
    obtain ⟨t, ht, rfl⟩ := hordered.earlier A s B hAB d hd
    have hnodup := hordered.nodup
    rw [hAB, List.map_append] at hnodup
    refine ⟨t, find?_key hnodup.of_append_left ht, find?_key hordered.nodup ?_⟩
    rw [hAB]
    exact List.mem_append_left _ ht
  have hsampled : (s.stage.dependencies.filterMap fun d => A.find? (·.stage.root == d)) =
      c.sampled s := by
    refine List.filterMap_congr fun d hd => ?_
    obtain ⟨t, hA, hc⟩ := hfound d hd
    rw [hA, hc]
  have hlength : ∀ t ∈ c.stages, t.hash.length = 32 := by
    intro t ht
    obtain ⟨A, B, hAB⟩ := List.append_of_mem ht
    obtain ⟨-, p, -, hbuild⟩ := compile_split h hAB
    rw [(StagePlan.build_parts hbuild).2, stageHash, Digest.Sha256.length_digest]
  obtain ⟨htypes, p, hr, hbuild⟩ := compile_split h hAB
  obtain ⟨⟨u, domain, hu, hstage⟩, hhash⟩ := StagePlan.build_parts hbuild
  rw [hsampled] at hhash
  refine ⟨?_, ⟨?_, ?_⟩, hhash⟩
  · rw [Compilation.sampled, List.map_filterMap]
    refine (List.filterMap_congr fun d hd => ?_).trans List.filterMap_some
    obtain ⟨t, -, hc⟩ := hfound d hd
    have hroot : t.stage.root = d := by simpa using List.find?_some hc
    rw [hc, Option.map_some, hroot]
  · rw [show s.stage.kind = u.kind by rw [hstage], show s.stage.bodies = u.bodies by rw [hstage]]
    exact StagePlan.models_of_generate (Graph.plan_planned hg.consistent htypes hr).1 hu
  · intro x hx
    obtain ⟨t, ht, rfl⟩ := List.mem_map.1 hx
    obtain ⟨d, -, hd⟩ := List.mem_filterMap.1 ht
    exact hlength t (List.mem_of_find?_eq_some hd)

/-! ### Stages with the same hash -/

variable {id id' : NodeId} {options options' : Options}

/-- **Messages of stages are the same** only if the stages have the same kind, the same code and the
same hashes of the stages they sample. -/
theorem Compilation.Hashes.message_eq_iff (hs : c.Hashes s) (ht : c'.Hashes t) (hshort : s.Short)
    (hshort' : t.Short) : c.message s = c'.message t ↔ s.stage.kind = t.stage.kind ∧
      s.stage.bodies.map Body.code = t.stage.bodies.map Body.code ∧
      c.dependencyHashes s = c'.dependencyHashes t :=
  hashedBytes_framed_iff hs.framed ht.framed hshort hshort'

theorem Compilation.dependencyHashes_eq_iff : c.dependencyHashes s = c'.dependencyHashes t ↔
    List.Forall₂ (fun u v => u.hash = v.hash) (c.sampled s) (c'.sampled t) := by
  rw [dependencyHashes, dependencyHashes, ← List.forall₂_eq_eq_eq, List.forall₂_map_left_iff,
    List.forall₂_map_right_iff]

/-- What a stage samples is needed, and comes before it. -/
theorem Compilation.Ordered.of_sampled (hordered : c.Ordered) {A B : List CompiledStage}
    (hAB : c.stages = A ++ s :: B) {u : CompiledStage} (hu : u ∈ c.sampled s) :
    c.Samples s u ∧ ∃ A₁ A₂, A = A₁ ++ u :: A₂ ∧ c.stages = A₁ ++ u :: (A₂ ++ s :: B) := by
  obtain ⟨d, hd, hfound⟩ := List.mem_filterMap.1 hu
  obtain ⟨w, hw, rfl⟩ := hordered.earlier A s B hAB d hd
  have hw' := find?_key hordered.nodup (show w ∈ c.stages by rw [hAB]; exact List.mem_append_left _ hw)
  obtain rfl : u = w := Option.some.inj (hfound.symm.trans hw')
  obtain ⟨A₁, A₂, rfl⟩ := List.append_of_mem hw
  refine ⟨⟨List.mem_of_find?_eq_some hfound, hd⟩, A₁, A₂, rfl, ?_⟩
  rw [hAB, List.append_assoc, List.cons_append]

/-- **Stages with the same hash have the same code** as far as they sample others: by induction on the
stages that were built before. -/
theorem Compilation.sameCode_iff (hordered : c.Ordered) (hordered' : c'.Ordered)
    (hc : ∀ s ∈ c.stages, c.Hashes s) (hc' : ∀ t ∈ c'.stages, c'.Hashes t) (hs : s ∈ c.stages)
    (ht : t ∈ c'.stages) (hshort : ∀ u, c.Needs s u → u.Short)
    (hshort' : ∀ v, c'.Needs t v → v.Short) (hfree : c.CollisionFree c' s t) :
    s.hash = t.hash ↔ SameCode c c' s t := by
  obtain ⟨A, B, hAB⟩ := List.append_of_mem hs
  induction hn : A.length using Nat.strong_induction_on generalizing s t A B with
  | _ n ih =>
  subst hn
  obtain ⟨A', B', hAB'⟩ := List.append_of_mem ht
  have hbelow : ∀ u ∈ c.sampled s, ∀ v ∈ c'.sampled t, (u.hash = v.hash ↔ SameCode c c' u v) := by
    intro u hu v hv
    obtain ⟨hsu, A₁, A₂, rfl, hstages⟩ := hordered.of_sampled hAB hu
    obtain ⟨htv, -⟩ := hordered'.of_sampled hAB' hv
    exact ih A₁.length (by simp) hsu.1 htv.1 (fun w hw => hshort w (.head hsu hw))
      (fun w hw => hshort' w (.head htv hw))
      (fun w x hw hx => hfree w x (.head hsu hw) (.head htv hx)) A₁ _ hstages rfl
  constructor
  · intro h
    have hmessage : c.message s = c'.message t := by
      refine hfree s t .refl .refl ?_
      rw [← (hc s hs).hash, ← (hc' t ht).hash, h]
    obtain ⟨hkind, hbodies, hhashes⟩ :=
      ((hc s hs).message_eq_iff (hc' t ht) (hshort s .refl) (hshort' t .refl)).1 hmessage
    refine .stage hkind hbodies (forall₂_imp_mem (dependencyHashes_eq_iff.1 hhashes) ?_)
    exact fun u hu v hv huv => (hbelow u hu v hv).1 huv
  · rintro ⟨hkind, hbodies, hsampled⟩
    have hhashes := dependencyHashes_eq_iff.2
      (forall₂_imp_mem hsampled fun u hu v hv huv => (hbelow u hu v hv).2 huv)
    rw [(hc s hs).hash, (hc' t ht).hash]
    exact congrArg _ (hashedBytes_congr hkind hbodies hhashes)

/-- **What a stage hash depends on.**  The hash of a stage of a compilation is the digest of a message
made with the hashes of the stages it samples, all of which are stages of that compilation.  For any
two stages, of compilations of one graph or of two, the messages are the same exactly if the kinds,
the bodies and the hashes of the sampled stages are; and if no two messages of the stages they need
collide, they have the same hash exactly if they and all the stages they need have the same code. -/
theorem Graph.Built.compile_hash (hg : g.Built) (hg' : g'.Built) (h : g.compile id options = .ok c)
    (h' : g'.compile id' options' = .ok c') (hs : s ∈ c.stages) (ht : t ∈ c'.stages)
    (hshort : s.Short) (hshort' : t.Short) :
    c.Hashes s ∧ c'.Hashes t ∧
      (c.message s = c'.message t ↔ s.stage.kind = t.stage.kind ∧
        s.stage.bodies.map Body.code = t.stage.bodies.map Body.code ∧
        c.dependencyHashes s = c'.dependencyHashes t) ∧
      ((∀ u, c.Needs s u → u.Short) → (∀ v, c'.Needs t v → v.Short) → c.CollisionFree c' s t →
        (s.hash = t.hash ↔ Compilation.SameCode c c' s t)) := by
  have hc := hg.compile_hashes h
  have hc' := hg'.compile_hashes h'
  refine ⟨hc s hs, hc' t ht, (hc s hs).message_eq_iff (hc' t ht) hshort hshort', ?_⟩
  exact Compilation.sameCode_iff (hg.compile_ordered h).1 (hg'.compile_ordered h').1 hc hc' hs ht

/-! ### A field of another size -/

namespace FieldExample

/-- The same graph, with a field of 64 texels a side. -/
def small : Graph :=
  .grown [.node (Uuid.ofBytes [1]) "" .time .none,
    .node (Uuid.ofBytes [2]) "" .computeField (.field 2 64),
    .node (Uuid.ofBytes [3]) "" .sample .none, .node (Uuid.ofBytes [4]) "" .previewOutput .none,
    .edge 0 1, .edge 2 3, .edge 5 6]

def smallStage (root : Nat) (order : List Nat) : StagePlan :=
  ⟨small.stageLabels root, types, order, ⟨order, []⟩, false⟩

/-- What planning comes out as. -/
theorem small_evaluated : small.validate.toOption = some () ∧
    (small.outputPosition (Uuid.ofBytes [4])).toOption = some 3 ∧
    small.typesWithin? 20 = some types ∧ small.outlineWithin? 20 1 = some ([], [0, 1]) ∧
    small.outlineWithin? 20 3 = some ([1], [1, 2, 3]) ∧
    (∀ i ∈ [0, 1], (small.stageLabels 1).isBranching i = false) ∧
    ∀ i ∈ [1, 2, 3], (small.stageLabels 3).isBranching i = false := by
  decide +kernel

theorem small_consistent : small.Consistent := (Graph.Built.grown _).consistent

theorem small_resolved : (small.resolveTypes 0).1 = .ok types := by
  obtain ⟨-, -, hwithin, -⟩ := small_evaluated
  exact Graph.resolveTypes_of_within hwithin

theorem plan_small : small.plan types false 1 = .ok (smallStage 1 [0, 1]) := by
  obtain ⟨-, -, -, hfield, -, hplain, -⟩ := small_evaluated
  exact Graph.plan_plain small_consistent (Graph.outline_of_within small_consistent hfield).2.2 hplain
    types false

theorem small_planned : ∃ stats, small.planCompilation (Uuid.ofBytes [4]) ⟨false, 0⟩ =
    .ok ⟨3, types, stats, [smallStage 1 [0, 1], smallStage 3 [1, 2, 3]]⟩ := by
  obtain ⟨hvalid, hroot, -, hfield, hshown, -, hplain⟩ := small_evaluated
  have hplan := Graph.plan_plain small_consistent
    (Graph.outline_of_within small_consistent hshown).2.2 hplain types false
  exact Graph.planned_of_parts ⟨false, 0⟩ (toOption_eq_some.1 hvalid) (toOption_eq_some.1 hroot)
    (Graph.stageRoots_pair small_consistent hshown hfield) small_resolved
    (.cons plan_small (.cons hplan .nil))

theorem small_compiles :
    ∃ c, small.compile (Uuid.ofBytes [4]) ⟨false, 0⟩ = .ok c ∧ c.roots = [1, 3] := by
  have hnames : small.ShortNames := by decide +kernel
  have hcounted : ∀ p ∈ [smallStage 1 [0, 1], smallStage 3 [1, 2, 3]], p.Countable := by
    decide +kernel
  obtain ⟨stats, hplan⟩ := small_planned
  exact (Graph.Built.grown _).compile_isOk hnames hplan hcounted

/-- The stage of a field of some size, but for its domain and bodies. -/
structure FillsField (s : Stage) (resolution : Int) : Prop where
  kind : s.kind = .compute
  dependencies : s.dependencies = []
  field : s.field = some ⟨2, resolution, [8, 8, 1]⟩
  short : ∀ b ∈ s.bodies, b.words.length < 4294967296

/-- The field is generated alike in both sizes. -/
theorem generated : ∃ u v, (stage 1 [0, 1]).generate = .ok u ∧
    (smallStage 1 [0, 1]).generate = .ok v ∧ u.bodies.map Body.code = v.bodies.map Body.code ∧
    FillsField u 256 ∧ FillsField v 64 := by
  have hboth : ((stage 1 [0, 1]).generate.toOption.bind fun u =>
      (smallStage 1 [0, 1]).generate.toOption.map fun v =>
        decide (u.bodies.map Body.code = v.bodies.map Body.code ∧
          (u.kind = .compute ∧ u.dependencies = [] ∧ u.field = some ⟨2, 256, [8, 8, 1]⟩ ∧
            ∀ b ∈ u.bodies, b.words.length < 4294967296) ∧
          v.kind = .compute ∧ v.dependencies = [] ∧ v.field = some ⟨2, 64, [8, 8, 1]⟩ ∧
            ∀ b ∈ v.bodies, b.words.length < 4294967296)) = some true := by decide +kernel
  obtain ⟨u, hu, hboth⟩ := Option.bind_eq_some_iff.1 hboth
  obtain ⟨v, hv, hboth⟩ := Option.map_eq_some_iff.1 hboth
  obtain ⟨hcode, ⟨hk, hd, hf, hw⟩, hk', hd', hf', hw'⟩ := of_decide_eq_true hboth
  exact ⟨u, v, toOption_eq_some.1 hu, toOption_eq_some.1 hv, hcode, ⟨hk, hd, hf, hw⟩, hk', hd', hf', hw'⟩

/-- Both graphs compile, and have stages for their fields with the same code. -/
theorem compiled : ∃ c c' s t, graph.compile (Uuid.ofBytes [4]) ⟨false, 0⟩ = .ok c ∧
    small.compile (Uuid.ofBytes [4]) ⟨false, 0⟩ = .ok c' ∧ s ∈ c.stages ∧ t ∈ c'.stages ∧
    s.stage.bodies.map Body.code = t.stage.bodies.map Body.code ∧
    FillsField s.stage 256 ∧ FillsField t.stage 64 := by
  obtain ⟨u, v, hu, hv, hcode, hfield, hfield'⟩ := generated
  have hof : ∀ {g : Graph} {c : Compilation} {p : StagePlan} {u : Stage} {resolution : Int},
      g.compile (Uuid.ofBytes [4]) ⟨false, 0⟩ = .ok c → c.roots = [1, 3] →
      (g.resolveTypes 0).1 = .ok types → g.plan types false 1 = .ok p → p.generate = .ok u →
      FillsField u resolution → ∃ s ∈ c.stages, s.stage.bodies = u.bodies ∧
        FillsField s.stage resolution := by
    intro g c p u resolution hc hroots hresolved hplan hu hfield
    obtain ⟨s, hs, hroot⟩ := List.mem_map.1 (show 1 ∈ c.roots by rw [hroots]; decide)
    obtain ⟨A, B, hAB⟩ := List.append_of_mem hs
    obtain ⟨htypes, q, hq, hbuild⟩ := Graph.compile_split hc hAB
    rw [← Except.ok.inj (hresolved.symm.trans htypes), hroot, hplan] at hq
    obtain rfl := Except.ok.inj hq
    obtain ⟨⟨w, domain, hw, hstage⟩, -⟩ := StagePlan.build_parts hbuild
    obtain rfl := Except.ok.inj (hu.symm.trans hw)
    refine ⟨s, hs, by rw [hstage], ?_⟩
    rw [hstage]
    exact ⟨hfield.kind, hfield.dependencies, hfield.field, hfield.short⟩
  obtain ⟨c, hc, hroots⟩ := compiles
  obtain ⟨c', hc', hroots'⟩ := small_compiles
  obtain ⟨s, hs, hsu, hs'⟩ := hof hc hroots resolved plan_field hu hfield
  obtain ⟨t, ht, htv, ht'⟩ := hof hc' hroots' small_resolved plan_small hv hfield'
  exact ⟨c, c', s, t, hc, hc', hs, ht, by rw [hsu, htv, hcode], hs', ht'⟩

/-- A stage that samples nothing needs no other. -/
theorem FillsField.needs_eq {resolution : Int} (h : FillsField s.stage resolution) {u : CompiledStage}
    (hu : c.Needs s u) : u = s := by
  rcases Relation.ReflTransGen.cases_head hu with rfl | ⟨t, ⟨-, ht⟩, -⟩
  · rfl
  · rw [h.dependencies] at ht
    cases ht

theorem message_eq {r r' : Int} (hcode : s.stage.bodies.map Body.code = t.stage.bodies.map Body.code)
    (hs : FillsField s.stage r) (ht : FillsField t.stage r') : c.message s = c'.message t := by
  refine hashedBytes_congr (hs.kind.trans ht.kind.symm) hcode ?_
  rw [Compilation.dependencyHashes, Compilation.dependencyHashes, Compilation.sampled,
    Compilation.sampled, hs.dependencies, ht.dependencies]
  rfl

end FieldExample

/-- The fields of two graphs have the same message, and so the same hash and the same code. -/
theorem Graph.compile_hash_field : ∃ c c' s t,
    FieldExample.graph.compile (Uuid.ofBytes [4]) ⟨false, 0⟩ = .ok c ∧
      FieldExample.small.compile (Uuid.ofBytes [4]) ⟨false, 0⟩ = .ok c' ∧ s ∈ c.stages ∧
      t ∈ c'.stages ∧ c.message s = c'.message t ∧ s.hash = t.hash ∧
      Compilation.SameCode c c' s t := by
  obtain ⟨c, c', s, t, hc, hc', hs, ht, hcode, hfield, hfield'⟩ := FieldExample.compiled
  have hmessage : c.message s = c'.message t := FieldExample.message_eq hcode hfield hfield'
  have hneeds : ∀ u, c.Needs s u → u = s := fun u => hfield.needs_eq
  have hneeds' : ∀ v, c'.Needs t v → v = t := fun v => hfield'.needs_eq
  obtain ⟨hhash, hhash', -, hsame⟩ := Graph.Built.compile_hash (Built.grown _) (Built.grown _) hc hc'
    hs ht hfield.short hfield'.short
  have heq : s.hash = t.hash := by rw [hhash.hash, hhash'.hash, hmessage]
  refine ⟨c, c', s, t, hc, hc', hs, ht, hmessage, heq, (hsame ?_ ?_ ?_).1 heq⟩
  · intro u hu
    rw [hneeds u hu]
    exact hfield.short
  · intro v hv
    rw [hneeds' v hv]
    exact hfield'.short
  · intro u v hu hv _
    rw [hneeds u hu, hneeds' v hv, hmessage]

end NodeShader
