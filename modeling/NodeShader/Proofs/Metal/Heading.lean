import NodeShader.Proofs.Metal.Indexing
import NodeShader.Proofs.Metal.Structuring

/-!
# The head of an entry point

The resources of a shader are the parameters of its entry point.  Lines that are written are never changed
(`Keeps`), so the head of the entry point stands in the source of every module that has a program.

* `keeps_instruction`, `keeps_blocksFrom`: code is written after the lines there are, whatever the module is.
* `Program.ofWords_indexed`: **the parameters of each argument table** stand in the order of their indices.
-/

namespace NodeShader.Metal

open Spirv

/-! ### Lines are kept -/

/-- Lines that are written are the first of those written later, at the same depth in the end, and blocks
that are written stay noted. -/
structure Emission.Begins (e e' : Emission) : Prop where
  lines : e.lines.toList <+: e'.lines.toList
  indent : e'.indent = e.indent
  visited : e.visited ⊆ e'.visited

theorem Emission.Begins.refl (e : Emission) : e.Begins e := ⟨List.prefix_rfl, rfl, List.Subset.refl _⟩

theorem Emission.Begins.trans (e e' e'' : Emission) (h : e.Begins e') (h' : e'.Begins e'') : e.Begins e'' :=
  ⟨h.lines.trans h'.lines, h'.indent.trans h.indent, List.Subset.trans h.visited h'.visited⟩

section Keeping

variable {α β : Type}

/-- **A step that keeps the lines there are.** -/
abbrev Keeps (x : Emit α) : Prop := Every Emission.Begins x

theorem keeps_pure (a : α) : Keeps (pure a) := every_pure .refl a

theorem keeps_bind {x : Emit α} {f : α → Emit β} (hx : Keeps x) (hf : ∀ a, Keeps (f a)) : Keeps (x >>= f) :=
  every_bind .trans hx hf

theorem keeps_lift_bind {x : Result α} {f : α → Emit β} (hf : ∀ a, Keeps (f a)) :
    Keeps (liftM x >>= f) := every_lift_bind fun a _ => hf a

theorem keeps_lift (x : Result α) : Keeps (liftM x) := by
  intro e a e' h
  rw [(gives_lift.1 h).2]
  exact .refl e

theorem keeps_mapM {f : α → Emit β} (hf : ∀ a, Keeps (f a)) (l : List α) : Keeps (l.mapM f) :=
  every_mapM .refl .trans fun a _ => hf a

theorem keeps_forM {f : α → Emit PUnit} (hf : ∀ a, Keeps (f a)) (l : List α) : Keeps (l.forM f) :=
  every_forM .refl .trans fun a _ => hf a

/-- A note of something else. -/
theorem keeps_modify {f : Emission → Emission}
    (hf : ∀ e, (f e).lines = e.lines ∧ (f e).indent = e.indent ∧ (f e).visited = e.visited) :
    Keeps (modify f : Emit PUnit) := by
  intro e u e' h
  rw [gives_modify.1 h]
  obtain ⟨hlines, hindent, hvisited⟩ := hf e
  exact ⟨hlines ▸ List.prefix_rfl, hindent, hvisited ▸ List.Subset.refl _⟩

theorem keeps_line (s : String) : Keeps (Emit.line s) := by
  intro e u e' h
  rw [gives_line h]
  exact ⟨⟨_, Array.toList_push.symm⟩, rfl, List.Subset.refl _⟩

theorem keeps_naming (step : Naming α) : Keeps (Emit.naming step) := by
  intro e a e' h
  obtain ⟨names, rfl, -⟩ := gives_naming h
  exact ⟨List.prefix_rfl, rfl, List.Subset.refl _⟩

theorem keeps_setExpr (x : UInt32) (s : String) : Keeps (Emit.setExpr x s) := keeps_modify fun _ => ⟨rfl, rfl, rfl⟩

variable (t : Tables) (i : Instruction)

/-! ### Instructions -/

theorem keeps_value (x : UInt32) : Keeps (Emit.value t x) := by
  refine every_get_bind fun e => ?_
  split
  · exact keeps_pure _
  · exact every_ite (keeps_naming _) (keeps_lift _)

theorem keeps_valueType (x : UInt32) : Keeps (Emit.valueType t x) := by
  refine every_get_bind fun e => ?_
  split
  · exact keeps_pure _
  · split
    · exact keeps_pure _
    · exact keeps_lift _

theorem keeps_declare (s : String) : Keeps (Emit.declare t i s) :=
  keeps_bind (keeps_naming _) fun _ => keeps_bind (keeps_line _) fun _ => keeps_bind (keeps_setExpr _ _) fun _ =>
    keeps_modify fun _ => ⟨rfl, rfl, rfl⟩

theorem keeps_values (xs : List UInt32) : Keeps (Emit.values t xs) :=
  keeps_bind (keeps_mapM (keeps_value t) xs) fun _ => keeps_pure _

/-- A component is reached step by step, by induction on the indices. -/
theorem keeps_extract (x : UInt32) (s : String) (type : UInt32) (ks : List UInt32) :
    Keeps (Emit.extract t x s type ks) := by
  induction ks generalizing s type with
  | nil => exact keeps_pure s
  | cons k ks ih =>
    refine keeps_lift_bind fun info => ?_
    split
    · exact keeps_lift_bind fun _ => ih _ _
    · exact ih _ _
    · exact keeps_lift_bind fun _ => ih _ _
    · exact keeps_lift _

theorem keeps_follow (x : UInt32) (place : Emit.Place) (ks : List UInt32) : Keeps (Emit.follow t x place ks) := by
  induction ks generalizing place with
  | nil => exact keeps_pure place
  | cons k ks ih =>
    refine keeps_lift_bind fun info => ?_
    split
    · refine keeps_lift_bind fun member => ?_
      dsimp only
      split
      · exact keeps_lift _
      · exact keeps_lift_bind fun _ => ih _
    · exact keeps_bind (keeps_value t k) fun _ => ih _
    · exact keeps_bind (keeps_value t k) fun _ => ih _
    · exact keeps_lift _

theorem keeps_accessChain : Keeps (Emit.accessChain t i) := by
  refine keeps_lift_bind fun base => keeps_bind (keeps_value t base) fun s => every_get_bind fun e => ?_
  split
  · exact keeps_lift _
  · exact keeps_bind (keeps_follow t _ _ _) fun _ => keeps_bind (keeps_setExpr _ _) fun _ =>
      keeps_modify fun _ => ⟨rfl, rfl, rfl⟩

theorem keeps_shuffle : Keeps (Emit.shuffle t i) := by
  refine keeps_lift_bind fun x => keeps_lift_bind fun y => keeps_bind (keeps_valueType t x) fun type =>
    keeps_lift_bind fun info => ?_
  refine every_ite ?_ ?_
  · refine keeps_bind (keeps_mapM (fun c => ?_) _) fun _ => keeps_bind (keeps_value t x) fun _ => keeps_pure _
    exact every_ite (keeps_lift _) (keeps_lift _)
  · refine keeps_bind (keeps_mapM (fun c => ?_) _) fun _ => keeps_bind (keeps_naming _) fun _ => keeps_pure _
    refine every_ite (keeps_pure _) (every_ite ?_ ?_)
    · exact keeps_bind (keeps_value t x) fun _ => keeps_lift_bind fun _ => keeps_pure _
    · exact keeps_bind (keeps_value t y) fun _ => keeps_lift_bind fun _ => keeps_pure _

theorem keeps_load : Keeps (Emit.load t i) := by
  refine keeps_lift_bind fun info => keeps_lift_bind fun source => keeps_bind (keeps_value t source) fun s => ?_
  exact every_ite (keeps_setExpr _ _) (every_get_bind fun _ => keeps_declare t i _)

theorem keeps_extended : Keeps (Emit.extended t i) := by
  have hcall : ∀ fn : String, Keeps (do
      Emit.declare t i (fn ++ "(" ++ (← Emit.values t (i.args.drop 2)) ++ ")")) := fun fn =>
    keeps_bind (keeps_values t _) fun _ => keeps_declare t i _
  refine keeps_lift_bind fun set => every_ite (keeps_bind (keeps_lift _) fun _ => ?_) ?_
  all_goals
    refine keeps_lift_bind fun code => ?_
    split
    · exact keeps_lift _
    · dsimp only
      split
      · exact keeps_lift_bind fun _ => keeps_bind (keeps_valueType t _) fun _ => keeps_lift_bind fun _ => hcall _
      · exact hcall _

theorem keeps_sample : Keeps (Emit.sample t i) := by
  refine every_get_bind fun e => keeps_lift_bind fun x => ?_
  split
  · exact keeps_lift _
  · refine keeps_lift_bind fun y => keeps_bind (keeps_value t y) fun position => ?_
    dsimp only
    split
    · split
      · refine every_ite (keeps_bind (keeps_lift _) fun _ => ?_) ?_
        all_goals exact keeps_bind (keeps_value t _) fun _ => keeps_declare t i _
      · exact keeps_bind (keeps_lift _) fun _ => keeps_declare t i _
    · exact keeps_declare t i _

/-- **An instruction** is written after the lines there are. -/
theorem keeps_instruction : Keeps (Emit.instruction t i) := by
  have harg : ∀ n, Keeps (do Emit.value t (← operand i.args n)) := fun n =>
    keeps_lift_bind fun _ => keeps_value t _
  rw [Emit.instruction]
  dsimp only
  split
  · exact keeps_bind (harg 0) fun _ => keeps_bind (harg 1) fun _ => keeps_declare t i _
  · refine every_ite (keeps_load t i) (every_ite ?_ (every_ite (keeps_accessChain t i) ?_))
    · exact keeps_bind (harg 0) fun _ => keeps_bind (harg 1) fun _ => keeps_line _
    refine every_ite (keeps_bind (harg 0) fun _ => keeps_declare t i _) (every_ite ?_ (every_ite ?_ ?_))
    · exact keeps_bind (keeps_naming _) fun _ => keeps_bind (keeps_values t _) fun _ => keeps_declare t i _
    · exact keeps_bind (harg 0) fun _ => keeps_lift_bind fun _ => keeps_bind (keeps_valueType t _) fun _ =>
        keeps_bind (keeps_extract t _ _ _ _) fun _ => keeps_declare t i _
    refine every_ite (keeps_bind (keeps_shuffle t i) fun _ => keeps_declare t i _) (every_ite ?_ (every_ite ?_ ?_))
    · exact keeps_bind (harg 0) fun _ => keeps_bind (harg 1) fun _ => keeps_declare t i _
    · exact keeps_bind (harg 0) fun _ => keeps_bind (harg 1) fun _ => keeps_bind (harg 2) fun _ =>
        keeps_declare t i _
    refine every_ite (keeps_extended t i) (every_ite ?_ (every_ite (keeps_sample t i) (every_ite ?_ (keeps_lift _))))
    · exact keeps_bind (harg 0) fun _ => keeps_bind (harg 1) fun _ => keeps_modify fun _ => ⟨rfl, rfl, rfl⟩
    · exact keeps_bind (harg 0) fun _ => keeps_bind (harg 2) fun _ => keeps_bind (harg 1) fun _ => keeps_line _

/-! ### Blocks -/

/-- Lines between braces are one level deeper, and those after them are not. -/
theorem keeps_braces {body : Emit Unit} (h : Keeps body) : Keeps (Emit.braces body) := by
  intro e u e' hb
  obtain ⟨_, e₁, h₁, hb⟩ := gives_bind.1 hb
  obtain ⟨_, e₂, h₂, hb⟩ := gives_bind.1 hb
  obtain ⟨_, e₃, h₃, hb⟩ := gives_bind.1 hb
  obtain ⟨_, e₄, h₄, h₅⟩ := gives_bind.1 hb
  have hopen := keeps_line _ h₁
  have hbody := h h₃
  have hclose := keeps_line _ h₅
  rw [gives_modify.1 h₂] at hbody
  rw [gives_modify.1 h₄] at hclose
  refine ⟨(hopen.lines.trans hbody.lines).trans hclose.lines, ?_,
    List.Subset.trans (List.Subset.trans hopen.visited hbody.visited) hclose.visited⟩
  rw [hclose.indent]
  show e₃.indent - 1 = e.indent
  rw [hbody.indent, ← hopen.indent]
  rfl

theorem keeps_assignPhis (source target : UInt32) : Keeps (Emit.assignPhis t source target) := by
  rw [Emit.assignPhis]
  split
  · exact keeps_pure _
  · refine keeps_forM (fun phi => keeps_forM (fun e => ?_) _) _
    exact every_ite (every_get_bind fun _ => keeps_bind (keeps_value t _) fun _ => keeps_line _) (keeps_pure _)

theorem keeps_refuse (label : UInt32) : Keeps (Emit.refuse t label : Emit α) :=
  every_ite (keeps_lift _) (keeps_lift _)

/-- **Blocks** are written after the lines there are, by induction on how many are left. -/
theorem keeps_blocksFrom (budget : Nat) (label stop : UInt32) : Keeps (Emit.blocksFrom t budget label stop) := by
  induction budget using Nat.strongRecOn generalizing label stop with
  | ind budget ih =>
    intro e u e' h
    by_cases hne : label = stop
    · rw [Emit.blocksFrom.eq_def] at h
      dsimp only at h
      rw [if_pos hne] at h
      exact keeps_pure _ h
    cases hb : t.block? label with
    | none =>
      rw [Emit.blocksFrom.eq_def] at h
      dsimp only at h
      rw [if_neg hne, hb] at h
      cases budget with
      | zero => exact keeps_lift _ h
      | succ n => exact keeps_refuse t label h
    | some b =>
      obtain ⟨n, hn, hrun⟩ := gives_blocksFrom hne hb h
      subst hn
      have hrest : ∀ label stop, Keeps (Emit.blocksFrom t n label stop) := ih n (Nat.lt_succ_self n)
      have harm : ∀ target, Keeps (Emit.braces (if target = b.merge then Emit.assignPhis t label b.merge
          else Emit.blocksFrom t n target b.merge)) := fun target =>
        keeps_braces (every_ite (keeps_assignPhis t _ _) (hrest _ _))
      have hending : Keeps (Emit.ending t n b label stop) := by
        refine every_ite (every_get_bind fun _ => keeps_line _) (every_ite ?_ (every_ite ?_ (keeps_lift _)))
        · exact keeps_lift_bind fun _ => keeps_bind (keeps_assignPhis t _ _) fun _ => hrest _ _
        · refine every_ite (keeps_bind (keeps_lift _) fun _ => ?_) ?_
          all_goals
            exact keeps_lift_bind fun _ => keeps_bind (keeps_value t _) fun _ => keeps_bind (keeps_line _) fun _ =>
              keeps_lift_bind fun _ => keeps_bind (harm _) fun _ => keeps_bind (keeps_line _) fun _ =>
                keeps_lift_bind fun _ => keeps_bind (harm _) fun _ => hrest _ _
      have hb := keeps_bind (keeps_forM (keeps_instruction t) _) (fun _ => hending) hrun
      exact ⟨hb.lines, hb.indent, List.Subset.trans (List.subset_cons_self _ _) hb.visited⟩

/-! ### What comes before the function -/

theorem keeps_declarePhi : Keeps (Emit.declarePhi t i) :=
  keeps_bind (keeps_naming _) fun _ => keeps_bind (keeps_line _) fun _ => keeps_bind (keeps_setExpr _ _) fun _ =>
    keeps_modify fun _ => ⟨rfl, rfl, rfl⟩

theorem keeps_structDecl (name : String) (members : List String) : Keeps (Emit.structDecl name members) :=
  keeps_bind (keeps_line _) fun _ => keeps_bind (keeps_line _) fun _ => keeps_bind
    (keeps_forM (fun _ => keeps_line _) _) fun _ => keeps_bind (keeps_line _) fun _ => keeps_line _

theorem keeps_stageStructs (model : ExecutionModel) (bs : List Binding) : Keeps (Emit.stageStructs model bs) := by
  have hdecl : ∀ (c : Bool) (name : String) (ms : List String) (k : Emit Unit), Keeps k →
      Keeps (if c then do Emit.structDecl name ms; k else k) := fun c name ms k hk =>
    every_ite (keeps_bind (keeps_structDecl name ms) fun _ => hk) hk
  exact keeps_bind (keeps_forM (fun _ => keeps_setExpr _ _) _) fun _ => keeps_bind
    (keeps_forM (fun _ => keeps_setExpr _ _) _) fun _ => hdecl _ _ _ _ (hdecl _ _ _ _ (keeps_modify fun _ => ⟨rfl, rfl, rfl⟩))

theorem keeps_parameters (bs : List Binding) : Keeps (Emit.parameters t bs) := by
  refine every_get_bind fun e => keeps_bind (keeps_mapM (fun b => ?_) _) fun _ =>
    keeps_bind (keeps_mapM (fun b => ?_) _) fun _ => keeps_bind (keeps_mapM (fun b => ?_) _) fun _ => keeps_pure _
  · exact keeps_bind (keeps_setExpr _ _) fun _ => keeps_pure _
  · exact every_get_bind fun _ => keeps_bind (keeps_naming _) fun _ => keeps_bind (keeps_setExpr _ _) fun _ =>
      keeps_pure _
  · exact keeps_bind (keeps_setExpr _ _) fun _ => keeps_pure _

theorem keeps_preamble (model : ExecutionModel) (bs : List Binding) : Keeps (Emit.preamble t model bs) :=
  keeps_bind (keeps_forM (fun v : Variable => keeps_lift_bind fun info : TypeInfo => keeps_modify
    (f := fun e => { e with pointees := (v.id, info.element) :: e.pointees }) fun _ => ⟨rfl, rfl, rfl⟩) _) fun _ =>
      keeps_bind (keeps_forM (fun _ => keeps_line _) _) fun _ => keeps_bind
        (keeps_forM (fun _ => keeps_structDecl _ _) _) fun _ => keeps_bind (keeps_stageStructs model bs) fun _ =>
          keeps_parameters t bs

end Keeping

/-! ### The head -/

/-- The parameter of a buffer. -/
def bufferParameter (b : Binding) : String := s!"constant {b.format}& {b.name} [[buffer({b.index})]]"

/-- The parameter of an image, of a type with a name. -/
def imageParameter (type : String) (b : Binding) : String := s!"{type} {b.name} [[texture({b.index})]]"

def samplerParameter (b : Binding) : String := s!"sampler {b.name} [[sampler({b.index})]]"

/-- The parameter of a built-in input that is no member of the inputs. -/
def gridParameter (b : Binding) : String := s!"{b.format} {b.name} [[{b.builtIn}]]"

/-- **What an entry point receives**: the stage inputs, the resources of each argument table, and the place in
the grid. -/
structure Head where
  qualifier : String
  result : String
  inputs : List String
  buffers : List Binding
  images : List (String × Binding)
  samplers : List Binding
  grid : List Binding

def Head.parameters (h : Head) : List String :=
  h.inputs ++ h.buffers.map bufferParameter ++ h.images.map (fun p => imageParameter p.1 p.2) ++
    h.samplers.map samplerParameter ++ h.grid.map gridParameter

def Head.text (h : Head) : String :=
  h.qualifier ++ " " ++ h.result ++ " main0(" ++ ", ".intercalate h.parameters ++ ")"

/-- **All bindings of a table in the order of their indices**: 0, 1, 2 and so on. -/
structure InOrder (bs : List Binding) (table : ArgumentTable) (l : List Binding) : Prop where
  perm : l.Perm (bs.filter (·.kind.table? == some table))
  indices : l.map (·.index) = (List.range l.length).map Int.ofNat

/-- **A head with the parameters of all bindings**, those of each table in the order of their indices. -/
structure Head.Lists (h : Head) (bs : List Binding) : Prop where
  inputs : h.inputs = [] ∨ h.inputs = ["main0_in in [[stage_in]]"]
  buffers : InOrder bs .buffer h.buffers
  images : InOrder bs .texture (h.images.map (·.2))
  samplers : InOrder bs .sampler h.samplers
  grid : ∀ b ∈ h.grid, b.kind = .stageInput

section Heads

variable {t : Tables} {bs : List Binding} {e e' : Emission}

/-- Sorted by their indices, the bindings of a table are in order. -/
theorem Reflection.inOrder (h : Reflection t bs) (table : ArgumentTable) :
    InOrder bs table (sortBindings (fun a b => a.index ≤ b.index) (bs.filter (·.kind.table? == some table))) := by
  have hperm := sortBindings_perm (fun a b : Binding => a.index ≤ b.index) (bs.filter (·.kind.table? == some table))
  refine ⟨hperm, ?_⟩
  rw [map_index_sort (h.tables table), hperm.length_eq]

/-- The bindings of a class that has a table of its own. -/
theorem Reflection.ofClass (h : Reflection t bs) {kind : ResourceClass} {table : ArgumentTable}
    (hkind : ∀ k : ResourceClass, (k == kind) = (k.table? == some table)) :
    InOrder bs table (Metal.ofClass bs kind) := by
  rw [Metal.ofClass, List.filter_congr fun b _ => hkind b.kind]
  exact h.inOrder table

/-- Texts that are made of the elements of a list. -/
theorem eq_map_of_forall₂ {α β : Type} {f : α → β} {l : List α} {bs : List β}
    (h : List.Forall₂ (fun a b => b = f a) l bs) : bs = l.map f := by
  induction h with
  | nil => rfl
  | cons hb _ ih => rw [hb, ih, List.map_cons]

/-- Images whose parameters are written have types with names. -/
theorem exists_typed {l : List Binding} {texts : List String}
    (h : List.Forall₂ (fun b s => ∃ type, s = imageParameter type b) l texts) :
    ∃ typed : List (String × Binding), typed.map (·.2) = l ∧ texts = typed.map fun p => imageParameter p.1 p.2 := by
  induction h with
  | nil => exact ⟨[], rfl, rfl⟩
  | @cons b _ _ _ hb _ ih =>
    obtain ⟨type, rfl⟩ := hb
    obtain ⟨typed, rfl, rfl⟩ := ih
    exact ⟨(type, b) :: typed, rfl, rfl⟩

/-- **The parameters** are those of a head that lists all bindings. -/
theorem gives_parameters {params : List String} (h : Reflection t bs)
    (hg : Gives (Emit.parameters t bs) e params e') (qualifier result : String) :
    ∃ head : Head, head.parameters = params ∧ head.Lists bs ∧ head.qualifier = qualifier ∧
      head.result = result := by
  rw [Emit.parameters, gives_get_bind] at hg
  obtain ⟨buffers, _, h₁, hg⟩ := gives_bind.1 hg
  obtain ⟨images, _, h₂, hg⟩ := gives_bind.1 hg
  obtain ⟨samplers, _, h₃, hg⟩ := gives_bind.1 hg
  obtain ⟨rfl, -⟩ := gives_pure.1 hg
  have hbuffers := eq_map_of_forall₂ (f := bufferParameter) (gives_mapM (fun b _ _ s _ hb => by
    obtain ⟨_, _, -, hb⟩ := gives_bind.1 hb
    exact (gives_pure.1 hb).1) h₁)
  have hsamplers := eq_map_of_forall₂ (f := samplerParameter) (gives_mapM (fun b _ _ s _ hb => by
    obtain ⟨_, _, -, hb⟩ := gives_bind.1 hb
    exact (gives_pure.1 hb).1) h₃)
  -- the type of an image is found on the way
  have himages : List.Forall₂ (fun b s => ∃ type, s = imageParameter type b) (textures bs) images :=
    gives_mapM (fun b _ _ s _ hb => by
      rw [gives_get_bind] at hb
      obtain ⟨type, _, -, hb⟩ := gives_bind.1 hb
      obtain ⟨_, _, -, hb⟩ := gives_bind.1 hb
      exact ⟨type, (gives_pure.1 hb).1⟩) h₂
  obtain ⟨typed, htyped, himages⟩ := exists_typed himages
  refine ⟨⟨qualifier, result, if e.hasInputs then ["main0_in in [[stage_in]]"] else [], ofClass bs .uniformBuffer,
    typed, ofClass bs .sampler, (ofClass bs .stageInput).filter (·.builtIn == Emit.gridPosition)⟩, ?_,
    ⟨?_, h.ofClass fun k => by cases k <;> rfl, ?_,
      h.ofClass fun k => by cases k <;> rfl, fun b hb => ?_⟩, rfl, rfl⟩
  · rw [hbuffers, himages, hsamplers]
    rfl
  · show (if e.hasInputs then ["main0_in in [[stage_in]]"] else []) = [] ∨ _
    split
    · exact .inr rfl
    · exact .inl rfl
  · rw [htyped]
    exact h.inOrder .texture
  · exact (mem_ofClass.1 (List.mem_of_mem_filter hb)).2

/-- **The head of the entry point** stands in the source, between other lines. -/
theorem gives_source {model : ExecutionModel} {entry : UInt32} {u : Unit} (h : Reflection t bs)
    (hindent : e.indent = 0) (hg : Gives (Emit.source t model entry bs) e u e') :
    ∃ head : Head, head.Lists bs ∧ ∃ before after, e'.lines.toList = before ++ head.text :: after := by
  rw [source_eq] at hg
  obtain ⟨params, e₁, h₁, hg⟩ := gives_bind.1 hg
  have hindent₁ : e₁.indent = 0 := (keeps_preamble t model bs h₁).indent.trans hindent
  -- the parameters come last in the preamble
  obtain ⟨e₀, hparams⟩ : ∃ e₀, Gives (Emit.parameters t bs) e₀ params e₁ := by
    obtain ⟨_, _, -, h₁⟩ := gives_bind.1 h₁
    obtain ⟨_, _, -, h₁⟩ := gives_bind.1 h₁
    obtain ⟨_, _, -, h₁⟩ := gives_bind.1 h₁
    obtain ⟨_, e₀, -, h₁⟩ := gives_bind.1 h₁
    exact ⟨e₀, h₁⟩
  rw [Emit.function] at hg
  split at hg
  · cases (gives_lift.1 hg).1
  · rename_i qualifier _
    rw [gives_get_bind] at hg
    obtain ⟨head, hhead, hlists, hqualifier, hresult⟩ :=
      gives_parameters h hparams qualifier (if e₁.hasOutputs then "main0_out" else "void")
    obtain ⟨_, e₂, h₂, hg⟩ := gives_bind.1 hg
    have hline : e₂.lines.toList = e₁.lines.toList ++ [head.text] := by
      have htext : head.text = qualifier ++ " " ++ (if e₁.hasOutputs then "main0_out" else "void") ++ " main0(" ++
          ", ".intercalate params ++ ")" := by
        rw [Head.text, hhead, hqualifier, hresult]
      rw [gives_line h₂, hindent₁, htext, indented_zero]
      exact Array.toList_push
    have hrest : Keeps (Emit.braces do
        if e₁.hasOutputs then Emit.line "main0_out out = \x7b\x7d;"
        (Emit.phis t).forM (Emit.declarePhi t)
        Emit.blocksFrom t (t.rounds t.blocks.length) t.first 0) := by
      have hbody : Keeps (do
          (Emit.phis t).forM (Emit.declarePhi t)
          Emit.blocksFrom t (t.rounds t.blocks.length) t.first 0) :=
        keeps_bind (keeps_forM (keeps_declarePhi t) _) fun _ => keeps_blocksFrom t _ _ _
      exact keeps_braces (every_ite (keeps_bind (keeps_line _) fun _ => hbody) hbody)
    obtain ⟨after, hafter⟩ := (hrest hg).lines
    exact ⟨head, hlists, e₁.lines.toList, after, by rw [← hafter, hline, List.append_assoc]; rfl⟩

end Heads

/-- **Resources are indexed, and received in that order.**  Whatever module a program is written for, the
bindings of each argument table have the indices 0, 1, 2 and so on, in the order of their sets and slots and
of their declarations where these are shared; the others keep their locations; and the parameters of each
table stand in the order of the indices. -/
theorem Program.ofWords_indexed {words : List UInt32} {r : Program} (h : Program.ofWords words = .ok r) :
    ∃ m t, Module.parse words = .ok m ∧ Tables.load m = .ok t ∧ Reflection t r.bindings ∧
      ∃ head : Head, head.Lists r.bindings ∧ ∃ before after : List String,
        r.source = String.join ((before ++ head.text :: after).map (· ++ "\n")) := by
  obtain ⟨m, t, hm, ht, h⟩ := Program.tables_of_ofWords h
  obtain ⟨⟨bindings, names⟩, hreflect, h⟩ := bind_eq_ok.1 h
  obtain ⟨⟨_, e⟩, hsource, h⟩ := bind_eq_ok.1 h
  cases h
  have hreflection := reflection_of_reflect hreflect
  obtain ⟨head, hlists, before, after, hlines⟩ := gives_source hreflection rfl hsource
  exact ⟨m, t, hm, ht, hreflection, head, hlists, before, after, by rw [hlines]⟩

namespace SamplerExample

/-- A module with two samplers in slots 3 and 1 of set 0, and one in slot 3 again. -/
def words : List UInt32 :=
  let step : Assemble Unit := do
    let void ← Assemble.typeVoid
    let type ← Assemble.typeFunction void []
    let sampler ← Assemble.typeSampler
    let pointer ← Assemble.typePointer StorageClass.uniformConstant sampler
    for slot in [3, 1, 3] do
      let v ← Assemble.globalVariable pointer StorageClass.uniformConstant
      Assemble.decorate v Decoration.descriptorSet [0]
      Assemble.decorate v Decoration.binding [slot]
    let main ← Assemble.allocId
    let entry ← Assemble.allocId
    Assemble.entryPoint ExecutionModel.compute.code main "main" []
    Assemble.function main void type
    Assemble.label entry
    Assemble.void .returnVoid []
    Assemble.functionEnd
  (step.run (ModuleBuilder.new ⟨1, 3⟩)).2.words

end SamplerExample

/-- The samplers in slots 3, 1 and 3 have the indices 1, 0 and 2. -/
theorem Program.ofWords_samplers : ∃ r, Program.ofWords SamplerExample.words = .ok r ∧
    r.bindings.map (·.index) = [1, 0, 2] ∧ ∃ m t, Module.parse SamplerExample.words = .ok m ∧
      Tables.load m = .ok t ∧ Reflection t r.bindings ∧ ∃ head : Head, head.Lists r.bindings ∧
        ∃ before after : List String, r.source = String.join ((before ++ head.text :: after).map (· ++ "\n")) := by
  have hrun : (Program.ofWords SamplerExample.words).toOption.map (fun r => r.bindings.map (·.index)) =
      some [1, 0, 2] := by decide +kernel
  obtain ⟨r, hr, hindices⟩ := Option.map_eq_some_iff.1 hrun
  rw [toOption_eq_some] at hr
  exact ⟨r, hr, hindices, Program.ofWords_indexed hr⟩

end NodeShader.Metal
