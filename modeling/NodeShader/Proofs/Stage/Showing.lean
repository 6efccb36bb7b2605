import NodeShader.Proofs.Stage.Sampling
import NodeShader.Stage.Generate

/-!
# What a stage leaves behind

The root of a stage writes what flows into it: an output of the graph stores its inputs in variables
of the stage, a field writes one texel.  All other nodes only compute values.

* `Draft.Shows`: what the code of a node leaves behind.
* `writePreview_spec`, `writeMaterial_spec`, `writeField_spec`: the code of the roots.
-/

namespace NodeShader

open Spirv

variable [NameLimit] {I : Interpretation} {p : StagePlan} {d d₁ d' : Draft} {Γ Γ' : Context I}
  {P : List UInt32} {i : Nat} {n : Node} {x v : UInt32} {u : Unit}

/-- A variable that stores what is shown under a name. -/
def Draft.Stored (d : Draft) (p : StagePlan) (e : String × PortId) (o : Output I.Value) : Prop :=
  ∃ v a, d.outputs.lookup e.1 = some v ∧ o = .stored v (I.shown e.1 (p.typeOf e.2) a) ∧
    (p.Exact I → p.graph.Supplies p.typeOf d.fragment e.2 a)

/-- **What the code of a node leaves behind.**  The root of a compute stage writes a texel of its
field; other nodes store what they show, most of them nothing. -/
inductive Draft.Shows (d : Draft) (p : StagePlan) (i : Nat) (n : Node) :
    List (Output I.Value) → Prop
  | stored {o : List (Output I.Value)} : ¬ (n.kind = .computeField ∧ i = p.root) →
      List.Forall₂ (d.Stored p) n.shown o → Shows d p i n o
  | texel {q : PortId} {dim resolution : Int} {a : I.Value} : n.kind = .computeField → i = p.root →
      n.inputs = [q] → n.params = .field dim resolution →
      (p.Exact I → p.graph.Supplies p.typeOf d.fragment q a) →
      Shows d p i n [.texel (I.image i) (I.texelPlace dim) (I.colour (p.typeOf q) a)]

namespace Draft

omit [NameLimit] in
/-- A node that is no root leaves nothing behind. -/
theorem Shows.nothing (hk : n.kind ∉ [NodeKind.computeField, .previewOutput, .materialOutput]) :
    d.Shows (I := I) p i n [] := by
  refine .stored (fun h => hk (by rw [h.1]; decide)) ?_
  have hnil : n.shown = [] := by
    unfold Node.shown
    split
    · rename_i hk' _
      exact absurd (by rw [hk']; decide) hk
    · rename_i hk' _
      exact absurd (by rw [hk']; decide) hk
    · rfl
  rw [hnil]
  exact .nil

end Draft

namespace Drafting

/-- A value that flows in, as a colour. -/
theorem colour_spec {q : PortId} {y : UInt32} (hp : p.Planned) (hs : d.Sound P)
    (hfed : d.Fed p Γ q) (hq : (p.typeOf q).isFloat = true) (h₁ : Draws (operand p q) d x d₁)
    (h : Draws (toFloat4 i x (p.typeOf q)) d₁ y d') :
    ∃ c Γ' a, d.Emits Γ [] c [] d' Γ' [] ∧
      Known (d'.surroundings I) Γ' y .colour (.value (I.colour (p.typeOf q) a)) ∧
      (p.Exact I → p.graph.Supplies p.typeOf d.fragment q a) := by
  obtain ⟨q₁, hx⟩ := operand_spec hp hs hfed (ValueType.isValue_of_isNumeric
    (ValueType.isNumeric_of_isFloating (ValueType.isFloating_of_isFloat hq))) h₁
  obtain ⟨a, hk, ha⟩ := flows_value q₁ hx
  obtain ⟨c, Γ', e, hy⟩ := toFloat4_spec (q₁.sound P hs) hq hk h
  exact ⟨c, Γ', a, e.after q₁, hy, ha⟩

/-- Storing a value in an output of the stage. -/
theorem store_spec {name : String} {a : I.Value} (hf : d.Furnished p)
    (hname : ∃ v, (name, v) ∈ d.outputs)
    (hx : Known (d.surroundings I) Γ x (outputType name).shape (.value a))
    (h : Draws (store name x) d u d') :
    ∃ v c, d.outputs.lookup name = some v ∧ d.Emits Γ [] c [] d' Γ [.stored v a] := by
  obtain ⟨_, hm⟩ := hname
  obtain ⟨v, hl⟩ := isSome_lookup hm
  obtain ⟨r, hlist, -, -⟩ := hf.outputs _ (lookup_mem hl)
  rw [store, draws_get_bind, hl, Option.getD_some] at h
  exact ⟨v, _, hl, add_spec (.store (hlist.global I) hx) h⟩

/-- **Storing what flows into an output** under its name. -/
theorem stored_of_store {q : PortId} {name : String} {a : I.Value} {d₀ : Draft} (g : d₀.Goes d)
    (hf : d.Furnished p) (hname : ∃ v, (name, v) ∈ d.outputs)
    (hx : Known (d.surroundings I) Γ x (outputType name).shape
      (.value (I.shown name (p.typeOf q) a)))
    (ha : p.Exact I → p.graph.Supplies p.typeOf d₀.fragment q a)
    (h : Draws (store name x) d u d') :
    ∃ c o, d.Emits Γ [] c [] d' Γ [o] ∧ d₀.Stored p (name, q) o := by
  obtain ⟨v, c, hl, e⟩ := store_spec hf hname hx h
  refine ⟨c, _, e, v, a, ?_, rfl, ha⟩
  rw [← Draft.eq_of_view Draft.frame Draft.outputs (fun _ => rfl) g.frame]
  exact hl

theorem writePreview_spec {q : PortId} (hp : p.Planned) (hs : d.Sound P) (hf : d.Furnished p)
    (hserves : d.Serves p i n) (hn : p.graph.nodes[i]? = some n) (hk : n.kind = .previewOutput)
    (hin : n.inputs = [q]) (hout : n.outputs = []) (hq : (p.typeOf q).isFloat = true)
    (hfed : d.Fed p Γ q)
    (h : Draws (do store "color" (← toFloat4 i (← operand p q) (p.typeOf q))) d u d') :
    ∃ c vs Γ' o, d.Writes p Γ i c vs d' Γ' o ∧ d.Shows p i n o := by
  obtain ⟨x, d₁, h₁, h⟩ := draws_bind.1 h
  obtain ⟨y, d₂, h₂, h⟩ := draws_bind.1 h
  obtain ⟨_, Γ', a, e, hy, ha⟩ := colour_spec hp hs hfed hq h₁ h₂
  have g := e.goes
  have hname : ∃ v, ("color", v) ∈ d₂.outputs := by
    rw [Draft.eq_of_view Draft.frame Draft.outputs (fun _ => rfl) g.frame]
    exact hserves.preview hk
  obtain ⟨_, o, e', ho⟩ := stored_of_store g (hf.mono g.entries g.frame) hname hy ha h
  refine ⟨_, _, Γ', _, .none hn (by rw [hout]; exact fun q hq => absurd hq List.not_mem_nil)
    (e.trans e'), .stored ?_ ?_⟩
  · rw [hk]
    exact fun h => by cases h.1
  · rw [Node.shown, hk, hin]
    exact .cons ho .nil

omit [NameLimit] in
theorem draws_inputNamed {name : String} {q : PortId} {β : Type} {f : PortId → Drafting β} {b : β}
    (hq : p.graph.inputNamed n name = .ok q) (h : Draws (inputNamed p n name >>= f) d b d') :
    Draws (f q) d b d' := by
  rw [inputNamed, hq] at h
  exact h

/-- An input that is stored as it is, after other code. -/
theorem storeInput_spec {d₀ d₂ : Draft} {c : Code} {o₀ : List (Output I.Value)} {q : PortId}
    {name : String} (hp : p.Planned) (hs : d.Sound P) (hf : d.Furnished p)
    (hname : ∃ v, (name, v) ∈ d.outputs) (e₀ : d.Emits Γ [] c [] d₀ Γ' o₀) (hfed : d.Fed p Γ q)
    (hq : p.typeOf q = outputType name) (hv : (p.typeOf q).isValue = true)
    (hshown : ∀ t a, I.shown name t a = a) (h₁ : Draws (operand p q) d₀ x d₁)
    (h : Draws (store name x) d₁ u d₂) :
    ∃ c o, d.Emits Γ [] c [] d₂ Γ' (o₀ ++ [o]) ∧ d.Stored p (name, q) o := by
  have hfed₀ : d₀.Fed p Γ' q := hfed.mono e₀.goes e₀.runs.subset e₀.values fun _ hm => by cases hm
  obtain ⟨q₁, hx⟩ := operand_spec hp (e₀.sound P hs) hfed₀ hv h₁
  obtain ⟨a, hk, ha⟩ := flows_value q₁ hx
  have g := e₀.goes.trans q₁.goes
  rw [e₀.goes.fragment] at ha
  rw [← hshown (p.typeOf q) a] at hk
  have hname₁ : ∃ v, (name, v) ∈ d₁.outputs := by
    rw [Draft.eq_of_view Draft.frame Draft.outputs (fun _ => rfl) g.frame]
    exact hname
  obtain ⟨_, o, e, ho⟩ := stored_of_store g (hf.mono g.entries g.frame) hname₁
    (by rw [← hq]; exact hk) ha h
  exact ⟨_, o, (e₀.before q₁).trans e, ho⟩

theorem writeMaterial_spec {c r m : PortId} (hp : p.Planned) (hs : d.Sound P) (hf : d.Furnished p)
    (hserves : d.Serves p i n) (hn : p.graph.nodes[i]? = some n) (hk : n.kind = .materialOutput)
    (hin : n.inputs = [c, r, m]) (hout : n.outputs = [])
    (hc : p.graph.inputNamed n "base_color" = .ok c) (hr : p.graph.inputNamed n "roughness" = .ok r)
    (hm : p.graph.inputNamed n "emission" = .ok m) (htc : p.typeOf c = .float3)
    (htr : p.typeOf r = .float) (htm : p.typeOf m = .float3) (hfed : ∀ q ∈ n.inputs, d.Fed p Γ q)
    (h : Draws (do
      let color ← inputNamed p n "base_color"
      store "base_color" (← toFloat4 i (← operand p color) (p.typeOf color))
      store "roughness" (← operand p (← inputNamed p n "roughness"))
      store "emission" (← operand p (← inputNamed p n "emission"))) d u d') :
    ∃ c vs Γ' o, d.Writes p Γ i c vs d' Γ' o ∧ d.Shows p i n o := by
  rw [hin] at hfed
  have hnames := hserves.material hk
  have h := draws_inputNamed hc h
  obtain ⟨x, d₁, h₁, h⟩ := draws_bind.1 h
  obtain ⟨y, d₂, h₂, h⟩ := draws_bind.1 h
  obtain ⟨_, Γ₂, a, e₂, hy, ha⟩ := colour_spec hp hs (hfed c (by simp)) (by rw [htc]; rfl) h₁ h₂
  obtain ⟨_, d₃, h₃, h⟩ := draws_bind.1 h
  have hname₂ : ∃ v, ("base_color", v) ∈ d₂.outputs := by
    rw [Draft.eq_of_view Draft.frame Draft.outputs (fun _ => rfl) e₂.frame]
    exact hnames "base_color" (by simp)
  obtain ⟨_, o₁, e₃, ho₁⟩ := stored_of_store e₂.goes (hf.mono e₂.entries e₂.frame) hname₂ hy ha h₃
  have h := draws_inputNamed hr h
  obtain ⟨x₂, d₄, h₄, h⟩ := draws_bind.1 h
  obtain ⟨_, d₅, h₅, h⟩ := draws_bind.1 h
  obtain ⟨_, o₂, e₅, ho₂⟩ := storeInput_spec hp hs hf (hnames "roughness" (by simp)) (e₂.trans e₃)
    (hfed r (by simp)) htr (by rw [htr]; rfl) (fun _ _ => rfl) h₄ h₅
  have h := draws_inputNamed hm h
  obtain ⟨x₃, d₆, h₆, h⟩ := draws_bind.1 h
  obtain ⟨_, o₃, e₇, ho₃⟩ := storeInput_spec hp hs hf (hnames "emission" (by simp)) e₅
    (hfed m (by simp)) htm (by rw [htm]; rfl) (fun _ _ => rfl) h₆ h
  refine ⟨_, _, Γ₂, _, .none hn (by rw [hout]; exact fun q hq => absurd hq List.not_mem_nil) e₇, .stored ?_ ?_⟩
  · rw [hk]
    exact fun h => by cases h.1
  · rw [Node.shown, hk, hin]
    exact .cons ho₁ (.cons ho₂ (.cons ho₃ .nil))

omit [NameLimit] in
/-- The dimensions of a field that has code. -/
theorem dim_of_localSize {dim : Int} {size : List Nat} (h : localSize? dim = some size) :
    dim = 2 ∨ dim = 3 := by
  unfold localSize? at h
  split at h
  · exact .inl rfl
  · exact .inr rfl
  · cases h

/-- **The texel of a field.** -/
theorem writeField_spec {q : PortId} {dim resolution : Int} {size : List Nat} (hp : p.Planned)
    (hs : d.Sound P) (hf : d.Furnished p) (hserves : d.Serves p i n)
    (hn : p.graph.nodes[i]? = some n) (hk : n.kind = .computeField) (hroot : i = p.root)
    (hin : n.inputs = [q]) (hparams : n.params = .field dim resolution)
    (hsize : localSize? dim = some size)
    (hout : ∀ out ∈ n.outputs, (p.typeOf out).isValue = false)
    (hq : (p.typeOf q).isFloat = true) (hfed : d.Fed p Γ q)
    (h : Draws (writeField p i q) d u d') :
    ∃ c vs Γ' o, d.Writes p Γ i c vs d' Γ' o ∧ d.Shows p i n o := by
  rw [writeField] at h
  obtain ⟨x, d₁, h₁, h⟩ := draws_bind.1 h
  obtain ⟨texel, d₂, h₂, h⟩ := draws_bind.1 h
  obtain ⟨_, Γ₂, a, e₂, htexel, ha⟩ := colour_spec hp hs hfed hq h₁ h₂
  have hs₂ := e₂.sound P hs
  have hf₂ := hf.mono e₂.entries e₂.frame
  obtain ⟨hinv, hst⟩ := hserves.field hk hroot
  rw [← Draft.eq_of_view Draft.frame Draft.invocation (fun _ => rfl) e₂.frame] at hinv
  rw [← Draft.eq_of_view Draft.frame Draft.storage (fun _ => rfl) e₂.frame] at hst
  obtain ⟨f, hst⟩ := Option.isSome_iff_exists.1 hst
  rw [draws_get_bind, hst, draws_some_bind] at h
  -- the image that is written
  obtain ⟨himageType, ⟨r, hl, hkr, hnr⟩, m, res, hm, hmp⟩ := hf₂.storage f hst
  rw [← hroot] at hm hnr
  rw [hn] at hm
  cases hm
  rw [hparams] at hmp
  obtain ⟨rfl, -⟩ : dim = f.dim ∧ resolution = res := by
    cases hmp
    exact ⟨rfl, rfl⟩
  obtain ⟨image, d₃, h₃, h⟩ := draws_bind.1 h
  obtain ⟨_, Γ₃, e₃, himage⟩ := load_spec (Γ := Γ₂) (a := I.image i) hl
    (Resource.content?_image (.inr hkr) hnr) himageType h₃
  have hs₃ := e₃.sound P hs₂
  rw [draws_get_bind] at h
  dsimp only at h
  obtain ⟨uint3, d₄, h₄, h⟩ := draws_bind.1 h
  obtain ⟨q₄, huint3⟩ := unsignedType_spec hs₃ (by decide) h₄
  have hs₄ := q₄.sound P hs₃
  have g₄ := e₃.goes.trans q₄.goes
  have hinv₄ : d₄.invocation = d₂.invocation :=
    Draft.eq_of_view Draft.frame Draft.invocation (fun _ => rfl) g₄.frame
  have hinv₃ : d₃.invocation = d₄.invocation := by rw [q₄.fields]
  rw [hinv₃] at h
  obtain ⟨gid, d₅, h₅, h⟩ := draws_bind.1 h
  obtain ⟨_, Γ₅, e₅, hgid⟩ := loadInvocation_spec (Γ := Γ₃) (hf₂.mono g₄.entries g₄.frame)
    (by rw [hinv₄]; exact hinv) huint3 h₅
  have hs₅ := e₅.sound P hs₄
  have e := ((e₂.trans e₃).before q₄).trans e₅
  have himage := e₅.keeps (himage.mono q₄.le)
  have htexel := e₅.keeps ((e₃.keeps htexel).mono q₄.le)
  have hshows := Draft.Shows.texel (d := d) (a := a) hk hroot hin hparams ha
  rcases dim_of_localSize hsize with hdim | hdim
  · rw [hdim, if_pos rfl] at h
    obtain ⟨uint2, d₆, h₆, h⟩ := draws_bind.1 h
    obtain ⟨q₆, huint2⟩ := unsignedType_spec hs₅ (by decide) h₆
    obtain ⟨coordinate, d₇, h₇, h⟩ := draws_bind.1 h
    obtain ⟨_, Γ₇, e₇, hcoordinate⟩ := emitXY_spec (by decide) (by decide) huint2 (hgid.mono q₆.le) h₇
    have himage := e₇.keeps (himage.mono q₆.le)
    have htexel := e₇.keeps (htexel.mono q₆.le)
    rw [storageType, hdim] at himage
    rw [hdim] at hshows
    have e₈ := add_spec (.write himage hcoordinate htexel) h
    exact ⟨_, _, _, _, .none hn hout (((e.before q₆).trans e₇).trans e₈), hshows⟩
  · rw [hdim, if_neg (by decide)] at h
    rw [storageType, hdim] at himage
    rw [hdim] at hshows
    have e₈ := add_spec (.write himage hgid htexel) h
    exact ⟨_, _, _, _, .none hn hout (e.trans e₈), hshows⟩

end Drafting

end NodeShader
