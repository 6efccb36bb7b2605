import NodeShader.Proofs.Metal.Scripts
import NodeShader.Proofs.Metal.Programs
import NodeShader.Proofs.Spirv.Ssa

/-!
# Functions are written as scripts

Writing a function follows its blocks and leaves the lines of a script behind, which is that of the code of
the function.

* `walk_prints`: **what is written for code** are the lines of its script, whose locals are in scope.
* `Ready.transcript`: **the source of a module** ends with the lines of the script of its function.
-/

namespace NodeShader.Metal

open Spirv

/-! ### Lines that are added -/

/-- **Lines are added**, nothing is forgotten, and what is known stays sound. -/
structure Emission.Continues (t : Tables) (bs : List Binding) (D W : List Instruction) (ls : List String)
    (e e' : Emission) : Prop extends e.Adds ls e', e.Le e' where
  sound : e'.Sound D W
  speaks : e'.Speaks t bs W

section Continues

variable {I : Interpretation} {t : Tables} {bs : List Binding} {D W : List Instruction} {ls ls' : List String}
  {xs : List UInt32} {Γ : Context I} {e e' e'' : Emission} {u : Unit} {s : String}

theorem Emission.Continues.trans (h : e.Continues t bs D W ls e') (h' : e'.Continues t bs D W ls' e'') :
    e.Continues t bs D W (ls ++ ls') e'' :=
  ⟨h.toAdds.trans h'.toAdds, h.toLe.trans h'.toLe, h'.sound, h'.speaks⟩

/-- Statements after others. -/
theorem InScope.append {ss ss' : List Statement} (h : InScope xs ss)
    (h' : InScope (xs ++ ss.flatMap Statement.declared) ss') : InScope xs (ss ++ ss') := by
  induction ss generalizing xs with
  | nil => simpa using h'
  | cons a ss ih =>
    rw [List.flatMap_cons, ← List.append_assoc] at h'
    exact ⟨h.1, ih h.2 h'⟩

/-- What is known while lines are added. -/
theorem Writing.continues (w : Writing t bs D W xs Γ e) (h : e.Continues t bs D W ls e') :
    Writing t bs D W xs Γ e' := ⟨h.sound, w.tells.mono h.toLe, h.speaks, w.held⟩

/-- Other names are given, other blocks are visited, and a line is added. -/
theorem Writing.adds (w : Writing t bs D W xs Γ e) (names : Names) (visited : List UInt32) (s : String) :
    e.Continues t bs D W [indented e.indent s]
      { e with names, visited, lines := e.lines.push (indented e.indent s) } :=
  ⟨⟨Array.toList_push, rfl, rfl⟩,
    ⟨List.suffix_refl _, List.suffix_refl _, List.suffix_refl _, List.suffix_refl _⟩,
    ⟨w.sound.types, w.sound.pointees, w.sound.declared⟩, ⟨w.speaks.exprs, w.speaks.sampled⟩⟩

/-- A block is visited. -/
theorem Writing.visits (w : Writing t bs D W xs Γ e) (visited : List UInt32) :
    e.Continues t bs D W [] { e with visited } :=
  ⟨⟨(List.append_nil _).symm, rfl, rfl⟩,
    ⟨List.suffix_refl _, List.suffix_refl _, List.suffix_refl _, List.suffix_refl _⟩,
    ⟨w.sound.types, w.sound.pointees, w.sound.declared⟩, ⟨w.speaks.exprs, w.speaks.sampled⟩⟩

theorem Writing.line (w : Writing t bs D W xs Γ e) (hg : Gives (Emit.line s) e u e') :
    e.Continues t bs D W [indented e.indent s] e' := by
  rw [gives_line hg]
  exact w.adds e.names e.visited s

/-- **Lines between braces** are one level deeper. -/
theorem gives_braces {body : Emit Unit} (w : Writing t bs D W xs Γ e) (hg : Gives (Emit.braces body) e u e') :
    ∃ e₁ u₁ e₂, e₁.indent = e.indent + 1 ∧ e.Le e₁ ∧ e₁.hasOutputs = e.hasOutputs ∧ Writing t bs D W xs Γ e₁ ∧
      Gives body e₁ u₁ e₂ ∧ ∀ ls, e₁.Continues t bs D W ls e₂ →
        e.Continues t bs D W (indented e.indent "\x7b" :: (ls ++ [indented e.indent "\x7d"])) e' := by
  obtain ⟨_, e₁, h₁, hg⟩ := gives_bind.1 hg
  obtain ⟨_, e₂, h₂, hg⟩ := gives_bind.1 hg
  obtain ⟨u₁, e₃, h₃, hg⟩ := gives_bind.1 hg
  obtain ⟨_, e₄, h₄, hg⟩ := gives_bind.1 hg
  have c₁ := w.line h₁
  have hle : e₁.Le e₂ := by
    rw [gives_modify.1 h₂]
    exact ⟨List.suffix_refl _, List.suffix_refl _, List.suffix_refl _, List.suffix_refl _⟩
  have w₂ : Writing t bs D W xs Γ e₂ := by
    have w₁ := w.continues c₁
    rw [gives_modify.1 h₂]
    exact w₁.same rfl rfl rfl rfl
  have hindent : e₂.indent = e.indent + 1 := by
    rw [gives_modify.1 h₂]
    exact congrArg (· + 1) c₁.indent
  refine ⟨e₂, u₁, e₃, hindent, c₁.toLe.trans hle, ?_, w₂, h₃, fun ls hc => ?_⟩
  · rw [gives_modify.1 h₂]
    exact c₁.outputs
  · have hback : e₄.indent = e.indent := by
      rw [gives_modify.1 h₄]
      show e₃.indent - 1 = _
      rw [hc.indent, hindent]
      rfl
    rw [gives_line hg, hback]
    refine ⟨⟨?_, rfl, ?_⟩, (c₁.toLe.trans hle).trans (hc.toLe.trans ?_), ?_, ?_⟩
    · have hlines : e₄.lines.toList = e.lines.toList ++ (indented e.indent "\x7b" :: ls) := by
        rw [gives_modify.1 h₄]
        show e₃.lines.toList = _
        rw [hc.lines, gives_modify.1 h₂]
        show e₁.lines.toList ++ ls = _
        rw [c₁.lines, List.append_assoc]
        rfl
      rw [Array.toList_push, hlines, List.append_assoc]
      rfl
    · show e₄.hasOutputs = _
      rw [gives_modify.1 h₄]
      show e₃.hasOutputs = _
      rw [hc.outputs, gives_modify.1 h₂]
      exact c₁.outputs
    · rw [gives_modify.1 h₄]
      exact ⟨List.suffix_refl _, List.suffix_refl _, List.suffix_refl _, List.suffix_refl _⟩
    · rw [gives_modify.1 h₄]
      exact ⟨hc.sound.types, hc.sound.pointees, hc.sound.declared⟩
    · rw [gives_modify.1 h₄]
      exact ⟨hc.speaks.exprs, hc.speaks.sampled⟩

/-- A block that is entered is there and was not entered before. -/
theorem gives_blocksFrom {budget : Nat} {label stop : UInt32} {b : Block} (hne : label ≠ stop)
    (hb : t.block? label = some b) (hg : Gives (Emit.blocksFrom t budget label stop) e u e') :
    ∃ n, budget = n + 1 ∧ Gives (b.instructions.forM (Emit.instruction t) >>= fun _ =>
      Emit.ending t n b label stop) { e with visited := label :: e.visited } u e' := by
  have hrefuse : ∀ {α : Type} {e e' : Emission} {a : α}, ¬ Gives (Emit.refuse t label : Emit α) e a e' := by
    intro α e e' a h
    rw [Emit.refuse] at h
    split at h <;> cases (gives_lift.1 h).1
  rw [Emit.blocksFrom.eq_def] at hg
  dsimp only at hg
  rw [if_neg hne, hb] at hg
  cases budget with
  | zero => cases (gives_lift.1 hg).1
  | succ n =>
    refine ⟨n, rfl, ?_⟩
    have hg := gives_get_bind.1 hg
    split at hg
    · obtain ⟨_, _, h, -⟩ := gives_bind.1 hg
      exact (hrefuse h).elim
    · obtain ⟨_, e₁, h₁, hg⟩ := gives_bind.1 hg
      rw [gives_modify.1 h₁] at hg
      exact hg

end Continues

/-! ### Code -/

section Code

variable [NameLimit] {I : Interpretation} {t : Tables} {bs : List Binding} {s : Surroundings I}
  {A : List Instruction} {R : List UInt32} {globals W : List Instruction} {Γ Γ' : Context I} {c : Code}
  {o : List (Output I.Value)} {b : Block} {last i : Instruction} {stop x : UInt32} {budget : Nat}
  {e e' : Emission} {xs : List UInt32} {u : Unit} {text : String}

variable (S : Setting t s A R globals W) (L : Listed t bs)
include S L

/-- The expression of a result that has a local. -/
theorem Named.of_local (h : Named t bs W x text) (hi : i ∈ W) (hx : i.result? = some x) (hs : ¬ Silent t i) :
    text = localName x := by
  cases h with
  | local_ => rfl
  | object hj hsilent => exact (S.not_silent hj rfl hsilent hi hx hs).elim
  | place hp =>
    cases hp with
    | member hj => exact (S.not_silent hj rfl (.inl rfl) hi hx hs).elim
    | variable_ hb =>
      obtain ⟨j, hj, -, hr⟩ := L.declared S hb
      exact (S.not_global hj hr hi hx).elim

/-- What is written for an instruction that runs. -/
theorem instruction_continues {Γ₁ : Context I} (hi : i ∈ W) (hstep : Step s Γ i Γ₁ o)
    (w : Writing t bs s.decls W xs Γ e) (hg : Gives (Emit.instruction t i) e u e') :
    ∃ ss, Prints t bs W i ss ∧ e.Continues t bs s.decls W (ss.map fun a => indented e.indent a.text) e' ∧
      InScope xs ss ∧ Writing t bs s.decls W (xs ++ ss.flatMap Statement.declared) Γ₁ e' := by
  obtain ⟨ss, hprints, hadds, hspeaks, hmention, hheld⟩ := instruction_prints S L hi hstep w hg
  obtain ⟨hwrites, htells⟩ := (instruction_spec S hi hstep e w.sound w.tells).of_gives hg
  refine ⟨ss, hprints, ⟨hadds, hwrites.toLe, hwrites.sound w.sound, hspeaks⟩, ?_,
    hwrites.sound w.sound, htells, hspeaks, hheld⟩
  clear hprints hadds hheld
  induction ss generalizing xs with
  | nil => trivial
  | cons a ss ih =>
    rw [List.forall_mem_cons] at hmention
    exact ⟨hmention.1, ih ⟨w.sound, w.tells, w.speaks, w.held.mono (List.subset_append_left _ _)⟩
      fun b hb => (hmention.2 b hb).mono (List.subset_append_left _ _)⟩

/-- What an expression of a condition or a phi is. -/
theorem value_continues {ty : Ty} {v : I.Value} (w : Writing t bs s.decls W xs Γ e)
    (h : Known s Γ x ty (.value v)) (hn : named ty = true) (hg : Gives (Emit.value t x) e text e') :
    Spells t bs W x text ∧ Mentions xs text.toList ∧ ∃ names, e' = { e with names } := by
  obtain ⟨names, rfl, hw, -⟩ := value_spec S L w h hn hg
  exact ⟨hw.spells, hw.mentions, names, rfl⟩

/-- **What is written at the end of an arm**: the phi of the block that is next is assigned what it is from
there. -/
def Assigns (t : Tables) (bs : List Binding) (s : Surroundings I) (W : List Instruction) (Γ : Context I)
    (source stop phi value : UInt32) : Prop :=
  ∀ (xs : List UInt32) (e e' : Emission) (u : Unit), Writing t bs s.decls W xs Γ e →
    (e.exprs.lookup phi).isSome = true → Gives (Emit.assignPhis t source stop) e u e' →
    ∃ text, Spells t bs W value text ∧ Mentions xs text.toList ∧
      e.Continues t bs s.decls W [indented e.indent (localName phi ++ " = " ++ text ++ ";")] e'

/-- **The phi where arms meet** is assigned at the end of each. -/
theorem assigns_phi {c : Choice} {ly ln source value : UInt32} {B : Block} {ty : Ty} {a : I.Value}
    (hphi : c.phi ly ln ∈ W) (hb : t.block? c.merge = some B) (hphis : B.phis = [c.phi ly ln]) (hne : ly ≠ ln)
    (hvalue : source = ly ∧ value = c.fromYes ∨ source = ln ∧ value = c.fromNo)
    (hs : ty.component.isScalar = true) (h : Known s Γ value ty (.value a)) :
    Assigns t bs s W Γ source c.merge c.result value := by
  intro xs e e' u w hsome hg
  have hone : Gives (do
      let name := ((← get).exprs.lookup c.result).getD ""
      Emit.line (name ++ " = " ++ (← Emit.value t value) ++ ";") : Emit Unit) e u e' := by
    rw [Emit.assignPhis, hb] at hg
    dsimp only at hg
    rw [hphis] at hg
    obtain ⟨_, e₁, h₁, h₂⟩ := gives_bind.1 hg
    obtain ⟨-, rfl⟩ := gives_pure.1 h₂
    obtain ⟨_, e₂, h₃, h₄⟩ := gives_bind.1 h₁
    obtain ⟨_, e₃, h₅, h₆⟩ := gives_bind.1 h₄
    obtain ⟨-, rfl⟩ := gives_pure.1 h₆
    dsimp only at h₃ h₅
    rcases hvalue with ⟨rfl, rfl⟩ | ⟨rfl, rfl⟩
    · rw [if_pos rfl] at h₃
      rw [if_neg hne.symm] at h₅
      obtain ⟨-, rfl⟩ := gives_pure.1 h₅
      exact h₃
    · rw [if_neg hne] at h₃
      rw [if_pos rfl] at h₅
      obtain ⟨-, rfl⟩ := gives_pure.1 h₃
      exact h₅
  rw [gives_get_bind] at hone
  obtain ⟨text, e₁, h₁, hone⟩ := gives_bind.1 hone
  obtain ⟨hspells, hmention, names, rfl⟩ := value_continues S L w h (named_of_component hs) h₁
  obtain ⟨name, hname⟩ := Option.isSome_iff_exists.1 hsome
  have hlocal : name = localName c.result := by
    refine Named.of_local S L (w.speaks.exprs _ (lookup_mem hname)) hphi rfl (not_silent_of_opcode ?_)
    show Opcode.phi ∉ _
    decide
  refine ⟨text, hspells, hmention, ?_⟩
  rw [gives_line hone, hname, hlocal]
  exact w.adds names e.visited _

omit [NameLimit] S L in
/-- **Entering a stretch of blocks** at its first one. -/
theorem enter_prints {l : UInt32} {phis : List Instruction} {n : Nat} {D : List Instruction}
    (hs : Stretch t (Tables.emptyBlock l phis) last stop c n) (hne : l ≠ stop) (w : Writing t bs D W xs Γ e)
    (hg : Gives (Emit.blocksFrom t (n + 1) l stop) e u e') : ∃ e₁, e.Continues t bs D W [] e₁ ∧
      Gives (c.row.forM (Emit.instruction t) >>= fun _ =>
        Emit.ending t n (headOf (Tables.emptyBlock l phis) last c) l stop) e₁ u e' := by
  have hb := hs.blocks _ (headOf_mem (Tables.emptyBlock l phis) last c)
  rw [headOf_label] at hb
  obtain ⟨m, hm, hg⟩ := gives_blocksFrom hne hb hg
  rw [headOf_instructions, ← Nat.succ.inj hm] at hg
  exact ⟨_, w.visits _, hg⟩

omit [NameLimit] S L in
/-- **An arm** of a selection stands between braces. -/
theorem arm_prints (target : Option (UInt32 × UInt32)) {l merge label : UInt32} {n : Nat} {D : List Instruction}
    (hs : Stretch t (Tables.emptyBlock l []) (goto merge) merge c n) (hne : l ≠ merge)
    (w : Writing t bs D W xs Γ e)
    (h : ∀ {e₁ e₂ : Emission} {u₁ : Unit}, e.Le e₁ → Writing t bs D W xs Γ e₁ →
      Gives (c.row.forM (Emit.instruction t) >>= fun _ =>
        Emit.ending t n (headOf (Tables.emptyBlock l []) (goto merge) c) l merge) e₁ u₁ e₂ →
      ∃ ss Sc, Transcribed t bs W e₁.hasOutputs target l c ss Sc ∧
        e₁.Continues t bs D W (ss.map (fun a => indented e₁.indent a.text) ++ Sc.lines e₁.indent) e₂ ∧
        (Script.block l ss Sc).Scoped xs)
    (hg : Gives (Emit.braces (if l = merge then Emit.assignPhis t label merge
      else Emit.blocksFrom t (n + 1) l merge)) e u e') :
    ∃ ss Sc, Transcribed t bs W e.hasOutputs target l c ss Sc ∧
      e.Continues t bs D W (indented e.indent "\x7b" :: ((Script.block l ss Sc).lines (e.indent + 1) ++
        [indented e.indent "\x7d"])) e' ∧
      (Script.block l ss Sc).Scoped xs := by
  obtain ⟨e₁, u₁, e₂, hdepth, hle, hout, w₁, h₁, hbraces⟩ := gives_braces w hg
  rw [if_neg hne] at h₁
  obtain ⟨e₃, c₃, h₃⟩ := enter_prints hs hne w₁ h₁
  obtain ⟨ss, Sc, htrans, hc, hscope⟩ := h (hle.trans c₃.toLe) (w₁.continues c₃) h₃
  refine ⟨ss, Sc, ?_, ?_, hscope⟩
  · rwa [c₃.outputs, hout] at htrans
  · have hlines := hbraces _ (c₃.trans hc)
    rw [c₃.indent, hdepth] at hlines
    exact hlines

/-- **What is written for code** are the lines of its script. -/
theorem walk_prints (target : Option (UInt32 × UInt32)) (h : Runs s Γ c Γ' o) (hW : c.instructions ⊆ W)
    (hs : Stretch t b last stop c budget) (w : Writing t bs s.decls W xs Γ e) (hphis : e.Declares c.phis)
    (hxs : ∀ i ∈ c.phis, i.result ∈ xs)
    (hlast : match target with
      | none => last = ⟨.returnVoid, []⟩
      | some (phi, value) => last = goto stop ∧ phi ∈ xs ∧ (e.exprs.lookup phi).isSome = true ∧
        Assigns t bs s W Γ' (c.lastLabel b.label) stop phi value)
    (hg : Gives (c.row.forM (Emit.instruction t) >>= fun _ =>
      Emit.ending t budget (headOf b last c) b.label stop) e u e') :
    ∃ ss S, Transcribed t bs W e.hasOutputs target b.label c ss S ∧
      e.Continues t bs s.decls W (ss.map (fun a => indented e.indent a.text) ++ S.lines e.indent) e' ∧
      (Script.block b.label ss S).Scoped xs := by
  induction h generalizing b last stop budget e e' xs target with
  | @done Γ =>
    obtain ⟨_, e₁, h₁, hg⟩ := gives_bind.1 hg
    obtain ⟨-, rfl⟩ := gives_pure.1 h₁
    cases target with
    | none =>
      obtain rfl : last = _ := hlast
      have hreturn : Gives (do Emit.line (if (← get).hasOutputs then "return out;" else "return;")) e₁ u e' := hg
      rw [gives_get_bind] at hreturn
      exact ⟨[], .leave e₁.hasOutputs, .leave, w.line hreturn, trivial, trivial⟩
    | some p =>
      obtain ⟨rfl, hx, hsome, hassign⟩ := hlast
      have hgoto : Gives (do
          let target ← operand [stop] 0
          Emit.assignPhis t b.label target
          Emit.blocksFrom t budget target stop : Emit Unit) e₁ u e' := hg
      obtain ⟨stop', hstop', hgoto⟩ := gives_lift_bind.1 hgoto
      cases hstop'
      obtain ⟨_, e₂, h₂, h₃⟩ := gives_bind.1 hgoto
      rw [Emit.blocksFrom.eq_def] at h₃
      dsimp only at h₃
      rw [if_pos rfl] at h₃
      obtain ⟨-, rfl⟩ := gives_pure.1 h₃
      obtain ⟨text, hspells, hmention, hc⟩ := hassign _ _ _ _ w hsome h₂
      exact ⟨[], .assign p.1 text .done, .join hspells, hc, trivial,
        by rwa [List.flatMap_nil, List.append_nil], by rwa [List.flatMap_nil, List.append_nil], trivial⟩
  | @plain Γ Γ₁ Γ₂ i rest o₁ o₂ hstep _ ih =>
    have hi := hW List.mem_cons_self
    have hg : Gives ((Emit.instruction t i >>= fun _ => rest.row.forM (Emit.instruction t)) >>= fun _ =>
      Emit.ending t budget (headOf _ last rest) b.label stop) e u e' := hg
    rw [bind_assoc] at hg
    obtain ⟨_, e₁, h₁, hg⟩ := gives_bind.1 hg
    obtain ⟨ss, hprints, hc, hscope, w₁⟩ := instruction_continues S L hi hstep w h₁
    obtain ⟨ss', S', htrans, hc', hscope'⟩ := ih target (fun j hj => hW (List.mem_cons_of_mem _ hj))
      ⟨hs.blocks, hs.opened, hs.proper, hs.budget⟩ w₁ (hphis.mono hc.toLe)
      (fun i hi => List.mem_append_left _ (hxs i hi)) (by
        cases target with
        | none => exact hlast
        | some p =>
          exact ⟨hlast.1, List.mem_append_left _ hlast.2.1,
            Emission.isSome_lookup_of_suffix hc.exprs hlast.2.2.1, hlast.2.2.2⟩) hg
    refine ⟨ss ++ ss', S', .plain hprints (hc.outputs ▸ htrans), ?_, ?_⟩
    · rw [List.map_append, List.append_assoc]
      exact hc.trans (hc.indent ▸ hc')
    · refine ⟨hscope.append hscope'.1, ?_⟩
      rw [List.flatMap_append, ← List.append_assoc]
      exact hscope'.2
  | @select Γ Γ₁ Γ₂ Γ' c yes no rest ty test a a' o htest _ _ hty hsc hfy hfn _ ihy ihn ihr =>
    obtain ⟨n, rfl, hsy, hsn, hsr⟩ := hs.parts
    obtain ⟨hframe, hWy, hWn, hWr⟩ := Code.forall_mem_select.1 hW
    obtain ⟨hstop, hnodup⟩ := List.nodup_cons.1 hs.opened
    obtain ⟨-, hym, hnm⟩ := (Code.nodup_select hnodup).1
    have hlasts := Code.lastLabel_ne hnodup
    have hmerge : c.merge ≠ 0 := fun h => hs.proper (h ▸ by simp [Code.opened])
    have hmstop : c.merge ≠ stop := fun h => hstop (h ▸ by simp [Code.opened])
    obtain ⟨hphisy, hphis⟩ := List.forall_mem_append.1 hphis
    obtain ⟨hphisn, hphis⟩ := List.forall_mem_append.1 hphis
    obtain ⟨⟨hexpr, htype⟩, hphisr⟩ := List.forall_mem_cons.1 hphis
    obtain ⟨hxsy, hxs⟩ := List.forall_mem_append.1 hxs
    obtain ⟨hxsn, hxs⟩ := List.forall_mem_append.1 hxs
    obtain ⟨hxsc, hxsr⟩ := List.forall_mem_cons.1 hxs
    -- the phi of the merge block takes the values of the arms
    have hphi : c.phi (yes.lastLabel c.yes) (no.lastLabel c.no) ∈ W := hframe _ (by simp)
    have hb := hsr.blocks _ (headOf_mem _ last rest)
    rw [headOf_label] at hb
    have hhead := headOf_phis (Tables.emptyBlock c.merge
      [c.phi (yes.lastLabel c.yes) (no.lastLabel c.no)]) last rest
    have hyes := assigns_phi S L hphi hb hhead hlasts (.inl ⟨rfl, rfl⟩) hsc hfy
    have hno := assigns_phi S L hphi hb hhead hlasts (.inr ⟨rfl, rfl⟩) hsc hfn
    have hg : Gives (Emit.ending t (n + 1) (headOf b last (.select c yes no rest)) b.label stop) e u e' := by
      obtain ⟨_, e₀, h₀, hg⟩ := gives_bind.1 hg
      exact (gives_pure.1 h₀).2 ▸ hg
    rw [headOf, Choice.branching, Emit.ending] at hg
    dsimp only at hg
    rw [if_neg (by decide), if_neg (by decide), if_pos rfl, if_neg hmerge] at hg
    obtain ⟨x, hx, hg⟩ := gives_lift_bind.1 hg
    cases hx
    obtain ⟨v, e₁, h₁, hg⟩ := gives_bind.1 hg
    obtain ⟨hspells, hmention, names, rfl⟩ := value_continues S L w htest rfl h₁
    obtain ⟨_, e₂, h₂, hg⟩ := gives_bind.1 hg
    have c₂ : e.Continues t bs s.decls W [indented e.indent ("if (" ++ v ++ ")")] e₂ := by
      rw [gives_line h₂]
      exact w.adds names e.visited _
    have w₂ := w.continues c₂
    -- the arm of a condition that holds
    obtain ⟨l, hl, hg⟩ := gives_lift_bind.1 hg
    cases hl
    obtain ⟨_, e₃, h₃, hg⟩ := gives_bind.1 hg
    obtain ⟨ssy, Sy, htransy, c₃, hscopey⟩ := arm_prints (some (c.result, c.fromYes)) hsy hym w₂
      (fun hle w hg => ihy _ hWy hsy w (Emission.Declares.mono hphisy (c₂.toLe.trans hle)) hxsy
        ⟨rfl, hxsc, Emission.isSome_lookup_of_suffix (c₂.toLe.trans hle).exprs hexpr, hyes⟩ hg) h₃
    have c₃ := c₂.trans c₃
    obtain ⟨_, e₄, h₄, hg⟩ := gives_bind.1 hg
    have c₄ := c₃.trans ((w.continues c₃).line h₄)
    -- the arm of one that does not
    obtain ⟨l', hl', hg⟩ := gives_lift_bind.1 hg
    cases hl'
    obtain ⟨_, e₅, h₅, hg⟩ := gives_bind.1 hg
    obtain ⟨ssn, Sn, htransn, c₅, hscopen⟩ := arm_prints (some (c.result, c.fromNo)) hsn hnm
      (w.continues c₄) (fun hle w hg => ihn _ hWn hsn w (Emission.Declares.mono hphisn (c₄.toLe.trans hle)) hxsn
        ⟨rfl, hxsc, Emission.isSome_lookup_of_suffix (c₄.toLe.trans hle).exprs hexpr, hno⟩ hg) h₅
    have c₅ := c₄.trans c₅
    -- what follows knows the value of the phi
    obtain ⟨e₆, c₆, h₆⟩ := enter_prints hsr hmstop (w.continues c₅) hg
    have c₆ := c₅.trans c₆
    have w₆ : Writing t bs s.decls W xs
        ((c.result, ty, Datum.value (if I.truth test = true then a else a')) :: Γ) e₆ := by
      have w₆ := w.continues c₆
      refine ⟨w₆.sound, List.forall_mem_cons.2 ⟨?_, w₆.tells⟩, w₆.speaks, List.forall_mem_cons.2 ⟨?_, w₆.held⟩⟩
      · refine Emission.Tells.mono c₆.toLe ⟨fun _ => hexpr, fun _ => ⟨_, htype, hty⟩, ?_, ?_⟩
        · rintro ⟨k, hk⟩
          exact absurd hk (ne_of_named (named_of_component hsc) k)
        · rintro k c rfl
          cases hsc
      · refine .local_ hphi rfl (not_silent_of_opcode ?_) hxsc (isLocal_of_component hsc)
        show Opcode.phi ∉ _
        decide
    obtain ⟨ssr, Sr, htransr, c₇, hscoper⟩ := ihr target hWr hsr w₆ (Emission.Declares.mono hphisr c₆.toLe) hxsr
      (by
        cases target with
        | none => exact hlast
        | some p =>
          exact ⟨hlast.1, hlast.2.1, Emission.isSome_lookup_of_suffix c₆.exprs hlast.2.2.1, hlast.2.2.2⟩) h₆
    have c₇ := c₆.trans c₇
    refine ⟨[], .choice b.label v (.block c.yes ssy Sy) (.block c.no ssn Sn) (.block c.merge ssr Sr),
      .select hspells ?_ ?_ ?_, ?_, trivial, ?_⟩
    · rwa [c₂.outputs] at htransy
    · rwa [c₄.outputs] at htransn
    · rwa [c₆.outputs] at htransr
    · rw [c₂.indent, c₃.indent, c₄.indent, c₆.indent] at c₇
      simpa only [Script.lines, List.map_nil, List.nil_append, List.append_nil, List.append_assoc, List.cons_append]
        using c₇
    · rw [List.flatMap_nil, List.append_nil]
      exact ⟨hmention, hscopey, hscopen, hscoper⟩

end Code

/-! ### Before the function -/

/-- **Declarations introduce variables**: no expression is known but theirs. -/
structure Emission.Introduces (bs : List Binding) (e e' : Emission) : Prop where
  exprs : ∀ p ∈ e'.exprs, p ∈ e.exprs ∨ ∃ b ∈ bs, p = (b.variable_, variableText b)
  sampled : e'.sampled = e.sampled
  indent : e'.indent = e.indent

section Preamble

variable {t : Tables} {bs : List Binding} {model : ExecutionModel}

theorem Emission.Introduces.refl (e : Emission) : e.Introduces bs e := ⟨fun _ => .inl, rfl, rfl⟩

theorem Emission.Introduces.trans (e e' e'' : Emission) (h : e.Introduces bs e') (h' : e'.Introduces bs e'') :
    e.Introduces bs e'' :=
  ⟨fun p hp => (h'.exprs p hp).elim (h.exprs p) .inr, h'.sampled.trans h.sampled, h'.indent.trans h.indent⟩

/-- A step that introduces variables at most. -/
def Introducing (bs : List Binding) {α : Type} (x : Emit α) : Prop := Every (Emission.Introduces bs) x

theorem introducing_bind {α β : Type} {x : Emit α} {f : α → Emit β} (hx : Introducing bs x)
    (hf : ∀ a, Introducing bs (f a)) : Introducing bs (x >>= f) := every_bind Emission.Introduces.trans hx hf

theorem introducing_pure {α : Type} (a : α) : Introducing bs (pure a : Emit α) := every_pure Emission.Introduces.refl a

theorem introducing_modify {f : Emission → Emission} (h : ∀ e : Emission, e.Introduces bs (f e)) :
    Introducing bs (modify f : Emit PUnit) := by
  intro e u e' hg
  rw [gives_modify.1 hg]
  exact h e

theorem introducing_line (s : String) : Introducing bs (Emit.line s) :=
  introducing_modify fun _ => ⟨fun _ => .inl, rfl, rfl⟩

theorem introducing_forM {α : Type} {f : α → Emit PUnit} {l : List α} (h : ∀ a ∈ l, Introducing bs (f a)) :
    Introducing bs (l.forM f) := every_forM Emission.Introduces.refl Emission.Introduces.trans h

theorem introducing_mapM {α β : Type} {f : α → Emit β} {l : List α} (h : ∀ a ∈ l, Introducing bs (f a)) :
    Introducing bs (l.mapM f) := every_mapM Emission.Introduces.refl Emission.Introduces.trans h

/-- A variable is introduced. -/
theorem introducing_variable {b : Binding} (hb : b ∈ bs) {text : String} (ht : text = variableText b) :
    Introducing bs (Emit.setExpr b.variable_ text) :=
  introducing_modify fun _ => ⟨List.forall_mem_cons.2 ⟨.inr ⟨b, hb, by rw [ht]⟩, fun _ => .inl⟩, rfl, rfl⟩

theorem introducing_naming {α : Type} (step : Naming α) : Introducing bs (Emit.naming step) := by
  intro e a e' hg
  obtain ⟨names, rfl, -⟩ := gives_naming hg
  exact ⟨fun _ => .inl, rfl, rfl⟩

theorem introducing_structDecl (name : String) (members : List String) :
    Introducing bs (Emit.structDecl name members) :=
  introducing_bind (introducing_line _) fun _ => introducing_bind (introducing_line _) fun _ =>
    introducing_bind (introducing_forM fun _ _ => introducing_line _) fun _ =>
      introducing_bind (introducing_line _) fun _ => introducing_line _

/-- The text of a variable that is a parameter. -/
theorem variableText_parameter {b : Binding} (hout : b.kind ≠ .stageOutput) (hin : b.kind ≠ .stageInput) :
    b.name = variableText b := by
  rw [variableText]
  split
  · rename_i h
    exact absurd h hout
  · rename_i h
    exact absurd h hin
  · rfl

theorem introducing_stageStructs : Introducing bs (Emit.stageStructs model bs) := by
  have hdecl : ∀ (c : Bool) (name : String) (ms : List String) (k : Emit Unit), Introducing bs k →
      Introducing bs (if c then do Emit.structDecl name ms; k else k) := by
    intro c name ms k hk
    split
    · exact introducing_bind (introducing_structDecl name ms) fun _ => hk
    · exact hk
  refine introducing_bind (introducing_forM fun b hb => ?_) fun _ => introducing_bind
    (introducing_forM fun b hb => ?_) fun _ => hdecl _ _ _ _ (hdecl _ _ _ _ (introducing_modify fun _ =>
      ⟨fun _ => .inl, rfl, rfl⟩))
  · obtain ⟨hb, hkind⟩ := mem_ofClass.1 hb
    exact introducing_variable hb (by rw [variableText, hkind])
  · obtain ⟨hb, hkind⟩ := mem_ofClass.1 hb
    exact introducing_variable hb (by rw [variableText, hkind])

theorem introducing_parameters : Introducing bs (Emit.parameters t bs) := by
  have hparameter : ∀ {b : Binding} {kind : ResourceClass} {α : Type} (a : α), b ∈ bs → b.kind = kind →
      kind ≠ .stageOutput → kind ≠ .stageInput →
      Introducing bs (do Emit.setExpr b.variable_ b.name; return a : Emit α) :=
    fun a hb hkind hout hin => introducing_bind
      (introducing_variable hb (variableText_parameter (hkind ▸ hout) (hkind ▸ hin))) fun _ => introducing_pure a
  refine every_get_bind fun e => introducing_bind (introducing_mapM fun b hb => ?_) fun _ =>
    introducing_bind (introducing_mapM fun b hb => ?_) fun _ =>
      introducing_bind (introducing_mapM fun b hb => ?_) fun _ => introducing_pure _
  · obtain ⟨hb, hkind⟩ := mem_ofClass.1 hb
    exact hparameter _ hb hkind (by decide) (by decide)
  · obtain ⟨hb, hkind⟩ := mem_textures.1 hb
    refine every_get_bind fun e => introducing_bind (introducing_naming _) fun type => hparameter _ hb rfl ?_ ?_
    · intro h
      rw [h] at hkind
      cases hkind
    · intro h
      rw [h] at hkind
      cases hkind
  · obtain ⟨hb, hkind⟩ := mem_ofClass.1 hb
    exact hparameter _ hb hkind (by decide) (by decide)

theorem introducing_preamble : Introducing bs (Emit.preamble t model bs) := by
  refine introducing_bind (introducing_forM fun v _ => ?_) fun _ =>
    introducing_bind (introducing_forM fun s _ => introducing_line s) fun _ =>
      introducing_bind (introducing_forM fun b _ => introducing_structDecl _ _) fun _ =>
        introducing_bind introducing_stageStructs fun _ => introducing_parameters
  exact every_lift_bind fun info _ => introducing_modify fun _ => ⟨fun _ => .inl, rfl, rfl⟩

end Preamble

/-! ### The function -/

/-- **The lines of a function**: its head, and in braces its result, the locals of its phis and its script. -/
def functionLines (qualifier parameters : String) (out : Bool) (declared : List (String × UInt32)) (S : Script) :
    List String :=
  (qualifier ++ " " ++ (if out then "main0_out" else "void") ++ " main0(" ++ parameters ++ ")") :: "\x7b" ::
    ((if out then [indented 1 "main0_out out = \x7b\x7d;"] else []) ++
      declared.map (fun d => indented 1 (d.1 ++ " " ++ localName d.2 ++ ";")) ++ S.lines 1 ++ ["\x7d"])

theorem indented_zero (s : String) : indented 0 s = s := by
  rw [indented]
  split
  · rename_i h
    exact h.symm
  · exact String.empty_append

section Function

variable [NameLimit] {I : Interpretation} {t : Tables} {bs : List Binding} {s : Surroundings I}
  {A : List Instruction} {R : List UInt32} {globals W : List Instruction} {Γ : Context I} {c : Code}
  {o : List (Output I.Value)} {e e' : Emission} {xs : List UInt32} {u : Unit}

variable (S : Setting t s A R globals W) (L : Listed t bs)
include S L

omit [NameLimit] S L in
theorem text_local (type : String) (x : UInt32) : s!"{type} _{x};" = type ++ " " ++ localName x ++ ";" := by
  show type ++ " _" ++ toString x ++ ";" = type ++ " " ++ ("_" ++ toString x) ++ ";"
  rw [show (" _" : String) = " " ++ "_" from rfl]
  simp only [String.append_assoc]

omit [NameLimit] S L in
/-- The locals of phis are declared. -/
theorem declarePhis_prints {l : List Instruction} (hl : ∀ i ∈ l, i ∈ W ∧ i.opcode = .phi)
    (hspeaks : e.Speaks t bs W) (hg : Gives (l.forM (Emit.declarePhi t)) e u e') :
    ∃ declared : List (String × UInt32), declared.map (·.2) = l.map (·.result) ∧ e'.Speaks t bs W ∧
      e.Adds (declared.map fun d => indented e.indent (d.1 ++ " " ++ localName d.2 ++ ";")) e' := by
  induction l generalizing e with
  | nil =>
    obtain ⟨-, rfl⟩ := gives_pure.1 hg
    exact ⟨[], rfl, hspeaks, .refl _⟩
  | cons i l ih =>
    obtain ⟨⟨hi, hop⟩, hl⟩ := List.forall_mem_cons.1 hl
    obtain ⟨_, e₄, h₄, hg⟩ := gives_bind.1 hg
    obtain ⟨type, e₁, h₁, h₄⟩ := gives_bind.1 h₄
    obtain ⟨names, rfl, -⟩ := gives_naming h₁
    obtain ⟨_, e₂, h₂, h₄⟩ := gives_bind.1 h₄
    obtain ⟨_, e₃, h₃, h₄⟩ := gives_bind.1 h₄
    have heq : e₄ = { e with
        names
        lines := e.lines.push (indented e.indent (type ++ " " ++ localName i.result ++ ";"))
        exprs := (i.result, localName i.result) :: e.exprs
        valueTypes := (i.result, i.resultType) :: e.valueTypes } := by
      rw [gives_modify.1 h₄, gives_modify.1 h₃, gives_line h₂, text_local]
      rfl
    have hresult : i.result? = some i.result := by
      rw [Instruction.result?, if_pos (by rw [hop]; rfl)]
    have hspeaks₄ : e₄.Speaks t bs W := by
      rw [heq]
      refine ⟨List.forall_mem_cons.2 ⟨.local_ hi hresult (not_silent_of_opcode ?_), hspeaks.exprs⟩, hspeaks.sampled⟩
      rw [hop]
      decide
    obtain ⟨declared, hdeclared, hspeaks', hadds⟩ := ih hl hspeaks₄ hg
    have hadds₄ : e.Adds [indented e.indent (type ++ " " ++ localName i.result ++ ";")] e₄ := by
      rw [heq]
      exact ⟨Array.toList_push, rfl, rfl⟩
    refine ⟨(type, i.result) :: declared, by rw [List.map_cons, List.map_cons, hdeclared], hspeaks', ?_⟩
    rw [hadds₄.indent] at hadds
    exact hadds₄.trans hadds

/-- **What is written for a function** are its lines, with the script of its code. -/
theorem function_prints {first entry : UInt32} {model : ExecutionModel} {params : List String}
    (h : Runs s [] c Γ o) (hW : c.instructions ⊆ W)
    (hblocks : t.blocks = Tables.blocksOf (Tables.emptyBlock first []) ⟨.returnVoid, []⟩ c)
    (hnodup : (first :: c.opened).Nodup) (hzero : 0 ∉ first :: c.opened) (he : e.Sound s.decls W)
    (hspeaks : e.Speaks t bs W) (hindent : e.indent = 0)
    (hg : Gives (Emit.function t model entry params) e u e') :
    ∃ (qualifier : String) (declared : List (String × UInt32)) (ss : List Statement) (Sc : Script),
      Emit.qualifier? model = some qualifier ∧
      declared.map (·.2) = c.phis.map (·.result) ∧ Transcribed t bs W e.hasOutputs none first c ss Sc ∧
      (Script.block first ss Sc).Scoped (c.phis.map (·.result)) ∧
      e'.lines.toList = e.lines.toList ++ functionLines qualifier (", ".intercalate params) e.hasOutputs declared
        (.block first ss Sc) := by
  rw [Emit.function] at hg
  split at hg
  · cases (gives_lift.1 hg).1
  rename_i qualifier hqualifier
  rw [gives_get_bind] at hg
  obtain ⟨_, e₁, h₁, hg⟩ := gives_bind.1 hg
  have w : Writing t bs s.decls W (c.phis.map (·.result)) ([] : Context I) e :=
    ⟨he, List.forall_mem_nil _, hspeaks, List.forall_mem_nil _⟩
  have c₁ := w.line h₁
  have w₁ := w.continues c₁
  obtain ⟨e₂, u₂, e₃, hdepth, hle, hout, w₂, h₃, hbraces⟩ := gives_braces w₁ hg
  rw [phis_of_blocks hblocks hnodup hzero, first_of_blocks hblocks hzero, t.rounds_eq] at h₃
  -- the declarations of the phis, and the blocks
  have hbody : ∀ {e₄ : Emission}, Writing t bs s.decls W (c.phis.map (·.result)) ([] : Context I) e₄ →
      Gives (do
        c.phis.forM (Emit.declarePhi t)
        Emit.blocksFrom t (t.limit.rounds + t.blocks.length + 1 + 1) first 0) e₄ u₂ e₃ →
      ∃ (declared : List (String × UInt32)) (ss : List Statement) (Sc : Script),
        declared.map (·.2) = c.phis.map (·.result) ∧ Transcribed t bs W e₄.hasOutputs none first c ss Sc ∧
        (Script.block first ss Sc).Scoped (c.phis.map (·.result)) ∧
        e₄.Continues t bs s.decls W
          (declared.map (fun d => indented e₄.indent (d.1 ++ " " ++ localName d.2 ++ ";")) ++
            (Script.block first ss Sc).lines e₄.indent) e₃ := by
    intro e₄ w₄ hg
    obtain ⟨_, e₅, h₅, hg⟩ := gives_bind.1 hg
    obtain ⟨hwrites, hdeclares⟩ := (declarePhis_spec S w₄.sound (phis_declarable h hW)).of_gives h₅
    obtain ⟨declared, hdeclared, hspeaks₅, hadds⟩ := declarePhis_prints
      (fun i hi => ⟨hW (phis_typed h i hi).2.1, (phis_typed h i hi).1⟩) w₄.speaks h₅
    have c₅ : e₄.Continues t bs s.decls W _ e₅ := ⟨hadds, hwrites.toLe, hwrites.sound w₄.sound, hspeaks₅⟩
    have hstretch := stretch_of_blocks hblocks hnodup hzero
      (show t.blocks.length ≤ t.limit.rounds + t.blocks.length + 1 by omega)
    obtain ⟨e₆, c₆, hg⟩ := enter_prints hstretch (fun h => hzero (h ▸ List.mem_cons_self)) (w₄.continues c₅) hg
    have c₆' := c₅.trans c₆
    obtain ⟨ss, Sc, htrans, c₇, hscope⟩ := walk_prints S L none h hW hstretch (w₄.continues c₆')
      (hdeclares.mono c₆.toLe) (fun i hi => List.mem_map_of_mem hi) rfl hg
    have hc := c₆'.trans c₇
    rw [c₆'.indent, List.append_nil] at hc
    exact ⟨declared, ss, Sc, hdeclared, c₆'.outputs ▸ htrans, hscope, hc⟩
  have hlines : ∀ {ls : List String}, e₂.Continues t bs s.decls W ls e₃ → e'.lines.toList = e.lines.toList ++
      ((qualifier ++ " " ++ (if e.hasOutputs then "main0_out" else "void") ++ " main0(" ++
        ", ".intercalate params ++ ")") :: "\x7b" :: (ls ++ ["\x7d"])) := by
    intro ls hc
    have h := (c₁.trans (hbraces ls hc)).lines
    rw [c₁.indent, hindent, indented_zero, indented_zero, indented_zero] at h
    exact h
  rw [c₁.indent, hindent] at hdepth
  rw [c₁.outputs] at hout
  split at h₃
  · rename_i houtputs
    obtain ⟨_, e₄, h₄, h₃⟩ := gives_bind.1 h₃
    have c₄ := w₂.line h₄
    obtain ⟨declared, ss, Sc, hdeclared, htrans, hscope, hc⟩ := hbody (w₂.continues c₄) h₃
    rw [c₄.outputs, hout] at htrans
    rw [c₄.indent, hdepth] at hc
    rw [hdepth] at c₄
    refine ⟨qualifier, declared, ss, Sc, hqualifier, hdeclared, htrans, hscope, ?_⟩
    rw [hlines (c₄.trans hc), functionLines, if_pos houtputs]
    simp only [if_pos houtputs, List.append_assoc]
  · rename_i houtputs
    obtain ⟨declared, ss, Sc, hdeclared, htrans, hscope, hc⟩ := hbody w₂ h₃
    rw [hout] at htrans
    rw [hdepth] at hc
    refine ⟨qualifier, declared, ss, Sc, hqualifier, hdeclared, htrans, hscope, ?_⟩
    rw [hlines hc, functionLines, if_neg houtputs]
    simp only [if_neg houtputs, List.append_assoc, List.nil_append]

end Function

/-! ### Programs -/

/-- The phis of the blocks of code, in order. -/
theorem phisOf_blocks {c : Code} {pre : List Instruction} {last : Instruction} (hc : c.Ordinary)
    (hlast : last.opcode ≠ .phi) (l : UInt32) :
    (c.blocks l pre last).flatMap phisOf = pre.filter (·.opcode = .phi) ++ c.phis := by
  induction c generalizing pre last l with
  | done =>
    rw [Code.blocks, List.flatMap_singleton, phisOf_head (List.forall_mem_singleton.2 hlast)]
    exact (List.append_nil _).symm
  | plain i rest ih =>
    have hi : i.opcode ≠ .phi := fun h => hc.1 (by rw [h]; decide)
    rw [Code.blocks, ih hc.2 hlast, List.filter_append, List.filter_singleton, decide_eq_false hi]
    simp [Code.phis]
  | select c yes no rest ihy ihn ihr =>
    have hgoto : (goto c.merge).opcode ≠ .phi := by
      show Opcode.branch ≠ _
      decide
    have hhead : ∀ i ∈ [c.merging, c.branching], i.opcode ≠ .phi := by
      simp only [List.forall_mem_cons, List.not_mem_nil, false_implies, implies_true, and_true]
      exact ⟨by show Opcode.selectionMerge ≠ _; decide, by show Opcode.branchConditional ≠ _; decide⟩
    rw [Code.blocks, List.flatMap_cons, List.flatMap_append, List.flatMap_append, ihy hc.1 hgoto,
      ihn hc.2.1 hgoto, ihr hc.2.2 hlast, phisOf_head hhead, Code.phis]
    simp only [List.filter_nil, List.nil_append, List.append_assoc]
    rfl

/-- The labels of the blocks of code. -/
theorem labels_blocks (l : UInt32) (pre : List Instruction) (last : Instruction) (c : Code) :
    (c.blocks l pre last).map (·.label) = l :: c.opened := by
  induction c generalizing l pre last with
  | done => rfl
  | plain i rest ih => exact ih l _ last
  | select c yes no rest ihy ihn ihr =>
    rw [Code.blocks, List.map_cons, List.map_append, List.map_append, ihy, ihn, ihr, Code.opened]

/-- **A program shows a function**: its source ends with the lines of a script that holds each block of the
function once, whose runs follow the paths of the function, and which uses locals where they are declared. -/
structure Program.Shows (r : Program) (t : Tables) (code : List Instruction) (S : Script) : Prop where
  source : ∃ (head : List String) (qualifier parameters : String) (out : Bool) (declared : List (String × UInt32)),
    r.source = String.join
      ((head ++ functionLines qualifier parameters out declared S).map (· ++ "\n")) ∧
    declared.map (·.2) = ((Spirv.blocks code).flatMap phisOf).map (·.result) ∧ S.Scoped (declared.map (·.2))
  blocks : List.Forall₂ (fun (b : Spirv.Block) p => b.label = p.1 ∧ PrintsAll t r.bindings code b.body p.2)
    (Spirv.blocks code) S.blocks
  once : (S.blocks.map (·.1)).Nodup
  follows : ∀ outcome : UInt32 → Bool, ∃ first, (Spirv.blocks code).head? = some first ∧
    Follows t r.bindings code (Spirv.blocks code) outcome first.label (S.run outcome [])

section Programs

variable [NameLimit] {I : Interpretation} {m : Module} {t : Tables} {s : Surroundings I}
  {A globals : List Instruction} {R : List UInt32} {c : Code} {Γ : Context I}
  {o : List (Output I.Value)} {model main first : UInt32} {r : Program}

omit [NameLimit] in
/-- The bindings that are reflected have the names of variables. -/
theorem listed_of_reflect {bs : List Binding} {names : Names} (hids : bs.map (·.variable_) = t.globals.map (·.id))
    (hvs : ∀ v ∈ t.globals, t.fallback v.id = "var") (h : (reflect t).run {} = .ok (bs, names)) : Listed t bs := by
  obtain ⟨hs, hbs⟩ := reflect_names hvs h
  refine ⟨hids, fun b hb => ?_⟩
  obtain ⟨v, -, hv⟩ := exists_of_mem_right hbs hb
  have hstart := (hs.coined _ hv.name).start
  exact ⟨hstart.1, hstart.2.1⟩

/-- **A program shows the function of its module.** -/
theorem Ready.shows (ready : Ready m t s A R globals model main first c) (h : Runs s [] c Γ o)
    (hvs : ∀ v ∈ t.globals, t.fallback v.id = "var") (hr : Program.ofModule m = .ok r) :
    ∃ S, r.Shows t (functionIn m.instructions) S := by
  obtain ⟨void, type, hcode, setting⟩ := ready.function
  obtain ⟨bindings, names, hreflect, hbs⟩ := reflect_spec ready.setting.toScope ready.setting.hold {}
  have hids := ids_of_reflects hbs
  have hlisted := listed_of_reflect hids hvs hreflect
  have hordinary := h.ordinary
  have hblocks := Code.blocks_functionOf hordinary main void type first
  have hW : c.instructions ⊆ functionOf main void type first c := fun i hi => by
    rw [functionOf]
    exact List.mem_append_left _ (List.mem_append_right _ hi)
  rw [hcode]
  generalize functionOf main void type first c = W at *
  -- what is written before the function, and the function
  rw [Program.ofModule_eq ready.load] at hr
  obtain ⟨⟨bindings', names'⟩, hreflect', hr⟩ := bind_eq_ok.1 hr
  cases hreflect.symm.trans hreflect'
  rw [ready.entry] at hr
  obtain ⟨⟨u, e⟩, hsource, hr⟩ := bind_eq_ok.1 hr
  cases hr
  have hsource : Gives (Emit.source t (.ofCode model) main bindings) { names } u e := hsource
  rw [source_eq] at hsource
  obtain ⟨params, e₁, h₁, h₂⟩ := gives_bind.1 hsource
  obtain ⟨hsound, -⟩ := (preamble_spec setting hids names).of_gives h₁
  have hintroduces := introducing_preamble h₁
  have hspeaks : e₁.Speaks t bindings W := by
    refine ⟨fun p hp => ?_, fun p hp => ?_⟩
    · rcases hintroduces.exprs p hp with hp | ⟨b, hb, rfl⟩
      · cases hp
      · exact .place (.variable_ hb)
    · rw [hintroduces.sampled] at hp
      cases hp
  obtain ⟨qualifier, declared, ss, Sc, -, hdeclared, htrans, hscope, hlines⟩ := function_prints setting hlisted h hW
    ready.blocks ready.opened ready.proper hsound hspeaks hintroduces.indent h₂
  have hreturn : (⟨.returnVoid, []⟩ : Instruction).opcode ∈ Code.controlOps := by decide
  have hprints := htrans.blocks hreturn .nil
  refine ⟨.block first ss Sc, ⟨e₁.lines.toList, qualifier,
    ", ".intercalate params, e₁.hasOutputs, declared, ?_, ?_, ?_⟩, hblocks ▸ hprints,
    ?_, fun outcome => ?_⟩
  · show String.join _ = _
    rw [hlines]
  · rw [hblocks, phisOf_blocks hordinary (by decide), hdeclared]
    rfl
  · rwa [hdeclared]
  · have hlabels : (Script.block first ss Sc).blocks.map (·.1) = (Spirv.blocks W).map (·.label) := by
      rw [hblocks, ← List.forall₂_eq_eq_eq, List.forall₂_map_left_iff, List.forall₂_map_right_iff]
      exact hprints.flip.imp fun _ _ h => h.1.symm
    rw [hlabels, hblocks, labels_blocks]
    exact ready.opened
  · obtain ⟨body, more, heq, -⟩ := head_of_blocks hordinary (show (⟨.returnVoid, []⟩ : Instruction).opcode ≠ .phi by decide) first []
    refine ⟨_, by rw [hblocks, heq]; rfl, ?_⟩
    exact htrans.follows hordinary (List.nodup_cons.1 ready.opened).2 .nil .nil
      (hblocks ▸ List.Subset.refl _) rfl

end Programs

end NodeShader.Metal
