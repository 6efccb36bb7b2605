import Mathlib
import NodeShader.Proofs.Stage.Coding
import NodeShader.Stage.Fold

/-!
# Expressions, evaluated and run

An expression has two readings: it can be evaluated, and it can be written as instructions.  Read as
the arithmetic functions they stand for (`Interpretation.evaluating`), the instructions compute what
evaluation gives, once the literals have the precision of the type the code is written for
(`Expr.rounded`).

* `eval_isOk`: evaluation gives a value wherever the inputs have one; `eval_call` is one call, whose
  function has all the arguments it takes.
* `exprValue_evaluating`: what the instructions of an expression compute, by induction on it.
* `writeExpression_evaluates`: **the code of an expression node** leaves the value of its expression.
-/

namespace NodeShader

open Spirv

namespace Math

/-- The arithmetic function whose instruction on floating point numbers this is. -/
def Operation.ofInstruction? (op : Opcode) (literals : List UInt32) : Option Operation :=
  all.find? fun f => f.instruction false = (op, literals)

/-- No two functions have one instruction. -/
theorem Operation.ofInstruction?_instruction (f : Operation) :
    ofInstruction? (f.instruction false).1 (f.instruction false).2 = some f := by
  cases f with
  | mix => decide
  | unary f => cases f <;> decide
  | binary f => cases f <;> decide

namespace Expr

/-- The expression with its literals at the precision of a type. -/
def rounded (t : ValueType) : Expr → Expr
  | number v => number (t.round v)
  | input name => input name
  | unary f x => unary f (x.rounded t)
  | binary f x y => binary f (x.rounded t) (y.rounded t)
  | mix x y s => mix (x.rounded t) (y.rounded t) (s.rounded t)

/-! ### Evaluation -/

/-- A call is evaluated at the values of its arguments, which are as many as its function takes. -/
theorem eval_call {e : Expr} {f : Operation} {args : List Expr} {vs : List Float}
    {env : String → Option Float} (h : e.call? = some (f, args))
    (hvs : args.mapM (·.eval env) = .ok vs) :
    ∃ r, f.valueAt? vs = some r ∧ e.eval env = .ok r := by
  rw [mapM_eq_ok] at hvs
  cases e with
  | number v => cases h
  | input name => cases h
  | unary g x =>
    cases h
    obtain _ | ⟨hx, ⟨⟩⟩ := hvs
    exact ⟨_, rfl, by rw [eval, hx]; rfl⟩
  | binary g x y =>
    cases h
    obtain _ | ⟨hx, _ | ⟨hy, ⟨⟩⟩⟩ := hvs
    exact ⟨_, rfl, by rw [eval, hx, hy]; rfl⟩
  | mix x y s =>
    cases h
    obtain _ | ⟨hx, _ | ⟨hy, _ | ⟨hs, ⟨⟩⟩⟩⟩ := hvs
    exact ⟨_, rfl, by rw [eval, hx, hy, hs]; rfl⟩

theorem call?_rounded {e : Expr} {f : Operation} {args : List Expr} (t : ValueType)
    (h : e.call? = some (f, args)) : (e.rounded t).call? = some (f, args.map (rounded t)) := by
  cases e <;> cases h <;> rfl

/-- The inputs are where they occur. -/
theorem mem_inputs {e : Expr} {name : String} : name ∈ e.inputs ↔ name ∈ e.occurrences := by
  rw [inputs, List.mem_mergeSort, List.mem_eraseDups]

/-- The inputs are listed in order, each once. -/
theorem inputs_sorted (e : Expr) : e.inputs.Pairwise (· ≤ ·) ∧ e.inputs.Nodup := by
  have htrans : ∀ a b c : String, decide (a ≤ b) = true → decide (b ≤ c) = true →
      decide (a ≤ c) = true := fun a b c hab hbc =>
    decide_eq_true (String.le_trans (of_decide_eq_true hab) (of_decide_eq_true hbc))
  have htotal : ∀ a b : String, (decide (a ≤ b) || decide (b ≤ a)) = true := fun a b => by
    simpa using String.le_total a b
  refine ⟨(List.pairwise_mergeSort htrans htotal _).imp of_decide_eq_true, ?_⟩
  exact (List.mergeSort_perm _ _).nodup_iff.2 (nodup_eraseDups _)

/-- **Evaluation gives a value** wherever the inputs have one. -/
theorem eval_isOk {e : Expr} {env : String → Option Float}
    (h : ∀ name ∈ e.occurrences, ∃ v, env name = some v) : ∃ r, e.eval env = .ok r := by
  induction e with
  | number v => exact ⟨v, rfl⟩
  | input name =>
    obtain ⟨v, hv⟩ := h name (List.mem_singleton_self name)
    exact ⟨v, by rw [eval, hv]⟩
  | unary f x ihx =>
    obtain ⟨r, hr⟩ := ihx h
    exact ⟨f.apply r, by rw [eval, hr]; rfl⟩
  | binary f x y ihx ihy =>
    rw [occurrences, List.forall_mem_append] at h
    obtain ⟨r, hr⟩ := ihx h.1
    obtain ⟨s, hs⟩ := ihy h.2
    exact ⟨f.apply r s, by rw [eval, hr, hs]; rfl⟩
  | mix x y t ihx ihy iht =>
    rw [occurrences, List.forall_mem_append, List.forall_mem_append] at h
    obtain ⟨r, hr⟩ := ihx h.1.1
    obtain ⟨s, hs⟩ := ihy h.1.2
    obtain ⟨u, hu⟩ := iht h.2
    exact ⟨blend r s u, by rw [eval, hr, hs, hu]; rfl⟩

end Expr

end Math

/-! ### Running -/

namespace Spirv

/-- **Instructions as the arithmetic functions whose rule they are.**  Every value is a number; a
constant is the number its word stands for, and open inputs are 0. -/
abbrev Interpretation.evaluating : Interpretation where
  Value := Float
  truth x := x != 0
  ofBool b := if b then 1 else 0
  truth_ofBool := by decide
  zero _ := 0
  scalar t w := if t = .float 16 then floatOfHalf w else floatOfSingle w
  composite _ vs := vs.headD 0
  apply op literals _ args := ((Math.Operation.ofInstruction? op literals).bind (·.valueAt? args)).getD 0
  member _ := 0
  input _ := 0
  invocation := 0
  image _ := 0
  sampler _ := 0

end Spirv

variable {t : ValueType}

/-- A literal as a constant of a floating scalar type. -/
theorem numbers_evaluating (ht : t = .float ∨ t = .half) (v : Float) :
    Interpretation.evaluating.numbers t [v] = t.round v := by
  rcases ht with rfl | rfl
  · rfl
  · rfl

theorem operation_evaluating (ht : t = .float ∨ t = .half) (f : Math.Operation) (args : List Float) :
    Interpretation.evaluating.operation f t args = (f.valueAt? args).getD 0 := by
  have hint : t.isInt = false := by rcases ht with rfl | rfl <;> rfl
  rw [Interpretation.operation, hint]
  show ((Math.Operation.ofInstruction? _ _).bind _).getD 0 = _
  rw [Math.Operation.ofInstruction?_instruction, Option.bind_some]

/-- The code of a call computes what it evaluates to, from what its arguments do. -/
theorem exprValue_evaluating_call {g : Graph} {n : Node} {input : PortId → Option Float}
    {env : String → Option Float} {e : Math.Expr} {f : Math.Operation} {args : List Math.Expr}
    {r : Float} (ht : t = .float ∨ t = .half) (hcall : e.call? = some (f, args))
    (hargs : ∀ a ∈ args, ∀ v, g.exprValue .evaluating input n t a = some v →
      (a.rounded t).eval env = .ok v)
    (h : g.exprValue .evaluating input n t e = some r) : (e.rounded t).eval env = .ok r := by
  rw [Drafting.exprValue_call hcall] at h
  obtain ⟨vs, hvs, h⟩ := Option.bind_eq_some_iff.1 h
  obtain rfl : Interpretation.evaluating.operation f t vs = r := Option.some.inj h
  have heval : (args.map (Math.Expr.rounded t)).mapM (·.eval env) = .ok vs := by
    rw [mapM_eq_ok, List.forall₂_map_left_iff]
    rw [mapM_eq_some] at hvs
    exact forall₂_imp_mem hvs fun a ha v _ hv => hargs a ha v hv
  obtain ⟨r, hr, hcalled⟩ := Math.Expr.eval_call (Math.Expr.call?_rounded t hcall) heval
  rw [hcalled, operation_evaluating ht, hr]
  rfl

/-- **The code of an expression computes what the expression evaluates to**, with its literals at the
precision of the type. -/
theorem exprValue_evaluating {g : Graph} {n : Node} {vals : PortId → Float} {e : Math.Expr} {r : Float}
    (ht : t = .float ∨ t = .half)
    (h : g.exprValue .evaluating (fun q => some (vals q)) n t e = some r) :
    (e.rounded t).eval (fun name => (g.inputNamed n name).toOption.map vals) = .ok r := by
  induction e generalizing r with
  | number v =>
    obtain rfl : Interpretation.evaluating.numbers t [v] = r := Option.some.inj h
    rw [numbers_evaluating ht]
    rfl
  | input name =>
    rw [Graph.exprValue] at h
    rw [Math.Expr.rounded, Math.Expr.eval]
    cases hq : g.inputNamed n name with
    | error fault =>
      rw [hq] at h
      cases h
    | ok q =>
      rw [hq] at h
      obtain rfl : vals q = r := Option.some.inj h
      rfl
  | unary f x ihx =>
    have hcall : (Math.Expr.unary f x).call? = some (.unary f, [x]) := rfl
    refine exprValue_evaluating_call ht hcall ?_ h
    intro a ha v hv
    rw [List.mem_singleton.1 ha] at hv ⊢
    exact ihx hv
  | binary f x y ihx ihy =>
    have hcall : (Math.Expr.binary f x y).call? = some (.binary f, [x, y]) := rfl
    refine exprValue_evaluating_call ht hcall ?_ h
    intro a ha v hv
    simp only [List.mem_cons, List.not_mem_nil, or_false] at ha
    rcases ha with rfl | rfl
    · exact ihx hv
    · exact ihy hv
  | mix x y s ihx ihy ihs =>
    have hcall : (Math.Expr.mix x y s).call? = some (.mix, [x, y, s]) := rfl
    refine exprValue_evaluating_call ht hcall ?_ h
    intro a ha v hv
    simp only [List.mem_cons, List.not_mem_nil, or_false] at ha
    rcases ha with rfl | rfl | rfl
    · exact ihx hv
    · exact ihy hv
    · exact ihs hv

namespace Drafting

/-- **Running and evaluating an expression agree.**  An expression that can be read has code, whatever
numbers flow into the inputs of its node: at a floating scalar type the code leaves at the output port
what the expression evaluates to with its literals at that precision.  Evaluation gives a value as soon
as every input an expression lists has one, and hands each function all its arguments.  The list is in
order, has no name twice, and names input ports of the node. -/
theorem writeExpression_evaluates [NameLimit] {p : StagePlan} {d : Draft}
    {Γ : Context .evaluating} {P : List UInt32} {i : Nat} {n : Node} {out : PortId} {source : String}
    {names : List String} {e : Math.Expr} {vals : PortId → Float} (hp : p.Planned) (hs : d.Sound P)
    (hn : p.graph.nodes[i]? = some n) (hk : n.kind = .mathExpression)
    (hparams : n.params = .math source names) (hparse : Math.Expr.parse source names = .ok e)
    (hout : out ∈ n.outputs) (ht : p.typeOf out = .float ∨ p.typeOf out = .half)
    (hnew : d.values.lookup out = none) (hvals : ∀ q ∈ n.inputs, d.Receives p Γ q (vals q)) :
    (∃ d' c x Γ' r, Draws (writeExpression p i n out) d () d' ∧ d.Emits Γ [] c [(out, x)] d' Γ' [] ∧
      Known (d'.surroundings .evaluating) Γ' x (p.typeOf out).shape (.value r) ∧
      (e.rounded (p.typeOf out)).eval (fun name => (p.graph.inputNamed n name).toOption.map vals) =
        .ok r) ∧
      (∀ (e : Math.Expr) (env : String → Option Float), (∀ name ∈ e.inputs, ∃ v, env name = some v) →
        (∃ r, e.eval env = .ok r) ∧ ∀ f args, e.call? = some (f, args) →
          ∃ vs r, args.mapM (·.eval env) = .ok vs ∧ f.valueAt? vs = some r ∧ e.eval env = .ok r) ∧
      e.inputs.Pairwise (· ≤ ·) ∧ e.inputs.Nodup ∧
      ∀ name ∈ e.inputs, name ∈ names ∧ ∃ q ∈ n.inputs, p.graph.inputNamed n name = .ok q := by
  refine ⟨?_, fun e env henv => ?_, e.inputs_sorted.1, e.inputs_sorted.2, fun name hname => ?_⟩
  · obtain ⟨hfloat, htypes⟩ : (p.typeOf out).isFloating = true ∧
        ∀ q ∈ n.inputs, p.typeOf q = p.typeOf out := by
      cases hp.typed.fits hp.consistent hn with
      | mathExpression _ _ hout' ht htypes =>
        rw [hout', List.mem_singleton] at hout
        subst hout
        exact ⟨ht, htypes⟩
      | arithmetic hop =>
        rw [hk] at hop
        cases hop
      | _ hk' =>
        rw [hk] at hk'
        cases hk'
    have hclear : ∀ q ∈ n.inputs, Clear p (· = out) q := fun q hq => clear_of_receives (hvals q hq) hnew
    obtain ⟨_, d', h, -⟩ := succeeds_writeExpression hclear hp hn hk hparams hfloat htypes hparse d
      fun o ho => ho ▸ hnew
    obtain ⟨c, x, Γ', r, hemits, hknown, hvalue⟩ := writeExpression_computes hs hparams hparse hfloat
      htypes hvals hnew h
    exact ⟨d', c, x, Γ', r, h, hemits, hknown,
      exprValue_evaluating ht (hvalue _ fun _ _ => rfl)⟩
  · have hoccurs : ∀ name ∈ e.occurrences, ∃ v, env name = some v := fun name hname =>
      henv name (Math.Expr.mem_inputs.2 hname)
    refine ⟨Math.Expr.eval_isOk hoccurs, fun f args hcall => ?_⟩
    obtain ⟨vs, hvs⟩ : ∃ vs, args.mapM (·.eval env) = .ok vs := mapM_isOk fun a ha =>
      Math.Expr.eval_isOk fun name hname => hoccurs name (occurrences_of_call? hcall ha name hname)
    obtain ⟨r, hr, heval⟩ := Math.Expr.eval_call hcall hvs
    exact ⟨vs, r, hvs, hr, heval⟩
  · have hmem := Math.Expr.occurrences_of_parse hparse name (Math.Expr.mem_inputs.1 hname)
    exact ⟨hmem, hp.consistent.input_of_name hn hk hparams hmem⟩

end Drafting

namespace Graph

/-- A formula of the time and of an open input, which an output shows. -/
def formula : Graph :=
  .grown [.node (Uuid.ofBytes [1]) "" .time .none,
    .node (Uuid.ofBytes [2]) "" .mathExpression (.math "mix(sin(a), 0.1, b) - a" ["a", "b"]),
    .node (Uuid.ofBytes [3]) "" .previewOutput .none, .edge 0 1, .edge 3 4]

/-- The plan of its one stage. -/
def formulaPlan : StagePlan :=
  ⟨formula.stageLabels 2, #[.float, .float, .float, .float, .float], [0, 1, 2], ⟨[0, 1, 2], []⟩, false⟩

/-- At the time 3 the code of the formula leaves what it evaluates to there, with its literal at single
precision. -/
theorem writeExpression_evaluates_formula :
    ∃ (d d' : Draft) (n : Node) (e : Math.Expr) (Γ' : Context .evaluating) (x : UInt32) (r : Float),
      formula.nodes[1]? = some n ∧ e.text = "(mix(sin(a), 0.1, b) - a)" ∧
      Drafting.Draws (Drafting.writeExpression formulaPlan 1 n 3) d () d' ∧
      Known (d'.surroundings .evaluating) Γ' x (.float 32) (.value r) ∧
      (e.rounded .float).eval (fun name => (formula.inputNamed n name).toOption.map
        fun q => if q = 1 then 3 else 0) = .ok r := by
  let _ : NameLimit := ⟨131072, Nat.le_refl _⟩
  let source := "mix(sin(a), 0.1, b) - a"
  let node : Node := ⟨Uuid.ofBytes [2], 1, "", .mathExpression, .math source ["a", "b"], [1, 2], [3]⟩
  obtain ⟨hwithin, hscheduled, hplain, hparse, hfed, hopen⟩ :
      formula.typesWithin? 20 = some formulaPlan.types ∧
      (formula.stageLabels 2).scheduleWithin? 20 = some [0, 1, 2] ∧
      (∀ i ∈ [0, 1, 2], (formula.stageLabels 2).isBranching i = false) ∧
      (Math.Expr.parse source ["a", "b"]).toOption.map Math.Expr.text =
        some "(mix(sin(a), 0.1, b) - a)" ∧
      formulaPlan.graph.producer? 1 = some 0 ∧ formulaPlan.graph.producer? 2 = none := by
    decide +kernel
  have hresolved : (formula.resolveTypes 0).1 = .ok formulaPlan.types := resolveTypes_of_within hwithin
  have hplan : formula.plan formulaPlan.types false 2 = .ok formulaPlan :=
    plan_plain (Built.grown _).consistent hscheduled hplain _ _
  have hplanned : formulaPlan.Planned :=
    (plan_planned (Built.grown _).consistent hresolved hplan).1
  obtain ⟨e, he, htext⟩ := Option.map_eq_some_iff.1 hparse
  -- the time has an identifier, and nothing else is there yet
  obtain ⟨d, hd⟩ : ∃ d, Drafting.Draws (Drafting.resultId 0) (Draft.new .fragment) 1 d := ⟨_, rfl⟩
  have hreserves := Drafting.resultId_fresh rfl hd
  have hvalues : d.values = [(0, 1)] := hreserves.values
  let Γ : Context .evaluating := [(1, .float 32, .value 3)]
  have hreceives : ∀ q ∈ node.inputs, d.Receives formulaPlan Γ q (if q = 1 then 3 else 0) := by
    intro q hq
    simp only [node, List.mem_cons, List.not_mem_nil, or_false] at hq
    rw [Draft.Receives]
    rcases hq with rfl | rfl
    · rw [hfed]
      exact ⟨1, by rw [hvalues]; rfl, .inl List.mem_cons_self⟩
    · rw [hopen]
      rfl
  obtain ⟨⟨d', -, x, Γ', r, hdraws, -, hknown, hr⟩, -⟩ := Drafting.writeExpression_evaluates hplanned
    (hreserves.sound [] (ModuleBuilder.sound_new _))
    (show formulaPlan.graph.nodes[1]? = some node from rfl) rfl rfl (toOption_eq_some.1 he)
    List.mem_cons_self (.inl rfl) (by rw [hvalues]; rfl) hreceives
  exact ⟨d, d', node, e, Γ', x, r, rfl, htext, hdraws, hknown, hr⟩

end Graph

end NodeShader
