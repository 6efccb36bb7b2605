import NodeShader.Metal.Binding
import NodeShader.Proofs.Lists
import NodeShader.Proofs.Metal.Reflecting
import NodeShader.Proofs.Steps

/-!
# Global identifiers

A global identifier is called by its name in the module, made an identifier of the language
(`Tables.plainName`), or by that and its number where the name is taken (`markedName`).  Built-in
variables have fixed names.

* `sanitize_spec`: a name that was made an identifier starts with a letter and is no reserved word.
* `Names.Sound`: what is true of all names that were given; each of them is `Coined`.
* `namesApart_of_reflect`: **two identifiers have one name only if one of them mimics the other**
  (`Tables.Mimics`): its own name is the name of the other with the number of the other.
-/

namespace NodeShader.Metal

open Spirv

/-! ### Identifiers of the language -/

/-- The characters of identifiers: letters, digits and underscores. -/
def isWordChar (c : Char) : Bool := c.isAlphanum || c = '_'

/-- The names of built-in variables. -/
def builtInNames : List String := ["gl_Position", "gl_FragCoord", "gl_GlobalInvocationID"]

theorem mem_builtInNames {code : UInt32} {name mark : String} (h : builtIn? code = some (name, mark)) :
    name ∈ builtInNames := by
  have hmem := lookup_mem (show List.lookup code _ = some (name, mark) from h)
  simp only [List.mem_cons, List.not_mem_nil, or_false, Prod.mk.injEq] at hmem
  rcases hmem with ⟨-, rfl, -⟩ | ⟨-, rfl, -⟩ | ⟨-, rfl, -⟩
  all_goals decide

/-- **A global name**: an identifier that starts with a letter, and that nothing else is called. -/
structure IsGlobalName (s : String) : Prop where
  start : s.toList.head?.any Char.isAlpha = true
  word : ∀ c ∈ s.toList, isWordChar c = true
  free : s ∉ reserved ++ builtInNames

/-- A global name with a number. -/
def markedName (plain : String) (id : UInt32) : String := s!"{plain}_{id}"

theorem markedName_toList (plain : String) (id : UInt32) :
    (markedName plain id).toList = plain.toList ++ '_' :: Nat.toDigits 10 id.toNat := by
  have hdigits : (toString id).toList = Nat.toDigits 10 id.toNat := String.toList_ofList
  show (toString plain ++ "_" ++ toString id).toList = _
  rw [String.toList_append, String.toList_append, hdigits, List.append_assoc]
  rfl

/-- The digits of a number are no underscores. -/
theorem underscore_not_mem_toDigits (n : Nat) : '_' ∉ Nat.toDigits 10 n := fun h =>
  absurd (Nat.isDigit_of_mem_toDigits (by decide) (by decide) h) (by decide)

/-- **A marked name tells the name and the number** it is made of. -/
theorem markedName_inj {p q : String} {a b : UInt32} (h : markedName p a = markedName q b) :
    p = q ∧ a = b := by
  have h := congrArg String.toList h
  rw [markedName_toList, markedName_toList] at h
  -- what follows the last underscore are the digits
  have htail : ∀ (plain : String) (n : Nat), (plain.toList ++ '_' :: Nat.toDigits 10 n).reverse.takeWhile
      (· ≠ '_') = (Nat.toDigits 10 n).reverse := by
    intro plain n
    rw [List.reverse_append, List.reverse_cons, List.append_assoc, List.takeWhile_append_of_pos]
    · simp
    · intro c hc
      rw [decide_eq_true_eq]
      rintro rfl
      exact underscore_not_mem_toDigits n (List.mem_reverse.1 hc)
  have hdigits : Nat.toDigits 10 a.toNat = Nat.toDigits 10 b.toNat := by
    rw [← List.reverse_inj, ← htail p, ← htail q, h]
  have hid : a = b := by
    rw [← UInt32.toNat_inj, ← Nat.ofDigitChars_ten_toDigits (n := a.toNat), hdigits,
      Nat.ofDigitChars_ten_toDigits]
  subst hid
  exact ⟨String.toList_inj.1 (List.append_cancel_right h), rfl⟩

/-! ### Names as identifiers -/

theorem isWordChar_nameChar (p : Text.Piece) : isWordChar (nameChar p) = true := by
  cases p with
  | stray => rfl
  | scalar c =>
    rw [nameChar]
    split
    · rename_i h
      simpa [isWordChar] using h
    · rfl

/-- **A name that was made an identifier is a global name.** -/
theorem sanitize_spec (name : List UInt8) : IsGlobalName (sanitize name) := by
  rw [sanitize]
  generalize hcs : (Text.pieces name).map nameChar = cs
  have hword : ∀ c ∈ cs, isWordChar c = true := by
    intro c hc
    rw [← hcs] at hc
    obtain ⟨p, -, rfl⟩ := List.mem_map.1 hc
    exact isWordChar_nameChar p
  obtain ⟨ds, hds, hstart, hwords⟩ : ∃ ds, (if cs.head?.any Char.isAlpha = true then cs else 'v' :: cs) = ds ∧
      ds.head?.any Char.isAlpha = true ∧ ∀ c ∈ ds, isWordChar c = true := by
    split
    · exact ⟨cs, rfl, ‹_›, hword⟩
    · exact ⟨_, rfl, rfl, List.forall_mem_cons.2 ⟨by decide, hword⟩⟩
  rw [hds]
  split
  · refine ⟨?_, ?_, ?_⟩
    · rw [String.toList_append, String.toList_ofList]
      cases ds with
      | nil => cases hstart
      | cons c ds => exact hstart
    · rw [String.toList_append, String.toList_ofList]
      exact List.forall_mem_append.2 ⟨hwords, List.forall_mem_singleton.2 rfl⟩
    · -- no reserved word ends with an underscore
      have hall : ∀ r ∈ reserved ++ builtInNames, r.toList.getLast? ≠ some '_' := by decide
      refine fun h => hall _ h ?_
      rw [String.toList_append, String.toList_ofList]
      exact List.getLast?_concat
  · rename_i hfree
    rw [Bool.or_eq_true, decide_eq_true_eq, not_or] at hfree
    refine ⟨by rwa [String.toList_ofList], by rwa [String.toList_ofList], fun h => ?_⟩
    rcases List.mem_append.1 h with h | h
    · exact hfree.1 (List.contains_iff_mem.2 h)
    · have hall : ∀ r ∈ builtInNames, r.toList.take 3 = ['g', 'l', '_'] := by decide
      have := hall _ h
      rw [String.toList_ofList] at this
      exact hfree.2 this

/-- A marked global name is one. -/
theorem IsGlobalName.marked {s : String} (h : IsGlobalName s) (id : UInt32) :
    IsGlobalName (markedName s id) := by
  have hdigit : ∀ c ∈ Nat.toDigits 10 id.toNat, c.isDigit = true := fun c hc =>
    Nat.isDigit_of_mem_toDigits (by decide) (by decide) hc
  refine ⟨?_, ?_, fun hm => ?_⟩
  · rw [markedName_toList]
    have hstart := h.start
    cases hs : s.toList with
    | nil => rw [hs] at hstart; cases hstart
    | cons c cs => rw [hs] at hstart; exact hstart
  · rw [markedName_toList]
    refine List.forall_mem_append.2 ⟨h.word, List.forall_mem_cons.2 ⟨by decide, fun c hc => ?_⟩⟩
    rw [isWordChar, Char.isAlphanum, hdigit c hc]
    simp
  · -- no reserved word with an underscore ends with a digit
    have hall : ∀ r ∈ reserved ++ builtInNames, r.toList.getLast?.any Char.isDigit = true → '_' ∉ r.toList := by
      decide
    have hmem := hall _ hm
    rw [markedName_toList] at hmem
    refine hmem ?_ (List.mem_append_right _ List.mem_cons_self)
    rw [List.getLast?_append_of_ne_nil _ (List.cons_ne_nil _ _),
      List.getLast?_cons_of_ne_nil Nat.toDigits_ne_nil,
      List.getLast?_eq_some_getLast Nat.toDigits_ne_nil]
    exact hdigit _ (List.getLast_mem _)

/-! ### What names are given -/

/-- What identifiers without a name are called, with their number. -/
def Tables.fallback (t : Tables) (id : UInt32) : String :=
  if (t.types.lookup id).isSome then "Struct" else "var"

/-- **The name of an identifier in the module**, made an identifier of the language. -/
def Tables.plainName (t : Tables) (id : UInt32) : String :=
  sanitize (match t.names.lookup id with
    | some (b :: bs) => b :: bs
    | _ => Text.bytes s!"{t.fallback id}{id}")

/-- **One identifier mimics another**: its own name is that of the other with the number of the
other. -/
def Tables.Mimics (t : Tables) (a b : UInt32) : Prop := t.plainName a = markedName (t.plainName b) b

/-- A built-in variable. -/
def Tables.IsBuiltIn (t : Tables) (id : UInt32) : Prop :=
  id ∈ t.globals.map (·.id) ∧ (t.decoration? id Decoration.builtIn).isSome = true

/-- The names that an identifier may be given. -/
inductive Coined (t : Tables) (id : UInt32) : String → Prop
  | plain : Coined t id (t.plainName id)
  | marked : Coined t id (markedName (t.plainName id) id)
  | builtIn {name : String} : t.IsBuiltIn id → name ∈ builtInNames → Coined t id name

/-- Two identifiers that may share a name. -/
def Tables.Confused (t : Tables) (a b : UInt32) : Prop :=
  t.Mimics a b ∨ t.Mimics b a ∨ t.IsBuiltIn a ∧ t.IsBuiltIn b

/-- **What is true of the names given so far.** -/
structure Names.Sound (t : Tables) (names : Names) : Prop where
  coined : ∀ e ∈ names.given, Coined t e.1 e.2
  used : ∀ e ∈ names.given, e.2 ∈ builtInNames ∨ e.2 ∈ names.used
  apart : ∀ e ∈ names.given, ∀ e' ∈ names.given, e.1 ≠ e'.1 → e.2 = e'.2 → t.Confused e.1 e'.1

/-- **Naming goes on** from sound names and forgets none. -/
def Names.Grows (t : Tables) (names names' : Names) : Prop :=
  names.Sound t → names'.Sound t ∧ names.given ⊆ names'.given

section Naming

variable {t : Tables} {id a b : UInt32} {name : String} {names names' names'' : Names}

theorem isGlobalName_plainName (t : Tables) (id : UInt32) : IsGlobalName (t.plainName id) :=
  sanitize_spec _

/-- A name is a global name, or that of a built-in variable. -/
theorem Coined.cases (h : Coined t id name) :
    IsGlobalName name ∨ t.IsBuiltIn id ∧ name ∈ builtInNames := by
  cases h with
  | plain => exact .inl (isGlobalName_plainName t id)
  | marked => exact .inl ((isGlobalName_plainName t id).marked id)
  | builtIn hb hn => exact .inr ⟨hb, hn⟩

theorem IsGlobalName.not_builtIn (h : IsGlobalName name) : name ∉ builtInNames := fun hn =>
  h.free (List.mem_append_right _ hn)

theorem Tables.Confused.symm (h : t.Confused a b) : t.Confused b a := by
  rcases h with h | h | h
  · exact .inr (.inl h)
  · exact .inl h
  · exact .inr (.inr h.symm)

theorem Names.Grows.refl (names : Names) : names.Grows t names := fun h => ⟨h, List.Subset.refl _⟩

theorem Names.Grows.trans (h : names.Grows t names') (h' : names'.Grows t names'') :
    names.Grows t names'' := fun hs =>
  ⟨(h' (h hs).1).1, List.Subset.trans (h hs).2 (h' (h hs).1).2⟩

/-- One more name, which no other identifier has unless the two may share it. -/
theorem Names.Sound.give (h : names.Sound t) {used : List String} (hc : Coined t id name)
    (hu : names.used ⊆ used) (hused : name ∈ builtInNames ∨ name ∈ used)
    (hnew : ∀ e ∈ names.given, e.1 ≠ id → e.2 = name → t.Confused id e.1) :
    (⟨(id, name) :: names.given, used⟩ : Names).Sound t where
  coined := List.forall_mem_cons.2 ⟨hc, h.coined⟩
  used := List.forall_mem_cons.2 ⟨hused, fun e he => (h.used e he).imp_right fun hm => hu hm⟩
  apart := by
    intro e he e' he' hne heq
    rcases List.mem_cons.1 he with rfl | he
    · rcases List.mem_cons.1 he' with rfl | he'
      · exact absurd rfl hne
      · exact hnew e' he' (Ne.symm hne) heq.symm
    · rcases List.mem_cons.1 he' with rfl | he'
      · exact (hnew e he hne heq).symm
      · exact h.apart e he e' he' hne heq

/-- An identifier has a name already, or is given its own, with its number if that is taken. -/
theorem gives_identifier (h : Gives (identifier t id (t.fallback id)) names name names') :
    (id, name) ∈ names.given ∧ names' = names ∨
      name = (if names.used.contains (t.plainName id) then markedName (t.plainName id) id
        else t.plainName id) ∧ names' = ⟨(id, name) :: names.given, name :: names.used⟩ := by
  rw [identifier, gives_get_bind] at h
  split at h
  · rename_i old hold
    obtain ⟨rfl, rfl⟩ := gives_pure.1 h
    exact .inl ⟨lookup_mem hold, rfl⟩
  · obtain ⟨_, names₁, hset, h⟩ := gives_bind.1 h
    obtain ⟨rfl, rfl⟩ := gives_pure.1 h
    cases hset
    exact .inr ⟨rfl, rfl⟩

/-- **Naming an identifier** gives it a name of its own, as far as that goes. -/
theorem identifier_spec (h : Gives (identifier t id (t.fallback id)) names name names') :
    names.Grows t names' ∧ (id, name) ∈ names'.given := by
  rcases gives_identifier h with ⟨hmem, rfl⟩ | ⟨hname, rfl⟩
  · exact ⟨.refl _, hmem⟩
  refine ⟨fun hs => ⟨?_, List.subset_cons_self _ _⟩, List.mem_cons_self⟩
  refine hs.give ?_ (List.subset_cons_self _ _) (.inr List.mem_cons_self) ?_
  · split at hname
    · exact hname ▸ .marked
    · exact hname ▸ .plain
  · intro e he hne heq
    split at hname
    · have hc := hs.coined e he
      rw [heq, hname] at hc
      generalize hn : markedName (t.plainName id) id = n at hc
      cases hc with
      | plain => exact .inr (.inl hn.symm)
      | marked => exact absurd (markedName_inj hn).2.symm hne
      | builtIn hb hm => exact absurd hm (hn ▸ ((isGlobalName_plainName t id).marked id).not_builtIn)
    · rename_i hfree
      refine absurd (hs.used e he) ?_
      rw [heq, hname, not_or]
      exact ⟨(isGlobalName_plainName t id).not_builtIn, fun hm => hfree (List.contains_iff_mem.2 hm)⟩

/-- A built-in variable is given its fixed name. -/
theorem fixName_spec {u : Unit} (hb : t.IsBuiltIn id) (hn : name ∈ builtInNames)
    (h : Gives (fixName id name) names u names') : names.Grows t names' := by
  rw [fixName, gives_modify] at h
  subst h
  refine fun hs => ⟨hs.give (.builtIn hb hn) (List.Subset.refl _) (.inl hn) ?_,
    List.subset_cons_self _ _⟩
  intro e he _ heq
  rcases (hs.coined e he).cases with hg | ⟨hb', -⟩
  · exact absurd (heq ▸ hn) hg.not_builtIn
  · exact .inr (.inr ⟨hb, hb'⟩)

/-! ### Types and variables -/

theorem fallback_of_typeOf {info : TypeInfo} (h : t.typeOf id = .ok info) : t.fallback id = "Struct" := by
  rw [Tables.typeOf] at h
  split at h
  · rename_i hl
    rw [Tables.fallback, hl]
    rfl
  · cases h

theorem grows_bind {α β : Type} {x : Naming α} {f : α → Naming β} (hx : Every (Names.Grows t) x)
    (hf : ∀ a, Every (Names.Grows t) (f a)) : Every (Names.Grows t) (x >>= f) :=
  every_bind (fun _ _ _ => .trans) hx hf

theorem grows_pure {α : Type} (a : α) : Every (Names.Grows t) (pure a : Naming α) :=
  every_pure .refl a

/-- Structs that types are named after are types. -/
theorem grows_typeNameWithin (depth : Nat) (id : UInt32) :
    Every (Names.Grows t) (typeNameWithin t depth id) := by
  induction depth generalizing id with
  | zero => exact every_error _
  | succ depth ih =>
    refine every_lift_bind fun info hinfo => ?_
    cases info with
    | struct ms =>
      intro names name names' h
      rw [show "Struct" = t.fallback id from (fallback_of_typeOf hinfo).symm] at h
      exact (identifier_spec h).1
    | vector element count => exact grows_bind (ih element) fun _ => grows_pure _
    | matrix element count =>
      exact every_lift_bind fun column _ => grows_bind (ih _) fun _ => grows_pure _
    | image element dim sampled format =>
      dsimp only
      split
      · exact every_error _
      · exact grows_bind (ih element) fun _ => grows_pure _
    | void | bool | int | float | sampler => exact grows_pure _
    | _ => exact every_error _

theorem grows_typeName (id : UInt32) : Every (Names.Grows t) (typeName t id) := grows_typeNameWithin _ id

theorem grows_memberType (struct : UInt32) (k : Nat) : Every (Names.Grows t) (memberType t struct k) := by
  refine every_lift_bind fun packed _ => ?_
  split
  · exact grows_pure _
  · refine every_lift_bind fun info _ => ?_
    split
    · exact grows_typeName _
    · exact every_error _

/-- **The binding of a variable with its names**: that of the variable, and that of the struct of a
buffer. -/
structure Binding.NamedIn (b : Binding) (t : Tables) (v : Variable) (names : Names) : Prop where
  name : (v.id, b.name) ∈ names.given
  struct : ∀ struct, b.kind = .uniformBuffer →
    t.typeOf v.pointer = .ok (.pointer v.storage struct) → (struct, b.format) ∈ names.given

/-- **A buffer** is described with the name of its struct. -/
theorem bufferOf_names {b b' : Binding} {struct : UInt32} {ms : List UInt32}
    (hs : t.typeOf struct = .ok (.struct ms)) (h : Gives (bufferOf t b struct ms) names b' names') :
    names.Grows t names' ∧ (names.Sound t → (struct, b'.format) ∈ names'.given) := by
  obtain ⟨format, names₁, h₁, h⟩ := gives_bind.1 h
  obtain ⟨members, names₂, h₂, h⟩ := gives_bind.1 h
  obtain ⟨rfl, rfl⟩ := gives_pure.1 h
  have hmembers : names₁.Grows t names' :=
    every_mapM .refl (fun _ _ _ => .trans) (fun i _ => grows_bind (grows_memberType _ _) fun _ =>
      grows_pure _) h₂
  have hformat : names.Grows t names₁ ∧ (struct, format) ∈ names₁.given := by
    obtain ⟨depth, hdepth⟩ := typeName_eq t struct
    rw [hdepth] at h₁
    obtain ⟨info, hinfo, h₁⟩ := gives_lift_bind.1 h₁
    rw [hs] at hinfo
    cases hinfo
    have h₁ : Gives (identifier t struct "Struct") names format names₁ := h₁
    rw [← fallback_of_typeOf hs] at h₁
    exact identifier_spec h₁
  exact ⟨hformat.1.trans hmembers, fun hs => (hmembers (hformat.1 hs).1).2 hformat.2⟩

/-- A stage input or output, at a location or built in. -/
theorem stageVariable_names {b b' : Binding} {type : UInt32} (hb : b.variable_ ∈ t.globals.map (·.id))
    (h : Gives (stageVariable t b type) names b' names') : names.Grows t names' ∧ b'.kind = b.kind := by
  obtain ⟨format, names₁, h₁, h⟩ := gives_bind.1 h
  have g₁ := grows_typeName type h₁
  dsimp only at h
  split at h
  · obtain ⟨k, -, h⟩ := gives_lift_bind.1 h
    obtain ⟨rfl, rfl⟩ := gives_pure.1 h
    exact ⟨g₁, rfl⟩
  · split at h
    · cases (gives_lift.1 h).1
    · rename_i params hparams
      obtain ⟨code, -, h⟩ := gives_lift_bind.1 h
      split at h
      · cases (gives_lift.1 h).1
      · rename_i name mark hmark
        obtain ⟨u, names₂, h₂, h⟩ := gives_bind.1 h
        obtain ⟨rfl, rfl⟩ := gives_pure.1 h
        refine ⟨g₁.trans (fixName_spec ⟨hb, ?_⟩ (mem_builtInNames hmark) h₂), rfl⟩
        rw [hparams]
        rfl

/-- **A variable is classified** with the name of its struct, if it is a buffer. -/
theorem classifyVariable_names {v : Variable} {b : Binding} (hv : v ∈ t.globals)
    (h : Gives (classifyVariable t v) names b names') : names.Grows t names' ∧
      (names.Sound t → ∀ struct, b.kind = .uniformBuffer →
        t.typeOf v.pointer = .ok (.pointer v.storage struct) → (struct, b.format) ∈ names'.given) := by
  have hother : names.Grows t names' → b.kind ≠ .uniformBuffer → names.Grows t names' ∧
      (names.Sound t → ∀ struct, b.kind = .uniformBuffer →
        t.typeOf v.pointer = .ok (.pointer v.storage struct) → (struct, b.format) ∈ names'.given) :=
    fun g hk => ⟨g, fun _ _ hb => absurd hb hk⟩
  have hid : v.id ∈ t.globals.map (·.id) := List.mem_map.2 ⟨v, hv, rfl⟩
  obtain ⟨info, hinfo, h⟩ := gives_lift_bind.1 h
  cases info with
  | pointer storage element =>
    obtain ⟨pointee, hpointee, h⟩ := gives_lift_bind.1 h
    dsimp only at h
    split at h
    · cases pointee with
      | struct ms =>
        obtain ⟨g, hformat⟩ := bufferOf_names hpointee h
        refine ⟨g, fun hs struct _ ht => ?_⟩
        rw [hinfo, Except.ok.injEq, TypeInfo.pointer.injEq] at ht
        exact ht.2 ▸ hformat hs
      | _ => cases (gives_lift.1 h).1
    · split at h
      · cases pointee with
        | image e dim sampled format =>
          obtain ⟨rfl, rfl⟩ := gives_pure.1 h
          refine hother (.refl _) ?_
          dsimp only
          split <;> decide
        | sampler =>
          obtain ⟨rfl, rfl⟩ := gives_pure.1 h
          exact hother (.refl _) fun hk => by cases hk
        | _ => cases (gives_lift.1 h).1
      · split at h
        · obtain ⟨g, hk⟩ := stageVariable_names hid h
          exact hother g (hk ▸ fun hk => by cases hk)
        · split at h
          · obtain ⟨g, hk⟩ := stageVariable_names hid h
            exact hother g (hk ▸ fun hk => by cases hk)
          · cases (gives_lift.1 h).1
  | _ => cases (gives_lift.1 h).1

/-- **A variable is bound** with its name. -/
theorem bindVariable_names {v : Variable} {b : Binding} (hmem : v ∈ t.globals)
    (hv : t.fallback v.id = "var") (h : Gives (bindVariable t v) names b names') :
    names.Grows t names' ∧ (names.Sound t → b.NamedIn t v names') := by
  obtain ⟨b₁, names₁, h₁, h⟩ := gives_bind.1 h
  obtain ⟨g₁, hstruct⟩ := classifyVariable_names hmem h₁
  have hjoin : ∀ b₂ : Binding, b₂.kind = b₁.kind → b₂.format = b₁.format →
      Gives (do return { b₂ with name := ← identifier t v.id "var" } : Naming Binding) names₁ b names' →
      names.Grows t names' ∧ (names.Sound t → b.NamedIn t v names') := by
    intro b₂ hk hf h
    obtain ⟨name, names₂, h₂, h⟩ := gives_bind.1 h
    obtain ⟨rfl, rfl⟩ := gives_pure.1 h
    rw [← hv] at h₂
    obtain ⟨g₂, hname⟩ := identifier_spec h₂
    refine ⟨g₁.trans g₂, fun hs => ⟨hname, fun struct hb ht => (g₂ (g₁ hs).1).2 ?_⟩⟩
    show (struct, b₂.format) ∈ names₁.given
    rw [hf]
    exact hstruct hs struct (hk ▸ hb) ht
  dsimp only at h
  split at h
  · split at h
    · obtain ⟨set, -, h⟩ := gives_lift_bind.1 h
      obtain ⟨slot, -, h⟩ := gives_lift_bind.1 h
      exact hjoin { b₁ with set := set.toNat, slot := slot.toNat } rfl rfl h
    · obtain ⟨_, h, -⟩ := gives_lift_bind.1 h
      cases h
  · exact hjoin b₁ rfl rfl h

/-- **Variables are bound** with the names of all of them. -/
theorem bindVariables_names {vs : List Variable} {bs : List Binding} (hmem : vs ⊆ t.globals)
    (hvs : ∀ v ∈ vs, t.fallback v.id = "var") (h : Gives (vs.mapM (bindVariable t)) names bs names')
    (hs : names.Sound t) : names'.Sound t ∧ names.given ⊆ names'.given ∧
      List.Forall₂ (fun v b => b.NamedIn t v names') vs bs := by
  induction vs generalizing names bs with
  | nil =>
    obtain ⟨rfl, rfl⟩ := gives_pure.1 h
    exact ⟨hs, List.Subset.refl _, .nil⟩
  | cons v vs ih =>
    rw [List.mapM_cons] at h
    rw [List.forall_mem_cons] at hvs
    rw [List.cons_subset] at hmem
    obtain ⟨b, names₁, h₁, h⟩ := gives_bind.1 h
    obtain ⟨bs', names₂, h₂, h⟩ := gives_bind.1 h
    obtain ⟨rfl, rfl⟩ := gives_pure.1 h
    obtain ⟨g, hb⟩ := bindVariable_names hmem.1 hvs.1 h₁
    obtain ⟨hs', hsub, hbs⟩ := ih hmem.2 hvs.2 h₂ (g hs).1
    obtain ⟨hname, hstruct⟩ := hb hs
    exact ⟨hs', List.Subset.trans (g hs).2 hsub,
      .cons ⟨hsub hname, fun struct hk ht => hsub (hstruct struct hk ht)⟩ hbs⟩

/-- Numbering bindings keeps their names. -/
theorem Binding.NamedIn.number {v : Variable} {b : Binding} (h : b.NamedIn t v names)
    (entries : List (Binding × Nat)) (k : Nat) : (Metal.number entries (b, k)).NamedIn t v names := by
  unfold Metal.number
  split
  · exact h
  · exact ⟨h.name, h.struct⟩

/-- **The bindings of a module have its names.** -/
theorem reflect_names {bs : List Binding} (hvs : ∀ v ∈ t.globals, t.fallback v.id = "var")
    (h : (reflect t).run {} = .ok (bs, names)) :
    names.Sound t ∧ List.Forall₂ (fun v b => b.NamedIn t v names) t.globals bs := by
  have hempty : ({} : Names).Sound t :=
    ⟨List.forall_mem_nil _, List.forall_mem_nil _, List.forall_mem_nil _⟩
  obtain ⟨bs', names', h₁, h⟩ := gives_bind.1 (show Gives (reflect t) {} bs names from h)
  obtain ⟨rfl, rfl⟩ := gives_pure.1 h
  obtain ⟨hs, -, hbs⟩ := bindVariables_names (List.Subset.refl _) hvs h₁ hempty
  exact ⟨hs, forall₂_number (fun entries k v b hb => hb.number entries k) bs'.zipIdx 0 hbs⟩

/-! ### All names of a program -/

/-- **What is called what**: the variables that bindings are of, and the structs of buffers. -/
inductive GlobalName (t : Tables) (bs : List Binding) : UInt32 → String → Prop
  | variable_ {b : Binding} : b ∈ bs → GlobalName t bs b.variable_ b.name
  | struct {b : Binding} {v : Variable} {struct : UInt32} : b ∈ bs → b.kind = .uniformBuffer →
      v ∈ t.globals → v.id = b.variable_ → t.typeOf v.pointer = .ok (.pointer v.storage struct) →
      GlobalName t bs struct b.format

/-- **The global names of a program**: identifiers of the language that are neither locals nor what the
entry point, its structs and their values are called, and that tell what they name from all else, unless
one identifier mimics another. -/
structure NamesApart (t : Tables) (bs : List Binding) : Prop where
  identifier : ∀ x a, GlobalName t bs x a →
    a.toList.head?.any Char.isAlpha = true ∧ ∀ c ∈ a.toList, isWordChar c = true
  free : ∀ x a, GlobalName t bs x a → a ∉ ["main0", "main0_in", "main0_out", "in", "out"] ∧
    ∀ n : Nat, a ≠ s!"_{n}"
  apart : ∀ x y a, GlobalName t bs x a → GlobalName t bs y a → x ≠ y → t.Mimics x y ∨ t.Mimics y x

/-- What a global is called starts with a letter, and is no reserved word. -/
theorem Coined.start (h : Coined t id name) : name.toList.head?.any Char.isAlpha = true ∧
    (∀ c ∈ name.toList, isWordChar c = true) ∧ name ∉ reserved := by
  rcases h.cases with hg | ⟨-, hn⟩
  · exact ⟨hg.start, hg.word, fun hn => hg.free (List.mem_append_left _ hn)⟩
  · have hall : ∀ name ∈ builtInNames, name.toList.head?.any Char.isAlpha = true ∧
        name.toList.all isWordChar = true ∧ name ∉ reserved := by decide
    obtain ⟨hstart, hword, hfree⟩ := hall name hn
    exact ⟨hstart, List.all_eq_true.1 hword, hfree⟩

/-- **Variables and structs are told apart by their names**, if at most one variable is built in. -/
theorem namesApart_of_reflect {bs : List Binding} (hnodup : (t.globals.map (·.id)).Nodup)
    (hids : List.Forall₂ (fun v b => b.variable_ = v.id) t.globals bs)
    (hvs : ∀ v ∈ t.globals, t.fallback v.id = "var")
    (hone : ∀ x y, t.IsBuiltIn x → t.IsBuiltIn y → x = y)
    (h : (reflect t).run {} = .ok (bs, names)) : NamesApart t bs := by
  obtain ⟨hs, hnamed⟩ := reflect_names hvs h
  have hbs : List.Forall₂ (fun v b => b.variable_ = v.id ∧ b.NamedIn t v names) t.globals bs := by
    rw [List.forall₂_iff_zip] at hids hnamed ⊢
    exact ⟨hids.1, fun hmem => ⟨hids.2 hmem, hnamed.2 hmem⟩⟩
  have hmem : ∀ x a, GlobalName t bs x a → (x, a) ∈ names.given := by
    intro x a hx
    cases hx with
    | variable_ hb =>
      obtain ⟨v, -, hid, hv⟩ := exists_of_mem_right hbs hb
      exact hid ▸ hv.name
    | struct hb hk hv hid ht =>
      obtain ⟨w, hw, hid', hn⟩ := exists_of_mem_right hbs hb
      obtain rfl := List.inj_on_of_nodup_map hnodup hv hw (hid.trans hid')
      exact hn.struct _ hk ht
  refine ⟨fun x a hx => ?_, fun x a hx => ?_, fun x y a hx hy hne => ?_⟩
  · have hc := (hs.coined _ (hmem x a hx)).start
    exact ⟨hc.1, hc.2.1⟩
  · obtain ⟨hstart, -, hfree⟩ := (hs.coined _ (hmem x a hx)).start
    have hentry : ["main0", "main0_in", "main0_out", "in", "out"] ⊆ reserved := by decide
    refine ⟨fun hn => hfree (hentry hn), ?_⟩
    rintro n rfl
    have hlist : (s!"_{n}" : String).toList = '_' :: (toString n).toList := by
      show (toString "_" ++ toString n : String).toList = _
      rw [String.toList_append]
      rfl
    rw [hlist] at hstart
    cases hstart
  · rcases hs.apart _ (hmem x a hx) _ (hmem y a hy) hne rfl with h | h | h
    · exact .inl h
    · exact .inr h
    · exact absurd (hone x y h.1 h.2) hne

end Naming

end NodeShader.Metal
