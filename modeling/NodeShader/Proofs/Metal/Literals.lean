import NodeShader.Proofs.Metal.Lexing

/-!
# Names of types and literals

The texts that stand in expressions beside the names of locals and variables.  Types of values are words
(`typeName_plain`).  A literal holds no underscore, starts with a digit, a letter, a bracket or with the
sign of a number, and ends with a bracket if it is of a vector (`literal_spec`).
-/

namespace NodeShader

/-! ### Decimal text -/

namespace Decimal

/-- The characters of decimal text. -/
def isNumeric (c : Char) : Bool := c.isDigit || ['.', 'e', '+', '-'].contains c

/-- A decimal with digits. -/
structure Proper (d : Decimal) : Prop where
  nonempty : d.digits ≠ []
  digits : ∀ c ∈ d.digits, c.isDigit = true

/-- Decimal text: a digit, and what may follow. -/
def IsText (s : List Char) : Prop :=
  s.head?.any Char.isDigit = true ∧ ∀ c ∈ s, isNumeric c = true

theorem isNumeric_of_isDigit {c : Char} (h : c.isDigit = true) : isNumeric c = true := by
  rw [isNumeric, h]
  rfl

theorem proper_ofUnits (n : Nat) (unit : Int) : (ofUnits n unit).Proper := by
  have hall : ∀ c ∈ (Nat.toDigits 10 n), c.isDigit = true :=
    fun c hc => Nat.isDigit_of_mem_toDigits (by decide) (by decide) hc
  have htrim : (trimZeros (Nat.toDigits 10 n)) ≠ [] ∧ ∀ c ∈ trimZeros (Nat.toDigits 10 n), c.isDigit = true := by
    unfold trimZeros
    split
    · exact ⟨by simp, List.forall_mem_singleton.2 rfl⟩
    · rename_i hne
      refine ⟨fun h => hne h, fun c hc => hall c ?_⟩
      rw [List.mem_reverse] at hc
      exact List.mem_reverse.1 ((List.dropWhile_sublist _).subset hc)
  exact ⟨htrim.1, htrim.2⟩

theorem proper_search (i : Interval) (num : Nat) (top : Int) (fuel count : Nat) :
    (search i num top fuel count).Proper := by
  induction fuel generalizing count with
  | zero => exact proper_ofUnits _ _
  | succ fuel ih =>
    rw [search]
    split
    · exact proper_ofUnits _ _
    · exact ih _

theorem proper_shortest (f : FloatFormat) (mantissa : Nat) (scale : Int) : (shortest f mantissa scale).Proper := by
  rw [shortest]
  split
  · exact ⟨by simp, List.forall_mem_singleton.2 rfl⟩
  · exact proper_search _ _ _ _ _

/-- Digits with a point after some of them. -/
theorem isText_pointAfter {digits : List Char} (hne : digits ≠ []) (hall : ∀ c ∈ digits, c.isDigit = true)
    (n : Nat) : IsText (pointAfter digits (n + 1)).toList := by
  obtain ⟨c, cs, rfl⟩ := List.exists_cons_of_ne_nil hne
  rw [List.forall_mem_cons] at hall
  have hnumeric : ∀ d ∈ c :: (cs ++ List.replicate (n + 1 - (c :: cs).length) '0'), isNumeric d = true := by
    refine List.forall_mem_cons.2 ⟨isNumeric_of_isDigit hall.1, List.forall_mem_append.2
      ⟨fun d hd => isNumeric_of_isDigit (hall.2 d hd), fun d hd => ?_⟩⟩
    rw [List.eq_of_mem_replicate hd]
    rfl
  rw [pointAfter, List.cons_append]
  generalize cs ++ List.replicate (n + 1 - (c :: cs).length) '0' = padded at hnumeric
  split
  · rw [String.toList_ofList]
    exact ⟨hall.1, hnumeric⟩
  · rename_i rest hrest
    rw [String.toList_ofList]
    refine ⟨hall.1, List.forall_mem_append.2 ⟨fun d hd => hnumeric d (List.mem_of_mem_take hd),
      List.forall_mem_cons.2 ⟨rfl, fun d hd => hnumeric d (List.mem_of_mem_drop (hd : d ∈ List.drop (n + 1) _))⟩⟩⟩

/-- **The text of a decimal** is decimal text. -/
theorem Proper.isText_text {d : Decimal} (h : d.Proper) : IsText d.text.toList := by
  have hzeros : ∀ n, ∀ c ∈ List.replicate n '0', isNumeric c = true := fun n c hc => by
    rw [List.eq_of_mem_replicate hc]
    rfl
  have hdigits : ∀ c ∈ d.digits, isNumeric c = true := fun c hc => isNumeric_of_isDigit (h.digits c hc)
  rw [text]
  split
  · rw [positionalText]
    split
    · rw [String.toList_ofList]
      exact ⟨rfl, List.forall_mem_append.2 ⟨List.forall_mem_append.2 ⟨List.all_eq_true.1 rfl, hzeros _⟩, hdigits⟩⟩
    · exact isText_pointAfter h.nonempty h.digits _
  · have hpoint := isText_pointAfter h.nonempty h.digits 0
    have hexponent : ∀ c ∈ (exponentText d.exponent).toList, isNumeric c = true := by
      rw [exponentText]
      simp only [String.toList_append]
      refine List.forall_mem_append.2 ⟨List.forall_mem_append.2 ⟨?_, ?_⟩, fun c hc => ?_⟩
      · split <;> exact List.all_eq_true.1 rfl
      · split
        · exact List.all_eq_true.1 rfl
        · exact List.all_eq_true.1 rfl
      · exact isNumeric_of_isDigit (Nat.isDigit_of_mem_toDigits (by decide) (by decide)
          (show c ∈ Nat.toDigits 10 _ by rwa [show (toString d.exponent.natAbs).toList = _ from String.toList_ofList] at hc))
    rw [String.toList_append]
    refine ⟨?_, List.forall_mem_append.2 ⟨hpoint.2, hexponent⟩⟩
    have hstart := hpoint.1
    cases hs : (pointAfter d.digits (0 + 1)).toList with
    | nil => rw [hs] at hstart; cases hstart
    | cons c cs => rw [hs] at hstart; exact hstart

end Decimal

namespace Metal

open Spirv

/-! ### Words and literals -/

/-- A word that is no local: it starts with a letter and holds no underscore. -/
structure IsPlainWord (s : String) : Prop where
  start : s.toList.head?.any Char.isAlpha = true
  word : ∀ c ∈ s.toList, isWordChar c = true ∧ c ≠ '_'

/-- **What an expression may start with**: no part of an operator, except for the sign of a number. -/
structure Opens (s : List Char) : Prop where
  apart : s.head? ≠ some '=' ∧ s.head? ≠ some '>'
  sign : ∀ v, s = '-' :: v → v.head?.any Char.isDigit = true

/-- **The literal of a constant** of some type. -/
structure IsLiteral (ty : Ty) (s : String) : Prop where
  unmarked : '_' ∉ s.toList
  opens : Opens s.toList
  closes : ∀ c n, ty = .vector c n → ∃ u, s.toList = u ++ [')']

section Words

variable {s : String} {n : Nat} {ty : Ty}

/-- A character of a word opens an expression. -/
theorem opens_of_word {c : Char} {s : List Char} (hc : isWordChar c = true) : Opens (c :: s) := by
  refine ⟨⟨?_, ?_⟩, ?_⟩
  · rintro ⟨rfl⟩
    cases hc
  · rintro ⟨rfl⟩
    cases hc
  · rintro v ⟨rfl, rfl⟩
    cases hc

theorem isWordChar_of_isDigit {c : Char} (h : c.isDigit = true) : isWordChar c = true ∧ c ≠ '_' := by
  refine ⟨?_, ?_⟩
  · rw [isWordChar, Char.isAlphanum, h]
    simp
  · rintro rfl
    cases h

theorem isPlainWord_of_all (hstart : s.toList.head?.any Char.isAlpha = true)
    (hall : s.toList.all (fun c => isWordChar c && c != '_') = true) : IsPlainWord s := by
  refine ⟨hstart, fun c hc => ?_⟩
  have := List.all_eq_true.1 hall c hc
  simpa using this

theorem IsPlainWord.isIdentifier (h : IsPlainWord s) : isIdentifier s.toList = true := by
  have hstart := h.start
  have hword := h.word
  cases hs : s.toList with
  | nil =>
    rw [hs] at hstart
    cases hstart
  | cons c cs =>
    rw [hs] at hstart hword
    have hc : c.isAlpha = true := hstart
    rw [isIdentifier_cons, hc]
    exact ⟨rfl, fun d hd => (hword d (List.mem_cons_of_mem _ hd)).1⟩

theorem IsPlainWord.isLiteral (h : IsPlainWord s) (hty : ∀ c n, ty ≠ .vector c n) : IsLiteral ty s := by
  refine ⟨fun hm => (h.word _ hm).2 rfl, ?_, fun c n h => absurd h (hty c n)⟩
  have hstart := h.start
  have hword := h.word
  cases hs : s.toList with
  | nil =>
    rw [hs] at hstart
    cases hstart
  | cons c cs =>
    rw [hs] at hword
    exact opens_of_word (hword c List.mem_cons_self).1

/-- A word with a number after it is a word. -/
theorem IsPlainWord.append_digits (h : IsPlainWord s) {digits : String}
    (hd : ∀ c ∈ digits.toList, c.isDigit = true) : IsPlainWord (s ++ digits) := by
  refine ⟨?_, ?_⟩
  · have hstart := h.start
    rw [String.toList_append]
    cases hs : s.toList with
    | nil =>
      rw [hs] at hstart
      cases hstart
    | cons c cs =>
      rw [hs] at hstart
      exact hstart
  · rw [String.toList_append]
    exact List.forall_mem_append.2 ⟨h.word, fun c hc => isWordChar_of_isDigit (hd c hc)⟩

/-- A word and what stands in brackets after it. -/
theorem IsPlainWord.isLiteral_call (h : IsPlainWord s) (ty : Ty) {inner : String} (hinner : '_' ∉ inner.toList) :
    IsLiteral ty (s ++ "(" ++ inner ++ ")") := by
  have hlist : (s ++ "(" ++ inner ++ ")").toList = s.toList ++ '(' :: inner.toList ++ [')'] := by
    simp only [String.toList_append]
    rw [List.append_assoc s.toList]
    rfl
  refine ⟨?_, ?_, fun _ _ _ => ⟨_, hlist⟩⟩
  · rw [hlist]
    simp only [List.mem_append, List.mem_cons, List.not_mem_nil, or_false, not_or]
    exact ⟨⟨fun hm => (h.word _ hm).2 rfl, by decide, hinner⟩, by decide⟩
  · have hstart := h.start
    have hword := h.word
    rw [hlist]
    cases hs : s.toList with
    | nil =>
      rw [hs] at hstart
      cases hstart
    | cons c cs =>
      rw [hs] at hword
      exact opens_of_word (hword c List.mem_cons_self).1

/-- A character that is in none of some texts is not in these with commas between them. -/
theorem not_mem_intercalate {c : Char} (hc : c ∉ ", ".toList) {texts : List String}
    (h : ∀ s ∈ texts, c ∉ s.toList) : c ∉ (", ".intercalate texts).toList := by
  induction texts with
  | nil => simp
  | cons s texts ih =>
    rw [List.forall_mem_cons] at h
    cases texts with
    | nil =>
      rw [String.intercalate_singleton]
      exact h.1
    | cons s' texts =>
      rw [String.intercalate_cons_cons, String.toList_append, String.toList_append, List.mem_append,
        List.mem_append, not_or, not_or]
      exact ⟨⟨h.1, hc⟩, ih h.2⟩

theorem isDigit_toString_uint32 (n : UInt32) : ∀ c ∈ (toString n).toList, c.isDigit = true := by
  intro c hc
  rw [show (toString n).toList = Nat.toDigits 10 n.toNat from String.toList_ofList] at hc
  exact Nat.isDigit_of_mem_toDigits (by decide) (by decide) hc

end Words

/-! ### Numbers -/

section Numbers

variable {ty : Ty} {s : String}

/-- Text that starts with a digit, or with a sign and a digit. -/
theorem isLiteral_of_digit (hunmarked : '_' ∉ s.toList) (hdigit : s.toList.head?.any Char.isDigit = true ∨
    ∃ v, s.toList = '-' :: v ∧ v.head?.any Char.isDigit = true) (hty : ∀ c n, ty ≠ .vector c n) :
    IsLiteral ty s := by
  refine ⟨hunmarked, ?_, fun c n h => absurd h (hty c n)⟩
  rcases hdigit with hdigit | ⟨v, hv, hdigit⟩
  · cases hs : s.toList with
    | nil =>
      rw [hs] at hdigit
      cases hdigit
    | cons c cs =>
      rw [hs] at hdigit
      exact opens_of_word (isWordChar_of_isDigit hdigit).1
  · rw [hv]
    refine ⟨⟨by simp, by simp⟩, ?_⟩
    rintro w ⟨rfl, rfl⟩
    exact hdigit

/-- **The literal of a number** with a point or an exponent. -/
theorem isLiteral_float (f : FloatValue) {suffix : String} (hsuffix : '_' ∉ suffix.toList)
    (hty : ∀ c n, ty ≠ .vector c n) : IsLiteral ty (floatLiteral f suffix) := by
  cases f with
  | nan =>
    show IsLiteral ty "NAN"
    exact (isPlainWord_of_all rfl (by decide)).isLiteral hty
  | infinite negative =>
    cases negative with
    | false =>
      show IsLiteral ty "INFINITY"
      exact (isPlainWord_of_all rfl (by decide)).isLiteral hty
    | true =>
      show IsLiteral ty "(-INFINITY)"
      exact ⟨by decide, ⟨by decide, by rintro v ⟨⟩⟩, fun c n h => absurd h (hty c n)⟩
  | finite negative mantissa scale =>
    rw [floatLiteral]
    have htext := (Decimal.proper_shortest .binary32 mantissa scale).isText_text
    have hnumeric : ∀ c, Decimal.isNumeric c = true → c ≠ '_' := by
      rintro c hc rfl
      cases hc
    have hvalue : FloatValue.text .binary32 "" "" "" (.finite negative mantissa scale) =
        (if negative then "-" else "") ++ (Decimal.shortest .binary32 mantissa scale).text := rfl
    rw [hvalue]
    generalize (Decimal.shortest .binary32 mantissa scale).text = digits at htext
    generalize ((if negative = true then "-" else "") ++ digits).toList.any _ = marked
    have hend : '_' ∉ ((if marked = true then "" else ".0") ++ suffix : String).toList := by
      rw [String.toList_append, List.mem_append, not_or]
      refine ⟨?_, hsuffix⟩
      split <;> decide
    rw [String.append_assoc]
    generalize (if marked = true then "" else ".0") ++ suffix = tail at hend
    obtain ⟨hstart, hall⟩ := htext
    have hrest : '_' ∉ digits.toList ++ tail.toList := by
      rw [List.mem_append, not_or]
      exact ⟨fun hm => hnumeric _ (hall _ hm) rfl, hend⟩
    have hhead : (digits.toList ++ tail.toList).head?.any Char.isDigit = true := by
      cases hd : digits.toList with
      | nil =>
        rw [hd] at hstart
        cases hstart
      | cons c cs =>
        rw [hd] at hstart
        exact hstart
    cases negative with
    | false =>
      have hlist : ((if false = true then "-" else "") ++ digits ++ tail : String).toList =
          digits.toList ++ tail.toList := by
        rw [if_neg (by decide), String.empty_append, String.toList_append]
      exact isLiteral_of_digit (hlist ▸ hrest) (.inl (hlist ▸ hhead)) hty
    | true =>
      have hlist : ((if true = true then "-" else "") ++ digits ++ tail : String).toList =
          '-' :: (digits.toList ++ tail.toList) := by
        rw [if_pos rfl, String.append_assoc, String.toList_append, String.toList_append]
        rfl
      refine isLiteral_of_digit ?_ (.inr ⟨_, hlist, hhead⟩) hty
      rw [hlist, List.mem_cons, not_or]
      exact ⟨by decide, hrest⟩

theorem toDigits_start (n : Nat) : (Nat.toDigits 10 n).head?.any Char.isDigit = true ∧
    '_' ∉ Nat.toDigits 10 n := by
  refine ⟨?_, underscore_not_mem_toDigits n⟩
  cases h : Nat.toDigits 10 n with
  | nil => exact absurd h Nat.toDigits_ne_nil
  | cons c cs => exact Nat.isDigit_of_mem_toDigits (b := 10) (by decide) (by decide) (h ▸ List.mem_cons_self)

/-- The literal of a signed number. -/
theorem isLiteral_int (k : Int) (hty : ∀ c n, ty ≠ .vector c n) : IsLiteral ty (toString k) := by
  cases k with
  | ofNat n =>
    have hlist : (toString (Int.ofNat n)).toList = Nat.toDigits 10 n := String.toList_ofList
    obtain ⟨hstart, hmark⟩ := toDigits_start n
    exact isLiteral_of_digit (hlist ▸ hmark) (.inl (hlist ▸ hstart)) hty
  | negSucc n =>
    have hlist : (toString (Int.negSucc n)).toList = '-' :: Nat.toDigits 10 (n + 1) := by
      show ("-" ++ Nat.repr (n + 1)).toList = _
      rw [String.toList_append, show (Nat.repr (n + 1)).toList = _ from String.toList_ofList]
      rfl
    obtain ⟨hstart, hmark⟩ := toDigits_start (n + 1)
    refine isLiteral_of_digit ?_ (.inr ⟨_, hlist, hstart⟩) hty
    rw [hlist, List.mem_cons, not_or]
    exact ⟨by decide, hmark⟩

/-- The literal of an unsigned number. -/
theorem isLiteral_uint (w : UInt32) (hty : ∀ c n, ty ≠ .vector c n) : IsLiteral ty s!"{w}u" := by
  have hlist : (s!"{w}u" : String).toList = Nat.toDigits 10 w.toNat ++ ['u'] := by
    show (toString w ++ "u" : String).toList = _
    rw [String.toList_append, show (toString w).toList = _ from String.toList_ofList]
    rfl
  obtain ⟨hstart, hmark⟩ := toDigits_start w.toNat
  refine isLiteral_of_digit ?_ (.inl ?_) hty
  · rw [hlist, List.mem_append, not_or]
    exact ⟨hmark, by decide⟩
  · rw [hlist]
    cases h : Nat.toDigits 10 w.toNat with
    | nil => exact absurd h Nat.toDigits_ne_nil
    | cons c cs =>
      rw [h] at hstart
      exact hstart

end Numbers

/-! ### Types and constants of a module -/

section Scope

variable [NameLimit] {D A : List Instruction} {R : List UInt32} {globals : List Instruction}
  {t : Tables} {x : UInt32} {ty : Ty} {names names' : Names} {s : String} {depth : Nat}

variable (S : Scope D A R globals) (hold : t.Hold globals)
include S hold

/-- The name of a scalar type is a word. -/
theorem scalarName_plain (h : TypeAt D x ty) (hs : ty.isScalar)
    (hg : Gives (typeNameWithin t (depth + 1) x) names s names') : IsPlainWord s := by
  obtain ⟨info, hinfo, hd⟩ := typeOf_spec S hold h
  obtain ⟨info', hinfo', hg⟩ := gives_lift_bind.1 hg
  rw [hinfo, Except.ok.injEq] at hinfo'
  subst hinfo'
  cases hd with
  | bool =>
    obtain ⟨rfl, -⟩ := gives_pure.1 hg
    exact isPlainWord_of_all rfl (by decide)
  | @int w signed =>
    obtain ⟨rfl, -⟩ := gives_pure.1 hg
    split
    · split <;> exact isPlainWord_of_all rfl (by decide)
    · split <;> exact isPlainWord_of_all rfl (by decide)
  | @float w =>
    obtain ⟨rfl, -⟩ := gives_pure.1 hg
    split <;> exact isPlainWord_of_all rfl (by decide)
  | _ => cases hs

/-- **The name of a type of values is a word.** -/
theorem typeName_plain (h : TypeAt D x ty) (hs : ty.component.isScalar)
    (hg : Gives (typeName t x) names s names') : IsPlainWord s := by
  obtain ⟨info, hinfo, hd⟩ := typeOf_spec S hold h
  obtain ⟨depth, hdepth⟩ := typeName_eq t x
  rw [hdepth] at hg
  by_cases hscalar : ty.isScalar = true
  · exact scalarName_plain S hold h hscalar hg
  obtain ⟨c, n, rfl⟩ : ∃ c n, ty = .vector c n := by
    cases ty with
    | vector c n => exact ⟨c, n, rfl⟩
    | _ => exact absurd hs hscalar
  obtain ⟨info', hinfo', hg⟩ := gives_lift_bind.1 hg
  rw [hinfo, Except.ok.injEq] at hinfo'
  subst hinfo'
  cases hd with
  | vector hc =>
    obtain ⟨element, names₁, hname, hg⟩ := gives_bind.1 hg
    obtain ⟨rfl, -⟩ := gives_pure.1 hg
    exact (scalarName_plain S hold hc (S.vector h).1 hname).append_digits (isDigit_toString_uint32 _)

variable {I : Interpretation} {v : I.Value}

/-- **The literal of a scalar constant.** -/
theorem scalarLiteral_spec (h : ScalarAt I D x ty v)
    (hg : Gives (literalWithin t (depth + 1) x) names s names') : IsLiteral ty s := by
  cases h with
  | @word c x w _ hm hc hs hb =>
    have hlookup : t.constants.lookup x = some ⟨.constant, c, [w]⟩ := constant_eq S hold hm rfl
    obtain ⟨info, hinfo, hd⟩ := typeOf_spec S hold hc
    rw [literalWithin, hlookup] at hg
    obtain ⟨info', hinfo', hg⟩ := gives_lift_bind.1 hg
    obtain ⟨word, hword, hg⟩ := gives_lift_bind.1 hg
    have hinfo' : t.typeOf c = .ok info' := hinfo'
    rw [hinfo, Except.ok.injEq] at hinfo'
    subst hinfo'
    cases hd with
    | float =>
      dsimp only at hg
      split at hg
      · obtain ⟨rfl, -⟩ := gives_pure.1 hg
        exact isLiteral_float _ (by decide) fun _ _ h => by cases h
      · obtain ⟨rfl, -⟩ := gives_pure.1 hg
        exact isLiteral_float _ (by decide) fun _ _ h => by cases h
    | @int w signed =>
      cases signed
      · obtain ⟨rfl, -⟩ := gives_pure.1 hg
        exact isLiteral_uint _ fun _ _ h => by cases h
      · obtain ⟨rfl, -⟩ := gives_pure.1 hg
        exact isLiteral_int _ fun _ _ h => by cases h
    | bool => exact absurd rfl hb
    | _ => cases hs
  | @yes c x hm hc =>
    have hlookup : t.constants.lookup x = some ⟨.constantTrue, c, []⟩ := constant_eq S hold hm rfl
    rw [literalWithin, hlookup] at hg
    obtain ⟨rfl, -⟩ := gives_pure.1 hg
    exact (isPlainWord_of_all rfl (by decide)).isLiteral fun _ _ h => by cases h
  | @no c x hm hc =>
    have hlookup : t.constants.lookup x = some ⟨.constantFalse, c, []⟩ := constant_eq S hold hm rfl
    rw [literalWithin, hlookup] at hg
    obtain ⟨rfl, -⟩ := gives_pure.1 hg
    exact (isPlainWord_of_all rfl (by decide)).isLiteral fun _ _ h => by cases h

/-- The literal of the zero of a type of values. -/
theorem zeroLiteral_spec (h : TypeAt D x ty) (hs : ty.component.isScalar)
    (hg : Gives (zeroLiteral t x) names s names') : IsLiteral ty s := by
  obtain ⟨info, hinfo, hd⟩ := typeOf_spec S hold h
  obtain ⟨info', hinfo', hg⟩ := gives_lift_bind.1 hg
  rw [hinfo, Except.ok.injEq] at hinfo'
  subst hinfo'
  have hcall : Gives (do return (← typeName t x) ++ "(0)" : Naming String) names s names' →
      IsLiteral ty s := by
    intro hg
    obtain ⟨type, names₁, htype, hg⟩ := gives_bind.1 hg
    obtain ⟨rfl, -⟩ := gives_pure.1 hg
    have hlit := (typeName_plain S hold h hs htype).isLiteral_call ty (show '_' ∉ "0".toList by decide)
    rwa [String.append_assoc, String.append_assoc] at hlit
  cases hd with
  | bool =>
    obtain ⟨rfl, -⟩ := gives_pure.1 hg
    exact (isPlainWord_of_all rfl (by decide)).isLiteral fun _ _ h => by cases h
  | int | float | vector => exact hcall hg
  | _ => cases hs

/-- **The literal of a constant.** -/
theorem literal_spec (h : GlobalAt I D x ty (.value v)) (hg : Gives (literal t x) names s names') :
    IsLiteral ty s := by
  obtain ⟨depth, hdepth⟩ := literal_eq t x
  rw [hdepth] at hg
  cases h with
  | scalar hs => exact scalarLiteral_spec S hold hs hg
  | @null c x _ hm hc hs =>
    have hlookup : t.constants.lookup x = some ⟨.constantNull, c, []⟩ := constant_eq S hold hm rfl
    rw [literalWithin, hlookup] at hg
    exact zeroLiteral_spec S hold hc hs hg
  | @composite c x n e parts vs hm hc _ _ hparts =>
    have hlookup : t.constants.lookup x = some ⟨.constantComposite, c, parts⟩ :=
      constant_eq S hold hm rfl
    rw [literalWithin, hlookup] at hg
    obtain ⟨texts, names₁, htexts, hg⟩ := gives_bind.1 hg
    obtain ⟨type, names₂, htype, hg⟩ := gives_bind.1 hg
    obtain ⟨rfl, -⟩ := gives_pure.1 hg
    refine (typeName_plain S hold hc (S.vector hc).1 htype).isLiteral_call _ (not_mem_intercalate (by decide) ?_)
    have hall : List.Forall₂ (fun _ text => '_' ∉ text.toList) parts texts := by
      refine gives_mapM (fun p hp names text names' h => ?_) htexts
      obtain ⟨v, -, hv⟩ := exists_of_mem_left hparts hp
      exact (scalarLiteral_spec S hold hv h).unmarked
    intro text htext
    obtain ⟨p, -, hp⟩ := exists_of_mem_right hall htext
    exact hp

end Scope

end Metal

end NodeShader
