import Mathlib.Data.Nat.Find
import NodeShader.Proofs.Metal.Identifiers

/-!
# Tokens of Metal source

Source text falls into tokens by the longest-match rule: from the left, blanks aside, the next token is
the longest one that the rest starts with (`tokens`).  Identifiers, numbers and operators are tokens;
character and string literals, which no text of a program holds, are left out.

A text that is put together from pieces has their tokens if each of them fits what follows it
(`Legible.tokens_eq`).  What starts with a blank, a bracket, a comma or a semicolon fits after anything
(`tokens_append`), and anything fits after these (`tokens_separator`).
-/

namespace NodeShader.Metal

/-! ### Tokens -/

def isBlank (c : Char) : Bool := c = ' ' || c = '\n' || c = '\t'

/-- An identifier or a keyword. -/
def isIdentifier : List Char → Bool
  | [] => false
  | c :: cs => (c.isAlpha || c = '_') && cs.all isWordChar

/-- What may follow the first digit of a number: letters, digits, points, and signs after an `e`. -/
def isNumberTail : List Char → Bool
  | [] => true
  | [c] => isWordChar c || c = '.'
  | c :: d :: cs =>
    if (c = 'e' || c = 'E') && (d = '+' || d = '-') then isNumberTail cs
    else (isWordChar c || c = '.') && isNumberTail (d :: cs)

/-- A number, well-formed or not: a digit, or a point and a digit, and what may follow. -/
def isNumber : List Char → Bool
  | [] => false
  | c :: cs => (c.isDigit || c = '.' && cs.head?.any Char.isDigit) && isNumberTail cs

/-- The operators and punctuators of the language, and the marks that open a comment. -/
def operators : List (List Char) :=
  ["\x7b", "\x7d", "[", "]", "#", "##", "(", ")", "<:", ":>", "<%", "%>", "%:", "%:%:", ";", ":", "...", "?",
    "::", ".", ".*", "+", "-", "*", "/", "%", "^", "&", "|", "~", "!", "=", "<", ">", "+=", "-=", "*=",
    "/=", "%=", "^=", "&=", "|=", "<<", ">>", ">>=", "<<=", "==", "!=", "<=", ">=", "&&", "||", "++",
    "--", ",", "->*", "->", "//", "/*"].map String.toList

/-- A token: an identifier, a number, an operator, or any other character by itself. -/
def isToken (w : List Char) : Bool :=
  isIdentifier w || isNumber w || operators.contains w || w.length = 1 && !w.any isBlank

/-- The length of the longest token that a text starts with. -/
def longest (s : List Char) : Nat := Nat.findGreatest (fun n => isToken (s.take n) = true) s.length

/-- The tokens of a text from place `n` on. -/
def tokensAfter : Nat → List Char → List (List Char)
  | _, [] => []
  | n + 1, _ :: s => tokensAfter n s
  | 0, c :: s =>
    if isBlank c then tokensAfter 0 s
    else (c :: s).take (longest (c :: s)) :: tokensAfter (longest (c :: s) - 1) s

/-- **The tokens of a text** by the longest-match rule. -/
def tokens (s : List Char) : List (List Char) := tokensAfter 0 s

/-- Characters that are tokens by themselves, whatever stands beside them, and the blank. -/
def isSeparator (c : Char) : Bool := [' ', '(', ')', ',', ';'].contains c

section Tokens

variable {c d : Char} {s u v w : List Char}

theorem tokensAfter_eq (n : Nat) (s : List Char) : tokensAfter n s = tokens (s.drop n) := by
  induction s generalizing n with
  | nil =>
    cases n with
    | zero => rfl
    | succ n => rfl
  | cons c s ih =>
    cases n with
    | zero => rfl
    | succ n => exact ih n

theorem tokens_blank (h : isBlank c = true) : tokens (c :: s) = tokens s := by
  rw [tokens, tokensAfter, if_pos h]
  rfl

/-- A single character is a token, unless it is a blank. -/
theorem isToken_singleton (h : isBlank c = false) : isToken [c] = true := by
  simp [isToken, h]

/-- No token starts with a blank. -/
theorem isBlank_of_isToken (h : isToken (c :: w) = true) : isBlank c = false := by
  rw [Bool.eq_false_iff]
  intro hc
  rw [isBlank] at hc
  simp only [Bool.or_eq_true, decide_eq_true_eq] at hc
  have hops : ∀ op ∈ operators, op.head?.all (fun c => !isBlank c) = true := by decide
  rw [isToken] at h
  simp only [Bool.or_eq_true, Bool.and_eq_true, List.contains_iff_mem] at h
  rcases h with ((h | h) | h) | h
  · rcases hc with (rfl | rfl) | rfl <;> exact absurd h (by simp [isIdentifier])
  · rcases hc with (rfl | rfl) | rfl <;> exact absurd h (by simp [isNumber])
  · have hhead : isBlank c = false := by simpa using hops _ h
    rcases hc with (rfl | rfl) | rfl <;> cases hhead
  · rcases hc with (rfl | rfl) | rfl <;> exact absurd h.2 (by simp [isBlank])

/-- **The next token**: one that no longer token starts with, as far as the text goes. -/
theorem tokens_token (hw : isToken w = true) (hmax : ∀ x y, v = x ++ y → x ≠ [] → isToken (w ++ x) = false) :
    tokens (w ++ v) = w :: tokens v := by
  cases w with
  | nil => cases hw
  | cons c w =>
    have hlongest : longest (c :: w ++ v) = w.length + 1 := by
      refine Nat.findGreatest_eq_iff.2 ⟨by simp, fun _ => ?_, fun m hm hle => ?_⟩
      · rw [← List.length_cons (a := c), List.take_left' rfl]
        exact hw
      · obtain ⟨k, rfl⟩ : ∃ k, m = (c :: w).length + k := ⟨m - (c :: w).length, by
          rw [List.length_cons]; omega⟩
        rw [List.length_append, List.length_cons] at hle
        rw [List.length_cons] at hm
        rw [List.take_length_add_append, hmax _ _ (List.take_append_drop k v).symm]
        · decide
        · rw [ne_eq, ← List.length_eq_zero_iff, List.length_take]
          omega
    show tokensAfter 0 (c :: (w ++ v)) = _
    rw [tokensAfter, if_neg (by rw [isBlank_of_isToken hw]; decide)]
    rw [show c :: (w ++ v) = c :: w ++ v from rfl, hlongest, tokensAfter_eq]
    congr 1
    · exact List.take_left' rfl
    · exact congrArg tokens (List.drop_left' rfl)

/-- A text that does not start with a blank starts with a token. -/
theorem exists_token (hc : isBlank c = false) : ∃ w v, c :: s = w ++ v ∧ isToken w = true ∧
    ∀ x y, v = x ++ y → x ≠ [] → isToken (w ++ x) = false := by
  have hle : longest (c :: s) ≤ (c :: s).length := Nat.findGreatest_le _
  have hspec : isToken ((c :: s).take (longest (c :: s))) = true :=
    Nat.findGreatest_spec (P := fun n => isToken ((c :: s).take n) = true) (m := 1) (by simp)
      (isToken_singleton hc)
  refine ⟨_, _, (List.take_append_drop (longest (c :: s)) _).symm, hspec, fun x y hxy hx => ?_⟩
  rw [Bool.eq_false_iff]
  intro htok
  have hlen := congrArg List.length hxy
  rw [List.length_drop, List.length_append] at hlen
  have hpos := List.length_pos_of_ne_nil hx
  refine Nat.findGreatest_is_greatest (P := fun n => isToken ((c :: s).take n) = true)
    (n := (c :: s).length) (k := longest (c :: s) + x.length) ?_ (by omega) ?_
  · show longest (c :: s) < _
    omega
  · show isToken ((c :: s).take (longest (c :: s) + x.length)) = true
    rw [List.take_add, hxy, List.take_left' rfl]
    exact htok

/-! ### Where texts meet -/

/-- The characters of a number after the first. -/
theorem mem_isNumberTail (h : isNumberTail s = true) :
    ∀ c ∈ s, isWordChar c = true ∨ c = '.' ∨ c = '+' ∨ c = '-' := by
  fun_induction isNumberTail s with
  | case1 => exact fun _ hc => absurd hc List.not_mem_nil
  | case2 c =>
    simp only [Bool.or_eq_true, decide_eq_true_eq] at h
    intro d hd
    rw [List.mem_singleton] at hd
    subst hd
    exact h.imp id .inl
  | case3 c d cs hsign ih =>
    simp only [Bool.or_eq_true, Bool.and_eq_true, decide_eq_true_eq] at hsign
    refine List.forall_mem_cons.2 ⟨.inl ?_, List.forall_mem_cons.2 ⟨.inr (.inr hsign.2), ih h⟩⟩
    rcases hsign.1 with rfl | rfl <;> decide
  | case4 c d cs hsign ih =>
    simp only [Bool.and_eq_true, Bool.or_eq_true, decide_eq_true_eq] at h
    exact List.forall_mem_cons.2 ⟨h.1.imp id .inl, ih h.2⟩

/-- **No token goes on with a separator.** -/
theorem isSeparator_of_isToken (h : isToken (c :: w) = true) : ∀ d ∈ w, isSeparator d = false := by
  have hword : ∀ d, isWordChar d = true → isSeparator d = false := by
    intro d hd
    rw [Bool.eq_false_iff]
    intro hs
    rw [isSeparator, List.contains_iff_mem] at hs
    have hall : [' ', '(', ')', ',', ';'].all (fun d => !isWordChar d) = true := by decide
    have := List.all_eq_true.1 hall d hs
    rw [hd] at this
    cases this
  have hops : ∀ op ∈ operators, op.tail.all (fun d => !isSeparator d) = true := by decide
  rw [isToken] at h
  simp only [Bool.or_eq_true, Bool.and_eq_true, List.contains_iff_mem, decide_eq_true_eq] at h
  rcases h with ((h | h) | h) | h
  · rw [isIdentifier, Bool.and_eq_true, List.all_eq_true] at h
    exact fun d hd => hword d (h.2 d hd)
  · rw [isNumber, Bool.and_eq_true] at h
    intro d hd
    rcases mem_isNumberTail h.2 d hd with hd | rfl | rfl | rfl
    · exact hword d hd
    all_goals decide
  · exact fun d hd => by simpa using List.all_eq_true.1 (hops _ h) d hd
  · rw [List.length_cons] at h
    obtain rfl : w = [] := List.length_eq_zero_iff.1 (by omega)
    exact fun _ hd => absurd hd List.not_mem_nil

/-- **A separator ends what stands before it.** -/
theorem tokens_append (hv : v.head?.all isSeparator = true) (u : List Char) :
    tokens (u ++ v) = tokens u ++ tokens v := by
  induction hn : u.length using Nat.strongRecOn generalizing u with
  | ind n ih =>
    cases u with
    | nil => rfl
    | cons c u =>
      by_cases hc : isBlank c = true
      · rw [List.cons_append, tokens_blank hc, tokens_blank hc]
        exact ih u.length (by rw [← hn]; exact Nat.lt_succ_self _) u rfl
      · rw [Bool.not_eq_true] at hc
        obtain ⟨w, r, hsplit, hw, hmax⟩ := exists_token (s := u) hc
        have hwlen : w ≠ [] := by
          rintro rfl
          cases hw
        rw [hsplit, List.append_assoc, tokens_token hw hmax, tokens_token hw ?_, List.cons_append]
        · rw [ih r.length ?_ r rfl]
          rw [← hn, hsplit, List.length_append]
          have := List.length_pos_of_ne_nil hwlen
          omega
        · -- what goes on beyond the text before has the separator in it
          intro x y hxy hx
          rcases List.append_eq_append_iff.1 hxy with ⟨z, rfl, hz⟩ | ⟨z, rfl, hz⟩
          · cases z with
            | nil => rw [List.append_nil] at hx ⊢; exact hmax r [] (List.append_nil r).symm hx
            | cons d z =>
              rw [hz] at hv
              rw [Bool.eq_false_iff]
              intro htok
              cases w with
              | nil => exact hwlen rfl
              | cons a w =>
                have hsep := isSeparator_of_isToken (w := w ++ (r ++ d :: z)) htok d (by simp)
                rw [show isSeparator d = true from hv] at hsep
                cases hsep
          · exact hmax x z rfl hx

/-- No other token starts with a separator. -/
theorem tokens_separator (hc : isSeparator c = true) (v : List Char) :
    tokens (c :: v) = tokens [c] ++ tokens v := by
  rw [isSeparator, List.contains_iff_mem] at hc
  by_cases hblank : isBlank c = true
  · rw [tokens_blank hblank, tokens_blank hblank]
    rfl
  · rw [Bool.not_eq_true] at hblank
    have hnone : ∀ x : List Char, x ≠ [] → isToken ([c] ++ x) = false := by
      intro x hx
      rw [Bool.eq_false_iff]
      intro htok
      have hops : ∀ op ∈ operators, op.head?.any isSeparator = true → op.length ≤ 1 := by decide
      have hstart : [' ', '(', ')', ',', ';'].all (fun d => !(d.isAlpha || d = '_') &&
          !(d.isDigit || d = '.')) = true := by decide
      have hd := List.all_eq_true.1 hstart c hc
      rw [Bool.and_eq_true, Bool.not_eq_true', Bool.not_eq_true'] at hd
      obtain ⟨ha, hd⟩ := hd
      rw [Bool.or_eq_false_iff] at hd
      have hlen := List.length_pos_of_ne_nil hx
      rw [isToken] at htok
      simp only [Bool.or_eq_true, Bool.and_eq_true, List.contains_iff_mem, decide_eq_true_eq] at htok
      rcases htok with ((h | h) | h) | h
      · rw [List.singleton_append, isIdentifier, ha] at h
        cases h
      · rw [List.singleton_append, isNumber, hd.1, hd.2] at h
        cases h
      · have := hops _ h (List.contains_iff_mem.2 hc)
        simp only [List.singleton_append, List.length_cons] at this
        omega
      · simp only [List.singleton_append, List.length_cons] at h
        omega
    have h := fun v => tokens_token (v := v) (isToken_singleton hblank) fun x _ _ hx => hnone x hx
    rw [← List.singleton_append, h v, show ([c] : List Char) = [c] ++ [] from rfl, h []]
    rfl

/-- No word is part of an operator. -/
theorem not_isWordChar_of_operator (h : w ∈ operators) : ∀ c ∈ w, isWordChar c = false := by
  have hall : ∀ op ∈ operators, op.all (fun c => !isWordChar c) = true := by decide
  exact fun c hc => by simpa using List.all_eq_true.1 (hall w h) c hc

theorem isWordChar_of_start (h : (c.isAlpha || c = '_') = true) : isWordChar c = true := by
  rw [Bool.or_eq_true, decide_eq_true_eq] at h
  rcases h with h | rfl
  · rw [isWordChar, Char.isAlphanum, h]
    rfl
  · rfl

theorem isIdentifier_cons : isIdentifier (c :: w) = true ↔
    (c.isAlpha || c = '_') = true ∧ ∀ d ∈ w, isWordChar d = true := by
  rw [isIdentifier, Bool.and_eq_true, List.all_eq_true]

/-- A letter is no digit. -/
theorem not_isDigit_of_start (h : (c.isAlpha || c = '_') = true) : (c.isDigit || c = '.') = false := by
  rw [Bool.or_eq_true, decide_eq_true_eq] at h
  rcases h with h | rfl
  · change (decide (c.val ≥ 'A'.val ∧ c.val ≤ 'Z'.val) ||
      (decide (c.val ≥ 'a'.val) && decide (c.val ≤ 'z'.val))) = true at h
    simp only [Bool.or_eq_true, Bool.and_eq_true, decide_eq_true_eq, ge_iff_le, UInt32.le_iff_toNat_le] at h
    rw [Bool.or_eq_false_iff, decide_eq_false_iff_not]
    refine ⟨?_, ?_⟩
    · rw [Bool.eq_false_iff]
      intro hd
      simp only [Char.isDigit, Bool.and_eq_true, decide_eq_true_eq, UInt32.le_iff_toNat_le] at hd
      change (_ ∧ _ ∨ _ ∧ _) at h
      simp at h hd
      omega
    · rintro rfl
      revert h
      decide
  · decide

/-- **An identifier ends** where no word goes on. -/
theorem tokens_identifier (hw : isIdentifier w = true) (hv : v.head?.all (fun c => !isWordChar c) = true) :
    tokens (w ++ v) = w :: tokens v := by
  refine tokens_token (by rw [isToken, hw]; rfl) ?_
  rintro x y rfl hx
  cases w with
  | nil => cases hw
  | cons c w =>
    cases x with
    | nil => exact absurd rfl hx
    | cons d x =>
      have hd : isWordChar d = false := by simpa using hv
      have hc := (isIdentifier_cons.1 hw).1
      rw [Bool.eq_false_iff]
      intro h
      rw [isToken] at h
      simp only [Bool.or_eq_true, Bool.and_eq_true, List.contains_iff_mem, decide_eq_true_eq] at h
      rcases h with ((h | h) | h) | h
      · have := (isIdentifier_cons.1 h).2 d (by simp)
        rw [hd] at this
        cases this
      · rw [List.cons_append, isNumber, Bool.and_eq_true, Bool.or_eq_true, Bool.and_eq_true] at h
        have hdigit := not_isDigit_of_start hc
        rw [Bool.or_eq_false_iff] at hdigit
        rw [hdigit.1, hdigit.2] at h
        simp at h
      · have := not_isWordChar_of_operator h c (by simp)
        rw [isWordChar_of_start hc] at this
        cases this
      · rw [List.length_append, List.length_cons, List.length_cons] at h
        omega

/-- **An operator ends** where no other one goes on. -/
theorem tokens_operator (hw : w ∈ operators) (hstart : w.head? ≠ some '.')
    (hmax : ∀ op ∈ operators, w <+: op → op = w ∨ (op.drop w.length).head? ≠ v.head?) :
    tokens (w ++ v) = w :: tokens v := by
  refine tokens_token (by rw [isToken, List.contains_iff_mem.2 hw]; simp) ?_
  rintro x y rfl hx
  cases w with
  | nil => exact absurd hw (by decide)
  | cons c w =>
    have hc := not_isWordChar_of_operator hw c (by simp)
    have hpos := List.length_pos_of_ne_nil hx
    rw [Bool.eq_false_iff]
    intro h
    rw [isToken] at h
    simp only [Bool.or_eq_true, Bool.and_eq_true, List.contains_iff_mem, decide_eq_true_eq] at h
    rcases h with ((h | h) | h) | h
    · rw [List.cons_append] at h
      rw [isWordChar_of_start (isIdentifier_cons.1 h).1] at hc
      cases hc
    · rw [List.cons_append, isNumber, Bool.and_eq_true, Bool.or_eq_true, Bool.and_eq_true] at h
      rcases h.1 with h | h
      · rw [isWordChar, Char.isAlphanum, h] at hc
        simp at hc
      · rw [decide_eq_true_eq] at h
        exact hstart (by rw [h.1]; rfl)
    · rcases hmax _ h (List.prefix_append _ _) with heq | hne
      · exact hx (List.append_cancel_left (heq.trans (List.append_nil _).symm))
      · rw [List.drop_left' rfl] at hne
        cases x with
        | nil => exact hx rfl
        | cons d x => exact hne rfl
    · rw [List.length_append, List.length_cons] at h
      omega

/-- A minus sign stands alone unless a minus, an equals sign or an arrowhead follows it. -/
theorem tokens_minus (hv : ∀ c ∈ ['-', '=', '>'], v.head? ≠ some c) :
    tokens ('-' :: v) = ['-'] :: tokens v := by
  refine tokens_operator (w := ['-']) (by decide) (by decide) fun op hop hpre => ?_
  have hall : ∀ op ∈ operators, ['-'].isPrefixOf op = true → op = ['-'] ∨
      (op.drop 1).head?.any (fun c => ['-', '=', '>'].contains c) = true := by decide
  refine (hall op hop (List.isPrefixOf_iff_prefix.2 hpre)).imp id fun h heq => ?_
  have heq : (op.drop 1).head? = v.head? := heq
  rw [heq] at h
  obtain ⟨c, hc, h⟩ := (Option.any_eq_true _ _).1 h
  exact hv c (List.contains_iff_mem.1 h) hc

/-- Two minus signs are one operator. -/
theorem tokens_minus_minus (v : List Char) : tokens ('-' :: '-' :: v) = ['-', '-'] :: tokens v := by
  refine tokens_operator (w := ['-', '-']) (by decide) (by decide) fun op hop hpre => ?_
  have hall : ∀ op ∈ operators, ['-', '-'].isPrefixOf op = true → op = ['-', '-'] := by decide
  exact .inl (hall op hop (List.isPrefixOf_iff_prefix.2 hpre))

/-- A point before a letter stands alone. -/
theorem tokens_point (hv : v.head?.any Char.isAlpha = true) : tokens ('.' :: v) = ['.'] :: tokens v := by
  refine tokens_token (w := ['.']) (by decide) ?_
  rintro x y rfl hx
  cases x with
  | nil => exact absurd rfl hx
  | cons c x =>
    have hc : c.isAlpha = true := by simpa using hv
    have hstart : (c.isAlpha || c = '_') = true := by rw [hc]; rfl
    have hops : ∀ op ∈ operators, op.head? = some '.' → op = ['.'] ∨
        (op.drop 1).head?.any (fun c => !isWordChar c) = true := by decide
    rw [Bool.eq_false_iff]
    intro h
    rw [isToken] at h
    simp only [Bool.or_eq_true, Bool.and_eq_true, List.contains_iff_mem, decide_eq_true_eq] at h
    rcases h with ((h | h) | h) | h
    · rw [List.singleton_append, isIdentifier] at h
      simp at h
    · rw [List.singleton_append, isNumber, Bool.and_eq_true, Bool.or_eq_true, Bool.and_eq_true] at h
      have hd := not_isDigit_of_start hstart
      rw [Bool.or_eq_false_iff] at hd
      rcases h.1 with h | h
      · cases h
      · have h : c.isDigit = true := h.2
        rw [hd.1] at h
        cases h
    · rcases hops _ h rfl with heq | hw
      · cases heq
      · rw [show (List.drop 1 (['.'] ++ c :: x)).head? = some c from rfl] at hw
        have := isWordChar_of_start hstart
        simp [this] at hw
    · rw [List.singleton_append, List.length_cons, List.length_cons] at h
      omega

/-! ### Texts that end in a word or a bracket -/

/-- A text that ends where no word goes on. -/
def Closed (s : List Char) : Prop :=
  ∀ v : List Char, v.head?.all (fun c => !isWordChar c) = true → tokens (s ++ v) = tokens s ++ tokens v

theorem tokens_of_identifier (hw : isIdentifier w = true) : tokens w = [w] := by
  have h := tokens_identifier (v := []) hw rfl
  rwa [List.append_nil] at h

theorem closed_identifier (hw : isIdentifier w = true) : Closed w := fun v hv => by
  rw [tokens_identifier hw hv, tokens_of_identifier hw]
  rfl

/-- Anything goes on after a separator. -/
theorem tokens_concat (hc : isSeparator c = true) (s v : List Char) :
    tokens (s ++ [c] ++ v) = tokens (s ++ [c]) ++ tokens v := by
  have hone : ∀ v : List Char, (c :: v).head?.all isSeparator = true := fun _ => hc
  rw [List.append_assoc, List.singleton_append, tokens_append (hone v), tokens_append (hone []),
    tokens_separator hc v, List.append_assoc]

theorem closed_concat (hc : isSeparator c = true) (s : List Char) : Closed (s ++ [c]) :=
  fun v _ => tokens_concat hc s v

/-- A member of what a text stands for. -/
theorem Closed.member (hs : Closed s) (hw : isIdentifier w = true) (hstart : w.head?.any Char.isAlpha = true) :
    Closed (s ++ '.' :: w) ∧ tokens (s ++ '.' :: w) = tokens s ++ [['.'], w] := by
  have hall : ∀ v : List Char, v.head?.all (fun c => !isWordChar c) = true →
      tokens (s ++ '.' :: w ++ v) = tokens s ++ ['.'] :: w :: tokens v := by
    intro v hv
    rw [List.append_assoc, hs _ rfl, List.cons_append, tokens_point, tokens_identifier hw hv]
    cases w with
    | nil => cases hstart
    | cons c w => exact hstart
  have hnil := hall [] rfl
  rw [List.append_nil] at hnil
  refine ⟨fun v hv => ?_, hnil⟩
  rw [hall v hv, hnil, List.append_assoc]
  rfl

end Tokens

/-! ### Texts put together from pieces -/

/-- A piece of a text: a token that is written for it, a blank, or the expression of an identifier. -/
inductive Piece where
  | token (s : String)
  | gap
  | operand (x : UInt32) (s : String)

namespace Piece

def text : Piece → String
  | token s => s
  | gap => " "
  | operand _ s => s

/-- **The tokens that a piece stands for**: one, none, or those of the expression. -/
def tokens : Piece → List (List Char)
  | token s => [s.toList]
  | gap => []
  | operand _ s => Metal.tokens s.toList

/-- A piece that keeps its tokens before a text. -/
def Fits (p : Piece) (v : List Char) : Prop := Metal.tokens (p.text.toList ++ v) = p.tokens ++ Metal.tokens v

end Piece

/-- Pieces with commas between them. -/
def commas : List Piece → List Piece
  | [] => []
  | [p] => [p]
  | p :: q :: ps => p :: .token "," :: .gap :: commas (q :: ps)

/-- A function with its arguments. -/
def call (function : String) (arguments : List Piece) : List Piece :=
  .token function :: .token "(" :: (commas arguments ++ [.token ")"])

/-- The text of pieces. -/
def textOf : List Piece → String
  | [] => ""
  | p :: ps => p.text ++ textOf ps

/-- **Pieces that read back as they were put together**: the tokens of the text are those of the pieces. -/
def ReadsBack (ps : List Piece) : Prop := tokens (textOf ps).toList = ps.flatMap Piece.tokens

/-- Pieces that keep their tokens, each before those that follow. -/
def Legible : List Piece → Prop
  | [] => True
  | p :: ps => p.Fits (textOf ps).toList ∧ Legible ps

section Pieces

variable {p : Piece} {ps qs : List Piece} {v : List Char} {x : UInt32} {s : String}

/-- **Pieces that keep their tokens read back.** -/
theorem Legible.readsBack (h : Legible ps) : ReadsBack ps := by
  induction ps with
  | nil => rfl
  | cons p ps ih =>
    show tokens (p.text ++ textOf ps).toList = p.tokens ++ ps.flatMap Piece.tokens
    rw [String.toList_append, h.1, ih h.2]

theorem textOf_append (ps qs : List Piece) : textOf (ps ++ qs) = textOf ps ++ textOf qs := by
  induction ps with
  | nil => exact (String.empty_append).symm
  | cons p ps ih => rw [List.cons_append, textOf, textOf, ih, String.append_assoc]

theorem textOf_commas (ps : List Piece) : textOf (commas ps) = ", ".intercalate (ps.map Piece.text) := by
  fun_induction commas ps with
  | case1 => rfl
  | case2 p => rw [textOf, textOf, String.append_empty]; rfl
  | case3 p q ps ih =>
    rw [textOf, textOf, textOf, ih]
    simp only [List.map_cons, String.intercalate_cons_cons, String.append_assoc]
    rfl

theorem textOf_call (function : String) (ps : List Piece) :
    textOf (call function ps) = function ++ "(" ++ ", ".intercalate (ps.map Piece.text) ++ ")" := by
  rw [call, textOf, textOf, textOf_append, textOf_commas, String.append_assoc, String.append_assoc]
  rfl

namespace Piece

/-- A blank fits before anything. -/
theorem fits_gap (v : List Char) : gap.Fits v := tokens_separator rfl v

/-- So does a separator. -/
theorem fits_separator {c : Char} (hs : s.toList = [c]) (hc : isSeparator c = true) (hblank : isBlank c = false)
    (v : List Char) : (token s).Fits v := by
  rw [Fits, text, tokens, hs, List.singleton_append, tokens_separator hc v]
  congr 1
  exact tokens_token (v := []) (isToken_singleton hblank) fun x y h hx =>
    absurd (List.append_eq_nil_iff.1 h.symm).1 hx

/-- A token fits before a separator. -/
theorem fits_token (hs : isToken s.toList = true) (hv : v.head?.all isSeparator = true) : (token s).Fits v := by
  rw [Fits, text, tokens, tokens_append hv]
  congr 1
  have h := tokens_token (v := []) hs fun x y h hx => absurd (List.append_eq_nil_iff.1 h.symm).1 hx
  rwa [List.append_nil] at h

/-- An expression fits before a separator. -/
theorem fits_operand (hv : v.head?.all isSeparator = true) : (operand x s).Fits v := tokens_append hv _

/-- What fits before a text fits before more of it. -/
theorem Fits.append {u : List Char} (h : p.Fits u) (hv : v.head?.all isSeparator = true) : p.Fits (u ++ v) := by
  rw [Fits, ← List.append_assoc, tokens_append hv, h, tokens_append hv, List.append_assoc]

end Piece

/-- Pieces after others, from a separator on. -/
theorem Legible.append (h : Legible ps) (h' : Legible qs) (hv : (textOf qs).toList.head?.all isSeparator = true) :
    Legible (ps ++ qs) := by
  induction ps with
  | nil => exact h'
  | cons p ps ih =>
    refine ⟨?_, ih h.2⟩
    show p.Fits (textOf (ps ++ qs)).toList
    rw [textOf_append, String.toList_append]
    exact h.1.append hv

/-- Expressions with commas between them keep their tokens. -/
theorem legible_commas (args : List (UInt32 × String)) :
    Legible (commas (args.map fun a => .operand a.1 a.2)) := by
  induction args with
  | nil => trivial
  | cons a args ih =>
    cases args with
    | nil => exact ⟨Piece.fits_operand rfl, trivial⟩
    | cons b args =>
      refine ⟨Piece.fits_operand ?_, Piece.fits_separator (c := ',') rfl rfl rfl _, Piece.fits_gap _, ih⟩
      rw [textOf, String.toList_append]
      rfl

/-- **A function with expressions as arguments** keeps its tokens. -/
theorem legible_call (hs : isToken s.toList = true) (args : List (UInt32 × String)) :
    Legible (call s (args.map fun a => .operand a.1 a.2)) := by
  refine ⟨Piece.fits_token hs ?_, Piece.fits_separator (c := '(') rfl rfl rfl _, (legible_commas args).append
    ⟨Piece.fits_separator (c := ')') rfl rfl rfl _, trivial⟩ rfl⟩
  rw [textOf, String.toList_append]
  rfl

end Pieces

end NodeShader.Metal
