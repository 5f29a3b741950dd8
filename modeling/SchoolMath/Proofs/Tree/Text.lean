import SchoolMath.Proofs.Arithmetic.Reading
import SchoolMath.Proofs.Arithmetic.Spelling
import SchoolMath.Proofs.Number.Numeral
import SchoolMath.Tree.Text

/-!
# `Tree.Text` — a tree is read back from its text

The writer of trees decides on parentheses by ranks, the grammar has layers. Each rank is that of a
layer, and an operand that stands without parentheses has at least the rank that its place asks for;
so the tokens of a tree derive it at the layer of its rank (`derives_tokens`), and the text, in
which they stand without blanks between them, is read as these tokens.

What is read is the tree itself, but for negative constants: their sign is read as a negation.
-/

namespace SchoolMath

open Arithmetic Surface

variable {K : Type}

/-! ## Layers and ranks -/

namespace Arithmetic

variable {level level' : Level}

/-- How strongly the trees of a layer bind, as a rank. -/
def Level.rank : Level → Nat
  | .sum => 1
  | .term => 2
  | .unary => 3
  | .power => 4
  | .atom => 5

/-- The layer around a layer. -/
def Level.looser : Level → Level
  | .atom => .power
  | .power => .unary
  | .unary => .term
  | .term | .sum => .sum

/-- A layer with a lower rank is one further out. -/
theorem Level.exists_looser (hrank : level'.rank ≤ level.rank) :
    ∃ n, level' = Level.looser^[n] level := by
  refine ⟨level.rank - level'.rank, ?_⟩
  revert hrank
  cases level <;> cases level' <;> decide

variable [Numeral K] {ts : List Token} {t : Tree K}

theorem Derives.looser (h : Derives level ts t) : Derives level.looser ts t := by
  cases level with
  | sum => exact h
  | term => exact .ofTerm h
  | unary => exact .ofUnary h
  | power => exact .ofPower h
  | atom => exact .ofAtom h

/-- What binds strongly may stand where something looser is asked for. -/
theorem Derives.loosen (h : Derives level ts t) (hrank : level'.rank ≤ level.rank) :
    Derives level' ts t := by
  obtain ⟨n, rfl⟩ := Level.exists_looser hrank
  clear hrank
  induction n with
  | zero => exact h
  | succ n ih =>
    rw [Function.iterate_succ_apply']
    exact ih.looser

end Arithmetic

/-! ## The tokens of a tree -/

/-- The rank from which on a left operand stands without parentheses. -/
def Operator.leftRank (op : Operator) : Nat := if op = .power then op.rank + 1 else op.rank

/-- The rank from which on a right operand stands without parentheses. -/
def Operator.rightRank (op : Operator) : Nat := if op = .power then op.rank else op.rank + 1

/-- A left operand needs parentheses below the rank of the operation, and at this rank if the
operation groups to the right. -/
theorem Operator.lt_leftRank {op : Operator} {n : Nat} :
    n < op.leftRank ↔ if op = .power then n ≤ op.rank else n < op.rank := by
  unfold leftRank
  split
  · exact Nat.lt_succ_iff
  · rfl

/-- A right operand needs parentheses below the rank of the operation, and at this rank if the
operation groups to the left. -/
theorem Operator.lt_rightRank {op : Operator} {n : Nat} :
    n < op.rightRank ↔ if op = .power then n < op.rank else n ≤ op.rank := by
  unfold rightRank
  split
  · rfl
  · exact Nat.lt_succ_iff

/-- Tokens in parentheses if `needed`. -/
def Arithmetic.inParentheses (needed : Bool) (ts : List Token) : List Token :=
  if needed then .opening :: ts ++ [.closing] else ts

namespace Tree

/-- The constants in the tree from left to right. -/
def constants : Tree K → List K
  | .const value => [value]
  | .var _ => []
  | .neg operand => operand.constants
  | .binary _ left right => left.constants ++ right.constants

/-- What the leaves of a tree need for its text to be read: names of the grammar, and finite numbers
other than the negative zero. -/
structure HasReadableLeaves [Zero K] [Neg K] [Finiteness K] (t : Tree K) : Prop where
  names : ∀ name ∈ t.names, IsIdentifier name.toList
  constants : ∀ c ∈ t.constants, isFinite c = true ∧ c ≠ -0

namespace HasReadableLeaves

variable [Zero K] [Neg K] [Finiteness K] {op : Operator} {t u : Tree K}

theorem operand (h : (neg t).HasReadableLeaves) : t.HasReadableLeaves := ⟨h.names, h.constants⟩

theorem left (h : (binary op t u).HasReadableLeaves) : t.HasReadableLeaves where
  names name hname := h.names name (List.mem_append_left _ hname)
  constants c hc := h.constants c (List.mem_append_left _ hc)

theorem right (h : (binary op t u).HasReadableLeaves) : u.HasReadableLeaves where
  names name hname := h.names name (List.mem_append_right _ hname)
  constants c hc := h.constants c (List.mem_append_right _ hc)

/-- A constant is an unsigned number or the negation of one. -/
theorem isUnsigned [Numeral K] [LT K] (hnumerals : ReadableNumerals K) {value : K}
    (h : (const value).HasReadableLeaves) :
    (value < 0 → IsUnsigned (-value)) ∧ (¬ value < 0 → IsUnsigned value) := by
  obtain ⟨hfinite, hzero⟩ := h.constants value List.mem_cons_self
  exact ⟨hnumerals.isUnsigned_neg value hfinite, fun hneg => ⟨hfinite, hneg, hzero⟩⟩

end HasReadableLeaves

variable [Zero K] [LT K] [DecidableLT K]

/-- The layer of the outermost operation of a tree. -/
def level : Tree K → Level
  | .const value => if value < 0 then .unary else .atom
  | .var _ => .atom
  | .neg _ => .unary
  | .binary .plus _ _ | .binary .minus _ _ => .sum
  | .binary .times _ _ | .binary .over _ _ => .term
  | .binary .power _ _ => .power

/-- The rank of a tree is that of its layer. -/
theorem rank_level (t : Tree K) : t.level.rank = t.rank := by
  cases t with
  | const value => rw [level, rank]; split <;> rfl
  | var name => rfl
  | neg operand => rfl
  | binary op left right => cases op <;> rfl

variable [Neg K]

/-- The tree with each negative constant written as the negation of its absolute value. -/
def spellSigns : Tree K → Tree K
  | .const value => if value < 0 then .neg (.const (-value)) else .const value
  | .var name => .var name
  | .neg operand => .neg operand.spellSigns
  | .binary op left right => .binary op left.spellSigns right.spellSigns

variable [Numeral K]

/-- The tokens of the text of a tree. -/
def tokens : Tree K → List Token
  | .const value =>
    if value < 0 then [.operator .minus, .number (Numeral.write (-value)).toList]
    else [.number (Numeral.write value).toList]
  | .var name => [.word name.toList]
  | .neg operand => .operator .minus :: inParentheses (operand.rank < negationRank) operand.tokens
  | .binary op left right =>
    inParentheses (left.rank < op.leftRank) left.tokens ++
      .operator op :: inParentheses (right.rank < op.rightRank) right.tokens

/-! ## The tokens of a tree derive it -/

omit [Neg K] in
/-- An operand stands in its place, in parentheses if its rank is too low for it. -/
theorem derives_inParentheses {t t' : Tree K} {ts : List Token} {place : Level} {rank : Nat}
    (h : Derives t.level ts t') (hrank : place.rank ≤ rank) :
    Derives place (inParentheses (t.rank < rank) ts) t' := by
  unfold inParentheses
  split
  · have hsum : Derives .sum ts t' := h.loosen (by cases t.level <;> decide)
    exact Derives.loosen (.group hsum) (by cases place <;> decide)
  · next hbinds =>
    have hbinds : ¬ t.rank < rank := by simpa using hbinds
    exact h.loosen (by rw [rank_level]; omega)

variable [Finiteness K]

/-- The tokens of a tree derive it at the layer of its rank. -/
theorem derives_tokens (hnumerals : ReadableNumerals K) {t : Tree K} (h : t.HasReadableLeaves) :
    Derives t.level t.tokens t.spellSigns := by
  induction t with
  | const value =>
    obtain ⟨hnegative, hunsigned⟩ := h.isUnsigned hnumerals
    have hatom : ∀ c : K, IsUnsigned c →
        Derives .atom [.number (Numeral.write c).toList] (.const c) := by
      intro c hc
      have hnumber := Derives.number (K := K) (Numeral.write c).toList
      rwa [String.ofList_toList, hnumerals.read_write c hc] at hnumber
    rw [level, tokens, spellSigns]
    split
    · next hneg => exact .negative (.ofPower (.ofAtom (hatom _ (hnegative hneg))))
    · next hneg => exact hatom _ (hunsigned hneg)
  | var name =>
    obtain ⟨-, hkeyword⟩ := h.names name List.mem_cons_self
    have hname := Derives.name (K := K) hkeyword
    rwa [String.ofList_toList] at hname
  | neg operand ih => exact .negative (derives_inParentheses (ih h.operand) (Nat.le_refl 3))
  | binary op left right ihl ihr =>
    have ihl := ihl h.left
    have ihr := ihr h.right
    -- each layer of the grammar asks for operands of the ranks that the writer asks for
    cases op with
    | plus | minus =>
      refine .sum (by simp) (derives_inParentheses ihl ?_) (derives_inParentheses ihr ?_) <;> decide
    | times | «over» =>
      refine .term (by simp) (derives_inParentheses ihl ?_) (derives_inParentheses ihr ?_) <;> decide
    | power =>
      refine .power (derives_inParentheses ihl ?_) (derives_inParentheses ihr ?_) <;> decide

/-! ## The text of a tree spells its tokens -/

omit [Zero K] [LT K] [DecidableLT K] [Neg K] [Numeral K] [Finiteness K] in
/-- Every symbol can be spelled. -/
theorem spells_spelling_of_symbol {token : Token} (h : token.lead = .symbol) :
    token.Spells token.spelling := by
  cases token with
  | number | word => cases h
  | operator op => cases op <;> exact .symbol (by decide)
  | opening | closing => exact .symbol (by decide)

omit [Zero K] [LT K] [DecidableLT K] [Neg K] [Numeral K] [Finiteness K] in
/-- Parentheses can be spelled. -/
theorem spells_inParentheses {needed : Bool} {ts : List Token}
    (h : ∀ token ∈ ts, token.Spells token.spelling) :
    ∀ token ∈ inParentheses needed ts, token.Spells token.spelling := by
  unfold inParentheses
  split
  · intro token htoken
    rcases List.mem_append.1 htoken with htoken | htoken
    · rcases List.mem_cons.1 htoken with rfl | htoken
      · exact spells_spelling_of_symbol rfl
      · exact h token htoken
    · obtain rfl := List.mem_singleton.1 htoken
      exact spells_spelling_of_symbol rfl
  · exact h

/-- Every token of a tree can be spelled. -/
theorem spells_tokens (hnumerals : ReadableNumerals K) {t : Tree K} (h : t.HasReadableLeaves) :
    ∀ token ∈ t.tokens, token.Spells token.spelling := by
  induction t with
  | const value =>
    obtain ⟨hnegative, hunsigned⟩ := h.isUnsigned hnumerals
    rw [tokens]
    split
    · next hneg =>
      have hnumber := hnumerals.isNumber_write _ (hnegative hneg)
      exact List.forall_mem_cons.2 ⟨spells_spelling_of_symbol rfl,
        List.forall_mem_singleton.2 (.number hnumber)⟩
    · next hneg =>
      exact List.forall_mem_singleton.2 (.number (hnumerals.isNumber_write _ (hunsigned hneg)))
  | var name =>
    obtain ⟨hword, -⟩ := h.names name List.mem_cons_self
    exact List.forall_mem_singleton.2 (.word hword)
  | neg operand ih =>
    exact List.forall_mem_cons.2 ⟨spells_spelling_of_symbol rfl,
      spells_inParentheses (ih h.operand)⟩
  | binary op left right ihl ihr =>
    exact List.forall_mem_append.2 ⟨spells_inParentheses (ihl h.left),
      List.forall_mem_cons.2 ⟨spells_spelling_of_symbol rfl, spells_inParentheses (ihr h.right)⟩⟩

omit [Zero K] [LT K] [DecidableLT K] [Neg K] [Numeral K] [Finiteness K] in
/-- Parentheses around characters are those around tokens. -/
theorem flatMap_inParentheses (needed : Bool) (ts : List Token) :
    (inParentheses needed ts).flatMap Token.spelling =
      parenthesized needed (ts.flatMap Token.spelling) := by
  cases needed with
  | false => rfl
  | true => simp [inParentheses, parenthesized, Token.spelling]

/-- The text of a tree spells its tokens. -/
theorem chars_eq (hnumerals : ReadableNumerals K) {t : Tree K} (h : t.HasReadableLeaves) :
    t.chars = t.tokens.flatMap Token.spelling := by
  induction t with
  | const value =>
    obtain ⟨hfinite, -⟩ := h.constants value List.mem_cons_self
    rw [chars, tokens]
    split
    · next hneg =>
      rw [hnumerals.write_negative value hfinite hneg, String.toList_append]
      simp [Token.spelling]
    · simp [Token.spelling]
  | var name => simp [chars, tokens, Token.spelling]
  | neg operand ih =>
    rw [chars, tokens, List.flatMap_cons, flatMap_inParentheses, ih h.operand]
    rfl
  | binary op left right ihl ihr =>
    have hsymbol : op.symbol.toList = (Token.operator op).spelling := by cases op <;> rfl
    simp only [chars, tokens, List.flatMap_append, List.flatMap_cons, flatMap_inParentheses,
      ihl h.left, ihr h.right, List.append_assoc, hsymbol, Operator.lt_leftRank,
      Operator.lt_rightRank]

/-- A tree is read back from its text, the sign of each negative constant as a negation. -/
theorem read_text (hnumerals : ReadableNumerals K) {t : Tree K}
    (hnames : ∀ name ∈ t.names, IsIdentifier name.toList)
    (hconstants : ∀ c ∈ t.constants, isFinite c = true ∧ c ≠ -0) :
    Expression.read t.text = .ok ⟨t.text, t.spellSigns⟩ := by
  have hleaves : t.HasReadableLeaves := ⟨hnames, hconstants⟩
  have hderives := derives_tokens hnumerals hleaves
  refine read_eq_ok_iff.2 ⟨rfl, t.tokens, ?_, hderives.loosen (by cases t.level <;> decide)⟩
  rw [text, String.toList_ofList, chars_eq hnumerals hleaves]
  exact lexes_spelling (neat_of_derives hderives).chain (spells_tokens hnumerals hleaves)

/-- A negative base and a negated exponent stand in parentheses, a negative subtrahend does not. -/
theorem read_text_signed_powers :
    let t : Tree ℤ := .binary .times (.binary .power (.const (-2)) (.neg (.var "x_1")))
      (.binary .minus (.const 70) (.const (-3)))
    t.text = "(-2)**(-x_1)*(70--3)" ∧
      Expression.read (K := ℤ) t.text = .ok ⟨t.text,
        .binary .times (.binary .power (.neg (.const 2)) (.neg (.var "x_1")))
          (.binary .minus (.const 70) (.neg (.const 3)))⟩ := by
  intro t
  have htext : t.text = "(-2)**(-x_1)*(70--3)" := by decide
  have hnames : ∀ name ∈ t.names, IsIdentifier name.toList := by decide
  have hconstants : ∀ c ∈ t.constants, isFinite c = true ∧ c ≠ -0 := by decide
  exact ⟨htext, read_text readableNumerals_int hnames hconstants⟩

end Tree

end SchoolMath
