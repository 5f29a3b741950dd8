import SchoolMath.Expression.Grouping
import SchoolMath.Number.Basic
import SchoolMath.Proofs.Arithmetic.Token

/-!
# `Arithmetic.Derivation` — the layered grammar of arithmetic

```text
sum    →  term ((`+` | `-`) term)*
term   →  unary ((`*` | `/`) unary)*
unary  →  (`+` | `-`) unary  |  power
power  →  atom  |  atom (`**` | `^`) unary
atom   →  number  |  name  |  `(` sum `)`
```

`Derives level tokens tree` is the grammar with the tree of each derivation: sums and terms group to
the left, powers to the right, and parentheses and a sign `+` leave no trace.

The expression reader does not follow these layers. It takes a row of operands with operators
between them and groups it in three passes (`grouped`). The main statement, `derives_sum_iff`, is
that both say the same: the tokens of a sum are those of a row, and the tree is the one that the row
is grouped to.
-/

namespace SchoolMath.Arithmetic

open Surface

variable {K : Type} [Numeral K]

/-- The layers of the grammar. -/
inductive Level where
  | sum | term | unary | power | atom
deriving DecidableEq, Repr

/-- At a level of the grammar the tokens derive the tree. -/
inductive Derives : Level → List Token → Tree K → Prop
  | ofTerm {ts : List Token} {t : Tree K} : Derives .term ts t → Derives .sum ts t
  | sum {ts us : List Token} {a b : Tree K} {op : Operator} :
      op = .plus ∨ op = .minus → Derives .sum ts a → Derives .term us b →
      Derives .sum (ts ++ .operator op :: us) (.binary op a b)
  | ofUnary {ts : List Token} {t : Tree K} : Derives .unary ts t → Derives .term ts t
  | term {ts us : List Token} {a b : Tree K} {op : Operator} :
      op = .times ∨ op = .over → Derives .term ts a → Derives .unary us b →
      Derives .term (ts ++ .operator op :: us) (.binary op a b)
  | positive {ts : List Token} {t : Tree K} :
      Derives .unary ts t → Derives .unary (.operator .plus :: ts) t
  | negative {ts : List Token} {t : Tree K} :
      Derives .unary ts t → Derives .unary (.operator .minus :: ts) (.neg t)
  | ofPower {ts : List Token} {t : Tree K} : Derives .power ts t → Derives .unary ts t
  | ofAtom {ts : List Token} {t : Tree K} : Derives .atom ts t → Derives .power ts t
  | power {ts us : List Token} {a b : Tree K} :
      Derives .atom ts a → Derives .unary us b →
      Derives .power (ts ++ .operator .power :: us) (.binary .power a b)
  | number (text : List Char) :
      Derives .atom [.number text] (.const (Numeral.read (String.ofList text)))
  | name {text : List Char} :
      text ∉ keywords → Derives .atom [.word text] (.var (String.ofList text))
  | group {ts : List Token} {t : Tree K} :
      Derives .sum ts t → Derives .atom (.opening :: ts ++ [.closing]) t

/-- The tokens that an atom starts with. -/
inductive Token.StartsAtom : Token → Prop
  | number {text : List Char} : StartsAtom (.number text)
  | name {text : List Char} : text ∉ keywords → StartsAtom (.word text)
  | opening : StartsAtom .opening

/-- The first token of an atom. -/
theorem exists_startsAtom {ts : List Token} {t : Tree K} (h : Derives .atom ts t) :
    ∃ first us, ts = first :: us ∧ first.StartsAtom := by
  cases h with
  | number text => exact ⟨_, [], rfl, .number⟩
  | name hname => exact ⟨_, [], rfl, .name hname⟩
  | group => exact ⟨_, _, rfl, .opening⟩

/-- Something is derived from one token at least. -/
theorem ne_nil_of_derives {level : Level} {ts : List Token} {t : Tree K} (h : Derives level ts t) :
    ts ≠ [] := by
  induction h with
  | ofTerm _ ih | ofUnary _ ih | ofPower _ ih | ofAtom _ ih => exact ih
  | sum | term | power => simp
  | positive | negative | number | name | group => simp

/-- The names in a tree are words of the tokens, and no keywords. -/
theorem names_of_derives {level : Level} {ts : List Token} {t : Tree K} (h : Derives level ts t) :
    ∀ name ∈ t.names, Token.word name.toList ∈ ts ∧ name.toList ∉ keywords := by
  induction h with
  | ofTerm _ ih | ofUnary _ ih | ofPower _ ih | ofAtom _ ih => exact ih
  | sum _ _ _ ihl ihr | term _ _ _ ihl ihr | power _ _ ihl ihr =>
    intro name hname
    rcases List.mem_append.1 hname with hname | hname
    · obtain ⟨hmem, hkeyword⟩ := ihl name hname
      exact ⟨List.mem_append_left _ hmem, hkeyword⟩
    · obtain ⟨hmem, hkeyword⟩ := ihr name hname
      exact ⟨List.mem_append_right _ (List.mem_cons_of_mem _ hmem), hkeyword⟩
  | positive _ ih | negative _ ih =>
    intro name hname
    obtain ⟨hmem, hkeyword⟩ := ih name hname
    exact ⟨List.mem_cons_of_mem _ hmem, hkeyword⟩
  | number => exact nofun
  | name hkeyword =>
    intro name hname
    obtain rfl := List.mem_singleton.1 hname
    rw [String.toList_ofList]
    exact ⟨List.mem_cons_self, hkeyword⟩
  | group _ ih =>
    intro name hname
    obtain ⟨hmem, hkeyword⟩ := ih name hname
    exact ⟨List.mem_cons_of_mem _ (List.mem_append_left _ hmem), hkeyword⟩

/-! ## Rows of operands -/

/-- The tokens are those of the signs and of the atom of an operand. -/
def IsOperand (ts : List Token) (s : Signed K) : Prop :=
  ∃ us, ts = s.signs.map Token.sign ++ us ∧ Derives .atom us s.atom

theorem IsOperand.ne_nil {ts : List Token} {s : Signed K} (h : IsOperand ts s) : ts ≠ [] := by
  obtain ⟨us, rfl, hus⟩ := h
  exact List.append_ne_nil_of_right_ne_nil _ (ne_nil_of_derives hus)

/-- The tokens are operators, each with an item behind it that satisfies `P`. -/
inductive Links {α : Type} (P : List Token → α → Prop) : List Token → List (Operator × α) → Prop
  | nil : Links P [] []
  | cons {us vs : List Token} {op : Operator} {a : α} {rest : List (Operator × α)} :
      P us a → Links P vs rest → Links P (.operator op :: us ++ vs) ((op, a) :: rest)

theorem Links.append {α : Type} {P : List Token → α → Prop} {ts us : List Token}
    {xs ys : List (Operator × α)} (h : Links P ts xs) (h' : Links P us ys) :
    Links P (ts ++ us) (xs ++ ys) := by
  induction h with
  | nil => exact h'
  | @cons us vs op a rest ha _ ih =>
    rw [List.append_assoc]
    exact .cons ha ih

/-- One more item. -/
theorem Links.snoc {α : Type} {P : List Token → α → Prop} {ts us vs : List Token} {a : α}
    {xs ys : List (Operator × α)} (op : Operator) (h : Links P ts xs) (ha : P us a)
    (h' : Links P vs ys) : Links P (ts ++ .operator op :: (us ++ vs)) (xs ++ (op, a) :: ys) :=
  h.append (.cons ha h')

/-! ## From a row to a derivation -/

/-- Signs before a derivation of a unary. -/
theorem derives_applySigns {us : List Token} {t : Tree K} (signs : List Bool)
    (h : Derives .unary us t) :
    Derives .unary (signs.map Token.sign ++ us) (applySigns signs t) := by
  induction signs with
  | nil => exact h
  | cons minus signs ih =>
    cases minus with
    | false => exact .positive ih
    | true => exact .negative ih

/-- The first pass: powers and signs turn a row of operands into one of unaries. -/
theorem links_factors {ts ls : List Token} {s : Signed K} {rest : List (Operator × Signed K)}
    (hs : IsOperand ts s) (hrest : Links IsOperand ls rest) :
    ∃ us vs, ts ++ ls = us ++ vs ∧ Derives .unary us (factors s rest).1 ∧
      Links (Derives .unary) vs (factors s rest).2 ∧ ∀ p ∈ (factors s rest).2, p.1 ≠ .power := by
  induction hrest generalizing ts s with
  | nil =>
    obtain ⟨us, rfl, hatom⟩ := hs
    have hunary := derives_applySigns s.signs (.ofPower (.ofAtom hatom))
    exact ⟨_, [], rfl, hunary, .nil, by simp [factors]⟩
  | @cons us₁ vs₁ op second rest hsecond _ ih =>
    obtain ⟨us, vs, heq, hunary, hlinks, hops⟩ := ih hsecond
    obtain ⟨as, rfl, hatom⟩ := hs
    by_cases hop : op = .power
    · -- a power takes the first factor behind it, and the signs apply to the whole
      subst hop
      simp only [factors, if_true]
      refine ⟨s.signs.map Token.sign ++ (as ++ .operator .power :: us), vs, ?_, ?_, hlinks, hops⟩
      · simp [heq]
      · exact derives_applySigns s.signs (.ofPower (.power hatom hunary))
    · -- any other operator ends the factor
      simp only [factors, if_neg hop]
      refine ⟨s.signs.map Token.sign ++ as, .operator op :: us ++ vs, ?_, ?_,
        .cons hunary hlinks, ?_⟩
      · simp [heq]
      · exact derives_applySigns s.signs (.ofPower (.ofAtom hatom))
      · intro p hp
        rcases List.mem_cons.1 hp with rfl | hp
        · exact hop
        · exact hops p hp

/-- The second pass: products and quotients turn a row of unaries into one of terms. -/
theorem links_terms {ts ls : List Token} {f : Tree K} {fs : List (Operator × Tree K)}
    (hf : Derives .term ts f) (hfs : Links (Derives .unary) ls fs) (hops : ∀ p ∈ fs, p.1 ≠ .power) :
    ∃ us vs, ts ++ ls = us ++ vs ∧ Derives .term us (terms f fs).1 ∧
      Links (Derives .term) vs (terms f fs).2 ∧
      ∀ p ∈ (terms f fs).2, p.1 = .plus ∨ p.1 = .minus := by
  induction hfs generalizing ts f with
  | nil => exact ⟨ts, [], by simp, hf, .nil, by simp [terms]⟩
  | @cons us₁ vs₁ op second rest hsecond _ ih =>
    have hops' : ∀ p ∈ rest, p.1 ≠ .power := fun p hp => hops p (List.mem_cons_of_mem _ hp)
    by_cases hop : op = .times ∨ op = .over
    · simp only [terms, if_pos hop]
      obtain ⟨us, vs, heq, hterm⟩ := ih (.term hop hf hsecond) hops'
      exact ⟨us, vs, by simpa using heq, hterm⟩
    · simp only [terms, if_neg hop]
      obtain ⟨us, vs, heq, hterm, hlinks, hrest⟩ := ih (.ofUnary hsecond) hops'
      refine ⟨ts, .operator op :: us ++ vs, by simp [heq], hf, .cons hterm hlinks, ?_⟩
      intro p hp
      rcases List.mem_cons.1 hp with rfl | hp
      · -- neither a power nor a product
        have hne : op ≠ .power := hops (op, second) List.mem_cons_self
        cases op <;> simp_all
      · exact hrest p hp

/-- The third pass: sums and differences turn a row of terms into a sum. -/
theorem derives_sum_of_links {ts ls : List Token} {t : Tree K} {xs : List (Operator × Tree K)}
    (ht : Derives .sum ts t) (hxs : Links (Derives .term) ls xs)
    (hops : ∀ p ∈ xs, p.1 = .plus ∨ p.1 = .minus) :
    Derives .sum (ts ++ ls) (SchoolMath.sum t xs) := by
  induction hxs generalizing ts t with
  | nil => simpa [SchoolMath.sum] using ht
  | @cons us vs op second rest hsecond _ ih =>
    have hsum := ih (.sum (hops _ List.mem_cons_self) ht hsecond)
      fun p hp => hops p (List.mem_cons_of_mem _ hp)
    simpa [SchoolMath.sum] using hsum

/-- The tree that a row of operands is grouped to is derived by its tokens. -/
theorem derives_grouped {ts ls : List Token} {s : Signed K} {rest : List (Operator × Signed K)}
    (hs : IsOperand ts s) (hrest : Links IsOperand ls rest) :
    Derives .sum (ts ++ ls) (grouped s rest) := by
  obtain ⟨us, vs, heq, hunary, hlinks, hops⟩ := links_factors hs hrest
  obtain ⟨us', vs', heq', hterm, hlinks', hops'⟩ := links_terms (.ofUnary hunary) hlinks hops
  rw [heq, heq']
  exact derives_sum_of_links (.ofTerm hterm) hlinks' hops'

/-! ## From a derivation to a row -/

omit [Numeral K] in
/-- A sign before the first operand is a sign before the first factor. -/
theorem factors_sign (minus : Bool) (signs : List Bool) (atom : Tree K)
    (rest : List (Operator × Signed K)) :
    factors ⟨minus :: signs, atom⟩ rest =
      (applySigns [minus] (factors ⟨signs, atom⟩ rest).1, (factors ⟨signs, atom⟩ rest).2) := by
  cases rest with
  | nil => rfl
  | cons p rest =>
    obtain ⟨op, second⟩ := p
    by_cases hop : op = .power
    · simp [factors, hop, applySigns]
    · simp [factors, hop, applySigns]

omit [Numeral K] in
/-- An operator that is no power ends the factors before it. -/
theorem factors_append {op : Operator} (hop : op ≠ .power) (s s' : Signed K)
    (rest rest' : List (Operator × Signed K)) :
    factors s (rest ++ (op, s') :: rest') =
      ((factors s rest).1,
        (factors s rest).2 ++ (op, (factors s' rest').1) :: (factors s' rest').2) := by
  induction rest generalizing s with
  | nil => simp [factors, hop]
  | cons p rest ih =>
    obtain ⟨op', second⟩ := p
    by_cases hop' : op' = .power
    · simp [factors, hop', ih]
    · simp [factors, hop', ih]

omit [Numeral K] in
/-- A factor behind a single term joins it. -/
theorem terms_append_factor {op : Operator} (hop : op = .times ∨ op = .over) {f t f' : Tree K}
    {fs fs' : List (Operator × Tree K)} (h : terms f fs = (t, [])) :
    terms f (fs ++ (op, f') :: fs') = terms (.binary op t f') fs' := by
  induction fs generalizing f with
  | nil =>
    obtain ⟨rfl, -⟩ := Prod.mk.inj h
    simp [terms, hop]
  | cons p fs ih =>
    obtain ⟨op', second⟩ := p
    by_cases hop' : op' = .times ∨ op' = .over
    · simp only [terms, if_pos hop', List.cons_append] at h ⊢
      exact ih h
    · simp [terms, hop'] at h

omit [Numeral K] in
/-- Plus and minus end the terms before them. -/
theorem terms_append_term {op : Operator} (hop : op = .plus ∨ op = .minus) (f f' : Tree K)
    (fs fs' : List (Operator × Tree K)) :
    terms f (fs ++ (op, f') :: fs') =
      ((terms f fs).1, (terms f fs).2 ++ (op, (terms f' fs').1) :: (terms f' fs').2) := by
  have hop : ¬ (op = .times ∨ op = .over) := by rcases hop with rfl | rfl <;> decide
  induction fs generalizing f with
  | nil => simp [terms, hop]
  | cons p fs ih =>
    obtain ⟨op', second⟩ := p
    by_cases hop' : op' = .times ∨ op' = .over
    · simp [terms, hop', ih]
    · simp [terms, hop', ih]

/-- How a level of the grammar shows in the row of operands that its tokens are. -/
def Shape : Level → Signed K → List (Operator × Signed K) → Tree K → Prop
  | .atom, s, rest, t => s = ⟨[], t⟩ ∧ rest = []
  | .power, s, rest, t => s.signs = [] ∧ factors s rest = (t, [])
  | .unary, s, rest, t => factors s rest = (t, [])
  | .term, s, rest, t => terms (factors s rest).1 (factors s rest).2 = (t, [])
  | .sum, s, rest, t => grouped s rest = t

/-- Tokens that derive a tree are those of a row of operands, with the shape of their level. -/
theorem exists_row_of_derives {level : Level} {ts : List Token} {t : Tree K}
    (h : Derives level ts t) :
    ∃ us ls s rest, ts = us ++ ls ∧ IsOperand us s ∧ Links IsOperand ls rest ∧
      Shape level s rest t := by
  induction h with
  | ofTerm _ ih =>
    obtain ⟨us, ls, s, rest, rfl, hs, hrest, hshape⟩ := ih
    refine ⟨us, ls, s, rest, rfl, hs, hrest, ?_⟩
    simp only [Shape] at hshape
    simp [Shape, grouped, hshape, SchoolMath.sum]
  | @sum _ _ a b op hop _ _ iha ihb =>
    obtain ⟨us, ls, s, rest, rfl, hs, hrest, hshape⟩ := iha
    obtain ⟨us', ls', s', rest', rfl, hs', hrest', hshape'⟩ := ihb
    have hne : op ≠ .power := by rcases hop with rfl | rfl <;> decide
    refine ⟨us, _, s, _, by simp, hs, hrest.snoc op hs' hrest', ?_⟩
    -- the operator ends the factors and the terms before it, so the passes split there
    simp only [Shape, grouped] at hshape hshape' ⊢
    rw [factors_append hne, terms_append_term hop, hshape']
    simp [← hshape, SchoolMath.sum]
  | ofUnary _ ih =>
    obtain ⟨us, ls, s, rest, rfl, hs, hrest, hshape⟩ := ih
    refine ⟨us, ls, s, rest, rfl, hs, hrest, ?_⟩
    simp only [Shape] at hshape ⊢
    rw [hshape]
    rfl
  | @term _ _ a b op hop _ _ iha ihb =>
    obtain ⟨us, ls, s, rest, rfl, hs, hrest, hshape⟩ := iha
    obtain ⟨us', ls', s', rest', rfl, hs', hrest', hshape'⟩ := ihb
    have hne : op ≠ .power := by rcases hop with rfl | rfl <;> decide
    refine ⟨us, _, s, _, by simp, hs, hrest.snoc op hs' hrest', ?_⟩
    -- the operator ends the factors before it; the one factor behind it joins the term
    simp only [Shape] at hshape hshape' ⊢
    rw [factors_append hne, hshape', terms_append_factor hop hshape]
    rfl
  | positive _ ih =>
    obtain ⟨us, ls, ⟨signs, atom⟩, rest, rfl, ⟨as, rfl, hatom⟩, hrest, hshape⟩ := ih
    refine ⟨Token.sign false :: (signs.map Token.sign ++ as), ls, ⟨false :: signs, atom⟩, rest, rfl,
      ⟨as, rfl, hatom⟩, hrest, ?_⟩
    simp only [Shape] at hshape ⊢
    rw [factors_sign, hshape]
    rfl
  | negative _ ih =>
    obtain ⟨us, ls, ⟨signs, atom⟩, rest, rfl, ⟨as, rfl, hatom⟩, hrest, hshape⟩ := ih
    refine ⟨Token.sign true :: (signs.map Token.sign ++ as), ls, ⟨true :: signs, atom⟩, rest, rfl,
      ⟨as, rfl, hatom⟩, hrest, ?_⟩
    simp only [Shape] at hshape ⊢
    rw [factors_sign, hshape]
    rfl
  | ofPower _ ih =>
    obtain ⟨us, ls, s, rest, rfl, hs, hrest, -, hshape⟩ := ih
    exact ⟨us, ls, s, rest, rfl, hs, hrest, hshape⟩
  | ofAtom _ ih =>
    obtain ⟨us, ls, s, rest, rfl, hs, hrest, rfl, rfl⟩ := ih
    exact ⟨us, ls, _, [], rfl, hs, hrest, rfl, rfl⟩
  | @power ts _ a b ha _ _ ihb =>
    obtain ⟨us, ls, s, rest, rfl, hs, hrest, hshape⟩ := ihb
    have hlinks : Links IsOperand (.operator .power :: us ++ ls) ((.power, s) :: rest) :=
      .cons hs hrest
    refine ⟨ts, _, ⟨[], a⟩, _, rfl, ⟨ts, rfl, ha⟩, hlinks, rfl, ?_⟩
    simp only [Shape] at hshape
    simp [factors, hshape, applySigns]
  | number text =>
    exact ⟨_, [], ⟨[], _⟩, [], by simp, ⟨_, rfl, .number text⟩, .nil, rfl, rfl⟩
  | name hname =>
    exact ⟨_, [], ⟨[], _⟩, [], by simp, ⟨_, rfl, .name hname⟩, .nil, rfl, rfl⟩
  | group h _ =>
    exact ⟨_, [], ⟨[], _⟩, [], by simp, ⟨_, rfl, .group h⟩, .nil, rfl, rfl⟩

/-- The tokens of a sum are those of a row of operands, and the tree of the sum is the one that the
row is grouped to. -/
theorem derives_sum_iff {ts : List Token} {t : Tree K} :
    Derives .sum ts t ↔
      ∃ us ls s rest, ts = us ++ ls ∧ IsOperand us s ∧ Links IsOperand ls rest ∧
        grouped s rest = t := by
  constructor
  · exact exists_row_of_derives
  · rintro ⟨us, ls, s, rest, rfl, hs, hrest, rfl⟩
    exact derives_grouped hs hrest

end SchoolMath.Arithmetic
