import SchoolMath.Latex.Canonical
import SchoolMath.Proofs.Arithmetic.Spelling

/-!
# `Latex.Canonical` — the canonical text of arithmetic

On a text of arithmetic the rewriting of LaTeX does little: no word is respelled, blanks are
dropped, and `^` becomes `**`. The character scanner of `spellProducts` then goes through the text
token by token, inside a number or a word where the grammar is, and finds no place for a product
(`spellProducts_of_lexes`). So the canonical text has the tokens that the text has.
-/

namespace SchoolMath.Latex

open Arithmetic Surface Surface.Reader

/-! ## Blanks -/

/-- No printing character of ASCII is a blank. -/
theorem isBlank_of_printing {c : Char} (h : 33 ≤ c.toNat) (h' : c.toNat ≤ 126) :
    Text.isBlank c = false := by
  rw [Text.isBlank, Text.CharSet.contains, List.any_eq_false]
  have key : ∀ range ∈ Text.blankCharacters.ranges, range.2 ≤ 32 ∨ 127 ≤ range.1 := by decide
  intro range hrange
  have hrange := key range hrange
  simp only [Bool.and_eq_true, decide_eq_true_eq, not_and]
  omega

theorem isBlank_of_isGap {c : Char} (h : isGap c = true) : Text.isBlank c = true := by
  have key : ∀ c ∈ [' ', '\t', '\r', '\n'], Text.isBlank c = true := by
    intro c hc
    fin_cases hc <;> rfl
  exact key c (mem_of_isGap h)

theorem isBlank_of_isNameChar {c : Char} (h : isNameChar c = true) : Text.isBlank c = false := by
  have hcode := toNat_of_isNameChar h
  exact isBlank_of_printing (by omega) (by omega)

/-- No character of a token is a blank. -/
theorem isBlank_of_mem_spelling {t : Arithmetic.Token} {w : List Char} (h : t.Spells w) :
    ∀ c ∈ w, Text.isBlank c = false := by
  intro c hc
  cases h with
  | number hn =>
    rcases hn.chars c hc with hd | rfl
    · exact isBlank_of_isNameChar (by simp [isNameChar, Char.isAlphanum, hd])
    · decide
  | word hw => exact isBlank_of_isNameChar (hw.chars c hc)
  | symbol hs =>
    have key : ∀ p ∈ symbols, p.1.all (Text.isBlank · = false) = true := by decide
    exact of_decide_eq_true (List.all_eq_true.1 (key _ hs) c hc)

/-! ## Products -/

/-- The kind that the scanner remembers behind a token. -/
def kindOf : Arithmetic.Token → Kind
  | .number _ => .number
  | .word _ => .word
  | .closing => .closing
  | _ => .other

/-- The scanner passes over a blank. -/
theorem spellProducts_blank {k : Kind} {gap : Bool} {c : Char} {cs : List Char}
    (h : Text.isBlank c = true) : spellProducts k gap (c :: cs) = spellProducts k true cs := by
  rw [spellProducts, if_pos h]

/-- The scanner copies the characters that go on with the token before them. -/
theorem spellProducts_goesOn {k : Kind} {w rest : List Char} (hw : ∀ c ∈ w, k.goesOnWith c = true)
    (hblank : ∀ c ∈ w, Text.isBlank c = false) (hpower : '^' ∉ w) :
    spellProducts k false (w ++ rest) = w ++ spellProducts k false rest := by
  induction w with
  | nil => rfl
  | cons c cs ih =>
    have ih := ih (fun d hd => hw d (List.mem_cons_of_mem _ hd))
      (fun d hd => hblank d (List.mem_cons_of_mem _ hd)) (List.not_mem_of_not_mem_cons hpower)
    have hc : c ≠ '^' := (List.ne_of_not_mem_cons hpower).symm
    simp [spellProducts, hblank c List.mem_cons_self, hw c List.mem_cons_self, hc, ih]

/-- The scanner starts a token, without a product before it. -/
theorem spellProducts_starts {k : Kind} {gap : Bool} {c : Char} {cs : List Char}
    (hblank : Text.isBlank c = false) (hgo : k.goesOnWith c = false)
    (hproduct : k.endsOperand = true → startsOperand c = false) :
    spellProducts k gap (c :: cs) =
      (if c = '^' then ['*', '*'] else [c]) ++ spellProducts (.of c) false cs := by
  have hproduct : (startsOperand c && k.endsOperand) = false := by
    cases hk : k.endsOperand with
    | false => exact Bool.and_false _
    | true => rw [hproduct hk, Bool.false_and]
  simp [spellProducts, hblank, hgo, hproduct]

/-- Only numbers and words go on. -/
theorem endsOperand_of_goesOnWith {k : Kind} {c : Char} (h : k.goesOnWith c = true) :
    k.endsOperand = true := by
  cases k <;> first | rfl | cases h

/-- What may stand behind an operand is neither part of it nor the beginning of another. -/
theorem starts_of_followsOperand {k : Kind} {t : Arithmetic.Token} {c : Char} {cs : List Char}
    (h : t.Spells (c :: cs)) (hk : k.endsOperand = true → t.followsOperand = true) :
    k.goesOnWith c = false ∧ (k.endsOperand = true → startsOperand c = false) := by
  constructor
  · by_contra hgo
    have hgo : k.goesOnWith c = true := by simpa using hgo
    obtain ⟨hname, hdigit, hpoint, -⟩ :=
      first_of_followsOperand h (hk (endsOperand_of_goesOnWith hgo))
    cases k with
    | word => exact absurd (hname.symm.trans hgo) (by decide)
    | number => simp [Kind.goesOnWith, hdigit, hpoint] at hgo
    | closing | other => cases hgo
  · intro hends
    obtain ⟨hname, -, -, hopen⟩ := first_of_followsOperand h (hk hends)
    have halpha : c.isAlpha = false := by
      simp only [isNameChar, Char.isAlphanum, Bool.or_eq_false_iff] at hname
      exact hname.1.1
    simp [startsOperand, halpha, hopen]

/-- The scanner copies a number or a word, whose characters all go on with it. -/
theorem spellProducts_run {k : Kind} {gap : Bool} {c : Char} {cs rest : List Char}
    (hgo : k.goesOnWith c = false) (hproduct : k.endsOperand = true → startsOperand c = false)
    (hblank : ∀ d ∈ c :: cs, Text.isBlank d = false) (hpower : '^' ∉ c :: cs)
    (hchars : ∀ d ∈ cs, (Kind.of c).goesOnWith d = true) :
    spellProducts k gap (c :: cs ++ rest) = c :: cs ++ spellProducts (.of c) false rest := by
  rw [List.cons_append, spellProducts_starts (hblank c List.mem_cons_self) hgo hproduct,
    if_neg (List.ne_of_not_mem_cons hpower).symm,
    spellProducts_goesOn hchars (fun d hd => hblank d (List.mem_cons_of_mem _ hd))
      (List.not_mem_of_not_mem_cons hpower)]
  rfl

/-- The scanner writes a token in its canonical spelling, unless it could make a product of it. -/
theorem spellProducts_token {k : Kind} {gap : Bool} {t : Arithmetic.Token} {w : List Char}
    (h : t.Spells w) (hk : k.endsOperand = true → t.followsOperand = true) (rest : List Char) :
    spellProducts k gap (w ++ rest) = t.spelling ++ spellProducts (kindOf t) false rest := by
  obtain ⟨c, cs, rfl⟩ := List.exists_cons_of_ne_nil h.ne_nil
  have hblank := isBlank_of_mem_spelling h
  obtain ⟨hgo, hproduct⟩ := starts_of_followsOperand h hk
  cases h with
  | number hn =>
    have hof : Kind.of c = .number := by
      have hc : (c.isDigit || c == '.') = true := by simpa using hn.first
      simp [Kind.of, hc]
    have hchars : ∀ d ∈ c :: cs, (Kind.of c).goesOnWith d = true := by
      intro d hd
      rw [hof]
      simpa [Kind.goesOnWith] using hn.chars d hd
    have hpower : '^' ∉ c :: cs := by
      intro h
      exact absurd (hn.chars '^' h) (by decide)
    rw [spellProducts_run hgo hproduct hblank hpower
      fun d hd => hchars d (List.mem_cons_of_mem _ hd), hof]
    rfl
  | word hw =>
    have hof : Kind.of c = .word := by
      have hstart := hw.isNameStart
      have hdigit := not_isDigit_of_isNameStart hstart
      have hpoint : c ≠ '.' := by rintro rfl; exact absurd hstart (by decide)
      have hc : (c.isAlpha || c == '_') = true := hstart
      simp [Kind.of, hdigit, hpoint, hc]
    have hchars : ∀ d ∈ c :: cs, (Kind.of c).goesOnWith d = true := by
      rw [hof]
      exact hw.chars
    have hpower : '^' ∉ c :: cs := by
      intro h
      exact absurd (hw.chars '^' h) (by decide)
    rw [spellProducts_run hgo hproduct hblank hpower
      fun d hd => hchars d (List.mem_cons_of_mem _ hd), hof]
    rfl
  | symbol hs =>
    rw [List.cons_append, spellProducts_starts (hblank c List.mem_cons_self) hgo hproduct]
    simp only [symbols, List.mem_cons, Prod.mk.injEq, List.cons.injEq, List.not_mem_nil,
      or_false] at hs
    rcases hs with ⟨⟨rfl, rfl⟩, rfl⟩ | ⟨⟨rfl, rfl⟩, rfl⟩ | ⟨⟨rfl, rfl⟩, rfl⟩ | ⟨⟨rfl, rfl⟩, rfl⟩ |
      ⟨⟨rfl, rfl⟩, rfl⟩ | ⟨⟨rfl, rfl⟩, rfl⟩ | ⟨⟨rfl, rfl⟩, rfl⟩ | ⟨⟨rfl, rfl⟩, rfl⟩
    case inr.inr.inr.inr.inl =>
      -- the second star of a power is a token of its own to the scanner
      rw [List.cons_append, List.nil_append,
        spellProducts_starts (by decide) (by decide) (by decide)]
      rfl
    all_goals rfl

/-- What may stand behind a token may stand behind its kind. -/
theorem followsOperand_of_adjacent {t t' : Arithmetic.Token} (h : Adjacent t t')
    (hends : (kindOf t).endsOperand = true) : t'.followsOperand = true := by
  have hends : t.endsOperand = true := by
    cases t with
    | number | word | closing => rfl
    | operator | opening => cases hends
  rwa [Adjacent, if_pos hends] at h

/-- On tokens of which each may stand behind the one before, the scanner writes their spellings. -/
theorem spellProducts_of_lexes {k : Kind} {gap : Bool} {text : List Char}
    {ts : List Arithmetic.Token} (hlex : Lexes text ts []) (hchain : ts.IsChain Adjacent)
    (hk : ∀ t ∈ ts.head?, k.endsOperand = true → t.followsOperand = true) :
    spellProducts k gap text = ts.flatMap Token.spelling := by
  generalize hrest : [] = rest at hlex
  induction hlex generalizing k gap with
  | done =>
    subst hrest
    rfl
  | blank hc _ ih =>
    rw [spellProducts_blank (isBlank_of_isGap hc)]
    exact ih hchain hk hrest
  | @token text mid t ts rest ht _ ih =>
    obtain ⟨w, hw, rfl, -⟩ := ht
    obtain ⟨hnext, hchain⟩ := List.isChain_cons.1 hchain
    -- the kind that is remembered behind the token says whether an operand ends there
    rw [List.flatMap_cons, spellProducts_token hw (hk t rfl) mid, ih hchain ?_ hrest]
    exact fun t' ht' => followsOperand_of_adjacent (hnext t' ht')

end SchoolMath.Latex
