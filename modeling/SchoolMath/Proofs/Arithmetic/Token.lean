import Mathlib
import SchoolMath.Surface.Attempt
import SchoolMath.Surface.Lexeme
import SchoolMath.Tree.Basic

/-!
# `Arithmetic.Token` — the tokens of arithmetic, read by longest match

Arithmetic has few tokens: numbers, words, five operators and two parentheses. `Token.Spells` says
which characters spell a token, and `ReadsOff` which token stands at the front of a text: one that
no longer token outgrows. `Lexes` reads tokens one after another, with blanks between them, and
keeps the text behind the last one.

The longest match needs only one character of lookahead (`readsOff_iff`): a token is complete as
soon as the next character does not go on with it.
-/

namespace SchoolMath.Arithmetic

open Surface Surface.Reader

/-! ## The characters of a token -/

/-- Digits with at most one point among them; a point does not stand alone. -/
structure IsNumber (w : List Char) : Prop where
  chars : ∀ c ∈ w, c.isDigit = true ∨ c = '.'
  point : w.count '.' ≤ 1
  digit : ∃ c ∈ w, c.isDigit = true

/-- Letters, digits and underscores, with no digit first. -/
structure IsWord (w : List Char) : Prop where
  first : ∃ c ∈ w.head?, isNameStart c = true
  chars : ∀ c ∈ w, isNameChar c = true

instance (w : List Char) : Decidable (IsNumber w) :=
  decidable_of_iff (w.all (fun c => c.isDigit = true ∨ c = '.') = true ∧ w.count '.' ≤ 1 ∧
      w.any Char.isDigit = true) <| by
    simp only [List.all_eq_true, decide_eq_true_eq, List.any_eq_true]
    exact ⟨fun ⟨hchars, hpoint, hdigit⟩ => ⟨hchars, hpoint, hdigit⟩, fun h => ⟨h.1, h.2, h.3⟩⟩

instance (w : List Char) : Decidable (IsWord w) :=
  decidable_of_iff (w.head?.any isNameStart = true ∧ w.all isNameChar = true) <| by
    simp only [Option.any_eq_true, List.all_eq_true]
    exact ⟨fun ⟨hfirst, hchars⟩ => ⟨hfirst, hchars⟩, fun h => ⟨h.1, h.2⟩⟩

/-- A name of the grammar: a word that is no keyword. -/
def IsIdentifier (w : List Char) : Prop := IsWord w ∧ w ∉ keywords

instance (w : List Char) : Decidable (IsIdentifier w) := inferInstanceAs (Decidable (_ ∧ _))

/-- A token of arithmetic. -/
inductive Token where
  | number (text : List Char)
  | word (text : List Char)
  | operator (op : Operator)
  | opening
  | closing
deriving DecidableEq, Repr

/-- The tokens that are symbols, with their spellings. -/
def symbols : List (List Char × Token) := [
  (['+'], .operator .plus), (['-'], .operator .minus), (['*'], .operator .times),
  (['/'], .operator .over), (['*', '*'], .operator .power), (['^'], .operator .power),
  (['('], .opening), ([')'], .closing)]

namespace Token

/-- The characters `w` spell the token. -/
inductive Spells : Token → List Char → Prop
  | number {w : List Char} : IsNumber w → Spells (.number w) w
  | word {w : List Char} : IsWord w → Spells (.word w) w
  | symbol {t : Token} {w : List Char} : (w, t) ∈ symbols → Spells t w

/-- The token of a sign before an operand, which is true for a minus. -/
def sign (minus : Bool) : Token := .operator (if minus then .minus else .plus)

/-- Whether `c`, directly behind the token, is the beginning of a longer one. -/
def goesOnWith : Token → Char → Bool
  | .number text, c => c.isDigit || (c == '.' && !text.contains '.')
  | .word _, c => isNameChar c
  | .operator .times, c => c == '*'
  | _, _ => false

end Token

/-- `t` is the longest token at the front of `text`, and `rest` the text behind it. -/
def ReadsOff (text : List Char) (t : Token) (rest : List Char) : Prop :=
  ∃ w, t.Spells w ∧ text = w ++ rest ∧
    ∀ t' w', Token.Spells t' w' → w' <+: text → w'.length ≤ w.length

/-- Reading tokens off the front of a text, with blanks before and between them, gives the tokens in
order and leaves the third argument. -/
inductive Lexes : List Char → List Token → List Char → Prop
  | done {text : List Char} : Lexes text [] text
  | blank {c : Char} {cs : List Char} {ts : List Token} {rest : List Char} :
      isGap c = true → Lexes cs ts rest → Lexes (c :: cs) ts rest
  | token {text mid : List Char} {t : Token} {ts : List Token} {rest : List Char} :
      ReadsOff text t mid → Lexes mid ts rest → Lexes text (t :: ts) rest

/-! ## Character classes -/

/-- A character that a name starts with can also stand inside one. -/
theorem isNameChar_of_isNameStart {c : Char} (h : isNameStart c = true) : isNameChar c = true := by
  simp only [isNameStart, isNameChar, Char.isAlphanum, Bool.or_eq_true] at h ⊢
  tauto

/-- The code points of the characters of names. -/
theorem toNat_of_isNameChar {c : Char} (h : isNameChar c = true) :
    (c.isDigit = true ∧ 48 ≤ c.toNat ∧ c.toNat ≤ 57) ∨
    (c.isDigit = false ∧ 65 ≤ c.toNat ∧ c.toNat ≤ 122) := by
  simp only [isNameChar, Char.isAlphanum, Char.isAlpha, Char.isUpper, Char.isLower, Char.isDigit,
    Bool.or_eq_true, Bool.and_eq_true, decide_eq_true_eq, UInt32.le_iff_toNat_le, beq_iff_eq,
    Bool.and_eq_false_iff, decide_eq_false_iff_not, ge_iff_le] at h ⊢
  change (((65 ≤ c.toNat ∧ c.toNat ≤ 90) ∨ (97 ≤ c.toNat ∧ c.toNat ≤ 122)) ∨
    (48 ≤ c.toNat ∧ c.toNat ≤ 57)) ∨ c = '_' at h
  change ((48 ≤ c.toNat ∧ c.toNat ≤ 57) ∧ 48 ≤ c.toNat ∧ c.toNat ≤ 57) ∨
    ((¬ 48 ≤ c.toNat ∨ ¬ c.toNat ≤ 57) ∧ 65 ≤ c.toNat ∧ c.toNat ≤ 122)
  rcases h with h | rfl
  · omega
  · decide

/-- No name starts with a digit. -/
theorem not_isDigit_of_isNameStart {c : Char} (h : isNameStart c = true) : c.isDigit = false := by
  simp only [isNameStart, Bool.or_eq_true, beq_iff_eq] at h
  rcases h with h | rfl
  · simp only [Char.isAlpha, Char.isUpper, Char.isLower, Char.isDigit, Bool.or_eq_true,
      Bool.and_eq_true, decide_eq_true_eq, UInt32.le_iff_toNat_le, ge_iff_le,
      Bool.and_eq_false_iff, decide_eq_false_iff_not] at h ⊢
    change (65 ≤ c.toNat ∧ c.toNat ≤ 90) ∨ (97 ≤ c.toNat ∧ c.toNat ≤ 122) at h
    change ¬ 48 ≤ c.toNat ∨ ¬ c.toNat ≤ 57
    omega
  · decide

theorem IsNumber.ne_nil {w : List Char} (h : IsNumber w) : w ≠ [] := by
  obtain ⟨c, hc, -⟩ := h.digit
  exact List.ne_nil_of_mem hc

theorem IsWord.ne_nil {w : List Char} (h : IsWord w) : w ≠ [] := by
  obtain ⟨c, hc, -⟩ := h.first
  rintro rfl
  simp at hc

/-- A word begins with a letter or an underscore. -/
theorem IsWord.isNameStart {c : Char} {cs : List Char} (h : IsWord (c :: cs)) :
    isNameStart c = true := by
  obtain ⟨d, hd, hs⟩ := h.first
  obtain rfl : c = d := by simpa using hd
  exact hs

/-- A number begins with a digit or a point. -/
theorem IsNumber.first {c : Char} {cs : List Char} (h : IsNumber (c :: cs)) :
    c.isDigit = true ∨ c = '.' := h.chars c List.mem_cons_self

/-! ## Spelling -/

/-- What the first character of a token tells about it. -/
inductive Lead where
  | number | word | symbol
deriving DecidableEq, Repr

/-- The kind of token that a character starts. -/
def Lead.of (c : Char) : Lead :=
  if c.isDigit || c == '.' then .number else if isNameStart c then .word else .symbol

namespace Token

/-- The kind of a token. -/
def lead : Token → Lead
  | .number _ => .number
  | .word _ => .word
  | _ => .symbol

/-- What holds of the table of symbols: each starts like a symbol, its characters tell it, and it
goes on with the next character of a longer one. -/
theorem symbols_table : ∀ p ∈ symbols, p.1 ≠ [] ∧ p.1.head?.all (Lead.of · = p.2.lead) = true ∧
    ∀ q ∈ symbols, (p.1 = q.1 → p.2 = q.2) ∧
      (p.1 <+: q.1 → (q.1.drop p.1.length).head?.all p.2.goesOnWith = true) := by
  decide

theorem lead_of_mem_symbols {w : List Char} {t : Token} (h : (w, t) ∈ symbols) :
    t.lead = .symbol := by
  have key : ∀ p ∈ symbols, p.2.lead = .symbol := by decide
  exact key _ h

theorem spells_number {text w : List Char} :
    (Token.number text).Spells w ↔ w = text ∧ IsNumber text := by
  constructor
  · intro h
    cases h with
    | number hn => exact ⟨rfl, hn⟩
    | symbol hs => simpa [Token.lead] using lead_of_mem_symbols hs
  · rintro ⟨rfl, hn⟩
    exact .number hn

theorem spells_word {text w : List Char} :
    (Token.word text).Spells w ↔ w = text ∧ IsWord text := by
  constructor
  · intro h
    cases h with
    | word hw => exact ⟨rfl, hw⟩
    | symbol hs => simpa [Token.lead] using lead_of_mem_symbols hs
  · rintro ⟨rfl, hw⟩
    exact .word hw

/-- Symbols are spelled by the table only. -/
theorem spells_symbol {t : Token} {w : List Char} (ht : t.lead = .symbol) :
    t.Spells w ↔ (w, t) ∈ symbols := by
  constructor
  · intro h
    cases h with
    | number | word => simp [Token.lead] at ht
    | symbol hs => exact hs
  · exact .symbol

theorem Spells.ne_nil {t : Token} {w : List Char} (h : t.Spells w) : w ≠ [] := by
  cases h with
  | number hn => exact hn.ne_nil
  | word hw => exact hw.ne_nil
  | symbol hs => exact (symbols_table _ hs).1

/-- The first character of a spelling tells the kind of the token. -/
theorem Spells.lead {t : Token} {c : Char} {cs : List Char} (h : t.Spells (c :: cs)) :
    Lead.of c = t.lead := by
  cases h with
  | number hn =>
    have hc : (c.isDigit || c == '.') = true := by simpa using hn.first
    simp [Lead.of, Token.lead, hc]
  | word hw =>
    have hs := hw.isNameStart
    have hp : c ≠ '.' := by rintro rfl; exact absurd hs (by decide)
    simp [Lead.of, Token.lead, hs, not_isDigit_of_isNameStart hs, hp]
  | symbol hs => simpa using (symbols_table _ hs).2.1

/-- Two tokens of one kind are two numbers, two words or two symbols. -/
theorem Spells.cases_of_lead_eq {t t' : Token} {w w' : List Char} (h : t.Spells w)
    (h' : t'.Spells w') (hlead : t.lead = t'.lead) :
    (t = .number w ∧ t' = .number w' ∧ IsNumber w ∧ IsNumber w') ∨
    (t = .word w ∧ t' = .word w' ∧ IsWord w ∧ IsWord w') ∨
    ((w, t) ∈ symbols ∧ (w', t') ∈ symbols) := by
  cases h <;> cases h'
  case number.number hn hn' => exact .inl ⟨rfl, rfl, hn, hn'⟩
  case word.word hw hw' => exact .inr (.inl ⟨rfl, rfl, hw, hw'⟩)
  case symbol.symbol hs hs' => exact .inr (.inr ⟨hs, hs'⟩)
  case number.word | word.number => simp [Token.lead] at hlead
  case number.symbol hs | word.symbol hs | symbol.number hs _ | symbol.word hs _ =>
    rw [lead_of_mem_symbols hs] at hlead
    simp [Token.lead] at hlead

/-- The characters tell the token. -/
theorem Spells.unique {t t' : Token} {w : List Char} (h : t.Spells w) (h' : t'.Spells w) :
    t = t' := by
  obtain ⟨c, cs, rfl⟩ := List.exists_cons_of_ne_nil h.ne_nil
  rcases h.cases_of_lead_eq h' (h.lead.symm.trans h'.lead) with
    ⟨rfl, rfl, -⟩ | ⟨rfl, rfl, -⟩ | ⟨hs, hs'⟩
  · rfl
  · rfl
  · exact ((symbols_table _ hs).2.2 _ hs').1 rfl

/-- A number that goes on behind `w` does so with a digit, or with the first point. -/
theorem goesOnWith_of_isNumber {w cs : List Char} {c : Char} (h : IsNumber (w ++ c :: cs)) :
    (Token.number w).goesOnWith c = true := by
  rcases h.chars c (by simp) with hd | rfl
  · simp [goesOnWith, hd]
  · have hcount := h.point
    rw [List.count_append, List.count_cons_self] at hcount
    have hw : '.' ∉ w := List.count_eq_zero.1 (by omega)
    simp [goesOnWith, hw]

/-- If a longer text spells a token too, the token goes on with the character behind it. -/
theorem Spells.goesOnWith {t t' : Token} {w cs : List Char} {c : Char} (h : t.Spells w)
    (h' : t'.Spells (w ++ c :: cs)) : t.goesOnWith c = true := by
  have hlead : t.lead = t'.lead := by
    obtain ⟨d, ds, rfl⟩ := List.exists_cons_of_ne_nil h.ne_nil
    exact h.lead.symm.trans (Spells.lead (by simpa using h'))
  rcases h.cases_of_lead_eq h' hlead with ⟨rfl, -, -, hn⟩ | ⟨rfl, -, -, hw⟩ | ⟨hs, hs'⟩
  · exact goesOnWith_of_isNumber hn
  · exact hw.chars c (by simp)
  · simpa using ((symbols_table _ hs).2.2 _ hs').2 ⟨c :: cs, rfl⟩

/-- The only symbol that goes on is the sign of a product, which may be the first star of a power.
-/
theorem eq_times_of_goesOnWith {w : List Char} {t : Token} {c : Char} (h : (w, t) ∈ symbols)
    (hc : t.goesOnWith c = true) : t = .operator .times ∧ w = ['*'] ∧ c = '*' := by
  have key : ∀ p ∈ symbols, p.2.goesOnWith c = true →
      p.2 = .operator .times ∧ p.1 = ['*'] ∧ c = '*' := by
    intro p hp
    fin_cases hp <;> simp [Token.goesOnWith]
  exact key _ h hc

/-- A token that goes on with `c` is the beginning of a longer one. -/
theorem Spells.extend {t : Token} {w : List Char} {c : Char} (h : t.Spells w)
    (hc : t.goesOnWith c = true) : ∃ t', Spells t' (w ++ [c]) := by
  cases h with
  | number hn =>
    refine ⟨_, .number ⟨?_, ?_, ?_⟩⟩
    all_goals simp only [Token.goesOnWith, Bool.or_eq_true, Bool.and_eq_true, beq_iff_eq] at hc
    · intro d hd
      rcases List.mem_append.1 hd with hd | hd
      · exact hn.chars d hd
      · obtain rfl := List.mem_singleton.1 hd
        exact hc.imp id And.left
    · rw [List.count_append]
      rcases hc with hc | ⟨rfl, hw⟩
      · have hne : c ≠ '.' := by rintro rfl; exact absurd hc (by decide)
        simpa [hne] using hn.point
      · have hw : w.count '.' = 0 := List.count_eq_zero.2 (by simpa using hw)
        simp [hw]
    · obtain ⟨d, hd, hdigit⟩ := hn.digit
      exact ⟨d, List.mem_append_left _ hd, hdigit⟩
  | word hw =>
    refine ⟨_, .word ⟨?_, ?_⟩⟩
    · obtain ⟨d, hd, hs⟩ := hw.first
      exact ⟨d, by simp [List.head?_append, Option.mem_def.1 hd], hs⟩
    · intro d hd
      rcases List.mem_append.1 hd with hd | hd
      · exact hw.chars d hd
      · obtain rfl := List.mem_singleton.1 hd
        exact hc
  | symbol hs =>
    obtain ⟨-, rfl, rfl⟩ := eq_times_of_goesOnWith hs hc
    exact ⟨.operator .power, .symbol (by decide)⟩

end Token

/-! ## The longest token at the front -/

/-- A token is the longest one as soon as it does not go on with the character behind it. -/
theorem readsOff_iff {text rest : List Char} {t : Token} :
    ReadsOff text t rest ↔
      ∃ w, t.Spells w ∧ text = w ++ rest ∧ ∀ c ∈ rest.head?, t.goesOnWith c = false := by
  constructor
  · rintro ⟨w, hw, rfl, hlong⟩
    refine ⟨w, hw, rfl, ?_⟩
    intro c hc
    by_contra hgo
    -- with `c` there would be a longer token
    obtain ⟨t', ht'⟩ := hw.extend (by simpa using hgo)
    obtain ⟨cs, rfl⟩ := List.head?_eq_some_iff.1 hc
    have hle := hlong t' _ ht' ⟨cs, by simp⟩
    simp only [List.length_append, List.length_singleton] at hle
    omega
  · rintro ⟨w, hw, rfl, hstop⟩
    refine ⟨w, hw, rfl, ?_⟩
    intro t' w' hw' hpre
    by_contra hlt
    -- the longer token begins with `w` and the first character of `rest`
    obtain ⟨u, hu⟩ := List.prefix_of_prefix_length_le (List.prefix_append w rest) hpre (by omega)
    obtain ⟨c, cs, rfl⟩ : ∃ c cs, u = c :: cs := by
      cases u with
      | nil => simp [← hu] at hlt
      | cons c cs => exact ⟨c, cs, rfl⟩
    have hgo := hw.goesOnWith (hu ▸ hw')
    have hc : c ∈ rest.head? := by
      rw [← hu, List.prefix_append_right_inj] at hpre
      obtain ⟨v, rfl⟩ := hpre
      simp
    rw [hstop c hc] at hgo
    exact absurd hgo (by decide)

/-- The four blanks. -/
theorem mem_of_isGap {c : Char} (h : isGap c = true) : c ∈ [' ', '\t', '\r', '\n'] := by
  simp only [isGap, Bool.or_eq_true, beq_iff_eq] at h
  simpa [or_assoc] using h

/-- No token starts with a blank. -/
theorem Token.Spells.not_isGap {t : Token} {c : Char} {cs : List Char} (h : t.Spells (c :: cs)) :
    isGap c = false := by
  by_contra hgap
  have hgap := mem_of_isGap (c := c) (by simpa using hgap)
  cases h with
  | number hn =>
    have key : ∀ c ∈ [' ', '\t', '\r', '\n'], ¬ (c.isDigit = true ∨ c = '.') := by
      intro c hc
      fin_cases hc <;> decide
    exact key c hgap hn.first
  | word hw =>
    have key : ∀ c ∈ [' ', '\t', '\r', '\n'], isNameStart c = false := by
      intro c hc
      fin_cases hc <;> rfl
    exact absurd hw.isNameStart (by rw [key c hgap]; decide)
  | symbol hs =>
    have key : ∀ p ∈ symbols, p.1.head?.all (· ∉ [' ', '\t', '\r', '\n']) = true := by decide
    exact of_decide_eq_true (key _ hs) hgap

namespace ReadsOff

variable {text rest rest' : List Char} {t t' : Token}

theorem length_lt (h : ReadsOff text t rest) : rest.length < text.length := by
  obtain ⟨w, hw, rfl, -⟩ := h
  have hpos := List.length_pos_of_ne_nil hw.ne_nil
  rw [List.length_append]
  omega

/-- A token does not start with a blank. -/
theorem dropWhile_isGap (h : ReadsOff text t rest) : text.dropWhile isGap = text := by
  obtain ⟨w, hw, rfl, -⟩ := h
  obtain ⟨c, cs, rfl⟩ := List.exists_cons_of_ne_nil hw.ne_nil
  rw [List.cons_append, List.dropWhile_cons_of_neg (by simp [hw.not_isGap])]

/-- A symbol with one spelling stands in the text. -/
theorem eq_append (h : ReadsOff text t rest) (w : List Char)
    (hw : ∀ p ∈ symbols, p.2 = t → p.1 = w) (ht : t.lead = .symbol) : text = w ++ rest := by
  obtain ⟨v, hv, rfl, -⟩ := h
  rw [Token.spells_symbol ht] at hv
  rw [show v = w from hw _ hv rfl]

/-- One token stands at the front of a text. -/
theorem unique (h : ReadsOff text t rest) (h' : ReadsOff text t' rest') :
    t = t' ∧ rest = rest' := by
  obtain ⟨w, hw, rfl, hlong⟩ := h
  obtain ⟨w', hw', htext, hlong'⟩ := h'
  have hle := hlong t' w' hw' ⟨rest', htext.symm⟩
  have hle' := hlong' t w hw ⟨rest, rfl⟩
  obtain ⟨rfl, rfl⟩ := List.append_inj htext (by omega)
  exact ⟨hw.unique hw', rfl⟩

end ReadsOff

/-! ## Reading tokens one after another -/

namespace Lexes

variable {text mid rest : List Char} {t : Token} {ts us : List Token}

/-- What is left over can be read on. -/
theorem append (h : Lexes text ts mid) (h' : Lexes mid us rest) : Lexes text (ts ++ us) rest := by
  induction h with
  | done => exact h'
  | blank hc _ ih => exact .blank hc (ih h')
  | token ht _ ih => exact .token ht (ih h')

/-- Tokens in a row are read in two parts. -/
theorem split (h : Lexes text (ts ++ us) rest) : ∃ mid, Lexes text ts mid ∧ Lexes mid us rest := by
  generalize hall : ts ++ us = all at h
  induction h generalizing ts with
  | @done text =>
    obtain ⟨rfl, rfl⟩ := List.append_eq_nil_iff.1 hall
    exact ⟨text, .done, .done⟩
  | blank hc _ ih =>
    obtain ⟨mid, h₁, h₂⟩ := ih hall
    exact ⟨mid, .blank hc h₁, h₂⟩
  | @token text mid t ts' rest ht hrest ih =>
    cases ts with
    | nil => exact ⟨text, .done, by rw [show us = t :: ts' from hall]; exact .token ht hrest⟩
    | cons t' ts =>
      obtain ⟨rfl, htail⟩ := List.cons.inj hall
      obtain ⟨mid, h₁, h₂⟩ := ih htail
      exact ⟨mid, .token ht h₁, h₂⟩

/-- Behind blanks stands the first token. -/
theorem cons_iff : Lexes text (t :: ts) rest ↔
    ∃ mid, ReadsOff (text.dropWhile isGap) t mid ∧ Lexes mid ts rest := by
  constructor
  · intro h
    generalize hall : t :: ts = all at h
    induction h with
    | done => cases hall
    | blank hc _ ih =>
      obtain ⟨mid, h₁, h₂⟩ := ih hall
      exact ⟨mid, by rwa [List.dropWhile_cons_of_pos hc], h₂⟩
    | token ht hrest _ =>
      obtain ⟨rfl, rfl⟩ := List.cons.inj hall
      exact ⟨_, by rwa [ht.dropWhile_isGap], hrest⟩
  · rintro ⟨mid, h₁, h₂⟩
    induction text with
    | nil => exact .token h₁ h₂
    | cons c cs ih =>
      by_cases hc : isGap c = true
      · rw [List.dropWhile_cons_of_pos hc] at h₁
        exact .blank hc (ih h₁)
      · rw [List.dropWhile_cons_of_neg hc] at h₁
        exact .token h₁ h₂

/-- The blanks before the first token may be passed over first. -/
theorem from_dropWhile (h : Lexes text ts rest) (hts : ts ≠ []) :
    Lexes (text.dropWhile isGap) ts rest := by
  obtain ⟨t, ts, rfl⟩ := List.exists_cons_of_ne_nil hts
  obtain ⟨mid, hfirst, hmid⟩ := cons_iff.1 h
  exact .token hfirst hmid

/-- Where no token is read only blanks are passed over. -/
theorem dropWhile_of_nil (h : Lexes text [] rest) :
    text.dropWhile isGap = rest.dropWhile isGap := by
  generalize hall : [] = all at h
  induction h with
  | done => rfl
  | blank hc _ ih => rw [List.dropWhile_cons_of_pos hc, ih hall]
  | token => cases hall

/-- Blanks can be passed over. -/
theorem dropWhile (text : List Char) : Lexes text [] (text.dropWhile isGap) := by
  induction text with
  | nil => exact .done
  | cons c cs ih =>
    by_cases hc : isGap c = true
    · rw [List.dropWhile_cons_of_pos hc]
      exact .blank hc ih
    · rw [List.dropWhile_cons_of_neg hc]
      exact .done

/-- More text may follow if no token goes on with its first character. -/
theorem followed {c : Char} (more : List Char) (h : Lexes text ts [])
    (hc : ∀ t ∈ ts, t.goesOnWith c = false) : Lexes (text ++ c :: more) ts (c :: more) := by
  generalize hrest : [] = rest at h
  induction h with
  | done =>
    subst hrest
    exact .done
  | blank hgap _ ih => exact .blank hgap (ih hc hrest)
  | @token text mid t ts rest ht _ ih =>
    obtain ⟨w, hw, rfl, hstop⟩ := readsOff_iff.1 ht
    have hread : ReadsOff (w ++ mid ++ c :: more) t (mid ++ c :: more) := by
      refine readsOff_iff.2 ⟨w, hw, List.append_assoc w mid _, fun d hd => ?_⟩
      cases mid with
      | nil =>
        -- only the last token meets the new text
        obtain rfl := Option.some.inj hd
        exact hc t List.mem_cons_self
      | cons => exact hstop d hd
    exact .token hread (ih (fun t' ht' => hc t' (List.mem_cons_of_mem _ ht')) hrest)

theorem length_le (h : Lexes text ts rest) : rest.length ≤ text.length := by
  induction h with
  | done => exact Nat.le_refl _
  | blank _ _ ih => exact Nat.le_succ_of_le ih
  | token ht _ ih => exact ih.trans ht.length_lt.le

end Lexes

end SchoolMath.Arithmetic
