import Mathlib
import SchoolMath.Expression.Construct
import SchoolMath.Proofs.Arithmetic.Token
import SchoolMath.Proofs.Surface.Rules

/-!
# `Arithmetic.Scanner` — the surface grammar reads the longest tokens

The surface grammar tries its alternatives in order and knows many operators that are not
arithmetic. Still, where it reads something arithmetic it reads the longest token of arithmetic, and
where such a token stands it reads that token:

* `scanNumber_iff`, `scanName_iff` — numbers and names, a name being a word that is no keyword;
* `infix_sound`, `infix_complete` — operators between operands;
* `sign_sound`, `sign_complete` — operators before an operand.
-/

namespace SchoolMath.Arithmetic

open Surface Surface.Reader

/-! ## Runs of characters -/

/-- A run of characters ends where the next one is of another class. -/
theorem takeWhile_append {p : Char → Bool} {w : List Char} (rest : List Char)
    (hw : ∀ c ∈ w, p c = true) (hrest : ∀ c ∈ rest.head?, p c = false) :
    (w ++ rest).takeWhile p = w ∧ (w ++ rest).dropWhile p = rest := by
  rw [List.takeWhile_append_of_pos hw, List.dropWhile_append_of_pos hw]
  cases rest with
  | nil => simp
  | cons c cs =>
    have hc : p c = false := hrest c rfl
    simp [hc]

/-- What follows the longest run is of another class. -/
theorem not_of_mem_head?_dropWhile {p : Char → Bool} (text : List Char) :
    ∀ c ∈ (text.dropWhile p).head?, p c = false := by
  intro c hc
  have h := List.head?_dropWhile_not p text
  rw [Option.mem_def.1 hc] at h
  simpa using h

/-! ## Numbers -/

/-- Digits with a point among them are a number. -/
theorem isNumber_point {whole fraction : List Char} (hw : ∀ c ∈ whole, c.isDigit = true)
    (hf : ∀ c ∈ fraction, c.isDigit = true) (hne : whole ≠ [] ∨ fraction ≠ []) :
    IsNumber (whole ++ '.' :: fraction) where
  chars c hc := by
    rcases List.mem_append.1 hc with hc | hc
    · exact .inl (hw c hc)
    · rcases List.mem_cons.1 hc with rfl | hc
      · exact .inr rfl
      · exact .inl (hf c hc)
  point := by
    have hpoint : ∀ w : List Char, (∀ c ∈ w, c.isDigit = true) → w.count '.' = 0 := by
      intro w hw
      exact List.count_eq_zero.2 fun hmem => absurd (hw '.' hmem) (by decide)
    rw [List.count_append, List.count_cons_self, hpoint whole hw, hpoint fraction hf]
  digit := by
    rcases hne with hne | hne
    · obtain ⟨c, cs, rfl⟩ := List.exists_cons_of_ne_nil hne
      exact ⟨c, by simp, hw c List.mem_cons_self⟩
    · obtain ⟨c, cs, rfl⟩ := List.exists_cons_of_ne_nil hne
      exact ⟨c, by simp, hf c List.mem_cons_self⟩

/-- Digits alone are a number. -/
theorem isNumber_digits {whole : List Char} (hw : ∀ c ∈ whole, c.isDigit = true)
    (hne : whole ≠ []) : IsNumber whole where
  chars c hc := .inl (hw c hc)
  point := by
    rw [List.count_eq_zero.2 fun hmem => absurd (hw '.' hmem) (by decide)]
    exact Nat.zero_le 1
  digit := by
    obtain ⟨c, cs, rfl⟩ := List.exists_cons_of_ne_nil hne
    exact ⟨c, List.mem_cons_self, hw c List.mem_cons_self⟩

/-- A number with its point read is over where the digits are. -/
theorem readsOff_point {whole text : List Char} (hw : ∀ c ∈ whole, c.isDigit = true)
    (hne : whole ≠ [] ∨ text.takeWhile Char.isDigit ≠ []) :
    ReadsOff (whole ++ '.' :: text) (.number (whole ++ '.' :: text.takeWhile Char.isDigit))
      (text.dropWhile Char.isDigit) := by
  have hf : ∀ c ∈ text.takeWhile Char.isDigit, c.isDigit = true := fun c => List.mem_takeWhile_imp
  refine readsOff_iff.2 ⟨_, .number (isNumber_point hw hf hne), by simp, ?_⟩
  intro c hc
  simp [Token.goesOnWith, not_of_mem_head?_dropWhile text c hc]

/-- A number without a point is read where the digits end. -/
theorem readsOff_digits {whole rest : List Char} (hw : ∀ c ∈ whole, c.isDigit = true)
    (hne : whole ≠ []) (hrest : ∀ c ∈ rest.head?, c.isDigit = false ∧ c ≠ '.') :
    ReadsOff (whole ++ rest) (.number whole) rest := by
  refine readsOff_iff.2 ⟨_, .number (isNumber_digits hw hne), rfl, ?_⟩
  intro c hc
  obtain ⟨hdigit, hpoint⟩ := hrest c hc
  simp [Token.goesOnWith, hdigit, hpoint]

/-- A number read by the scanner is the longest one. -/
theorem readsOff_of_scanNumber {text w rest : List Char} (h : scanNumber text = some (w, rest)) :
    ReadsOff text (.number w) rest := by
  have hwhole : ∀ c ∈ text.takeWhile Char.isDigit, c.isDigit = true :=
    fun c => List.mem_takeWhile_imp
  have hstop := not_of_mem_head?_dropWhile (p := Char.isDigit) text
  rw [← List.takeWhile_append_dropWhile (p := Char.isDigit) (l := text)]
  unfold scanNumber at h
  generalize text.takeWhile Char.isDigit = whole at h hwhole ⊢
  generalize text.dropWhile Char.isDigit = tail at h hstop ⊢
  by_cases hpoint : ∃ tail', tail = '.' :: tail'
  · -- the point belongs to the number, and needs a digit on one of its sides
    obtain ⟨tail, rfl⟩ := hpoint
    cases whole with
    | nil =>
      cases hfraction : tail.takeWhile Char.isDigit with
      | nil => simp [hfraction] at h
      | cons c cs =>
        simp only [hfraction, Option.some.injEq, Prod.mk.injEq] at h
        obtain ⟨rfl, rfl⟩ := h
        rw [← hfraction]
        exact readsOff_point hwhole (.inr (by simp [hfraction]))
    | cons c cs =>
      simp only [Option.some.injEq, Prod.mk.injEq] at h
      obtain ⟨rfl, rfl⟩ := h
      exact readsOff_point hwhole (.inl (by simp))
  · cases whole with
    | nil =>
      split at h
      all_goals simp_all
    | cons c cs =>
      have hrest : ∀ d ∈ tail.head?, d.isDigit = false ∧ d ≠ '.' := by
        intro d hd
        refine ⟨hstop d hd, ?_⟩
        rintro rfl
        exact hpoint (List.head?_eq_some_iff.1 hd)
      split at h
      case h_1 | h_2 => simp_all
      case h_3 => exact absurd ⟨_, rfl⟩ hpoint
      case h_4 =>
        obtain ⟨rfl, rfl⟩ := Prod.mk.inj (Option.some.inj h)
        exact readsOff_digits hwhole (by simp) hrest

/-- Where a number stands the scanner reads one. -/
theorem scanNumber_ne_none {w : List Char} (h : IsNumber w) (rest : List Char) :
    scanNumber (w ++ rest) ≠ none := by
  obtain ⟨c, cs, rfl⟩ := List.exists_cons_of_ne_nil h.ne_nil
  unfold scanNumber
  rcases h.first with hc | rfl
  · -- the digits at the front are not empty
    rw [List.cons_append, List.takeWhile_cons_of_pos hc]
    split <;> simp_all
  · -- a point, so the digit that every number has stands right behind it
    have hnone : '.' ∉ cs := by
      have hcount := h.point
      rw [List.count_cons_self] at hcount
      exact List.count_eq_zero.1 (by omega)
    obtain ⟨d, ds, rfl⟩ : ∃ d ds, cs = d :: ds := by
      refine List.exists_cons_of_ne_nil ?_
      rintro rfl
      obtain ⟨d, hd, hdigit⟩ := h.digit
      obtain rfl := List.mem_singleton.1 hd
      exact absurd hdigit (by decide)
    have hd : d.isDigit = true := by
      rcases h.chars d (by simp) with hd | rfl
      · exact hd
      · simp at hnone
    have hpoint : ¬ Char.isDigit '.' = true := by decide
    rw [List.cons_append, List.takeWhile_cons_of_neg hpoint, List.dropWhile_cons_of_neg hpoint]
    simp [List.takeWhile_cons_of_pos hd]

/-- The scanner of numbers reads the longest number. -/
theorem scanNumber_iff {text w rest : List Char} :
    scanNumber text = some (w, rest) ↔ ReadsOff text (.number w) rest := by
  constructor
  · exact readsOff_of_scanNumber
  · intro h
    have ⟨w', hw', htext, _⟩ := h
    obtain ⟨rfl, hn⟩ := Token.spells_number.1 hw'
    obtain ⟨⟨v, rest'⟩, hscan⟩ := Option.ne_none_iff_exists'.1 (scanNumber_ne_none hn rest)
    rw [← htext] at hscan
    obtain ⟨hv, rfl⟩ := (readsOff_of_scanNumber hscan).unique h
    rw [hscan, Token.number.inj hv]

/-- The scanner of numbers reads nothing where another token stands. -/
theorem scanNumber_eq_none {text rest : List Char} {t : Token} (h : ReadsOff text t rest)
    (ht : t.lead ≠ .number) : scanNumber text = none := by
  by_contra hne
  obtain ⟨⟨w, rest'⟩, hscan⟩ := Option.ne_none_iff_exists'.1 hne
  obtain ⟨rfl, -⟩ := h.unique (scanNumber_iff.1 hscan)
  exact ht rfl

/-! ## Names -/

/-- A word is read up to the first character that no name goes on with. -/
theorem readsOff_word_iff {text w rest : List Char} :
    ReadsOff text (.word w) rest ↔ (∃ c ∈ text.head?, isNameStart c = true) ∧
      text.takeWhile isNameChar = w ∧ text.dropWhile isNameChar = rest := by
  rw [readsOff_iff]
  constructor
  · rintro ⟨w', hw', rfl, hstop⟩
    obtain ⟨rfl, hword⟩ := Token.spells_word.1 hw'
    obtain ⟨c, hc, hstart⟩ := hword.first
    exact ⟨⟨c, by simp [List.head?_append, Option.mem_def.1 hc], hstart⟩,
      takeWhile_append rest hword.chars hstop⟩
  · rintro ⟨⟨c, hc, hstart⟩, rfl, rfl⟩
    refine ⟨_, .word ⟨⟨c, ?_, hstart⟩, fun d => List.mem_takeWhile_imp⟩, by simp,
      not_of_mem_head?_dropWhile text⟩
    cases text with
    | nil => simp at hc
    | cons d ds =>
      obtain rfl : d = c := by simpa using hc
      rw [List.takeWhile_cons_of_pos (isNameChar_of_isNameStart hstart)]
      rfl

/-- The scanner of names reads the longest word, unless it is a keyword. -/
theorem scanName_iff {text w rest : List Char} :
    scanName text = some (w, rest) ↔ ReadsOff text (.word w) rest ∧ w ∉ keywords := by
  rw [readsOff_word_iff]
  cases text with
  | nil => simp [scanName]
  | cons c cs => simp [scanName, and_assoc]; grind

/-- The scanner of names reads nothing where another token stands. -/
theorem scanName_eq_none {text rest : List Char} {t : Token} (h : ReadsOff text t rest)
    (ht : t.lead ≠ .word) : scanName text = none := by
  by_contra hne
  obtain ⟨⟨w, rest'⟩, hscan⟩ := Option.ne_none_iff_exists'.1 hne
  obtain ⟨rfl, -⟩ := h.unique (scanName_iff.1 hscan).1
  exact ht rfl

/-! ## Operators -/

/-- The token of an operator is read as that operator. What the surface grammar knows besides is two
slashes, which is no matter where no slash follows. -/
theorem infix_complete {text rest : List Char} {op : Operator}
    (h : ReadsOff text (.operator op) rest) (hnext : op = .over → '/' ∉ rest.head?) :
    ∃ token, reads infixToken text = some (token, rest) ∧ token.kind.operator = .ok op := by
  obtain ⟨w, hw, rfl, hstop⟩ := readsOff_iff.1 h
  rw [Token.spells_symbol rfl] at hw
  simp only [symbols, List.mem_cons, Prod.mk.injEq, Token.operator.injEq, List.not_mem_nil,
    reduceCtorEq, and_false, or_false] at hw
  rcases hw with ⟨rfl, rfl⟩ | ⟨rfl, rfl⟩ | ⟨rfl, rfl⟩ | ⟨rfl, rfl⟩ | ⟨rfl, rfl⟩ | ⟨rfl, rfl⟩
  · refine ⟨⟨.add, "+"⟩, ?_, rfl⟩
    simp [infixToken, symbolToken, scanSymbol_eq]
  · refine ⟨⟨.subtract, "-"⟩, ?_, rfl⟩
    simp [infixToken, symbolToken, scanSymbol_eq]
  · refine ⟨⟨.multiply, "*"⟩, ?_, rfl⟩
    have hstar : ¬ ['*'] <+: rest := by
      rintro ⟨tail, rfl⟩
      exact absurd (hstop '*' rfl) (by decide)
    simp [infixToken, symbolToken, scanSymbol_eq, hstar]
  · refine ⟨⟨.divide, "/"⟩, ?_, rfl⟩
    have hslash : ¬ ['/'] <+: rest := by
      rintro ⟨tail, rfl⟩
      exact hnext rfl rfl
    simp [infixToken, symbolToken, scanSymbol_eq, hslash]
  · refine ⟨⟨.power, "**"⟩, ?_, rfl⟩
    simp [infixToken, symbolToken, scanSymbol_eq]
  · refine ⟨⟨.power, "^"⟩, ?_, rfl⟩
    simp [infixToken, symbolToken, scanSymbol_eq]

/-- The operators between operands that symbols spell, in the order in which they are tried. -/
def symbolOperators : List (Infix × List String) := [
  (.power, ["**", "^"]), (.floorDivide, ["//"]), (.multiply, ["*"]), (.divide, ["/"]),
  (.modulo, ["%"]), (.matMul, ["@"]), (.add, ["+"]), (.subtract, ["-"]), (.shiftLeft, ["<<"]),
  (.shiftRight, [">>"]), (.lessEqual, ["<="]), (.greaterEqual, [">="]), (.equal, ["=="]),
  (.notEqual, ["!="]), (.less, ["<"]), (.greater, [">"]), (.bitAnd, ["&"]), (.bitOr, ["|"])]

/-- The operators between operands, those that are words apart from the others. -/
theorem infixToken_eq : infixToken = firstOf (symbolOperators.map (fun p => symbolToken p.1 p.2) ++
    [wordToken .and "and", wordToken .or "or"]) := rfl

/-- The arithmetic ones among them are spelled like the tokens. -/
theorem symbolOperators_spelled : ∀ p ∈ symbolOperators, ∀ op ∈ p.1.operator.toOption,
    ∀ s ∈ p.2, (s.toList, Token.operator op) ∈ symbols := by
  decide

/-- An arithmetic operator between operands is spelled by its symbol. -/
theorem spelled_of_infixToken {text rest : List Char} {token : Surface.Token Infix} {op : Operator}
    (h : reads infixToken text = some (token, rest)) (hop : token.kind.operator = .ok op) :
    ∃ w, (w, Token.operator op) ∈ symbols ∧ text = w ++ rest := by
  rw [infixToken_eq] at h
  obtain ⟨p, hp, hread⟩ := exists_of_firstOf h
  rcases List.mem_append.1 hp with hp | hp
  · obtain ⟨entry, hentry, rfl⟩ := List.mem_map.1 hp
    obtain ⟨hkind, symbol, hsymbol, rfl⟩ := of_symbolToken hread
    have hop : op ∈ entry.1.operator.toOption := by
      rw [← hkind, hop]
      rfl
    exact ⟨_, symbolOperators_spelled entry hentry op hop symbol hsymbol, rfl⟩
  · simp only [List.mem_cons, List.not_mem_nil, or_false] at hp
    rcases hp with rfl | rfl
    all_goals
      rw [kind_of_wordToken hread] at hop
      cases hop

/-- An arithmetic operator that the surface grammar reads is the longest token. -/
theorem infix_sound {text rest : List Char} {token : Surface.Token Infix} {op : Operator}
    (h : reads infixToken text = some (token, rest)) (hop : token.kind.operator = .ok op) :
    ReadsOff text (.operator op) rest := by
  obtain ⟨w, hw, rfl⟩ := spelled_of_infixToken h hop
  refine readsOff_iff.2 ⟨w, .symbol hw, rfl, ?_⟩
  intro c hc
  by_contra hgo
  -- only the sign of a product goes on; with the next star it would have been read as a power
  obtain ⟨⟨⟩, rfl, rfl⟩ := Token.eq_times_of_goesOnWith hw (by simpa using hgo)
  obtain ⟨cs, rfl⟩ := List.head?_eq_some_iff.1 hc
  have hpower : ReadsOff (['*'] ++ '*' :: cs) (.operator .power) cs :=
    readsOff_iff.2 ⟨['*', '*'], .symbol (by decide), rfl, fun _ _ => rfl⟩
  obtain ⟨token', hread, hop'⟩ := infix_complete hpower (by rintro ⟨⟩)
  rw [h] at hread
  obtain ⟨rfl, -⟩ := Prod.mk.inj (Option.some.inj hread)
  rw [hop] at hop'
  cases hop'

/-- Arithmetic stops at the end of a text and at a closing parenthesis. -/
def AtClose (text : List Char) : Prop := text = [] ∨ ∃ cs, text = ')' :: cs

/-- No operator is read where arithmetic stops. -/
theorem infix_none {text : List Char} (h : AtClose text) : reads infixToken text = none := by
  rcases h with rfl | ⟨cs, rfl⟩
  · decide
  · have hc : isNameChar ')' = false := by decide
    simp [infixToken, symbolToken, wordToken, scanSymbol_eq, scanWord, hc]

/-! ## Signs -/

/-- A sign of arithmetic that the surface grammar reads is the token of that sign. -/
theorem sign_sound {text rest : List Char} {token : Surface.Token Sign} {minus : Bool}
    (h : reads signToken text = some (token, rest)) (hminus : token.kind.isMinus = .ok minus) :
    ReadsOff text (.sign minus) rest := by
  obtain ⟨p, hp, hread⟩ := exists_of_firstOf h
  simp only [List.mem_cons, List.not_mem_nil, or_false] at hp
  rcases hp with rfl | rfl | rfl | rfl
  · obtain ⟨hkind, symbol, hsymbol, rfl⟩ := of_symbolToken hread
    rw [hkind] at hminus
    cases hminus
    obtain rfl := List.mem_singleton.1 hsymbol
    exact readsOff_iff.2 ⟨['-'], .symbol (by decide), rfl, fun _ _ => rfl⟩
  · obtain ⟨hkind, symbol, hsymbol, rfl⟩ := of_symbolToken hread
    rw [hkind] at hminus
    cases hminus
    obtain rfl := List.mem_singleton.1 hsymbol
    exact readsOff_iff.2 ⟨['+'], .symbol (by decide), rfl, fun _ _ => rfl⟩
  · rw [(of_symbolToken hread).1] at hminus
    cases hminus
  · rw [kind_of_wordToken hread] at hminus
    cases hminus

/-- The token of a sign is read as that sign. -/
theorem sign_complete {text rest : List Char} {minus : Bool}
    (h : ReadsOff text (.sign minus) rest) :
    ∃ token, reads signToken text = some (token, rest) ∧ token.kind.isMinus = .ok minus := by
  obtain ⟨w, hw, rfl, -⟩ := readsOff_iff.1 h
  rw [Token.spells_symbol rfl] at hw
  have key : ∀ p ∈ symbols, ∀ minus, p.2 = Token.sign minus →
      p.1 = if minus then ['-'] else ['+'] := by decide
  obtain rfl := key _ hw minus rfl
  cases minus with
  | false => exact ⟨⟨.positive, "+"⟩, by simp [signToken, symbolToken, scanSymbol_eq], rfl⟩
  | true => exact ⟨⟨.negate, "-"⟩, by simp [signToken, symbolToken, scanSymbol_eq], rfl⟩

end SchoolMath.Arithmetic
