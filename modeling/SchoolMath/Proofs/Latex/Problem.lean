import SchoolMath.Latex.Problem
import SchoolMath.Number.Double
import SchoolMath.Proofs.Arithmetic.Reading
import SchoolMath.Proofs.Latex.Canonical
import SchoolMath.Proofs.Text.Edit

/-!
# `Latex.Problem` — an expression is the problem that it is

A text that the reader of expressions takes is also LaTeX. The problem that it states is the
expression: the text holds none of the characters that LaTeX adds, so it is neither an integral nor
an equation, and its canonical text has the same tokens (`canonicalChars_of_lexes`), of which the same
tree is derived.
-/

namespace SchoolMath.Latex

open Arithmetic Surface Surface.Reader

variable {K : Type} [Numeral K]

/-! ## The characters of arithmetic -/

/-- The characters that LaTeX has and arithmetic has not: those of commands, groups and equations.
-/
def latexOnly : List Char := ['\\', '\x7b', '\x7d', '=']

/-- No token holds one of them. -/
theorem not_mem_of_spells {t : Arithmetic.Token} {w : List Char} {c : Char} (h : t.Spells w)
    (hc : c ∈ latexOnly) : c ∉ w := by
  intro hw
  cases h with
  | number hn =>
    have key : ∀ c ∈ latexOnly, ¬ (c.isDigit = true ∨ c = '.') := by
      intro c hc
      fin_cases hc <;> decide
    exact key c hc (hn.chars c hw)
  | word hword =>
    have key : ∀ c ∈ latexOnly, ¬ isNameChar c = true := by
      intro c hc
      fin_cases hc <;> decide
    exact key c hc (hword.chars c hw)
  | symbol hs =>
    have key : ∀ p ∈ symbols, p.1.all (· ∉ latexOnly) = true := by decide
    exact of_decide_eq_true (List.all_eq_true.1 (key _ hs) c hw) hc

/-- Nor does a text of tokens. -/
theorem not_mem_of_lexes {text : List Char} {ts : List Arithmetic.Token} {c : Char}
    (hlex : Lexes text ts []) (hc : c ∈ latexOnly) : c ∉ text := by
  generalize hrest : [] = rest at hlex
  induction hlex with
  | done => simp [← hrest]
  | @blank d cs ts rest hd _ ih =>
    have hne : c ≠ d := by
      rintro rfl
      have key : ∀ c ∈ latexOnly, isGap c = false := by
        intro c hc
        fin_cases hc <;> rfl
      rw [key c hc] at hd
      cases hd
    exact List.not_mem_cons_of_ne_of_not_mem hne (ih hrest)
  | token ht _ ih =>
    obtain ⟨w, hw, rfl, -⟩ := ht
    intro hmem
    rcases List.mem_append.1 hmem with hmem | hmem
    · exact not_mem_of_spells hw hc hmem
    · exact ih hrest hmem

/-- Without `=` a text has no two sides. -/
theorem splitAtEquals_of_not_mem {text : List Char} (h : '=' ∉ text) (depth : Int) :
    splitAtEquals depth text = none := by
  induction text generalizing depth with
  | nil => rfl
  | cons c cs ih =>
    have hc : c ≠ '=' := (List.ne_of_not_mem_cons h).symm
    rw [splitAtEquals, if_neg fun hand => hc hand.1, ih (List.not_mem_of_not_mem_cons h)]
    rfl

/-! ## The canonical text of a trimmed text -/

/-- Behind nothing it does not matter whether blanks were passed over. -/
theorem spellProducts_other (gap gap' : Bool) (text : List Char) :
    spellProducts .other gap text = spellProducts .other gap' text := by
  cases text with
  | nil => rfl
  | cons c cs =>
    have hgo : ∀ gap : Bool, (!gap && Kind.other.goesOnWith c) = false :=
      fun gap => Bool.and_false _
    simp only [spellProducts, hgo]

/-- Blanks in front are dropped. -/
theorem spellProducts_blanks_append {before : List Char} (text : List Char)
    (h : ∀ c ∈ before, Text.isBlank c = true) :
    spellProducts .other false (before ++ text) = spellProducts .other false text := by
  induction before with
  | nil => rfl
  | cons c cs ih =>
    have ih := ih fun d hd => h d (List.mem_cons_of_mem _ hd)
    rw [List.cons_append, spellProducts_blank (h c List.mem_cons_self),
      spellProducts_other true false, ih]

/-- Blanks at the end are dropped. -/
theorem spellProducts_append_blanks {after : List Char} (k : Kind) (gap : Bool) (text : List Char)
    (h : ∀ c ∈ after, Text.isBlank c = true) :
    spellProducts k gap (text ++ after) = spellProducts k gap text := by
  induction text generalizing k gap with
  | nil =>
    induction after generalizing gap with
    | nil => rfl
    | cons c cs ih =>
      rw [List.nil_append, spellProducts_blank (h c List.mem_cons_self)]
      exact ih (fun d hd => h d (List.mem_cons_of_mem _ hd)) true
  | cons c cs ih => simp only [List.cons_append, spellProducts, ih]

/-- Blanks around a text are dropped. -/
theorem canonicalChars_blanks_append {before after : List Char} (text : List Char)
    (hbefore : ∀ c ∈ before, Text.isBlank c = true) (hafter : ∀ c ∈ after, Text.isBlank c = true) :
    canonicalChars (before ++ (text ++ after)) = canonicalChars text := by
  -- no respelling has a blank
  have key : ∀ p ∈ respellings,
      p.1.toList ≠ [] ∧ p.1.toList.all (Text.isBlank · = false) = true := by decide
  have hblank : ∀ blanks : List Char, (∀ c ∈ blanks, Text.isBlank c = true) →
      ∀ c ∈ blanks, ∀ p ∈ respellings, p.1.toList ≠ [] ∧ c ∉ p.1.toList := by
    intro blanks hblanks c hc p hp
    refine ⟨(key p hp).1, ?_⟩
    intro hmem
    have hnone : Text.isBlank c = false := of_decide_eq_true (List.all_eq_true.1 (key p hp).2 c hmem)
    rw [hblanks c hc] at hnone
    cases hnone
  unfold canonicalChars
  rw [Text.replaceEach_others_append _ (hblank before hbefore),
    Text.replaceEach_append_others _ (hblank after hafter),
    spellProducts_blanks_append _ hbefore, spellProducts_append_blanks _ _ _ hafter]

/-- Trimming the front makes no difference. -/
theorem canonicalChars_trimStart (text : List Char) :
    canonicalChars (Text.trimStart text) = canonicalChars text := by
  have hbefore : ∀ c ∈ text.takeWhile Text.isBlank, Text.isBlank c = true :=
    fun c hc => List.mem_takeWhile_imp hc
  have hafter : ∀ c ∈ ([] : List Char), Text.isBlank c = true := nofun
  have hdropped := canonicalChars_blanks_append (Text.trimStart text) hbefore hafter
  rw [List.append_nil, Text.trimStart, List.takeWhile_append_dropWhile] at hdropped
  exact hdropped.symm

/-- Nor does trimming both ends. -/
theorem canonicalChars_trim (text : List Char) :
    canonicalChars (Text.trim text) = canonicalChars text := by
  obtain ⟨before, after, htext, hbefore, hafter⟩ := Text.exists_trim text
  conv_rhs => rw [htext]
  exact (canonicalChars_blanks_append _ hbefore hafter).symm

/-- In a text without the characters of LaTeX nothing is replaced. -/
theorem canonicalChars_of_not_mem {text : List Char} (h : ∀ c ∈ latexOnly, c ∉ text) :
    canonicalChars text = spellProducts .other false text := by
  have key : ∀ p ∈ respellings, ∃ c ∈ p.1.toList.head?, c ∈ latexOnly := by
    intro p hp
    fin_cases hp <;> exact ⟨_, rfl, by decide⟩
  have hreplace : Text.replaceEach respellings text = text := by
    refine Text.replaceEach_of_not_mem fun p hp => ?_
    obtain ⟨c, hc, hlatex⟩ := key p hp
    exact ⟨c, hc, h c hlatex⟩
  rw [canonicalChars, hreplace]

/-- The parenthesis for a brace. -/
def parenthesis (c : Char) : Char := if c = '\x7b' then '(' else if c = '\x7d' then ')' else c

/-- Parentheses for braces change no name, no number and no blank. -/
theorem of_parenthesis (c : Char) : isNameChar (parenthesis c) = isNameChar c ∧
    (parenthesis c).isDigit = c.isDigit ∧ Text.isBlank (parenthesis c) = Text.isBlank c := by
  unfold parenthesis
  split_ifs with hopening hclosing
  · subst hopening
    decide
  · subst hclosing
    decide
  · exact ⟨rfl, rfl, rfl⟩

/-- They change no text without braces. -/
theorem map_parenthesis {text : List Char} (hopening : '\x7b' ∉ text) (hclosing : '\x7d' ∉ text) :
    text.map parenthesis = text := by
  have hfixed : ∀ c ∈ text, parenthesis c = id c := by
    intro c hc
    have hne : c ≠ '\x7b' := ne_of_mem_of_not_mem hc hopening
    have hne' : c ≠ '\x7d' := ne_of_mem_of_not_mem hc hclosing
    rw [parenthesis, if_neg hne, if_neg hne']
    rfl
  exact (List.map_congr_left hfixed).trans (List.map_id text)

/-- So they change no number and no name. -/
theorem map_parenthesis_of_spells {t : Arithmetic.Token} {w : List Char} (h : t.Spells w) :
    w.map parenthesis = w :=
  map_parenthesis (not_mem_of_spells h (by decide)) (not_mem_of_spells h (by decide))

/-- In a text without backslash nothing but the braces is replaced. -/
theorem canonicalChars_of_plain {text : List Char} (h : '\\' ∉ text) :
    canonicalChars text = spellProducts .other false (text.map parenthesis) := by
  have hcommand : ∀ (text : List Char), '\\' ∉ text →
      ∀ word ∈ ["\\,", "\\!", "\\left", "\\right", "\\cdot", "\\times"], ∀ replacement,
        Text.replaceAll word replacement text = text := by
    intro text h word hword replacement
    refine Text.replaceAll_of_not_mem (c := '\\') ?_ h
    fin_cases hword <;> rfl
  have hmem : '\\' ∉ text.map parenthesis := by
    intro hmem
    obtain ⟨c, hc, heq⟩ := List.mem_map.1 hmem
    unfold parenthesis at heq
    split_ifs at heq
    · exact absurd heq (by decide)
    · exact absurd heq (by decide)
    · exact h (heq ▸ hc)
  have hbraces : Text.replaceAll "\x7d" ")" (Text.replaceAll "\x7b" "(" text) =
      text.map parenthesis := by
    rw [Text.replaceAll_char rfl rfl, Text.replaceAll_char rfl rfl, List.map_map]
    refine List.map_congr_left fun c _ => ?_
    simp only [Function.comp, parenthesis]
    split_ifs with hopening h h <;> first | rfl | contradiction
  have hreplace : Text.replaceEach respellings text = text.map parenthesis := by
    simp only [Text.replaceEach, respellings, List.foldl_cons, List.foldl_nil]
    rw [hcommand text h "\\," (by simp), hcommand text h "\\!" (by simp),
      hcommand text h "\\left" (by simp), hcommand text h "\\right" (by simp), hbraces,
      hcommand _ hmem "\\cdot" (by simp), hcommand _ hmem "\\times" (by simp)]
  rw [canonicalChars, hreplace]

/-- The canonical text of a text of arithmetic spells its tokens. -/
theorem canonicalChars_of_lexes {text : List Char} {ts : List Arithmetic.Token}
    (hlex : Lexes text ts []) (hchain : ts.IsChain Adjacent) :
    canonicalChars text = ts.flatMap Token.spelling := by
  rw [canonicalChars_of_not_mem fun c hc => not_mem_of_lexes hlex hc]
  exact spellProducts_of_lexes hlex hchain (fun _ _ => nofun)

/-! ## The kind of a problem -/

/-- A text without backslash is no integral. -/
theorem not_integralMark {text : List Char} (h : '\\' ∉ text) :
    integralMark.isPrefixOf text = false := by
  rw [Bool.eq_false_iff]
  intro hmark
  obtain ⟨rest, rfl⟩ := List.isPrefixOf_iff_prefix.1 hmark
  exact h List.mem_cons_self

/-- What is no integral is an equation or an expression. -/
theorem readTrimmed_of_not_integral {text : List Char} (hne : text ≠ [])
    (hmark : integralMark.isPrefixOf text = false) :
    readTrimmed (K := K) text = match splitAtEquals 0 text with
      | some (left, right) => do return .equation ⟨← readFragment left, ← readFragment right⟩
      | none => do return .expression (← readFragment text) := by
  have hempty : text.isEmpty = false := List.isEmpty_eq_false_iff.2 hne
  simp only [readTrimmed, hempty, hmark]
  rfl

/-! ## The problem of an expression -/

/-- What is left of a text with tokens when it is trimmed states an expression. -/
theorem readTrimmed_of_lexes {text : List Char} {ts : List Arithmetic.Token}
    (hlex : Lexes text ts []) (hchain : ts.IsChain Adjacent) (hts : ts ≠ []) :
    readTrimmed (K := K) (Text.trim text) =
      (Expression.read (String.ofList (ts.flatMap Token.spelling))).map .expression := by
  have hcanonical : canonicalChars (Text.trim text) = ts.flatMap Token.spelling := by
    rw [canonicalChars_trim, canonicalChars_of_lexes hlex hchain]
  have hmem : ∀ c ∈ latexOnly, c ∉ Text.trim text :=
    fun c hc htrim => not_mem_of_lexes hlex hc (Text.mem_of_mem_trim htrim)
  have hempty : (Text.trim text).isEmpty = false := by
    rw [List.isEmpty_eq_false_iff]
    intro hnil
    obtain ⟨t, ts, rfl⟩ := List.exists_cons_of_ne_nil hts
    have hspelling : t.spelling ++ ts.flatMap Token.spelling = [] := by
      rw [← List.flatMap_cons, ← hcanonical, hnil]
      rfl
    exact (hlex.spells t List.mem_cons_self).ne_nil (List.append_eq_nil_iff.1 hspelling).1
  -- neither mark of another kind of problem is there
  have hintegral : integralMark.isPrefixOf (Text.trim text) = false :=
    not_integralMark (hmem '\\' (by decide))
  have hequals : splitAtEquals 0 (Text.trim text) = none :=
    splitAtEquals_of_not_mem (hmem '=' (by decide)) 0
  simp only [readTrimmed, hempty, hintegral, hequals, readFragment, hcanonical]
  cases Expression.read (K := K) (String.ofList (ts.flatMap Token.spelling)) <;> rfl

/-- A fragment whose canonical text spells the tokens of a tree is read as this tree. -/
theorem readFragment_of_derives {fragment : List Char} {ts : List Arithmetic.Token} {t : Tree K}
    (hcanonical : canonicalChars fragment = ts.flatMap Token.spelling)
    (hspells : ∀ token ∈ ts, token.Spells token.spelling) (hderives : Derives .sum ts t) :
    readFragment fragment = .ok ⟨String.ofList (ts.flatMap Token.spelling), t⟩ := by
  have hlex := lexes_spelling (neat_of_derives hderives).chain hspells
  rw [readFragment, hcanonical]
  exact read_eq_ok_iff.2 ⟨rfl, ts, by rwa [String.toList_ofList], hderives⟩

/-- A text of an expression states, as LaTeX, an expression with the same tree. Its canonical text
is made of the same tokens: no two of them are joined, and no product is put between them. -/
theorem problem_of_expression {text : String} {e : Expression K}
    (h : Expression.read text = .ok e) :
    ∃ e' : Expression K, Problem.read text = .ok (.expression e') ∧ e'.tree = e.tree ∧
      ∃ ts, Lexes text.toList ts [] ∧ Lexes e'.text.toList ts [] ∧
        e'.text = String.ofList (ts.flatMap Token.spelling) := by
  obtain ⟨-, ts, hlex, hderives⟩ := read_eq_ok_iff.1 h
  have hchain : ts.IsChain Adjacent := (neat_of_derives hderives).chain
  have hspelled : Lexes (ts.flatMap Token.spelling) ts [] := lexes_spelling hchain hlex.spells
  have hread : Expression.read (String.ofList (ts.flatMap Token.spelling)) =
      .ok ⟨String.ofList (ts.flatMap Token.spelling), e.tree⟩ :=
    read_eq_ok_iff.2 ⟨rfl, ts, by rwa [String.toList_ofList], hderives⟩
  refine ⟨⟨String.ofList (ts.flatMap Token.spelling), e.tree⟩, ?_, rfl, ts, hlex, ?_, rfl⟩
  · rw [Problem.read, readTrimmed_of_lexes hlex hchain (ne_nil_of_derives hderives), hread]
    rfl
  · rwa [String.toList_ofList]

/-- Blanks around and inside, a name with digits, a number that ends in its point, and `^`. -/
theorem problem_of_spaced_power :
    ∃ e' : Expression Float, Problem.read " x_1 ^\t-2. " = .ok (.expression e') ∧
      e'.tree = .binary .power (.var "x_1") (.neg (.const (Numeral.read "2."))) ∧
      ∃ ts, Lexes " x_1 ^\t-2. ".toList ts [] ∧ Lexes e'.text.toList ts [] ∧
        e'.text = String.ofList (ts.flatMap Token.spelling) := by
  have hlex : Lexes " x_1 ^\t-2. ".toList
      [.word ['x', '_', '1'], .operator .power, .operator .minus, .number ['2', '.']] [] := by
    have htext : " x_1 ^\t-2. ".toList =
        [' ', 'x', '_', '1', ' ', '^', '\t', '-', '2', '.', ' '] := rfl
    rw [htext]
    refine .blank rfl (.token (readsOff_iff.2 ⟨['x', '_', '1'], .word (by decide), rfl, ?_⟩) ?_)
    · rintro _ ⟨⟩
      rfl
    refine .blank rfl (.token (readsOff_iff.2 ⟨['^'], .symbol (by decide), rfl, fun _ _ => rfl⟩) ?_)
    refine .blank rfl (.token (readsOff_iff.2 ⟨['-'], .symbol (by decide), rfl, fun _ _ => rfl⟩) ?_)
    refine .token (readsOff_iff.2 ⟨['2', '.'], .number (by decide), rfl, ?_⟩) (.blank rfl .done)
    rintro _ ⟨⟩
    rfl
  have hderives : Derives .sum
      [.word ['x', '_', '1'], .operator .power, .operator .minus, .number ['2', '.']]
      (.binary .power (.var "x_1") (.neg (.const (Numeral.read (K := Float) "2.")))) :=
    .ofTerm (.ofUnary (.ofPower (.power (.name (by decide))
      (.negative (.ofPower (.ofAtom (.number ['2', '.'])))))))
  exact problem_of_expression (e := ⟨_, _⟩) (read_eq_ok_iff.2 ⟨rfl, _, hlex, hderives⟩)

end SchoolMath.Latex
