import SchoolMath.Proofs.Latex.Problem

/-!
# `Latex.Projection` — the text of a problem states the problem

What is read from LaTeX keeps its canonical text, which holds no blanks and no `^`. Such a text is
nothing but the spellings of its tokens (`eq_spelling_of_lexes`), so to canonicalise it again changes
nothing, also with blanks around it. In the text of an equation the sign between the sides is found
again, since all parentheses of a derived side are closed (`depth_of_derives`). So reading the text of
an expression or an equation gives that expression or equation.
-/

namespace SchoolMath.Latex

open Arithmetic Surface Surface.Reader

variable {K : Type} [Numeral K]

/-! ## Canonical texts -/

/-- A canonical text has no blanks, and spells powers with stars. -/
theorem of_mem_spellProducts {k : Kind} {gap : Bool} {text : List Char} {c : Char}
    (h : c ∈ spellProducts k gap text) : Text.isBlank c = false ∧ c ≠ '^' := by
  have hstar : Text.isBlank '*' = false ∧ '*' ≠ '^' := by decide
  induction text generalizing k gap with
  | nil => cases h
  | cons d ds ih =>
    unfold spellProducts at h
    by_cases hd : Text.isBlank d = true
    · rw [if_pos hd] at h
      exact ih h
    · rw [if_neg hd] at h
      rcases List.mem_append.1 h with h | h
      · rcases List.mem_append.1 h with h | h
        · -- the sign of a product
          split at h
          · obtain rfl := List.mem_singleton.1 h
            exact hstar
          · cases h
        · split at h
          · have hc : c = '*' := by simpa using h
            exact hc ▸ hstar
          · next hpower =>
            obtain rfl := List.mem_singleton.1 h
            exact ⟨by simpa using hd, by simpa using hpower⟩
      · exact ih h

/-- Without `^` a token has one spelling. -/
theorem eq_spelling_of_spells {t : Arithmetic.Token} {w : List Char} (h : t.Spells w)
    (hpower : '^' ∉ w) : w = t.spelling := by
  cases h with
  | number | word => rfl
  | symbol hs =>
    have key : ∀ p ∈ symbols, '^' ∉ p.1 → p.1 = p.2.spelling := by decide
    exact key _ hs hpower

/-- A text of tokens without blanks and without `^` is the spellings of the tokens. -/
theorem eq_spelling_of_lexes {text : List Char} {ts : List Arithmetic.Token}
    (hlex : Lexes text ts []) (h : ∀ c ∈ text, Text.isBlank c = false ∧ c ≠ '^') :
    text = ts.flatMap Token.spelling := by
  generalize hrest : [] = rest at hlex
  induction hlex with
  | done => exact hrest.symm
  | blank hc =>
    have hblank := (h _ List.mem_cons_self).1
    rw [isBlank_of_isGap hc] at hblank
    cases hblank
  | token ht _ ih =>
    obtain ⟨w, hw, rfl, -⟩ := ht
    have hpower : '^' ∉ w := fun hmem => (h '^' (List.mem_append_left _ hmem)).2 rfl
    rw [List.flatMap_cons, ← eq_spelling_of_spells hw hpower,
      ← ih (fun c hc => h c (List.mem_append_right _ hc)) hrest]

/-- An expression whose text is that of its tokens, with nothing between them. -/
def IsCanonical (e : Expression K) : Prop :=
  ∃ ts, e.text = String.ofList (ts.flatMap Token.spelling) ∧
    Lexes (ts.flatMap Token.spelling) ts [] ∧ Derives .sum ts e.tree

/-- What is read from a fragment is canonical. -/
theorem isCanonical_of_readFragment {fragment : List Char} {e : Expression K}
    (h : readFragment fragment = .ok e) : IsCanonical e := by
  obtain ⟨htext, ts, hlex, hderives⟩ := read_eq_ok_iff.1 h
  rw [String.toList_ofList] at hlex
  have hspelling := eq_spelling_of_lexes hlex fun c hc => of_mem_spellProducts hc
  rw [hspelling] at htext hlex
  exact ⟨ts, htext, hlex, hderives⟩

/-- A canonical expression is read from its text, with blanks around it or not. -/
theorem IsCanonical.readFragment_text {e : Expression K} (h : IsCanonical e)
    {before after : List Char} (hbefore : ∀ c ∈ before, Text.isBlank c = true)
    (hafter : ∀ c ∈ after, Text.isBlank c = true) :
    readFragment (before ++ (e.text.toList ++ after)) = .ok e := by
  obtain ⟨ts, htext, hlex, hderives⟩ := h
  have hchain : ts.IsChain Adjacent := (neat_of_derives hderives).chain
  rw [htext, String.toList_ofList, readFragment, canonicalChars_blanks_append _ hbefore hafter,
    canonicalChars_of_lexes hlex hchain]
  exact read_eq_ok_iff.2 ⟨htext, ts, by rwa [String.toList_ofList], hderives⟩

/-! ## Depth -/

/-- The change of depth over a text. -/
def depthOver (text : List Char) : Int := (text.map depthChange).sum

theorem depthOver_append (text rest : List Char) :
    depthOver (text ++ rest) = depthOver text + depthOver rest := by
  simp [depthOver]

/-- A text without brackets leaves the depth as it is. -/
theorem depthOver_eq_zero {text : List Char} (h : ∀ c ∈ text, depthChange c = 0) :
    depthOver text = 0 := by
  rw [depthOver, List.map_congr_left h]
  simp

/-- The change of depth that a token makes. -/
def tokenDepth : Arithmetic.Token → Int
  | .opening => 1
  | .closing => -1
  | _ => 0

/-- No character of a name or a number is a bracket. -/
theorem depthChange_of_isNameChar {c : Char} (h : isNameChar c = true ∨ c = '.') :
    depthChange c = 0 := by
  have key : ∀ d ∈ ['(', '\x7b', '[', ')', '\x7d', ']'], ¬ (isNameChar d = true ∨ d = '.') := by
    intro d hd
    fin_cases hd <;> decide
  have hne : ∀ d ∈ ['(', '\x7b', '[', ')', '\x7d', ']'], c ≠ d := by
    rintro d hd rfl
    exact key c hd h
  simp only [List.forall_mem_cons] at hne
  simp [depthChange, hne]

/-- A token changes the depth as its parenthesis does. -/
theorem depthOver_spelling {t : Arithmetic.Token} {w : List Char} (h : t.Spells w) :
    depthOver w = tokenDepth t := by
  cases h with
  | number hn =>
    refine depthOver_eq_zero fun c hc => depthChange_of_isNameChar ?_
    exact (hn.chars c hc).imp_left fun hd => by simp [isNameChar, Char.isAlphanum, hd]
  | word hw => exact depthOver_eq_zero fun c hc => depthChange_of_isNameChar (.inl (hw.chars c hc))
  | symbol hs =>
    have key : ∀ p ∈ symbols, depthOver p.1 = tokenDepth p.2 := by decide
    exact key _ hs

/-- The tokens of a tree close every parenthesis that they open. -/
theorem depth_of_derives {level : Level} {ts : List Arithmetic.Token} {t : Tree K}
    (h : Derives level ts t) : (ts.map tokenDepth).sum = 0 := by
  induction h with
  | ofTerm _ ih | ofUnary _ ih | ofPower _ ih | ofAtom _ ih => exact ih
  | sum _ _ _ ih ih' | term _ _ _ ih ih' | power _ _ ih ih' =>
    simp [ih, ih', tokenDepth]
  | positive _ ih | negative _ ih => simpa [tokenDepth] using ih
  | number | name => rfl
  | group _ ih => simp [ih, tokenDepth]

/-- The depth over the text of a canonical expression. -/
theorem IsCanonical.depthOver_text {e : Expression K} (h : IsCanonical e) :
    depthOver e.text.toList = 0 := by
  obtain ⟨ts, htext, hlex, hderives⟩ := h
  have hspells := hlex.spells
  rw [htext, String.toList_ofList, ← depth_of_derives hderives]
  clear hlex hderives htext
  induction ts with
  | nil => rfl
  | cons t ts ih =>
    rw [List.flatMap_cons, depthOver_append, depthOver_spelling (hspells t List.mem_cons_self),
      ih fun t' ht' => hspells t' (List.mem_cons_of_mem _ ht'), List.map_cons, List.sum_cons]

/-- The first `=` splits a text if all brackets before it are closed. -/
theorem splitAtEquals_of_depthOver {left right : List Char} {depth : Int} (hleft : '=' ∉ left)
    (hdepth : depth + depthOver left = 0) :
    splitAtEquals depth (left ++ '=' :: right) = some (left, right) := by
  induction left generalizing depth with
  | nil =>
    have hdepth : depth = 0 := by simpa [depthOver] using hdepth
    simp [splitAtEquals, hdepth]
  | cons c cs ih =>
    have hc : c ≠ '=' := (List.ne_of_not_mem_cons hleft).symm
    have hdepth : depth + depthChange c + depthOver cs = 0 := by
      rw [← hdepth, add_assoc]
      simp [depthOver]
    rw [List.cons_append, splitAtEquals, if_neg fun hand => hc hand.1,
      ih (List.not_mem_of_not_mem_cons hleft) hdepth]
    rfl

/-! ## Reading again -/

/-- The characters of a canonical expression: none of LaTeX's, no blanks, and at least one. -/
theorem IsCanonical.text_chars {e : Expression K} (h : IsCanonical e) :
    (∀ c ∈ latexOnly, c ∉ e.text.toList) ∧ (∀ c ∈ e.text.toList, Text.isBlank c = false) ∧
      e.text.toList ≠ [] := by
  obtain ⟨ts, htext, hlex, hderives⟩ := h
  rw [htext, String.toList_ofList]
  refine ⟨fun c hc => not_mem_of_lexes hlex hc, fun c hc => ?_, fun hnil => ?_⟩
  · obtain ⟨t, ht, hc⟩ := List.mem_flatMap.1 hc
    exact isBlank_of_mem_spelling (hlex.spells t ht) c hc
  · obtain ⟨t, us, rfl⟩ := List.exists_cons_of_ne_nil (ne_nil_of_derives hderives)
    rw [List.flatMap_cons] at hnil
    exact (hlex.spells t List.mem_cons_self).ne_nil (List.append_eq_nil_iff.1 hnil).1

/-- The text of a canonical expression states it. -/
theorem IsCanonical.problem {e : Expression K} (h : IsCanonical e) :
    Problem.read e.text = .ok (.expression e) := by
  obtain ⟨ts, htext, hlex, hderives⟩ := h
  have hchain : ts.IsChain Adjacent := (neat_of_derives hderives).chain
  have hread : Expression.read (String.ofList (ts.flatMap Token.spelling)) = .ok e :=
    read_eq_ok_iff.2 ⟨htext, ts, by rwa [String.toList_ofList], hderives⟩
  rw [Problem.read, htext, String.toList_ofList,
    readTrimmed_of_lexes hlex hchain (ne_nil_of_derives hderives), hread]
  rfl

/-- The text of an equation between canonical expressions states it. -/
theorem IsCanonical.equation_problem {left right : Expression K} (hleft : IsCanonical left)
    (hright : IsCanonical right) :
    Problem.read (Equation.text ⟨left, right⟩) = .ok (.equation ⟨left, right⟩) := by
  obtain ⟨hlatex, hblank, hne⟩ := hleft.text_chars
  obtain ⟨hlatex', hblank', hne'⟩ := hright.text_chars
  have htext : (Equation.text ⟨left, right⟩).toList =
      (left.text.toList ++ [' ']) ++ '=' :: ([' '] ++ right.text.toList) := by
    have hwords : Equation.text ⟨left, right⟩ = left.text ++ " = " ++ right.text := rfl
    simp [hwords]
  have hspace : ∀ c ∈ [' '], Text.isBlank c = true := List.forall_mem_singleton.2 rfl
  have hnone : ∀ c ∈ ([] : List Char), Text.isBlank c = true := nofun
  -- the sign stands at depth zero, and nowhere before
  have hequals : '=' ∉ left.text.toList ++ [' '] := by
    simp [hlatex '=' (by decide)]
  have hdepth : (0 : Int) + depthOver (left.text.toList ++ [' ']) = 0 := by
    rw [depthOver_append, hleft.depthOver_text]
    rfl
  have hmark : '\\' ∉ (Equation.text ⟨left, right⟩).toList := by
    simp [htext, hlatex '\\' (by decide), hlatex' '\\' (by decide)]
  have htrim : Text.trim (Equation.text ⟨left, right⟩).toList =
      (Equation.text ⟨left, right⟩).toList := by
    rw [htext]
    refine Text.trim_eq_self ?_ fun c hc => ?_
    · obtain ⟨c, cs, hcs⟩ := List.exists_cons_of_ne_nil hne
      exact ⟨c, by simp [hcs], hblank c (by simp [hcs])⟩
    · rw [List.append_cons, ← List.append_assoc, List.getLast?_append_of_ne_nil _ hne'] at hc
      exact hblank' c (List.mem_of_getLast? hc)
  have hread := hleft.readFragment_text hnone hspace
  have hread' := hright.readFragment_text hspace hnone
  rw [List.nil_append] at hread
  rw [List.append_nil] at hread'
  rw [Problem.read, htrim, readTrimmed_of_not_integral (by simp [htext]) (not_integralMark hmark),
    htext, splitAtEquals_of_depthOver hequals hdepth]
  simp only [hread, hread', ok_bind]
  rfl

/-- The parts of what a text without `\int` states are read from fragments. -/
theorem isCanonical_of_read {latex : String} {p : Problem K} (h : Problem.read latex = .ok p) :
    (∀ e, p = .expression e → IsCanonical e) ∧
      ∀ q, p = .equation q → IsCanonical q.left ∧ IsCanonical q.right := by
  unfold Problem.read readTrimmed at h
  split at h
  · cases h
  · split at h
    · simp only [bind_eq_ok] at h
      obtain ⟨_, -, _, -, heq⟩ := h
      obtain rfl := Except.ok.inj heq
      exact ⟨nofun, nofun⟩
    · split at h
      · simp only [bind_eq_ok] at h
        obtain ⟨left, hleft, right, hright, heq⟩ := h
        obtain rfl := Except.ok.inj heq
        refine ⟨nofun, ?_⟩
        rintro _ ⟨⟩
        exact ⟨isCanonical_of_readFragment hleft, isCanonical_of_readFragment hright⟩
      · obtain ⟨e, he, heq⟩ := bind_eq_ok.1 h
        obtain rfl := Except.ok.inj heq
        refine ⟨?_, nofun⟩
        rintro _ ⟨⟩
        exact isCanonical_of_readFragment he

/-- Reading is a projection on expressions and equations: the text of what was read states the same
problem, with the same texts and the same trees. -/
theorem read_text_of_problem {latex : String} {p : Problem K} (h : Problem.read latex = .ok p) :
    (∀ e, p = .expression e → Problem.read e.text = .ok p) ∧
      ∀ q, p = .equation q → Problem.read q.text = .ok p := by
  obtain ⟨hexpression, hequation⟩ := isCanonical_of_read h
  constructor
  · rintro e rfl
    exact (hexpression e rfl).problem
  · rintro q rfl
    exact (hequation q rfl).1.equation_problem (hequation q rfl).2

/-- Blanks, a power and a product that is not spelled, on both sides of an equation. -/
theorem read_text_of_problem_spaced_equation :
    ∃ q : Equation Float, Problem.read "x^2 = 5 x" = .ok (.equation q) ∧
      q.text = "x**2 = 5*x" ∧ Problem.read q.text = .ok (.equation q) := by
  obtain ⟨left, hleft⟩ : ∃ t : Tree Float,
      Derives .sum [.word ['x'], .operator .power, .number ['2']] t :=
    ⟨_, .ofTerm (.ofUnary (.ofPower (.power (.name (by decide)) (.ofPower (.ofAtom (.number _))))))⟩
  obtain ⟨right, hright⟩ : ∃ t : Tree Float,
      Derives .sum [.number ['5'], .operator .times, .word ['x']] t :=
    ⟨_, .ofTerm (.term (.inl rfl) (.ofUnary (.ofPower (.ofAtom (.number _))))
      (.ofPower (.ofAtom (.name (by decide)))))⟩
  have hread : readFragment "x^2 ".toList = .ok ⟨"x**2", left⟩ := by
    refine readFragment_of_derives (by decide) ?_ hleft
    simp only [List.forall_mem_cons]
    exact ⟨.word (by decide), .symbol (by decide), .number (by decide), nofun⟩
  have hread' : readFragment " 5 x".toList = .ok ⟨"5*x", right⟩ := by
    refine readFragment_of_derives (by decide) ?_ hright
    simp only [List.forall_mem_cons]
    exact ⟨.number (by decide), .symbol (by decide), .word (by decide), nofun⟩
  have hproblem : Problem.read "x^2 = 5 x" = .ok (.equation ⟨⟨"x**2", left⟩, ⟨"5*x", right⟩⟩) := by
    have htrim : Text.trim "x^2 = 5 x".toList = "x^2 = 5 x".toList := by decide
    have hequals : splitAtEquals 0 "x^2 = 5 x".toList = some ("x^2 ".toList, " 5 x".toList) := by
      decide
    rw [Problem.read, htrim, readTrimmed_of_not_integral (by decide) (by decide), hequals]
    simp only [hread, hread', ok_bind]
    rfl
  exact ⟨_, hproblem, rfl, (read_text_of_problem hproblem).2 _ rfl⟩

end SchoolMath.Latex
