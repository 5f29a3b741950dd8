import SchoolMath.Proofs.Latex.Bound
import SchoolMath.Proofs.Latex.Integral

/-!
# `Latex.Notation` — the notation of a definite integral

A definite integral is written with its bounds behind `_` and `^`, its integrand and its differential.
A bound stands in brackets in which it is balanced, or bare if it is one character (`WritesBound`). The
scanner for a bound counts brackets of the kind it starts with, so in front of the bracket that closes
a balanced bound its depth is zero for the first time (`splitAtClosing_append`), and it finds the bound
as it was written, whatever follows (`splitBound?_append`).

The pieces are then read where they stand. The blank in front of the differential stays with the
integrand, and makes no difference to its canonical text. The main statement, `read_integral`, does not
mention the brackets: which of them are used has no effect.
-/

namespace SchoolMath.Latex

open Arithmetic

/-! ## Bounds in brackets -/

section Bounds

variable {opening closing : Char} {text bound : List Char}

/-- Brackets of one kind, each of which is closed in the text; brackets of other kinds do not count. -/
structure IsBalanced (opening closing : Char) (text : List Char) : Prop where
  sane : ∀ front, front <+: text → front.count closing ≤ front.count opening
  settled : text.count opening = text.count closing

instance (opening closing : Char) (text : List Char) : Decidable (IsBalanced opening closing text) :=
  decidable_of_iff ((∀ front ∈ text.inits, front.count closing ≤ front.count opening) ∧
      text.count opening = text.count closing) <| by
    simp only [List.mem_inits]
    exact ⟨fun ⟨hsane, hsettled⟩ => ⟨hsane, hsettled⟩, fun h => ⟨h.sane, h.settled⟩⟩

/-- The kinds of brackets that a bound may stand in. -/
def bracketKinds : List (Char × Char) := [('(', ')'), ('\x7b', '\x7d'), ('[', ']')]

/-- The ways to write a bound: in brackets of any kind in which it is balanced, or bare if it is one
character that is no opening bracket. -/
inductive WritesBound : (bound text : List Char) → Prop
  | bracketed {opening closing : Char} {bound : List Char} :
      (opening, closing) ∈ bracketKinds → IsBalanced opening closing bound →
      WritesBound bound (opening :: (bound ++ [closing]))
  | bare {c : Char} : (∀ kind ∈ bracketKinds, c ≠ kind.1) → WritesBound [c] [c]

/-- Brackets of a kind close each other and differ. -/
theorem closingBracket?_of_mem (h : (opening, closing) ∈ bracketKinds) :
    closingBracket? opening = some closing ∧ closing ≠ opening := by
  have key : ∀ kind ∈ bracketKinds, closingBracket? kind.1 = some kind.2 ∧ kind.2 ≠ kind.1 := by
    decide
  exact key _ h

/-- Every other character closes with nothing. -/
theorem closingBracket?_eq_none {c : Char} (h : ∀ kind ∈ bracketKinds, c ≠ kind.1) :
    closingBracket? c = none := by
  simp only [bracketKinds, List.forall_mem_cons] at h
  obtain ⟨hround, hbrace, hsquare, -⟩ := h
  unfold closingBracket?
  split <;> first | contradiction | rfl

/-- The bracket that closes the ones open in a text is the first at which the depth is zero. -/
theorem splitAtClosing_append (hne : closing ≠ opening) {depth : Nat} (rest : List Char)
    (hsane : ∀ front, front <+: text → front.count closing ≤ depth + front.count opening)
    (hsettled : depth + text.count opening = text.count closing) :
    splitAtClosing opening closing depth (text ++ closing :: rest) = some (text, rest) := by
  induction text generalizing depth with
  | nil =>
    obtain rfl : depth = 0 := by simpa using hsettled
    simp [splitAtClosing, hne]
  | cons c cs ih =>
    have hfront : ∀ front, front <+: cs →
        (c :: front).count closing ≤ depth + (c :: front).count opening :=
      fun front hfront => hsane _ (List.cons_prefix_cons.2 ⟨rfl, hfront⟩)
    by_cases hopening : c = opening
    · subst hopening
      simp only [List.count_cons_self, List.count_cons_of_ne hne.symm] at hfront hsettled
      have hrest : splitAtClosing c closing (depth + 1) (cs ++ closing :: rest) =
          some (cs, rest) := by
        apply ih
        · intro front hprefix
          have hcount := hfront front hprefix
          omega
        · omega
      cases depth <;> simp [splitAtClosing, hrest]
    · by_cases hclosing : c = closing
      · subst hclosing
        simp only [List.count_cons_self, List.count_cons_of_ne hne] at hfront hsettled
        -- a bracket that is closed was open
        have hopen : depth ≠ 0 := by
          have hcount := hfront [] List.nil_prefix
          rw [List.count_nil, List.count_nil] at hcount
          omega
        obtain ⟨depth, rfl⟩ := Nat.exists_eq_succ_of_ne_zero hopen
        have hrest : splitAtClosing opening c depth (cs ++ c :: rest) = some (cs, rest) := by
          apply ih
          · intro front hprefix
            have hcount := hfront front hprefix
            omega
          · omega
        simp [splitAtClosing, hopening, hrest]
      · simp only [List.count_cons_of_ne hopening, List.count_cons_of_ne hclosing]
          at hfront hsettled
        rw [List.cons_append, passes_splitAtClosing hopening hclosing, ih hfront hsettled]
        rfl

/-- A bound is found as it was written, whatever follows. -/
theorem splitBound?_append (h : WritesBound bound text) (rest : List Char) :
    splitBound? (text ++ rest) = some (bound, rest) := by
  cases h with
  | @bracketed opening closing _ hkind hbalanced =>
    obtain ⟨hcloses, hne⟩ := closingBracket?_of_mem hkind
    have hsplit : splitAtClosing opening closing 0 (bound ++ closing :: rest) =
        some (bound, rest) := by
      apply splitAtClosing_append hne
      · intro front hfront
        simpa using hbalanced.sane front hfront
      · simpa using hbalanced.settled
    simpa [splitBound?, hcloses] using hsplit
  | bare hkind => simp [splitBound?, closingBracket?_eq_none hkind]

end Bounds

/-! ## The parts of a definite integral -/

section Reading

variable {K : Type} [Numeral K] {lower upper lowerText upperText integrand unknown : List Char}

omit [Numeral K] in
/-- A bound behind its mark is found, and so is the text behind it. -/
theorem markedBound_append (mark : Char) {bound text : List Char} (h : WritesBound bound text)
    (hmark : Text.isBlank mark = false) (rest : List Char) :
    markedBound (K := K) mark (Text.trimStart (mark :: (text ++ rest))) = .ok (some bound, rest) := by
  have hstart : Text.trimStart (mark :: (text ++ rest)) = mark :: (text ++ rest) :=
    Text.trimStart_append_cons [] _ hmark
  rw [hstart]
  simp only [markedBound, if_true, splitBound?_append h rest]

omit [Numeral K] in
/-- Both bounds are found. -/
theorem splitBounds_append (hlower : WritesBound lower lowerText)
    (hupper : WritesBound upper upperText) (rest : List Char) :
    splitBounds (K := K) ('_' :: (lowerText ++ '^' :: (upperText ++ rest))) =
      .ok ((some lower, some upper), Text.trimStart rest) := by
  have hfirst := markedBound_append (K := K) '_' hlower (by decide) ('^' :: (upperText ++ rest))
  have hsecond := markedBound_append (K := K) '^' hupper (by decide) rest
  simp only [splitBounds_eq, hfirst, hsecond, ok_bind]
  rfl

/-- Blanks in front of the first `d` behind the bounds make no difference to the integrand. -/
theorem readFragment_trimStart (integrand : List Char) :
    readFragment (K := K) (Text.trimStart (' ' :: (integrand ++ [' ']))) =
      readFragment integrand := by
  have hspace : ∀ c ∈ [' '], Text.isBlank c = true := by
    intro c hc
    obtain rfl := List.mem_singleton.1 hc
    decide
  have hspaced := canonicalChars_blanks_append integrand hspace hspace
  rw [List.singleton_append] at hspaced
  rw [readFragment, canonicalChars_trimStart, hspaced, readFragment]

/-- What is read has characters. -/
theorem ne_nil_of_readFragment {fragment : List Char} {e : Expression K}
    (h : readFragment fragment = .ok e) : fragment ≠ [] := by
  rintro rfl
  obtain ⟨-, ts, hlex, hderives⟩ := read_eq_ok_iff.1 h
  obtain ⟨t, ts, rfl⟩ := List.exists_cons_of_ne_nil (ne_nil_of_derives hderives)
  obtain ⟨mid, hfirst, -⟩ := Lexes.cons_iff.1 hlex
  obtain ⟨w, hw, hnil, -⟩ := readsOff_iff.1 hfirst
  exact hw.ne_nil (List.append_eq_nil_iff.1 hnil.symm).1

/-- What is read as a fragment is read as a bound. -/
theorem readBound_of_readFragment {bound : List Char} {e : Expression K}
    (h : readFragment bound = .ok e) : readBound (some bound) = .ok (some e) := by
  rw [readBound_of_ne_nil (ne_nil_of_readFragment h), h]
  rfl

/-- Behind `\int`, a definite integral is read from its parts. -/
theorem readIntegral_append {l u s : Expression K} (hlower : WritesBound lower lowerText)
    (hupper : WritesBound upper upperText) (hl : readFragment lower = .ok l)
    (hu : readFragment upper = .ok u) (hs : readFragment integrand = .ok s) (hd : 'd' ∉ integrand)
    (hunknown : IsWord unknown) :
    readIntegral ('_' :: (lowerText ++ '^' :: (upperText ++ ' ' ::
        (integrand ++ ' ' :: 'd' :: unknown)))) =
      .ok ⟨s, String.ofList unknown, some l, some u⟩ := by
  have hstart : Text.trimStart (' ' :: (integrand ++ ' ' :: 'd' :: unknown)) =
      Text.trimStart (' ' :: (integrand ++ [' '])) ++ 'd' :: unknown := by
    have hbehind := Text.trimStart_append_cons (c := 'd') (' ' :: (integrand ++ [' '])) unknown
      (by decide)
    simpa using hbehind
  have hfirst : 'd' ∉ Text.trimStart (' ' :: (integrand ++ [' '])) := by
    intro hmem
    have hmem := List.dropWhile_subset _ hmem
    simp [hd] at hmem
  have hname : differentialName unknown = unknown := by
    have hnames : NamesVariable unknown unknown := ⟨[], [], nofun, nofun, .inl (by simp)⟩
    exact hnames.differentialName_eq hunknown
  rw [readIntegral, splitBounds_append hlower hupper, ok_bind, hstart,
    readIntegrand_append_eq_ok_iff hfirst]
  refine ⟨?_, readBound_of_readFragment hl, readBound_of_readFragment hu, ?_, ?_⟩
  · rw [readFragment_trimStart, hs]
  · rw [hname]
    exact hunknown.ne_nil
  · rw [hname]

end Reading

/-! ## Definite integrals -/

variable {K : Type} [Numeral K]

/-- A definite integral, with each bound in any brackets in which it is balanced or bare, states the
integral of the expressions that its parts write. -/
theorem read_integral {lower upper lowerText upperText integrand unknown : String}
    {l u s : Expression K} (hlower : WritesBound lower.toList lowerText.toList)
    (hupper : WritesBound upper.toList upperText.toList)
    (hl : Expression.read (canonical lower) = .ok l)
    (hu : Expression.read (canonical upper) = .ok u)
    (hs : Expression.read (canonical integrand) = .ok s) (hd : 'd' ∉ integrand.toList)
    (hunknown : IsWord unknown.toList) :
    Problem.read ("\\int_" ++ lowerText ++ "^" ++ upperText ++ " " ++ integrand ++ " d" ++ unknown) =
      .ok (.integral ⟨s, unknown, some l, some u⟩) := by
  have htext : ("\\int_" ++ lowerText ++ "^" ++ upperText ++ " " ++ integrand ++ " d" ++
      unknown).toList = integralMark ++ '_' :: (lowerText.toList ++ '^' :: (upperText.toList ++
        ' ' :: (integrand.toList ++ ' ' :: 'd' :: unknown.toList))) := by
    simp [integralMark]
  have hlast : ∀ c ∈ ("\\int_" ++ lowerText ++ "^" ++ upperText ++ " " ++ integrand ++ " d" ++
      unknown).toList.getLast?, Text.isBlank c = false := by
    intro c hc
    rw [String.toList_append, List.getLast?_append_of_ne_nil _ hunknown.ne_nil] at hc
    exact isBlank_of_isWord hunknown c (List.mem_of_getLast? hc)
  have htrim := Text.trim_eq_self ⟨'\\', by rw [htext]; rfl, by decide⟩ hlast
  rw [Problem.read, htrim, htext, readTrimmed_integral,
    readIntegral_append hlower hupper hl hu hs hd hunknown, String.ofList_toList]
  rfl

/-- A bound with parentheses inside, in braces and in parentheses, and a bare bound and one in brackets.
The integral is the same. -/
theorem read_integral_nested :
    ∃ integral : IntegralExpression Float,
      Problem.read "\\int_\x7b-(1)\x7d^2 x^2 dx" = .ok (.integral integral) ∧
      Problem.read "\\int_(-(1))^[2] x^2 dx" = .ok (.integral integral) ∧
      integral.lower.map (·.text) = some "-(1)" ∧ integral.upper.map (·.text) = some "2" ∧
      integral.integrand.text = "x**2" ∧ integral.unknown = "x" := by
  obtain ⟨lower, hlower⟩ : ∃ t : Tree Float,
      Derives .sum [.operator .minus, .opening, .number ['1'], .closing] t :=
    ⟨_, .ofTerm (.ofUnary (.negative (.ofPower (.ofAtom (.group
      (.ofTerm (.ofUnary (.ofPower (.ofAtom (.number ['1']))))))))))⟩
  obtain ⟨upper, hupper⟩ : ∃ t : Tree Float, Derives .sum [.number ['2']] t :=
    ⟨_, .ofTerm (.ofUnary (.ofPower (.ofAtom (.number ['2']))))⟩
  obtain ⟨square, hsquare⟩ : ∃ t : Tree Float,
      Derives .sum [.word ['x'], .operator .power, .number ['2']] t :=
    ⟨_, .ofTerm (.ofUnary (.ofPower (.power (.name (by decide))
      (.ofPower (.ofAtom (.number ['2']))))))⟩
  have hl : readFragment "-(1)".toList = .ok ⟨"-(1)", lower⟩ := by
    refine readFragment_of_derives (by decide) ?_ hlower
    simp only [List.forall_mem_cons]
    exact ⟨.symbol (by decide), .symbol (by decide), .number (by decide), .symbol (by decide), nofun⟩
  have hu : readFragment "2".toList = .ok ⟨"2", upper⟩ := by
    refine readFragment_of_derives (by decide) ?_ hupper
    simp only [List.forall_mem_cons]
    exact ⟨.number (by decide), nofun⟩
  have hs : readFragment "x^2".toList = .ok ⟨"x**2", square⟩ := by
    refine readFragment_of_derives (by decide) ?_ hsquare
    simp only [List.forall_mem_cons]
    exact ⟨.word (by decide), .symbol (by decide), .number (by decide), nofun⟩
  have hbraced : WritesBound "-(1)".toList "\x7b-(1)\x7d".toList :=
    .bracketed (by decide) (by decide)
  have hround : WritesBound "-(1)".toList "(-(1))".toList :=
    .bracketed (by decide) (by decide)
  have hbare : WritesBound "2".toList "2".toList := .bare (by decide)
  have hsquared : WritesBound "2".toList "[2]".toList :=
    .bracketed (by decide) (by decide)
  have hx : IsWord "x".toList := by decide
  have hfirst := read_integral hbraced hbare hl hu hs (by decide) hx
  have hsecond := read_integral hround hsquared hl hu hs (by decide) hx
  simp only [String.reduceAppend] at hfirst hsecond
  exact ⟨_, hfirst, hsecond, rfl, rfl, rfl, rfl⟩

end SchoolMath.Latex
