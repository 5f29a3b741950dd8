import SchoolMath.Integral.Integrate
import SchoolMath.Proofs.Latex.Problem
import SchoolMath.Proofs.Polynomial.Compile

/-!
# `Latex.Integral` — the variable of an integral

An integral is scanned up to the first `d` behind its bounds. All of the text behind that `d` is
taken for the variable, except for blanks around it and one backslash before it; that something is
left is the only thing asked of it. So the variable is a name of the grammar exactly if nothing else
stands there (`NamesVariable`), and a sum behind the differential becomes part of the variable.

What is integrated catches some of these: the names of an integrand are names of the grammar, and
integrating fails at a name other than the variable. Only a constant integrand has an integral with
respect to a text that is no name.
-/

namespace SchoolMath.Latex

open Arithmetic

/-! ## The parts of an integral -/

section Parts

variable {K : Type} {body : List Char} {parts : IntegralParts}

/-- The bounds at the front of the text behind `\int`, and the text behind them. -/
def splitBounds (body : List Char) :
    Except (Failure K) ((Option (List Char) × Option (List Char)) × List Char) := do
  let (lower, rest) ← markedBound '_' (Text.trimStart body)
  let (upper, rest) ← match lower with
    | some _ => markedBound '^' rest
    | none => .ok (none, rest)
  let (upper, rest) ← match upper with
    | some _ => .ok (upper, rest)
    | none => markedBound '^' (Text.trimStart rest)
  return ((lower, upper), Text.trimStart rest)

/-- The integrand and the variable on both sides of the first `d` behind the bounds. -/
def splitDifferential (body : List Char) (bounds : Option (List Char) × Option (List Char))
    (rest : List Char) : Except (Failure K) IntegralParts :=
  match rest.dropWhile (· != 'd') with
  | [] => .error (.missingDifferential (String.ofList body))
  | _ :: differential =>
    match differentialName differential with
    | [] => .error (.missingVariable (String.ofList body))
    | unknown => .ok ⟨rest.takeWhile (· != 'd'), unknown, bounds.1, bounds.2⟩

/-- The bounds come first, then the differential. -/
theorem splitIntegral_eq (body : List Char) : splitIntegral (K := K) body =
    splitBounds body >>= fun split => splitDifferential body split.1 split.2 := by
  unfold splitIntegral splitBounds
  -- an upper bound is looked for directly behind a lower one, and behind blanks if there is none
  cases hlower : markedBound (K := K) '_' (Text.trimStart body) with
  | error failure => rfl
  | ok split =>
    obtain ⟨lower, rest⟩ := split
    cases lower with
    | none =>
      simp only [ok_bind]
      cases markedBound (K := K) '^' (Text.trimStart rest) <;> rfl
    | some lower =>
      simp only [ok_bind]
      cases hupper : markedBound (K := K) '^' rest with
      | error failure => rfl
      | ok split =>
        obtain ⟨upper, rest'⟩ := split
        cases upper with
        | none =>
          simp only [ok_bind]
          cases markedBound (K := K) '^' (Text.trimStart rest') <;> rfl
        | some upper => rfl

/-- Whether or not there is a lower bound, the upper one is looked for behind blanks. -/
theorem splitBounds_eq (body : List Char) : splitBounds (K := K) body = do
    let (lower, rest) ← markedBound '_' (Text.trimStart body)
    let (upper, rest) ← markedBound '^' (Text.trimStart rest)
    return ((lower, upper), Text.trimStart rest) := by
  unfold splitBounds
  cases markedBound (K := K) '_' (Text.trimStart body) with
  | error failure => rfl
  | ok split =>
    obtain ⟨lower, rest⟩ := split
    cases lower with
    | none =>
      simp only [ok_bind]
    | some lower =>
      simp only [ok_bind]
      by_cases hmark : rest.head? = some '^'
      · -- no blanks stand before the mark
        obtain ⟨cs, rfl⟩ := List.head?_eq_some_iff.1 hmark
        have hstart : Text.trimStart ('^' :: cs) = '^' :: cs :=
          Text.trimStart_append_cons [] cs (by decide)
        rw [hstart]
        simp only [markedBound, if_true]
        cases splitBound? cs <;> rfl
      · have hnone : markedBound (K := K) '^' rest = .ok (none, rest) := by
          cases rest with
          | nil => rfl
          | cons c cs => exact if_neg fun hc => hmark (congrArg some hc)
        simp only [hnone, ok_bind]

/-- The differential stands behind the integrand, and all of the text behind it is the variable. -/
theorem splitDifferential_eq_ok {bounds : Option (List Char) × Option (List Char)}
    {rest : List Char} (h : splitDifferential (K := K) body bounds rest = .ok parts) :
    ∃ tail, rest = parts.integrand ++ 'd' :: tail ∧ 'd' ∉ parts.integrand ∧
      parts.unknown = differentialName tail ∧ parts.unknown ≠ [] := by
  have hsplit := (List.takeWhile_append_dropWhile (p := (· != 'd')) (l := rest)).symm
  unfold splitDifferential at h
  cases hdrop : rest.dropWhile (· != 'd') with
  | nil => simp [hdrop] at h
  | cons c tail =>
    have hc : c = 'd' := by
      have hhead := List.head?_dropWhile_not (· != 'd') rest
      simpa [hdrop] using hhead
    cases hname : differentialName tail with
    | nil => simp [hdrop, hname] at h
    | cons c' cs =>
      simp only [hdrop, hname] at h
      obtain rfl := Except.ok.inj h
      rw [hdrop, hc] at hsplit
      refine ⟨tail, hsplit, fun hmem => ?_, hname.symm, nofun⟩
      simpa using List.mem_takeWhile_imp hmem

/-- The bounds become parts of the integral as they are. -/
theorem bounds_of_splitDifferential {bounds : Option (List Char) × Option (List Char)}
    {rest : List Char} (h : splitDifferential (K := K) body bounds rest = .ok parts) :
    (parts.lower, parts.upper) = bounds := by
  unfold splitDifferential at h
  split at h
  · cases h
  · split at h
    · cases h
    · obtain rfl := Except.ok.inj h
      rfl

/-- An integrand, a differential and a name are the parts of an integral. -/
theorem splitDifferential_append {bounds : Option (List Char) × Option (List Char)}
    {integrand tail : List Char} (hd : 'd' ∉ integrand) (hname : differentialName tail ≠ []) :
    splitDifferential (K := K) body bounds (integrand ++ 'd' :: tail) =
      .ok ⟨integrand, differentialName tail, bounds.1, bounds.2⟩ := by
  obtain ⟨htake, hdrop⟩ := takeWhile_append (p := (· != 'd')) (w := integrand) ('d' :: tail)
    (fun c hc => by simpa using ne_of_mem_of_not_mem hc hd) (by simp)
  rw [splitDifferential, htake, hdrop]
  cases h : differentialName tail with
  | nil => exact absurd h hname
  | cons => simp only [h]

end Parts

/-! ## The name behind a differential -/

/-- Nothing but the variable `word` stands behind the differential: blanks, perhaps a backslash and
more blanks, the word, and blanks. -/
def NamesVariable (tail word : List Char) : Prop :=
  ∃ before after, (∀ c ∈ before, Text.isBlank c = true) ∧ (∀ c ∈ after, Text.isBlank c = true) ∧
    (tail = before ++ (word ++ after) ∨ ∃ between, (∀ c ∈ between, Text.isBlank c = true) ∧
      tail = before ++ ('\\' :: (between ++ word) ++ after))

variable {tail word : List Char}

/-- Up to blanks and a backslash, what is taken for the variable is all that stands behind the
differential. -/
theorem namesVariable_differentialName (tail : List Char) :
    NamesVariable tail (differentialName tail) := by
  obtain ⟨before, after, htail, hbefore, hafter⟩ := Text.exists_trim tail
  unfold differentialName
  split
  · next name hname =>
    obtain ⟨between, after', hbetween, hblank, hafter'⟩ := Text.exists_trim name
    refine ⟨before, after' ++ after, hbefore, List.forall_mem_append.2 ⟨hafter', hafter⟩,
      .inr ⟨between, hblank, ?_⟩⟩
    rw [htail, hname]
    nth_rewrite 1 [hbetween]
    simp
  · exact ⟨before, after, hbefore, hafter, .inl htail⟩

/-- No character of a word is blank. -/
theorem isBlank_of_isWord (hword : IsWord word) : ∀ c ∈ word, Text.isBlank c = false :=
  fun c hc => isBlank_of_isNameChar (hword.chars c hc)

/-- A name behind a differential is the variable. -/
theorem NamesVariable.differentialName_eq (h : NamesVariable tail word) (hword : IsWord word) :
    differentialName tail = word := by
  have hblank := isBlank_of_isWord hword
  have hlast : ∀ c ∈ word.getLast?, Text.isBlank c = false :=
    fun c hc => hblank c (List.mem_of_getLast? hc)
  obtain ⟨c, cs, rfl⟩ := List.exists_cons_of_ne_nil hword.ne_nil
  have hfirst : Text.isBlank c = false := hblank c List.mem_cons_self
  obtain ⟨before, after, hbefore, hafter, rfl | ⟨between, hbetween, rfl⟩⟩ := h
  · rw [differentialName, Text.trim_blanks_append hbefore hafter ⟨c, rfl, hfirst⟩ hlast]
    split
    · next name heq =>
      -- a word does not start with a backslash
      obtain ⟨rfl, -⟩ := List.cons.inj heq
      exact absurd hword.isNameStart (by decide)
    · rfl
  · -- a command is trimmed twice, the second time behind its backslash
    have hname : Text.trim (between ++ c :: cs) = c :: cs := by
      have hnone : ∀ d ∈ ([] : List Char), Text.isBlank d = true := nofun
      have htrim := Text.trim_blanks_append hbetween hnone ⟨c, rfl, hfirst⟩ hlast
      rwa [List.append_nil] at htrim
    have hcommand : ∀ d ∈ ('\\' :: (between ++ c :: cs)).getLast?, Text.isBlank d = false := by
      intro d hd
      refine hlast d ?_
      simpa [List.getLast?_cons, List.getLast?_append] using hd
    rw [differentialName, Text.trim_blanks_append hbefore hafter ⟨_, rfl, by decide⟩ hcommand]
    exact hname

/-- The variable is a name of the grammar exactly if nothing but a name stands behind the
differential. -/
theorem isIdentifier_differentialName_iff :
    IsIdentifier (differentialName tail) ↔ ∃ word, IsIdentifier word ∧ NamesVariable tail word := by
  constructor
  · exact fun h => ⟨_, h, namesVariable_differentialName tail⟩
  · rintro ⟨word, hword, hnames⟩
    rwa [hnames.differentialName_eq hword.1]

/-- What stands behind a differential is neither lost nor added to, but for blanks and a backslash.
-/
theorem count_differentialName {c : Char} (hblank : Text.isBlank c = false) (hc : c ≠ '\\')
    (tail : List Char) : (differentialName tail).count c = tail.count c := by
  have hnone : ∀ blanks : List Char, (∀ d ∈ blanks, Text.isBlank d = true) →
      blanks.count c = 0 := by
    intro blanks hblanks
    refine List.count_eq_zero.2 fun hmem => ?_
    rw [hblanks c hmem] at hblank
    cases hblank
  obtain ⟨before, after, hbefore, hafter, htail | ⟨between, hbetween, htail⟩⟩ :=
    namesVariable_differentialName tail
  · conv_rhs => rw [htail]
    simp [hnone before hbefore, hnone after hafter]
  · conv_rhs => rw [htail]
    simp [hnone before hbefore, hnone after hafter, hnone between hbetween, hc.symm]

/-! ## The integral that a text states -/

section Integral

variable {K : Type} [Numeral K] {latex : String} {integral : IntegralExpression K}

/-- `tail` is the text behind the differential of the integral that a text states. -/
def BehindDifferential (K : Type) (latex : String) (tail : List Char) : Prop :=
  ∃ body bounds rest integrand, Text.trim latex.toList = integralMark ++ body ∧
    splitBounds (K := K) body = .ok (bounds, rest) ∧ rest = integrand ++ 'd' :: tail ∧
    'd' ∉ integrand

/-- A text that states an integral is the mark of integrals and the parts of the integral. -/
theorem read_eq_integral_iff : Problem.read latex = .ok (.integral integral) ↔
    ∃ body parts, Text.trim latex.toList = integralMark ++ body ∧
      splitIntegral (K := K) body = .ok parts ∧ parts.read = .ok integral := by
  unfold Problem.read readTrimmed
  constructor
  · intro h
    split at h
    · cases h
    · split at h
      · next hmark =>
        obtain ⟨body, hbody⟩ := List.isPrefixOf_iff_prefix.1 hmark
        obtain ⟨parts, hparts, h⟩ := bind_eq_ok.1 h
        obtain ⟨integral', hread, heq⟩ := bind_eq_ok.1 h
        obtain rfl := Problem.integral.inj (Except.ok.inj heq)
        have hdrop : (Text.trim latex.toList).drop integralMark.length = body := by
          rw [← hbody, List.drop_left]
        rw [hdrop] at hparts
        exact ⟨body, parts, hbody.symm, hparts, hread⟩
      · split at h
        · simp only [bind_eq_ok] at h
          obtain ⟨left, -, right, -, heq⟩ := h
          cases heq
        · obtain ⟨expression, -, heq⟩ := bind_eq_ok.1 h
          cases heq
  · rintro ⟨body, parts, hbody, hparts, hread⟩
    have hmark : integralMark.isPrefixOf (integralMark ++ body) = true :=
      List.isPrefixOf_iff_prefix.2 (List.prefix_append _ _)
    have hempty : (integralMark ++ body).isEmpty = false := rfl
    simp only [hbody, hempty, hmark, List.drop_left, hparts, ok_bind, hread]
    rfl

/-- The parts of an integral are read one by one, but for the variable, which is taken as it is. -/
theorem of_read_parts {parts : IntegralParts} (h : parts.read = .ok integral) :
    readFragment parts.integrand = .ok integral.integrand ∧
      integral.unknown = String.ofList parts.unknown := by
  simp only [IntegralParts.read, bind_eq_ok] at h
  obtain ⟨integrand, hintegrand, lower, -, upper, -, heq⟩ := h
  obtain rfl := Except.ok.inj heq
  exact ⟨hintegrand, rfl⟩

/-- A bound of one character at least is read as a fragment. -/
theorem readBound_of_ne_nil {bound : List Char} (h : bound ≠ []) :
    readBound (K := K) (some bound) = do return some (← readFragment bound) := by
  cases bound with
  | nil => exact absurd rfl h
  | cons => rfl

/-- Without bounds only the integrand is read. -/
theorem read_parts_indefinite {integrand unknown : List Char} {e : Expression K}
    (h : readFragment integrand = .ok e) :
    IntegralParts.read ⟨integrand, unknown, none, none⟩ =
      .ok ⟨e, String.ofList unknown, none, none⟩ := by
  simp only [IntegralParts.read, h]
  rfl

/-- The integral with these bounds that the text behind them states. -/
def readIntegrand (body : List Char) (bounds : Option (List Char) × Option (List Char))
    (rest : List Char) : Except (Failure K) (IntegralExpression K) :=
  splitDifferential body bounds rest >>= IntegralParts.read

/-- The integral is what is read from the bounds, from an integrand and from what stands behind the
differential. -/
structure IsReading (bounds : Option (List Char) × Option (List Char)) (integrand tail : List Char)
    (integral : IntegralExpression K) : Prop where
  integrand : readFragment integrand = .ok integral.integrand
  lower : readBound bounds.1 = .ok integral.lower
  upper : readBound bounds.2 = .ok integral.upper
  named : differentialName tail ≠ []
  unknown : integral.unknown = String.ofList (differentialName tail)

/-- An integral is read on both sides of the first `d`. -/
theorem readIntegrand_eq_ok_iff {body rest : List Char}
    {bounds : Option (List Char) × Option (List Char)} :
    readIntegrand body bounds rest = .ok integral ↔
      ∃ integrand tail, rest = integrand ++ 'd' :: tail ∧ 'd' ∉ integrand ∧
        IsReading bounds integrand tail integral := by
  constructor
  · intro h
    obtain ⟨parts, hparts, hread⟩ := bind_eq_ok.1 h
    obtain ⟨tail, hrest, hd, hname, hne⟩ := splitDifferential_eq_ok hparts
    obtain rfl := bounds_of_splitDifferential hparts
    simp only [IntegralParts.read, bind_eq_ok] at hread
    obtain ⟨integrand, hintegrand, lower, hlower, upper, hupper, heq⟩ := hread
    obtain rfl := Except.ok.inj heq
    exact ⟨parts.integrand, tail, hrest, hd, hintegrand, hlower, hupper, hname ▸ hne,
      congrArg String.ofList hname⟩
  · rintro ⟨integrand, tail, rfl, hd, h⟩
    refine bind_eq_ok.2 ⟨_, splitDifferential_append hd h.named, ?_⟩
    simp only [IntegralParts.read, h.integrand, h.lower, h.upper, ok_bind, ← h.unknown]
    rfl

/-- The integral that the text behind `\int` states. -/
def readIntegral (body : List Char) : Except (Failure K) (IntegralExpression K) :=
  splitBounds body >>= fun split => readIntegrand body split.1 split.2

/-- A text that starts with `\int` states an integral or nothing. -/
theorem readTrimmed_integral (body : List Char) :
    readTrimmed (K := K) (integralMark ++ body) = (readIntegral body).map .integral := by
  have hmark : integralMark.isPrefixOf (integralMark ++ body) = true :=
    List.isPrefixOf_iff_prefix.2 (List.prefix_append _ _)
  have hempty : (integralMark ++ body).isEmpty = false := rfl
  simp only [readTrimmed, hempty, hmark, List.drop_left, splitIntegral_eq, readIntegral,
    readIntegrand]
  cases splitBounds (K := K) body with
  | error failure => rfl
  | ok split =>
    simp only [ok_bind]
    cases splitDifferential (K := K) body split.1 split.2 with
    | error failure => rfl
    | ok parts =>
      simp only [ok_bind]
      cases parts.read (K := K) <;> rfl

/-- A text has one first `d`. -/
theorem eq_of_first_differential {i j t u : List Char} (hi : 'd' ∉ i) (hj : 'd' ∉ j)
    (h : i ++ 'd' :: t = j ++ 'd' :: u) : i = j ∧ t = u := by
  have hstop : ∀ t : List Char, ∀ c ∈ ('d' :: t).head?, (c != 'd') = false := by simp
  have hrun : ∀ w : List Char, 'd' ∉ w → ∀ c ∈ w, (c != 'd') = true :=
    fun w hw c hc => by simpa using ne_of_mem_of_not_mem hc hw
  obtain ⟨htake, hdrop⟩ := takeWhile_append ('d' :: t) (hrun i hi) (hstop t)
  obtain ⟨htake', hdrop'⟩ := takeWhile_append ('d' :: u) (hrun j hj) (hstop u)
  rw [h, htake'] at htake
  rw [h, hdrop'] at hdrop
  exact ⟨htake.symm, (List.cons.inj hdrop).2.symm⟩

/-- What is read where the first `d` is known. -/
theorem readIntegrand_append_eq_ok_iff {body integrand tail : List Char}
    {bounds : Option (List Char) × Option (List Char)} (hd : 'd' ∉ integrand) :
    readIntegrand body bounds (integrand ++ 'd' :: tail) = .ok integral ↔
      IsReading bounds integrand tail integral := by
  rw [readIntegrand_eq_ok_iff]
  constructor
  · rintro ⟨integrand', tail', heq, hd', h⟩
    obtain ⟨rfl, rfl⟩ := eq_of_first_differential hd hd' heq
    exact h
  · exact fun h => ⟨integrand, tail, rfl, hd, h⟩

/-- Bounds that are read alike give the same integral. -/
theorem readIntegrand_congr {body body' rest : List Char}
    {bounds bounds' : Option (List Char) × Option (List Char)}
    (hlower : readBound (K := K) bounds'.1 = readBound bounds.1)
    (hupper : readBound (K := K) bounds'.2 = readBound bounds.2) :
    readIntegrand body bounds rest = .ok integral ↔
      readIntegrand body' bounds' rest = .ok integral := by
  have hreading : ∀ integrand tail, IsReading bounds integrand tail integral ↔
      IsReading bounds' integrand tail integral := by
    intro integrand tail
    constructor
    · exact fun h => ⟨h.integrand, hlower.trans h.lower, hupper.trans h.upper, h.named, h.unknown⟩
    · exact fun h =>
        ⟨h.integrand, hlower.symm.trans h.lower, hupper.symm.trans h.upper, h.named, h.unknown⟩
  simp only [readIntegrand_eq_ok_iff, hreading]

/-- The names of an expression that is read are names of the grammar. -/
theorem isIdentifier_of_read {text : String} {e : Expression K} (h : Expression.read text = .ok e) :
    ∀ name ∈ e.tree.names, IsIdentifier name.toList := by
  obtain ⟨-, ts, hlex, hderives⟩ := read_eq_ok_iff.1 h
  intro name hname
  obtain ⟨hmem, hkeyword⟩ := names_of_derives hderives name hname
  exact ⟨(Token.spells_word.1 (hlex.spells _ hmem)).2, hkeyword⟩

variable [Zero K] [One K] [Add K] [Sub K] [Mul K] [Div K] [Neg K] [NatCast K] [BEq K] [Pow K Nat]
  [Pow K K] [Whole K] [Finiteness K]

omit [Numeral K] in
/-- With a variable in the integrand, integrating succeeds only with respect to that variable. -/
theorem names_of_integrate {result : Integrated K} (h : integral.integrate = .ok result) :
    ∀ name ∈ integral.integrand.tree.names, name = integral.unknown := by
  obtain ⟨p, hp, -⟩ := bind_eq_ok.1 h
  exact Polynomial.names_of_ofTree hp

/-- The variable of an integral is all of the text behind the differential, without the blanks
around it and one backslash. It is a name of the grammar exactly if nothing but a name stands there;
if the integrand has variables, integrating succeeds only in this case. -/
theorem isIdentifier_unknown_iff (h : Problem.read latex = .ok (.integral integral)) :
    ∃ tail, BehindDifferential K latex tail ∧ differentialName tail ≠ [] ∧
      integral.unknown = String.ofList (differentialName tail) ∧
      (IsIdentifier integral.unknown.toList ↔
        ∃ word, IsIdentifier word ∧ NamesVariable tail word) ∧
      ∀ result, integral.integrate = .ok result → integral.integrand.tree.names ≠ [] →
        IsIdentifier integral.unknown.toList := by
  obtain ⟨body, parts, hbody, hparts, hread⟩ := read_eq_integral_iff.1 h
  rw [splitIntegral_eq, bind_eq_ok] at hparts
  obtain ⟨⟨bounds, rest⟩, hbounds, hparts⟩ := hparts
  obtain ⟨tail, hrest, hfirst, hname, hne⟩ := splitDifferential_eq_ok hparts
  obtain ⟨hintegrand, hunknown⟩ := of_read_parts hread
  rw [hname] at hne hunknown
  refine ⟨tail, ⟨body, bounds, rest, parts.integrand, hbody, hbounds, hrest, hfirst⟩, hne,
    hunknown, ?_, ?_⟩
  · rw [hunknown, String.toList_ofList]
    exact isIdentifier_differentialName_iff
  · intro result hresult hnames
    obtain ⟨name, hname⟩ := List.exists_mem_of_ne_nil _ hnames
    rw [← names_of_integrate hresult name hname]
    exact isIdentifier_of_read hintegrand name hname

end Integral

/-- A variable behind a backslash, with blanks. -/
theorem isIdentifier_unknown_iff_command :
    ∃ integral : IntegralExpression Float,
      Problem.read "\\int x\\, d \\x " = .ok (.integral integral) ∧ integral.unknown = "x" ∧
        IsIdentifier integral.unknown.toList := by
  have hread : Expression.read (K := Float) "x" = .ok ⟨"x", .var "x"⟩ := by
    refine read_eq_ok_iff.2 ⟨rfl, [.word ['x']], ?_, ?_⟩
    · exact .token (readsOff_iff.2 ⟨['x'], .word (by decide), rfl, nofun⟩) .done
    · exact .ofTerm (.ofUnary (.ofPower (.ofAtom (.name (by decide)))))
  have hproblem : Problem.read (K := Float) "\\int x\\, d \\x " =
      .ok (.integral ⟨⟨"x", .var "x"⟩, "x", none, none⟩) := by
    refine read_eq_integral_iff.2 ⟨" x\\, d \\x".toList, ⟨"x\\, ".toList, ['x'], none, none⟩,
      by decide, rfl, read_parts_indefinite ?_⟩
    have hfragment : canonicalChars "x\\, ".toList = ['x'] := by decide
    rw [readFragment, hfragment]
    exact hread
  obtain ⟨-, -, -, -, -, hidentifier⟩ := isIdentifier_unknown_iff hproblem
  exact ⟨_, hproblem, rfl, hidentifier _ rfl (by decide)⟩

/-- What stands behind the variable becomes part of it, and the constant is integrated. -/
theorem integral_with_trailing_sum :
    ∃ integral : IntegralExpression Float,
      Problem.read "\\int 3 dx + 1" = .ok (.integral integral) ∧ integral.unknown = "x + 1" ∧
        ¬ IsIdentifier integral.unknown.toList ∧
        ∃ result, integral.integrate = .ok result ∧
          result.steps = [.integral "3" "x + 1", .integrated "x + 1" result.antiderivative] := by
  have hread : Expression.read (K := Float) "3" = .ok ⟨"3", .const (Numeral.read "3")⟩ := by
    refine read_eq_ok_iff.2 ⟨rfl, [.number ['3']], ?_, ?_⟩
    · exact .token (readsOff_iff.2 ⟨['3'], .number (by decide), rfl, nofun⟩) .done
    · exact .ofTerm (.ofUnary (.ofPower (.ofAtom (.number ['3']))))
  refine ⟨⟨⟨"3", .const (Numeral.read "3")⟩, "x + 1", none, none⟩, ?_, rfl, by decide, _, rfl, rfl⟩
  refine read_eq_integral_iff.2 ⟨" 3 dx + 1".toList, ⟨['3', ' '], "x + 1".toList, none, none⟩,
    by decide, rfl, read_parts_indefinite ?_⟩
  have hfragment : canonicalChars ['3', ' '] = ['3'] := by decide
  rw [readFragment, hfragment]
  exact hread

end SchoolMath.Latex
