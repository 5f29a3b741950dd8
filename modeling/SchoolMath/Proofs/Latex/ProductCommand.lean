import SchoolMath.Proofs.Latex.Bound
import SchoolMath.Proofs.Latex.Integral

/-!
# `Latex.ProductCommand` — spelling a product with a command

The canonical text is the same whether a product is spelled with `*` or with a command and a blank
behind it (`canonicalChars_command`). The scanners run on the text before it is canonicalised, so each
of them has to pass over the letters of the command. The scanners for brackets and for the sign of an
equation do. The scanner for the differential does not: it stops at the first `d`, and there is one in
`\cdot`; and behind the differential the letters of a command become part of the variable. The main
statement, `read_command_iff`, is that a text and the one with the command state the same problem but
in these two cases.
-/

namespace SchoolMath.Latex

open Arithmetic Surface

/-- The commands for a product. -/
inductive ProductCommand where
  | cdot | times
deriving DecidableEq, Repr

namespace ProductCommand

/-- The characters of a command. -/
def chars : ProductCommand → List Char
  | cdot => ['\\', 'c', 'd', 'o', 't']
  | times => ['\\', 't', 'i', 'm', 'e', 's']

/-- A command with the blank that ends it. -/
def text (command : ProductCommand) : String := String.ofList (command.chars ++ [' '])

end ProductCommand

variable {command : ProductCommand} {star spelled : List Char}

/-- The text `star` starts with a `*`, and `spelled` with the command in its place. The blank behind
the command is missing only at the end of the text, where it may have been trimmed. -/
def Respells (command : ProductCommand) (star spelled : List Char) : Prop :=
  ∃ rest, star = '*' :: rest ∧
    (spelled = command.chars ++ ' ' :: rest ∨ rest = [] ∧ spelled = command.chars)

/-! ## The canonical text -/

/-- No respelling has a `*`, and none has a blank. -/
theorem separates_respellings {c : Char} (hc : c = '*' ∨ c = ' ') :
    ∀ p ∈ respellings, p.1.toList ≠ [] ∧ c ∉ p.1.toList := by
  rcases hc with rfl | rfl <;> decide

/-- A word that starts with a backslash, as long as it is not replaced by something else than a `*`,
is replaced on its own. -/
theorem replaceEach_append_word {word : List Char} (text : List Char)
    (h : ∀ done ∈ respellings.inits,
      (Text.replaceEach done word).head? ∈ [some '\\', some '*']) :
    Text.replaceEach respellings (text ++ word) =
      Text.replaceEach respellings text ++ Text.replaceEach respellings word := by
  have key : ∀ p ∈ respellings, '\\' ∉ p.1.toList.tail ∧ '*' ∉ p.1.toList.tail := by decide
  refine Text.replaceEach_append fun done hdone c hc p hp => ?_
  have hhead := h done hdone
  rw [Option.mem_def.1 hc] at hhead
  simp only [List.mem_cons, Option.some.injEq, List.not_mem_nil, or_false] at hhead
  rcases hhead with rfl | rfl
  · exact (key p hp).1
  · exact (key p hp).2

/-- A command at the end of a text is replaced by a `*`. -/
theorem replaceEach_command (command : ProductCommand) (text : List Char) :
    Text.replaceEach respellings (text ++ command.chars) =
      Text.replaceEach respellings text ++ ['*'] := by
  have hcommand : Text.replaceEach respellings command.chars = ['*'] := by
    cases command <;> decide
  rw [replaceEach_append_word _ (by cases command <;> decide), hcommand]

/-- Behind the sign of a product blanks make no difference. -/
theorem spellProducts_star (k : Kind) (gap : Bool) (text rest : List Char) :
    spellProducts k gap (text ++ '*' :: ' ' :: rest) =
      spellProducts k gap (text ++ '*' :: rest) := by
  induction text generalizing k gap with
  | nil =>
    have hstar : Text.isBlank '*' = false := by decide
    have hspace : Text.isBlank ' ' = true := by decide
    have hgo : k.goesOnWith '*' = false := by cases k <;> decide
    have hproduct : k.endsOperand = true → startsOperand '*' = false := fun _ => by decide
    have hother : Kind.of '*' = .other := by decide
    rw [List.nil_append, List.nil_append, spellProducts_starts hstar hgo hproduct,
      spellProducts_starts hstar hgo hproduct, spellProducts_blank hspace, hother,
      spellProducts_other true false]
  | cons c cs ih => simp only [List.cons_append, spellProducts, ih]

/-- The canonical text does not tell a `*` from a command. -/
theorem canonicalChars_respelled (h : Respells command star spelled) (front : List Char) :
    canonicalChars (front ++ spelled) = canonicalChars (front ++ star) := by
  have hstar := separates_respellings (.inl rfl)
  have hspace := separates_respellings (.inr rfl)
  obtain ⟨rest, rfl, rfl | ⟨rfl, rfl⟩⟩ := h
  · unfold canonicalChars
    rw [← List.append_assoc, Text.replaceEach_append_cons _ _ hspace, replaceEach_command,
      Text.replaceEach_append_cons _ _ hstar, List.append_assoc, List.singleton_append,
      spellProducts_star]
  · unfold canonicalChars
    rw [replaceEach_command, Text.replaceEach_append_cons _ _ hstar]
    rfl

/-! ## Fragments that are read alike, and fragments that are not read -/

section Fragments

variable {K : Type} [Numeral K]

/-- A fragment with a command is read as the one with the `*`. -/
theorem readFragment_respelled (h : Respells command star spelled) (front : List Char) :
    readFragment (K := K) (front ++ spelled) = readFragment (front ++ star) := by
  rw [readFragment, readFragment, canonicalChars_respelled h]

/-- What is not blank and no power stays in the canonical text. -/
theorem mem_spellProducts {k : Kind} {gap : Bool} {text : List Char} {c : Char} (h : c ∈ text)
    (hblank : Text.isBlank c = false) (hpower : c ≠ '^') : c ∈ spellProducts k gap text := by
  induction text generalizing k gap with
  | nil => cases h
  | cons d ds ih =>
    unfold spellProducts
    rcases List.mem_cons.1 h with rfl | h
    · simp [hblank, hpower]
    · split
      · exact ih h
      · exact List.mem_append_right _ (ih h)

/-- A fragment that keeps a backslash is not read. -/
theorem readFragment_of_backslash {fragment : List Char} (h : '\\' ∈ canonicalChars fragment)
    (e : Expression K) : readFragment fragment ≠ .ok e := by
  intro hread
  obtain ⟨-, ts, hlex, -⟩ := read_eq_ok_iff.1 hread
  rw [String.toList_ofList] at hlex
  exact not_mem_of_lexes hlex (by decide) h

/-- A fragment that ends within a command is not read. -/
theorem readFragment_cut_command (front : List Char) (e : Expression K) :
    readFragment (front ++ ['\\', 'c']) ≠ .ok e := by
  have hword : Text.replaceEach respellings ['\\', 'c'] = ['\\', 'c'] := by decide
  refine readFragment_of_backslash ?_ e
  rw [canonicalChars, replaceEach_append_word _ (by decide), hword]
  exact mem_spellProducts (by simp) (by decide) (by decide)

/-- A product without factors is not read. -/
theorem readFragment_star (e : Expression K) : readFragment ['*'] ≠ .ok e := by
  intro hread
  have hcanonical : canonicalChars ['*'] = ['*'] := by decide
  obtain ⟨-, ts, hlex, hderives⟩ := read_eq_ok_iff.1 hread
  rw [String.toList_ofList, hcanonical] at hlex
  obtain ⟨t, ts, rfl⟩ := List.exists_cons_of_ne_nil (ne_nil_of_derives hderives)
  obtain ⟨mid, hfirst, -⟩ := Lexes.cons_iff.1 hlex
  have htimes : ReadsOff ['*'] (.operator .times) [] :=
    readsOff_iff.2 ⟨['*'], .symbol (by decide), rfl, nofun⟩
  obtain ⟨rfl, -⟩ := hfirst.unique htimes
  -- an operand does not start with the sign of a product
  exact absurd ((neat_of_derives hderives).starts _ rfl) (by decide)

end Fragments

/-! ## Scanners -/

/-- A scanner that passes over a `*` and over a command does not tell them apart: it finds nothing in
either text, or the same place in front of them, or the same place behind them. -/
theorem split_respelled {σ : Type} {split : σ → List Char → Option (List Char × List Char)} {s : σ}
    (h : Respells command star spelled) {front : List Char} (hpast : ScansPast split s front)
    (hpass : ∀ s, ∀ c ∈ '*' :: ' ' :: command.chars, Passes split s c)
    (hnil : ∀ s, split s [] = none) :
    (split s (front ++ star) = none ∧ split s (front ++ spelled) = none) ∨
    (∃ left right, split s (front ++ star) = some (left, right ++ star) ∧
      split s (front ++ spelled) = some (left, right ++ spelled)) ∨
    ∃ s' rest left right, star = '*' :: rest ∧ split s' rest = some (left, right) ∧
      split s (front ++ star) = some (front ++ '*' :: left, right) ∧
      split s (front ++ spelled) = some (front ++ (command.chars ++ ' ' :: left), right) := by
  rcases hpast with ⟨left, right, hfound⟩ | ⟨s', hbehind⟩
  · exact .inr (.inl ⟨left, right, hfound star, hfound spelled⟩)
  · obtain ⟨rest, rfl, hspelled⟩ := h
    have hstar := hpass s' '*' (by simp) rest
    have hspace := hpass s' ' ' (by simp) rest
    have hpassed : ∀ c ∈ command.chars, Passes split s' c := fun c hc => hpass s' c (by simp [hc])
    simp only [hbehind, hstar]
    cases hsplit : split s' rest with
    | none =>
      refine .inl ⟨rfl, ?_⟩
      rcases hspelled with rfl | ⟨rfl, rfl⟩
      · rw [split_append_of_passes _ hpassed, hspace, hsplit]
        rfl
      · rw [← List.append_nil command.chars, split_append_of_passes _ hpassed, hnil]
        rfl
    | some split =>
      obtain ⟨left, right⟩ := split
      rcases hspelled with rfl | ⟨rfl, -⟩
      · refine .inr (.inr ⟨s', rest, left, right, rfl, hsplit, rfl, ?_⟩)
        rw [split_append_of_passes _ hpassed, hspace, hsplit]
        rfl
      · rw [hnil] at hsplit
        cases hsplit

/-! ## Bounds -/

section Bounds

variable {K : Type} [Numeral K]

/-- What comes of a bound when a `*` behind the place where it is looked for is respelled. -/
inductive BoundRespelled (star spelled : List Char) :
    Option (List Char) × List Char → Option (List Char) × List Char → Prop
  | behind (bound : Option (List Char)) (front : List Char) :
      BoundRespelled star spelled (bound, front ++ star) (bound, front ++ spelled)
  | inside {bound bound' rest : List Char} : bound ≠ [] → bound' ≠ [] →
      canonicalChars bound' = canonicalChars bound → rest.length < star.length →
      BoundRespelled star spelled (some bound, rest) (some bound', rest)
  /-- The `*` is the whole bound, and of the command only the backslash. -/
  | bare {rest rest' : List Char} :
      BoundRespelled star spelled (some ['*'], rest) (some ['\\'], rest')

/-- A bound is split off a text whether or not a `*` in it is respelled. -/
theorem splitBound?_respelled (h : Respells command star spelled) (front : List Char) :
    (splitBound? (front ++ star) = none ∧ splitBound? (front ++ spelled) = none) ∨
    ∃ bound rest bound' rest', splitBound? (front ++ star) = some (bound, rest) ∧
      splitBound? (front ++ spelled) = some (bound', rest') ∧
      BoundRespelled star spelled (some bound, rest) (some bound', rest') := by
  cases front with
  | nil =>
    obtain ⟨rest, rfl, rfl | ⟨rfl, rfl⟩⟩ := h
    · cases command <;> exact .inr ⟨_, _, _, _, rfl, rfl, .bare⟩
    · cases command <;> exact .inr ⟨_, _, _, _, rfl, rfl, .bare⟩
  | cons c cs =>
    simp only [List.cons_append, splitBound?]
    cases hclosing : closingBracket? c with
    | none => exact .inr ⟨_, _, _, _, rfl, rfl, .behind _ _⟩
    | some closing =>
      -- neither the `*` nor the command has brackets
      have hbrackets : ∀ d ∈ '*' :: ' ' :: command.chars, d ≠ c ∧ d ≠ closing := by
        intro d hd
        rcases of_closingBracket? hclosing with ⟨rfl, rfl⟩ | ⟨rfl, rfl⟩ | ⟨rfl, rfl⟩ <;>
          cases command <;> fin_cases hd <;> decide
      rcases split_respelled h (scansPast_splitAtClosing c closing 0 cs)
          (fun _ d hd => passes_splitAtClosing (hbrackets d hd).1 (hbrackets d hd).2)
          (fun _ => rfl) with
        hnone | ⟨inner, back, hstar, hspelled⟩ |
        ⟨depth, rest, inner, more, rfl, hsplit, hstar, hspelled⟩
      · exact .inl hnone
      · exact .inr ⟨_, _, _, _, hstar, hspelled, .behind _ _⟩
      · refine .inr ⟨_, _, _, _, hstar, hspelled, .inside (by simp) (by simp) ?_ ?_⟩
        · exact canonicalChars_respelled ⟨inner, rfl, .inl rfl⟩ cs
        · simp [eq_append_of_splitAtClosing hsplit]
          omega

omit [Numeral K] in
/-- A marked bound is split off a text whether or not a `*` in it is respelled. -/
theorem markedBound_respelled (h : Respells command star spelled) {mark : Char}
    (hmark : mark ≠ '*' ∧ mark ≠ '\\') (front : List Char) :
    (∃ failure failure', markedBound (K := K) mark (front ++ star) = .error failure ∧
      markedBound (K := K) mark (front ++ spelled) = .error failure') ∨
    ∃ split split', markedBound (K := K) mark (front ++ star) = .ok split ∧
      markedBound (K := K) mark (front ++ spelled) = .ok split' ∧
      BoundRespelled star spelled split split' := by
  cases front with
  | nil =>
    have hstar : markedBound (K := K) mark star = .ok (none, [] ++ star) := by
      obtain ⟨rest, rfl, -⟩ := h
      exact if_neg hmark.1.symm
    have hspelled : markedBound (K := K) mark spelled = .ok (none, [] ++ spelled) := by
      obtain ⟨rest, -, rfl | ⟨-, rfl⟩⟩ := h <;> cases command <;> exact if_neg hmark.2.symm
    exact .inr ⟨_, _, hstar, hspelled, .behind none []⟩
  | cons c cs =>
    simp only [List.cons_append, markedBound]
    by_cases hc : c = mark
    · rcases splitBound?_respelled h cs with ⟨hnone, hnone'⟩ |
        ⟨bound, rest, bound', rest', hsome, hsome', hbound⟩
      · exact .inl ⟨_, _, by rw [if_pos hc, hnone], by rw [if_pos hc, hnone']⟩
      · exact .inr ⟨_, _, by rw [if_pos hc, hsome], by rw [if_pos hc, hsome'], hbound⟩
    · exact .inr ⟨_, _, if_neg hc, if_neg hc, .behind none (c :: cs)⟩

/-- The bounds, if they are found, cannot be read. -/
def Unreadable (split : Except (Failure K) ((Option (List Char) × Option (List Char)) × List Char)) :
    Prop :=
  ∀ bounds rest, split = .ok (bounds, rest) →
    ¬ ((∃ lower, readBound (K := K) bounds.1 = .ok lower) ∧
      ∃ upper, readBound (K := K) bounds.2 = .ok upper)

/-- What comes of the bounds when a `*` is respelled. -/
inductive BoundsRespelled (star spelled : List Char) :
    Except (Failure K) ((Option (List Char) × Option (List Char)) × List Char) →
    Except (Failure K) ((Option (List Char) × Option (List Char)) × List Char) → Prop
  | behind (bounds : Option (List Char) × Option (List Char)) (front : List Char) :
      BoundsRespelled star spelled (.ok (bounds, front ++ star)) (.ok (bounds, front ++ spelled))
  | inside {bounds bounds' : Option (List Char) × Option (List Char)} {rest : List Char} :
      readBound (K := K) bounds'.1 = readBound bounds.1 →
      readBound (K := K) bounds'.2 = readBound bounds.2 → rest.length < star.length →
      BoundsRespelled star spelled (.ok (bounds, rest)) (.ok (bounds', rest))
  | unreadable {split split' :
      Except (Failure K) ((Option (List Char) × Option (List Char)) × List Char)} :
      Unreadable split → Unreadable split' → BoundsRespelled star spelled split split'

/-- A `*` and a backslash are no bounds. -/
theorem readBound_bare (bound : Option (Expression K)) :
    readBound (some ['*']) ≠ .ok bound ∧ readBound (some ['\\']) ≠ .ok bound := by
  rw [readBound_of_ne_nil (by decide), readBound_of_ne_nil (by decide)]
  constructor
  · intro h
    obtain ⟨e, he, -⟩ := bind_eq_ok.1 h
    exact readFragment_star e he
  · intro h
    obtain ⟨e, he, -⟩ := bind_eq_ok.1 h
    exact readFragment_of_backslash (by decide) e he

/-- Bounds with the same canonical text are read alike. -/
theorem readBound_congr {bound bound' : List Char} (hne : bound ≠ []) (hne' : bound' ≠ [])
    (h : canonicalChars bound' = canonicalChars bound) :
    readBound (K := K) (some bound') = readBound (some bound) := by
  rw [readBound_of_ne_nil hne, readBound_of_ne_nil hne', readFragment, readFragment, h]

omit [Numeral K] in
/-- Neither a `*` nor a command is a blank. -/
theorem trimStart_respelled (h : Respells command star spelled) (front : List Char) :
    Text.trimStart (front ++ star) = Text.trimStart front ++ star ∧
      Text.trimStart (front ++ spelled) = Text.trimStart front ++ spelled := by
  obtain ⟨rest, rfl, rfl | ⟨rfl, rfl⟩⟩ := h <;> cases command <;>
    exact ⟨Text.trimStart_append_cons _ _ (by decide), Text.trimStart_append_cons _ _ (by decide)⟩

/-- The bounds are split off a text whether or not a `*` in it is respelled. -/
theorem splitBounds_respelled (h : Respells command star spelled) (front : List Char) :
    BoundsRespelled (K := K) star spelled (splitBounds (front ++ star))
      (splitBounds (front ++ spelled)) := by
  have hlower : '_' ≠ '*' ∧ '_' ≠ '\\' := by decide
  have hupper : '^' ≠ '*' ∧ '^' ≠ '\\' := by decide
  rw [splitBounds_eq, splitBounds_eq, (trimStart_respelled h front).1,
    (trimStart_respelled h front).2]
  rcases markedBound_respelled (K := K) h hlower (Text.trimStart front) with
    ⟨failure, failure', hsplit, hsplit'⟩ | ⟨split, split', hsplit, hsplit', hbound⟩
  · rw [hsplit, hsplit']
    exact .unreadable nofun nofun
  · rw [hsplit, hsplit']
    simp only [ok_bind]
    cases hbound with
    | behind lower front =>
      simp only [(trimStart_respelled h front).1, (trimStart_respelled h front).2]
      rcases markedBound_respelled (K := K) h hupper (Text.trimStart front) with
        ⟨failure, failure', hsplit, hsplit'⟩ | ⟨split, split', hsplit, hsplit', hbound⟩
      · rw [hsplit, hsplit']
        exact .unreadable nofun nofun
      · rw [hsplit, hsplit']
        simp only [ok_bind]
        cases hbound with
        | behind upper front =>
          simp only [(trimStart_respelled h front).1, (trimStart_respelled h front).2]
          exact .behind _ _
        | inside hne hne' hcanonical hlength =>
          refine .inside rfl (readBound_congr hne hne' hcanonical) (lt_of_le_of_lt ?_ hlength)
          exact (List.dropWhile_suffix _).length_le
        | bare =>
          refine .unreadable ?_ ?_
          · rintro _ _ ⟨⟩ ⟨-, upper, hread⟩
            exact (readBound_bare upper).1 hread
          · rintro _ _ ⟨⟩ ⟨-, upper, hread⟩
            exact (readBound_bare upper).2 hread
    | @inside bound bound' rest hne hne' hcanonical hlength =>
      cases hsplit : markedBound (K := K) '^' (Text.trimStart rest) with
      | error failure => exact .unreadable nofun nofun
      | ok split =>
        refine .inside (readBound_congr hne hne' hcanonical) rfl (lt_of_le_of_lt ?_ hlength)
        have hsuffix := suffix_of_markedBound hsplit
        exact (((List.dropWhile_suffix _).trans hsuffix).trans (List.dropWhile_suffix _)).length_le
    | bare =>
      refine .unreadable ?_ ?_
      · intro bounds rest' hbounds
        obtain ⟨_, -, heq⟩ := bind_eq_ok.1 hbounds
        rintro ⟨⟨lower, hread⟩, -⟩
        cases heq
        exact (readBound_bare lower).1 hread
      · intro bounds rest' hbounds
        obtain ⟨_, -, heq⟩ := bind_eq_ok.1 hbounds
        rintro ⟨⟨lower, hread⟩, -⟩
        cases heq
        exact (readBound_bare lower).2 hread

end Bounds

/-! ## The differential -/

section Differential

variable {K : Type} [Numeral K] {front : List Char} (body body' : List Char)
  (bounds : Option (List Char) × Option (List Char))

/-- Behind a differential the command becomes part of the variable: the integral is still read, and
it is another one. -/
theorem readIntegrand_behind_differential (h : Respells command star spelled) (hd : 'd' ∈ front) :
    ((∃ integral : IntegralExpression K,
        readIntegrand body bounds (front ++ star) = .ok integral) ↔
      ∃ integral : IntegralExpression K,
        readIntegrand body' bounds (front ++ spelled) = .ok integral) ∧
    ∀ integral : IntegralExpression K, ¬ (readIntegrand body bounds (front ++ star) = .ok integral ∧
      readIntegrand body' bounds (front ++ spelled) = .ok integral) := by
  obtain ⟨integrand, tail, rfl, hintegrand⟩ := List.eq_append_cons_of_mem hd
  simp only [List.append_assoc, List.cons_append, readIntegrand_append_eq_ok_iff hintegrand]
  -- the names differ in the number of stars, and neither of them is empty
  have hstars : (differentialName (tail ++ star)).count '*' =
      (differentialName (tail ++ spelled)).count '*' + 1 := by
    have hcount := count_differentialName (c := '*') (by decide) (by decide)
    rw [hcount, hcount]
    obtain ⟨rest, rfl, rfl | ⟨rfl, rfl⟩⟩ := h <;> cases command <;>
      simp [ProductCommand.chars] <;> omega
  have hnamed : differentialName (tail ++ star) ≠ [] := by
    intro hnil
    simp [hnil] at hstars
  have hnamed' : differentialName (tail ++ spelled) ≠ [] := by
    have hletter : 't' ∈ differentialName (tail ++ spelled) := by
      rw [← List.count_pos_iff, count_differentialName (by decide) (by decide), List.count_pos_iff]
      obtain ⟨rest, rfl, rfl | ⟨rfl, rfl⟩⟩ := h <;> cases command <;> simp [ProductCommand.chars]
    exact List.ne_nil_of_mem hletter
  refine ⟨⟨?_, ?_⟩, ?_⟩
  · rintro ⟨integral, hread⟩
    exact ⟨{ integral with unknown := String.ofList (differentialName (tail ++ spelled)) },
      hread.integrand, hread.lower, hread.upper, hnamed', rfl⟩
  · rintro ⟨integral, hread⟩
    exact ⟨{ integral with unknown := String.ofList (differentialName (tail ++ star)) },
      hread.integrand, hread.lower, hread.upper, hnamed, rfl⟩
  · rintro integral ⟨hread, hread'⟩
    have hname := String.ofList_injective (hread.unknown.symm.trans hread'.unknown)
    rw [hname] at hstars
    omega

/-- Before a differential the `d` of `\cdot` ends the integrand, which is then not read. -/
theorem readIntegrand_cdot (h : Respells .cdot star spelled) (hd : 'd' ∉ front)
    (integral : IntegralExpression K) :
    readIntegrand body' bounds (front ++ spelled) ≠ .ok integral := by
  have hcut : 'd' ∉ front ++ ['\\', 'c'] := by simp [hd]
  obtain ⟨tail, rfl⟩ : ∃ tail, spelled = ['\\', 'c'] ++ 'd' :: tail := by
    obtain ⟨rest, -, rfl | ⟨-, rfl⟩⟩ := h <;> exact ⟨_, rfl⟩
  rw [← List.append_assoc, Ne, readIntegrand_append_eq_ok_iff hcut]
  exact fun hread => readFragment_cut_command front _ hread.integrand

/-- Behind a differential, and for `\cdot` before it, no integral is read from both texts, and none
from the respelled text alone. -/
theorem readIntegrand_differs (h : Respells command star spelled)
    (hdiffers : command = .cdot ∨ 'd' ∈ front) :
    (∀ integral : IntegralExpression K, ¬ (readIntegrand body bounds (front ++ star) = .ok integral ∧
        readIntegrand body' bounds (front ++ spelled) = .ok integral)) ∧
      ((∃ integral : IntegralExpression K,
          readIntegrand body' bounds (front ++ spelled) = .ok integral) →
        ∃ integral : IntegralExpression K,
          readIntegrand body bounds (front ++ star) = .ok integral) := by
  by_cases hd : 'd' ∈ front
  · obtain ⟨hiff, hnever⟩ := readIntegrand_behind_differential (K := K) body body' bounds h hd
    exact ⟨hnever, hiff.2⟩
  · obtain rfl := hdiffers.resolve_right hd
    exact ⟨fun integral hread => readIntegrand_cdot _ _ h hd integral hread.2,
      fun ⟨integral, hread⟩ => absurd hread (readIntegrand_cdot _ _ h hd integral)⟩

/-- Before a differential `\times` is a `*`. -/
theorem readIntegrand_times (h : Respells .times star spelled) (hd : 'd' ∉ front)
    (integral : IntegralExpression K) :
    readIntegrand body bounds (front ++ star) = .ok integral ↔
      readIntegrand body' bounds (front ++ spelled) = .ok integral := by
  obtain ⟨rest, rfl, hspelled⟩ := h
  by_cases hrest : 'd' ∈ rest
  · obtain ⟨integrand, tail, rfl, hintegrand⟩ := List.eq_append_cons_of_mem hrest
    obtain rfl : spelled = ProductCommand.times.chars ++ ' ' :: (integrand ++ 'd' :: tail) := by
      rcases hspelled with rfl | ⟨hnil, -⟩
      · rfl
      · simp at hnil
    have hfirst : 'd' ∉ front ++ '*' :: integrand := by simp [hd, hintegrand]
    have hfirst' : 'd' ∉ front ++ (ProductCommand.times.chars ++ ' ' :: integrand) := by
      simp [hd, hintegrand, ProductCommand.chars]
    have hspells : Respells .times ('*' :: integrand)
        (ProductCommand.times.chars ++ ' ' :: integrand) := ⟨integrand, rfl, .inl rfl⟩
    have hfragment := readFragment_respelled (K := K) hspells front
    have hstar : front ++ '*' :: (integrand ++ 'd' :: tail) =
        front ++ '*' :: integrand ++ 'd' :: tail := by simp
    have hcommand : front ++ (ProductCommand.times.chars ++ ' ' :: (integrand ++ 'd' :: tail)) =
        front ++ (ProductCommand.times.chars ++ ' ' :: integrand) ++ 'd' :: tail := by simp
    rw [hstar, hcommand, readIntegrand_append_eq_ok_iff hfirst,
      readIntegrand_append_eq_ok_iff hfirst']
    constructor
    · exact fun hread => ⟨hfragment.trans hread.integrand, hread.lower, hread.upper, hread.named,
        hread.unknown⟩
    · exact fun hread => ⟨hfragment.symm.trans hread.integrand, hread.lower, hread.upper,
        hread.named, hread.unknown⟩
  · -- without a differential neither is read
    have hnone : ∀ body text : List Char, 'd' ∉ text →
        readIntegrand body bounds text ≠ .ok integral := by
      intro body text htext hread
      obtain ⟨integrand, tail, rfl, -⟩ := readIntegrand_eq_ok_iff.1 hread
      simp at htext
    refine iff_of_false (hnone _ _ (by simp [hd, hrest])) (hnone _ _ ?_)
    rcases hspelled with rfl | ⟨-, rfl⟩ <;> simp [hd, hrest, ProductCommand.chars]

end Differential

/-! ## Problems -/

section Problems

variable {K : Type} [Numeral K]

/-- The sides of an equation are found, and are read alike, whether or not a `*` is respelled. -/
theorem splitAtEquals_respelled (h : Respells command star spelled) (front : List Char) :
    (splitAtEquals 0 (front ++ star) = none ∧ splitAtEquals 0 (front ++ spelled) = none) ∨
    ∃ left right left' right', splitAtEquals 0 (front ++ star) = some (left, right) ∧
      splitAtEquals 0 (front ++ spelled) = some (left', right') ∧
      readFragment (K := K) left' = readFragment left ∧
      readFragment (K := K) right' = readFragment right := by
  -- neither the `*` nor the command has brackets or the sign
  have hneutral : ∀ c ∈ '*' :: ' ' :: command.chars, c ≠ '=' ∧ depthChange c = 0 := by
    intro c hc
    cases command <;> fin_cases hc <;> decide
  rcases split_respelled h (scansPast_splitAtEquals 0 front)
      (fun _ c hc => passes_splitAtEquals (hneutral c hc).1 (hneutral c hc).2) (fun _ => rfl) with
    hnone | ⟨left, back, hstar, hspelled⟩ | ⟨depth, rest, left, right, rfl, -, hstar, hspelled⟩
  · exact .inl hnone
  · exact .inr ⟨_, _, _, _, hstar, hspelled, rfl, readFragment_respelled h back⟩
  · have hspells : Respells command ('*' :: left) (command.chars ++ ' ' :: left) :=
      ⟨left, rfl, .inl rfl⟩
    exact .inr ⟨_, _, _, _, hstar, hspelled, readFragment_respelled hspells front, rfl⟩

/-- What the two texts are when they are trimmed. -/
theorem trim_respelled (before after : String) (command : ProductCommand) :
    ∃ front star spelled, Respells command star spelled ∧ star = '*' :: Text.trimEnd after.toList ∧
      Text.trim (before ++ "*" ++ after).toList = front ++ star ∧
      Text.trim (before ++ command.text ++ after).toList = front ++ spelled := by
  have htext : (before ++ "*" ++ after).toList = before.toList ++ (['*'] ++ after.toList) := by simp
  have htext' : (before ++ command.text ++ after).toList =
      before.toList ++ (command.chars ++ ' ' :: after.toList) := by simp [ProductCommand.text]
  have hstar := Text.trim_append_word ['*'] before.toList after.toList
    ⟨'*', rfl, by decide⟩ ⟨'*', rfl, by decide⟩
  have hcommand := Text.trim_append_word command.chars before.toList (' ' :: after.toList)
    (by cases command <;> exact ⟨_, rfl, by decide⟩)
    (by cases command <;> exact ⟨_, rfl, by decide⟩)
  rw [← htext] at hstar
  rw [← htext'] at hcommand
  refine ⟨_, _, _, ⟨_, rfl, ?_⟩, rfl, hstar, hcommand⟩
  -- the blank behind the command is taken off if nothing follows it
  rw [Text.trimEnd]
  cases Text.trimEnd after.toList with
  | nil => exact .inr ⟨rfl, by simp; decide⟩
  | cons c cs => exact .inl rfl

/-- The text of an integral in front of a `*` that stands behind the bounds. The `*` is the one behind
`before`, and `front` is what stands between the bounds and it. -/
def BehindBounds (K : Type) (before after : String) (front : List Char) : Prop :=
  ∃ body bounds, Text.trim (before ++ "*" ++ after).toList = integralMark ++ body ∧
    splitBounds (K := K) body = .ok (bounds, front ++ '*' :: Text.trimEnd after.toList)

/-- The mark of integrals is in front of the `*`, or it is not there. -/
theorem integralMark_respelled (h : Respells command star spelled) (front : List Char) :
    integralMark.isPrefixOf (front ++ spelled) = integralMark.isPrefixOf (front ++ star) ∧
      (integralMark.isPrefixOf (front ++ star) = true → integralMark <+: front) := by
  have hspelled : ∀ c ∈ spelled.head?, c ∉ integralMark.tail := by
    obtain ⟨rest, -, rfl | ⟨-, rfl⟩⟩ := h <;> cases command <;> rintro _ ⟨⟩ <;> decide
  have hstar : ∀ c ∈ star.head?, c ∉ integralMark.tail := by
    obtain ⟨rest, rfl, -⟩ := h
    rintro _ ⟨⟩
    decide
  cases front with
  | nil =>
    -- neither a `*` nor a command is the mark
    obtain ⟨rest, rfl, rfl | ⟨rfl, rfl⟩⟩ := h <;> cases command <;> exact ⟨rfl, nofun⟩
  | cons c cs =>
    rw [Text.isPrefixOf_append (List.cons_ne_nil c cs) hspelled,
      Text.isPrefixOf_append (List.cons_ne_nil c cs) hstar]
    exact ⟨rfl, List.isPrefixOf_iff_prefix.1⟩

/-- An expression or an equation is read whether or not a `*` in it is respelled. -/
theorem readTrimmed_respelled (h : Respells command star spelled) {front : List Char}
    (hmark : integralMark.isPrefixOf (front ++ star) = false) :
    readTrimmed (K := K) (front ++ star) = readTrimmed (front ++ spelled) := by
  have hne : front ++ star ≠ [] := by
    obtain ⟨rest, rfl, -⟩ := h
    simp
  have hne' : front ++ spelled ≠ [] := by
    obtain ⟨rest, -, rfl | ⟨-, rfl⟩⟩ := h <;> cases command <;> simp [ProductCommand.chars]
  have hmark' := (integralMark_respelled h front).1.trans hmark
  rw [readTrimmed_of_not_integral hne hmark, readTrimmed_of_not_integral hne' hmark']
  rcases splitAtEquals_respelled (K := K) h front with ⟨hnone, hnone'⟩ |
    ⟨left, right, left', right', hsome, hsome', hleft, hright⟩
  · simp only [hnone, hnone', readFragment_respelled h]
  · simp only [hsome, hsome', hleft, hright]

/-- What an integral states when a `*` in it is respelled: the same, unless the `*` stands behind the
bounds and behind a `d` or is spelled `\cdot`; then, if the integral is read, another one or none. -/
theorem readIntegral_respelled (h : Respells command star spelled) (body : List Char) :
    (∀ integral : IntegralExpression K, readIntegral (body ++ star) = .ok integral ↔
      readIntegral (body ++ spelled) = .ok integral) ↔
    ¬ ∃ (integral : IntegralExpression K) (bounds : Option (List Char) × Option (List Char))
        (front : List Char), readIntegral (body ++ star) = .ok integral ∧
      splitBounds (K := K) (body ++ star) = .ok (bounds, front ++ star) ∧
      (command = .cdot ∨ 'd' ∈ front) := by
  have hbounds := splitBounds_respelled (K := K) h body
  simp only [readIntegral]
  generalize splitBounds (K := K) (body ++ star) = split at hbounds
  generalize splitBounds (K := K) (body ++ spelled) = split' at hbounds
  cases hbounds with
  | behind bounds front =>
    simp only [ok_bind, Except.ok.injEq, Prod.mk.injEq, List.append_left_inj]
    by_cases hdiffers : command = .cdot ∨ 'd' ∈ front
    · obtain ⟨hnever, hread_star⟩ :=
        readIntegrand_differs (K := K) (body ++ star) (body ++ spelled) bounds h hdiffers
      constructor
      · rintro hagree ⟨integral, _, _, hread, -, -⟩
        exact hnever integral ⟨hread, (hagree integral).1 hread⟩
      · intro hnone integral
        have hfails : ¬ ∃ integral : IntegralExpression K,
            readIntegrand (body ++ star) bounds (front ++ star) = .ok integral := by
          rintro ⟨integral, hread⟩
          exact hnone ⟨integral, bounds, front, hread, ⟨rfl, rfl⟩, hdiffers⟩
        exact iff_of_false (fun hread => hfails ⟨integral, hread⟩)
          fun hread => hfails (hread_star ⟨integral, hread⟩)
    · obtain ⟨hcommand, hd⟩ := not_or.1 hdiffers
      obtain rfl : command = .times := by
        cases command
        · exact absurd rfl hcommand
        · rfl
      refine iff_of_true (readIntegrand_times _ _ _ h hd) ?_
      rintro ⟨integral, _, front', -, ⟨-, rfl⟩, hdiffers'⟩
      exact hdiffers hdiffers'
  | @inside bounds bounds' rest hlower hupper hlength =>
    simp only [ok_bind, Except.ok.injEq, Prod.mk.injEq]
    refine iff_of_true (fun integral => readIntegrand_congr hlower hupper) ?_
    -- the `*` is not behind the bounds
    rintro ⟨integral, _, front, -, ⟨-, rfl⟩, -⟩
    rw [List.length_append] at hlength
    omega
  | unreadable hnone hnone' =>
    have hfails : ∀ split : Except (Failure K) _, Unreadable split → ∀ body,
        ∀ integral : IntegralExpression K,
          (split >>= fun split => readIntegrand body split.1 split.2) ≠ .ok integral := by
      intro split hnone body integral hread
      obtain ⟨⟨bounds, rest⟩, hsplit, hread⟩ := bind_eq_ok.1 hread
      obtain ⟨_, _, -, -, hreading⟩ := readIntegrand_eq_ok_iff.1 hread
      exact hnone bounds rest hsplit ⟨⟨_, hreading.lower⟩, _, hreading.upper⟩
    refine iff_of_true (fun integral => ?_) ?_
    · exact iff_of_false (hfails split hnone _ integral) (hfails split' hnone' _ integral)
    · rintro ⟨integral, -, -, hread, -⟩
      exact hfails split hnone _ integral hread

/-- A text with a `*` and the text with a command for it state the same problem, or neither states
one, except in two cases: the `*` stands behind the bounds of an integral, and before it there is a
`d`, which is taken for the differential, or the command is `\cdot`, whose `d` is. -/
theorem read_command_iff (before after : String) (command : ProductCommand) :
    (∀ problem : Problem K, Problem.read (before ++ "*" ++ after) = .ok problem ↔
      Problem.read (before ++ command.text ++ after) = .ok problem) ↔
    ¬ ∃ (problem : Problem K) (front : List Char),
      Problem.read (before ++ "*" ++ after) = .ok problem ∧ BehindBounds K before after front ∧
        (command = .cdot ∨ 'd' ∈ front) := by
  obtain ⟨front, star, spelled, h, hstar, htrim, htrim'⟩ := trim_respelled before after command
  unfold BehindBounds Problem.read
  rw [htrim, htrim', ← hstar]
  cases hmark : integralMark.isPrefixOf (front ++ star) with
  | false =>
    refine iff_of_true (fun problem => by rw [readTrimmed_respelled h hmark]) ?_
    rintro ⟨-, -, -, ⟨body, bounds, hbody, -⟩, -⟩
    rw [hbody, List.isPrefixOf_iff_prefix.2 (List.prefix_append _ _)] at hmark
    cases hmark
  | true =>
    obtain ⟨body, rfl⟩ := (integralMark_respelled h front).2 hmark
    have hproblems : (∀ problem : Problem K,
          readTrimmed (integralMark ++ (body ++ star)) = .ok problem ↔
            readTrimmed (integralMark ++ (body ++ spelled)) = .ok problem) ↔
        ∀ integral : IntegralExpression K, readIntegral (body ++ star) = .ok integral ↔
          readIntegral (body ++ spelled) = .ok integral := by
      simp only [readTrimmed_integral, map_eq_ok]
      refine ⟨fun hagree integral => ?_, fun hagree problem => ?_⟩
      · have hproblem := hagree (.integral integral)
        simpa only [Problem.integral.injEq, exists_eq_right] using hproblem
      · simp only [hagree]
    simp only [List.append_assoc]
    rw [hproblems, readIntegral_respelled h]
    refine not_congr ⟨?_, ?_⟩
    · rintro ⟨integral, bounds, front, hread, hbounds, hdiffers⟩
      refine ⟨.integral integral, front, ?_, ⟨body ++ star, bounds, rfl, hbounds⟩, hdiffers⟩
      rw [readTrimmed_integral, hread]
      rfl
    · rintro ⟨problem, front, hread, ⟨body', bounds, hbody, hbounds⟩, hdiffers⟩
      obtain rfl := List.append_cancel_left hbody
      rw [readTrimmed_integral] at hread
      obtain ⟨integral, hread, -⟩ := map_eq_ok.1 hread
      exact ⟨integral, bounds, front, hread, hbounds, hdiffers⟩

end Problems

/-- The integrand of `\int 2\cdot x dx` ends at the `d` of the command, and nothing is read. -/
theorem cdot_in_integrand :
    (∃ integral : IntegralExpression Float,
      Problem.read ("\\int 2" ++ "*" ++ "x dx") = .ok (.integral integral) ∧
        integral.integrand.text = "2*x" ∧ integral.unknown = "x") ∧
    ∃ failure : Failure Float,
      Problem.read ("\\int 2" ++ ProductCommand.cdot.text ++ "x dx") = .error failure := by
  constructor
  · obtain ⟨product, hproduct⟩ : ∃ t : Tree Float,
        Derives .sum [.number ['2'], .operator .times, .word ['x']] t :=
      ⟨_, .ofTerm (.term (.inl rfl) (.ofUnary (.ofPower (.ofAtom (.number _))))
        (.ofPower (.ofAtom (.name (by decide)))))⟩
    have hread : readFragment "2*x ".toList = .ok ⟨"2*x", product⟩ := by
      refine readFragment_of_derives (by decide) ?_ hproduct
      simp only [List.forall_mem_cons]
      exact ⟨.number (by decide), .symbol (by decide), .word (by decide), nofun⟩
    exact ⟨_, read_eq_integral_iff.2 ⟨" 2*x dx".toList, ⟨"2*x ".toList, ['x'], none, none⟩,
      by decide, rfl, read_parts_indefinite hread⟩, rfl, rfl⟩
  · have htrim : Text.trim ("\\int 2" ++ ProductCommand.cdot.text ++ "x dx").toList =
        integralMark ++ " 2\\cdot x dx".toList := by decide
    have hbounds : splitBounds (K := Float) " 2\\cdot x dx".toList =
        .ok ((none, none), ['2'] ++ "\\cdot x dx".toList) := rfl
    have hspelled : Respells .cdot "*x dx".toList "\\cdot x dx".toList :=
      ⟨"x dx".toList, rfl, .inl rfl⟩
    rw [Problem.read, htrim, readTrimmed_integral, readIntegral, hbounds, ok_bind]
    cases hread : readIntegrand (K := Float) " 2\\cdot x dx".toList (none, none)
        (['2'] ++ "\\cdot x dx".toList) with
    | error failure => exact ⟨failure, rfl⟩
    | ok integral => exact absurd hread (readIntegrand_cdot _ _ hspelled (by decide) integral)

end SchoolMath.Latex
