import Mathlib
import SchoolMath.Expression.Read
import SchoolMath.Proofs.Arithmetic.Derivation
import SchoolMath.Proofs.Arithmetic.Scanner
import SchoolMath.Proofs.Outcome

/-!
# `Arithmetic.Completeness` — derivable tokens are read as a phrase

Where tokens stand that derive a tree, the surface grammar reads a phrase with this tree. Its
choices are ordered and it never goes back into a repetition, so each repetition must stop where the
derivation does: signs before the atom, suffixes at once, and links where arithmetic stops, which is
at the end of the text or at a closing parenthesis.
-/

namespace SchoolMath.Arithmetic

open Surface Surface.Reader

variable {K : Type} [Numeral K] {inner : Reader Phrase} {text mid rest : List Char}

/-- In a text shorter than `limit`, tokens that derive a tree are read as a phrase with this tree.
-/
def Complete (K : Type) [Numeral K] (limit : Nat) (inner : Reader Phrase) : Prop :=
  ∀ {text rest : List Char} {ts : List Token} {t : Tree K},
    text.length < limit → text.dropWhile isGap = text → Lexes text ts rest → Derives .sum ts t →
    AtClose (rest.dropWhile isGap) →
    ∃ phrase : Phrase, reads inner text = some (phrase, rest.dropWhile isGap) ∧ phrase.tree = .ok t

/-! ## Where the repetitions stop -/

/-- A sign is not read where neither its symbol nor its word stands. -/
theorem sign_none (hhead : ∀ c ∈ text.head?, c ∉ ['-', '+', '~'])
    (hword : text.takeWhile isNameChar ≠ ['n', 'o', 't']) : reads signToken text = none := by
  have hsymbol : ∀ c ∈ ['-', '+', '~'], ¬ [c] <+: text := by
    rintro c hc ⟨tail, rfl⟩
    exact hhead c rfl hc
  have hnot : scanWord "not" text = none := if_neg hword
  simp [signToken, symbolToken, wordToken, scanSymbol_eq, hsymbol, hnot]

/-- The first character of an atom is no sign. -/
theorem not_sign_of_startsAtom {t : Token} (ht : t.StartsAtom) (h : ReadsOff text t rest) :
    ∀ c ∈ text.head?, c ∉ ['-', '+', '~'] := by
  obtain ⟨w, hw, rfl, -⟩ := h
  obtain ⟨c, cs, rfl⟩ := List.exists_cons_of_ne_nil hw.ne_nil
  rintro d ⟨⟩ hc
  have hsymbol : ∀ c ∈ ['-', '+', '~'], Lead.of c = .symbol := by
    intro c hc
    fin_cases hc <;> rfl
  have hlead : t.lead = .symbol := by rw [← hw.lead, hsymbol c hc]
  cases ht with
  | number | name => cases hlead
  | opening =>
    have key : ∀ p ∈ symbols, p.2 = .opening → p.1.head?.all (· ∉ ['-', '+', '~']) = true := by
      decide
    exact of_decide_eq_true (key _ ((Token.spells_symbol rfl).1 hw) rfl) hc

/-- No sign is read where an atom starts. -/
theorem sign_none_of_startsAtom {t : Token} (ht : t.StartsAtom) (h : ReadsOff text t rest) :
    reads signToken text = none := by
  refine sign_none (not_sign_of_startsAtom ht h) ?_
  intro hnot
  -- the keyword would be the longest token
  have hword : ReadsOff text (.word ['n', 'o', 't']) (text.dropWhile isNameChar) := by
    refine readsOff_word_iff.2 ⟨?_, hnot, rfl⟩
    cases text with
    | nil => cases hnot
    | cons c cs =>
      by_cases hc : isNameChar c = true
      · rw [List.takeWhile_cons_of_pos hc] at hnot
        obtain ⟨rfl, -⟩ := List.cons.inj hnot
        exact ⟨'n', rfl, by decide⟩
      · rw [List.takeWhile_cons_of_neg hc] at hnot
        cases hnot
  obtain ⟨rfl, -⟩ := h.unique hword
  cases ht with
  | name hkeyword => exact hkeyword (by decide)

/-- A suffix starts with a bracket or with a point. -/
theorem suffix_none (h : ∀ c ∈ text.head?, c ∉ ['(', '[', '.']) :
    reads (suffix inner) text = none := by
  have hmark : ∀ {symbol : String} {c : Char}, symbol.toList = [c] → c ∈ ['(', '[', '.'] →
      reads (mark symbol) text = none := by
    intro symbol c hsymbol hc
    rw [reads_mark, hsymbol, if_neg]
    rintro ⟨tail, rfl⟩
    exact h c rfl hc
  have hopen : reads (mark "(") text = none := hmark (c := '(') rfl (by decide)
  have hbracket : reads (mark "[") text = none := hmark (c := '[') rfl (by decide)
  have hpoint : reads (mark ".") text = none := hmark (c := '.') rfl (by decide)
  simp [suffix, call, subscript, member, hopen, hbracket, hpoint]

/-! ## The parts of a phrase -/

/-- Signs in front of an atom are read as signs. -/
theorem signs_complete {us : List Token} {t : Tree K} (signs : List Bool)
    (hlex : Lexes text (signs.map Token.sign ++ us) rest) (hus : Derives .atom us t) :
    ∃ tokens mid, Repeats signToken text tokens mid ∧ signsOf tokens = .ok signs ∧
      Lexes mid us rest ∧ mid.length ≤ text.length := by
  induction signs generalizing text with
  | nil =>
    obtain ⟨first, vs, rfl, hfirst⟩ := exists_startsAtom hus
    obtain ⟨mid, hread, -⟩ := Lexes.cons_iff.1 hlex
    exact ⟨[], text, .stop (sign_none_of_startsAtom hfirst hread), rfl, hlex, Nat.le_refl _⟩
  | cons minus signs ih =>
    obtain ⟨mid, hread, hmid⟩ := Lexes.cons_iff.1 hlex
    obtain ⟨token, htoken, hminus⟩ := sign_complete hread
    obtain ⟨tokens, mid', hrepeats, hsigns, hlex', hle⟩ := ih hmid
    have hlt : mid.length < text.length :=
      Nat.lt_of_lt_of_le hread.length_lt (List.length_dropWhile_le isGap text)
    refine ⟨token :: tokens, mid', .item htoken hlt hrepeats, ?_, hlex', by omega⟩
    simp [signsOf, hminus, hsigns, Except.mapError, pure, Except.pure]

/-- An atom is read as a primary. -/
theorem primary_complete {limit : Nat} (hinner : Complete K limit inner) {ts : List Token}
    {t : Tree K} (hlen : text.length ≤ limit) (hblank : text.dropWhile isGap = text)
    (hlex : Lexes text ts rest) (ht : Derives .atom ts t) :
    ∃ read mid, reads (primary inner) text = some (read, mid) ∧ read.atom = .ok t ∧
      mid.dropWhile isGap = rest.dropWhile isGap := by
  cases ht with
  | number w =>
    obtain ⟨mid, hread, hmid⟩ := Lexes.cons_iff.1 hlex
    rw [hblank] at hread
    refine ⟨.number (String.ofList w), mid, ?_, rfl, hmid.dropWhile_of_nil⟩
    simp [primary, scanNumber_iff.2 hread]
  | @name w hkeyword =>
    obtain ⟨mid, hread, hmid⟩ := Lexes.cons_iff.1 hlex
    rw [hblank] at hread
    have hnumber : scanNumber text = none := scanNumber_eq_none hread (by simp [Token.lead])
    refine ⟨.name (String.ofList w), mid, ?_, rfl, hmid.dropWhile_of_nil⟩
    simp [primary, nameToken, hnumber, scanName_iff.2 ⟨hread, hkeyword⟩]
  | @group us _ hus =>
    obtain ⟨cs, hopen, htail⟩ := Lexes.cons_iff.1 hlex
    rw [hblank] at hopen
    obtain rfl : text = '(' :: cs := hopen.eq_append ['('] (by decide) rfl
    obtain ⟨mid, hinside, htail'⟩ := htail.split
    obtain ⟨rest', hclose, hrest'⟩ := Lexes.cons_iff.1 htail'
    have hclose : mid.dropWhile isGap = ')' :: rest' := hclose.eq_append [')'] (by decide) rfl
    -- the phrase inside is shorter and stops at the closing parenthesis
    have hlt : (cs.dropWhile isGap).length < limit :=
      Nat.lt_of_le_of_lt (List.length_dropWhile_le isGap cs) hlen
    obtain ⟨phrase, hphrase, htree⟩ :=
      hinner hlt (List.dropWhile_idempotent isGap cs)
        (hinside.from_dropWhile (ne_nil_of_derives hus)) hus (.inr ⟨rest', hclose⟩)
    obtain ⟨read, hgroup, hatom⟩ :
        ∃ read, reads (group inner) ('(' :: cs) = some (read, rest') ∧ read.atom = .ok t := by
      refine ⟨_, reads_group_iff.2 ⟨phrase, cs, mid.dropWhile isGap, rfl, hphrase, ?_, rfl⟩, htree⟩
      rw [List.dropWhile_idempotent, hclose]
    refine ⟨read, rest', ?_, hatom, hrest'.dropWhile_of_nil⟩
    have hnumber : scanNumber ('(' :: cs) = none := scanNumber_eq_none hopen (by simp [Token.lead])
    have hname : scanName ('(' :: cs) = none := scanName_eq_none hopen (by simp [Token.lead])
    simp [primary, nameToken, hnumber, hname, hgroup]

/-- Signs and an atom are read as an operand, if no suffix can follow. -/
theorem operand_complete {limit : Nat} (hinner : Complete K limit inner) {ts : List Token}
    {s : Signed K} (hlen : text.length ≤ limit) (hblank : text.dropWhile isGap = text)
    (hlex : Lexes text ts rest) (hs : IsOperand ts s)
    (hstop : ∀ c ∈ (rest.dropWhile isGap).head?, c ∉ ['(', '[', '.']) :
    ∃ read, reads (operand inner) text = some (read, rest.dropWhile isGap) ∧
      read.signed = .ok s := by
  obtain ⟨us, rfl, hus⟩ := hs
  obtain ⟨tokens, mid, hrepeats, hsigns, hmid, hle⟩ := signs_complete s.signs hlex hus
  have hmidlen : (mid.dropWhile isGap).length ≤ mid.length := List.length_dropWhile_le isGap mid
  obtain ⟨read, mid', hread, htree, hmid'⟩ := primary_complete hinner (by omega)
    (List.dropWhile_idempotent isGap mid) (hmid.from_dropWhile (ne_nil_of_derives hus)) hus
  -- behind the atom the suffixes stop at once
  refine ⟨.mk tokens read [], ?_, ?_⟩
  · refine reads_operand_iff.2
      ⟨tokens, mid, read, mid', [], hrepeats.repeated hblank, hread, ?_, rfl⟩
    rw [hmid']
    refine Repeats.repeated (.stop ?_) (List.dropWhile_idempotent isGap rest)
    rw [List.dropWhile_idempotent]
    exact suffix_none hstop
  · simp [Operand.signed, hsigns, htree, noSuffix, pure, Except.pure]

/-- Behind an operand stands an operator, or arithmetic stops; neither starts a suffix. -/
theorem not_suffix_of_links {ls : List Token} {row : List (Operator × Signed K)}
    (hlex : Lexes text ls rest) (hls : Links IsOperand ls row)
    (hclose : AtClose (rest.dropWhile isGap)) :
    ∀ c ∈ (text.dropWhile isGap).head?, c ∉ ['(', '[', '.'] := by
  intro c hc
  cases hls with
  | nil =>
    rw [hlex.dropWhile_of_nil] at hc
    rcases hclose with hnil | ⟨cs, hcons⟩
    · rw [hnil] at hc
      cases hc
    · rw [hcons] at hc
      obtain rfl := Option.some.inj hc
      decide
  | cons =>
    obtain ⟨mid, ⟨w, hw, htext, -⟩, -⟩ := Lexes.cons_iff.1 hlex
    obtain ⟨d, ds, rfl⟩ := List.exists_cons_of_ne_nil hw.ne_nil
    rw [htext] at hc
    obtain rfl := Option.some.inj hc
    have key : ∀ p ∈ symbols, p.2 ≠ .opening → p.1.head?.all (· ∉ ['(', '[', '.']) = true := by
      decide
    exact of_decide_eq_true (key _ ((Token.spells_symbol rfl).1 hw) nofun)

/-- No operand starts with the sign of a quotient. -/
theorem slash_not_mem_head? {us : List Token} {s : Signed K} (hs : IsOperand us s)
    (hlex : Lexes text us rest) : '/' ∉ text.head? := by
  intro hslash
  obtain ⟨as, rfl, has⟩ := hs
  obtain ⟨cs, rfl⟩ := List.head?_eq_some_iff.1 hslash
  have hover : ReadsOff ('/' :: cs) (.operator .over) cs :=
    readsOff_iff.2 ⟨['/'], .symbol (by decide), rfl, fun _ _ => rfl⟩
  cases hsigns : s.signs with
  | nil =>
    rw [hsigns] at hlex
    obtain ⟨first, vs, rfl, hfirst⟩ := exists_startsAtom has
    obtain ⟨mid, hread, -⟩ := Lexes.cons_iff.1 hlex
    obtain ⟨rfl, -⟩ := hread.unique hover
    cases hfirst
  | cons minus signs =>
    rw [hsigns] at hlex
    obtain ⟨mid, hread, -⟩ := Lexes.cons_iff.1 hlex
    obtain ⟨heq, -⟩ := hread.unique hover
    cases minus <;> cases heq

/-- Operators with operands behind them are read as links, if arithmetic stops behind them. -/
theorem links_complete {limit : Nat} (hinner : Complete K limit inner) {ls : List Token}
    {row : List (Operator × Signed K)} (hlen : text.length ≤ limit) (hlex : Lexes text ls rest)
    (hls : Links IsOperand ls row) (hclose : AtClose (rest.dropWhile isGap)) :
    ∃ links, Repeats (link inner) (text.dropWhile isGap) links (rest.dropWhile isGap) ∧
      rowOf links = .ok row := by
  induction hls generalizing text with
  | nil =>
    rw [hlex.dropWhile_of_nil]
    refine ⟨[], .stop ?_, rfl⟩
    rw [List.dropWhile_idempotent, link, reads_bind, infix_none hclose]
    rfl
  | @cons us vs op s row hs hlinks ih =>
    obtain ⟨mid, hop, hmid⟩ := Lexes.cons_iff.1 hlex
    obtain ⟨mid', hoperand, hmid'⟩ := hmid.split
    obtain ⟨token, htoken, hkind⟩ := infix_complete hop fun _ => slash_not_mem_head? hs hoperand
    -- the text gets shorter with the operator and no longer again
    have hlt : mid.length < (text.dropWhile isGap).length := hop.length_lt
    have htext : (text.dropWhile isGap).length ≤ text.length := List.length_dropWhile_le isGap text
    have hmidlen : (mid.dropWhile isGap).length ≤ mid.length := List.length_dropWhile_le isGap mid
    have hle : mid'.length ≤ mid.length := hoperand.length_le
    have hle' : (mid'.dropWhile isGap).length ≤ mid'.length := List.length_dropWhile_le isGap mid'
    obtain ⟨read, hread, hsigned⟩ := operand_complete hinner (by omega)
      (List.dropWhile_idempotent isGap mid) (hoperand.from_dropWhile hs.ne_nil) hs
      (not_suffix_of_links hmid' hlinks hclose)
    obtain ⟨links, hlinks, hrow⟩ := ih (by omega) hmid'
    have hlink : reads (link inner) ((text.dropWhile isGap).dropWhile isGap) =
        some (.mk token read, mid'.dropWhile isGap) := by
      rw [List.dropWhile_idempotent]
      exact reads_link_iff.2 ⟨token, mid, read, htoken, hread, rfl⟩
    refine ⟨.mk token read :: links, .item hlink (by omega) hlinks, ?_⟩
    simp [rowOf, hkind, hsigned, hrow, Except.mapError, pure, Except.pure]

/-- If the phrases inside are complete, so is the phrase around them, in longer texts. -/
theorem phrase_complete {limit : Nat} (hinner : Complete K limit inner) :
    Complete K (limit + 1) (phrase inner) := by
  intro text rest ts t hlen hblank hlex ht hclose
  obtain ⟨us, ls, s, row, rfl, hs, hls, rfl⟩ := derives_sum_iff.1 ht
  obtain ⟨mid, hfirst, hmid⟩ := hlex.split
  have hle : mid.length ≤ text.length := hfirst.length_le
  obtain ⟨read, hread, hsigned⟩ := operand_complete hinner (by omega) hblank hfirst hs
    (not_suffix_of_links hmid hls hclose)
  obtain ⟨links, hlinks, hrow⟩ := links_complete hinner (by omega) hmid hls hclose
  refine ⟨_, reads_phrase_iff.2 ⟨read, mid.dropWhile isGap, links, hread, ?_, rfl⟩, ?_⟩
  · have hidem := List.dropWhile_idempotent isGap mid
    rw [hidem]
    exact hlinks.repeated hidem
  · simp [Phrase.tree, hsigned, hrow, pure, Except.pure]

/-- Phrases are complete in texts shorter than their depth. -/
theorem phraseWithin_complete (depth : Nat) : Complete K depth (phraseWithin depth) := by
  induction depth with
  | zero =>
    intro text rest ts t hlen
    exact absurd hlen (Nat.not_lt_zero _)
  | succ depth ih => exact phrase_complete ih

end SchoolMath.Arithmetic
