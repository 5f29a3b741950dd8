import SchoolMath.Expression.Read
import SchoolMath.Proofs.Arithmetic.Derivation
import SchoolMath.Proofs.Arithmetic.Scanner
import SchoolMath.Proofs.Outcome

/-!
# `Arithmetic.Soundness` — a phrase with a tree is derivable

A phrase that the surface grammar reads may hold anything; if it has a tree, it was read off tokens
of arithmetic that derive this tree. Every part of the surface grammar has one lemma of this shape,
and `phraseWithin_sound` closes them over the phrases inside phrases.
-/

namespace SchoolMath.Arithmetic

open Surface Surface.Reader

variable {K : Type} [Numeral K] {inner : Reader Phrase} {text rest : List Char}

/-- Phrases with a tree are read off tokens that derive it. -/
def Sound (K : Type) [Numeral K] (inner : Reader Phrase) : Prop :=
  ∀ {text rest : List Char} {phrase : Phrase} {t : Tree K},
    reads inner text = some (phrase, rest) → phrase.tree = .ok t →
    ∃ ts, Lexes text ts rest ∧ Derives .sum ts t

/-! ## Tokens in a row -/

/-- The token at the front of a text is read alone. -/
theorem ReadsOff.lexes {t : Token} (h : ReadsOff text t rest) : Lexes text [t] rest :=
  .token h .done

/-- Blanks before tokens are passed over. -/
theorem Lexes.of_dropWhile {ts : List Token} (h : Lexes (text.dropWhile isGap) ts rest) :
    Lexes text ts rest := (Lexes.dropWhile text).append h

/-- Between no items there are only blanks. -/
theorem lexes_of_items {α : Type} {p : Reader α} (h : Items p text [] rest) :
    Lexes text [] rest := by
  generalize hnil : [] = as at h
  induction h with
  | nil => exact .done
  | gap _ ih => exact (ih hnil).of_dropWhile
  | cons => cases hnil

/-! ## The parts of a phrase -/

omit [Numeral K] in
/-- Signs with a meaning are read off their tokens. -/
theorem signs_sound {signs : List (Surface.Token Sign)} {minus : List Bool}
    (h : Items Surface.signToken text signs rest) (hsigns : signsOf signs = .ok minus) :
    Lexes text (minus.map Token.sign) rest := by
  induction h generalizing minus with
  | nil =>
    obtain rfl : minus = [] := by simpa [signsOf] using hsigns.symm
    exact .done
  | gap _ ih => exact (ih hsigns).of_dropWhile
  | cons hread _ ih =>
    simp only [signsOf, bind_eq_ok, mapError_eq_ok] at hsigns
    obtain ⟨sign, hsign, rest, hrest, heq⟩ := hsigns
    cases heq
    exact .token (sign_sound hread hsign) (ih hrest)

/-- A primary with a tree is read off an atom. -/
theorem primary_sound (hinner : Sound K inner) {read : Primary} {t : Tree K}
    (h : reads (primary inner) text = some (read, rest)) (ht : read.atom = .ok t) :
    ∃ ts, Lexes text ts rest ∧ Derives .atom ts t := by
  obtain ⟨p, hp, hread⟩ := exists_of_firstOf h
  simp only [List.mem_cons, List.not_mem_nil, or_false] at hp
  rcases hp with rfl | rfl | rfl | rfl | rfl
  · -- a number
    simp only [reads_map, reads_named, reads_scan, Option.map_map, Option.map_eq_some_iff] at hread
    obtain ⟨⟨w, rest'⟩, hscan, heq⟩ := hread
    cases heq
    cases ht
    exact ⟨_, (scanNumber_iff.1 hscan).lexes, .number w⟩
  · -- a name
    simp only [nameToken, reads_map, reads_named, reads_scan, Option.map_map,
      Option.map_eq_some_iff] at hread
    obtain ⟨⟨w, rest'⟩, hscan, heq⟩ := hread
    cases heq
    cases ht
    obtain ⟨hword, hkeyword⟩ := scanName_iff.1 hscan
    exact ⟨_, hword.lexes, .name hkeyword⟩
  · -- a phrase in parentheses
    obtain ⟨phrase, cs, mid, rfl, hphrase, hclose, rfl⟩ := reads_group_iff.1 hread
    obtain ⟨ts, hlex, hderives⟩ := hinner hphrase ht
    have hopen : ReadsOff ('(' :: cs) .opening cs :=
      readsOff_iff.2 ⟨['('], .symbol (by decide), rfl, fun _ _ => rfl⟩
    have hclosed : ReadsOff (mid.dropWhile isGap) .closing rest := by
      rw [hclose]
      exact readsOff_iff.2 ⟨[')'], .symbol (by decide), rfl, fun _ _ => rfl⟩
    refine ⟨_, .token hopen ?_, .group hderives⟩
    exact hlex.of_dropWhile.append hclosed.lexes.of_dropWhile
  · -- a quoted text has no tree, and neither have phrases in brackets
    simp only [reads_map, Option.map_eq_some_iff] at hread
    obtain ⟨r, -, heq⟩ := hread
    cases heq
    cases ht
  · rw [bracketed, reads_bind_iff] at hread
    obtain ⟨r, mid, -, heq⟩ := hread
    cases heq
    cases ht

/-- An operand with a meaning is read off the tokens of its signs and of its atom. -/
theorem operand_sound (hinner : Sound K inner) {read : Operand} {s : Signed K}
    (h : reads (operand inner) text = some (read, rest)) (hs : read.signed = .ok s) :
    ∃ ts, Lexes text ts rest ∧ IsOperand ts s := by
  obtain ⟨signs, mid, primary, mid', suffixes, hsigns, hprimary, hsuffixes, rfl⟩ :=
    reads_operand_iff.1 h
  simp only [Operand.signed, bind_eq_ok] at hs
  obtain ⟨minus, hminus, atom, hatom, ⟨⟩, hnone, heq⟩ := hs
  cases heq
  -- an operand with a suffix has no tree
  obtain rfl : suffixes = [] := by
    cases suffixes with
    | nil => rfl
    | cons suffix suffixes => cases suffix <;> cases hnone
  obtain ⟨ts, hlex, hderives⟩ := primary_sound hinner hprimary hatom
  refine ⟨minus.map Token.sign ++ ts, ?_, ts, rfl, hderives⟩
  have hatoms : Lexes mid ts rest := by
    have htail := (lexes_of_items (items_of_repeated hsuffixes)).of_dropWhile
    simpa using hlex.of_dropWhile.append htail
  exact (signs_sound (items_of_repeated hsigns) hminus).append hatoms

/-- Operators and operands with a meaning are read off their tokens. -/
theorem links_sound (hinner : Sound K inner) {links : List Link} {row : List (Operator × Signed K)}
    (h : Items (link inner) text links rest) (hrow : rowOf links = .ok row) :
    ∃ ls, Lexes text ls rest ∧ Links IsOperand ls row := by
  induction h generalizing row with
  | nil =>
    obtain rfl : row = [] := by simpa [rowOf] using hrow.symm
    exact ⟨[], .done, .nil⟩
  | gap _ ih =>
    obtain ⟨ls, hlex, hlinks⟩ := ih hrow
    exact ⟨ls, hlex.of_dropWhile, hlinks⟩
  | cons hread _ ih =>
    obtain ⟨operator, mid, operand, hoperator, hoperand, rfl⟩ := reads_link_iff.1 hread
    simp only [rowOf, bind_eq_ok, mapError_eq_ok] at hrow
    obtain ⟨op, hop, signed, hsigned, rest, hrest, heq⟩ := hrow
    cases heq
    obtain ⟨ts, hlex, his⟩ := operand_sound hinner hoperand hsigned
    obtain ⟨ls, hlex', hlinks⟩ := ih hrest
    exact ⟨_, .token (infix_sound hoperator hop) (hlex.of_dropWhile.append hlex'), .cons his hlinks⟩

/-- If the phrases inside are sound, so is the phrase around them. -/
theorem phrase_sound (hinner : Sound K inner) : Sound K (phrase inner) := by
  intro text rest read t h ht
  obtain ⟨first, mid, links, hfirst, hlinks, rfl⟩ := reads_phrase_iff.1 h
  simp only [Phrase.tree, bind_eq_ok] at ht
  obtain ⟨signed, hsigned, row, hrow, heq⟩ := ht
  cases heq
  obtain ⟨ts, hlex, his⟩ := operand_sound hinner hfirst hsigned
  obtain ⟨ls, hlex', hls⟩ := links_sound hinner (items_of_repeated hlinks) hrow
  exact ⟨ts ++ ls, hlex.append hlex'.of_dropWhile, derives_grouped his hls⟩

/-- Phrases are sound at every depth. -/
theorem phraseWithin_sound (depth : Nat) : Sound K (phraseWithin depth) := by
  induction depth with
  | zero => exact fun h _ => nomatch h
  | succ depth ih => exact phrase_sound ih

end SchoolMath.Arithmetic
