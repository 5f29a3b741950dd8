import SchoolMath.Proofs.Ocr.Letters

/-!
# `Ocr.Differential` — what rewriting differentials moves apart

The upright differential, with or without its backslash, is written as a space and `dx`. No
differential is left (`not_occurs_differential`), so a second pass finds none. But the space comes
to stand behind whatever was in front: behind an angle it is a gap, and behind a letter it ends the
word. `Detaches` says of a text that one of the two happens, and the passes over the result have
work to do exactly then (`noGap_iff`, `noLone_iff`).
-/

namespace SchoolMath.Ocr

open Text (isBlank isWord substitute collapseBlanks respace)

variable {text word rest left right front : List Char} {c : Char}

/-- The upright differential, without a backslash. -/
def differential : List Char := ['m', 'a', 't', 'h', 'r', 'm', '\x7b', 'd', 'x', '\x7d']

/-- The two spellings of the differential. -/
def IsDifferential (word : List Char) : Prop := word = differential ∨ word = '\\' :: differential

/-- A differential stands at the front of the text. -/
def StartsDifferential (text : List Char) : Prop := ∃ word, IsDifferential word ∧ word <+: text

/-- A differential stands directly behind an angle, or directly behind an `l` or `L` in front of
which there is neither a word nor a differential. -/
inductive Detaches : List Char → Prop
  | angle {before behind : List Char} (h : StartsDifferential behind) :
      Detaches (before ++ (angle ++ behind))
  | letter {front behind : List Char} {c : Char} (hc : c = 'l' ∨ c = 'L')
      (hword : endsInWord false front = false) (hfront : ¬ differential <:+ front)
      (h : StartsDifferential behind) : Detaches (front ++ c :: behind)

/-! ## One step of the pass -/

theorem differentialRule_append (h : IsDifferential word) (rest : List Char) :
    differentialRule (word ++ rest) = some ([' ', 'd', 'x'], word.length) := by
  rcases h with rfl | rfl <;> rfl

theorem differentialRule_of_not_starts (h : ¬ StartsDifferential text) :
    differentialRule text = none := by
  have hplain : Text.wordRule "mathrm\x7bdx\x7d" " dx" text = none :=
    if_neg fun hstart => h ⟨_, .inl rfl, List.isPrefixOf_iff_prefix.1 hstart⟩
  have hcommand : Text.wordRule "\\mathrm\x7bdx\x7d" " dx" text = none :=
    if_neg fun hstart => h ⟨_, .inr rfl, List.isPrefixOf_iff_prefix.1 hstart⟩
  rw [differentialRule, hcommand, hplain]

theorem eq_of_differentialRule {replacement : List Char} {n : Nat}
    (h : differentialRule text = some (replacement, n)) : replacement = [' ', 'd', 'x'] := by
  by_cases hstart : StartsDifferential text
  · obtain ⟨word, hword, rest, rfl⟩ := hstart
    rw [differentialRule_append hword] at h
    exact (Prod.mk.inj (Option.some.inj h)).1.symm
  · rw [differentialRule_of_not_starts hstart] at h
    cases h

theorem IsDifferential.ne_nil (h : IsDifferential word) : word ≠ [] := by
  rcases h with rfl | rfl <;> exact List.cons_ne_nil _ _

/-- A differential is rewritten. -/
theorem substitute_differential (h : IsDifferential word) (rest : List Char) :
    substitute differentialRule (word ++ rest) =
      [' ', 'd', 'x'] ++ substitute differentialRule rest :=
  Text.substitute_of_some h.ne_nil (differentialRule_append h rest)

/-- Elsewhere the character is copied. -/
theorem substitute_other {cs : List Char} (h : ¬ StartsDifferential (c :: cs)) :
    substitute differentialRule (c :: cs) = c :: substitute differentialRule cs :=
  Text.substitute_of_none (differentialRule_of_not_starts h)

/-- A text is read from the left: a differential, or one character. -/
@[elab_as_elim]
theorem differential_induction {motive : List Char → Prop} (text : List Char) (nil : motive [])
    (differential : ∀ word rest, IsDifferential word → motive rest → motive (word ++ rest))
    (other : ∀ c cs, ¬ StartsDifferential (c :: cs) → motive cs → motive (c :: cs)) :
    motive text := by
  induction text using Text.reading_induction StartsDifferential with
  | nil => exact nil
  | word text hstart ih =>
    obtain ⟨word, hword, rest, rfl⟩ := hstart
    refine differential word rest hword (ih _ ?_)
    have hpos : 0 < word.length := List.length_pos_of_ne_nil hword.ne_nil
    rw [List.length_append]
    omega
  | other c cs hstart ih => exact other c cs hstart ih

theorem StartsDifferential.append (h : StartsDifferential left) (right : List Char) :
    StartsDifferential (left ++ right) := by
  obtain ⟨word, hword, hstart⟩ := h
  exact ⟨word, hword, hstart.trans (List.prefix_append left right)⟩

/-- A character that is not in a differential divides the text for it, unless it is the first. -/
theorem not_startsDifferential_append {d : Char} {ds : List Char} (hc : c ∉ differential)
    (h : ¬ StartsDifferential (d :: ds)) : ¬ StartsDifferential (d :: (ds ++ c :: right)) := by
  rw [← List.cons_append]
  rintro ⟨word, rfl | rfl, hstart⟩
  · exact h ⟨_, .inl rfl, Text.starts_of_starts_append_cons hc hstart⟩
  · obtain ⟨rfl, hrest⟩ := List.cons_prefix_cons.1 hstart
    have hds := Text.starts_of_starts_append_cons hc hrest
    exact h ⟨_, .inr rfl, List.cons_prefix_cons.2 ⟨rfl, hds⟩⟩

/-! ## The result -/

/-- Unless a differential stands at the front, the result starts with what the text starts with. -/
theorem head?_differential (text : List Char) :
    StartsDifferential text ∨
      (substitute differentialRule text).head? = text.head? := by
  by_cases h : StartsDifferential text
  · exact .inl h
  · refine .inr ?_
    cases text with
    | nil => rfl
    | cons c cs =>
      rw [substitute_other h]
      rfl

/-- A word without a space at the front of the result is copied from the front of the text. -/
theorem exists_of_differential_eq_append (hspace : ' ' ∉ word)
    (h : substitute differentialRule text = word ++ right) :
    ∃ rest, text = word ++ rest ∧ substitute differentialRule rest = right :=
  Text.exists_of_substitute_eq_append
    (fun _ _ _ hrule => eq_of_differentialRule hrule ▸ rfl) hspace h

/-- The text is divided where the result is, before a character that the pass does not write. -/
theorem exists_of_differential_eq_append_cons (hc : c ∉ [' ', 'd', 'x'])
    (h : substitute differentialRule text = left ++ c :: right) :
    ∃ front behind, text = front ++ c :: behind ∧ substitute differentialRule front = left ∧
      substitute differentialRule behind = right := by
  induction text using differential_induction generalizing left with
  | nil => exact absurd h (by simp [Text.substitute_nil])
  | differential word rest hword ih =>
    rw [substitute_differential hword] at h
    obtain ⟨more, rfl, hrest⟩ := Text.exists_of_append_eq_append_cons hc h
    obtain ⟨front, behind, rfl, hfront, hbehind⟩ := ih hrest
    refine ⟨word ++ front, behind, (List.append_assoc _ _ _).symm, ?_, hbehind⟩
    rw [substitute_differential hword, hfront]
  | other d ds hother ih =>
    rw [substitute_other hother] at h
    cases left with
    | nil =>
      obtain ⟨rfl, hds⟩ := List.cons.inj h
      exact ⟨[], ds, rfl, rfl, hds⟩
    | cons e es =>
      obtain ⟨rfl, hds⟩ := List.cons.inj h
      obtain ⟨front, behind, rfl, hfront, hbehind⟩ := ih hds
      have hnot : ¬ StartsDifferential (d :: front) := fun hstart => hother (hstart.append _)
      exact ⟨d :: front, behind, rfl, by rw [substitute_other hnot, hfront], hbehind⟩

/-- The parts of a text that is divided before a character that is in no differential are rewritten
on their own. -/
theorem differential_append_cons (hc : c ∉ differential) (left right : List Char) :
    substitute differentialRule (left ++ c :: right) =
      substitute differentialRule left ++ substitute differentialRule (c :: right) := by
  induction left using differential_induction with
  | nil => rfl
  | differential word rest hword ih =>
    rw [List.append_assoc, substitute_differential hword, substitute_differential hword, ih,
      List.append_assoc]
  | other d ds hother ih =>
    rw [substitute_other hother, List.cons_append,
      substitute_other (not_startsDifferential_append hc hother), ih, List.cons_append]

/-- No differential is left. -/
theorem not_occurs_differential (text : List Char) :
    ¬ differential <:+: substitute differentialRule text := by
  induction text using differential_induction with
  | nil => exact fun h => absurd (List.infix_nil.1 h) (List.cons_ne_nil _ _)
  | differential word rest hword ih =>
    rw [substitute_differential hword]
    exact fun h => ih (Text.occurs_of_occurs_append (by decide) h)
  | other c cs hother ih =>
    intro h
    rw [substitute_other hother] at h
    rcases List.infix_cons_iff.1 h with hstart | hin
    · rw [← substitute_other hother] at hstart
      obtain ⟨right, hright⟩ := hstart
      obtain ⟨rest, hrest, -⟩ := exists_of_differential_eq_append (by decide) hright.symm
      exact hother ⟨_, .inl rfl, rest, hrest.symm⟩
    · exact ih hin

/-- Without a differential, nothing is rewritten. -/
theorem substitute_differential_eq (h : ¬ differential <:+: text) :
    substitute differentialRule text = text := by
  refine Text.substituteFrom_of_none ?_
  rintro u v rfl
  refine differentialRule_of_not_starts ?_
  rintro ⟨word, rfl | rfl, hstart⟩
  · exact h (hstart.isInfix.trans (List.suffix_append u v).isInfix)
  · have hplain : differential <:+: '\\' :: differential := (List.suffix_cons _ _).isInfix
    exact h (hplain.trans (hstart.isInfix.trans (List.suffix_append u v).isInfix))

/-! ## The end of the result -/

/-- A differential at the end of a text does not overlap another one. -/
theorem suffix_of_suffix_differential (hword : IsDifferential word) (hrest : rest ≠ [])
    (h : differential <:+ word ++ rest) : differential <:+ rest := by
  by_contra hnot
  have hlength : rest.length ≤ differential.length := by
    by_contra hlt
    exact hnot (List.suffix_of_suffix_length_le h (List.suffix_append word rest) (by omega))
  obtain ⟨more, hmore⟩ := List.suffix_of_suffix_length_le (List.suffix_append word rest) h hlength
  obtain ⟨before, hbefore⟩ := h
  rw [← hmore, ← List.append_assoc] at hbefore
  have hword' : word = before ++ more := (List.append_cancel_right hbefore).symm
  -- the word ends with its brace, and so does the part of the differential that lies in it
  have hbrace : '\x7d' ∈ more := by
    have hlast : word.getLast? = some '\x7d' := by rcases hword with rfl | rfl <;> rfl
    have hne : more ≠ [] := by
      rintro rfl
      exact hnot ⟨[], hmore ▸ rfl⟩
    rw [hword', List.getLast?_append_of_ne_nil _ hne] at hlast
    exact List.mem_of_getLast? hlast
  have hinner : '\x7d' ∈ differential.dropLast := by
    rw [← hmore, List.dropLast_append_of_ne_nil hrest]
    exact List.mem_append_left _ hbrace
  exact absurd hinner (by decide)

theorem getLast?_differential (h : differential <:+ text) :
    (substitute differentialRule text).getLast? = some 'x' := by
  induction text using differential_induction with
  | nil => exact absurd (List.suffix_nil.1 h) (List.cons_ne_nil _ _)
  | differential word rest hword ih =>
    rw [substitute_differential hword]
    by_cases hrest : rest = []
    · subst hrest
      rfl
    · have hend := ih (suffix_of_suffix_differential hword hrest h)
      rw [List.getLast?_append, hend]
      rfl
  | other c cs hother ih =>
    rw [substitute_other hother]
    rcases List.suffix_cons_iff.1 h with heq | hcs
    · exact absurd ⟨_, .inl rfl, heq ▸ List.prefix_rfl⟩ hother
    · rw [List.getLast?_cons, ih hcs]
      rfl

theorem getLast?_differential_of_not (h : ¬ differential <:+ text) :
    (substitute differentialRule text).getLast? = text.getLast? := by
  induction text using differential_induction with
  | nil => rfl
  | differential word rest hword ih =>
    have hrest : rest ≠ [] := by
      rintro rfl
      rcases hword with rfl | rfl
      · exact h ⟨[], rfl⟩
      · exact h ⟨['\\'], rfl⟩
    have hend := ih fun hsuffix => h (hsuffix.trans (List.suffix_append word rest))
    rw [substitute_differential hword, List.getLast?_append, hend, List.getLast?_append]
    cases hlast : rest.getLast? with
    | none => exact absurd (List.getLast?_eq_none_iff.1 hlast) hrest
    | some c => rfl
  | other c cs hother ih =>
    rw [substitute_other hother, List.getLast?_cons, List.getLast?_cons,
      ih fun hsuffix => h (hsuffix.trans (List.suffix_cons c cs))]

/-- A word is under way behind the result if one is behind the text, or a differential. -/
theorem endsInWord_differential : endsInWord false (substitute differentialRule front) = false ↔
    endsInWord false front = false ∧ ¬ differential <:+ front := by
  by_cases h : differential <:+ front
  · rw [endsInWord, getLast?_differential h]
    exact iff_of_false (by decide +kernel) fun hboth => hboth.2 h
  · rw [endsInWord, getLast?_differential_of_not h, endsInWord]
    exact ⟨fun hword => ⟨hword, h⟩, And.left⟩

/-! ## What is moved apart -/

theorem respace_differential (h : StartsDifferential text) :
    ∃ right, respace (substitute differentialRule text) = ' ' :: right := by
  obtain ⟨word, hword, rest, rfl⟩ := h
  rw [substitute_differential hword, List.cons_append, Text.respace_blank Text.isBlank_space,
    List.cons_append, Text.collapseBlanks_cons rfl]
  exact ⟨_, rfl⟩

theorem differential_angle (rest : List Char) :
    substitute differentialRule (angle ++ rest) = angle ++ substitute differentialRule rest := rfl

/-- A gap is made where a differential stands behind an angle. -/
theorem noGap_iff (h : NoGap text) : NoGap (collapseBlanks (substitute differentialRule text)) ↔
    ¬ ∃ before behind, text = before ++ (angle ++ behind) ∧ StartsDifferential behind := by
  constructor
  · rintro hgap ⟨before, behind, rfl, hbehind⟩
    have hdivided : substitute differentialRule (before ++ (angle ++ behind)) =
        substitute differentialRule before ++ (angle ++ substitute differentialRule behind) := by
      rw [← differential_angle]
      exact differential_append_cons (by decide) before _
    obtain ⟨left, hleft⟩ := Text.exists_collapseBlanks_append (List.cons_ne_nil _ _)
      (fun _ hd => isBlank_of_mem_angle hd) (substitute differentialRule before)
      (substitute differentialRule behind)
    obtain ⟨right, hright⟩ := respace_differential hbehind
    refine hgap ' ' rfl ⟨left, right, ?_⟩
    rw [hdivided, angle, hleft, hright]
    simp
  · rintro hnone b hb ⟨left, right, hin⟩
    rw [List.append_assoc, List.append_assoc] at hin
    obtain ⟨before, after, hdivided, hafter⟩ := Text.exists_of_collapseBlanks_eq_append
      (List.cons_ne_nil _ _) (fun _ hd => isBlank_of_mem_angle hd) hin.symm
    obtain ⟨front, tail, rfl, -, htail⟩ := exists_of_differential_eq_append_cons
      (by decide) hdivided
    obtain ⟨behind, rfl, rfl⟩ := exists_of_differential_eq_append (by decide) htail
    obtain ⟨d, ds, hds, hd⟩ := Text.exists_of_respace_eq_blank hb hafter
    rcases head?_differential behind with hstart | hhead
    · exact hnone ⟨front, behind, rfl, hstart⟩
    · -- the blank stood in the text already
      rw [hds] at hhead
      obtain ⟨es, rfl⟩ := List.head?_eq_some_iff.1 hhead.symm
      refine h d hd ⟨front, es, ?_⟩
      rw [List.append_assoc, List.append_assoc]
      rfl

theorem not_startsDifferential_letter (hc : c = 'l' ∨ c = 'L') :
    ¬ StartsDifferential (c :: text) := by
  rintro ⟨word, hword, hstart⟩
  rcases hword with rfl | rfl <;> rcases hc with rfl | rfl <;>
    exact absurd (List.cons_prefix_cons.1 hstart).1 (by decide)

theorem startsWithWord_eq_of_head?_eq (h : left.head? = right.head?) :
    startsWithWord left = startsWithWord right := by
  cases left <;> cases right <;> simp_all [startsWithWord]

/-- A letter comes to stand alone where a differential stands behind it and no word before it. -/
theorem noLone_iff (h : loneLetters false text = text) :
    loneLetters false (substitute differentialRule text) = substitute differentialRule text ↔
      ¬ ∃ front c behind, text = front ++ c :: behind ∧ (c = 'l' ∨ c = 'L') ∧
        endsInWord false front = false ∧ ¬ differential <:+ front ∧ StartsDifferential behind := by
  rw [loneLetters_eq_self_iff] at h ⊢
  constructor
  · rintro hlone ⟨front, c, behind, rfl, hc, hword, hfront, word, hdifferential, rest, rfl⟩
    have hmem : c ∉ differential := by rcases hc with rfl | rfl <;> decide
    refine hlone (substitute differentialRule front) c
      (substitute differentialRule (word ++ rest)) ?_ ⟨hc, ?_, ?_⟩
    · rw [differential_append_cons hmem, substitute_other (not_startsDifferential_letter hc)]
    · exact endsInWord_differential.2 ⟨hword, hfront⟩
    · rw [substitute_differential hdifferential]
      exact not_isWord_of_isBlank Text.isBlank_space
  · rintro hnone front c rest hdivided ⟨hc, hword, hrest⟩
    have hmem : c ∉ [' ', 'd', 'x'] := by rcases hc with rfl | rfl <;> decide
    obtain ⟨front, behind, rfl, rfl, rfl⟩ := exists_of_differential_eq_append_cons hmem hdivided
    obtain ⟨hword, hfront⟩ := endsInWord_differential.1 hword
    rcases head?_differential behind with hstart | hhead
    · exact hnone ⟨front, c, behind, rfl, hc, hword, hfront, hstart⟩
    · -- the letter stood alone in the text already
      rw [startsWithWord_eq_of_head?_eq hhead] at hrest
      exact h front c behind rfl ⟨hc, hword, hrest⟩

end SchoolMath.Ocr
