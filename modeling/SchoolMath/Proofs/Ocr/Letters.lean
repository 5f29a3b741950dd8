import SchoolMath.Ocr
import SchoolMath.Proofs.Text.Collapse
import SchoolMath.Proofs.Text.Occurrence

/-!
# `Ocr.Letters` — signs, angles and letters as they were meant

Cleaning replaces signs, takes the blanks off behind `\angle` and reads a lone `l` and every `O` as
digits before it looks for differentials. `lettered` is the text after these passes. None of them
makes work for one before it, so together they leave a text that they do not change
(`isLettered_lettered`, `IsLettered.lettered_eq`), and it stays one when its blanks are collapsed
(`IsLettered.collapseBlanks`).
-/

namespace SchoolMath.Ocr

open Text (isBlank isWord substitute collapseBlanks respace trimStart Marked)

variable {text rest front : List Char} {inWord : Bool} {c : Char}

/-- The text with every `O` read as `0`. -/
def readZeros (text : List Char) : List Char := text.map fun c => if c == 'O' then '0' else c

/-- The text with signs and letters as they were meant, before differentials are rewritten. -/
def lettered (text : List Char) : List Char :=
  readZeros (loneLetters false (substitute angleRule (Text.replaceEach signs text)))

/-! ## Signs -/

/-- A text without the signs that are replaced. -/
def NoSign (text : List Char) : Prop := ∀ p ∈ signs, ∀ c ∈ p.1.toList, c ∉ text

/-- Each sign is one character, and none is written for another. -/
theorem noSign_replaceEach : NoSign (Text.replaceEach signs text) := by
  refine Text.not_mem_replaceEach ?_
  have hlength : ∀ p ∈ signs, p.1.toList.length = 1 := by simp [signs]
  have hfree : ∀ p ∈ signs, ∀ c ∈ p.1.toList, ∀ q ∈ signs, c ∉ q.2.toList := by simp [signs]
  intro p hp
  obtain ⟨c, hc⟩ := List.length_eq_one_iff.1 (hlength p hp)
  exact ⟨c, hc, hfree p hp c (by simp [hc])⟩

theorem NoSign.replaceEach_eq (h : NoSign text) : Text.replaceEach signs text = text := by
  have hne : ∀ p ∈ signs, p.1.toList ≠ [] := by simp [signs]
  refine Text.replaceEach_of_not_mem fun p hp => ?_
  obtain ⟨c, cs, hcs⟩ := List.exists_cons_of_ne_nil (hne p hp)
  exact ⟨c, by simp [hcs], h p hp c (by simp [hcs])⟩

/-! ## Angles -/

/-- The word that is written for an angle sign. -/
def angle : List Char := ['\\', 'a', 'n', 'g', 'l', 'e']

theorem angleRule_append (rest : List Char) :
    angleRule (angle ++ rest) = some (angle, (angle ++ rest.takeWhile isBlank).length) := by
  have hstart : angle.isPrefixOf (angle ++ rest) = true :=
    List.isPrefixOf_iff_prefix.2 (List.prefix_append angle rest)
  show (if angle.isPrefixOf (angle ++ rest) = true then
    some (angle, angle.length + (((angle ++ rest).drop angle.length).takeWhile isBlank).length)
    else none) = _
  rw [if_pos hstart, List.drop_left, List.length_append]

theorem angleRule_of_not_starts (h : ¬ angle <+: text) : angleRule text = none :=
  if_neg fun hstart => h (List.isPrefixOf_iff_prefix.1 hstart)

theorem eq_angle_of_angleRule {replacement : List Char} {n : Nat}
    (h : angleRule text = some (replacement, n)) : replacement = angle := by
  obtain ⟨-, heq⟩ := Option.ite_none_right_eq_some.1 h
  exact (Prod.mk.inj (Option.some.inj heq)).1.symm

/-- The blanks behind an angle are left out. -/
theorem substitute_angle (rest : List Char) :
    substitute angleRule (angle ++ rest) = angle ++ substitute angleRule (trimStart rest) := by
  have hsplit : rest = rest.takeWhile isBlank ++ trimStart rest :=
    (List.takeWhile_append_dropWhile (p := isBlank) (l := rest)).symm
  have hrule : angleRule ((angle ++ rest.takeWhile isBlank) ++ trimStart rest) =
      some (angle, (angle ++ rest.takeWhile isBlank).length) := by
    rw [List.append_assoc, ← hsplit, angleRule_append]
  have hword : angle ++ rest.takeWhile isBlank ≠ [] := List.cons_ne_nil _ _
  have h := Text.substitute_of_some hword hrule
  rwa [List.append_assoc, ← hsplit] at h

/-- A text is read from the left: an angle with the blanks behind it, or one character. -/
@[elab_as_elim]
theorem angle_induction {motive : List Char → Prop} (text : List Char) (nil : motive [])
    (angle : ∀ rest, motive (trimStart rest) → motive (angle ++ rest))
    (other : ∀ c cs, ¬ Ocr.angle <+: c :: cs → motive cs → motive (c :: cs)) : motive text := by
  induction text using Text.reading_induction (Ocr.angle <+: ·) with
  | nil => exact nil
  | word text hstart ih =>
    obtain ⟨rest, rfl⟩ := hstart
    refine angle rest (ih _ ?_)
    have hle : (trimStart rest).length ≤ rest.length := (List.dropWhile_suffix _).length_le
    have hpos : 0 < Ocr.angle.length := by decide
    rw [List.length_append]
    omega
  | other c cs hstart ih => exact other c cs hstart ih

/-- No blank stands behind an angle. -/
def NoGap (text : List Char) : Prop := ∀ b, isBlank b = true → ¬ angle ++ [b] <:+: text

theorem NoGap.of_suffix (h : NoGap text) (hsuffix : rest <:+ text) : NoGap rest :=
  fun b hb hin => h b hb (hin.trans hsuffix.isInfix)

/-- A word without a backslash at the front of the result stands at the front of the text. -/
theorem starts_of_starts_angle {word : List Char} (hword : '\\' ∉ word)
    (h : word <+: substitute angleRule text) : word <+: text := by
  obtain ⟨right, hright⟩ := h
  obtain ⟨rest, rfl, -⟩ := Text.exists_of_substitute_eq_append
    (fun _ _ _ hrule => eq_angle_of_angleRule hrule ▸ rfl) hword hright.symm
  exact List.prefix_append word rest

theorem isBlank_of_mem_head?_trimStart (h : c ∈ (trimStart rest).head?) : isBlank c = false := by
  have hnot := List.head?_dropWhile_not isBlank rest
  rw [trimStart] at h
  rw [Option.mem_def.1 h] at hnot
  simpa using hnot

theorem noGap_angle (text : List Char) : NoGap (substitute angleRule text) := by
  intro b hb
  have hbackslash : '\\' ∉ ([b] : List Char) := by
    intro hmem
    obtain rfl := List.mem_singleton.1 hmem
    exact absurd hb (by decide)
  induction text using angle_induction with
  | nil => exact fun h => absurd (List.infix_nil.1 h) (List.cons_ne_nil _ _)
  | angle rest ih =>
    rw [substitute_angle]
    intro h
    rcases List.infix_cons_iff.1 h with hstart | hin
    · -- an angle in front of the rest: the blank behind it was left out
      have hblank : [b] <+: substitute angleRule (trimStart rest) :=
        (List.prefix_append_right_inj angle).1 hstart
      obtain ⟨right, hright⟩ := starts_of_starts_angle hbackslash hblank
      have hmem : b ∈ (trimStart rest).head? := by
        rw [← hright]
        rfl
      have hfirst := isBlank_of_mem_head?_trimStart hmem
      rw [hb] at hfirst
      cases hfirst
    · have hleft : '\\' ∉ angle.tail := by decide
      exact ih (Text.occurs_of_occurs_append hleft hin)
  | other c cs hother ih =>
    rw [Text.substitute_of_none (angleRule_of_not_starts hother)]
    intro h
    rcases List.infix_cons_iff.1 h with hstart | hin
    · obtain ⟨rfl, htail⟩ := List.cons_prefix_cons.1 hstart
      have hword : angle.tail <+: substitute angleRule cs :=
        (List.prefix_append angle.tail [b]).trans htail
      have hcs := starts_of_starts_angle (by decide) hword
      exact hother (List.cons_prefix_cons.2 ⟨rfl, hcs⟩)
    · exact ih hin

theorem NoGap.substitute_eq (h : NoGap text) : substitute angleRule text = text := by
  induction text using angle_induction with
  | nil => rfl
  | angle rest ih =>
    have htrim : trimStart rest = rest := by
      cases rest with
      | nil => rfl
      | cons b bs =>
        have hb : ¬ isBlank b = true := by
          intro hb
          refine h b hb ⟨[], bs, ?_⟩
          rw [List.nil_append, List.append_assoc, List.singleton_append]
        rw [trimStart, List.dropWhile_cons_of_neg hb]
    rw [htrim] at ih
    rw [substitute_angle, htrim, ih (h.of_suffix (List.suffix_append angle rest))]
  | other c cs hother ih =>
    rw [Text.substitute_of_none (angleRule_of_not_starts hother),
      ih (h.of_suffix (List.suffix_cons c cs))]

/-- No word comes to stand in the text by leaving out blanks behind an angle, unless it shares
characters with that. -/
theorem occurs_of_occurs_angle {word : List Char} (hc : c ∉ angle) (hword : '\\' ∉ c :: word)
    (h : c :: word <:+: substitute angleRule text) : c :: word <:+: text := by
  induction text using angle_induction with
  | nil => exact h
  | angle rest ih =>
    rw [substitute_angle] at h
    have htrim := ih (Text.occurs_of_occurs_append hc h)
    have hrest := htrim.trans (List.dropWhile_suffix isBlank).isInfix
    exact hrest.trans (List.suffix_append angle rest).isInfix
  | other d ds hother ih =>
    have hcopied := Text.substitute_of_none (angleRule_of_not_starts hother)
    rw [hcopied] at h
    rcases List.infix_cons_iff.1 h with hstart | hin
    · rw [← hcopied] at hstart
      exact (starts_of_starts_angle hword hstart).isInfix
    · exact (ih hin).trans (List.suffix_cons d ds).isInfix

/-- Characters of an angle apart, the text with its blanks left out has no new characters. -/
theorem mem_of_mem_angle (hc : c ∉ angle) (h : c ∈ substitute angleRule text) : c ∈ text := by
  refine Text.mem_of_mem_substitute ?_ h
  intro u replacement n hrule
  rwa [eq_angle_of_angleRule hrule]

/-! ## Lone letters -/

/-- No blank is part of a word. -/
theorem not_isWord_of_isBlank (hc : isBlank c = true) : isWord c = false := by
  have key : ∀ r ∈ Text.blankCharacters.ranges, ∀ s ∈ Text.wordCharacters.ranges,
      r.2 < s.1 ∨ s.2 < r.1 := by
    decide +kernel
  obtain ⟨r, hr, hin⟩ := List.any_eq_true.1 hc
  rw [isWord, Text.CharSet.contains, List.any_eq_false]
  intro s hs
  have hapart := key r hr s hs
  simp only [Bool.and_eq_true, decide_eq_true_eq] at hin ⊢
  omega

/-- A letter that is read as `1`: no word character stands beside it. -/
def IsLone (inWord : Bool) (c : Char) (rest : List Char) : Prop :=
  (c = 'l' ∨ c = 'L') ∧ inWord = false ∧ startsWithWord rest = false

theorem loneLetters_of_isLone (h : IsLone inWord c rest) :
    loneLetters inWord (c :: rest) = '1' :: loneLetters true rest := by
  obtain ⟨hc | hc, hword, hrest⟩ := h <;>
    · subst hc
      rw [loneLetters, hword, hrest]
      rfl

theorem loneLetters_of_not_isLone (h : ¬ IsLone inWord c rest) :
    loneLetters inWord (c :: rest) = c :: loneLetters (isWord c) rest := by
  rw [loneLetters, if_neg]
  simpa [IsLone, and_assoc] using h

theorem isWord_of_isLone (h : IsLone inWord c rest) : isWord c = true := by
  obtain ⟨rfl | rfl, -⟩ := h <;> rfl

theorem not_isLone_one : ¬ IsLone inWord '1' rest := fun h => absurd h.1 (by decide)

/-- Reading lone letters does not change where words start. -/
theorem startsWithWord_loneLetters (text : List Char) :
    startsWithWord (loneLetters inWord text) = startsWithWord text := by
  cases text with
  | nil => rfl
  | cons c cs =>
    by_cases h : IsLone inWord c cs
    · rw [loneLetters_of_isLone h]
      exact (isWord_of_isLone h).symm
    · rw [loneLetters_of_not_isLone h]
      rfl

theorem loneLetters_idem (inWord : Bool) (text : List Char) :
    loneLetters inWord (loneLetters inWord text) = loneLetters inWord text := by
  induction text generalizing inWord with
  | nil => rfl
  | cons c cs ih =>
    by_cases h : IsLone inWord c cs
    · rw [loneLetters_of_isLone h, loneLetters_of_not_isLone not_isLone_one]
      exact congrArg _ (ih true)
    · rw [loneLetters_of_not_isLone h, loneLetters_of_not_isLone, ih]
      rwa [IsLone, startsWithWord_loneLetters]

/-- The characters stay where they are, and only an `l` or `L` is exchanged. -/
theorem forall₂_loneLetters (inWord : Bool) (text : List Char) :
    List.Forall₂ (fun c d => d = c ∨ (c = 'l' ∨ c = 'L') ∧ d = '1') text
      (loneLetters inWord text) := by
  induction text generalizing inWord with
  | nil => exact .nil
  | cons c cs ih =>
    by_cases h : IsLone inWord c cs
    · rw [loneLetters_of_isLone h]
      exact .cons (.inr ⟨h.1, rfl⟩) (ih true)
    · rw [loneLetters_of_not_isLone h]
      exact .cons (.inl rfl) (ih (isWord c))

theorem marked_loneLetters (inWord : Bool) (text : List Char) :
    Marked '1' text (loneLetters inWord text) :=
  (forall₂_loneLetters inWord text).imp fun _ _ h => h.imp_right And.right

theorem sameBlanks_loneLetters (inWord : Bool) (text : List Char) :
    Text.SameBlanks text (loneLetters inWord text) := by
  refine (forall₂_loneLetters inWord text).imp ?_
  rintro c d (rfl | ⟨rfl | rfl, rfl⟩)
  · exact .inl rfl
  · exact .inr ⟨rfl, rfl⟩
  · exact .inr ⟨rfl, rfl⟩

/-- Whether a word is under way behind the text, if `inWord` says so of its front. -/
def endsInWord (inWord : Bool) (text : List Char) : Bool := (text.getLast?.map isWord).getD inWord

theorem endsInWord_cons (text : List Char) :
    endsInWord inWord (c :: text) = endsInWord (isWord c) text := by
  rw [endsInWord, endsInWord, List.getLast?_cons]
  cases text.getLast? <;> rfl

/-- A text keeps its letters if none of them stands alone. -/
theorem loneLetters_eq_self_iff : loneLetters inWord text = text ↔
    ∀ front c rest, text = front ++ c :: rest → ¬ IsLone (endsInWord inWord front) c rest := by
  induction text generalizing inWord with
  | nil => exact iff_of_true rfl fun front c rest h => absurd h (by simp)
  | cons d ds ih =>
    by_cases hd : IsLone inWord d ds
    · rw [loneLetters_of_isLone hd]
      refine iff_of_false ?_ fun h => h [] d ds rfl hd
      intro heq
      obtain ⟨rfl, -⟩ := List.cons.inj heq
      exact not_isLone_one hd
    · rw [loneLetters_of_not_isLone hd, List.cons_inj_right, ih]
      constructor
      · intro h front c rest htext
        cases front with
        | nil =>
          obtain ⟨rfl, rfl⟩ := List.cons.inj htext
          exact hd
        | cons e es =>
          obtain ⟨rfl, hds⟩ := List.cons.inj htext
          rw [endsInWord_cons]
          exact h es c rest hds
      · intro h front c rest hds
        have hnot := h (d :: front) c rest (by rw [hds, List.cons_append])
        rwa [endsInWord_cons] at hnot

/-! ## Zeros -/

theorem startsWithWord_readZeros (text : List Char) :
    startsWithWord (readZeros text) = startsWithWord text := by
  cases text with
  | nil => rfl
  | cons c cs =>
    by_cases hc : c = 'O'
    · subst hc
      rfl
    · show isWord (if c == 'O' then '0' else c) = isWord c
      rw [if_neg (by simpa using hc)]

/-- Zeros and lone letters are read independently. -/
theorem loneLetters_readZeros (inWord : Bool) (text : List Char) :
    loneLetters inWord (readZeros text) = readZeros (loneLetters inWord text) := by
  induction text generalizing inWord with
  | nil => rfl
  | cons c cs ih =>
    by_cases h : IsLone inWord c cs
    · have hc : c ≠ 'O' := by
        obtain ⟨rfl | rfl, -⟩ := h <;> decide
      have hread : readZeros (c :: cs) = c :: readZeros cs := by simp [readZeros, hc]
      have hlone : IsLone inWord c (readZeros cs) := by rwa [IsLone, startsWithWord_readZeros]
      rw [hread, loneLetters_of_isLone hlone, loneLetters_of_isLone h, ih]
      rfl
    · rw [loneLetters_of_not_isLone h]
      by_cases hc : c = 'O'
      · subst hc
        have hzero : ¬ IsLone inWord '0' (readZeros cs) := fun h => absurd h.1 (by decide)
        show loneLetters inWord ('0' :: readZeros cs) = '0' :: readZeros _
        rw [loneLetters_of_not_isLone hzero, ← ih]
        rfl
      · have hread : ∀ ds, readZeros (c :: ds) = c :: readZeros ds := by simp [readZeros, hc]
        rw [hread, hread, loneLetters_of_not_isLone, ih]
        rwa [IsLone, startsWithWord_readZeros]

theorem marked_readZeros (text : List Char) : Marked '0' text (readZeros text) := by
  induction text with
  | nil => exact .nil
  | cons c cs ih =>
    refine .cons ?_ ih
    by_cases hc : c = 'O' <;> simp [hc]

theorem readZeros_eq (h : 'O' ∉ text) : readZeros text = text := by
  have hsame : ∀ c ∈ text, (if c == 'O' then '0' else c) = id c := by
    intro c hc
    rw [if_neg, id_eq]
    rintro hO
    rw [beq_iff_eq.1 hO] at hc
    exact h hc
  rw [readZeros, List.map_congr_left hsame, List.map_id]

theorem not_mem_readZeros (text : List Char) : 'O' ∉ readZeros text := by
  intro h
  obtain ⟨c, -, hc⟩ := List.mem_map.1 h
  by_cases hO : c = 'O' <;> simp [hO] at hc

/-! ## The passes together -/

/-- What the passes before the differentials leave, and what they do not change. -/
structure IsLettered (text : List Char) : Prop where
  noSign : NoSign text
  noGap : NoGap text
  noLone : loneLetters false text = text
  noO : 'O' ∉ text

/-- Behind the signs, the passes leave angles and digits only. -/
theorem NoSign.lettered (h : NoSign text) :
    NoSign (readZeros (loneLetters false (substitute angleRule text))) := by
  have hfree : ∀ p ∈ signs, ∀ c ∈ p.1.toList, c ∉ angle ∧ c ≠ '1' ∧ c ≠ '0' := by
    simp [signs, angle]
  intro p hp c hc hmem
  obtain ⟨hangle, hone, hzero⟩ := hfree p hp c hc
  have hlone := Text.mem_of_marked (marked_readZeros _) hzero hmem
  have hgap := Text.mem_of_marked (marked_loneLetters _ _) hone hlone
  exact h p hp c hc (mem_of_mem_angle hangle hgap)

/-- No gap comes to stand in the text by reading letters as digits. -/
theorem NoGap.lettered (h : NoGap text) : NoGap (readZeros (loneLetters false text)) := by
  intro b hb hin
  have hfree : ∀ d, isBlank d = false → d ∉ angle → d ∉ angle ++ [b] := by
    intro d hd hangle hmem
    rcases List.mem_append.1 hmem with hmem | hmem
    · exact hangle hmem
    · rw [List.mem_singleton.1 hmem, hb] at hd
      cases hd
  have hzero := Text.occurs_of_marked (marked_readZeros _) (hfree '0' rfl (by decide)) hin
  exact h b hb (Text.occurs_of_marked (marked_loneLetters _ _) (hfree '1' rfl (by decide)) hzero)

theorem isLettered_lettered (text : List Char) : IsLettered (lettered text) where
  noSign := noSign_replaceEach.lettered
  noGap := (noGap_angle _).lettered
  noLone := by rw [lettered, loneLetters_readZeros, loneLetters_idem]
  noO := not_mem_readZeros _

theorem IsLettered.lettered_eq (h : IsLettered text) : lettered text = text := by
  rw [lettered, h.noSign.replaceEach_eq, h.noGap.substitute_eq, h.noLone, readZeros_eq h.noO]

/-- A word comes to stand in a text without signs only by characters that the passes write. -/
theorem occurs_of_occurs_lettered {word : List Char} (htext : NoSign text) (hc : c ∉ angle)
    (hbackslash : '\\' ∉ c :: word) (hone : '1' ∉ c :: word) (hzero : '0' ∉ c :: word)
    (h : c :: word <:+: lettered text) : c :: word <:+: text := by
  rw [lettered, htext.replaceEach_eq] at h
  have hlone := Text.occurs_of_marked (marked_readZeros _) hzero h
  have hgap := Text.occurs_of_marked (marked_loneLetters _ _) hone hlone
  exact occurs_of_occurs_angle hc hbackslash hgap

/-! ## Collapsed blanks

No pass looks at how blanks are written: where a word starts, where a letter stands alone and whether an
angle has a blank behind it are the same in the collapsed text. -/

theorem startsWithWord_spaced (text : List Char) : startsWithWord (Text.spaced text) = false := by
  cases text with
  | nil => rfl
  | cons c cs => exact not_isWord_of_isBlank Text.isBlank_space

theorem startsWithWord_respace (text : List Char) :
    startsWithWord (respace text) = startsWithWord text := by
  cases text with
  | nil => rfl
  | cons c cs =>
    by_cases hc : isBlank c = true
    · rw [Text.respace_blank hc, startsWithWord_spaced]
      exact (not_isWord_of_isBlank hc).symm
    · rw [Text.respace_cons (by simpa using hc)]
      rfl

theorem loneLetters_blank (hc : isBlank c = true) (text : List Char) :
    loneLetters inWord (c :: text) = c :: loneLetters false text := by
  have hnot : ¬ IsLone inWord c text := by
    intro h
    have hword := isWord_of_isLone h
    rw [not_isWord_of_isBlank hc] at hword
    cases hword
  rw [loneLetters_of_not_isLone hnot, not_isWord_of_isBlank hc]

theorem loneLetters_spaced (text : List Char) :
    loneLetters inWord (Text.spaced text) = Text.spaced (loneLetters false text) := by
  cases text with
  | nil => rfl
  | cons c cs =>
    rw [Text.spaced, loneLetters_blank Text.isBlank_space]
    exact (Text.spaced_of_ne_nil (List.cons_ne_nil _ _)).symm

theorem loneLetters_collapse (text : List Char) :
    loneLetters false (collapseBlanks text) = collapseBlanks (loneLetters false text) ∧
      ∀ inWord, loneLetters inWord (respace text) = respace (loneLetters inWord text) := by
  induction text with
  | nil => exact ⟨rfl, fun _ => rfl⟩
  | cons c cs ih =>
    obtain ⟨ihCollapse, ihRespace⟩ := ih
    by_cases hc : isBlank c = true
    · rw [loneLetters_blank hc, Text.collapseBlanks_blank hc, Text.collapseBlanks_blank hc]
      refine ⟨ihCollapse, fun inWord => ?_⟩
      rw [loneLetters_blank hc, Text.respace_blank hc, Text.respace_blank hc, loneLetters_spaced,
        ihCollapse]
    · replace hc : isBlank c = false := by simpa using hc
      have key : ∀ inWord, ∃ d, isBlank d = false ∧
          loneLetters inWord (c :: cs) = d :: loneLetters (isWord c) cs ∧
          loneLetters inWord (c :: respace cs) = d :: respace (loneLetters (isWord c) cs) := by
        intro inWord
        by_cases h : IsLone inWord c cs
        · have hrespace : IsLone inWord c (respace cs) := by rwa [IsLone, startsWithWord_respace]
          rw [loneLetters_of_isLone h, loneLetters_of_isLone hrespace, isWord_of_isLone h,
            ihRespace]
          exact ⟨'1', rfl, rfl, rfl⟩
        · have hrespace : ¬ IsLone inWord c (respace cs) := by rwa [IsLone, startsWithWord_respace]
          rw [loneLetters_of_not_isLone h, loneLetters_of_not_isLone hrespace, ihRespace]
          exact ⟨c, hc, rfl, rfl⟩
      refine ⟨?_, fun inWord => ?_⟩
      · obtain ⟨d, hd, htext, hrespace⟩ := key false
        rw [Text.collapseBlanks_cons hc, hrespace, htext, Text.collapseBlanks_cons hd]
      · obtain ⟨d, hd, htext, hrespace⟩ := key inWord
        rw [Text.respace_cons hc, hrespace, htext, Text.respace_cons hd]

/-- Lone letters of a text are lone letters of the collapsed text. -/
theorem loneLetters_collapseBlanks_eq_iff :
    loneLetters false (collapseBlanks text) = collapseBlanks text ↔
      loneLetters false text = text := by
  rw [(loneLetters_collapse text).1]
  refine ⟨fun h => ?_, fun h => by rw [h]⟩
  exact ((Text.eq_of_collapse_eq (sameBlanks_loneLetters false text)).1 h.symm).symm

theorem isBlank_of_mem_angle (hc : c ∈ angle) : isBlank c = false := by
  fin_cases hc <;> rfl

theorem NoGap.collapseBlanks (h : NoGap text) : NoGap (collapseBlanks text) := by
  rintro b hb ⟨left, right, hin⟩
  rw [List.append_assoc, List.append_assoc] at hin
  obtain ⟨before, after, rfl, hafter⟩ := Text.exists_of_collapseBlanks_eq_append
    (List.cons_ne_nil _ _) (fun _ hd => isBlank_of_mem_angle hd) hin.symm
  obtain ⟨d, ds, rfl, hd⟩ := Text.exists_of_respace_eq_blank hb hafter
  refine h d hd ⟨before, ds, ?_⟩
  rw [List.append_assoc, List.append_assoc]
  rfl

/-- Collapsing blanks makes no new work for the passes. -/
theorem IsLettered.collapseBlanks (h : IsLettered text) : IsLettered (collapseBlanks text) where
  noSign := by
    have hspace : ∀ p ∈ signs, ' ' ∉ p.1.toList := by simp [signs]
    intro p hp c hc hmem
    rcases Text.mem_of_mem_collapseBlanks hmem with hmem | rfl
    · exact h.noSign p hp c hc hmem
    · exact hspace p hp hc
  noGap := h.noGap.collapseBlanks
  noLone := loneLetters_collapseBlanks_eq_iff.2 h.noLone
  noO hmem := by
    rcases Text.mem_of_mem_collapseBlanks hmem with hmem | heq
    · exact h.noO hmem
    · exact absurd heq (by decide)

end SchoolMath.Ocr
