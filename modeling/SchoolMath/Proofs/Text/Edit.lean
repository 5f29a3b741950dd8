import Mathlib
import SchoolMath.Text.Blank
import SchoolMath.Text.Replace

/-!
# `Text.Edit` — what replacing and trimming leave alone

A word whose first character does not occur is not replaced, and trimming takes only blanks, off the
ends.
-/

namespace SchoolMath.Text

/-! ## Replacing -/

/-- Nothing is replaced where the rule never applies. -/
theorem substituteFrom_of_none {rule : List Char → Option (List Char × Nat)} {text : List Char}
    (h : ∀ u v, text = u ++ v → rule v = none) : substituteFrom rule 0 text = text := by
  induction text with
  | nil => rfl
  | cons c cs ih =>
    have hrest : substituteFrom rule 0 cs = cs := by
      refine ih fun u v huv => h (c :: u) v ?_
      rw [huv, List.cons_append]
    rw [substituteFrom, h [] (c :: cs) rfl]
    exact congrArg (c :: ·) hrest

/-- A word is not replaced where its first character does not occur. -/
theorem replaceAll_of_not_mem {pattern replacement : String} {text : List Char} {c : Char}
    (hc : c ∈ pattern.toList.head?) (h : c ∉ text) :
    replaceAll pattern replacement text = text := by
  refine substituteFrom_of_none ?_
  rintro u v rfl
  rw [wordRule, if_neg]
  intro hprefix
  obtain ⟨w, hw⟩ := List.head?_eq_some_iff.1 hc
  obtain ⟨tail, rfl⟩ := List.isPrefixOf_iff_prefix.1 hprefix
  exact h (by simp [hw])

/-- A single character is replaced wherever it stands. -/
theorem replaceAll_char {pattern replacement : String} {c d : Char} (hpattern : pattern.toList = [c])
    (hreplacement : replacement.toList = [d]) (text : List Char) :
    replaceAll pattern replacement text = text.map fun e => if e = c then d else e := by
  have hlength : pattern.length = 1 := by
    rw [← String.length_toList, hpattern]
    rfl
  induction text with
  | nil => rfl
  | cons e es ih =>
    have ih : substituteFrom (wordRule pattern replacement) 0 es = _ := ih
    rw [replaceAll, substitute, substituteFrom, wordRule, hpattern, hreplacement, hlength,
      List.map_cons]
    by_cases he : e = c
    · simp [List.isPrefixOf, he, ih]
    · simp [List.isPrefixOf, he, Ne.symm he, ih]

/-- No word is replaced if none of their first characters occurs. -/
theorem replaceEach_of_not_mem {pairs : List (String × String)} {text : List Char}
    (h : ∀ p ∈ pairs, ∃ c ∈ p.1.toList.head?, c ∉ text) : replaceEach pairs text = text := by
  induction pairs with
  | nil => rfl
  | cons p pairs ih =>
    obtain ⟨c, hc, hmem⟩ := h p List.mem_cons_self
    show replaceEach pairs (replaceAll p.1 p.2 text) = text
    rw [replaceAll_of_not_mem hc hmem]
    exact ih fun q hq => h q (List.mem_cons_of_mem _ hq)

/-- A word stands at the front of a text on its own account if the text behind goes on with a
character that is not in the word, except in the first place. -/
theorem isPrefixOf_append {word text rest : List Char} (hne : text ≠ [])
    (h : ∀ c ∈ rest.head?, c ∉ word.tail) :
    word.isPrefixOf (text ++ rest) = word.isPrefixOf text := by
  rw [Bool.eq_iff_iff, List.isPrefixOf_iff_prefix, List.isPrefixOf_iff_prefix]
  constructor
  · intro hprefix
    by_contra hnot
    have hlength : text.length ≤ word.length := by
      by_contra hlt
      exact hnot (List.prefix_of_prefix_length_le hprefix (List.prefix_append _ _) (by omega))
    -- the word is longer than the text, so its tail holds the character behind the text
    obtain ⟨more, rfl⟩ :=
      List.prefix_of_prefix_length_le (List.prefix_append text rest) hprefix hlength
    obtain ⟨c, cs, rfl⟩ : ∃ c cs, more = c :: cs := by
      cases more with
      | nil => exact absurd (by simp) hnot
      | cons c cs => exact ⟨c, cs, rfl⟩
    obtain ⟨tail, rfl⟩ := (List.prefix_append_right_inj text).1 hprefix
    obtain ⟨d, ds, rfl⟩ := List.exists_cons_of_ne_nil hne
    exact h c rfl (by simp)
  · exact fun hprefix => hprefix.trans (List.prefix_append _ _)

/-- Where no occurrence reaches from one text into the next, both are dealt with on their own. -/
theorem substituteFrom_append {pattern replacement : String} {text rest : List Char} {skip : Nat}
    (hskip : skip ≤ text.length) (h : ∀ c ∈ rest.head?, c ∉ pattern.toList.tail) :
    substituteFrom (wordRule pattern replacement) skip (text ++ rest) =
      substituteFrom (wordRule pattern replacement) skip text ++
        substituteFrom (wordRule pattern replacement) 0 rest := by
  induction text generalizing skip with
  | nil =>
    obtain rfl : skip = 0 := by simpa using hskip
    rfl
  | cons c cs ih =>
    cases skip with
    | succ skip => exact ih (by simpa using hskip)
    | zero =>
      have hprefix := isPrefixOf_append (List.cons_ne_nil c cs) h
      rw [List.cons_append] at hprefix ⊢
      rw [substituteFrom, substituteFrom, wordRule, wordRule, hprefix]
      split
      · next hword =>
        split at hword
        · next hpattern =>
          obtain ⟨rfl, rfl⟩ := Prod.mk.inj (Option.some.inj hword)
          have hle := (List.isPrefixOf_iff_prefix.1 hpattern).length_le
          rw [String.length_toList, List.length_cons] at hle
          rw [ih (by omega), List.append_assoc]
        · cases hword
      · rw [ih (Nat.zero_le _), List.cons_append]

/-- Where no occurrence reaches from one text into the next, each is replaced on its own. -/
theorem replaceAll_append {pattern replacement : String} {text rest : List Char}
    (h : ∀ c ∈ rest.head?, c ∉ pattern.toList.tail) :
    replaceAll pattern replacement (text ++ rest) =
      replaceAll pattern replacement text ++ replaceAll pattern replacement rest :=
  substituteFrom_append (Nat.zero_le _) h

/-- The same for pairs of words, if it holds after each of the pairs. -/
theorem replaceEach_append {pairs : List (String × String)} {text rest : List Char}
    (h : ∀ done ∈ pairs.inits, ∀ c ∈ (replaceEach done rest).head?, ∀ p ∈ pairs,
      c ∉ p.1.toList.tail) :
    replaceEach pairs (text ++ rest) = replaceEach pairs text ++ replaceEach pairs rest := by
  induction pairs generalizing text rest with
  | nil => rfl
  | cons p pairs ih =>
    have hfirst : ∀ c ∈ rest.head?, c ∉ p.1.toList.tail :=
      fun c hc => h [] (by simp) c hc p List.mem_cons_self
    have hothers : ∀ done ∈ pairs.inits, ∀ c ∈ (replaceEach done (replaceAll p.1 p.2 rest)).head?,
        ∀ q ∈ pairs, c ∉ q.1.toList.tail :=
      fun done hdone c hc q hq =>
        h (p :: done) (by simpa using hdone) c hc q (List.mem_cons_of_mem _ hq)
    show replaceEach pairs (replaceAll p.1 p.2 (text ++ rest)) = _
    rw [replaceAll_append hfirst, ih hothers]
    rfl

/-- A character that is in none of the words divides the text. -/
theorem replaceEach_append_cons {pairs : List (String × String)} {c : Char} (text rest : List Char)
    (h : ∀ p ∈ pairs, p.1.toList ≠ [] ∧ c ∉ p.1.toList) :
    replaceEach pairs (text ++ c :: rest) =
      replaceEach pairs text ++ c :: replaceEach pairs rest := by
  induction pairs generalizing text rest with
  | nil => rfl
  | cons p pairs ih =>
    obtain ⟨hne, hmem⟩ := h p List.mem_cons_self
    obtain ⟨d, ds, hd⟩ := List.exists_cons_of_ne_nil hne
    have hcons : replaceAll p.1 p.2 (c :: rest) = c :: replaceAll p.1 p.2 rest := by
      have hnot : p.1.toList.isPrefixOf (c :: rest) = false := by
        rw [hd] at hmem ⊢
        simp [List.isPrefixOf, (List.ne_of_not_mem_cons hmem).symm]
      rw [replaceAll, substitute, substituteFrom, wordRule, hnot]
      rfl
    show replaceEach pairs (replaceAll p.1 p.2 (text ++ c :: rest)) = _
    rw [replaceAll_append, hcons, ih _ _ fun q hq => h q (List.mem_cons_of_mem _ hq)]
    · rfl
    · rintro _ ⟨⟩ htail
      exact hmem (List.mem_of_mem_tail htail)

theorem replaceEach_nil (pairs : List (String × String)) : replaceEach pairs [] = [] := by
  induction pairs with
  | nil => rfl
  | cons p pairs ih => exact ih

/-- Characters that are in none of the words stay as they are, in front of a text. -/
theorem replaceEach_others_append {pairs : List (String × String)} {others : List Char}
    (text : List Char) (h : ∀ c ∈ others, ∀ p ∈ pairs, p.1.toList ≠ [] ∧ c ∉ p.1.toList) :
    replaceEach pairs (others ++ text) = others ++ replaceEach pairs text := by
  induction others with
  | nil => rfl
  | cons c cs ih =>
    have hcons := replaceEach_append_cons [] (cs ++ text) (h c List.mem_cons_self)
    rw [replaceEach_nil, ih fun d hd => h d (List.mem_cons_of_mem _ hd)] at hcons
    exact hcons

/-- They stay as they are behind a text. -/
theorem replaceEach_append_others {pairs : List (String × String)} {others : List Char}
    (text : List Char) (h : ∀ c ∈ others, ∀ p ∈ pairs, p.1.toList ≠ [] ∧ c ∉ p.1.toList) :
    replaceEach pairs (text ++ others) = replaceEach pairs text ++ others := by
  cases others with
  | nil => rw [List.append_nil, List.append_nil]
  | cons c cs =>
    have hrest := replaceEach_others_append [] fun d hd => h d (List.mem_cons_of_mem _ hd)
    rw [List.append_nil, replaceEach_nil, List.append_nil] at hrest
    rw [replaceEach_append_cons text cs (h c List.mem_cons_self), hrest]

/-! ## Trimming -/

/-- What trimming takes off the end are blanks. -/
theorem exists_trimEnd (text : List Char) :
    ∃ after, text = trimEnd text ++ after ∧ ∀ c ∈ after, isBlank c = true := by
  induction text with
  | nil => exact ⟨[], rfl, by simp⟩
  | cons c cs ih =>
    obtain ⟨after, hcs, hafter⟩ := ih
    unfold trimEnd
    cases htrim : trimEnd cs with
    | nil =>
      rw [htrim, List.nil_append] at hcs
      subst hcs
      by_cases hc : isBlank c = true
      · refine ⟨c :: cs, by simp [hc], ?_⟩
        intro d hd
        rcases List.mem_cons.1 hd with rfl | hd
        · exact hc
        · exact hafter d hd
      · exact ⟨cs, by simp [hc], hafter⟩
    | cons d ds =>
      refine ⟨after, ?_, hafter⟩
      rw [htrim] at hcs
      simp only [List.cons_append] at hcs ⊢
      rw [← hcs]

/-- What trimming takes off are blanks. -/
theorem exists_trim (text : List Char) :
    ∃ before after, text = before ++ (trim text ++ after) ∧ (∀ c ∈ before, isBlank c = true) ∧
      ∀ c ∈ after, isBlank c = true := by
  obtain ⟨after, hafter, hblank⟩ := exists_trimEnd (trimStart text)
  refine ⟨text.takeWhile isBlank, after, ?_, fun c hc => List.mem_takeWhile_imp hc, hblank⟩
  have htext : text = text.takeWhile isBlank ++ trimStart text := by simp [trimStart]
  rw [trim, ← hafter, ← htext]

/-- Trimming adds no character. -/
theorem mem_of_mem_trim {text : List Char} {c : Char} (h : c ∈ trim text) : c ∈ text := by
  obtain ⟨before, after, htext, -, -⟩ := exists_trim text
  rw [htext]
  simp [h]

/-- Nothing is taken off an end that is no blank. -/
theorem trimEnd_of_getLast? {text : List Char} (h : ∀ c ∈ text.getLast?, isBlank c = false) :
    trimEnd text = text := by
  induction text with
  | nil => rfl
  | cons c cs ih =>
    cases cs with
    | nil => simp [trimEnd, h c rfl]
    | cons d ds =>
      rw [trimEnd, ih fun e he => h e (by rwa [List.getLast?_cons_cons])]

/-- Blanks at the end are taken off. -/
theorem trimEnd_append_blanks {after : List Char} (text : List Char)
    (h : ∀ c ∈ after, isBlank c = true) : trimEnd (text ++ after) = trimEnd text := by
  induction text with
  | nil =>
    induction after with
    | nil => rfl
    | cons c cs ih =>
      have hcs : trimEnd cs = [] := ih fun d hd => h d (List.mem_cons_of_mem _ hd)
      simp [trimEnd, hcs, h c List.mem_cons_self]
  | cons c cs ih => rw [List.cons_append, trimEnd, ih, trimEnd]

/-- Trimming takes blanks off a text that neither starts nor ends with one. -/
theorem trim_blanks_append {before text after : List Char}
    (hbefore : ∀ c ∈ before, isBlank c = true) (hafter : ∀ c ∈ after, isBlank c = true)
    (hfirst : ∃ c ∈ text.head?, isBlank c = false) (hlast : ∀ c ∈ text.getLast?, isBlank c = false) :
    trim (before ++ (text ++ after)) = text := by
  obtain ⟨c, hc, hblank⟩ := hfirst
  obtain ⟨cs, rfl⟩ := List.head?_eq_some_iff.1 hc
  have hstart : trimStart (before ++ (c :: cs ++ after)) = c :: cs ++ after := by
    rw [trimStart, List.dropWhile_append_of_pos hbefore, List.cons_append,
      List.dropWhile_cons_of_neg (by simp [hblank])]
  rw [trim, hstart, trimEnd_append_blanks _ hafter, trimEnd_of_getLast? hlast]

/-- The blanks in front of a text are those in front of its first character that is not blank. -/
theorem trimStart_append_cons {c : Char} (text rest : List Char) (h : isBlank c = false) :
    trimStart (text ++ c :: rest) = trimStart text ++ c :: rest := by
  unfold trimStart
  rw [List.dropWhile_append]
  split
  · next hempty => simp [List.isEmpty_iff.1 hempty, h]
  · rfl

/-- The blanks at the end of a text are those behind its last character that is not blank. -/
theorem trimEnd_append {text : List Char} (rest : List Char)
    (h : ∃ c ∈ text.getLast?, isBlank c = false) :
    trimEnd (text ++ rest) = text ++ trimEnd rest := by
  induction text with
  | nil =>
    obtain ⟨c, hc, -⟩ := h
    cases hc
  | cons c cs ih =>
    rw [List.cons_append, trimEnd]
    cases cs with
    | nil =>
      obtain ⟨d, hd, hblank⟩ := h
      obtain rfl : c = d := Option.some.inj hd
      rw [List.nil_append]
      cases trimEnd rest with
      | nil => simp [hblank]
      | cons e es => rfl
    | cons d ds =>
      rw [ih (by simpa [List.getLast?_cons_cons] using h)]
      rfl

/-- A text is trimmed on both sides of a word that has no blanks at its ends. -/
theorem trim_append_word (word text rest : List Char)
    (hfirst : ∃ c ∈ word.head?, isBlank c = false) (hlast : ∃ c ∈ word.getLast?, isBlank c = false) :
    trim (text ++ (word ++ rest)) = trimStart text ++ (word ++ trimEnd rest) := by
  obtain ⟨c, hc, hblank⟩ := hfirst
  obtain ⟨cs, rfl⟩ := List.head?_eq_some_iff.1 hc
  have hlast : ∃ d ∈ (trimStart text ++ c :: cs).getLast?, isBlank d = false := by
    rwa [List.getLast?_append_of_ne_nil _ (List.cons_ne_nil c cs)]
  rw [trim, List.cons_append, trimStart_append_cons _ _ hblank, ← List.cons_append,
    ← List.append_assoc, trimEnd_append rest hlast, List.append_assoc]

/-- A text with neither end blank is not trimmed. -/
theorem trim_eq_self {text : List Char} (hfirst : ∃ c ∈ text.head?, isBlank c = false)
    (hlast : ∀ c ∈ text.getLast?, isBlank c = false) : trim text = text := by
  have hnone : ∀ d ∈ ([] : List Char), isBlank d = true := nofun
  have htrim := trim_blanks_append hnone hnone hfirst hlast
  rwa [List.nil_append, List.append_nil] at htrim

end SchoolMath.Text
