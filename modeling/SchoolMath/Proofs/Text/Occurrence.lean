import SchoolMath.Proofs.Text.Edit

/-!
# `Text.Occurrence` — where words occur in an edited text

A substitution copies a text character by character and writes a replacement where its rule applies
(`substitute_of_none`, `substitute_of_some`). A word at the front of the result stands at the front
of the text if no replacement can be part of it (`exists_of_substitute_eq_append`), and a word of
the result is one of the text if what was exchanged cannot (`occurs_of_marked`).
-/

namespace SchoolMath.Text

variable {rule : List Char → Option (List Char × Nat)} {word text left right : List Char} {c : Char}

/-! ## Substitution, step by step -/

/-- Characters that are dealt with are passed over. -/
theorem substituteFrom_eq (skip : Nat) (text : List Char) :
    substituteFrom rule skip text = substitute rule (text.drop skip) := by
  induction text generalizing skip with
  | nil =>
    rw [List.drop_nil]
    cases skip <;> rfl
  | cons c cs ih =>
    cases skip with
    | zero => rfl
    | succ skip => exact ih skip

theorem substitute_nil : substitute rule [] = [] := rfl

/-- Where the rule does not apply, the character is copied. -/
theorem substitute_of_none {cs : List Char} (h : rule (c :: cs) = none) :
    substitute rule (c :: cs) = c :: substitute rule cs := by
  rw [substitute, substituteFrom, h]
  rfl

/-- Where the rule replaces a word, the replacement is written. -/
theorem substitute_of_some {replacement rest : List Char} (hword : word ≠ [])
    (h : rule (word ++ rest) = some (replacement, word.length)) :
    substitute rule (word ++ rest) = replacement ++ substitute rule rest := by
  obtain ⟨c, cs, rfl⟩ := List.exists_cons_of_ne_nil hword
  rw [List.cons_append] at h ⊢
  rw [substitute, substituteFrom, h]
  show replacement ++ substituteFrom rule cs.length (cs ++ rest) = _
  rw [substituteFrom_eq, List.drop_left]

/-- A character that is in no replacement comes from the text. -/
theorem mem_of_mem_substitute (hrule : ∀ u replacement n, rule u = some (replacement, n) →
    c ∉ replacement) (h : c ∈ substitute rule text) : c ∈ text := by
  have key : ∀ skip, c ∈ substituteFrom rule skip text → c ∈ text := by
    clear h
    induction text with
    | nil => exact fun skip h => absurd h (by cases skip <;> exact List.not_mem_nil)
    | cons d ds ih =>
      intro skip h
      cases skip with
      | succ skip => exact List.mem_cons_of_mem d (ih skip h)
      | zero =>
        rw [substituteFrom] at h
        split at h
        · next hd =>
          rcases List.mem_append.1 h with h | h
          · exact absurd h (hrule _ _ _ hd)
          · exact List.mem_cons_of_mem d (ih _ h)
        · rcases List.mem_cons.1 h with rfl | h
          · exact List.mem_cons_self
          · exact List.mem_cons_of_mem d (ih _ h)
  exact key 0 h

/-- Where every replacement starts with one character, a word without that character at the front of
the result stands at the front of the text. -/
theorem exists_of_substitute_eq_append
    (hrule : ∀ u replacement n, rule u = some (replacement, n) → replacement.head? = some c)
    (hc : c ∉ word) (h : substitute rule text = word ++ right) :
    ∃ rest, text = word ++ rest ∧ substitute rule rest = right := by
  induction word generalizing text with
  | nil => exact ⟨text, rfl, h⟩
  | cons w ws ih =>
    obtain ⟨hw, hws⟩ := not_or.1 fun hor => hc (List.mem_cons.2 hor)
    cases text with
    | nil => cases h
    | cons d ds =>
      cases hd : rule (d :: ds) with
      | none =>
        rw [substitute_of_none hd] at h
        obtain ⟨rfl, hds⟩ := List.cons.inj h
        obtain ⟨rest, rfl, hrest⟩ := ih hws hds
        exact ⟨rest, rfl, hrest⟩
      | some found =>
        obtain ⟨replacement, n⟩ := found
        obtain ⟨tail, rfl⟩ := List.head?_eq_some_iff.1 (hrule _ _ _ hd)
        rw [substitute, substituteFrom, hd] at h
        exact absurd (List.cons.inj h).1 hw

/-- A text is read from the left: a word of some kind where one starts, and else one character. -/
@[elab_as_elim]
theorem reading_induction (starts : List Char → Prop) {motive : List Char → Prop} (text : List Char)
    (nil : motive [])
    (word : ∀ text, starts text → (∀ rest, rest.length < text.length → motive rest) → motive text)
    (other : ∀ c cs, ¬ starts (c :: cs) → motive cs → motive (c :: cs)) : motive text := by
  induction hn : text.length using Nat.strong_induction_on generalizing text with
  | _ n ih =>
    subst hn
    by_cases hstart : starts text
    · exact word text hstart fun rest hrest => ih _ hrest rest rfl
    · cases text with
      | nil => exact nil
      | cons c cs => exact other c cs hstart (ih _ (Nat.lt_succ_self _) cs rfl)

/-! ## Pairs of words -/

/-- A character that is in none of the second words comes from the text. -/
theorem mem_of_mem_replaceEach {pairs : List (String × String)}
    (hpairs : ∀ p ∈ pairs, c ∉ p.2.toList) (h : c ∈ replaceEach pairs text) : c ∈ text := by
  induction pairs generalizing text with
  | nil => exact h
  | cons p pairs ih =>
    refine mem_of_mem_substitute ?_ (ih (fun q hq => hpairs q (List.mem_cons_of_mem p hq)) h)
    intro u replacement n hword
    obtain ⟨-, heq⟩ := Option.ite_none_right_eq_some.1 hword
    obtain ⟨rfl, -⟩ := Prod.mk.inj (Option.some.inj heq)
    exact hpairs p List.mem_cons_self

/-- A character is gone where it is replaced by a word without it. -/
theorem not_mem_replaceAll {pattern replacement : String} (hpattern : pattern.toList = [c])
    (hreplacement : c ∉ replacement.toList) : c ∉ replaceAll pattern replacement text := by
  induction text with
  | nil => exact List.not_mem_nil
  | cons d ds ih =>
    by_cases hd : c = d
    · subst hd
      have hword : wordRule pattern replacement ([c] ++ ds) =
          some (replacement.toList, [c].length) := by
        rw [wordRule, hpattern, if_pos (by simp), ← String.length_toList, hpattern]
      show c ∉ substitute _ ([c] ++ ds)
      rw [substitute_of_some (List.cons_ne_nil c []) hword]
      exact fun h => (List.mem_append.1 h).elim hreplacement ih
    · have hword : wordRule pattern replacement (d :: ds) = none := by
        rw [wordRule, hpattern, if_neg (by simpa using hd)]
      rw [replaceAll, substitute_of_none hword]
      exact fun h => (List.mem_cons.1 h).elim hd ih

/-- Characters are gone where they are replaced by words without any of them. -/
theorem not_mem_replaceEach {pairs : List (String × String)}
    (hpairs : ∀ p ∈ pairs, ∃ c, p.1.toList = [c] ∧ ∀ q ∈ pairs, c ∉ q.2.toList) :
    ∀ p ∈ pairs, ∀ c ∈ p.1.toList, c ∉ replaceEach pairs text := by
  suffices h : ∀ others : List (String × String), (∀ q ∈ others, q ∈ pairs) → ∀ text,
      ∀ p ∈ others, ∀ c ∈ p.1.toList, c ∉ replaceEach others text from
    h pairs (fun _ hq => hq) text
  intro others
  induction others with
  | nil => exact fun _ _ p hp => absurd hp List.not_mem_nil
  | cons q others ih =>
    intro hothers text p hp c hc
    have hrest : ∀ r ∈ others, r ∈ pairs := fun r hr => hothers r (List.mem_cons_of_mem q hr)
    show c ∉ replaceEach others (replaceAll q.1 q.2 text)
    rcases List.mem_cons.1 hp with rfl | hp
    · obtain ⟨d, hd, hfree⟩ := hpairs p (hothers p List.mem_cons_self)
      obtain rfl : c = d := by simpa [hd] using hc
      intro h
      exact not_mem_replaceAll hd (hfree p (hothers p List.mem_cons_self))
        (mem_of_mem_replaceEach (fun r hr => hfree r (hrest r hr)) h)
    · exact ih hrest _ p hp c hc

/-! ## Words in a text -/

/-- A character that is not in front of the text divides what is behind that. -/
theorem exists_of_append_eq_append_cons (hc : c ∉ word) (h : word ++ text = left ++ c :: right) :
    ∃ more, left = word ++ more ∧ text = more ++ c :: right := by
  rcases List.append_eq_append_iff.1 h with ⟨more, hleft, htext⟩ | ⟨more, hword, hright⟩
  · exact ⟨more, hleft, htext⟩
  · cases more with
    | nil => exact ⟨[], by rw [hword, List.append_nil, List.append_nil], hright.symm⟩
    | cons d ds =>
      obtain ⟨rfl, -⟩ := List.cons.inj hright
      rw [hword] at hc
      exact absurd (List.mem_append_right left List.mem_cons_self) hc

/-- A word that starts with a character that is not in front of the text occurs behind that. -/
theorem occurs_of_occurs_append (hc : c ∉ left) (h : c :: word <:+: left ++ right) :
    c :: word <:+: right := by
  induction left with
  | nil => exact h
  | cons d ds ih =>
    obtain ⟨hd, hds⟩ := not_or.1 fun hor => hc (List.mem_cons.2 hor)
    rcases List.infix_cons_iff.1 h with hstart | hin
    · exact absurd (List.cons_prefix_cons.1 hstart).1 hd
    · exact ih hds hin

/-- A word without a certain character ends before that character. -/
theorem starts_of_starts_append_cons (hc : c ∉ word) (h : word <+: left ++ c :: right) :
    word <+: left := by
  by_contra hnot
  have hlength : left.length ≤ word.length := by
    by_contra hlt
    exact hnot (List.prefix_of_prefix_length_le h (List.prefix_append _ _) (by omega))
  obtain ⟨more, rfl⟩ := List.prefix_of_prefix_length_le (List.prefix_append left _) h hlength
  have hmore := (List.prefix_append_right_inj left).1 h
  cases more with
  | nil => exact hnot (by rw [List.append_nil])
  | cons d ds =>
    obtain ⟨rfl, -⟩ := List.cons_prefix_cons.1 hmore
    exact hc (by simp)

/-- The text on the right is the one on the left, with some characters exchanged for `mark`. -/
def Marked (mark : Char) (text marked : List Char) : Prop :=
  List.Forall₂ (fun c d => d = c ∨ d = mark) text marked

/-- A character of the marked text that is not the mark comes from the text. -/
theorem mem_of_marked {mark : Char} {marked : List Char} (h : Marked mark text marked)
    (hmark : c ≠ mark) (hmem : c ∈ marked) : c ∈ text := by
  induction h with
  | nil => exact hmem
  | @cons d e ds es hfirst _ ih =>
    rcases List.mem_cons.1 hmem with rfl | hmem
    · exact hfirst.resolve_right hmark ▸ List.mem_cons_self
    · exact List.mem_cons_of_mem d (ih hmem)

/-- A word without the mark that starts the marked text starts the text. -/
theorem starts_of_marked {mark : Char} {marked : List Char} (h : Marked mark text marked)
    (hmark : mark ∉ word) (hstart : word <+: marked) : word <+: text := by
  induction word generalizing text marked with
  | nil => exact List.nil_prefix
  | cons w ws ih =>
    cases h with
    | nil => exact absurd (List.prefix_nil.1 hstart) (List.cons_ne_nil w ws)
    | cons hfirst hrest =>
      obtain ⟨rfl, hws⟩ := List.cons_prefix_cons.1 hstart
      obtain ⟨hw, hmem⟩ := not_or.1 fun hor => hmark (List.mem_cons.2 hor)
      obtain rfl := hfirst.resolve_right fun heq => hw heq.symm
      exact List.cons_prefix_cons.2 ⟨rfl, ih hrest hmem hws⟩

/-- A word without the mark that occurs in the marked text occurs in the text. -/
theorem occurs_of_marked {mark : Char} {marked : List Char} (h : Marked mark text marked)
    (hmark : mark ∉ word) (hoccurs : word <:+: marked) : word <:+: text := by
  induction h with
  | nil => exact hoccurs
  | @cons c d cs ds hfirst hrest ih =>
    rcases List.infix_cons_iff.1 hoccurs with hstart | hin
    · exact (starts_of_marked (.cons hfirst hrest) hmark hstart).isInfix
    · exact (ih hin).trans (List.suffix_cons c cs).isInfix

end SchoolMath.Text
