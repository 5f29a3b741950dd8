import SchoolMath.Proofs.Ocr.Differential

/-!
# `Ocr.Clean` — cleaning a text again

Cleaning runs its passes once, in a fixed order, and the differentials come last but for the blanks.
A cleaned text has no differential any more, so cleaning it runs the other passes alone, and these
leave nothing that they change (`IsLettered`). Hence cleaning twice is always enough, and cleaning
once is enough exactly if no differential was moved away from an angle or a letter
(`clean_clean_eq_iff`).
-/

namespace SchoolMath.Ocr

open Text (isBlank substitute collapseBlanks)

variable {text : List Char}

/-! ## The passes -/

theorem toList_clean (text : String) : (clean text).toList =
    collapseBlanks (substitute differentialRule (lettered text.toList)) :=
  String.toList_ofList

/-- A character that is not written with a differential comes from the text. -/
theorem mem_of_mem_cleaned {c : Char} (hc : c ∉ [' ', 'd', 'x'])
    (h : c ∈ collapseBlanks (substitute differentialRule text)) : c ∈ text := by
  rcases Text.mem_of_mem_collapseBlanks h with h | rfl
  · obtain ⟨left, right, h⟩ := List.append_of_mem h
    obtain ⟨front, behind, rfl, -⟩ := exists_of_differential_eq_append_cons hc h
    exact List.mem_append_right front List.mem_cons_self
  · exact absurd List.mem_cons_self hc

theorem noSign_cleaned (h : NoSign text) :
    NoSign (collapseBlanks (substitute differentialRule text)) := by
  have hfree : ∀ p ∈ signs, ∀ c ∈ p.1.toList, c ∉ [' ', 'd', 'x'] := by simp [signs]
  exact fun p hp c hc hmem => h p hp c hc (mem_of_mem_cleaned (hfree p hp c hc) hmem)

/-- The passes before the differentials make none. -/
theorem not_occurs_lettered (hsign : NoSign text) (h : ¬ differential <:+: text) :
    ¬ differential <:+: lettered text := fun hin =>
  h (occurs_of_occurs_lettered hsign (by decide) (by decide) (by decide) (by decide) hin)

/-- In a cleaned text there are no differentials to rewrite. -/
theorem toList_clean_clean (text : String) :
    (clean (clean text)).toList = collapseBlanks (lettered (clean text).toList) := by
  rw [toList_clean, substitute_differential_eq]
  rw [toList_clean]
  refine not_occurs_lettered (noSign_cleaned (isLettered_lettered _).noSign) ?_
  intro h
  have hblank : ∀ d ∈ differential, isBlank d = false := by
    intro d hd
    fin_cases hd <;> rfl
  have hin := Text.occurs_of_occurs_collapseBlanks (List.cons_ne_nil _ _) hblank h
  exact not_occurs_differential _ hin

/-- A cleaned text is clean if the passes before the differentials have nothing to do. -/
theorem clean_clean_iff (text : String) :
    clean (clean text) = clean text ↔ IsLettered (clean text).toList := by
  rw [← String.toList_inj, toList_clean_clean]
  constructor
  · intro h
    rw [← h]
    exact (isLettered_lettered _).collapseBlanks
  · intro h
    rw [h.lettered_eq, toList_clean, Text.collapseBlanks_idem]

/-- The passes before the differentials have work to do again if a differential was moved away. -/
theorem isLettered_cleaned_iff (h : IsLettered text) :
    IsLettered (collapseBlanks (substitute differentialRule text)) ↔ ¬ Detaches text := by
  have hlone := noLone_iff h.noLone
  have hgap := noGap_iff h.noGap
  rw [← loneLetters_collapseBlanks_eq_iff] at hlone
  constructor
  · rintro hlettered (hbehind | ⟨hc, hword, hfront, hbehind⟩)
    · exact hgap.1 hlettered.noGap ⟨_, _, rfl, hbehind⟩
    · exact hlone.1 hlettered.noLone ⟨_, _, _, rfl, hc, hword, hfront, hbehind⟩
  · intro hnot
    refine ⟨noSign_cleaned h.noSign, hgap.2 ?_, hlone.2 ?_,
      fun hO => h.noO (mem_of_mem_cleaned (by decide) hO)⟩
    · rintro ⟨before, behind, rfl, hbehind⟩
      exact hnot (.angle hbehind)
    · rintro ⟨front, c, behind, rfl, hc, hword, hfront, hbehind⟩
      exact hnot (.letter hc hword hfront hbehind)

/-! ## Cleaning again -/

/-- Cleaning a text twice is always enough. Once is enough exactly if no differential stands
directly behind an angle or a lone letter, of the text with its signs and letters as they were
meant. -/
theorem clean_clean_eq_iff (text : String) :
    clean (clean (clean text)) = clean (clean text) ∧
      (clean (clean text) = clean text ↔ ¬ Detaches (lettered text.toList)) := by
  constructor
  · rw [clean_clean_iff, toList_clean_clean]
    exact (isLettered_lettered _).collapseBlanks
  · rw [clean_clean_iff, toList_clean]
    exact isLettered_cleaned_iff (isLettered_lettered _)

/-- Behind a letter, the rewritten differential leaves the letter alone, and behind an angle it
leaves a blank: both are work for the next time. -/
theorem clean_clean_ne :
    clean (clean "lmathrm\x7bdx\x7d") ≠ clean "lmathrm\x7bdx\x7d" ∧
      clean (clean "\\anglemathrm\x7bdx\x7d") ≠ clean "\\anglemathrm\x7bdx\x7d" := by
  have hletter : clean "lmathrm\x7bdx\x7d" = "l dx" := by decide +kernel
  have hangle : clean "\\anglemathrm\x7bdx\x7d" = "\\angle dx" := by decide +kernel
  rw [hletter, hangle]
  have hdigit : clean "l dx" = "1 dx" := by decide +kernel
  have hgap : clean "\\angle dx" = "\\angledx" := by decide +kernel
  rw [hdigit, hgap]
  decide

end SchoolMath.Ocr
