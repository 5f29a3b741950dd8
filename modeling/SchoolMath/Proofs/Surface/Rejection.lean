import SchoolMath.Proofs.Surface.Completeness

/-!
# `Surface.Rejection` — where the reading of a rejected text stops

The offset reported for a rejected text is the furthest place where a named rule was tried in vain. The
readers keep to the grammar (`Surface.Course`), so the machine has read the text up to that place; what
it has read is the front of a text that it accepts (`Surface.Machine`), and the readers read every
such text (`Surface.Completeness`). Up to the reported offset a rejected text is therefore the front of
a statement: nothing before the offset had to be changed. Nor is the offset too early: where a statement
stands at the front, the end of the text was tried behind it (`length_le_of_statement`).
-/

namespace SchoolMath.Surface

open Reader

/-- A text is rejected where it was read furthest; without a mark, at its start. -/
theorem parse_eq_error_iff {text : String} {offset : Nat} : parse text = .error offset ↔
    (wholeText text.toList).result.isNone = true ∧
      text.length - (wholeText text.toList).mark.getD text.length = offset := by
  unfold parse
  rcases wholeText text.toList with ⟨_ | ⟨s, rest⟩, mark⟩ <;> simp

/-- The machine reads a rejected text up to the reported offset. -/
theorem steps_of_rejected {text : String} {offset : Nat} (h : parse text = .error offset) :
    ∃ stack rest, text.length = offset + rest.length ∧
      Steps [.part .statement] text.toList stack rest := by
  obtain ⟨-, hoffset⟩ := parse_eq_error_iff.1 h
  cases hmark : (wholeText text.toList).mark with
  | none =>
    rw [hmark, Option.getD_none, Nat.sub_self] at hoffset
    refine ⟨_, text.toList, ?_, .refl⟩
    rw [← hoffset, String.length_toList, Nat.zero_add]
  | some m =>
    rw [hmark, Option.getD_some] at hoffset
    obtain ⟨stack, rest, hrest, hrun⟩ := Follows.wholeText.reach hmark
    have hle : rest.length ≤ text.length := by
      rw [← String.length_toList]
      exact hrun.length_le
    exact ⟨stack, rest, by omega, hrun⟩

/-- What the machine has read on its way is the front of a statement. -/
theorem exists_statement_of_steps {stack : List Expected} {text rest : List Char}
    (h : Steps [.part .statement] text stack rest) :
    ∃ w completion s, text = w ++ rest ∧ parse (String.ofList (w ++ completion)) = .ok s := by
  obtain ⟨w, htext, hrun⟩ := h.exists_completion
  have haccepts : Accepts [.part .statement]
      ((String.ofList (w ++ completion stack)).toList.dropWhile isGap) := by
    rw [String.toList_ofList]
    exact .of_steps hrun
  obtain ⟨s, hs⟩ := exists_parse_of_accepts haccepts
  exact ⟨w, completion stack, s, htext, hs⟩

/-! ## Behind a statement -/

theorem exists_le_furthest (mark : Option Nat) (m : Nat) :
    ∃ k, furthest mark (some m) = some k ∧ k ≤ m := by
  cases mark with
  | none => exact ⟨m, rfl, Nat.le_refl m⟩
  | some i => exact ⟨min i m, rfl, Nat.min_le_right i m⟩

/-- What the second reader marks counts, if the first one succeeds. -/
theorem exists_mark_le_of_bind {α β : Type} {p : Reader α} {f : α → Reader β} {text rest : List Char}
    {a : α} {m : Nat} (hread : reads p text = some (a, rest)) (hmark : (f a rest).mark = some m) :
    ∃ k, ((p >>= f) text).mark = some k ∧ k ≤ m := by
  show ∃ k, (andThen p f text).mark = some k ∧ k ≤ m
  unfold andThen
  unfold reads at hread
  rcases hp : p text with ⟨_ | ⟨a', rest'⟩, mark⟩
  · rw [hp] at hread
    cases hread
  · rw [hp] at hread
    cases hread
    show ∃ k, furthest mark (f a rest).mark = some k ∧ k ≤ m
    rw [hmark]
    exact exists_le_furthest mark m

theorem mark_gap_bind {β : Type} (f : Unit → Reader β) (text : List Char) :
    ((gap >>= f) text).mark = (f () (text.dropWhile isGap)).mark := rfl

/-- Where a statement is read and more follows, the end of the text was tried. -/
theorem exists_mark_le_of_statement {text mid : List Char} {s : Statement}
    (hread : reads (assignment <|> Statement.phrase <$> anyPhrase) (text.dropWhile isGap) =
      some (s, mid)) (hmore : mid.dropWhile isGap ≠ []) :
    ∃ k, (wholeText text).mark = some k ∧ k ≤ (mid.dropWhile isGap).length := by
  have hend : ((do endOfText; return s : Reader Statement) (mid.dropWhile isGap)).mark =
      some (mid.dropWhile isGap).length := by
    obtain ⟨c, cs, hcons⟩ := List.exists_cons_of_ne_nil hmore
    rw [hcons]
    rfl
  unfold wholeText
  rw [mark_gap_bind]
  apply exists_mark_le_of_bind hread
  rw [mark_gap_bind]
  exact hend

/-- The offset does not lie before the end of a statement that stands at the front. -/
theorem length_le_of_statement {text : String} {offset : Nat} {mid : List Char} {s : Statement}
    (h : parse text = .error offset)
    (hread : reads (assignment <|> Statement.phrase <$> anyPhrase) (text.toList.dropWhile isGap) =
      some (s, mid)) : text.length ≤ offset + (mid.dropWhile isGap).length := by
  have hmore : mid.dropWhile isGap ≠ [] := by
    intro hempty
    rw [parse_eq_ok_iff.2 ⟨mid, hread, hempty⟩] at h
    cases h
  obtain ⟨k, hmark, hle⟩ := exists_mark_le_of_statement hread hmore
  obtain ⟨-, hoffset⟩ := parse_eq_error_iff.1 h
  rw [hmark, Option.getD_some] at hoffset
  omega

/-! ## Up to the offset -/

/-- A rejected text is the front of a statement up to the reported offset, and the offset does not lie
before the end of a statement that stands at the front of the text. -/
theorem exists_statement_of_rejected {text : String} {offset : Nat}
    (h : parse text = .error offset) : offset ≤ text.length ∧
      (∃ whole s, parse whole = .ok s ∧ text.toList.take offset <+: whole.toList) ∧
      ∀ s mid, reads (assignment <|> Statement.phrase <$> anyPhrase) (text.toList.dropWhile isGap) =
        some (s, mid) → text.length ≤ offset + (mid.dropWhile isGap).length := by
  obtain ⟨stack, rest, hlength, hrun⟩ := steps_of_rejected h
  obtain ⟨w, completion, s, htext, hs⟩ := exists_statement_of_steps hrun
  have hoffset : w.length = offset := by
    rw [← String.length_toList, htext, List.length_append] at hlength
    omega
  have hfront : text.toList.take offset = w := by
    rw [htext, ← hoffset, List.take_left]
  refine ⟨by omega, ⟨String.ofList (w ++ completion), s, hs, ?_⟩, fun s mid hread => ?_⟩
  · rw [hfront, String.toList_ofList]
    exact List.prefix_append w completion
  · exact length_le_of_statement h hread

/-- The second argument can neither go on like this nor end: the call is left unfinished. -/
theorem exists_statement_of_rejected_call : parse "f(1, 2 3" = .error 7 ∧ 7 ≤ "f(1, 2 3".length ∧
    ∃ whole s, parse whole = .ok s ∧ "f(1, 2 3".toList.take 7 <+: whole.toList := by
  have hrejected : parse "f(1, 2 3" = .error 7 := parse_eq_error_iff.2 (by decide +kernel)
  obtain ⟨hle, hwhole, -⟩ := exists_statement_of_rejected hrejected
  exact ⟨hrejected, hle, hwhole⟩

end SchoolMath.Surface
