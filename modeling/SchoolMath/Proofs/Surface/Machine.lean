import SchoolMath.Proofs.Surface.Terminal

/-!
# `Surface.Machine` — the surface grammar as productions, and the machine that reads by them

The readers try alternatives in order. `Part.productions` is the grammar without the order, and `Steps`
is the machine that goes by it: it passes over blanks, replaces a part by one of its productions and
takes a lexeme off the text, keeping a stack of what must still come. It is free in its choices, so what
it can read is easy to change:

* a run stays one above a deeper stack (`Steps.above`);
* the text behind the run may be exchanged, if it starts as before or with a blank (`Steps.respell`);
* every stack is emptied by some text (`steps_completion`).

So whatever the machine has read on its way is the front of a text that it reads to the end
(`Steps.exists_completion`).
-/

namespace SchoolMath.Surface

/-! ## The grammar -/

/-- The parts of a text that are made of others. -/
inductive Part where
  | statement | phrase | links | operand | signs | primary | elements
  | suffixes | suffix | arguments | more | trailing
deriving DecidableEq, Repr

/-- What may be expected next. -/
inductive Expected where
  | terminal (t : Terminal)
  | part (p : Part)
deriving DecidableEq, Repr

/-- What each part is made of. -/
def Part.productions : Part → List (List Expected)
  | .statement => [[.terminal .name, .terminal .assign, .part .phrase], [.part .phrase]]
  | .phrase => [[.part .operand, .part .links]]
  | .links => [[], [.terminal .operator, .part .operand, .part .links]]
  | .operand => [[.part .signs, .part .primary, .part .suffixes]]
  | .signs => [[], [.terminal .sign, .part .signs]]
  | .primary => [
      [.terminal .number],
      [.terminal .name],
      [.terminal (.mark .opening), .part .phrase, .terminal (.mark .closing)],
      [.terminal .quoted],
      [.terminal (.mark .openBracket), .part .elements, .terminal (.mark .closeBracket)]]
  | .elements => [[], [.part .phrase, .part .more]]
  | .suffixes => [[], [.part .suffix, .part .suffixes]]
  | .suffix => [
      [.terminal (.mark .opening), .part .arguments, .terminal (.mark .closing)],
      [.terminal (.mark .openBracket), .part .phrase, .terminal (.mark .closeBracket)],
      [.terminal (.mark .point), .terminal .name]]
  | .arguments => [[], [.part .phrase, .part .more, .part .trailing]]
  | .more => [[], [.terminal (.mark .comma), .part .phrase, .part .more]]
  | .trailing => [[], [.terminal (.mark .comma)]]

/-! ## The machine -/

/-- The machine gets from one stack and text to another. -/
inductive Steps : List Expected → List Char → List Expected → List Char → Prop
  | refl {stack : List Expected} {text : List Char} : Steps stack text stack text
  | blank {stack stack' : List Expected} {c : Char} {text rest : List Char} :
      Reader.isGap c = true → Steps stack text stack' rest → Steps stack (c :: text) stack' rest
  | expand {p : Part} {production stack stack' : List Expected} {text rest : List Char} :
      production ∈ p.productions → Steps (production ++ stack) text stack' rest →
      Steps (.part p :: stack) text stack' rest
  | shift {t : Terminal} {stack stack' : List Expected} {text mid rest : List Char} :
      t.after text = some mid → Steps stack mid stack' rest →
      Steps (.terminal t :: stack) text stack' rest

namespace Steps

variable {stack stack' stack'' : List Expected} {text mid rest rest' : List Char}

theorem trans (h : Steps stack text stack' mid) (h' : Steps stack' mid stack'' rest) :
    Steps stack text stack'' rest := by
  induction h with
  | refl => exact h'
  | blank hc _ ih => exact .blank hc (ih h')
  | expand hproduction _ ih => exact .expand hproduction (ih h')
  | shift hafter _ ih => exact .shift hafter (ih h')

/-- A run leaves alone what is deeper in the stack. -/
theorem above (h : Steps stack text stack' rest) (deeper : List Expected) :
    Steps (stack ++ deeper) text (stack' ++ deeper) rest := by
  induction h with
  | refl => exact .refl
  | blank hc _ ih => exact .blank hc ih
  | expand hproduction _ ih =>
    rw [List.append_assoc] at ih
    exact .expand hproduction ih
  | shift hafter _ ih => exact .shift hafter ih

/-- Two runs, the second one on what was deeper in the stack. -/
theorem append (h : Steps stack text [] mid) (h' : Steps stack' mid stack'' rest) :
    Steps (stack ++ stack') text stack'' rest :=
  (h.above stack').trans h'

/-- A part that is made of what the run reads. -/
theorem part {p : Part} {production : List Expected} (hproduction : production ∈ p.productions)
    (h : Steps production text stack rest) : Steps [.part p] text stack rest :=
  .expand hproduction (by rwa [List.append_nil])

/-- Blanks are passed over. -/
theorem blanks (stack : List Expected) (text : List Char) :
    Steps stack text stack (text.dropWhile Reader.isGap) := by
  induction text with
  | nil => exact .refl
  | cons c text ih =>
    by_cases hc : Reader.isGap c = true
    · rw [List.dropWhile_cons_of_pos hc]
      exact .blank hc ih
    · rw [List.dropWhile_cons_of_neg hc]
      exact .refl

/-- The text behind a run may be exchanged for one that starts alike. -/
theorem respell (h : Steps stack text stack' rest) (halike : StartsAlike rest rest') :
    ∃ w, text = w ++ rest ∧ Steps stack (w ++ rest') stack' rest' := by
  induction h with
  | refl => exact ⟨[], rfl, .refl⟩
  | @blank _ _ c _ _ hc _ ih =>
    obtain ⟨w, rfl, hrun⟩ := ih halike
    exact ⟨c :: w, rfl, .blank hc hrun⟩
  | expand hproduction _ ih =>
    obtain ⟨w, rfl, hrun⟩ := ih halike
    exact ⟨w, rfl, .expand hproduction hrun⟩
  | shift hafter _ ih =>
    obtain ⟨w, rfl, hrun⟩ := ih halike
    -- the lexeme sees the first character behind it, which is in the run or behind it
    obtain ⟨v, -, rfl, hafter'⟩ := Terminal.after_respell hafter (halike.append w)
    refine ⟨v ++ w, (List.append_assoc v w _).symm, ?_⟩
    rw [List.append_assoc]
    exact .shift hafter' hrun

/-- What is left is no longer than the text. -/
theorem length_le (h : Steps stack text stack' rest) : rest.length ≤ text.length := by
  induction h with
  | refl => exact Nat.le_refl _
  | blank _ _ ih => exact Nat.le_succ_of_le ih
  | expand _ _ ih => exact ih
  | shift hafter _ ih => exact ih.trans (Terminal.length_lt_of_after hafter).le

/-- A lexeme that is expected takes something off the text. -/
theorem length_lt {t : Terminal} (h : Steps (.terminal t :: stack) text [] rest) :
    rest.length < text.length := by
  generalize hfirst : Expected.terminal t :: stack = first at h
  generalize hlast : ([] : List Expected) = last at h
  induction h with
  | refl =>
    rw [← hlast] at hfirst
    cases hfirst
  | blank _ _ ih => exact Nat.lt_succ_of_lt (ih hfirst hlast)
  | expand => cases hfirst
  | shift hafter hrun => exact hrun.length_le.trans_lt (Terminal.length_lt_of_after hafter)

/-- A part that may be empty is left out. -/
theorem skip {p : Part} (h : [] ∈ p.productions) : Steps [.part p] text [] text :=
  .part h .refl

end Steps

/-! ## Completions -/

/-- Lexemes that a part may consist of, as few as possible. -/
def Part.fewest : Part → List Terminal
  | .statement | .phrase | .operand | .primary => [.number]
  | .suffix => [.mark .point, .name]
  | .links | .signs | .elements | .suffixes | .arguments | .more | .trailing => []

/-- Lexemes that meet an expectation, as few as possible. -/
def Expected.fewest : Expected → List Terminal
  | .terminal t => [t]
  | .part p => p.fewest

/-- Lexemes with a blank before each. -/
def spelled (ts : List Terminal) : List Char := ts.flatMap fun t => ' ' :: t.sample

/-- The text that meets the expectations of a stack. -/
def completion (stack : List Expected) : List Char := spelled (stack.flatMap Expected.fewest)

theorem startsAlike_spelled (text : List Char) (ts : List Terminal) :
    StartsAlike text (spelled ts) := by
  intro c hc
  cases ts with
  | nil => cases hc
  | cons t ts => exact .inr (Option.some.inj hc).symm

theorem steps_spelled (ts us : List Terminal) :
    Steps (ts.map .terminal) (spelled (ts ++ us)) [] (spelled us) := by
  induction ts with
  | nil => exact .refl
  | cons t ts ih =>
    have hblank : ∀ c ∈ (spelled (ts ++ us)).head?, c = ' ' := fun c hc =>
      (startsAlike_spelled [] (ts ++ us) c hc).resolve_left nofun
    exact .blank (by decide) (.shift (t.after_sample hblank) ih)

section Fewest

variable {text rest : List Char}

theorem steps_primary (h : Steps [.terminal .number] text [] rest) :
    Steps [.part .primary] text [] rest :=
  .part (by decide) h

theorem steps_operand (h : Steps [.terminal .number] text [] rest) :
    Steps [.part .operand] text [] rest := by
  have hparts : Steps ([.part .signs] ++ ([.part .primary] ++ [.part .suffixes])) text [] rest :=
    (Steps.skip (by decide)).append ((steps_primary h).append (.skip (by decide)))
  exact .part (by decide) hparts

theorem steps_phrase (h : Steps [.terminal .number] text [] rest) :
    Steps [.part .phrase] text [] rest := by
  have hparts : Steps ([.part .operand] ++ [.part .links]) text [] rest :=
    (steps_operand h).append (.skip (by decide))
  exact .part (by decide) hparts

/-- A part may be as short as its fewest lexemes. -/
theorem steps_of_fewest (e : Expected) (h : Steps (e.fewest.map .terminal) text [] rest) :
    Steps [e] text [] rest := by
  match e with
  | .terminal _ => exact h
  | .part .primary => exact steps_primary h
  | .part .operand => exact steps_operand h
  | .part .phrase => exact steps_phrase h
  | .part .statement => exact .part (by decide) (steps_phrase h)
  | .part .suffix => exact .part (by decide) h
  | .part .links | .part .signs | .part .elements | .part .suffixes | .part .arguments
  | .part .more | .part .trailing =>
    exact .part List.mem_cons_self (show Steps [] text [] rest from h)

end Fewest

/-- Every stack is emptied by its completion. -/
theorem steps_completion (stack : List Expected) : Steps stack (completion stack) [] [] := by
  induction stack with
  | nil => exact .refl
  | cons e stack ih =>
    have hfirst : Steps [e] (spelled (e.fewest ++ stack.flatMap Expected.fewest)) []
        (completion stack) := steps_of_fewest e (steps_spelled _ _)
    exact hfirst.append ih

/-- What a run has read is the front of a text on which the machine empties its stack. -/
theorem Steps.exists_completion {stack stack' : List Expected} {text rest : List Char}
    (h : Steps stack text stack' rest) :
    ∃ w, text = w ++ rest ∧ Steps stack (w ++ completion stack') [] [] := by
  obtain ⟨w, htext, hrun⟩ := h.respell (startsAlike_spelled rest (stack'.flatMap Expected.fewest))
  exact ⟨w, htext, hrun.trans (steps_completion stack')⟩

end SchoolMath.Surface
