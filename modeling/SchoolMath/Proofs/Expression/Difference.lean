import SchoolMath.Number.Double
import SchoolMath.Proofs.Arithmetic.Reading

/-!
# `Expression.Difference` — the text of an expression writes its tree

The difference of an equation is put together twice: its tree from the trees of the two sides, its
text from their texts, each in parentheses. No token goes on with a closing parenthesis, so behind
the first side the tokens are those of the side alone, whatever text it was read from
(`Lexes.parenthesized`). Hence a difference writes its tree if the sides write theirs, and so does
every expression that is made of such differences.
-/

namespace SchoolMath

open Arithmetic

variable {K : Type} [Numeral K]

namespace Arithmetic

/-- No token goes on with a closing parenthesis. -/
theorem Token.goesOnWith_closing (t : Token) : t.goesOnWith ')' = false := by
  cases t with
  | number | word | opening | closing => rfl
  | operator op => cases op <;> rfl

/-- A symbol of one character that is the beginning of no other is read where it stands. -/
theorem readsOff_symbol {t : Token} {c : Char} (rest : List Char) (h : ([c], t) ∈ symbols)
    (hc : t.goesOnWith = fun _ => false) : ReadsOff (c :: rest) t rest :=
  readsOff_iff.2 ⟨[c], .symbol h, rfl, fun d _ => by rw [hc]⟩

/-- Parentheses around a text are parentheses around its tokens. -/
theorem Lexes.parenthesized {text : List Char} {ts : List Token} (rest : List Char)
    (h : Lexes text ts []) :
    Lexes ('(' :: text ++ ')' :: rest) (.opening :: ts ++ [.closing]) rest := by
  have hinside : Lexes (text ++ ')' :: rest) ts (')' :: rest) :=
    h.followed rest fun t _ => t.goesOnWith_closing
  have hclosing : Lexes (')' :: rest) [.closing] rest :=
    .token (readsOff_symbol rest (by decide) rfl) .done
  exact .token (readsOff_symbol _ (by decide) rfl) (hinside.append hclosing)

/-- The difference of two texts writes the difference of their trees. -/
theorem Writes.difference {left right : Expression K} (hleft : Writes left.text left.tree)
    (hright : Writes right.text right.tree) :
    Writes (Equation.asDifference ⟨left, right⟩).text (Equation.asDifference ⟨left, right⟩).tree := by
  obtain ⟨ts, hlex, hderives⟩ := hleft
  obtain ⟨us, hlex', hderives'⟩ := hright
  have htext : (Equation.asDifference ⟨left, right⟩).text.toList =
      '(' :: left.text.toList ++ ')' :: '-' :: ('(' :: right.text.toList ++ ')' :: []) := by
    have hwords : (Equation.asDifference ⟨left, right⟩).text =
        "(" ++ left.text ++ ")-(" ++ right.text ++ ")" := rfl
    simp [hwords]
  refine ⟨.opening :: ts ++ [.closing] ++ .operator .minus :: (.opening :: us ++ [.closing]), ?_, ?_⟩
  · rw [htext]
    refine (hlex.parenthesized _).append (.token ?_ (hlex'.parenthesized []))
    exact readsOff_symbol _ (by decide) rfl
  · exact .sum (.inr rfl) (.ofTerm (.ofUnary (.ofPower (.ofAtom (.group hderives)))))
      (.ofUnary (.ofPower (.ofAtom (.group hderives'))))

end Arithmetic

namespace Expression

/-- An expression that is read from a text, or the difference of an equation between expressions
that are themselves obtained so. -/
inductive Obtained : Expression K → Prop
  | read {text : String} {e : Expression K} : Expression.read text = .ok e → Obtained e
  | difference {left right : Expression K} :
      Obtained left → Obtained right → Obtained (Equation.asDifference ⟨left, right⟩)

/-- The text writes the tree. -/
theorem Obtained.writes {e : Expression K} (h : e.Obtained) : Writes e.text e.tree := by
  induction h with
  | read hread =>
    obtain ⟨rfl, hwrites⟩ := read_eq_ok_iff.1 hread
    exact hwrites
  | difference _ _ ihleft ihright => exact ihleft.difference ihright

/-- However an expression was obtained, reading its text gives the expression with its tree. -/
theorem read_text_of_obtained {e : Expression K} (h : e.Obtained) :
    Expression.read e.text = .ok e :=
  read_eq_ok_iff.2 ⟨rfl, h.writes⟩

/-- A difference inside a difference, with blanks, a sign and a power in the texts of the sides. -/
theorem read_text_of_obtained_nested : ∃ e : Expression Float, e.Obtained ∧
    e.text = "((x^2 )-(- 3))-( y)" ∧ Expression.read e.text = .ok e := by
  have hsquare : Writes "x^2 "
      (.binary .power (.var "x") (.const (Numeral.read (K := Float) "2"))) := by
    refine ⟨[.word ['x'], .operator .power, .number ['2']], ?_, ?_⟩
    · refine .token (readsOff_iff.2 ⟨['x'], .word (by decide), rfl, ?_⟩) ?_
      · rintro _ ⟨⟩
        rfl
      refine .token (readsOff_symbol _ (by decide) rfl) ?_
      refine .token (readsOff_iff.2 ⟨['2'], .number (by decide), rfl, ?_⟩) (.blank rfl .done)
      rintro _ ⟨⟩
      rfl
    · exact .ofTerm (.ofUnary (.ofPower (.power (.name (by decide))
        (.ofPower (.ofAtom (.number ['2']))))))
  have hthree : Writes "- 3" (.neg (.const (Numeral.read (K := Float) "3"))) := by
    refine ⟨[.operator .minus, .number ['3']], ?_, ?_⟩
    · refine .token (readsOff_symbol _ (by decide) rfl) (.blank rfl ?_)
      exact .token (readsOff_iff.2 ⟨['3'], .number (by decide), rfl, nofun⟩) .done
    · exact .ofTerm (.ofUnary (.negative (.ofPower (.ofAtom (.number ['3'])))))
  have hname : Writes " y" (.var (K := Float) "y") := by
    refine ⟨[.word ['y']], ?_, .ofTerm (.ofUnary (.ofPower (.ofAtom (.name (by decide)))))⟩
    exact .blank rfl (.token (readsOff_iff.2 ⟨['y'], .word (by decide), rfl, nofun⟩) .done)
  have hread : ∀ {text : String} {t : Tree Float}, Writes text t →
      (⟨text, t⟩ : Expression Float).Obtained := fun h => .read (read_eq_ok_iff.2 ⟨rfl, h⟩)
  have hobtained := Obtained.difference (.difference (hread hsquare) (hread hthree)) (hread hname)
  exact ⟨_, hobtained, rfl, read_text_of_obtained hobtained⟩

end Expression

end SchoolMath
