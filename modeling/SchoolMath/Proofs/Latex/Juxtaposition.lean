import SchoolMath.Proofs.Latex.Problem

/-!
# `Latex.Juxtaposition` — tokens with blanks between them and without signs of products

The tokens of a tree need not stand directly one behind the other: blanks between them change
nothing, since no token goes on with a blank (`Spaced.lexes`). In LaTeX the sign of a product may also
be left out between a number and a name that begins with a letter, because the scanner puts it there
(`Spaced.spellProducts_eq`). So what is spelled in one of these ways is read as the tree.
-/

namespace SchoolMath.Latex

open Arithmetic Surface Surface.Reader

/-- A text of tokens with blanks anywhere between them. If products are `implicit`, their sign may be
missing between a number and a name that begins with a letter. -/
inductive Spaced (implicit : Bool) : List Arithmetic.Token → List Char → Prop
  | done : Spaced implicit [] []
  | blank {c : Char} {ts : List Arithmetic.Token} {text : List Char} :
      isGap c = true → Spaced implicit ts text → Spaced implicit ts (c :: text)
  | token {t : Arithmetic.Token} {w : List Char} {ts : List Arithmetic.Token} {text : List Char} :
      t.Spells w → Spaced implicit ts text → Spaced implicit (t :: ts) (w ++ text)
  | product {n v : List Char} {ts : List Arithmetic.Token} {text : List Char} :
      implicit = true → IsNumber n → IsWord v → (∃ c ∈ v.head?, c.isAlpha = true) →
        Spaced implicit ts text →
          Spaced implicit (.number n :: .operator .times :: .word v :: ts) (n ++ (v ++ text))

namespace Spaced

variable {implicit : Bool} {ts us : List Arithmetic.Token} {text rest : List Char}

/-- A token alone. -/
theorem single {t : Arithmetic.Token} {w : List Char} (h : t.Spells w) : Spaced implicit [t] w := by
  have hone : Spaced implicit [t] (w ++ []) := .token h .done
  rwa [List.append_nil] at hone

theorem append (h : Spaced implicit ts text) (h' : Spaced implicit us rest) :
    Spaced implicit (ts ++ us) (text ++ rest) := by
  induction h with
  | done => exact h'
  | blank hc _ ih => exact .blank hc ih
  | token ht _ ih =>
    rw [List.append_assoc]
    exact .token ht ih
  | product himplicit hn hv hletter _ ih =>
    rw [List.append_assoc, List.append_assoc]
    exact .product himplicit hn hv hletter ih

/-- The tokens can be spelled. -/
theorem spells (h : Spaced implicit ts text) : ∀ t ∈ ts, t.Spells t.spelling := by
  induction h with
  | done => exact nofun
  | blank _ _ ih => exact ih
  | token ht _ ih => exact List.forall_mem_cons.2 ⟨ht.spelling, ih⟩
  | product _ hn hv _ _ ih =>
    simp only [List.forall_mem_cons]
    exact ⟨.number hn, .symbol (by decide), .word hv, ih⟩

/-- The text has none of the characters of LaTeX. -/
theorem not_mem {c : Char} (h : Spaced implicit ts text) (hc : c ∈ latexOnly) : c ∉ text := by
  induction h with
  | done => exact List.not_mem_nil
  | blank hgap _ ih =>
    refine List.not_mem_cons_of_ne_of_not_mem ?_ ih
    rintro rfl
    have key : ∀ c ∈ latexOnly, isGap c = false := by
      intro c hc
      fin_cases hc <;> rfl
    rw [key c hc] at hgap
    cases hgap
  | token ht _ ih => simpa using ⟨not_mem_of_spells ht hc, ih⟩
  | product _ hn hv _ _ ih =>
    simpa using ⟨not_mem_of_spells (.number hn) hc, not_mem_of_spells (.word hv) hc, ih⟩

end Spaced

/-! ## Expressions -/

/-- No token goes on with a blank. -/
theorem goesOnWith_of_isGap (t : Arithmetic.Token) {c : Char} (h : isGap c = true) :
    t.goesOnWith c = false := by
  have key : ∀ c ∈ [' ', '\t', '\r', '\n'], c.isDigit = false ∧ isNameChar c = false ∧ c ≠ '.' ∧
      c ≠ '*' := by
    intro c hc
    fin_cases hc <;> decide
  obtain ⟨hdigit, hname, hpoint, hstar⟩ := key c (mem_of_isGap h)
  cases t with
  | number text => simp [Token.goesOnWith, hdigit, hpoint]
  | word text => exact hname
  | operator op => cases op <;> simp [Token.goesOnWith, hstar]
  | opening | closing => rfl

/-- Tokens that may follow each other are read, whatever blanks are between them. -/
theorem Spaced.lexes {ts : List Arithmetic.Token} {text : List Char} (h : Spaced false ts text)
    (hchain : ts.IsChain Adjacent) : Lexes text ts [] := by
  induction h with
  | done => exact .done
  | blank hc _ ih => exact .blank hc (ih hchain)
  | @token t w _ _ ht hrest ih =>
    obtain ⟨hnext, hchain⟩ := List.isChain_cons.1 hchain
    refine .token (readsOff_iff.2 ⟨w, ht, rfl, fun c hc => ?_⟩) (ih hchain)
    -- behind the token there is a blank or the next token
    cases hrest with
    | done => cases hc
    | blank hgap => exact Option.some.inj hc ▸ goesOnWith_of_isGap t hgap
    | @token t' w' _ _ ht' =>
      obtain ⟨d, ds, rfl⟩ := List.exists_cons_of_ne_nil ht'.ne_nil
      exact Option.some.inj hc ▸ goesOnWith_eq_false_of_adjacent (hnext t' rfl) ht'
    | product himplicit => cases himplicit
  | product himplicit => cases himplicit

variable {K : Type} [Numeral K]

/-- A text of the tokens of a tree is read as this tree. -/
theorem Spaced.read {ts : List Arithmetic.Token} {text : String} {t : Tree K}
    (h : Spaced false ts text.toList) (hderives : Derives .sum ts t) :
    Expression.read text = .ok ⟨text, t⟩ :=
  read_eq_ok_iff.2 ⟨rfl, ts, h.lexes (neat_of_derives hderives).chain, hderives⟩

/-! ## LaTeX -/

/-- Between a number and a name that begins with a letter the scanner puts the sign of a product. -/
theorem spellProducts_product {v : List Char} (hv : IsWord v)
    (hletter : ∃ c ∈ v.head?, c.isAlpha = true) (rest : List Char) :
    spellProducts .number false (v ++ rest) = '*' :: (v ++ spellProducts .word false rest) := by
  obtain ⟨c, hc, halpha⟩ := hletter
  obtain ⟨cs, rfl⟩ := List.head?_eq_some_iff.1 hc
  have hname : ∀ d ∈ c :: cs, isNameChar d = true := hv.chars
  have hblank : ∀ d ∈ c :: cs, Text.isBlank d = false := fun d hd => isBlank_of_isNameChar (hname d hd)
  have hpower : ∀ d ∈ c :: cs, d ≠ '^' := by
    rintro d hd rfl
    exact absurd (hname _ hd) (by decide)
  have hdigit : c.isDigit = false := not_isDigit_of_isNameStart hv.isNameStart
  have hpoint : c ≠ '.' := by
    rintro rfl
    exact absurd halpha (by decide)
  have hgo : Kind.number.goesOnWith c = false := by simp [Kind.goesOnWith, hdigit, hpoint]
  have hof : Kind.of c = .word := by simp [Kind.of, hdigit, hpoint, halpha]
  have hstarts : startsOperand c = true := by simp [startsOperand, halpha]
  have hsign : spellProducts .number false (c :: (cs ++ rest)) =
      '*' :: c :: spellProducts .word false (cs ++ rest) := by
    simp [spellProducts, hblank c List.mem_cons_self, hgo, hstarts, Kind.endsOperand,
      hpower c List.mem_cons_self, hof]
  have hcs : spellProducts .word false (cs ++ rest) = cs ++ spellProducts .word false rest := by
    refine spellProducts_goesOn (fun d hd => hname d (List.mem_cons_of_mem _ hd))
      (fun d hd => hblank d (List.mem_cons_of_mem _ hd)) fun hmem => ?_
    exact hpower _ (List.mem_cons_of_mem _ hmem) rfl
  rw [List.cons_append, hsign, hcs]
  rfl

/-- What is spelled with blanks, and without the signs of some products, has the canonical text of
its tokens. -/
theorem Spaced.spellProducts_eq {implicit : Bool} {ts : List Arithmetic.Token} {text : List Char}
    (h : Spaced implicit ts text) (hchain : ts.IsChain Adjacent) :
    ∀ {k : Kind} {gap : Bool},
      (∀ t ∈ ts.head?, k.endsOperand = true → t.followsOperand = true) →
        spellProducts k gap text = ts.flatMap Token.spelling := by
  induction h with
  | done =>
    intro k gap _
    rfl
  | blank hc _ ih =>
    intro k gap hk
    rw [spellProducts_blank (isBlank_of_isGap hc), ih hchain hk]
  | @token t w _ _ ht _ ih =>
    intro k gap hk
    obtain ⟨hnext, hchain⟩ := List.isChain_cons.1 hchain
    rw [spellProducts_token ht (hk t rfl), List.flatMap_cons, ih hchain]
    exact fun t' ht' => followsOperand_of_adjacent (hnext t' ht')
  | @product n v ts text _ hn hv hletter _ ih =>
    intro k gap hk
    obtain ⟨-, hchain⟩ := List.isChain_cons.1 hchain
    obtain ⟨-, hchain⟩ := List.isChain_cons.1 hchain
    obtain ⟨hnext, hchain⟩ := List.isChain_cons.1 hchain
    have hnumber : spellProducts k gap (n ++ (v ++ text)) =
        n ++ spellProducts .number false (v ++ text) := spellProducts_token (.number hn) (hk _ rfl) _
    have htext : spellProducts .word false text = ts.flatMap Token.spelling :=
      ih hchain fun t' ht' => followsOperand_of_adjacent (hnext t' ht')
    rw [List.flatMap_cons, List.flatMap_cons, List.flatMap_cons, ← htext]
    exact hnumber.trans (congrArg _ (spellProducts_product hv hletter text))

/-- In LaTeX a text of the tokens of a tree, with parentheses or braces around groups, states this
tree. -/
theorem Spaced.problem {implicit : Bool} {ts : List Arithmetic.Token} {latex : String} {t : Tree K}
    (h : Spaced implicit ts (latex.toList.map parenthesis)) (hderives : Derives .sum ts t) :
    ∃ e : Expression K, Problem.read latex = .ok (.expression e) ∧ e.tree = t := by
  have hmark : '\\' ∉ latex.toList := fun hmem =>
    h.not_mem (c := '\\') (by decide) (List.mem_map.2 ⟨'\\', hmem, rfl⟩)
  have hequals : '=' ∉ latex.toList := fun hmem =>
    h.not_mem (c := '=') (by decide) (List.mem_map.2 ⟨'=', hmem, rfl⟩)
  have hcanonical : canonicalChars (Text.trim latex.toList) = ts.flatMap Token.spelling := by
    rw [canonicalChars_trim, canonicalChars_of_plain hmark]
    exact h.spellProducts_eq (neat_of_derives hderives).chain (fun _ _ => nofun)
  have hmem : ∀ c, c ∉ latex.toList → c ∉ Text.trim latex.toList :=
    fun c hc htrim => hc (Text.mem_of_mem_trim htrim)
  have hne : Text.trim latex.toList ≠ [] := by
    intro hnil
    obtain ⟨token, us, rfl⟩ := List.exists_cons_of_ne_nil (ne_nil_of_derives hderives)
    have hspelling : token.spelling ++ us.flatMap Token.spelling = [] := by
      rw [← List.flatMap_cons, ← hcanonical, hnil]
      rfl
    exact (h.spells token List.mem_cons_self).ne_nil (List.append_eq_nil_iff.1 hspelling).1
  obtain ⟨e, hread, htree⟩ : ∃ e : Expression K,
      readFragment (Text.trim latex.toList) = .ok e ∧ e.tree = t :=
    ⟨_, readFragment_of_derives hcanonical h.spells hderives, rfl⟩
  refine ⟨e, ?_, htree⟩
  rw [Problem.read, readTrimmed_of_not_integral hne (not_integralMark (hmem _ hmark)),
    splitAtEquals_of_not_mem (hmem _ hequals)]
  simp only [hread, ok_bind]
  rfl

end SchoolMath.Latex
