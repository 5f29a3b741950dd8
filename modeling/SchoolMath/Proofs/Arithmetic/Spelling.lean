import Mathlib
import SchoolMath.Proofs.Arithmetic.Derivation

/-!
# `Arithmetic.Spelling` — tokens without blanks between them

In arithmetic an operand is followed by an operator or by a closing parenthesis, and everything else
by the beginning of an operand. Tokens that follow each other in this way need no blanks: written
one directly behind the other they are read again, since none of them goes on with the first
character of the next.

* `isChain_of_derives` — the tokens of a derivation follow each other in this way;
* `lexes_spelling` — tokens that do are read from their spellings.
-/

namespace SchoolMath.Arithmetic

open Surface Surface.Reader

variable {K : Type} [Numeral K]

namespace Token

/-- Whether an operand may end with the token. -/
def endsOperand : Token → Bool
  | .number _ | .word _ | .closing => true
  | _ => false

/-- Whether an operand may start with the token. -/
def startsOperand : Token → Bool
  | .number _ | .word _ | .opening | .operator .plus | .operator .minus => true
  | _ => false

/-- Whether the token may stand behind an operand. -/
def followsOperand : Token → Bool
  | .operator _ | .closing => true
  | _ => false

/-- The characters of the token; a power is two stars. -/
def spelling : Token → List Char
  | .number text | .word text => text
  | .operator .plus => ['+']
  | .operator .minus => ['-']
  | .operator .times => ['*']
  | .operator .over => ['/']
  | .operator .power => ['*', '*']
  | .opening => ['(']
  | .closing => [')']

theorem Spells.spelling {t : Token} {w : List Char} (h : t.Spells w) : t.Spells t.spelling := by
  cases h with
  | number hn => exact .number hn
  | word hw => exact .word hw
  | symbol hs =>
    have key : ∀ p ∈ symbols, (p.2.spelling, p.2) ∈ symbols := by decide
    exact .symbol (key _ hs)

end Token

/-- Which token may stand behind which. -/
def Adjacent (t t' : Token) : Prop :=
  if t.endsOperand then t'.followsOperand = true else t'.startsOperand = true

/-! ## Neighbours in a derivation -/

/-- Tokens that may stand where an operand is due, up to its end. -/
structure Neat (ts : List Token) : Prop where
  chain : ts.IsChain Adjacent
  starts : ∀ t ∈ ts.head?, t.startsOperand = true
  ends : ∀ t ∈ ts.getLast?, t.endsOperand = true

/-- An operator joins two operands. -/
theorem Neat.join {ts us : List Token} (h : Neat ts) (h' : Neat us) (hts : ts ≠ []) (hus : us ≠ [])
    (op : Operator) : Neat (ts ++ .operator op :: us) where
  chain := by
    refine List.isChain_append.2 ⟨h.chain, List.isChain_cons.2 ⟨?_, h'.chain⟩, ?_⟩
    · intro t ht
      exact h'.starts t ht
    · rintro t ht _ ⟨⟩
      rw [Adjacent, if_pos (h.ends t ht)]
      rfl
  starts t ht := by
    rw [List.head?_append_of_ne_nil _ hts] at ht
    exact h.starts t ht
  ends t ht := by
    rw [List.getLast?_append_of_ne_nil _ (List.cons_ne_nil _ _),
      List.getLast?_cons_of_ne_nil hus] at ht
    exact h'.ends t ht

/-- A sign before an operand. -/
theorem Neat.sign {ts : List Token} (h : Neat ts) (hts : ts ≠ []) (minus : Bool) :
    Neat (.sign minus :: ts) where
  chain := by
    refine List.isChain_cons.2 ⟨?_, h.chain⟩
    intro t ht
    exact h.starts t ht
  starts := by
    rintro t ⟨⟩
    cases minus <;> rfl
  ends t ht := by
    rw [List.getLast?_cons_of_ne_nil hts] at ht
    exact h.ends t ht

/-- Parentheses around a sum. -/
theorem Neat.group {ts : List Token} (h : Neat ts) (hts : ts ≠ []) :
    Neat (.opening :: ts ++ [.closing]) where
  chain := by
    refine List.isChain_append.2 ⟨List.isChain_cons.2 ⟨?_, h.chain⟩, List.isChain_singleton _, ?_⟩
    · intro t ht
      exact h.starts t ht
    · rintro t ht _ ⟨⟩
      rw [List.getLast?_cons_of_ne_nil hts] at ht
      rw [Adjacent, if_pos (h.ends t ht)]
      rfl
  starts := by
    rintro t ⟨⟩
    rfl
  ends := by
    intro t ht
    rw [List.getLast?_append_of_ne_nil _ (List.cons_ne_nil _ _)] at ht
    obtain rfl := Option.some.inj ht
    rfl

/-- One token that is an operand. -/
theorem Neat.single {t : Token} (hs : t.startsOperand = true) (he : t.endsOperand = true) :
    Neat [t] where
  chain := List.isChain_singleton t
  starts := by
    rintro _ ⟨⟩
    exact hs
  ends := by
    rintro _ ⟨⟩
    exact he

/-- The tokens of a derivation start and end as an operand does, and follow each other accordingly.
-/
theorem neat_of_derives {level : Level} {ts : List Token} {t : Tree K} (h : Derives level ts t) :
    Neat ts := by
  induction h with
  | ofTerm _ ih | ofUnary _ ih | ofPower _ ih | ofAtom _ ih => exact ih
  | sum _ h h' ih ih' | term _ h h' ih ih' | power h h' ih ih' =>
    exact ih.join ih' (ne_nil_of_derives h) (ne_nil_of_derives h') _
  | positive h ih => exact ih.sign (ne_nil_of_derives h) false
  | negative h ih => exact ih.sign (ne_nil_of_derives h) true
  | number | name => exact .single rfl rfl
  | group h ih => exact ih.group (ne_nil_of_derives h)

/-! ## Reading spellings again -/

/-- How a token that may stand behind an operand does not start. -/
theorem first_of_followsOperand {t : Token} {c : Char} {cs : List Char} (h : t.Spells (c :: cs))
    (ht : t.followsOperand = true) :
    isNameChar c = false ∧ c.isDigit = false ∧ c ≠ '.' ∧ c ≠ '(' := by
  have hs : (c :: cs, t) ∈ symbols := by
    cases h with
    | number | word => cases ht
    | symbol hs => exact hs
  have key : ∀ p ∈ symbols, p.2.followsOperand = true → p.1.head?.all (fun c =>
      isNameChar c = false ∧ c.isDigit = false ∧ c ≠ '.' ∧ c ≠ '(') = true := by decide
  exact of_decide_eq_true (key _ hs ht)

/-- A token does not go on with the first character of one that may stand behind it. -/
theorem goesOnWith_eq_false_of_adjacent {t t' : Token} {c : Char} {cs : List Char}
    (h : Adjacent t t') (h' : t'.Spells (c :: cs)) : t.goesOnWith c = false := by
  have hstarts : t'.startsOperand = true → c ≠ '*' := by
    rintro hf rfl
    cases h' with
    | number hn => exact absurd hn.first (by decide)
    | word hw => exact absurd hw.isNameStart (by decide)
    | symbol hs =>
      have key : ∀ p ∈ symbols, p.2.startsOperand = true → '*' ∉ p.1.head? := by decide
      exact key _ hs hf rfl
  cases t with
  | number text =>
    obtain ⟨-, hdigit, hpoint, -⟩ := first_of_followsOperand h' h
    simp [Token.goesOnWith, hdigit, hpoint]
  | word text => exact (first_of_followsOperand h' h).1
  | operator op =>
    cases op with
    | times => simpa [Token.goesOnWith] using hstarts h
    | plus | minus | «over» | power => rfl
  | opening | closing => rfl

/-- What is read can be spelled. -/
theorem Lexes.spells {text rest : List Char} {ts : List Token} (h : Lexes text ts rest) :
    ∀ t ∈ ts, t.Spells t.spelling := by
  induction h with
  | done => simp
  | blank _ _ ih => exact ih
  | token ht _ ih =>
    obtain ⟨w, hw, -⟩ := ht
    intro t' ht'
    rcases List.mem_cons.1 ht' with rfl | ht'
    · exact hw.spelling
    · exact ih t' ht'

/-- Tokens that may follow each other are read from their spellings, with nothing between them. -/
theorem lexes_spelling {ts : List Token} (hchain : ts.IsChain Adjacent)
    (hspells : ∀ t ∈ ts, t.Spells t.spelling) : Lexes (ts.flatMap Token.spelling) ts [] := by
  induction ts with
  | nil => exact .done
  | cons t ts ih =>
    obtain ⟨hnext, hchain⟩ := List.isChain_cons.1 hchain
    rw [List.flatMap_cons]
    refine .token (readsOff_iff.2 ⟨t.spelling, hspells t List.mem_cons_self, rfl, ?_⟩)
      (ih hchain fun t' ht' => hspells t' (List.mem_cons_of_mem _ ht'))
    intro c hc
    cases ts with
    | nil => cases hc
    | cons t' ts =>
      have ht' : t'.Spells t'.spelling := hspells t' (by simp)
      obtain ⟨d, ds, hd⟩ := List.exists_cons_of_ne_nil ht'.ne_nil
      rw [List.flatMap_cons, hd] at hc
      obtain rfl := Option.some.inj hc
      exact goesOnWith_eq_false_of_adjacent (hnext t' rfl) (hd ▸ ht')

end SchoolMath.Arithmetic
