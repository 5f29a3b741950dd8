import SchoolMath.Number.Double
import SchoolMath.Proofs.Arithmetic.Reading
import SchoolMath.Proofs.Arithmetic.Spelling
import SchoolMath.Proofs.Tree.Names

/-!
# `Expression.Names` — the names of an expression are the words of its text

A name is looked for in a text without any grammar: it is a maximal run of letters, digits and
underscores that does not start with a digit (`IsNameRun`). That these runs are the names of the
expression takes two steps.

* Reading tokens off a text finds every such run (`word_mem_of_run`). Conversely a word among the tokens
  is such a run, if what may stand in front of a word does (`exists_run_of_word_mem`); a number
  directly before it would make the run longer.
* A derivation keeps the words of its tokens, in their order (`names_eq_of_derives`).

The main statement is `mem_unknowns_iff_isNameRun`.
-/

namespace SchoolMath.Arithmetic

open Surface Surface.Reader

/-! ## Runs in a text -/

/-- What stands on both sides of `w` does not go on with it. -/
structure StandsApart (before after : List Char) : Prop where
  left : ∀ c ∈ before.getLast?, isNameChar c = false
  right : ∀ c ∈ after.head?, isNameChar c = false

/-- A maximal run of letters, digits and underscores, the first of which is no digit. -/
def IsNameRun (text w : List Char) : Prop :=
  IsWord w ∧ ∃ before after, text = before ++ (w ++ after) ∧ StandsApart before after

/-- Text in front may be taken away. -/
theorem StandsApart.drop {front before after : List Char}
    (h : StandsApart (front ++ before) after) : StandsApart before after := by
  refine ⟨?_, h.right⟩
  intro c hc
  apply h.left
  rw [List.getLast?_append, Option.mem_def.1 hc]
  rfl

/-- Text may be put in front that ends in no character of a name. -/
theorem StandsApart.append {front before after : List Char} (h : StandsApart before after)
    (hfront : before = [] → ∀ c ∈ front.getLast?, isNameChar c = false) :
    StandsApart (front ++ before) after := by
  refine ⟨?_, h.right⟩
  intro c hc
  by_cases hbefore : before = []
  · apply hfront hbefore
    rwa [hbefore, List.append_nil] at hc
  · apply h.left
    rwa [List.getLast?_append_of_ne_nil _ hbefore] at hc

/-- Two runs that start at one place and end where they have to are the same. -/
theorem eq_of_append_eq {w w' rest rest' : List Char} (hw : ∀ c ∈ w, isNameChar c = true)
    (hw' : ∀ c ∈ w', isNameChar c = true) (hrest : ∀ c ∈ rest.head?, isNameChar c = false)
    (hrest' : ∀ c ∈ rest'.head?, isNameChar c = false) (h : w ++ rest = w' ++ rest') : w = w' := by
  obtain ⟨htake, -⟩ := takeWhile_append rest hw hrest
  obtain ⟨htake', -⟩ := takeWhile_append rest' hw' hrest'
  rw [h, htake'] at htake
  exact htake.symm

/-- Symbols have no character of a name. -/
theorem not_isNameChar_of_symbol {t : Token} {w : List Char} (h : (w, t) ∈ symbols) :
    ∀ c ∈ w, isNameChar c = false := by
  have key : ∀ p ∈ symbols, p.1.all (fun c => !isNameChar c) = true := by decide
  intro c hc
  simpa using List.all_eq_true.1 (key _ h) c hc

theorem not_isNameChar_of_isGap {c : Char} (h : isGap c = true) : isNameChar c = false := by
  have hmem := mem_of_isGap h
  fin_cases hmem <;> rfl

/-! ## From a run to a token -/

/-- Only a word has a character that a name can start with, but for the inside of words. -/
theorem eq_word_of_isNameStart {t : Token} {u : List Char} {c : Char} (h : t.Spells u) (hc : c ∈ u)
    (hstart : isNameStart c = true) : t = .word u ∧ IsWord u := by
  cases h with
  | number hn =>
    exfalso
    rcases hn.chars c hc with hdigit | rfl
    · rw [not_isDigit_of_isNameStart hstart] at hdigit
      cases hdigit
    · exact absurd hstart (by decide)
  | word hw => exact ⟨rfl, hw⟩
  | symbol hs =>
    have hchar := isNameChar_of_isNameStart hstart
    rw [not_isNameChar_of_symbol hs c hc] at hchar
    cases hchar

/-- Every run is read off as a word: a token that starts before the run ends there, and the one that
starts with the run is as long as it. -/
theorem word_mem_of_run {text before w after : List Char} {ts : List Token}
    (h : Lexes text ts []) (hw : IsWord w) (htext : text = before ++ (w ++ after))
    (hapart : StandsApart before after) : .word w ∈ ts := by
  obtain ⟨d, ds, rfl⟩ := List.exists_cons_of_ne_nil hw.ne_nil
  generalize hrest : [] = rest at h
  induction h generalizing before with
  | done =>
    subst hrest
    simp at htext
  | @blank c cs ts rest hc _ ih =>
    cases before with
    | nil =>
      -- a name does not start with a blank
      obtain ⟨rfl, -⟩ := List.cons.inj htext
      have hgap : isGap c = false := (Token.Spells.word hw).not_isGap
      rw [hgap] at hc
      cases hc
    | cons c' before =>
      obtain ⟨rfl, hcs⟩ := List.cons.inj htext
      have hapart' : StandsApart ([c] ++ before) after := hapart
      exact ih hapart'.drop hcs hrest
  | @token text mid t ts rest ht _ ih =>
    obtain ⟨u, hu, rfl, hstop⟩ := readsOff_iff.1 ht
    rcases List.append_eq_append_iff.1 htext with ⟨before', rfl, hmid⟩ | ⟨u', rfl, hsplit⟩
    · exact List.mem_cons_of_mem _ (ih hapart.drop hmid hrest)
    · cases u' with
      | nil =>
        have hnone : StandsApart [] after := ⟨nofun, hapart.right⟩
        exact List.mem_cons_of_mem _ (ih hnone hsplit.symm hrest)
      | cons d' u' =>
        -- the run starts inside the token
        obtain rfl : d = d' := (List.cons.inj hsplit).1
        obtain ⟨rfl, hword⟩ := eq_word_of_isNameStart hu (by simp) hw.isNameStart
        have hbefore : before = [] := by
          by_contra hne
          have hlast := List.getLast?_eq_some_getLast hne
          have hchar := hword.chars _ (List.mem_append_left _ (List.getLast_mem hne))
          rw [hapart.left _ hlast] at hchar
          cases hchar
        subst hbefore
        have heq : d :: ds = d :: u' :=
          eq_of_append_eq hw.chars hword.chars hapart.right hstop hsplit
        rw [heq]
        exact List.mem_cons_self

/-! ## From a token to a run -/

/-- No character of a token that may stand in front of a word is one of a name. -/
theorem not_isNameChar_of_adjacent {t : Token} {u w : List Char} (h : t.Spells u)
    (hadjacent : Adjacent t (.word w)) : ∀ c ∈ u, isNameChar c = false := by
  cases h with
  | number | word => cases hadjacent
  | symbol hs => exact not_isNameChar_of_symbol hs

/-- A word that is read off is a run. If nothing stands before it, it is the first token. -/
theorem exists_run_of_word_mem {text w rest : List Char} {ts : List Token} (h : Lexes text ts rest)
    (hchain : ts.IsChain Adjacent) (hmem : .word w ∈ ts) :
    ∃ before after, text = before ++ (w ++ after) ∧ StandsApart before after ∧
      (before = [] → ts.head? = some (.word w)) := by
  induction h with
  | done => cases hmem
  | @blank c cs ts rest hc _ ih =>
    obtain ⟨before, after, rfl, hapart, -⟩ := ih hchain hmem
    have hfront : ∀ d ∈ [c].getLast?, isNameChar d = false := by
      rintro _ ⟨⟩
      exact not_isNameChar_of_isGap hc
    exact ⟨[c] ++ before, after, rfl, hapart.append fun _ => hfront, nofun⟩
  | @token text mid t ts rest ht _ ih =>
    obtain ⟨hnext, hchain⟩ := List.isChain_cons.1 hchain
    obtain ⟨u, hu, rfl, hstop⟩ := readsOff_iff.1 ht
    rcases List.mem_cons.1 hmem with rfl | hmem
    · obtain ⟨rfl, -⟩ := Token.spells_word.1 hu
      exact ⟨[], mid, rfl, ⟨nofun, hstop⟩, fun _ => rfl⟩
    · obtain ⟨before, after, rfl, hapart, hfirst⟩ := ih hchain hmem
      refine ⟨u ++ before, after, (List.append_assoc _ _ _).symm, hapart.append ?_, ?_⟩
      · intro hbefore c hc
        apply not_isNameChar_of_adjacent hu (hnext _ (hfirst hbefore))
        exact List.mem_of_getLast? hc
      · intro hnil
        exact absurd (List.append_eq_nil_iff.1 hnil).1 hu.ne_nil

/-- The words of tokens that follow each other as in a derivation are the runs of the text. -/
theorem isNameRun_iff_word_mem {text w : List Char} {ts : List Token} (h : Lexes text ts [])
    (hchain : ts.IsChain Adjacent) : IsNameRun text w ↔ .word w ∈ ts := by
  constructor
  · rintro ⟨hw, before, after, htext, hapart⟩
    exact word_mem_of_run h hw htext hapart
  · intro hmem
    obtain ⟨before, after, htext, hapart, -⟩ := exists_run_of_word_mem h hchain hmem
    exact ⟨(Token.spells_word.1 (h.spells _ hmem)).2, before, after, htext, hapart⟩

/-! ## From the tokens to the tree -/

/-- The name that a token writes. -/
def Token.name? : Token → Option String
  | .word text => some (String.ofList text)
  | _ => none

theorem word_mem_iff {ts : List Token} {name : String} :
    .word name.toList ∈ ts ↔ name ∈ ts.filterMap Token.name? := by
  rw [List.mem_filterMap]
  constructor
  · intro hmem
    exact ⟨_, hmem, congrArg some String.ofList_toList⟩
  · rintro ⟨t, hmem, hname⟩
    cases t with
    | word text =>
      obtain rfl : String.ofList text = name := Option.some.inj hname
      rwa [String.toList_ofList]
    | number | operator | opening | closing => cases hname

variable {K : Type} [Numeral K]

/-- The names of a tree, from left to right, are the words of the tokens that it is derived of. -/
theorem names_eq_of_derives {level : Level} {ts : List Token} {t : Tree K}
    (h : Derives level ts t) : t.names = ts.filterMap Token.name? := by
  induction h with
  | ofTerm _ ih | ofUnary _ ih | ofPower _ ih | ofAtom _ ih => exact ih
  | sum _ _ _ ihl ihr | term _ _ _ ihl ihr | power _ _ ihl ihr =>
    rw [Tree.names, ihl, ihr, List.filterMap_append, List.filterMap_cons_none rfl]
  | positive _ ih => rw [ih, List.filterMap_cons_none rfl]
  | negative _ ih => rw [Tree.names, ih, List.filterMap_cons_none rfl]
  | number | name => rfl
  | group _ ih =>
    rw [ih, List.filterMap_append, List.filterMap_cons_none rfl, List.filterMap_cons_none rfl,
      List.filterMap_nil, List.append_nil]

/-! ## Expressions -/

/-- The distinct names of an expression are the maximal runs of letters, digits and underscores in its
text that do not start with a digit. -/
theorem mem_unknowns_iff_isNameRun {text : String} {e : Expression K}
    (h : Expression.read text = .ok e) :
    e.unknowns.Pairwise (· < ·) ∧
      ∀ name, name ∈ e.unknowns ↔ IsNameRun text.toList name.toList := by
  obtain ⟨-, ts, hlex, hderives⟩ := read_eq_ok_iff.1 h
  have hchain : ts.IsChain Adjacent := (neat_of_derives hderives).chain
  constructor
  · exact ascending_distinctNames _
  · intro name
    rw [isNameRun_iff_word_mem hlex hchain, word_mem_iff, ← names_eq_of_derives hderives]
    exact mem_distinctNames

/-- Digits of a name and of a number, and a keyword as the beginning of a name. -/
theorem mem_unknowns_iff_isNameRun_product :
    ∃ e : Expression Float, Expression.read "x_1*(notx -2.5)" = .ok e ∧
      (∀ name, name ∈ e.unknowns ↔ IsNameRun "x_1*(notx -2.5)".toList name.toList) ∧
      e.unknowns = ["notx", "x_1"] := by
  have hoff : ∀ {t : Token} {w rest : List Char}, t.Spells w →
      rest.head?.all (fun c => !t.goesOnWith c) = true → ReadsOff (w ++ rest) t rest := by
    intro t w rest hw hstop
    refine readsOff_iff.2 ⟨w, hw, rfl, ?_⟩
    intro c hc
    rw [Option.mem_def.1 hc] at hstop
    simpa using hstop
  have hlex : Lexes "x_1*(notx -2.5)".toList
      [.word ['x', '_', '1'], .operator .times, .opening, .word ['n', 'o', 't', 'x'],
        .operator .minus, .number ['2', '.', '5'], .closing] [] := by
    refine .token (hoff (w := ['x', '_', '1']) (.word (by decide)) rfl) ?_
    refine .token (hoff (w := ['*']) (.symbol (by decide)) rfl) ?_
    refine .token (hoff (w := ['(']) (.symbol (by decide)) rfl) ?_
    refine .token (hoff (w := ['n', 'o', 't', 'x']) (.word (by decide)) rfl) (.blank rfl ?_)
    refine .token (hoff (w := ['-']) (.symbol (by decide)) rfl) ?_
    refine .token (hoff (w := ['2', '.', '5']) (.number (by decide)) rfl) ?_
    exact .token (hoff (w := [')']) (.symbol (by decide)) rfl) .done
  have hderives : Derives .sum
      [.word ['x', '_', '1'], .operator .times, .opening, .word ['n', 'o', 't', 'x'],
        .operator .minus, .number ['2', '.', '5'], .closing]
      (.binary .times (.var "x_1")
        (.binary .minus (.var "notx") (.const (Numeral.read (K := Float) "2.5")))) := by
    have hdifference : Derives .sum
        ([.word ['n', 'o', 't', 'x']] ++ .operator .minus :: [.number ['2', '.', '5']])
        (.binary .minus (.var "notx") (.const (Numeral.read (K := Float) "2.5"))) :=
      .sum (.inr rfl) (.ofTerm (.ofUnary (.ofPower (.ofAtom (.name (by decide))))))
        (.ofUnary (.ofPower (.ofAtom (.number _))))
    exact .ofTerm (.term (.inl rfl) (.ofUnary (.ofPower (.ofAtom (.name (by decide)))))
      (.ofPower (.ofAtom (.group hdifference))))
  have hread : Expression.read "x_1*(notx -2.5)" = .ok (⟨"x_1*(notx -2.5)", _⟩ : Expression Float) :=
    read_eq_ok_iff.2 ⟨rfl, _, hlex, hderives⟩
  exact ⟨_, hread, (mem_unknowns_iff_isNameRun hread).2, by decide⟩

end SchoolMath.Arithmetic
