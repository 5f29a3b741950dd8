import SchoolMath.Proofs.Expression.Names
import SchoolMath.Proofs.Latex.Projection

/-!
# `Latex.Names` — where the names of a problem come from

The scanner that spells products writes every character of a name where it finds it. In front of a
name it has written something that is no part of a name, because a letter or an underscore would
have gone on: so there stands a blank, an operator, a parenthesis, or the digits of a number that is
multiplied by the name (`left_foldl_behind`). While it writes a name it drops blanks only where no
product is due, before a digit or an underscore (`exists_piece`). A name of a problem is therefore
spelled by a part of the text (`IsSpelledIn`), and where no blank is dropped it stands in the text
as a whole (`IsWholeIn`).
-/

namespace SchoolMath.Latex

open Arithmetic Surface Surface.Reader

variable {K : Type} [Numeral K]

/-! ## The scanner, character by character -/

/-- The kind and the gap that the scanner remembers behind a character. -/
def behind (state : Kind × Bool) (c : Char) : Kind × Bool :=
  if Text.isBlank c then (state.1, true)
  else (if !state.2 && state.1.goesOnWith c then state.1 else .of c, false)

/-- The sign of the product that the scanner finds in front of a character. -/
def productSign (state : Kind × Bool) (c : Char) : List Char :=
  if !(!state.2 && state.1.goesOnWith c) && startsOperand c && state.1.endsOperand then ['*']
  else []

/-- What the scanner writes for a character. -/
def written (state : Kind × Bool) (c : Char) : List Char :=
  if Text.isBlank c then []
  else productSign state c ++ if c == '^' then ['*', '*'] else [c]

/-- Inside a word no product is due. -/
theorem productSign_word {c : Char} (h : isNameChar c = true) :
    productSign (.word, false) c = [] := by
  have hgo : Kind.word.goesOnWith c = true := h
  simp [productSign, hgo]

theorem spellProducts_cons (state : Kind × Bool) (c : Char) (cs : List Char) :
    spellProducts state.1 state.2 (c :: cs) =
      written state c ++ spellProducts (behind state c).1 (behind state c).2 cs := by
  unfold written behind
  rw [spellProducts]
  split
  · rfl
  · rfl

/-- A text is written before the text behind it. -/
theorem spellProducts_append (state : Kind × Bool) (text rest : List Char) :
    spellProducts state.1 state.2 (text ++ rest) = spellProducts state.1 state.2 text ++
      spellProducts (text.foldl behind state).1 (text.foldl behind state).2 rest := by
  induction text generalizing state with
  | nil => rfl
  | cons c cs ih => rw [List.cons_append, spellProducts_cons, spellProducts_cons, ih,
      List.append_assoc, List.foldl_cons]

/-- No name goes on with an operator. -/
theorem isNameChar_ne {c : Char} (h : isNameChar c = true) : c ≠ '*' ∧ c ≠ '^' := by
  constructor <;>
    · rintro rfl
      exact absurd h (by decide)

/-- A character of a name is written as it is. -/
theorem written_of_isNameChar {state : Kind × Bool} {c : Char} (h : isNameChar c = true) :
    written state c = productSign state c ++ [c] := by
  have hpower : ¬ (c == '^') = true := by simpa using (isNameChar_ne h).2
  simp only [written, isBlank_of_isNameChar h, if_neg hpower]
  rfl

/-- What is written for a character holds no other character of a name. -/
theorem eq_of_written {state : Kind × Bool} {c d : Char} {front rest : List Char}
    (hd : isNameChar d = true) (h : written state c = front ++ d :: rest) :
    c = d ∧ front = productSign state d ∧ rest = [] := by
  obtain ⟨hstar, -⟩ := isNameChar_ne hd
  have hmem : d ∈ written state c := h ▸ List.mem_append_right _ List.mem_cons_self
  have hc : c = d := by
    unfold written productSign at hmem
    split at hmem
    · cases hmem
    · rcases List.mem_append.1 hmem with hmem | hmem
      · split at hmem <;> simp [hstar] at hmem
      · split at hmem
        · simp [hstar] at hmem
        · exact (List.mem_singleton.1 hmem).symm
  subst hc
  rw [written_of_isNameChar hd] at h
  have hsign : ∀ e ∈ productSign state c, e ≠ c := by
    intro e he
    unfold productSign at he
    split at he
    · exact List.mem_singleton.1 he ▸ hstar.symm
    · cases he
  have hunique : c ∉ productSign state c := fun hmem => hsign c hmem rfl
  obtain ⟨hfront, -, hrest⟩ := (List.append_cons_inj_of_notMem hunique List.not_mem_nil).1 h
  exact ⟨rfl, hfront.symm, hrest.symm⟩

/-- A character of a name that is written stands in the text. -/
theorem split_at_isNameChar (state : Kind × Bool) {d : Char} {text front rest : List Char}
    (hd : isNameChar d = true) (h : spellProducts state.1 state.2 text = front ++ d :: rest) :
    ∃ before after, text = before ++ d :: after ∧
      front = spellProducts state.1 state.2 before ++ productSign (before.foldl behind state) d ∧
      rest = spellProducts (behind (before.foldl behind state) d).1
        (behind (before.foldl behind state) d).2 after := by
  induction text generalizing state front with
  | nil => simp [spellProducts] at h
  | cons c cs ih =>
    rw [spellProducts_cons] at h
    have hlater : ∀ later, front = written state c ++ later →
        spellProducts (behind state c).1 (behind state c).2 cs = later ++ d :: rest →
        ∃ before after, c :: cs = before ++ d :: after ∧
          front = spellProducts state.1 state.2 before ++
            productSign (before.foldl behind state) d ∧
          rest = spellProducts (behind (before.foldl behind state) d).1
            (behind (before.foldl behind state) d).2 after := by
      intro later hfront hcs
      obtain ⟨before, after, rfl, hlater, hrest⟩ := ih _ hcs
      refine ⟨c :: before, after, rfl, ?_, hrest⟩
      rw [hfront, hlater, spellProducts_cons, List.append_assoc]
      rfl
    rcases List.append_eq_append_iff.1 h with ⟨later, hfront, hcs⟩ | ⟨tail, hwritten, hcs⟩
    · exact hlater later hfront hcs
    · cases tail with
      | nil => exact hlater [] (by simpa using hwritten.symm) (by simpa using hcs.symm)
      | cons e es =>
        obtain ⟨rfl, hcs⟩ := List.cons.inj hcs
        obtain ⟨rfl, hfront, rfl⟩ := eq_of_written hd hwritten
        exact ⟨[], cs, rfl, hfront, by simpa using hcs⟩

/-! ## To the left of a name -/

/-- No character of a name stands at the end, apart from the digits of a number. -/
def EndsApart (text : List Char) : Prop :=
  ∃ front digits, text = front ++ digits ∧ (∀ c ∈ front.getLast?, isNameChar c = false) ∧
    ∀ c ∈ digits, c.isDigit = true

theorem EndsApart.of_not {text : List Char} {c : Char} (h : isNameChar c = false) :
    EndsApart (text ++ [c]) := by
  refine ⟨text ++ [c], [], (List.append_nil _).symm, ?_, nofun⟩
  simpa using h

theorem EndsApart.digit {text : List Char} {c : Char} (h : EndsApart text) (hc : c.isDigit = true) :
    EndsApart (text ++ [c]) := by
  obtain ⟨front, digits, rfl, hfront, hdigits⟩ := h
  refine ⟨front, digits ++ [c], List.append_assoc _ _ _, hfront, fun d hd => ?_⟩
  rcases List.mem_append.1 hd with hd | hd
  · exact hdigits d hd
  · exact List.mem_singleton.1 hd ▸ hc

/-- Behind a character of a name the scanner is in a word, unless the character is a digit outside
of words. -/
theorem behind_of_isNameChar (state : Kind × Bool) {c : Char} (h : isNameChar c = true) :
    behind state c = (.word, false) ∨
      c.isDigit = true ∧ state ≠ (.word, false) ∧ behind state c = (.number, false) := by
  have hpoint : c ≠ '.' := by
    rintro rfl
    exact absurd h (by decide)
  have hword : Kind.word.goesOnWith c = true := h
  have hnumber : Kind.number.goesOnWith c = c.isDigit := by simp [Kind.goesOnWith, hpoint]
  have hof : Kind.of c = if c.isDigit then .number else .word := by
    have hletter : c.isDigit = false → (c.isAlpha || c == '_') = true := by
      intro hdigit
      simpa [isNameChar, Char.isAlphanum, hdigit] using h
    cases hdigit : c.isDigit with
    | true => simp [Kind.of, hdigit]
    | false => simp [Kind.of, hdigit, hpoint, hletter hdigit]
  rw [behind, isBlank_of_isNameChar h, hof]
  obtain ⟨k, gap⟩ := state
  cases hdigit : c.isDigit <;> cases k <;> cases gap <;>
    simp_all [Kind.goesOnWith]

/-- Behind any other character it is in no word. -/
theorem behind_of_not_isNameChar {state : Kind × Bool} {c : Char} (h : isNameChar c = false) :
    behind state c ≠ (.word, false) := by
  have hword : Kind.word.goesOnWith c = false := h
  have hof : Kind.of c ≠ .word := by
    have hletter : (c.isAlpha || c == '_') = false := by
      simp only [isNameChar, Char.isAlphanum, Bool.or_eq_false_iff] at h ⊢
      exact ⟨h.1.1, h.2⟩
    unfold Kind.of
    rw [hletter]
    split_ifs <;> simp_all
  obtain ⟨k, gap⟩ := state
  unfold behind
  split_ifs with hblank hgo
  · exact fun heq => absurd (Prod.mk.inj heq).2 (by decide)
  · rintro heq
    obtain rfl : k = .word := (Prod.mk.inj heq).1
    simp [hword] at hgo
  · exact fun heq => hof (Prod.mk.inj heq).1

/-- In a word the text ends with a character of a name, otherwise at most with that of a number. -/
theorem left_foldl_behind (text : List Char) :
    (text.foldl behind (.other, false) = (.word, false) →
      ∃ c ∈ text.getLast?, isNameChar c = true) ∧
    (text.foldl behind (.other, false) ≠ (.word, false) → EndsApart text) := by
  induction text using List.reverseRecOn with
  | nil => exact ⟨nofun, fun _ => ⟨[], [], rfl, nofun, nofun⟩⟩
  | append_singleton text c ih =>
    rw [List.foldl_append, List.foldl_cons, List.foldl_nil]
    cases hc : isNameChar c with
    | false => exact ⟨fun hword => absurd hword (behind_of_not_isNameChar hc), fun _ => .of_not hc⟩
    | true =>
      refine ⟨fun _ => ⟨c, by simp, hc⟩, fun hword => ?_⟩
      obtain hword' | ⟨hdigit, hout, -⟩ := behind_of_isNameChar _ hc
      · exact absurd hword' hword
      · exact (ih.2 hout).digit hdigit

/-! ## Inside a name -/

/-- Which character may stand behind which in a part that spells a name: behind a blank none with
which a product begins. -/
def MayFollow (c d : Char) : Prop :=
  Text.isBlank c = true → Text.isBlank d = true ∨ d.isDigit = true ∨ d = '_'

/-- A part of a text, with what stands before and behind it, that spells a name. -/
structure SpelledBy (name before piece after : List Char) : Prop where
  chars : piece.filter (fun c => !Text.isBlank c) = name
  blanks : piece.IsChain MayFollow
  first : ∀ c ∈ piece.head?, Text.isBlank c = false
  last : ∀ c ∈ piece.getLast?, Text.isBlank c = false
  left : EndsApart before
  right : piece = name → ∀ c ∈ after.head?, isNameChar c = false

/-- A part of the text spells the name. -/
def IsSpelledIn (name text : List Char) : Prop :=
  ∃ before piece after, text = before ++ (piece ++ after) ∧ SpelledBy name before piece after

/-- The first character of a name that is written in front is the first one in the text. -/
theorem of_written_append {state : Kind × Bool} {c d : Char} {text rest : List Char}
    (hblank : Text.isBlank d = false) (hc : isNameChar c = true)
    (h : written state d ++ text = c :: rest) : d = c ∧ productSign state c = [] ∧ text = rest := by
  have hne : written state d ≠ [] := by
    have hpower : (if d == '^' then ['*', '*'] else [d]) ≠ [] := by
      split <;> exact List.cons_ne_nil _ _
    simp only [written, hblank]
    exact List.append_ne_nil_of_right_ne_nil _ hpower
  obtain ⟨e, es, hes⟩ := List.exists_cons_of_ne_nil hne
  rw [hes, List.cons_append] at h
  obtain ⟨rfl, hrest⟩ := List.cons.inj h
  have hes : written state d = [] ++ e :: es := hes
  obtain ⟨rfl, hsign, rfl⟩ := eq_of_written hc hes
  exact ⟨rfl, hsign.symm, hrest⟩

/-- Behind an operand and blanks no product begins with a digit or an underscore only. -/
theorem of_productSign_gap {k : Kind} {c : Char} (hends : k.endsOperand = true)
    (hc : isNameChar c = true) (h : productSign (k, true) c = []) : c.isDigit = true ∨ c = '_' := by
  have hstarts : startsOperand c = false := by
    by_contra hstarts
    have hstarts : startsOperand c = true := by simpa using hstarts
    simp [productSign, hstarts, hends] at h
  have hletter : c.isAlpha = false := (Bool.or_eq_false_iff.1 hstarts).1
  simpa [isNameChar, Char.isAlphanum, hletter] using hc

/-- What holds of the first and of the last item holds of the last. -/
theorem forall_getLast?_cons {α : Type} {P : α → Prop} {x : α} {xs : List α} (hx : P x)
    (hxs : ∀ y ∈ xs.getLast?, P y) : ∀ y ∈ (x :: xs).getLast?, P y := by
  intro y hy
  cases hlast : xs.getLast? with
  | none =>
    obtain rfl := List.getLast?_eq_none_iff.1 hlast
    exact Option.some.inj hy ▸ hx
  | some z =>
    rw [List.getLast?_cons, hlast] at hy
    exact Option.some.inj hy ▸ hxs z hlast

/-- The characters of a name that are written next are spelled by a part of the text in front. -/
theorem exists_piece {k : Kind} {gap : Bool} {text w rest : List Char}
    (hends : k.endsOperand = true) (hw : ∀ c ∈ w, isNameChar c = true)
    (h : spellProducts k gap text = w ++ rest) :
    ∃ piece after, text = piece ++ after ∧ piece.filter (fun c => !Text.isBlank c) = w ∧
      piece.IsChain MayFollow ∧ (∀ c ∈ piece.getLast?, Text.isBlank c = false) ∧
      (gap = true → ∀ c ∈ piece.head?,
        Text.isBlank c = true ∨ c.isDigit = true ∨ c = '_') ∧
      (k = .word → gap = false → piece = w → (∀ c ∈ rest.head?, isNameChar c = false) →
        ∀ c ∈ after.head?, isNameChar c = false) := by
  induction text generalizing k gap w with
  | nil =>
    obtain ⟨rfl, rfl⟩ := List.append_eq_nil_iff.1 h.symm
    exact ⟨[], [], rfl, rfl, .nil, nofun, fun _ => nofun, fun _ _ _ _ => nofun⟩
  | cons d ds ih =>
    have hcons := spellProducts_cons (k, gap) d ds
    rw [h] at hcons
    cases w with
    | nil =>
      refine ⟨[], d :: ds, rfl, rfl, .nil, nofun, fun _ => nofun, ?_⟩
      rintro rfl rfl - hrest _ ⟨⟩
      -- a character of a name would have been written next
      by_contra hname
      have hname : isNameChar d = true := by simpa using hname
      rw [written_of_isNameChar hname, productSign_word hname, List.nil_append] at hcons
      rw [hrest d (by simp [hcons])] at hname
      cases hname
    | cons c cs =>
      have hc := hw c List.mem_cons_self
      have hcs : ∀ c ∈ cs, isNameChar c = true := fun c hc => hw c (List.mem_cons_of_mem _ hc)
      cases hblank : Text.isBlank d with
      | true =>
        have hwritten : written (k, gap) d = [] := if_pos hblank
        have hbehind : behind (k, gap) d = (k, true) := if_pos hblank
        rw [hwritten, hbehind, List.nil_append] at hcons
        obtain ⟨piece, after, rfl, hchars, hchain, hlast, hfirst, -⟩ := ih hends hw hcons.symm
        have hne : piece ≠ [] := by
          rintro rfl
          cases hchars
        refine ⟨d :: piece, after, rfl, by simp [hblank, hchars],
          List.isChain_cons.2 ⟨fun e he _ => hfirst rfl e he, hchain⟩, ?_, ?_, ?_⟩
        · rwa [List.getLast?_cons_of_ne_nil hne]
        · rintro - _ ⟨⟩
          exact .inl hblank
        · rintro - - heq
          obtain ⟨rfl, -⟩ := List.cons.inj heq
          rw [isBlank_of_isNameChar hc] at hblank
          cases hblank
      | false =>
        obtain ⟨rfl, hsign, htext⟩ := of_written_append hblank hc hcons.symm
        have hends' : (behind (k, gap) d).1.endsOperand = true := by
          obtain hbehind | ⟨-, -, hbehind⟩ := behind_of_isNameChar (k, gap) hc <;>
            rw [hbehind] <;> rfl
        obtain ⟨piece, after, rfl, hchars, hchain, hlast, -, hright⟩ := ih hends' hcs htext
        refine ⟨d :: piece, after, rfl, by simp [hblank, hchars],
          List.isChain_cons.2 ⟨fun e _ hd => ?_, hchain⟩, ?_, ?_, ?_⟩
        · rw [hblank] at hd
          cases hd
        · exact forall_getLast?_cons hblank hlast
        · rintro rfl _ ⟨⟩
          exact .inr (of_productSign_gap hends hc hsign)
        · rintro rfl rfl heq hrest
          obtain hbehind | ⟨-, hout, -⟩ := behind_of_isNameChar (.word, false) hc
          · exact hright (by rw [hbehind]) (by rw [hbehind]) (List.cons.inj heq).2 hrest
          · exact absurd rfl hout

/-- A word that is written is spelled by a part of the text. -/
theorem isSpelledIn_of_written {text w front rest : List Char} (hw : IsWord w)
    (h : spellProducts .other false text = front ++ (w ++ rest))
    (hfront : ∀ c ∈ front.getLast?, isNameChar c = false)
    (hrest : ∀ c ∈ rest.head?, isNameChar c = false) : IsSpelledIn w text := by
  obtain ⟨c, cs, rfl⟩ := List.exists_cons_of_ne_nil hw.ne_nil
  have hc : isNameChar c = true := hw.chars c List.mem_cons_self
  obtain ⟨before, text, rfl, hbefore, htext⟩ := split_at_isNameChar (.other, false) hc h
  -- a word in front would have gone on
  have hout : before.foldl behind (.other, false) ≠ (.word, false) := by
    intro hword
    obtain ⟨d, hd, hname⟩ := (left_foldl_behind before).1 hword
    obtain ⟨init, rfl⟩ := List.getLast?_eq_some_iff.1 hd
    rw [hword, productSign_word hc, List.append_nil, spellProducts_append (.other, false),
      spellProducts_cons, written_of_isNameChar hname] at hbefore
    have hlast : d ∈ front.getLast? := by simp [hbefore, spellProducts]
    rw [hfront d hlast] at hname
    cases hname
  have hleft : EndsApart before := (left_foldl_behind before).2 hout
  have hbehind : behind (before.foldl behind (.other, false)) c = (.word, false) := by
    obtain hbehind | ⟨hdigit, -⟩ := behind_of_isNameChar (before.foldl behind (.other, false)) hc
    · exact hbehind
    · exact absurd hdigit (by simpa using not_isDigit_of_isNameStart hw.isNameStart)
  rw [hbehind] at htext
  have hcs : ∀ c ∈ cs, isNameChar c = true := fun c hc => hw.chars c (List.mem_cons_of_mem _ hc)
  obtain ⟨piece, after, rfl, hchars, hchain, hlast, -, hright⟩ := exists_piece rfl hcs htext.symm
  have hblank := isBlank_of_isNameChar hc
  refine ⟨before, c :: piece, after, rfl, by simp [hblank, hchars], ?_, ?_, ?_, hleft, ?_⟩
  · refine List.isChain_cons.2 ⟨fun e _ hblank' => ?_, hchain⟩
    rw [hblank] at hblank'
    cases hblank'
  · rintro _ ⟨⟩
    exact hblank
  · exact forall_getLast?_cons hblank hlast
  · exact fun heq => hright rfl rfl (List.cons.inj heq).2 hrest

/-! ## From the canonical text to the text -/

theorem EndsApart.of_map {text : List Char} (h : EndsApart (text.map parenthesis)) :
    EndsApart text := by
  obtain ⟨front', digits', heq, hfront, hdigits⟩ := h
  obtain ⟨front, digits, rfl, rfl, rfl⟩ := List.map_eq_append_iff.1 heq
  refine ⟨front, digits, rfl, fun c hc => ?_, fun c hc => ?_⟩
  · rw [← (of_parenthesis c).1]
    exact hfront _ (by simpa using ⟨c, hc, rfl⟩)
  · rw [← (of_parenthesis c).2.1]
    exact hdigits _ (List.mem_map_of_mem hc)

/-- What spells a name stands in the text also before its braces are replaced. -/
theorem IsSpelledIn.of_map {text w : List Char} (hw : IsWord w)
    (h : IsSpelledIn w (text.map parenthesis)) : IsSpelledIn w text := by
  obtain ⟨before', piece', after', htext, h⟩ := h
  obtain ⟨before, tail, rfl, rfl, htail⟩ := List.map_eq_append_iff.1 htext
  obtain ⟨piece, after, rfl, rfl, rfl⟩ := List.map_eq_append_iff.1 htail
  have hkind : ∀ c ∈ piece, Text.isBlank c = true ∨ isNameChar c = true := by
    intro c hc
    rw [← (of_parenthesis c).1, ← (of_parenthesis c).2.2]
    cases hblank : Text.isBlank (parenthesis c) with
    | true => exact .inl rfl
    | false =>
      refine .inr (hw.chars _ ?_)
      rw [← h.chars]
      exact List.mem_filter.2 ⟨List.mem_map_of_mem hc, by simp [hblank]⟩
  -- a brace is neither blank nor in a name
  have hsame : piece.map parenthesis = piece :=
    map_parenthesis (fun hmem => absurd (hkind _ hmem) (by decide))
      (fun hmem => absurd (hkind _ hmem) (by decide))
  rw [hsame] at h
  refine ⟨before, piece, after, rfl, h.chars, h.blanks, h.first, h.last, h.left.of_map, ?_⟩
  intro heq c hc
  rw [← (of_parenthesis c).1]
  exact h.right heq _ (by simpa using ⟨c, hc, rfl⟩)

/-- A part of a text that has no character of a name next to it. -/
def IsFragment (text fragment : List Char) : Prop :=
  ∃ before after, text = before ++ (fragment ++ after) ∧
    (∀ c ∈ before.getLast?, isNameChar c = false) ∧ ∀ c ∈ after.head?, isNameChar c = false

theorem IsFragment.refl (text : List Char) : IsFragment text text :=
  ⟨[], [], by simp, nofun, nofun⟩

theorem EndsApart.append {text front : List Char} (h : EndsApart text)
    (hfront : ∀ c ∈ front.getLast?, isNameChar c = false) : EndsApart (front ++ text) := by
  obtain ⟨init, digits, rfl, hinit, hdigits⟩ := h
  refine ⟨front ++ init, digits, (List.append_assoc _ _ _).symm, fun c hc => ?_, hdigits⟩
  rw [List.getLast?_append] at hc
  rcases Option.or_eq_some_iff.1 hc with hc | ⟨-, hc⟩
  · exact hinit c hc
  · exact hfront c hc

/-- What spells a name in a fragment spells it in the text. -/
theorem IsSpelledIn.of_fragment {text fragment w : List Char} (hfragment : IsFragment text fragment)
    (h : IsSpelledIn w fragment) : IsSpelledIn w text := by
  obtain ⟨front, rest, rfl, hfront, hrest⟩ := hfragment
  obtain ⟨before, piece, after, rfl, h⟩ := h
  refine ⟨front ++ before, piece, after ++ rest, by simp, h.chars, h.blanks, h.first, h.last,
    h.left.append hfront, fun heq c hc => ?_⟩
  rw [List.head?_append] at hc
  rcases Option.or_eq_some_iff.1 hc with hc | ⟨-, hc⟩
  · exact h.right heq c hc
  · exact hrest c hc

/-- The names of what a fragment states are spelled by the fragment. -/
theorem names_of_readFragment {fragment : List Char} {e : Expression K} {name : String}
    (hmark : '\\' ∉ fragment) (h : readFragment fragment = .ok e) (hname : name ∈ e.tree.names) :
    IsWord name.toList ∧ IsSpelledIn name.toList fragment := by
  obtain ⟨-, ts, hlex, hderives⟩ := read_eq_ok_iff.1 h
  rw [String.toList_ofList] at hlex
  obtain ⟨hword, -⟩ := names_of_derives hderives name hname
  have hw : IsWord name.toList := (Token.spells_word.1 (hlex.spells _ hword)).2
  obtain ⟨front, rest, hwritten, hapart, -⟩ :=
    exists_run_of_word_mem hlex (neat_of_derives hderives).chain hword
  rw [canonicalChars_of_plain hmark] at hwritten
  exact ⟨hw, (isSpelledIn_of_written hw hwritten hapart.left hapart.right).of_map hw⟩

/-- The sides of an equation with the sign between them. -/
theorem eq_append_of_splitAtEquals {text left right : List Char} {depth : Int}
    (h : splitAtEquals depth text = some (left, right)) : text = left ++ '=' :: right := by
  induction text generalizing depth left with
  | nil => cases h
  | cons c cs ih =>
    unfold splitAtEquals at h
    split at h
    · next hsign =>
      obtain ⟨rfl, rfl⟩ := Prod.mk.inj (Option.some.inj h)
      rw [hsign.1]
      rfl
    · obtain ⟨⟨left', right'⟩, hsplit, heq⟩ := Option.map_eq_some_iff.1 h
      obtain ⟨rfl, rfl⟩ := Prod.mk.inj heq
      rw [ih hsplit, List.cons_append]

/-! ## The names of a problem -/

/-- A blank is no character of a name. -/
theorem not_isNameChar_of_isBlank {c : Char} (h : Text.isBlank c = true) :
    isNameChar c = false := by
  by_contra hname
  rw [isBlank_of_isNameChar (by simpa using hname)] at h
  cases h

/-- A trimmed text is a fragment, and so are the sides of an equation. -/
theorem isFragment_trim (text : List Char) : IsFragment text (Text.trim text) := by
  obtain ⟨before, after, htext, hbefore, hafter⟩ := Text.exists_trim text
  exact ⟨before, after, htext,
    fun c hc => not_isNameChar_of_isBlank (hbefore c (List.mem_of_getLast? hc)),
    fun c hc => not_isNameChar_of_isBlank (hafter c (List.mem_of_head? hc))⟩

theorem isFragment_sides {text left right : List Char}
    (h : splitAtEquals 0 text = some (left, right)) :
    IsFragment text left ∧ IsFragment text right := by
  have htext := eq_append_of_splitAtEquals h
  refine ⟨⟨[], '=' :: right, htext, nofun, ?_⟩, ⟨left ++ ['='], [], by simp [htext], ?_, nofun⟩⟩
  · rintro _ ⟨⟩
    rfl
  · intro c hc
    obtain rfl : '=' = c := by simpa using hc
    rfl

theorem IsFragment.not_mem {text fragment : List Char} {c : Char} (h : IsFragment text fragment)
    (hc : c ∉ text) : c ∉ fragment := by
  obtain ⟨before, after, rfl, -⟩ := h
  simp only [List.mem_append, not_or] at hc
  exact hc.2.1

/-- The name stands in the text as a whole; digits in front of it are those of a number. -/
def IsWholeIn (name text : List Char) : Prop :=
  ∃ before after, text = before ++ (name ++ after) ∧ EndsApart before ∧
    ∀ c ∈ after.head?, isNameChar c = false

/-- Somewhere blanks stand between a character of a name and a digit or an underscore. -/
def HasGap (text : List Char) : Prop :=
  ∃ front c blanks d back, text = front ++ c :: (blanks ++ d :: back) ∧ isNameChar c = true ∧
    blanks ≠ [] ∧ (∀ b ∈ blanks, Text.isBlank b = true) ∧ (d.isDigit = true ∨ d = '_')

/-- Where a name is spelled with blanks, there is such a gap. -/
theorem SpelledBy.hasGap {name before piece after : List Char} (hname : IsWord name)
    (h : SpelledBy name before piece after) (hne : piece ≠ name) :
    HasGap (before ++ (piece ++ after)) := by
  have hsome : ∃ b ∈ piece, Text.isBlank b = true := by
    by_contra hnone
    push Not at hnone
    refine hne ((List.filter_eq_self.2 fun c hc => ?_).symm.trans h.chars)
    simpa using hnone c hc
  obtain ⟨b, hfind⟩ := Option.isSome_iff_exists.1 (List.find?_isSome.2 hsome)
  obtain ⟨hb, front, rest, rfl, hfront⟩ := List.find?_eq_some_iff_append.1 hfind
  -- in front of the first blank there is a character of the name
  obtain ⟨init, c, rfl⟩ : ∃ init c, front = init ++ [c] := by
    rcases List.eq_nil_or_concat' front with rfl | hconcat
    · rw [h.first b rfl] at hb
      cases hb
    · exact hconcat
  have hc : isNameChar c = true := by
    refine hname.chars c ?_
    rw [← h.chars]
    exact List.mem_filter.2 ⟨by simp, hfront c (by simp)⟩
  -- behind it there is one that is not blank
  have hbehind : ∃ d ∈ rest, (!Text.isBlank d) = true := by
    rcases List.eq_nil_or_concat' rest with rfl | ⟨rest, d, rfl⟩
    · rw [h.last b (by simp)] at hb
      cases hb
    · have hd : Text.isBlank d = false := by
        refine h.last d ?_
        rw [← List.cons_append, ← List.append_assoc]
        exact List.getLast?_concat
      exact ⟨d, by simp, by simp [hd]⟩
  obtain ⟨d, hfind⟩ := Option.isSome_iff_exists.1 (List.find?_isSome.2 hbehind)
  obtain ⟨hd, blanks, back, rfl, hblanks⟩ := List.find?_eq_some_iff_append.1 hfind
  have hblanks : ∀ e ∈ b :: blanks, Text.isBlank e = true :=
    List.forall_mem_cons.2 ⟨hb, fun e he => by simpa using hblanks e he⟩
  refine ⟨before ++ init, c, b :: blanks, d, back ++ after, by simp, hc, List.cons_ne_nil _ _,
    hblanks, ?_⟩
  have hchain := h.blanks
  rw [← List.cons_append, ← List.append_assoc] at hchain
  obtain ⟨-, -, hlast⟩ := List.isChain_append.1 hchain
  have hmem : (b :: blanks).getLast (List.cons_ne_nil _ _) ∈
      (init ++ [c] ++ b :: blanks).getLast? := by
    rw [List.getLast?_append_of_ne_nil _ (List.cons_ne_nil _ _)]
    exact List.getLast?_eq_some_getLast _
  rcases hlast _ hmem d rfl (hblanks _ (List.getLast_mem _)) with hblank | hdigit
  · simp [hblank] at hd
  · exact hdigit

/-- Without such gaps a name that is spelled by a part of the text stands there as a whole. -/
theorem IsSpelledIn.isWholeIn {name text : List Char} (hname : IsWord name)
    (h : IsSpelledIn name text) (hgap : ¬ HasGap text) : IsWholeIn name text := by
  obtain ⟨before, piece, after, rfl, h⟩ := h
  obtain rfl : piece = name := by
    by_contra hne
    exact hgap (h.hasGap hname hne)
  exact ⟨before, after, rfl, h.left, h.right rfl⟩

/-- Every name of an expression or an equation is spelled by a part of the text, and if no blanks
stand between a character of a name and a digit or an underscore it stands there as a whole. -/
theorem names_of_problem {latex : String} {p : Problem K} (hmark : '\\' ∉ latex.toList)
    (h : Problem.read latex = .ok p) :
    (∀ e, p = .expression e → ∀ name ∈ e.unknowns, IsSpelledIn name.toList latex.toList ∧
      (¬ HasGap latex.toList → IsWholeIn name.toList latex.toList)) ∧
    ∀ q, p = .equation q → ∀ name ∈ q.unknowns, IsSpelledIn name.toList latex.toList ∧
      (¬ HasGap latex.toList → IsWholeIn name.toList latex.toList) := by
  have htrim := isFragment_trim latex.toList
  have hmark' := htrim.not_mem hmark
  have hfragment : ∀ (fragment : List Char) (e : Expression K),
      IsFragment (Text.trim latex.toList) fragment → readFragment fragment = .ok e →
        ∀ name ∈ e.tree.names, IsSpelledIn name.toList latex.toList ∧
          (¬ HasGap latex.toList → IsWholeIn name.toList latex.toList) := by
    intro fragment e hpart he name hname
    obtain ⟨hword, hspelled⟩ := names_of_readFragment (hpart.not_mem hmark') he hname
    have hspelled : IsSpelledIn name.toList latex.toList :=
      .of_fragment htrim (.of_fragment hpart hspelled)
    exact ⟨hspelled, hspelled.isWholeIn hword⟩
  have hne : Text.trim latex.toList ≠ [] := by
    intro hnil
    rw [Problem.read, hnil] at h
    cases h
  rw [Problem.read, readTrimmed_of_not_integral hne (not_integralMark hmark')] at h
  split at h
  · next left right hsides =>
    obtain ⟨hleft, hright⟩ := isFragment_sides hsides
    simp only [bind_eq_ok] at h
    obtain ⟨l, hl, r, hr, heq⟩ := h
    obtain rfl := Except.ok.inj heq
    refine ⟨by rintro _ ⟨⟩, ?_⟩
    rintro _ ⟨⟩ name hname
    rcases List.mem_append.1 (mem_distinctNames.1 hname) with hname | hname
    · exact hfragment left l hleft hl name hname
    · exact hfragment right r hright hr name hname
  · obtain ⟨e, he, heq⟩ := bind_eq_ok.1 h
    obtain rfl := Except.ok.inj heq
    refine ⟨?_, by rintro _ ⟨⟩⟩
    rintro _ ⟨⟩ name hname
    exact hfragment _ e (.refl _) he name (mem_distinctNames.1 hname)

/-- A text in which nothing is blank has no gap. -/
theorem not_hasGap {text : List Char} (h : ∀ c ∈ text, Text.isBlank c = false) : ¬ HasGap text := by
  rintro ⟨front, c, blanks, d, back, rfl, -, hne, hblanks, -⟩
  obtain ⟨b, bs, rfl⟩ := List.exists_cons_of_ne_nil hne
  have hb : Text.isBlank b = true := hblanks b List.mem_cons_self
  rw [h b (by simp)] at hb
  cases hb

/-- A text with the canonical text `2*w+v` states an expression in which `w` and `v` are unknown. -/
theorem exists_problem_of_canonical {latex : String} {w v : List Char} (hw : IsIdentifier w)
    (hv : IsIdentifier v) (hne : latex.toList ≠ []) (hmark : '\\' ∉ latex.toList)
    (hequals : '=' ∉ latex.toList) (htrim : Text.trim latex.toList = latex.toList)
    (hcanonical : canonicalChars latex.toList = ['2', '*'] ++ w ++ ['+'] ++ v) :
    ∃ e : Expression Float, Problem.read latex = .ok (.expression e) ∧
      String.ofList w ∈ e.unknowns ∧ String.ofList v ∈ e.unknowns := by
  obtain ⟨t, ht, hnames⟩ : ∃ t : Tree Float,
      Derives .sum [.number ['2'], .operator .times, .word w, .operator .plus, .word v] t ∧
        t.names = [String.ofList w, String.ofList v] :=
    ⟨_, .sum (.inl rfl) (.ofTerm (.term (.inl rfl) (.ofUnary (.ofPower (.ofAtom (.number _))))
      (.ofPower (.ofAtom (.name hw.2))))) (.ofUnary (.ofPower (.ofAtom (.name hv.2)))), rfl⟩
  have hread : ∃ e : Expression Float, readFragment latex.toList = .ok e ∧ e.tree = t := by
    refine ⟨_, readFragment_of_derives (by simp [hcanonical, Token.spelling]) ?_ ht, rfl⟩
    simp only [List.forall_mem_cons]
    exact ⟨.number (by decide), .symbol (by decide), .word hw.1, .symbol (by decide), .word hv.1,
      nofun⟩
  obtain ⟨e, he, rfl⟩ := hread
  have hproblem : Problem.read latex = .ok (.expression e) := by
    rw [Problem.read, htrim, readTrimmed_of_not_integral hne (not_integralMark hmark),
      splitAtEquals_of_not_mem hequals]
    simp only [he, ok_bind]
    rfl
  exact ⟨e, hproblem, mem_distinctNames.2 (by simp [hnames]),
    mem_distinctNames.2 (by simp [hnames])⟩

/-- A name with a digit, in a product that is not spelled. -/
theorem names_of_problem_product :
    ∃ e : Expression Float, Problem.read "2x_1+y" = .ok (.expression e) ∧ "x_1" ∈ e.unknowns ∧
      "y" ∈ e.unknowns ∧ ∀ name ∈ e.unknowns, IsWholeIn name.toList "2x_1+y".toList := by
  have hw : IsIdentifier ['x', '_', '1'] := by decide
  have hv : IsIdentifier ['y'] := by decide
  obtain ⟨e, hproblem, hx, hy⟩ := exists_problem_of_canonical hw hv (by decide) (by decide)
    (by decide) (by decide) (show canonicalChars "2x_1+y".toList = _ by decide)
  have hgap : ¬ HasGap "2x_1+y".toList := by
    refine not_hasGap fun c hc => ?_
    fin_cases hc <;> rfl
  exact ⟨e, hproblem, hx, hy, fun name hname =>
    ((names_of_problem (by decide) hproblem).1 _ rfl name hname).2 hgap⟩

/-- A name need not stand apart: a number that is multiplied by it stands in front of `x`. And what
is spelled over a blank does not stand in the text at all, like `y_z`. -/
theorem names_behind_number_and_over_blank :
    ∃ e : Expression Float, Problem.read "2x + y _z" = .ok (.expression e) ∧
      ("x" ∈ e.unknowns ∧ ¬ ∃ before after, "2x + y _z".toList = before ++ ("x".toList ++ after) ∧
        (∀ c ∈ before.getLast?, isNameChar c = false) ∧ ∀ c ∈ after.head?, isNameChar c = false) ∧
      "y_z" ∈ e.unknowns ∧
        ¬ ∃ before after, "2x + y _z".toList = before ++ ("y_z".toList ++ after) := by
  have hw : IsIdentifier ['x'] := by decide
  have hv : IsIdentifier ['y', '_', 'z'] := by decide
  obtain ⟨e, hproblem, hx, hy⟩ := exists_problem_of_canonical hw hv (by decide) (by decide)
    (by decide) (by decide) (show canonicalChars "2x + y _z".toList = _ by decide)
  refine ⟨e, hproblem, ⟨hx, ?_⟩, hy, ?_⟩
  · rintro ⟨before, after, htext, hbefore, -⟩
    have htext : ['2'] ++ 'x' :: [' ', '+', ' ', 'y', ' ', '_', 'z'] =
      before ++ 'x' :: after := htext
    obtain ⟨rfl, -⟩ := (List.append_cons_inj_of_notMem (by decide) (by decide)).1 htext
    exact absurd (hbefore '2' rfl) (by decide)
  · rintro ⟨before, after, htext⟩
    have htext : ['2', 'x', ' ', '+', ' '] ++ 'y' :: [' ', '_', 'z'] =
      before ++ 'y' :: ('_' :: 'z' :: after) := htext
    obtain ⟨-, -, hafter⟩ := (List.append_cons_inj_of_notMem (by decide) (by decide)).1 htext
    cases hafter

end SchoolMath.Latex
