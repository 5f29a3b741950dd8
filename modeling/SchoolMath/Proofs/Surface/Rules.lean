import SchoolMath.Proofs.Surface.Reading

/-!
# `Surface.Rules` — what the rules of the surface grammar read

One equivalence for each rule that takes part in reading arithmetic: it splits what the rule reads
into what its parts read, with the blanks between them. Later arguments use these and never look
into the readers again.
-/

namespace SchoolMath.Surface

open Reader

theorem reads_bind_iff {α β : Type} {p : Reader α} {f : α → Reader β} {text rest : List Char}
    {b : β} :
    reads (p >>= f) text = some (b, rest) ↔
      ∃ a mid, reads p text = some (a, mid) ∧ reads (f a) mid = some (b, rest) := by
  rw [reads_bind, Option.bind_eq_some_iff]
  exact ⟨fun ⟨⟨a, mid⟩, h⟩ => ⟨a, mid, h⟩, fun ⟨a, mid, h⟩ => ⟨(a, mid), h⟩⟩

theorem scanSymbol_eq (symbol : String) (text : List Char) :
    scanSymbol symbol text =
      if symbol.toList <+: text then some (symbol.toList, text.drop symbol.toList.length)
      else none := by
  simp [scanSymbol, List.isPrefixOf_iff_prefix]
  rfl

/-- A symbol is read as what it is a symbol of. -/
theorem of_symbolToken {κ : Type} {kind : κ} {symbols : List String} {text rest : List Char}
    {token : Token κ} (h : reads (symbolToken kind symbols) text = some (token, rest)) :
    token.kind = kind ∧ ∃ symbol ∈ symbols, text = symbol.toList ++ rest := by
  rw [symbolToken, reads_named, reads_bind] at h
  obtain ⟨⟨word, rest'⟩, hword, h⟩ := Option.bind_eq_some_iff.1 h
  obtain ⟨rfl, rfl⟩ := Prod.mk.inj (Option.some.inj h)
  obtain ⟨p, hp, hread⟩ := exists_of_firstOf hword
  obtain ⟨symbol, hsymbol, rfl⟩ := List.mem_map.1 hp
  rw [reads_scan, scanSymbol_eq] at hread
  obtain ⟨⟨w, rest'⟩, hscan, heq⟩ := Option.map_eq_some_iff.1 hread
  obtain ⟨rfl, rfl⟩ := Prod.mk.inj heq
  split at hscan
  · next hprefix =>
    obtain ⟨tail, rfl⟩ := hprefix
    obtain ⟨rfl, rfl⟩ := Prod.mk.inj (Option.some.inj hscan)
    exact ⟨rfl, symbol, hsymbol, by simp⟩
  · cases hscan

/-- A word is read as what it stands for. -/
theorem kind_of_wordToken {κ : Type} {kind : κ} {word : String} {text rest : List Char}
    {token : Token κ} (h : reads (wordToken kind word) text = some (token, rest)) :
    token.kind = kind := by
  rw [wordToken, reads_named, reads_bind] at h
  obtain ⟨r, -, h⟩ := Option.bind_eq_some_iff.1 h
  obtain ⟨rfl, -⟩ := Prod.mk.inj (Option.some.inj h)
  rfl

theorem reads_mark (symbol : String) (text : List Char) :
    reads (mark symbol) text =
      if symbol.toList <+: text then some ((), text.drop symbol.toList.length) else none := by
  rw [mark, reads_bind, reads_scan, scanSymbol_eq]
  split <;> rfl

theorem reads_mark_iff {symbol : String} {u : Unit} {text rest : List Char} :
    reads (mark symbol) text = some (u, rest) ↔ text = symbol.toList ++ rest := by
  rw [reads_mark]
  split
  · next h =>
    obtain ⟨tail, rfl⟩ := h
    simp [eq_comm]
  · next h =>
    refine ⟨nofun, ?_⟩
    rintro rfl
    exact absurd (List.prefix_append _ _) h

theorem reads_gap_bind {β : Type} (f : Unit → Reader β) (text : List Char) :
    reads (gap >>= f) text = reads (f ()) (text.dropWhile isGap) := by
  rw [reads_bind, reads_gap, Option.bind_some]

theorem reads_pure_iff {α : Type} {a b : α} {text rest : List Char} :
    reads (pure a) text = some (b, rest) ↔ b = a ∧ text = rest := by
  rw [reads_pure, Option.some.injEq, Prod.mk.injEq, eq_comm]

theorem reads_captured_iff {α : Type} {p : Reader α} {a : α} {source : String}
    {text rest : List Char} : reads (captured p) text = some ((source, a), rest) ↔
      reads p text = some (a, rest) ∧
        source = String.ofList (text.take (text.length - rest.length)) := by
  rw [reads_captured, Option.map_eq_some_iff]
  constructor
  · rintro ⟨⟨b, mid⟩, h, heq⟩
    obtain ⟨⟨rfl, rfl⟩, rfl⟩ := heq
    exact ⟨h, rfl⟩
  · rintro ⟨h, rfl⟩
    exact ⟨(a, rest), h, rfl⟩

variable {inner : Reader Phrase} {text rest : List Char}

theorem reads_group_iff {read : Primary} :
    reads (group inner) text = some (read, rest) ↔
      ∃ phrase cs mid, text = '(' :: cs ∧ reads inner (cs.dropWhile isGap) = some (phrase, mid) ∧
        mid.dropWhile isGap = ')' :: rest ∧
        read = .group (String.ofList (text.take (text.length - rest.length))) phrase := by
  simp only [group, reads_named, reads_bind_iff, reads_gap_bind, reads_pure_iff, reads_captured_iff,
    Prod.exists, reads_mark_iff]
  constructor
  · rintro ⟨source, phrase, _, ⟨⟨_, cs, htext, _, mid, hinner, _, _, hclose, rfl, rfl⟩, rfl⟩, rfl,
      rfl⟩
    exact ⟨phrase, cs, mid, htext, hinner, hclose, rfl⟩
  · rintro ⟨phrase, cs, mid, rfl, hinner, hclose, rfl⟩
    exact ⟨_, phrase, rest, ⟨⟨(), cs, rfl, phrase, mid, hinner, (), rest, hclose, rfl, rfl⟩, rfl⟩,
      rfl, rfl⟩

theorem reads_operand_iff {read : Operand} :
    reads (operand inner) text = some (read, rest) ↔
      ∃ signs mid primary mid' suffixes, reads (repeated signToken) text = some (signs, mid) ∧
        reads (Surface.primary inner) (mid.dropWhile isGap) = some (primary, mid') ∧
        reads (repeated (suffix inner)) (mid'.dropWhile isGap) = some (suffixes, rest) ∧
        read = .mk signs primary suffixes := by
  simp only [operand, reads_bind_iff, reads_gap_bind, reads_pure_iff]
  constructor
  · rintro ⟨signs, mid, hsigns, primary, mid', hprimary, suffixes, _, hsuffixes, rfl, rfl⟩
    exact ⟨signs, mid, primary, mid', suffixes, hsigns, hprimary, hsuffixes, rfl⟩
  · rintro ⟨signs, mid, primary, mid', suffixes, hsigns, hprimary, hsuffixes, rfl⟩
    exact ⟨signs, mid, hsigns, primary, mid', hprimary, suffixes, rest, hsuffixes, rfl, rfl⟩

theorem reads_link_iff {read : Link} :
    reads (link inner) text = some (read, rest) ↔
      ∃ operator mid operand, reads infixToken text = some (operator, mid) ∧
        reads (Surface.operand inner) (mid.dropWhile isGap) = some (operand, rest) ∧
        read = .mk operator operand := by
  simp only [link, reads_bind_iff, reads_gap_bind, reads_pure_iff]
  constructor
  · rintro ⟨operator, mid, hoperator, operand, _, hoperand, rfl, rfl⟩
    exact ⟨operator, mid, operand, hoperator, hoperand, rfl⟩
  · rintro ⟨operator, mid, operand, hoperator, hoperand, rfl⟩
    exact ⟨operator, mid, hoperator, operand, rest, hoperand, rfl, rfl⟩

theorem reads_phrase_iff {read : Phrase} :
    reads (phrase inner) text = some (read, rest) ↔
      ∃ first mid links, reads (operand inner) text = some (first, mid) ∧
        reads (repeated (link inner)) (mid.dropWhile isGap) = some (links, rest) ∧
        read = .mk (String.ofList (text.take (text.length - rest.length))) first links := by
  simp only [phrase, reads_named, reads_bind_iff, reads_gap_bind, reads_pure_iff,
    reads_captured_iff, Prod.exists, Prod.mk.injEq]
  constructor
  · rintro ⟨_, first, links, _, ⟨⟨_, mid, hfirst, _, _, hlinks, ⟨rfl, rfl⟩, rfl⟩, rfl⟩, rfl, rfl⟩
    exact ⟨first, mid, links, hfirst, hlinks, rfl⟩
  · rintro ⟨first, mid, links, hfirst, hlinks, rfl⟩
    exact ⟨_, first, links, rest, ⟨⟨first, mid, hfirst, links, rest, hlinks, ⟨rfl, rfl⟩, rfl⟩, rfl⟩,
      rfl, rfl⟩

theorem reads_anyPhrase (text : List Char) :
    reads anyPhrase text = reads (phraseWithin (text.length + 1)) text := by
  unfold reads anyPhrase
  rfl

theorem reads_endOfText (text : List Char) :
    reads endOfText text = if text.isEmpty then some ((), []) else none :=
  reads_named (fun text => ⟨if text.isEmpty then some ((), []) else none, none⟩ : Reader Unit) text

/-- A text is a statement if nothing but blanks stands around the statement. -/
theorem parse_eq_ok_iff {text : String} {s : Statement} :
    parse text = .ok s ↔
      ∃ mid, reads (assignment <|> Statement.phrase <$> anyPhrase) (text.toList.dropWhile isGap) =
        some (s, mid) ∧ mid.dropWhile isGap = [] := by
  have hparse : parse text = .ok s ↔ ∃ rest, reads wholeText text.toList = some (s, rest) := by
    unfold parse reads
    rcases wholeText text.toList with ⟨_ | ⟨s', rest⟩, mark⟩ <;> simp
  rw [hparse]
  simp only [wholeText, reads_gap_bind, reads_bind_iff, reads_pure_iff, reads_endOfText]
  constructor
  · rintro ⟨rest, s', mid, hs, u, rest', hempty, rfl, rfl⟩
    refine ⟨mid, hs, ?_⟩
    by_contra hne
    simp [hne] at hempty
  · rintro ⟨mid, hs, hempty⟩
    exact ⟨[], s, mid, hs, (), [], by simp [hempty], rfl, rfl⟩

/-- An assignment is read as one, and off a name with the sign of an assignment behind it. -/
theorem of_assignment {s : Statement} (h : reads assignment text = some (s, rest)) :
    (∀ value, s ≠ .phrase value) ∧
      ∃ w mid cs, scanName text = some (w, mid) ∧ mid.dropWhile isGap = '=' :: cs := by
  rw [assignment, reads_bind_iff] at h
  obtain ⟨⟨source, name, sign, value⟩, end', hread, heq⟩ := h
  obtain ⟨rfl, -⟩ := reads_pure_iff.1 heq
  refine ⟨nofun, ?_⟩
  rw [reads_named, reads_captured_iff] at hread
  simp only [reads_bind_iff, reads_gap_bind, nameToken, reads_named, reads_scan,
    Option.map_eq_some_iff] at hread
  obtain ⟨⟨_, _, ⟨⟨w, mid⟩, hname, hpair⟩, _, _, ⟨⟨v, tail⟩, hassign, _⟩, _⟩, _⟩ := hread
  cases hpair
  simp only [] at hassign
  cases hmid : mid.dropWhile isGap with
  | nil =>
    rw [hmid] at hassign
    cases hassign
  | cons c cs =>
    refine ⟨w, mid, cs, hname, ?_⟩
    rw [hmid] at hassign ⊢
    unfold scanAssign at hassign
    split at hassign
    · cases hassign
    · next heq => rw [(List.cons.inj heq).1]
    · cases hassign

end SchoolMath.Surface
