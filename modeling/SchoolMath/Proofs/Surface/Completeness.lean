import SchoolMath.Proofs.Surface.Acceptance

/-!
# `Surface.Completeness` — every accepted text is a statement

One lemma for each rule of the grammar: its reader takes its part of every accepted text, provided that
the reader for the phrases inside does so for shorter texts (`Complete`). Where a part may be left out,
or repeated no more, what follows cannot be read as that part; where there are alternatives, the earlier
ones do not start with the character that the text starts with.

By induction on the depth phrases are complete (`complete_phraseWithin`), and then so are statements
(`exists_parse_of_accepts`).
-/

namespace SchoolMath.Surface

open Reader

/-- The reader reads the phrases of accepted texts shorter than `limit`, keeps to the grammar, and reads
nothing where a phrase would stop. -/
structure Complete (inner : Reader Phrase) (limit : Nat) : Prop where
  takes : ∀ {stack : List Expected}, Stops stack → Takes inner [.part .phrase] stack limit
  follows : Follows inner [.part .phrase]
  refuses : Refuses inner

variable {inner : Reader Phrase} {limit : Nat} {stack : List Expected} {text : List Char}

/-! ## Where the parts cannot start -/

theorem mark_none (m : Punctuation) (symbol : String) (hsymbol : symbol.toList = [m.char])
    (h : ∀ c ∈ text.head?, c ≠ m.char) : reads (mark symbol) text = none :=
  (readsOne_mark m hsymbol).reads_eq_none fun c hc => beq_false_of_ne (h c hc)

/-- No comma stands where another mark does. -/
theorem nextItem_none {m : Punctuation} (hm : m ≠ .comma)
    (h : Accepts (.terminal (.mark m) :: stack) text) : reads (nextItem inner) text = none := by
  obtain ⟨mid, rfl, -⟩ := accepts_mark_iff.1 h
  have hchar : m.char ≠ ',' := by
    cases m <;> first | exact absurd rfl hm | decide
  have hcomma : reads (mark ",") (m.char :: mid) = none :=
    mark_none .comma "," rfl fun c hc => by rwa [← Option.some.inj hc]
  rw [nextItem, reads_bind, hcomma, Option.bind_none]

theorem items_none (h : reads inner text = none) : reads (items inner) text = none := by
  rw [items, reads_bind, h, Option.bind_none]

theorem group_none (h : ∀ c ∈ text.head?, c ≠ '(') : reads (group inner) text = none := by
  simp [group, mark_none .opening "(" rfl h]

theorem bracketed_none (h : ∀ c ∈ text.head?, c ≠ '[') : reads (bracketed inner) text = none := by
  simp [bracketed, mark_none .openBracket "[" rfl h]

theorem call_none (h : ∀ c ∈ text.head?, c ≠ '(') : reads (call inner) text = none := by
  simp [call, mark_none .opening "(" rfl h]

theorem subscript_none (h : ∀ c ∈ text.head?, c ≠ '[') : reads (subscript inner) text = none := by
  simp [subscript, mark_none .openBracket "[" rfl h]

theorem number_none (h : ∀ c ∈ text.head?, Terminal.number.starts c = false) :
    reads (Primary.number <$> named (scan scanNumber)) text = none := by
  rw [reads_map, readsOne_number.reads_eq_none h, Option.map_none]

theorem name_none (h : ∀ c ∈ text.head?, isNameStart c = false) :
    reads (Primary.name <$> nameToken) text = none := by
  rw [reads_map, readsOne_nameToken.reads_eq_none h, Option.map_none]

theorem quoted_none (h : ∀ c ∈ text.head?, Terminal.quoted.starts c = false) :
    reads (Primary.quoted <$> named (scan scanText)) text = none := by
  rw [reads_map, readsOne_quoted.reads_eq_none h, Option.map_none]

theorem link_none (h : reads infixToken text = none) : reads (link inner) text = none := by
  rw [link, reads_bind, h, Option.bind_none]

/-- The first character tells a name from the other primaries. -/
theorem not_starts_of_isNameStart {c : Char} (h : isNameStart c = true) :
    ∀ t ∈ [Terminal.number, .quoted, .mark .opening, .mark .openBracket], t.starts c = false := by
  have hne : ∀ d, isNameStart d = false → (c == d) = false := by
    intro d hd
    refine beq_false_of_ne ?_
    rintro rfl
    rw [h] at hd
    cases hd
  have hdigit := Arithmetic.not_isDigit_of_isNameStart h
  intro t ht
  simp only [List.mem_cons, List.not_mem_nil, or_false] at ht
  rcases ht with rfl | rfl | rfl | rfl
  · simp [Terminal.starts, hdigit, hne '.' (by decide)]
  · simp [Terminal.starts, hne '"' (by decide), hne '\'' (by decide)]
  · exact hne '(' (by decide)
  · exact hne '[' (by decide)

/-- A condition on the first character. -/
theorem forall_head {P : Char → Prop} {c : Char} {cs : List Char} (h : P c) :
    ∀ d ∈ (c :: cs).head?, P d := by
  intro d hd
  rwa [← Option.some.inj hd]

theorem suffix_eq (inner : Reader Phrase) (text : List Char) :
    reads (suffix inner) text =
      (reads (call inner) text).or ((reads (subscript inner) text).or (reads member text)) := by
  rw [suffix, reads_firstOf_cons, reads_firstOf_cons, reads_firstOf_cons, reads_firstOf_nil,
    Option.or_none]

theorem primary_eq (inner : Reader Phrase) (text : List Char) :
    reads (primary inner) text =
      (reads (Primary.number <$> named (scan scanNumber)) text).or
        ((reads (Primary.name <$> nameToken) text).or ((reads (group inner) text).or
          ((reads (Primary.quoted <$> named (scan scanText)) text).or
            (reads (bracketed inner) text)))) := by
  rw [primary, reads_firstOf_cons, reads_firstOf_cons, reads_firstOf_cons, reads_firstOf_cons,
    reads_firstOf_cons, reads_firstOf_nil, Option.or_none]

/-- No phrase starts where one would stop. -/
theorem refuses_phrase (inner : Reader Phrase) : Refuses (phrase inner) := by
  intro text h
  have hstarts : ∀ t ∈ [Terminal.operator, .sign, .number, .name, .quoted, .mark .opening,
      .mark .openBracket, .mark .point], ∀ c ∈ text.head?, t.starts c = false :=
    fun t ht c hc => (of_isStop (h c hc)).2 t ht
  have hblank : text.dropWhile isGap = text := by
    cases text with
    | nil => rfl
    | cons c cs => exact List.dropWhile_cons_of_neg (by simp [(of_isStop (h c rfl)).1])
  have hsign : reads signToken text = none :=
    readsOne_signToken.reads_eq_none (hstarts .sign (by simp))
  have hsigns : reads (repeated signToken) text = some ([], text) :=
    Repeats.repeated (.stop (by rwa [hblank])) hblank
  have hprimary : reads (primary inner) text = none := by
    rw [primary_eq, number_none (hstarts .number (by simp)), name_none (hstarts .name (by simp)),
      group_none fun c hc => ne_of_beq_false (hstarts (.mark .opening) (by simp) c hc),
      quoted_none (hstarts .quoted (by simp)),
      bracketed_none fun c hc => ne_of_beq_false (hstarts (.mark .openBracket) (by simp) c hc)]
    rfl
  have hoperand : reads (operand inner) text = none := by
    simp only [operand, reads_bind, hsigns, Option.bind_some, reads_gap, hblank, hprimary,
      Option.bind_none]
  simp only [phrase, reads_bind, reads_named, reads_captured, hoperand, Option.bind_none,
    Option.map_none]

namespace Complete

/-! ## Lists of phrases -/

theorem nextItem (h : Complete inner limit) (hstack : Stops stack) :
    Takes (Surface.nextItem inner) [.terminal (.mark .comma), .part .phrase] (.part .more :: stack)
      limit :=
  Takes.bind_le (.lexeme (readsOne_mark .comma rfl)) (.mark .comma rfl)
    fun _ => h.takes hstack.more

/-- No further phrase is read where only a comma is left. -/
theorem nextItem_none_of_trailing (h : Complete inner limit)
    (haccepts : Accepts (.part .trailing :: .terminal (.mark .closing) :: stack) text) :
    reads (Surface.nextItem inner) text = none := by
  rcases (accepts_either_iff rfl).1 haccepts with haccepts | haccepts
  · exact nextItem_none (by decide) haccepts
  · obtain ⟨mid, rfl, hmid⟩ := accepts_mark_iff.1 haccepts
    have hcomma : reads (mark ",") (',' :: mid) = some ((), mid) := reads_mark_iff.2 rfl
    have hphrase : reads inner (mid.dropWhile isGap) = none :=
      h.refuses (stops_mark (m := .closing) (by decide) stack hmid)
    show reads (Surface.nextItem inner) (',' :: mid) = none
    rw [Surface.nextItem, reads_bind, hcomma, Option.bind_some, reads_gap_bind, hphrase]

theorem items (h : Complete inner limit) (hstack : Stops stack)
    (hnone : ∀ ⦃text⦄, Accepts stack text → reads (Surface.nextItem inner) text = none) :
    Takes (Surface.items inner) [.part .phrase, .part .more] stack limit := by
  refine Takes.bind_le (h.takes hstack.more) h.follows fun first => ?_
  refine (Takes.repeated rfl (h.nextItem hstack) (fun text mid a hread => ?_) hnone).map
    fun others => ⟨_, rfl⟩
  exact ((Follows.nextItem h.follows).run hread).length_lt

/-! ## Primaries -/

theorem group (h : Complete inner limit) :
    Takes (Surface.group inner)
      [.terminal (.mark .opening), .part .phrase, .terminal (.mark .closing)] stack (limit + 1) := by
  refine (Takes.named (.captured ?_)).map fun ⟨source, phrase⟩ => ⟨_, rfl⟩
  refine Takes.bind_lt (.lexeme (readsOne_mark .opening rfl)) (.mark .opening rfl) fun _ => ?_
  refine Takes.bind_le (h.takes (stops_mark (by decide) stack)) h.follows fun phrase => ?_
  exact (Takes.lexeme (readsOne_mark .closing rfl)).map fun _ => ⟨_, rfl⟩

theorem bracketed (h : Complete inner limit) :
    Takes (Surface.bracketed inner)
      [.terminal (.mark .openBracket), .part .elements, .terminal (.mark .closeBracket)] stack
      (limit + 1) := by
  have hstops : Stops (.terminal (.mark .closeBracket) :: stack) := stops_mark (by decide) stack
  have hfollows : Follows (optional (Surface.items inner)) [.part .elements] :=
    .optionally (by decide) (.part (by decide) (.items h.follows))
  refine (Takes.named (.captured ?_)).map fun ⟨source, phrases⟩ => ⟨_, rfl⟩
  refine Takes.bind_lt (.lexeme (readsOne_mark .openBracket rfl)) (.mark .openBracket rfl)
    fun _ => ?_
  refine Takes.bind_le (.optional rfl (h.items hstops fun _ => nextItem_none (by decide))
    fun text haccepts => ?_) hfollows fun phrases => ?_
  · exact items_none (h.refuses (hstops haccepts))
  · exact (Takes.lexeme (readsOne_mark .closeBracket rfl)).map fun _ => ⟨_, rfl⟩

/-- The first character tells the primaries apart. -/
theorem primary (h : Complete inner limit) :
    Takes (Surface.primary inner) [.part .primary] stack (limit + 1) := by
  intro text hlimit haccepts
  rcases accepts_primary_iff.1 haccepts with haccepts | haccepts | haccepts | haccepts | haccepts
  · obtain ⟨a, mid, hread, hrest⟩ := Takes.lexeme readsOne_number hlimit haccepts
    refine ⟨.number a, mid, ?_, hrest⟩
    rw [primary_eq, reads_map, hread]
    rfl
  · obtain ⟨a, mid, hread, hrest⟩ := Takes.lexeme readsOne_nameToken hlimit haccepts
    obtain ⟨c, hc, hstarts⟩ := haccepts.starts
    obtain ⟨cs, rfl⟩ := List.head?_eq_some_iff.1 hc
    have hnumber := not_starts_of_isNameStart hstarts .number (by simp)
    refine ⟨.name a, mid, ?_, hrest⟩
    rw [primary_eq, number_none (forall_head hnumber), reads_map, hread]
    rfl
  · obtain ⟨a, mid, hread, hrest⟩ := h.group hlimit haccepts
    obtain ⟨cs, rfl, -⟩ := accepts_mark_iff.1 haccepts
    refine ⟨a, mid, ?_, hrest⟩
    rw [primary_eq, number_none (forall_head rfl), name_none (forall_head rfl), hread]
    rfl
  · obtain ⟨a, mid, hread, hrest⟩ := Takes.lexeme readsOne_quoted hlimit haccepts
    obtain ⟨c, hc, hstarts⟩ := haccepts.starts
    obtain ⟨cs, rfl⟩ := List.head?_eq_some_iff.1 hc
    have hquote : c = '"' ∨ c = '\'' := by simpa [Terminal.starts] using hstarts
    refine ⟨.quoted a, mid, ?_, hrest⟩
    rcases hquote with rfl | rfl
    all_goals
      rw [primary_eq, number_none (forall_head rfl), name_none (forall_head rfl),
        group_none (forall_head (by decide)), reads_map, hread]
      rfl
  · obtain ⟨a, mid, hread, hrest⟩ := h.bracketed hlimit haccepts
    obtain ⟨cs, rfl, -⟩ := accepts_mark_iff.1 haccepts
    refine ⟨a, mid, ?_, hrest⟩
    rw [primary_eq, number_none (forall_head rfl), name_none (forall_head rfl),
      group_none (forall_head (by decide)), quoted_none (forall_head rfl), hread]
    rfl

/-! ## Suffixes -/

theorem call (h : Complete inner limit) :
    Takes (Surface.call inner)
      [.terminal (.mark .opening), .part .arguments, .terminal (.mark .closing)] stack
      (limit + 1) := by
  have hstops : Stops (.terminal (.mark .closing) :: stack) := stops_mark (by decide) stack
  have hcomma : Follows (optional (mark ",")) [.part .trailing] :=
    .optionally (by decide) (.part (by decide) (.mark .comma rfl))
  have hsome : Takes (do
      let arguments ← Surface.items inner
      gap
      let _ ← optional (mark ",")
      return arguments) [.part .phrase, .part .more, .part .trailing]
        (.terminal (.mark .closing) :: stack) limit := by
    refine Takes.bind_le (h.items hstops.trailing fun _ => h.nextItem_none_of_trailing)
      (.items h.follows) fun arguments => ?_
    refine (Takes.optional rfl (.lexeme (readsOne_mark .comma rfl)) fun text haccepts => ?_).map
      fun _ => ⟨_, rfl⟩
    obtain ⟨mid, rfl, -⟩ := accepts_mark_iff.1 haccepts
    exact mark_none .comma "," rfl fun c hc => by rw [← Option.some.inj hc]; decide
  have hfollows : Follows (do
      let arguments ← Surface.items inner
      gap
      let _ ← optional (mark ",")
      return arguments) [.part .phrase, .part .more, .part .trailing] :=
    (Follows.items h.follows).bind fun arguments => .after_gap fun _ => hcomma.map fun _ => .pure _
  refine (Takes.named (.captured ?_)).map fun ⟨source, arguments⟩ => ⟨_, rfl⟩
  refine Takes.bind_lt (.lexeme (readsOne_mark .opening rfl)) (.mark .opening rfl) fun _ => ?_
  refine Takes.bind_le (.optional rfl hsome fun text haccepts => ?_)
    (.optionally (by decide) (.part (by decide) hfollows)) fun arguments => ?_
  · rw [reads_bind, items_none (h.refuses (hstops haccepts)), Option.bind_none]
  · exact (Takes.lexeme (readsOne_mark .closing rfl)).map fun _ => ⟨_, rfl⟩

theorem subscript (h : Complete inner limit) :
    Takes (Surface.subscript inner)
      [.terminal (.mark .openBracket), .part .phrase, .terminal (.mark .closeBracket)] stack
      (limit + 1) := by
  refine (Takes.named (.captured ?_)).map fun ⟨source, index⟩ => ⟨_, rfl⟩
  refine Takes.bind_lt (.lexeme (readsOne_mark .openBracket rfl)) (.mark .openBracket rfl)
    fun _ => ?_
  refine Takes.bind_le (h.takes (stops_mark (by decide) stack)) h.follows fun index => ?_
  exact (Takes.lexeme (readsOne_mark .closeBracket rfl)).map fun _ => ⟨_, rfl⟩

end Complete

theorem takes_member :
    Takes member [.terminal (.mark .point), .terminal .name] stack (limit + 1) := by
  refine (Takes.named (.captured ?_)).map fun ⟨source, name⟩ => ⟨_, rfl⟩
  exact Takes.bind_lt (.lexeme (readsOne_mark .point rfl)) (.mark .point rfl)
    fun _ => .lexeme readsOne_nameToken

namespace Complete

/-- The first character tells the suffixes apart. -/
theorem suffix (h : Complete inner limit) :
    Takes (Surface.suffix inner) [.part .suffix] stack (limit + 1) := by
  intro text hlimit haccepts
  rcases accepts_suffix_iff.1 haccepts with haccepts | haccepts | haccepts
  · obtain ⟨a, mid, hread, hrest⟩ := h.call hlimit haccepts
    refine ⟨a, mid, ?_, hrest⟩
    rw [suffix_eq, hread]
    rfl
  · obtain ⟨a, mid, hread, hrest⟩ := h.subscript hlimit haccepts
    obtain ⟨cs, rfl, -⟩ := accepts_mark_iff.1 haccepts
    refine ⟨a, mid, ?_, hrest⟩
    rw [suffix_eq, call_none (forall_head (by decide)), hread]
    rfl
  · obtain ⟨a, mid, hread, hrest⟩ := takes_member hlimit haccepts
    obtain ⟨cs, rfl, -⟩ := accepts_mark_iff.1 haccepts
    refine ⟨a, mid, ?_, hrest⟩
    rw [suffix_eq, call_none (forall_head (by decide)), subscript_none (forall_head (by decide)),
      hread]
    rfl

end Complete

/-! ## Operands and phrases -/

theorem length_lt_of_suffix (h : Follows inner [.part .phrase]) {mid : List Char} {a : Suffix}
    (hread : reads (suffix inner) text = some (a, mid)) : mid.length < text.length := by
  rw [suffix_eq, Option.or_eq_some_iff, Option.or_eq_some_iff] at hread
  rcases hread with hread | ⟨-, hread | ⟨-, hread⟩⟩
  · exact ((Follows.call h).run hread).length_lt
  · exact ((Follows.subscript h).run hread).length_lt
  · exact (Follows.member.run hread).length_lt

/-- No sign stands where a name does: a keyword is no name. -/
theorem sign_none_of_name {mid : List Char} (h : Terminal.name.after text = some mid) :
    reads signToken text = none := by
  obtain ⟨w, hread, hkeyword⟩ := Terminal.after_name_iff.1 h
  obtain ⟨⟨c, hc, hstart⟩, rfl, -⟩ := Arithmetic.readsOff_word_iff.1 hread
  refine Arithmetic.sign_none (fun d hd hmem => ?_) fun hnot => ?_
  · obtain rfl : c = d := Option.some.inj (hc.symm.trans hd)
    fin_cases hmem <;> cases hstart
  · rw [hnot] at hkeyword
    exact hkeyword (by decide)

/-- The other primaries do not start with a sign either. -/
theorem sign_none_of_starts {t : Terminal} (h : Accepts (.terminal t :: stack) text)
    (ht : t ∈ [Terminal.number, .quoted, .mark .opening, .mark .openBracket]) :
    reads signToken text = none := by
  obtain ⟨c, hc, hstarts⟩ := h.starts
  obtain ⟨cs, rfl⟩ := List.head?_eq_some_iff.1 hc
  refine readsOne_signToken.reads_eq_none (forall_head ?_)
  refine Bool.eq_false_iff.2 fun hsign => ?_
  have hmem : c ∈ ['-', '+', '~', 'n'] := List.contains_iff_mem.1 hsign
  fin_cases hmem <;> fin_cases ht <;> cases hstarts

/-- No sign stands where a primary does. -/
theorem sign_none_of_primary (h : Accepts (.part .primary :: stack) text) :
    reads signToken text = none := by
  rcases accepts_primary_iff.1 h with h | h | h | h | h
  · exact sign_none_of_starts h (by simp)
  · obtain ⟨mid, hafter, -⟩ := accepts_terminal_iff.1 h
    exact sign_none_of_name hafter
  · exact sign_none_of_starts h (by simp)
  · exact sign_none_of_starts h (by simp)
  · exact sign_none_of_starts h (by simp)

/-- No suffix starts where a phrase stops or goes on. -/
theorem suffix_none_of_links (hstack : Stops stack) (h : Accepts (.part .links :: stack) text) :
    reads (suffix inner) text = none := by
  apply Arithmetic.suffix_none
  intro c hc hmem
  rcases (accepts_either_iff rfl).1 h with haccepts | haccepts
  · have hstop : isStop c = true := hstack haccepts c hc
    fin_cases hmem <;> cases hstop
  · obtain ⟨d, hd, hstarts⟩ := haccepts.starts
    obtain rfl : d = c := Option.some.inj (hd.symm.trans hc)
    fin_cases hmem <;> cases hstarts

/-- No operator stands where a phrase stops. -/
theorem link_none_of_stops (hstack : Stops stack) (h : Accepts stack text) :
    reads (link inner) text = none := by
  apply link_none
  refine readsOne_infixToken.reads_eq_none fun c hc => ?_
  exact (of_isStop (hstack h c hc)).2 .operator (by simp)

namespace Complete

theorem operand (h : Complete inner limit) (hstack : Stops stack) :
    Takes (Surface.operand inner) [.part .operand] (.part .links :: stack) (limit + 1) := by
  have hsigns : Follows (Reader.repeated signToken) [.part .signs] :=
    .repeated (by decide) (by decide) .signToken
  have hparts : Takes (Surface.operand inner) [.part .signs, .part .primary, .part .suffixes]
      (.part .links :: stack) (limit + 1) := by
    refine Takes.bind_le (.repeated rfl (.lexeme readsOne_signToken) (fun text mid a hread => ?_)
      fun _ => sign_none_of_primary) hsigns fun signs => ?_
    · exact (Follows.signToken.run hread).length_lt
    refine Takes.bind_le h.primary (.primary h.follows) fun read => ?_
    refine (Takes.repeated rfl h.suffix (fun text mid a hread => ?_)
      fun _ => suffix_none_of_links hstack).map fun suffixes => ⟨_, rfl⟩
    exact length_lt_of_suffix h.follows hread
  intro text hlimit haccepts
  exact hparts hlimit ((accepts_only_iff rfl).1 haccepts)

theorem link (h : Complete inner limit) (hstack : Stops stack) :
    Takes (Surface.link inner) [.terminal .operator, .part .operand] (.part .links :: stack)
      (limit + 1) := by
  refine Takes.bind_le (.lexeme readsOne_infixToken) .infixToken fun operator => ?_
  exact (h.operand hstack).map fun _ => ⟨_, rfl⟩

theorem phrase (h : Complete inner limit) : Complete (Surface.phrase inner) (limit + 1) where
  takes {stack} hstack := by
    have hparts : Takes (Surface.phrase inner) [.part .operand, .part .links] stack (limit + 1) := by
      refine (Takes.named (.captured ?_)).map fun ⟨source, first, links⟩ => ⟨_, rfl⟩
      refine Takes.bind_le (h.operand hstack) (.operand h.follows) fun first => ?_
      refine (Takes.repeated rfl (h.link hstack) (fun text mid a hread => ?_)
        fun _ => link_none_of_stops hstack).map fun links => ⟨_, rfl⟩
      exact ((Follows.link h.follows).run hread).length_lt
    intro text hlimit haccepts
    exact hparts hlimit ((accepts_only_iff rfl).1 haccepts)
  follows := .phrase h.follows
  refuses := refuses_phrase inner

end Complete

/-- Phrases are complete in texts shorter than their depth. -/
theorem complete_phraseWithin (depth : Nat) : Complete (phraseWithin depth) depth := by
  induction depth with
  | zero =>
    exact ⟨fun _ _ hlimit => absurd hlimit (Nat.not_lt_zero _), .phraseWithin 0, fun _ _ => rfl⟩
  | succ depth ih => exact ih.phrase

theorem takes_anyPhrase (hstack : Stops stack) (limit : Nat) :
    Takes anyPhrase [.part .phrase] stack limit := by
  intro text _ haccepts
  rw [reads_anyPhrase]
  exact (complete_phraseWithin _).takes hstack (Nat.lt_succ_self _) haccepts

/-! ## Statements -/

/-- Behind the name of an assignment stands its sign. -/
theorem after_of_assignment {s : Statement} {rest : List Char}
    (h : reads assignment text = some (s, rest)) : ∃ mid rest', Terminal.name.after text = some mid ∧
      Terminal.assign.after (mid.dropWhile isGap) = some rest' := by
  rw [assignment, reads_bind_iff] at h
  obtain ⟨⟨source, name, sign, value⟩, end', hread, -⟩ := h
  rw [reads_named, reads_captured_iff] at hread
  simp only [reads_bind_iff, reads_gap_bind] at hread
  obtain ⟨⟨_, mid, hname, _, rest', hsign, -⟩, -⟩ := hread
  exact ⟨mid, rest', by rw [readsOne_nameToken, hname]; rfl, by rw [readsOne_assign, hsign]; rfl⟩

/-- The sign of an assignment is no operator. -/
theorem operator_none_of_assign {rest : List Char} (h : Terminal.assign.after text = some rest) :
    Terminal.operator.after text = none := by
  obtain ⟨rfl, hnext⟩ := Terminal.after_assign_iff.1 h
  by_contra hne
  obtain ⟨mid, hafter⟩ := Option.ne_none_iff_exists'.1 hne
  obtain ⟨token, hread⟩ := Terminal.after_eq_some_of_reads.1 hafter
  rw [Arithmetic.infixToken_eq] at hread
  obtain ⟨p, hp, hread⟩ := exists_of_firstOf hread
  have hsymbols : ∀ entry ∈ Arithmetic.symbolOperators, ∀ symbol ∈ entry.2,
      symbol.toList ≠ [] ∧ (symbol.toList.head? = some '=' → symbol.toList = ['=', '=']) := by decide
  rcases List.mem_append.1 hp with hp | hp
  · obtain ⟨entry, hentry, rfl⟩ := List.mem_map.1 hp
    obtain ⟨-, symbol, hsymbol, htext⟩ := of_symbolToken hread
    obtain ⟨hnonempty, hdouble⟩ := hsymbols entry hentry symbol hsymbol
    have hhead : symbol.toList.head? = some '=' := by
      rw [← List.head?_append_of_ne_nil _ hnonempty, ← htext]
      rfl
    rw [hdouble hhead] at htext
    obtain rfl := (List.cons.inj htext).2
    exact hnext rfl
  · simp only [List.mem_cons, List.not_mem_nil, or_false] at hp
    rcases hp with rfl | rfl
    all_goals
      have hword := takeWhile_of_wordToken hread
      cases hword

/-- A phrase that starts with a name goes on with suffixes and operators behind it. -/
theorem accepts_links_of_name {mid : List Char} (h : Accepts [.part .phrase] text)
    (hname : Terminal.name.after text = some mid) :
    Accepts [.part .suffixes, .part .links] (mid.dropWhile isGap) := by
  obtain ⟨c, hc, hstart⟩ := Terminal.starts_of_after hname
  have hother : ∀ t ∈ [Terminal.number, .quoted, .mark .opening, .mark .openBracket],
      ∀ stack, ¬ Accepts (.terminal t :: stack) text := by
    intro t ht stack haccepts
    obtain ⟨d, hd, hstarts⟩ := haccepts.starts
    obtain rfl : c = d := Option.some.inj (hc.symm.trans hd)
    rw [not_starts_of_isNameStart hstart t ht] at hstarts
    cases hstarts
  have hoperand := (accepts_only_iff rfl).1 ((accepts_only_iff rfl).1 h)
  rcases (accepts_either_iff rfl).1 hoperand with hprimary | hsign
  · rcases accepts_primary_iff.1 hprimary with
      haccepts | haccepts | haccepts | haccepts | haccepts
    · exact absurd haccepts (hother .number (by simp) _)
    · obtain ⟨mid', hafter, hrest⟩ := accepts_terminal_iff.1 haccepts
      obtain rfl : mid = mid' := Option.some.inj (hname.symm.trans hafter)
      exact hrest
    · exact absurd haccepts (hother (.mark .opening) (by simp) _)
    · exact absurd haccepts (hother .quoted (by simp) _)
    · exact absurd haccepts (hother (.mark .openBracket) (by simp) _)
  · obtain ⟨mid', hafter, -⟩ := accepts_terminal_iff.1 hsign
    rw [readsOne_signToken text, sign_none_of_name hname] at hafter
    cases hafter

/-- A text that is accepted as a phrase is no assignment. -/
theorem assignment_none_of_phrase (h : Accepts [.part .phrase] text) :
    reads assignment text = none := by
  by_contra hne
  obtain ⟨⟨s, rest⟩, hread⟩ := Option.ne_none_iff_exists'.1 hne
  obtain ⟨mid, rest', hname, hassign⟩ := after_of_assignment hread
  have hequals := (Terminal.after_assign_iff.1 hassign).1
  have hlinks := accepts_links_of_name h hname
  rcases (accepts_either_iff rfl).1 hlinks with hlinks | hsuffix
  · rcases (accepts_either_iff rfl).1 hlinks with hend | hoperator
    · rw [accepts_nil_iff.1 hend] at hequals
      cases hequals
    · obtain ⟨mid', hafter, -⟩ := accepts_terminal_iff.1 hoperator
      rw [operator_none_of_assign hassign] at hafter
      cases hafter
  · -- a suffix starts with another mark
    rw [hequals] at hsuffix
    rcases accepts_suffix_iff.1 hsuffix with haccepts | haccepts | haccepts
    all_goals
      obtain ⟨cs, heq, -⟩ := accepts_mark_iff.1 haccepts
      cases heq

theorem takes_assignment (limit : Nat) :
    Takes assignment [.terminal .name, .terminal .assign, .part .phrase] [] limit := by
  refine (Takes.named (.captured ?_)).map fun ⟨source, name, sign, phrase⟩ => ⟨_, rfl⟩
  refine Takes.bind_le (.lexeme readsOne_nameToken) .nameToken fun name => ?_
  refine Takes.bind_le (.lexeme readsOne_assign) .assignSign fun sign => ?_
  exact (takes_anyPhrase stops_nil limit).map fun phrase => ⟨_, rfl⟩

/-- Every accepted text is read as a statement. -/
theorem exists_parse_of_accepts {text : String}
    (h : Accepts [.part .statement] (text.toList.dropWhile isGap)) : ∃ s, parse text = .ok s := by
  have hread : ∃ s mid, reads (assignment <|> Statement.phrase <$> anyPhrase)
      (text.toList.dropWhile isGap) = some (s, mid) ∧ Accepts [] (mid.dropWhile isGap) := by
    rcases (accepts_either_iff rfl).1 h with hassignment | hphrase
    · obtain ⟨s, mid, hread, hrest⟩ := takes_assignment _ (Nat.lt_succ_self _) hassignment
      exact ⟨s, mid, by rw [reads_orElse, hread]; rfl, hrest⟩
    · obtain ⟨phrase, mid, hread, hrest⟩ :=
        takes_anyPhrase stops_nil _ (Nat.lt_succ_self _) hphrase
      refine ⟨.phrase phrase, mid, ?_, hrest⟩
      rw [reads_orElse, assignment_none_of_phrase hphrase, reads_map, hread]
      rfl
  obtain ⟨s, mid, hread, hrest⟩ := hread
  exact ⟨s, parse_eq_ok_iff.2 ⟨mid, hread, accepts_nil_iff.1 hrest⟩⟩

end SchoolMath.Surface
