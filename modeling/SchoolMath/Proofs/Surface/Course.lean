import SchoolMath.Proofs.Surface.Machine

/-!
# `Surface.Course` — the readers keep to the grammar

A reader follows the grammar if the machine, with what the reader reads on its stack, can read the same,
and can get to every place that the reader marks (`Follows`). Readers made of such readers are again
such: one lemma for each combinator, and then one for each rule of the grammar. So wherever a named rule
was tried, the machine has read the text up to there (`Follows.wholeText`).
-/

namespace SchoolMath.Surface

open Reader

/-- The machine reads what the reader reads, and gets to every place that the reader marks. -/
structure Follows {α : Type} (p : Reader α) (stack : List Expected) : Prop where
  run : ∀ {text rest : List Char} {a : α}, reads p text = some (a, rest) → Steps stack text [] rest
  reach : ∀ {text : List Char} {m : Nat}, (p text).mark = some m →
    ∃ stack' rest, rest.length = m ∧ Steps stack text stack' rest

variable {α β : Type} {p q : Reader α} {stack stack' : List Expected}

theorem of_furthest {a b : Option Nat} {m : Nat} (h : furthest a b = some m) :
    a = some m ∨ b = some m := by
  cases a with
  | none => exact .inr h
  | some i =>
    cases b with
    | none => exact .inl h
    | some j =>
      obtain rfl : min i j = m := Option.some.inj h
      rcases Nat.le_total i j with hij | hij
      · exact .inl (by rw [Nat.min_eq_left hij])
      · exact .inr (by rw [Nat.min_eq_right hij])

/-! ## Marks -/

theorem of_mark_bind {f : α → Reader β} {text : List Char} {m : Nat}
    (h : ((p >>= f) text).mark = some m) :
    (p text).mark = some m ∨ ∃ a rest, reads p text = some (a, rest) ∧ (f a rest).mark = some m := by
  have hthen : (andThen p f text).mark = some m := h
  unfold andThen at hthen
  unfold reads
  rcases hp : p text with ⟨_ | ⟨a, rest⟩, mark⟩
  · rw [hp] at hthen
    exact .inl hthen
  · rw [hp] at hthen
    rcases of_furthest hthen with hmark | hmark
    · exact .inl hmark
    · exact .inr ⟨a, rest, rfl, hmark⟩

theorem of_mark_orElse {text : List Char} {m : Nat} (h : ((p <|> q) text).mark = some m) :
    (p text).mark = some m ∨ (q text).mark = some m := by
  have helse : (Reader.orElse p (fun _ => q) text).mark = some m := h
  unfold Reader.orElse at helse
  rcases hp : p text with ⟨_ | read, mark⟩
  · rw [hp] at helse
    exact of_furthest helse
  · rw [hp] at helse
    exact .inl helse

theorem of_mark_named {text : List Char} {m : Nat} (h : (named p text).mark = some m) :
    (p text).mark = some m ∨ text.length = m := by
  unfold named at h
  rcases hp : p text with ⟨_ | read, mark⟩
  · rw [hp] at h
    exact (of_furthest h).imp_right Option.some.inj
  · rw [hp] at h
    exact .inl h

theorem mark_captured (p : Reader α) (text : List Char) :
    (captured p text).mark = (p text).mark := by
  unfold captured
  rcases p text with ⟨_ | read, mark⟩ <;> rfl

namespace Follows

/-! ## Combinators -/

theorem pure (a : α) : Follows (Pure.pure a : Reader α) [] where
  run h := by
    obtain ⟨-, rfl⟩ := reads_pure_iff.1 h
    exact .refl
  reach := nofun

theorem fail : Follows (Reader.fail : Reader α) stack := ⟨nofun, nofun⟩

/-- Blanks need not be expected. -/
theorem gap : Follows Reader.gap [] where
  run {text rest u} h := by
    rw [reads_gap] at h
    obtain ⟨-, rfl⟩ := Prod.mk.inj (Option.some.inj h)
    exact .blanks [] text
  reach := nofun

theorem bind {f : α → Reader β} (hp : Follows p stack) (hf : ∀ a, Follows (f a) stack') :
    Follows (p >>= f) (stack ++ stack') where
  run h := by
    obtain ⟨a, mid, ha, hb⟩ := reads_bind_iff.1 h
    exact (hp.run ha).append ((hf a).run hb)
  reach {text m} h := by
    rcases of_mark_bind h with hmark | ⟨a, mid, ha, hmark⟩
    · obtain ⟨left, rest, hrest, hrun⟩ := hp.reach hmark
      exact ⟨left ++ stack', rest, hrest, hrun.above stack'⟩
    · obtain ⟨left, rest, hrest, hrun⟩ := (hf a).reach hmark
      exact ⟨left, rest, hrest, (hp.run ha).append hrun⟩

/-- What is read before, without anything to expect after. -/
theorem map {f : α → Reader β} (hp : Follows p stack) (hf : ∀ a, Follows (f a) []) :
    Follows (p >>= f) stack := by
  rw [← List.append_nil stack]
  exact hp.bind hf

theorem after_gap {f : Unit → Reader β} (hf : ∀ u, Follows (f u) stack) :
    Follows (Reader.gap >>= f) stack :=
  gap.bind hf

theorem orElse (hp : Follows p stack) (hq : Follows q stack) : Follows (p <|> q) stack where
  run {text rest a} h := by
    rw [reads_orElse, Option.or_eq_some_iff] at h
    rcases h with h | ⟨-, h⟩
    · exact hp.run h
    · exact hq.run h
  reach {text m} h := by
    rcases of_mark_orElse h with hmark | hmark
    · exact hp.reach hmark
    · exact hq.reach hmark

/-- The place where a named reader was tried is where the machine starts. -/
theorem named (hp : Follows p stack) : Follows (Reader.named p) stack where
  run {text rest a} h := by
    rw [reads_named] at h
    exact hp.run h
  reach {text m} h := by
    rcases of_mark_named h with hmark | hmark
    · exact hp.reach hmark
    · exact ⟨stack, text, hmark, .refl⟩

theorem captured (hp : Follows p stack) : Follows (Reader.captured p) stack where
  run {text rest a} h := by
    obtain ⟨source, a⟩ := a
    exact hp.run (reads_captured_iff.1 h).1
  reach {text m} h := by
    rw [mark_captured] at h
    exact hp.reach h

theorem firstOf {ps : List (Reader α)} (h : ∀ p ∈ ps, Follows p stack) :
    Follows (Reader.firstOf ps) stack := by
  induction ps with
  | nil => exact fail
  | cons p ps ih =>
    exact (h p List.mem_cons_self).orElse (ih fun q hq => h q (List.mem_cons_of_mem _ hq))

/-- A part that is made of what the reader follows. -/
theorem part {production : List Expected} {r : Part} (h : production ∈ r.productions)
    (hp : Follows p production) : Follows p [.part r] where
  run hread := .part h (hp.run hread)
  reach hmark := by
    obtain ⟨left, rest, hrest, hrun⟩ := hp.reach hmark
    exact ⟨left, rest, hrest, .part h hrun⟩

theorem optionally {r : Part} (h : [] ∈ r.productions) (hp : Follows p [.part r]) :
    Follows (optional p) [.part r] :=
  (hp.map fun a => pure (some a)).orElse (.part h (pure none))

section Repetition

variable {item : List Expected} {r : Part}

theorem repeatedAfterGap (hnil : [] ∈ r.productions) (hcons : item ++ [.part r] ∈ r.productions)
    (hp : Follows p item) (limit : Nat) : Follows (Reader.repeatedAfterGap p limit) [.part r] := by
  induction limit with
  | zero => exact .part hnil (pure [])
  | succ limit ih =>
    refine orElse (.part hcons ?_) (.part hnil (pure []))
    exact after_gap fun _ => hp.bind fun a => ih.map fun as => pure (a :: as)

/-- A part that is empty or starts with an item and goes on like itself. -/
theorem repeated (hnil : [] ∈ r.productions) (hcons : item ++ [.part r] ∈ r.productions)
    (hp : Follows p item) : Follows (Reader.repeated p) [.part r] := by
  have hlimit : ∀ limit, Follows ((do
      let a ← p
      let as ← Reader.repeatedAfterGap p limit
      Pure.pure (a :: as)) <|> Pure.pure [] : Reader (List α)) [.part r] := by
    intro limit
    refine orElse (.part hcons ?_) (.part hnil (pure []))
    exact hp.bind fun a => (repeatedAfterGap hnil hcons hp limit).map fun as => pure (a :: as)
  exact ⟨fun {text _ _} h => (hlimit text.length).run h,
    fun {text _} h => (hlimit text.length).reach h⟩

end Repetition

end Follows

/-! ## Lexemes -/

/-- The reader marks no place but the one where it starts. -/
def MarksStart {α : Type} (p : Reader α) : Prop :=
  ∀ ⦃text : List Char⦄ ⦃m : Nat⦄, (p text).mark = some m → text.length = m

namespace MarksStart

theorem scan (scanner : List Char → Option (List Char × List Char)) :
    MarksStart (Reader.scan scanner) := nofun

theorem map {f : α → β} (hp : MarksStart p) : MarksStart (do return f (← p)) := by
  intro text m h
  rcases of_mark_bind h with hmark | ⟨a, rest, -, hmark⟩
  · exact hp hmark
  · cases hmark

theorem named (hp : MarksStart p) : MarksStart (Reader.named p) := by
  intro text m h
  rcases of_mark_named h with hmark | hmark
  · exact hp hmark
  · exact hmark

theorem firstOf {ps : List (Reader α)} (h : ∀ p ∈ ps, MarksStart p) :
    MarksStart (Reader.firstOf ps) := by
  induction ps with
  | nil => exact nofun
  | cons p ps ih =>
    intro text m hmark
    rcases of_mark_orElse hmark with hmark | hmark
    · exact h p List.mem_cons_self hmark
    · exact ih (fun q hq => h q (List.mem_cons_of_mem _ hq)) hmark

theorem symbolToken {κ : Type} (kind : κ) (symbols : List String) :
    MarksStart (Surface.symbolToken kind symbols) := by
  refine .named (.map (.firstOf fun p hp => ?_))
  obtain ⟨symbol, -, rfl⟩ := List.mem_map.1 hp
  exact .scan _

theorem wordToken {κ : Type} (kind : κ) (word : String) :
    MarksStart (Surface.wordToken kind word) :=
  .named (.map (.scan _))

theorem infixToken : MarksStart Surface.infixToken := by
  rw [Arithmetic.infixToken_eq]
  refine .firstOf fun p hp => ?_
  rcases List.mem_append.1 hp with hp | hp
  · obtain ⟨entry, -, rfl⟩ := List.mem_map.1 hp
    exact .symbolToken _ _
  · simp only [List.mem_cons, List.not_mem_nil, or_false] at hp
    rcases hp with rfl | rfl <;> exact .wordToken _ _

theorem signToken : MarksStart Surface.signToken := by
  refine .firstOf fun p hp => ?_
  simp only [List.mem_cons, List.not_mem_nil, or_false] at hp
  rcases hp with rfl | rfl | rfl | rfl
  · exact .symbolToken _ _
  · exact .symbolToken _ _
  · exact .symbolToken _ _
  · exact .wordToken _ _

end MarksStart

/-- The reader reads the lexemes of one kind. -/
def ReadsOne {α : Type} (p : Reader α) (t : Terminal) : Prop :=
  ∀ text, t.after text = (reads p text).map (·.2)

theorem ReadsOne.named {t : Terminal} (h : ReadsOne p t) : ReadsOne (Reader.named p) t := by
  intro text
  rw [reads_named, h text]

theorem readsOne_infixToken : ReadsOne infixToken .operator := fun _ => rfl

theorem readsOne_signToken : ReadsOne signToken .sign := fun _ => rfl

theorem readsOne_scan {t : Terminal} {scanner : List Char → Option (List Char × List Char)}
    (h : ∀ text, t.after text = (scanner text).map (·.2)) : ReadsOne (scan scanner) t := by
  intro text
  rw [h, reads_scan]
  rcases scanner text with _ | r <;> rfl

theorem readsOne_nameToken : ReadsOne nameToken .name := (readsOne_scan fun _ => rfl).named

theorem readsOne_number : ReadsOne (named (scan scanNumber)) .number :=
  (readsOne_scan fun _ => rfl).named

theorem readsOne_quoted : ReadsOne (named (scan scanText)) .quoted :=
  (readsOne_scan fun _ => rfl).named

theorem readsOne_assign : ReadsOne (named (scan scanAssign)) .assign :=
  (readsOne_scan fun _ => rfl).named

theorem readsOne_mark (m : Punctuation) {symbol : String} (h : symbol.toList = [m.char]) :
    ReadsOne (mark symbol) (.mark m) := by
  intro text
  rw [reads_mark, h]
  cases text with
  | nil => rfl
  | cons c cs =>
    by_cases hc : c = m.char
    · simp [Terminal.after, hc]
    · have hprefix : ¬ [m.char] <+: c :: cs := by simpa [eq_comm] using hc
      simp [Terminal.after, hc, hprefix]

namespace Follows

theorem lexeme {t : Terminal} (h : ReadsOne p t) (hmarks : MarksStart p) :
    Follows p [.terminal t] where
  run {text rest a} hread := .shift (by rw [h text, hread]; rfl) .refl
  reach hmark := ⟨_, _, hmarks hmark, .refl⟩

theorem infixToken : Follows Surface.infixToken [.terminal .operator] :=
  lexeme readsOne_infixToken .infixToken

theorem signToken : Follows Surface.signToken [.terminal .sign] :=
  lexeme readsOne_signToken .signToken

theorem nameToken : Follows Surface.nameToken [.terminal .name] :=
  lexeme readsOne_nameToken (.named (.scan _))

theorem mark (m : Punctuation) {symbol : String} (h : symbol.toList = [m.char]) :
    Follows (Surface.mark symbol) [.terminal (.mark m)] :=
  lexeme (readsOne_mark m h) (.map (.scan _))

/-! ## Rules -/

section Open

variable {inner : Reader Phrase}

theorem nextItem (hinner : Follows inner [.part .phrase]) :
    Follows (Surface.nextItem inner) [.terminal (.mark .comma), .part .phrase] :=
  (mark .comma rfl).bind fun _ => after_gap fun _ => hinner

theorem items (hinner : Follows inner [.part .phrase]) :
    Follows (Surface.items inner) [.part .phrase, .part .more] := by
  refine hinner.bind fun first => after_gap fun _ => ?_
  exact (repeated (by decide) (by decide) (nextItem hinner)).map fun others => pure _

theorem group (hinner : Follows inner [.part .phrase]) :
    Follows (Surface.group inner)
      [.terminal (.mark .opening), .part .phrase, .terminal (.mark .closing)] := by
  refine (named (captured ?_)).map fun ⟨source, phrase⟩ => pure _
  refine (mark .opening rfl).bind fun _ => after_gap fun _ => hinner.bind fun phrase => ?_
  exact after_gap fun _ => (mark .closing rfl).map fun _ => pure phrase

theorem bracketed (hinner : Follows inner [.part .phrase]) :
    Follows (Surface.bracketed inner)
      [.terminal (.mark .openBracket), .part .elements, .terminal (.mark .closeBracket)] := by
  have helements : Follows (optional (Surface.items inner)) [.part .elements] :=
    optionally (by decide) (.part (by decide) (items hinner))
  refine (named (captured ?_)).map fun ⟨source, phrases⟩ => pure _
  refine (mark .openBracket rfl).bind fun _ => after_gap fun _ => helements.bind fun phrases => ?_
  exact after_gap fun _ => (mark .closeBracket rfl).map fun _ => pure _

theorem primary (hinner : Follows inner [.part .phrase]) :
    Follows (Surface.primary inner) [.part .primary] := by
  refine firstOf fun p hp => ?_
  simp only [List.mem_cons, List.not_mem_nil, or_false] at hp
  rcases hp with rfl | rfl | rfl | rfl | rfl
  · exact .part (by decide) ((lexeme readsOne_number (.named (.scan _))).map fun _ => pure _)
  · exact .part (by decide) (nameToken.map fun _ => pure _)
  · exact .part (by decide) (group hinner)
  · exact .part (by decide) ((lexeme readsOne_quoted (.named (.scan _))).map fun _ => pure _)
  · exact .part (by decide) (bracketed hinner)

theorem call (hinner : Follows inner [.part .phrase]) :
    Follows (Surface.call inner)
      [.terminal (.mark .opening), .part .arguments, .terminal (.mark .closing)] := by
  have hcomma : Follows (optional (Surface.mark ",")) [.part .trailing] :=
    optionally (by decide) (.part (by decide) (mark .comma rfl))
  have hsome : Follows (do
      let arguments ← Surface.items inner
      Reader.gap
      let _ ← optional (Surface.mark ",")
      return arguments) [.part .phrase, .part .more, .part .trailing] :=
    (items hinner).bind fun arguments => after_gap fun _ => hcomma.map fun _ => pure arguments
  have harguments := optionally (by decide) (.part (r := .arguments) (by decide) hsome)
  refine (named (captured ?_)).map fun ⟨source, arguments⟩ => pure _
  refine (mark .opening rfl).bind fun _ => after_gap fun _ => harguments.bind fun arguments => ?_
  exact after_gap fun _ => (mark .closing rfl).map fun _ => pure _

theorem subscript (hinner : Follows inner [.part .phrase]) :
    Follows (Surface.subscript inner)
      [.terminal (.mark .openBracket), .part .phrase, .terminal (.mark .closeBracket)] := by
  refine (named (captured ?_)).map fun ⟨source, index⟩ => pure _
  refine (mark .openBracket rfl).bind fun _ => after_gap fun _ => hinner.bind fun index => ?_
  exact after_gap fun _ => (mark .closeBracket rfl).map fun _ => pure index

theorem member : Follows Surface.member [.terminal (.mark .point), .terminal .name] := by
  refine (named (captured ?_)).map fun ⟨source, name⟩ => pure _
  exact (mark .point rfl).bind fun _ => after_gap fun _ => nameToken

theorem suffix (hinner : Follows inner [.part .phrase]) :
    Follows (Surface.suffix inner) [.part .suffix] := by
  refine firstOf fun p hp => ?_
  simp only [List.mem_cons, List.not_mem_nil, or_false] at hp
  rcases hp with rfl | rfl | rfl
  · exact .part (by decide) (call hinner)
  · exact .part (by decide) (subscript hinner)
  · exact .part (by decide) member

theorem operand (hinner : Follows inner [.part .phrase]) :
    Follows (Surface.operand inner) [.part .operand] := by
  have hsigns : Follows (Reader.repeated Surface.signToken) [.part .signs] :=
    repeated (by decide) (by decide) signToken
  have hsuffixes : Follows (Reader.repeated (Surface.suffix inner)) [.part .suffixes] :=
    repeated (by decide) (by decide) (suffix hinner)
  have hparts : Follows (Surface.operand inner)
      [.part .signs, .part .primary, .part .suffixes] := by
    refine hsigns.bind fun signs => after_gap fun _ => (primary hinner).bind fun read => ?_
    exact after_gap fun _ => hsuffixes.map fun suffixes => pure _
  exact .part (by decide) hparts

theorem link (hinner : Follows inner [.part .phrase]) :
    Follows (Surface.link inner) [.terminal .operator, .part .operand] :=
  infixToken.bind fun _ => after_gap fun _ => (operand hinner).map fun _ => pure _

theorem phrase (hinner : Follows inner [.part .phrase]) :
    Follows (Surface.phrase inner) [.part .phrase] := by
  have hlinks : Follows (Reader.repeated (Surface.link inner)) [.part .links] :=
    repeated (by decide) (by decide) (link hinner)
  have hparts : Follows (Surface.phrase inner) [.part .operand, .part .links] := by
    refine (named (captured ?_)).map fun ⟨source, first, links⟩ => pure _
    exact (operand hinner).bind fun first => after_gap fun _ => hlinks.map fun links => pure _
  exact .part (by decide) hparts

end Open

theorem phraseWithin (depth : Nat) : Follows (Surface.phraseWithin depth) [.part .phrase] := by
  induction depth with
  | zero => exact fail
  | succ depth ih => exact phrase ih

theorem anyPhrase : Follows Surface.anyPhrase [.part .phrase] where
  run {text rest a} h := by
    rw [reads_anyPhrase] at h
    exact (phraseWithin _).run h
  reach {text m} h := by
    unfold Surface.anyPhrase at h
    exact (phraseWithin _).reach h

theorem assignSign : Follows (Reader.named (Reader.scan scanAssign)) [.terminal .assign] :=
  lexeme readsOne_assign (.named (.scan _))

theorem assignment : Follows Surface.assignment
    [.terminal .name, .terminal .assign, .part .phrase] := by
  refine (named (captured ?_)).map fun ⟨source, name, sign, phrase⟩ => pure _
  refine nameToken.bind fun name => after_gap fun _ => assignSign.bind fun sign => ?_
  exact after_gap fun _ => anyPhrase.map fun phrase => pure _

theorem endOfText : Follows Surface.endOfText [] where
  run {text rest u} h := by
    rw [reads_endOfText] at h
    split at h
    · next hempty =>
      obtain ⟨-, rfl⟩ := Prod.mk.inj (Option.some.inj h)
      rw [List.isEmpty_iff.1 hempty]
      exact .refl
    · cases h
  reach hmark := by
    rcases of_mark_named hmark with hmark | hmark
    · cases hmark
    · exact ⟨_, _, hmark, .refl⟩

/-- The machine gets to every place that the reader of whole texts marks. -/
theorem wholeText : Follows Surface.wholeText [.part .statement] := by
  have hphrase : Follows (Statement.phrase <$> Surface.anyPhrase) [.part .phrase] :=
    anyPhrase.map fun _ => pure _
  have hstatement : Follows (Surface.assignment <|> Statement.phrase <$> Surface.anyPhrase)
      [.part .statement] :=
    orElse (.part (by decide) assignment) (.part (by decide) hphrase)
  refine after_gap fun _ => hstatement.map fun statement => ?_
  exact after_gap fun _ => endOfText.map fun _ => pure statement

end Follows

end SchoolMath.Surface
