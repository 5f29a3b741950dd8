import SchoolMath.Proofs.Arithmetic.Scanner

/-!
# `Surface.Terminal` — the lexemes of the surface grammar

A lexeme is read off the front of a text (`Terminal.after`). Which one it is depends on the character
behind it at most: the text behind may be exchanged for one that starts in the same way, with a blank,
or not at all (`StartsAlike`, `Terminal.after_respell`). With a blank behind them sample lexemes of
every kind are read (`Terminal.after_sample`).
-/

namespace SchoolMath.Surface

open Reader

/-- The punctuation marks. -/
inductive Punctuation where
  | opening | closing | openBracket | closeBracket | comma | point
deriving DecidableEq, Repr

/-- The character of a punctuation mark. -/
def Punctuation.char : Punctuation → Char
  | .opening => '('
  | .closing => ')'
  | .openBracket => '['
  | .closeBracket => ']'
  | .comma => ','
  | .point => '.'

/-- The kinds of lexemes. -/
inductive Terminal where
  | operator | sign | number | name | quoted | assign
  | mark (m : Punctuation)
deriving DecidableEq, Repr

/-- The text behind a lexeme at the front. -/
def Terminal.after : Terminal → List Char → Option (List Char)
  | .operator, text => (reads infixToken text).map (·.2)
  | .sign, text => (reads signToken text).map (·.2)
  | .number, text => (scanNumber text).map (·.2)
  | .name, text => (scanName text).map (·.2)
  | .quoted, text => (scanText text).map (·.2)
  | .assign, text => (scanAssign text).map (·.2)
  | .mark m, text => if text.head? = some m.char then some text.tail else none

/-! ## Exchanging the text behind -/

/-- The second text starts with a blank, or not at all, or like the first one. -/
def StartsAlike (text text' : List Char) : Prop := ∀ c ∈ text'.head?, c ∈ text.head? ∨ c = ' '

namespace StartsAlike

variable {text text' : List Char}

/-- Behind common characters, texts start alike. -/
theorem append (h : StartsAlike text text') (w : List Char) :
    StartsAlike (w ++ text) (w ++ text') := by
  cases w with
  | nil => exact h
  | cons c cs => exact fun d hd => .inl hd

/-- A condition on the first character carries over if a blank meets it. -/
theorem forall_head {P : Char → Prop} (h : StartsAlike text text') (hblank : P ' ')
    (htext : ∀ c ∈ text.head?, P c) : ∀ c ∈ text'.head?, P c := by
  intro c hc
  rcases h c hc with hold | rfl
  · exact htext c hold
  · exact hblank

end StartsAlike

/-- What a reader reads is read again with other text behind it. -/
def ReadsAlike {α : Type} (p : Reader α) : Prop :=
  ∀ ⦃text mid mid' : List Char⦄ ⦃a : α⦄, reads p text = some (a, mid) → StartsAlike mid mid' →
    ∃ w, w ≠ [] ∧ text = w ++ mid ∧ reads p (w ++ mid') = some (a, mid')

/-- Where a reader reads nothing it reads nothing with other text behind. -/
def FailsAlike {α : Type} (p : Reader α) : Prop :=
  ∀ ⦃w mid mid' : List Char⦄, w ≠ [] → StartsAlike mid mid' → reads p (w ++ mid) = none →
    reads p (w ++ mid') = none

section Choice

variable {α : Type} {p : Reader α} {ps qs : List (Reader α)}

theorem ReadsAlike.firstOf_cons (hfails : FailsAlike p) (hp : ReadsAlike p)
    (hps : ReadsAlike (firstOf ps)) : ReadsAlike (firstOf (p :: ps)) := by
  intro text mid mid' a hread halike
  rw [reads_firstOf_cons, Option.or_eq_some_iff] at hread
  rcases hread with hread | ⟨hnone, hread⟩
  · obtain ⟨w, hw, rfl, hread'⟩ := hp hread halike
    exact ⟨w, hw, rfl, by rw [reads_firstOf_cons, hread', Option.some_or]⟩
  · obtain ⟨w, hw, rfl, hread'⟩ := hps hread halike
    refine ⟨w, hw, rfl, ?_⟩
    rw [reads_firstOf_cons, hfails hw halike hnone, Option.none_or, hread']

theorem ReadsAlike.firstOf_append (h : ∀ p ∈ ps, FailsAlike p ∧ ReadsAlike p)
    (hqs : ReadsAlike (firstOf qs)) : ReadsAlike (firstOf (ps ++ qs)) := by
  induction ps with
  | nil => exact hqs
  | cons p ps ih =>
    obtain ⟨hfails, hreads⟩ := h p List.mem_cons_self
    exact hreads.firstOf_cons hfails (ih fun q hq => h q (List.mem_cons_of_mem _ hq))

theorem ReadsAlike.firstOf (h : ∀ p ∈ ps, FailsAlike p ∧ ReadsAlike p) :
    ReadsAlike (firstOf ps) := by
  rw [← List.append_nil ps]
  exact firstOf_append h nofun

theorem FailsAlike.firstOf (h : ∀ p ∈ ps, FailsAlike p) : FailsAlike (firstOf ps) := by
  induction ps with
  | nil => exact fun _ _ _ _ _ _ => rfl
  | cons p ps ih =>
    intro w mid mid' hw halike hnone
    rw [reads_firstOf_cons, Option.or_eq_none_iff] at hnone ⊢
    exact ⟨h p List.mem_cons_self hw halike hnone.1,
      ih (fun q hq => h q (List.mem_cons_of_mem _ hq)) hw halike hnone.2⟩

end Choice

/-- A token of a kind is read where its spelling is. -/
theorem reads_token {κ : Type} (kind : κ) (p : Reader String) (text : List Char) :
    reads (named do return (⟨kind, ← p⟩ : Token κ)) text =
      (reads p text).map fun r => (⟨kind, r.1⟩, r.2) := by
  rw [reads_named, reads_bind]
  rcases reads p text with _ | r <;> rfl

theorem ReadsAlike.token {κ : Type} (kind : κ) {p : Reader String} (h : ReadsAlike p) :
    ReadsAlike (named do return (⟨kind, ← p⟩ : Token κ)) := by
  intro text mid mid' token hread halike
  rw [reads_token] at hread
  obtain ⟨⟨a, rest⟩, ha, heq⟩ := Option.map_eq_some_iff.1 hread
  obtain ⟨rfl, rfl⟩ := Prod.mk.inj heq
  obtain ⟨w, hw, rfl, ha'⟩ := h ha halike
  exact ⟨w, hw, rfl, by rw [reads_token, ha']; rfl⟩

theorem FailsAlike.token {κ : Type} (kind : κ) {p : Reader String} (h : FailsAlike p) :
    FailsAlike (named do return (⟨kind, ← p⟩ : Token κ)) := by
  intro w mid mid' hw halike hnone
  rw [reads_token, Option.map_eq_none_iff] at hnone ⊢
  exact h hw halike hnone

/-! ## Operators that are symbols -/

/-- The symbols of operators have one or two characters, and no blanks. -/
structure IsSymbol (symbol : String) : Prop where
  ne_nil : symbol.toList ≠ []
  length_le : symbol.toList.length ≤ 2
  blank : ' ' ∉ symbol.toList

instance (symbol : String) : Decidable (IsSymbol symbol) :=
  decidable_of_iff (symbol.toList ≠ [] ∧ symbol.toList.length ≤ 2 ∧ ' ' ∉ symbol.toList)
    ⟨fun ⟨h, h', h''⟩ => ⟨h, h', h''⟩, fun ⟨h, h', h''⟩ => ⟨h, h', h''⟩⟩

/-- A symbol that comes about by exchanging the text behind was there before. -/
theorem IsSymbol.prefix_of_startsAlike {symbol : String} {w mid mid' : List Char}
    (hs : IsSymbol symbol) (hw : w ≠ []) (halike : StartsAlike mid mid')
    (h : symbol.toList <+: w ++ mid') : symbol.toList <+: w ++ mid := by
  obtain ⟨-, hlength, hblank⟩ := hs
  obtain ⟨a, as, rfl⟩ := List.exists_cons_of_ne_nil hw
  generalize symbol.toList = s at hlength hblank h ⊢
  match s with
  | [] => exact List.nil_prefix
  | [x] => simpa using h
  | [x, y] =>
    cases as with
    | cons b bs => simpa using h
    | nil =>
      -- the second character stands in the text that is exchanged
      obtain ⟨tail, htail⟩ := h
      obtain ⟨rfl, rfl⟩ := List.cons.inj htail
      rcases halike y rfl with hold | rfl
      · obtain ⟨cs, rfl⟩ := List.head?_eq_some_iff.1 hold
        exact ⟨cs, rfl⟩
      · simp at hblank
  | _ :: _ :: _ :: _ => simp at hlength

theorem readsAlike_scanSymbol {symbol : String} (hs : IsSymbol symbol) :
    ReadsAlike (scan (scanSymbol symbol)) := by
  intro text mid mid' a h _
  rw [reads_scan, scanSymbol_eq] at h
  split at h
  · next hprefix =>
    obtain ⟨tail, rfl⟩ := hprefix
    obtain ⟨rfl, rfl⟩ := Prod.mk.inj (Option.some.inj h)
    refine ⟨symbol.toList, hs.ne_nil, by simp, ?_⟩
    rw [reads_scan, scanSymbol_eq, if_pos (List.prefix_append _ _)]
    simp
  · cases h

theorem failsAlike_scanSymbol {symbol : String} (hs : IsSymbol symbol) :
    FailsAlike (scan (scanSymbol symbol)) := by
  intro w mid mid' hw halike h
  rw [reads_scan, scanSymbol_eq] at h ⊢
  split at h
  · cases h
  · next hprefix =>
    rw [if_neg fun hnew => hprefix (hs.prefix_of_startsAlike hw halike hnew)]
    rfl

theorem symbolToken_alike {κ : Type} (kind : κ) {symbols : List String}
    (h : ∀ symbol ∈ symbols, IsSymbol symbol) :
    FailsAlike (symbolToken kind symbols) ∧ ReadsAlike (symbolToken kind symbols) := by
  have hscan : ∀ p ∈ symbols.map (scan <| scanSymbol ·), FailsAlike p ∧ ReadsAlike p := by
    intro p hp
    obtain ⟨symbol, hsymbol, rfl⟩ := List.mem_map.1 hp
    exact ⟨failsAlike_scanSymbol (h symbol hsymbol), readsAlike_scanSymbol (h symbol hsymbol)⟩
  exact ⟨.token kind (.firstOf fun p hp => (hscan p hp).1), .token kind (.firstOf hscan)⟩

/-! ## Operators that are words -/

theorem scanWord_eq_some_iff {word : String} {text w mid : List Char} :
    scanWord word text = some (w, mid) ↔
      text.takeWhile isNameChar = word.toList ∧ w = word.toList ∧
        text.dropWhile isNameChar = mid := by
  unfold scanWord
  split
  · next h => simp [h, eq_comm]
  · next h => simp [h]

/-- A word with other text behind it. -/
theorem scanWord_respell {word : String} {text w mid mid' : List Char}
    (h : scanWord word text = some (w, mid)) (halike : StartsAlike mid mid') :
    text = w ++ mid ∧ (w ++ mid').takeWhile isNameChar = w ∧
      scanWord word (w ++ mid') = some (w, mid') := by
  obtain ⟨htake, rfl, rfl⟩ := scanWord_eq_some_iff.1 h
  have hword : ∀ c ∈ word.toList, isNameChar c = true := by
    rw [← htake]
    exact fun c hc => List.mem_takeWhile_imp hc
  have hstop : ∀ c ∈ mid'.head?, isNameChar c = false :=
    halike.forall_head (by decide) (Arithmetic.not_of_mem_head?_dropWhile text)
  obtain ⟨htake', hdrop'⟩ := Arithmetic.takeWhile_append mid' hword hstop
  refine ⟨?_, htake', scanWord_eq_some_iff.2 ⟨htake', rfl, hdrop'⟩⟩
  rw [← htake, List.takeWhile_append_dropWhile]

theorem readsAlike_scanWord {word : String} (hne : word.toList ≠ []) :
    ReadsAlike (scan (scanWord word)) := by
  intro text mid mid' a h halike
  rw [reads_scan] at h
  obtain ⟨⟨w, rest⟩, hw, heq⟩ := Option.map_eq_some_iff.1 h
  obtain ⟨rfl, rfl⟩ := Prod.mk.inj heq
  obtain ⟨htext, -, hscan⟩ := scanWord_respell hw halike
  obtain ⟨-, rfl, -⟩ := scanWord_eq_some_iff.1 hw
  exact ⟨word.toList, hne, htext, by rw [reads_scan, hscan]; rfl⟩

theorem readsAlike_wordToken {κ : Type} (kind : κ) {word : String} (hne : word.toList ≠ []) :
    ReadsAlike (wordToken kind word) :=
  (readsAlike_scanWord hne).token kind

/-- Where a word is read, it is all of the name characters there. -/
theorem takeWhile_of_wordToken {κ : Type} {kind : κ} {word : String} {text mid : List Char}
    {token : Token κ} (h : reads (wordToken kind word) text = some (token, mid)) :
    text.takeWhile isNameChar = word.toList := by
  rw [wordToken, reads_token, reads_scan] at h
  obtain ⟨⟨_, _⟩, hscan, -⟩ := Option.map_eq_some_iff.1 h
  obtain ⟨⟨_, _⟩, hscan, -⟩ := Option.map_eq_some_iff.1 hscan
  exact (scanWord_eq_some_iff.1 hscan).1

/-- Of two words the one that is read stands there with other text behind it too. -/
theorem readsAlike_words {κ : Type} (kind kind' : κ) {word word' : String}
    (hne : word.toList ≠ []) (hne' : word'.toList ≠ []) (hdistinct : word.toList ≠ word'.toList) :
    ReadsAlike (firstOf [wordToken kind word, wordToken kind' word']) := by
  intro text mid mid' token h halike
  rw [reads_firstOf_cons, reads_firstOf_cons, reads_firstOf_nil, Option.or_none,
    Option.or_eq_some_iff] at h
  rcases h with h | ⟨-, h⟩
  · obtain ⟨w, hw, rfl, hread⟩ := readsAlike_wordToken kind hne h halike
    exact ⟨w, hw, rfl, by rw [reads_firstOf_cons, hread, Option.some_or]⟩
  · obtain ⟨w, hw, rfl, hread⟩ := readsAlike_wordToken kind' hne' h halike
    have hnone : reads (wordToken kind word) (w ++ mid') = none := by
      rw [wordToken, reads_token, reads_scan, scanWord, takeWhile_of_wordToken hread,
        if_neg hdistinct.symm]
      rfl
    refine ⟨w, hw, rfl, ?_⟩
    rw [reads_firstOf_cons, hnone, Option.none_or, reads_firstOf_cons, hread, Option.some_or]

theorem readsAlike_infixToken : ReadsAlike infixToken := by
  rw [Arithmetic.infixToken_eq]
  refine ReadsAlike.firstOf_append (fun p hp => ?_)
    (readsAlike_words Infix.and Infix.or (by decide) (by decide) (by decide))
  obtain ⟨entry, hentry, rfl⟩ := List.mem_map.1 hp
  have hsymbols : ∀ p ∈ Arithmetic.symbolOperators, ∀ symbol ∈ p.2, IsSymbol symbol := by decide
  exact symbolToken_alike entry.1 (hsymbols entry hentry)

theorem readsAlike_signToken : ReadsAlike signToken := by
  have hsymbols : ∀ entry ∈ [(Sign.negate, ["-"]), (.positive, ["+"]), (.invert, ["~"])],
      ∀ symbol ∈ entry.2, IsSymbol symbol := by decide
  have hsplit : signToken = firstOf ([(Sign.negate, ["-"]), (.positive, ["+"]),
      (.invert, ["~"])].map (fun p => symbolToken p.1 p.2) ++ [wordToken .not "not"]) := rfl
  have hword : ReadsAlike (firstOf [wordToken Sign.not "not"]) := by
    intro text mid mid' token h halike
    rw [reads_firstOf_cons, reads_firstOf_nil, Option.or_none] at h
    obtain ⟨w, hw, rfl, hread⟩ := readsAlike_wordToken Sign.not (by decide) h halike
    exact ⟨w, hw, rfl, by rw [reads_firstOf_cons, hread, Option.some_or]⟩
  rw [hsplit]
  refine ReadsAlike.firstOf_append (fun p hp => ?_) hword
  obtain ⟨entry, hentry, rfl⟩ := List.mem_map.1 hp
  exact symbolToken_alike entry.1 (hsymbols entry hentry)

/-! ## Quoted texts -/

/-- A quoted text ends at the first quotation mark of its kind. -/
theorem scanBetween_eq_some_iff {quote : Char} {text w mid : List Char} :
    scanBetween quote text = some (w, mid) ↔
      ∃ body, quote ∉ body ∧ text = quote :: body ++ quote :: mid ∧ w = quote :: body ++ [quote] := by
  constructor
  · intro h
    unfold scanBetween at h
    split at h
    · cases h
    · next c cs =>
      split at h
      · next hc =>
        split at h
        · cases h
        · next d rest hdrop =>
          obtain ⟨rfl, rfl⟩ := Prod.mk.inj (Option.some.inj h)
          have hd : d = quote := by
            have hstop := Arithmetic.not_of_mem_head?_dropWhile (p := (· != quote)) cs d
              (by rw [hdrop]; rfl)
            simpa using hstop
          have hbody : quote ∉ cs.takeWhile (· != quote) := fun hmem => by
            simpa using List.mem_takeWhile_imp hmem
          refine ⟨_, hbody, ?_, rfl⟩
          subst hd
          rw [hc, List.cons_append, ← hdrop, List.takeWhile_append_dropWhile]
      · cases h
  · rintro ⟨body, hbody, rfl, rfl⟩
    have hother : ∀ c ∈ body, (c != quote) = true := by
      intro c hc
      rw [bne_iff_ne]
      rintro rfl
      exact hbody hc
    obtain ⟨htake, hdrop⟩ := Arithmetic.takeWhile_append (quote :: mid) hother (by simp)
    simp only [scanBetween, List.cons_append, if_true, htake, hdrop]

/-! ## Lexemes in general -/

/-- The characters that a lexeme may start with. -/
def Terminal.starts : Terminal → Char → Bool
  | .operator, c =>
    ['*', '^', '/', '%', '@', '+', '-', '<', '>', '=', '!', '&', '|', 'a', 'o'].contains c
  | .sign, c => ['-', '+', '~', 'n'].contains c
  | .number, c => c.isDigit || c == '.'
  | .name, c => isNameStart c
  | .quoted, c => c == '"' || c == '\''
  | .assign, c => c == '='
  | .mark m, c => c == m.char

/-- A lexeme of each kind. -/
def Terminal.sample : Terminal → List Char
  | .operator => ['+']
  | .sign => ['-']
  | .number => ['1']
  | .name => ['a']
  | .quoted => ['"', '"']
  | .assign => ['=']
  | .mark m => [m.char]

namespace Terminal

variable {t : Terminal} {text mid mid' : List Char}

theorem starts_of_symbolToken {κ : Type} {kind : κ} {symbols : List String} {token : Token κ}
    (h : reads (symbolToken kind symbols) text = some (token, mid)) {starts : Char → Bool}
    (hstarts : ∀ symbol ∈ symbols, symbol.toList.head?.any starts = true) :
    ∃ c ∈ text.head?, starts c = true := by
  obtain ⟨-, symbol, hsymbol, rfl⟩ := of_symbolToken h
  have hhead := hstarts symbol hsymbol
  cases hlist : symbol.toList with
  | nil => simp [hlist] at hhead
  | cons c cs => exact ⟨c, rfl, by simpa [hlist] using hhead⟩

theorem starts_of_wordToken {κ : Type} {kind : κ} {word : String} {token : Token κ}
    (h : reads (wordToken kind word) text = some (token, mid)) {starts : Char → Bool}
    (hstarts : word.toList.head?.any starts = true) : ∃ c ∈ text.head?, starts c = true := by
  have htake := takeWhile_of_wordToken h
  cases text with
  | nil =>
    rw [List.takeWhile_nil] at htake
    simp [← htake] at hstarts
  | cons c cs =>
    refine ⟨c, rfl, ?_⟩
    by_cases hc : isNameChar c = true
    · rw [List.takeWhile_cons_of_pos hc] at htake
      simpa [← htake] using hstarts
    · rw [List.takeWhile_cons_of_neg hc] at htake
      simp [← htake] at hstarts

theorem starts_of_infixToken {token : Token Infix} (h : reads infixToken text = some (token, mid)) :
    ∃ c ∈ text.head?, operator.starts c = true := by
  rw [Arithmetic.infixToken_eq] at h
  obtain ⟨p, hp, hread⟩ := exists_of_firstOf h
  have hsymbols : ∀ entry ∈ Arithmetic.symbolOperators, ∀ symbol ∈ entry.2,
      symbol.toList.head?.any operator.starts = true := by decide
  rcases List.mem_append.1 hp with hp | hp
  · obtain ⟨entry, hentry, rfl⟩ := List.mem_map.1 hp
    exact starts_of_symbolToken hread (hsymbols entry hentry)
  · simp only [List.mem_cons, List.not_mem_nil, or_false] at hp
    rcases hp with rfl | rfl <;> exact starts_of_wordToken hread (by decide)

theorem starts_of_signToken {token : Token Sign} (h : reads signToken text = some (token, mid)) :
    ∃ c ∈ text.head?, sign.starts c = true := by
  obtain ⟨p, hp, hread⟩ := exists_of_firstOf h
  simp only [List.mem_cons, List.not_mem_nil, or_false] at hp
  rcases hp with rfl | rfl | rfl | rfl
  · exact starts_of_symbolToken hread (by decide)
  · exact starts_of_symbolToken hread (by decide)
  · exact starts_of_symbolToken hread (by decide)
  · exact starts_of_wordToken hread (by decide)

theorem after_eq_some_of_reads {α : Type} {p : Reader α} :
    (reads p text).map (·.2) = some mid ↔ ∃ a, reads p text = some (a, mid) := by
  rcases reads p text with _ | ⟨a, rest⟩ <;> simp

theorem after_number_iff : number.after text = some mid ↔
    ∃ w, Arithmetic.ReadsOff text (.number w) mid := by
  show (scanNumber text).map (·.2) = some mid ↔ _
  simp only [Option.map_eq_some_iff, Prod.exists, exists_eq_right, Arithmetic.scanNumber_iff]

theorem after_name_iff : name.after text = some mid ↔
    ∃ w, Arithmetic.ReadsOff text (.word w) mid ∧ w ∉ keywords := by
  show (scanName text).map (·.2) = some mid ↔ _
  simp only [Option.map_eq_some_iff, Prod.exists, exists_eq_right, Arithmetic.scanName_iff]

/-- A quoted text, by its quotation mark. -/
theorem after_quoted_iff : quoted.after text = some mid ↔
    ∃ quote ∈ ['"', '\''], ∃ body, quote ∉ body ∧ text = quote :: body ++ quote :: mid := by
  have hbetween : ∀ quote, (∃ w, scanBetween quote text = some (w, mid)) ↔
      ∃ body, quote ∉ body ∧ text = quote :: body ++ quote :: mid := by
    intro quote
    simp only [scanBetween_eq_some_iff]
    exact ⟨fun ⟨_, body, hbody, htext, _⟩ => ⟨body, hbody, htext⟩,
      fun ⟨body, hbody, htext⟩ => ⟨_, body, hbody, htext, rfl⟩⟩
  have hsplit : quoted.after text = some mid ↔ ∃ w, scanBetween '"' text = some (w, mid) ∨
      scanBetween '"' text = none ∧ scanBetween '\'' text = some (w, mid) := by
    show (scanBetween '"' text <|> scanBetween '\'' text).map (·.2) = some mid ↔ _
    rcases scanBetween '"' text with _ | ⟨w, rest⟩ <;> simp
  rw [hsplit]
  constructor
  · rintro ⟨w, h | ⟨-, h⟩⟩
    · exact ⟨'"', by simp, (hbetween '"').1 ⟨w, h⟩⟩
    · exact ⟨'\'', by simp, (hbetween '\'').1 ⟨w, h⟩⟩
  · rintro ⟨quote, hquote, body, hbody, htext⟩
    simp only [List.mem_cons, List.not_mem_nil, or_false] at hquote
    obtain ⟨w, hw⟩ := (hbetween quote).2 ⟨body, hbody, htext⟩
    rcases hquote with rfl | rfl
    · exact ⟨w, .inl hw⟩
    · -- the text does not start with the other quotation mark
      exact ⟨w, .inr ⟨by rw [htext]; rfl, hw⟩⟩

theorem after_assign_iff : assign.after text = some mid ↔ text = '=' :: mid ∧ '=' ∉ mid.head? := by
  show (scanAssign text).map (·.2) = some mid ↔ _
  unfold scanAssign
  split
  · refine ⟨nofun, ?_⟩
    rintro ⟨heq, hstop⟩
    obtain rfl := (List.cons.inj heq).2
    exact absurd rfl hstop
  · next rest hnot =>
    constructor
    · intro h
      obtain rfl : rest = mid := by simpa using h
      refine ⟨rfl, fun hhead => ?_⟩
      obtain ⟨cs, rfl⟩ := List.head?_eq_some_iff.1 hhead
      exact hnot cs rfl
    · rintro ⟨htext, -⟩
      simpa using htext
  · next hnot =>
    refine ⟨nofun, ?_⟩
    rintro ⟨rfl, -⟩
    exact absurd rfl (hnot mid)

theorem after_mark_iff {m : Punctuation} :
    (mark m).after text = some mid ↔ text = m.char :: mid := by
  cases text with
  | nil => simp [after]
  | cons c cs => simp [after]

/-- A lexeme starts with a character of its kind. -/
theorem starts_of_after (h : t.after text = some mid) : ∃ c ∈ text.head?, t.starts c = true := by
  cases t with
  | operator =>
    obtain ⟨token, hread⟩ := after_eq_some_of_reads.1 h
    exact starts_of_infixToken hread
  | sign =>
    obtain ⟨token, hread⟩ := after_eq_some_of_reads.1 h
    exact starts_of_signToken hread
  | number =>
    obtain ⟨w, w', hw, rfl, -⟩ := after_number_iff.1 h
    obtain ⟨rfl, hnumber⟩ := Arithmetic.Token.spells_number.1 hw
    obtain ⟨c, cs, rfl⟩ := List.exists_cons_of_ne_nil hnumber.ne_nil
    refine ⟨c, rfl, ?_⟩
    rcases hnumber.first with hc | rfl
    · simp [starts, hc]
    · rfl
  | name =>
    obtain ⟨w, hread, -⟩ := after_name_iff.1 h
    exact (Arithmetic.readsOff_word_iff.1 hread).1
  | quoted =>
    obtain ⟨quote, hquote, body, -, rfl⟩ := after_quoted_iff.1 h
    refine ⟨quote, rfl, ?_⟩
    simpa [starts] using hquote
  | assign =>
    obtain ⟨rfl, -⟩ := after_assign_iff.1 h
    exact ⟨'=', rfl, rfl⟩
  | mark m =>
    obtain rfl := after_mark_iff.1 h
    exact ⟨m.char, rfl, beq_self_eq_true _⟩

/-- What lexeme stands at the front depends on the character behind it at most. -/
theorem after_respell (h : t.after text = some mid) (halike : StartsAlike mid mid') :
    ∃ w, w ≠ [] ∧ text = w ++ mid ∧ t.after (w ++ mid') = some mid' := by
  have hreader : ∀ {α : Type} {p : Reader α}, ReadsAlike p → (reads p text).map (·.2) = some mid →
      ∃ w, w ≠ [] ∧ text = w ++ mid ∧ (reads p (w ++ mid')).map (·.2) = some mid' := by
    intro α p hp h
    obtain ⟨a, hread⟩ := after_eq_some_of_reads.1 h
    obtain ⟨w, hw, htext, hread'⟩ := hp hread halike
    exact ⟨w, hw, htext, after_eq_some_of_reads.2 ⟨a, hread'⟩⟩
  have hlongest : ∀ {token : Arithmetic.Token}, token.goesOnWith ' ' = false →
      Arithmetic.ReadsOff text token mid →
      ∃ w, w ≠ [] ∧ text = w ++ mid ∧ Arithmetic.ReadsOff (w ++ mid') token mid' := by
    intro token hblank hread
    obtain ⟨w, hw, htext, hstop⟩ := Arithmetic.readsOff_iff.1 hread
    exact ⟨w, hw.ne_nil, htext,
      Arithmetic.readsOff_iff.2 ⟨w, hw, rfl, halike.forall_head hblank hstop⟩⟩
  cases t with
  | operator => exact hreader readsAlike_infixToken h
  | sign => exact hreader readsAlike_signToken h
  | number =>
    obtain ⟨v, hread⟩ := after_number_iff.1 h
    obtain ⟨w, hw, htext, hread'⟩ := hlongest rfl hread
    exact ⟨w, hw, htext, after_number_iff.2 ⟨v, hread'⟩⟩
  | name =>
    obtain ⟨v, hread, hkeyword⟩ := after_name_iff.1 h
    have hblank : (Arithmetic.Token.word v).goesOnWith ' ' = false :=
      (by decide : isNameChar ' ' = false)
    obtain ⟨w, hw, htext, hread'⟩ := hlongest hblank hread
    exact ⟨w, hw, htext, after_name_iff.2 ⟨v, hread', hkeyword⟩⟩
  | quoted =>
    obtain ⟨quote, hquote, body, hbody, rfl⟩ := after_quoted_iff.1 h
    refine ⟨quote :: body ++ [quote], by simp, by simp, after_quoted_iff.2 ?_⟩
    exact ⟨quote, hquote, body, hbody, by simp⟩
  | assign =>
    obtain ⟨rfl, hstop⟩ := after_assign_iff.1 h
    refine ⟨['='], by simp, rfl, after_assign_iff.2 ⟨rfl, fun hmem => ?_⟩⟩
    exact halike.forall_head (P := (· ≠ '=')) (by decide) (fun c hc heq => hstop (heq ▸ hc)) _ hmem rfl
  | mark m =>
    obtain rfl := after_mark_iff.1 h
    exact ⟨[m.char], by simp, rfl, after_mark_iff.2 rfl⟩

theorem length_lt_of_after (h : t.after text = some mid) : mid.length < text.length := by
  obtain ⟨w, hw, rfl, -⟩ := after_respell h fun c hc => .inl hc
  rw [List.length_append]
  exact Nat.lt_add_of_pos_left (List.length_pos_iff.2 hw)

/-- No lexeme starts with a blank. -/
theorem dropWhile_of_after (h : t.after text = some mid) :
    text.dropWhile Reader.isGap = text := by
  obtain ⟨c, hc, hstarts⟩ := starts_of_after h
  obtain ⟨cs, rfl⟩ := List.head?_eq_some_iff.1 hc
  refine List.dropWhile_cons_of_neg fun hgap => ?_
  have hblank := Arithmetic.mem_of_isGap hgap
  have hchar : ∀ m : Punctuation, m.char ∉ [' ', '\t', '\r', '\n'] := by
    intro m
    cases m <;> decide
  cases t with
  | mark m => exact hchar m (eq_of_beq hstarts ▸ hblank)
  | _ => fin_cases hblank <;> cases hstarts

/-- Where no lexeme of a kind can start there is none. -/
theorem after_eq_none (h : ∀ c ∈ text.head?, t.starts c = false) : t.after text = none := by
  by_contra hne
  obtain ⟨mid, hafter⟩ := Option.ne_none_iff_exists'.1 hne
  obtain ⟨c, hc, hstarts⟩ := starts_of_after hafter
  rw [h c hc] at hstarts
  cases hstarts

/-- The sample of each kind is read if nothing or a blank stands behind it. -/
theorem after_sample (t : Terminal) (h : ∀ c ∈ mid.head?, c = ' ') :
    t.after (t.sample ++ mid) = some mid := by
  have halike : StartsAlike [] mid := fun c hc => .inr (h c hc)
  have halone : t.after t.sample = some [] := by
    cases t with
    | mark m => cases m <;> decide
    | _ => decide
  obtain ⟨w, -, hw, hafter⟩ := after_respell halone halike
  rw [List.append_nil] at hw
  rwa [hw]

end Terminal

end SchoolMath.Surface
