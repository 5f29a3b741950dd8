import SchoolMath.Decimal.Read
import SchoolMath.Proofs.Arithmetic.Completeness
import SchoolMath.Proofs.Arithmetic.Soundness

/-!
# `Arithmetic.Reading` — the expression reader is the layered grammar

A text *writes* a tree when its longest tokens, with blanks between them, derive the tree. The
reader of expressions goes another way: the surface grammar, which knows calls, comparisons and
assignments, a refusal of what is no arithmetic, and three passes over a flat row of operands. The
main statements say that this comes to the same:

* `read_eq_ok_iff` — what is read is what is written;
* `read_arithmetic` — this, and which failure a text that writes nothing meets.
-/

namespace SchoolMath.Arithmetic

open Surface Surface.Reader

variable {K : Type} [Numeral K]

/-- The longest tokens of the text, with blanks between them, derive the tree. -/
def Writes (text : String) (tree : Tree K) : Prop :=
  ∃ ts, Lexes text.toList ts [] ∧ Derives .sum ts tree

/-! ## Whole texts -/

/-- No token starts with the sign of an assignment. -/
theorem not_readsOff_equals {cs rest : List Char} {t : Token} : ¬ ReadsOff ('=' :: cs) t rest := by
  rintro ⟨w, hw, htext, -⟩
  obtain ⟨c, w, rfl⟩ := List.exists_cons_of_ne_nil hw.ne_nil
  obtain ⟨rfl, -⟩ := List.cons.inj htext
  cases hw with
  | number hn => exact absurd hn.first (by decide)
  | word hw => exact absurd hw.isNameStart (by decide)
  | symbol hs =>
    have key : ∀ p ∈ symbols, '=' ∉ p.1.head? := by decide
    exact key _ hs rfl

/-- A text of tokens is no assignment. -/
theorem assignment_none {text : List Char} {ts : List Token} (hlex : Lexes text ts [])
    (hblank : text.dropWhile isGap = text) : reads assignment text = none := by
  by_contra h
  obtain ⟨⟨s, rest⟩, h⟩ := Option.ne_none_iff_exists'.1 h
  obtain ⟨-, w, mid, cs, hname, hequals⟩ := of_assignment h
  have hword : ReadsOff text (.word w) mid := (scanName_iff.1 hname).1
  -- so the name is the first token, and a second one starts with the sign
  cases ts with
  | nil =>
    have hnil := hlex.dropWhile_of_nil
    rw [hblank] at hnil
    have hlt := hword.length_lt
    simp [hnil] at hlt
  | cons t ts =>
    obtain ⟨mid', hfirst, hmid⟩ := Lexes.cons_iff.1 hlex
    rw [hblank] at hfirst
    obtain ⟨rfl, rfl⟩ := hword.unique hfirst
    cases ts with
    | nil =>
      have hnil := hmid.dropWhile_of_nil
      simp [hequals] at hnil
    | cons t' ts =>
      obtain ⟨tail, hsecond, -⟩ := Lexes.cons_iff.1 hmid
      rw [hequals] at hsecond
      exact not_readsOff_equals hsecond

/-! ## What is read -/

/-- What has a tree among the statements is a phrase off derivable tokens. -/
theorem writes_of_parse {text : String} {s : Statement} {t : Tree K}
    (h : Surface.parse text = .ok s) (ht : s.tree = .ok t) : Writes text t := by
  obtain ⟨mid, hread, hmid⟩ := parse_eq_ok_iff.1 h
  rw [reads_orElse, Option.or_eq_some_iff] at hread
  cases s with
  | assignment => cases ht
  | phrase value =>
    rcases hread with hread | ⟨-, hread⟩
    · -- the first alternative reads assignments only
      exact absurd rfl ((of_assignment hread).1 value)
    · rw [reads_map, Option.map_eq_some_iff] at hread
      obtain ⟨⟨value', mid'⟩, hphrase, heq⟩ := hread
      obtain ⟨⟨⟩, rfl⟩ := Prod.mk.inj heq
      rw [reads_anyPhrase] at hphrase
      obtain ⟨ts, hlex, hderives⟩ := phraseWithin_sound _ hphrase ht
      have hend : Lexes mid' [] [] := hmid ▸ Lexes.dropWhile mid'
      exact ⟨ts, by simpa using hlex.of_dropWhile.append hend, hderives⟩

/-- A text that writes a tree is a statement with this tree. -/
theorem parse_of_writes {text : String} {t : Tree K} (h : Writes text t) :
    ∃ s, Surface.parse text = .ok s ∧ s.tree = .ok t := by
  obtain ⟨ts, hlex, hderives⟩ := h
  have hidem := List.dropWhile_idempotent isGap text.toList
  have hlex := hlex.from_dropWhile (ne_nil_of_derives hderives)
  obtain ⟨phrase, hphrase, htree⟩ :=
    phraseWithin_complete _ (Nat.lt_succ_self _) hidem hlex hderives (.inl rfl)
  rw [← reads_anyPhrase] at hphrase
  refine ⟨.phrase phrase, parse_eq_ok_iff.2 ⟨[], ?_, rfl⟩, htree⟩
  rw [reads_orElse, assignment_none hlex hidem, Option.none_or, reads_map, hphrase]
  rfl

/-- The reader reads a tree off a text exactly if the text writes the tree. -/
theorem read_eq_ok_iff {text : String} {e : Expression K} :
    Expression.read text = .ok e ↔ e.text = text ∧ Writes text e.tree := by
  unfold Expression.read
  constructor
  · intro h
    cases hs : Surface.parse text with
    | error offset => simp [hs] at h
    | ok s =>
      simp only [hs, map_eq_ok, mapError_eq_ok] at h
      obtain ⟨t, ht, rfl⟩ := h
      exact ⟨rfl, writes_of_parse hs ht⟩
  · -- the surface grammar may have tried an assignment before, which came to nothing
    rintro ⟨rfl, hwrites⟩
    obtain ⟨s, hs, ht⟩ := parse_of_writes hwrites
    simp [hs, ht, Except.mapError, Except.map]

/-- A text writes at most one tree. -/
theorem Writes.unique {text : String} {t t' : Tree K} (h : Writes text t) (h' : Writes text t') :
    t = t' := by
  have hread : Expression.read text = .ok ⟨text, t⟩ := read_eq_ok_iff.2 ⟨rfl, h⟩
  have hread' : Expression.read text = .ok ⟨text, t'⟩ := read_eq_ok_iff.2 ⟨rfl, h'⟩
  rw [hread] at hread'
  cases hread'
  rfl

/-- A number is digits, or digits with a point among them. -/
theorem IsNumber.eq_or_exists {w : List Char} (h : IsNumber w) :
    (∀ c ∈ w, c.isDigit = true) ∨ ∃ whole fraction, w = whole ++ '.' :: fraction ∧
      (∀ c ∈ whole, c.isDigit = true) ∧ (∀ c ∈ fraction, c.isDigit = true) ∧
      (whole ≠ [] ∨ fraction ≠ []) := by
  by_cases hpoint : '.' ∈ w
  · right
    obtain ⟨whole, fraction, rfl⟩ := List.append_of_mem hpoint
    have hcount := h.point
    rw [List.count_append, List.count_cons_self] at hcount
    have hdigit : ∀ c ∈ whole ++ '.' :: fraction, c ≠ '.' → c.isDigit = true :=
      fun c hc hne => (h.chars c hc).resolve_right hne
    have hwhole : '.' ∉ whole := List.count_eq_zero.1 (by omega)
    have hfraction : '.' ∉ fraction := List.count_eq_zero.1 (by omega)
    refine ⟨whole, fraction, rfl, ?_, ?_, ?_⟩
    · intro c hc
      exact hdigit c (by simp [hc]) (by rintro rfl; exact hwhole hc)
    · intro c hc
      exact hdigit c (by simp [hc]) (by rintro rfl; exact hfraction hc)
    · by_contra hempty
      simp only [not_or, not_not] at hempty
      obtain ⟨rfl, rfl⟩ := hempty
      obtain ⟨c, hc, hd⟩ := h.digit
      obtain rfl := List.mem_singleton.1 hc
      exact absurd hd (by decide)
  · left
    intro c hc
    exact (h.chars c hc).resolve_right (by rintro rfl; exact hpoint hc)

/-- A number of the grammar has no sign. -/
theorem splitSign_of_isNumber {w : List Char} (h : IsNumber w) :
    Decimal.splitSign w = (false, w) := by
  obtain ⟨c, cs, rfl⟩ := List.exists_cons_of_ne_nil h.ne_nil
  rcases h.first with hc | rfl
  · -- the first character is a digit, hence no sign
    unfold Decimal.splitSign
    split
    · next heq => rw [(List.cons.inj heq).1] at hc; exact absurd hc (by decide)
    · next heq => rw [(List.cons.inj heq).1] at hc; exact absurd hc (by decide)
    · rfl
  · rfl

/-- Digits alone are the coefficient. -/
theorem readScientific?_of_digits {w : List Char} (h : ∀ c ∈ w, c.isDigit = true) (hne : w ≠ []) :
    Decimal.readScientific? w = some ⟨Decimal.ofDigits w, 0⟩ := by
  obtain ⟨htake, hdrop⟩ := takeWhile_append [] h (by simp)
  rw [List.append_nil] at htake hdrop
  simp [Decimal.readScientific?, htake, hdrop, hne, Decimal.readExponent?]

/-- The reader of decimals takes every number of the grammar. -/
theorem isSome_read?_of_isNumber {w : List Char} (h : IsNumber w) :
    (Decimal.read? (String.ofList w)).isSome = true := by
  have hscientific : (Decimal.readScientific? w).isSome = true := by
    rcases h.eq_or_exists with hdigits | ⟨whole, fraction, rfl, hwhole, hfraction, hne⟩
    · rw [readScientific?_of_digits hdigits h.ne_nil]
      rfl
    · obtain ⟨htake, hdrop⟩ := takeWhile_append ('.' :: fraction) hwhole (by simp)
      obtain ⟨htake', hdrop'⟩ := takeWhile_append [] hfraction (by simp)
      rw [List.append_nil] at htake' hdrop'
      have hempty : ¬ (whole = [] ∧ fraction = []) := by tauto
      simp [Decimal.readScientific?, htake, hdrop, htake', hdrop', hempty, Decimal.readExponent?]
  have hunsigned : (Decimal.readUnsigned? w).isSome = true := by
    simp only [Decimal.readUnsigned?]
    split
    · rfl
    · split
      · rfl
      · rw [Option.isSome_map, hscientific]
  unfold Decimal.read?
  rw [String.toList_ofList, splitSign_of_isNumber h, Option.isSome_map, hunsigned]

/-! ## Which failure a text meets -/

/-- A text that is no statement is unreadable. -/
theorem read_of_parse_error {text : String} {offset : Nat}
    (h : Surface.parse text = .error offset) :
    Expression.read (K := K) text = .error (.unreadable text offset) := by
  unfold Expression.read
  rw [h]

/-- A statement that writes no tree is refused. -/
theorem read_of_parse_ok {text : String} {s : Statement} (h : Surface.parse text = .ok s)
    (hnone : ¬ ∃ t : Tree K, Writes text t) :
    ∃ refusal, Expression.read (K := K) text = .error (.notArithmetic refusal) := by
  cases ht : s.tree (K := K) with
  | ok t => exact absurd ⟨t, writes_of_parse h ht⟩ hnone
  | error refusal =>
    refine ⟨refusal, ?_⟩
    unfold Expression.read
    rw [h]
    simp [ht, Except.mapError, Except.map]

/-- A text that writes a tree meets no failure. -/
theorem read_ne_error {text : String} (h : ∃ t : Tree K, Writes text t) (failure : Failure K) :
    Expression.read text ≠ .error failure := by
  obtain ⟨t, ht⟩ := h
  have hread : Expression.read text = .ok ⟨text, t⟩ := read_eq_ok_iff.2 ⟨rfl, ht⟩
  rw [hread]
  exact nofun

/-- A text is refused as no arithmetic exactly if it is a statement that writes no tree. -/
theorem read_eq_notArithmetic_iff {text : String} :
    (∃ refusal, Expression.read (K := K) text = .error (.notArithmetic refusal)) ↔
      ¬ (∃ t : Tree K, Writes text t) ∧ ∃ s, Surface.parse text = .ok s := by
  constructor
  · rintro ⟨refusal, h⟩
    refine ⟨fun hwrites => read_ne_error hwrites _ h, ?_⟩
    cases hs : Surface.parse text with
    | ok s => exact ⟨s, rfl⟩
    | error offset =>
      rw [read_of_parse_error hs] at h
      cases h
  · rintro ⟨hnone, s, hs⟩
    exact read_of_parse_ok hs hnone

/-- A text is unreadable exactly if it is no statement; such a text writes no tree. -/
theorem read_eq_unreadable_iff {text : String} :
    (∃ offset, Expression.read (K := K) text = .error (.unreadable text offset)) ↔
      ¬ (∃ t : Tree K, Writes text t) ∧ ¬ ∃ s, Surface.parse text = .ok s := by
  constructor
  · rintro ⟨offset, h⟩
    have hnone : ¬ ∃ t : Tree K, Writes text t := fun hwrites => read_ne_error hwrites _ h
    refine ⟨hnone, ?_⟩
    rintro ⟨s, hs⟩
    obtain ⟨refusal, h'⟩ := read_of_parse_ok hs hnone
    rw [h'] at h
    cases h
  · rintro ⟨-, hparse⟩
    cases hs : Surface.parse text with
    | ok s => exact absurd ⟨s, hs⟩ hparse
    | error offset => exact ⟨offset, read_of_parse_error hs⟩

/-- There is no third failure. -/
theorem eq_of_read_eq_error {text : String} {failure : Failure K}
    (h : Expression.read text = .error failure) :
    (∃ refusal, failure = .notArithmetic refusal) ∨ ∃ offset, failure = .unreadable text offset := by
  have hnone : ¬ ∃ t : Tree K, Writes text t := fun hwrites => read_ne_error hwrites _ h
  cases hs : Surface.parse text with
  | ok s =>
    obtain ⟨refusal, h'⟩ := read_of_parse_ok hs hnone
    rw [h'] at h
    cases h
    exact .inl ⟨refusal, rfl⟩
  | error offset =>
    rw [read_of_parse_error hs] at h
    cases h
    exact .inr ⟨offset, rfl⟩

/-- A text is read as the tree that it writes. A text that writes none is refused as no arithmetic
if the surface grammar takes it for a statement, and as unreadable if not; there is no other
failure, and no number of the grammar is out of the reach of the decimal reader. -/
theorem read_arithmetic (text : String) :
    (∀ e : Expression K, Expression.read text = .ok e ↔ e.text = text ∧ Writes text e.tree) ∧
    ((∃ refusal, Expression.read (K := K) text = .error (.notArithmetic refusal)) ↔
      ¬ (∃ t : Tree K, Writes text t) ∧ ∃ s, Surface.parse text = .ok s) ∧
    ((∃ offset, Expression.read (K := K) text = .error (.unreadable text offset)) ↔
      ¬ (∃ t : Tree K, Writes text t) ∧ ¬ ∃ s, Surface.parse text = .ok s) ∧
    (∀ failure : Failure K, Expression.read text = .error failure →
      (∃ refusal, failure = .notArithmetic refusal) ∨ ∃ offset, failure = .unreadable text offset) ∧
    ∀ w, IsNumber w → (Decimal.read? (String.ofList w)).isSome = true :=
  ⟨fun _ => read_eq_ok_iff, read_eq_notArithmetic_iff, read_eq_unreadable_iff,
    fun _ => eq_of_read_eq_error, fun _ => isSome_read?_of_isNumber⟩

end SchoolMath.Arithmetic
