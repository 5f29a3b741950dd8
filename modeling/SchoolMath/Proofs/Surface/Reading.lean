import Mathlib
import SchoolMath.Surface.Grammar

/-!
# `Surface.Reading` — what readers read, without the marks

A reader also remembers how far it got. What it reads does not depend on that: `Reader.reads` drops
the mark, and each combinator has one equation for it. Two relations follow the repetition:

* `Items` — whatever a repetition returns are items that the reader read in a row;
* `Repeats` — items in a row behind which the reader fails are what a repetition returns.
-/

namespace SchoolMath.Surface.Reader

variable {α β : Type}

/-- What a reader reads off a text, and the text behind it. -/
def reads (p : Reader α) (text : List Char) : Option (α × List Char) := (p text).result

@[simp] theorem reads_pure (a : α) (text : List Char) :
    reads (pure a) text = some (a, text) := rfl

@[simp] theorem reads_fail (text : List Char) : reads (fail : Reader α) text = none := rfl

@[simp] theorem reads_bind (p : Reader α) (f : α → Reader β) (text : List Char) :
    reads (p >>= f) text = (reads p text).bind fun r => reads (f r.1) r.2 := by
  show (andThen p f text).result = _
  unfold andThen reads
  rcases p text with ⟨_ | ⟨a, rest⟩, mark⟩ <;> rfl

@[simp] theorem reads_map (f : α → β) (p : Reader α) (text : List Char) :
    reads (f <$> p) text = (reads p text).map fun r => (f r.1, r.2) := by
  show reads (p >>= fun a => pure (f a)) text = _
  rw [reads_bind]
  rcases reads p text with _ | ⟨a, rest⟩ <;> rfl

@[simp] theorem reads_orElse (p q : Reader α) (text : List Char) :
    reads (p <|> q) text = (reads p text).or (reads q text) := by
  show (orElse p (fun _ => q) text).result = _
  unfold orElse reads
  rcases p text with ⟨_ | ⟨a, rest⟩, mark⟩ <;> rfl

@[simp] theorem reads_scan (scanner : List Char → Option (List Char × List Char))
    (text : List Char) :
    reads (scan scanner) text = (scanner text).map fun r => (String.ofList r.1, r.2) := rfl

@[simp] theorem reads_named (p : Reader α) (text : List Char) :
    reads (named p) text = reads p text := by
  rcases h : p text with ⟨_ | ⟨a, rest⟩, mark⟩ <;> simp only [named, reads, h]

@[simp] theorem reads_captured (p : Reader α) (text : List Char) :
    reads (captured p) text = (reads p text).map fun r =>
      ((String.ofList (text.take (text.length - r.2.length)), r.1), r.2) := by
  rcases h : p text with ⟨_ | ⟨a, rest⟩, mark⟩ <;> simp only [captured, reads, h] <;> rfl

@[simp] theorem reads_gap (text : List Char) :
    reads gap text = some ((), text.dropWhile isGap) := rfl

@[simp] theorem reads_optional (p : Reader α) (text : List Char) :
    reads (optional p) text =
      ((reads p text).map fun r => (some r.1, r.2)).or (some (none, text)) := by
  show reads (some <$> p <|> pure none) text = _
  simp

@[simp] theorem reads_firstOf_nil (text : List Char) :
    reads (firstOf ([] : List (Reader α))) text = none := rfl

@[simp] theorem reads_firstOf_cons (p : Reader α) (ps : List (Reader α)) (text : List Char) :
    reads (firstOf (p :: ps)) text = (reads p text).or (reads (firstOf ps) text) :=
  reads_orElse p (firstOf ps) text

/-- What a choice reads one of the alternatives reads. -/
theorem exists_of_firstOf {ps : List (Reader α)} {text : List Char} {r : α × List Char}
    (h : reads (firstOf ps) text = some r) : ∃ p ∈ ps, reads p text = some r := by
  induction ps with
  | nil => cases h
  | cons p ps ih =>
    rw [reads_firstOf_cons, Option.or_eq_some_iff] at h
    rcases h with h | ⟨-, h⟩
    · exact ⟨p, List.mem_cons_self, h⟩
    · obtain ⟨q, hq, hread⟩ := ih h
      exact ⟨q, List.mem_cons_of_mem _ hq, hread⟩

/-! ## Repetition -/

/-- Items read in a row; blanks may be passed over before each of them. -/
inductive Items (p : Reader α) : List Char → List α → List Char → Prop
  | nil {text : List Char} : Items p text [] text
  | gap {text rest : List Char} {as : List α} :
      Items p (text.dropWhile isGap) as rest → Items p text as rest
  | cons {text mid rest : List Char} {a : α} {as : List α} :
      reads p text = some (a, mid) → Items p mid as rest → Items p text (a :: as) rest

/-- Items read in a row, each consuming something, with blanks before each of them, until the reader
fails behind the blanks. -/
inductive Repeats (p : Reader α) : List Char → List α → List Char → Prop
  | stop {text : List Char} : reads p (text.dropWhile isGap) = none → Repeats p text [] text
  | item {text mid rest : List Char} {a : α} {as : List α} :
      reads p (text.dropWhile isGap) = some (a, mid) → mid.length < text.length →
      Repeats p mid as rest → Repeats p text (a :: as) rest

/-- One round of a repetition. -/
theorem reads_repeatedAfterGap_succ (p : Reader α) (limit : Nat) (text : List Char) :
    reads (repeatedAfterGap p (limit + 1)) text =
      (((reads p (text.dropWhile isGap)).bind fun r =>
        (reads (repeatedAfterGap p limit) r.2).map fun s => (r.1 :: s.1, s.2)).or
          (some ([], text))) := by
  rw [repeatedAfterGap, reads_orElse, reads_pure, reads_bind, reads_gap, Option.bind_some,
    reads_bind]
  congr 2
  funext r
  rw [reads_bind]
  rcases reads (repeatedAfterGap p limit) r.2 with _ | ⟨as, rest⟩ <;> rfl

theorem reads_repeated (p : Reader α) (text : List Char) :
    reads (repeated p) text =
      (((reads p text).bind fun r =>
        (reads (repeatedAfterGap p text.length) r.2).map fun s => (r.1 :: s.1, s.2)).or
          (some ([], text))) := by
  show reads ((do
      let item ← p
      let items ← repeatedAfterGap p text.length
      pure (item :: items)) <|> pure []) text = _
  rw [reads_orElse, reads_pure, reads_bind]
  congr 2
  funext r
  rw [reads_bind]
  rcases reads (repeatedAfterGap p text.length) r.2 with _ | ⟨as, rest⟩ <;> rfl

theorem items_of_repeatedAfterGap {p : Reader α} {limit : Nat} {text rest : List Char} {as : List α}
    (h : reads (repeatedAfterGap p limit) text = some (as, rest)) : Items p text as rest := by
  induction limit generalizing text as with
  | zero =>
    obtain ⟨rfl, rfl⟩ := Prod.mk.inj (Option.some.inj h)
    exact .nil
  | succ limit ih =>
    rw [reads_repeatedAfterGap_succ, Option.or_eq_some_iff] at h
    rcases h with h | ⟨-, h⟩
    · obtain ⟨⟨a, mid⟩, ha, h⟩ := Option.bind_eq_some_iff.1 h
      obtain ⟨⟨as', rest'⟩, has, h⟩ := Option.map_eq_some_iff.1 h
      obtain ⟨rfl, rfl⟩ := Prod.mk.inj h
      exact .gap (.cons ha (ih has))
    · obtain ⟨rfl, rfl⟩ := Prod.mk.inj (Option.some.inj h)
      exact .nil

/-- What a repetition returns are items read in a row. -/
theorem items_of_repeated {p : Reader α} {text rest : List Char} {as : List α}
    (h : reads (repeated p) text = some (as, rest)) : Items p text as rest := by
  rw [reads_repeated, Option.or_eq_some_iff] at h
  rcases h with h | ⟨-, h⟩
  · obtain ⟨⟨a, mid⟩, ha, h⟩ := Option.bind_eq_some_iff.1 h
    obtain ⟨⟨as', rest'⟩, has, h⟩ := Option.map_eq_some_iff.1 h
    obtain ⟨rfl, rfl⟩ := Prod.mk.inj h
    exact .cons ha (items_of_repeatedAfterGap has)
  · obtain ⟨rfl, rfl⟩ := Prod.mk.inj (Option.some.inj h)
    exact .nil

theorem Repeats.repeatedAfterGap {p : Reader α} {text rest : List Char} {as : List α}
    (h : Repeats p text as rest) {limit : Nat} (hlimit : text.length ≤ limit) :
    reads (repeatedAfterGap p limit) text = some (as, rest) := by
  induction h generalizing limit with
  | stop hnone =>
    cases limit with
    | zero => rfl
    | succ limit => rw [reads_repeatedAfterGap_succ, hnone]; rfl
  | item ha hlt _ ih =>
    cases limit with
    | zero => omega
    | succ limit => rw [reads_repeatedAfterGap_succ, ha, Option.bind_some, ih (by omega)]; rfl

/-- Items behind which the reader fails are what a repetition returns, the bound on their number
notwithstanding. -/
theorem Repeats.repeated {p : Reader α} {text rest : List Char} {as : List α}
    (h : Repeats p text as rest) (hgap : text.dropWhile isGap = text) :
    reads (repeated p) text = some (as, rest) := by
  cases h with
  | stop hnone =>
    rw [hgap] at hnone
    rw [reads_repeated, hnone]
    rfl
  | item ha hlt hrest =>
    rw [hgap] at ha
    rw [reads_repeated, ha, Option.bind_some, hrest.repeatedAfterGap (Nat.le_of_lt hlt)]
    rfl

end SchoolMath.Surface.Reader
