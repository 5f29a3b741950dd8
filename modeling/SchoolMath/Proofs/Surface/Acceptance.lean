import SchoolMath.Proofs.Arithmetic.Completeness
import SchoolMath.Proofs.Surface.Course

/-!
# `Surface.Acceptance` — what the machine reads to the end is read by the readers

The readers never take a choice back that has succeeded, and repeat as often as they can. That loses
nothing: the first character tells the alternatives apart, and what may follow a repetition does not
start like one more item. `Accepts` are the texts on which the machine empties a stack, with the blanks
skipped as the readers do it, and `Takes` says that a reader reads its part of every such text. It is
shown for one combinator and one rule after another; phrases inside brackets are shorter than the text
around them, so the depth of the readers suffices (`complete_phraseWithin`).
-/

namespace SchoolMath.Surface

open Reader

variable {α β : Type} {p : Reader α} {stack front front' : List Expected} {text mid rest : List Char}
  {limit : Nat}

/-! ## Accepted texts -/

/-- The machine empties the stack on the text. Blanks are skipped behind each lexeme. -/
inductive Accepts : List Expected → List Char → Prop
  | nil : Accepts [] []
  | part {r : Part} {production stack : List Expected} {text : List Char} :
      production ∈ r.productions → Accepts (production ++ stack) text → Accepts (.part r :: stack) text
  | terminal {t : Terminal} {stack : List Expected} {text mid : List Char} :
      t.after text = some mid → Accepts stack (mid.dropWhile isGap) →
      Accepts (.terminal t :: stack) text

theorem Accepts.of_steps (h : Steps stack text [] []) : Accepts stack (text.dropWhile isGap) := by
  generalize hlast : ([] : List Expected) = last at h
  generalize hend : ([] : List Char) = rest at h
  induction h with
  | refl =>
    subst hlast hend
    exact .nil
  | blank hc _ ih =>
    rw [List.dropWhile_cons_of_pos hc]
    exact ih hlast hend
  | expand hproduction _ ih => exact .part hproduction (ih hlast hend)
  | shift hafter _ ih =>
    rw [Terminal.dropWhile_of_after hafter]
    exact .terminal hafter (ih hlast hend)

/-- There are no blanks in front. -/
theorem Accepts.dropWhile (h : Accepts stack text) : text.dropWhile isGap = text := by
  induction h with
  | nil => rfl
  | part _ _ ih => exact ih
  | terminal hafter _ => exact Terminal.dropWhile_of_after hafter

theorem accepts_nil_iff : Accepts [] text ↔ text = [] := by
  constructor
  · intro h
    cases h
    rfl
  · rintro rfl
    exact .nil

theorem accepts_terminal_iff {t : Terminal} : Accepts (.terminal t :: stack) text ↔
    ∃ mid, t.after text = some mid ∧ Accepts stack (mid.dropWhile isGap) := by
  constructor
  · intro h
    cases h with
    | terminal hafter hrest => exact ⟨_, hafter, hrest⟩
  · rintro ⟨mid, hafter, hrest⟩
    exact .terminal hafter hrest

theorem accepts_part_iff {r : Part} : Accepts (.part r :: stack) text ↔
    ∃ production ∈ r.productions, Accepts (production ++ stack) text := by
  constructor
  · intro h
    cases h with
    | part hproduction hrest => exact ⟨_, hproduction, hrest⟩
  · rintro ⟨production, hproduction, hrest⟩
    exact .part hproduction hrest

/-- A part that is made in one way. -/
theorem accepts_only_iff {r : Part} {production : List Expected} (hr : r.productions = [production]) :
    Accepts (.part r :: stack) text ↔ Accepts (production ++ stack) text := by
  simp only [accepts_part_iff, hr, List.mem_singleton, exists_eq_left]

/-- A part that is made in one of two ways. -/
theorem accepts_either_iff {r : Part} {production production' : List Expected}
    (hr : r.productions = [production, production']) : Accepts (.part r :: stack) text ↔
      Accepts (production ++ stack) text ∨ Accepts (production' ++ stack) text := by
  simp only [accepts_part_iff, hr, List.mem_cons, List.not_mem_nil, or_false, exists_eq_or_imp,
    exists_eq_left]

/-- The five primaries. -/
theorem accepts_primary_iff : Accepts (.part .primary :: stack) text ↔
    Accepts (.terminal .number :: stack) text ∨ Accepts (.terminal .name :: stack) text ∨
      Accepts (.terminal (.mark .opening) :: .part .phrase :: .terminal (.mark .closing) :: stack)
        text ∨
      Accepts (.terminal .quoted :: stack) text ∨
      Accepts (.terminal (.mark .openBracket) :: .part .elements ::
        .terminal (.mark .closeBracket) :: stack) text := by
  simp only [accepts_part_iff, Part.productions, List.mem_cons, List.not_mem_nil, or_false,
    exists_eq_or_imp, exists_eq_left, List.cons_append, List.nil_append]

/-- The three suffixes. -/
theorem accepts_suffix_iff : Accepts (.part .suffix :: stack) text ↔
    Accepts (.terminal (.mark .opening) :: .part .arguments :: .terminal (.mark .closing) :: stack)
        text ∨
      Accepts (.terminal (.mark .openBracket) :: .part .phrase ::
        .terminal (.mark .closeBracket) :: stack) text ∨
      Accepts (.terminal (.mark .point) :: .terminal .name :: stack) text := by
  simp only [accepts_part_iff, Part.productions, List.mem_cons, List.not_mem_nil, or_false,
    exists_eq_or_imp, exists_eq_left, List.cons_append, List.nil_append]

theorem Accepts.starts {t : Terminal} (h : Accepts (.terminal t :: stack) text) :
    ∃ c ∈ text.head?, t.starts c = true := by
  obtain ⟨mid, hafter, -⟩ := accepts_terminal_iff.1 h
  exact Terminal.starts_of_after hafter

theorem accepts_mark_iff {m : Punctuation} : Accepts (.terminal (.mark m) :: stack) text ↔
    ∃ mid, text = m.char :: mid ∧ Accepts stack (mid.dropWhile isGap) := by
  simp only [accepts_terminal_iff, Terminal.after_mark_iff]

/-! ## What follows a phrase -/

/-- The characters that may stand behind a phrase. -/
def isStop (c : Char) : Bool := c == ')' || c == ']' || c == ','

/-- What the stack accepts is empty or starts where a phrase stops. -/
def Stops (stack : List Expected) : Prop :=
  ∀ ⦃text⦄, Accepts stack text → ∀ c ∈ text.head?, isStop c = true

theorem stops_nil : Stops [] := by
  intro text h c hc
  rw [accepts_nil_iff.1 h] at hc
  cases hc

theorem stops_mark {m : Punctuation} (hm : isStop m.char = true) (stack : List Expected) :
    Stops (.terminal (.mark m) :: stack) := by
  intro text h c hc
  obtain ⟨mid, rfl, -⟩ := accepts_mark_iff.1 h
  obtain rfl := Option.some.inj hc
  exact hm

theorem Stops.more (h : Stops stack) : Stops (.part .more :: stack) := by
  intro text haccepts
  rcases (accepts_either_iff rfl).1 haccepts with haccepts | haccepts
  · exact h haccepts
  · exact stops_mark (by decide) _ haccepts

theorem Stops.trailing (h : Stops stack) : Stops (.part .trailing :: stack) := by
  intro text haccepts
  rcases (accepts_either_iff rfl).1 haccepts with haccepts | haccepts
  · exact h haccepts
  · exact stops_mark (by decide) _ haccepts

/-! ## Readers that take their part of accepted texts -/

/-- On texts shorter than `limit` that are accepted with `front` on the stack, the reader reads what
`front` stands for. -/
def Takes (p : Reader α) (front stack : List Expected) (limit : Nat) : Prop :=
  ∀ ⦃text⦄, text.length < limit → Accepts (front ++ stack) text →
    ∃ a mid, reads p text = some (a, mid) ∧ Accepts stack (mid.dropWhile isGap)

namespace Takes

/-- What is read before, when nothing is read after. -/
theorem map {f : α → Reader β} (h : Takes p front stack limit) (hf : ∀ a, ∃ b, f a = pure b) :
    Takes (p >>= f) front stack limit := by
  intro text hlength haccepts
  obtain ⟨a, mid, hread, hrest⟩ := h hlength haccepts
  obtain ⟨b, hb⟩ := hf a
  exact ⟨b, mid, reads_bind_iff.2 ⟨a, mid, hread, by rw [hb]; rfl⟩, hrest⟩

theorem named (h : Takes p front stack limit) : Takes (Reader.named p) front stack limit := by
  intro text hlength haccepts
  obtain ⟨a, mid, hread, hrest⟩ := h hlength haccepts
  exact ⟨a, mid, by rwa [reads_named], hrest⟩

theorem captured (h : Takes p front stack limit) : Takes (Reader.captured p) front stack limit := by
  intro text hlength haccepts
  obtain ⟨a, mid, hread, hrest⟩ := h hlength haccepts
  exact ⟨_, mid, reads_captured_iff.2 ⟨hread, rfl⟩, hrest⟩

/-- Two readers with blanks between them; the text that is left to the second one may be known to be
shorter. -/
theorem bind {limit' : Nat} {f : α → Reader β} (hp : Takes p front (front' ++ stack) limit)
    (hlength : ∀ ⦃text mid a⦄, reads p text = some (a, mid) → text.length < limit →
      mid.length < limit')
    (hf : ∀ a, Takes (f a) front' stack limit') :
    Takes (do let a ← p; gap; f a) (front ++ front') stack limit := by
  intro text hlimit haccepts
  rw [List.append_assoc] at haccepts
  obtain ⟨a, mid, hread, hmid⟩ := hp hlimit haccepts
  have hle : (mid.dropWhile isGap).length ≤ mid.length := List.length_dropWhile_le isGap mid
  obtain ⟨b, rest, hread', hrest⟩ := hf a (hle.trans_lt (hlength hread hlimit)) hmid
  refine ⟨b, rest, reads_bind_iff.2 ⟨a, mid, hread, ?_⟩, hrest⟩
  rw [reads_gap_bind]
  exact hread'

/-- A reader that takes off no more than there is. -/
theorem bind_le {f : α → Reader β} (hp : Takes p front (front' ++ stack) limit)
    (hfollows : Follows p front) (hf : ∀ a, Takes (f a) front' stack limit) :
    Takes (do let a ← p; gap; f a) (front ++ front') stack limit :=
  hp.bind (fun _ _ _ hread hlimit => (hfollows.run hread).length_le.trans_lt hlimit) hf

/-- Behind a lexeme the text is shorter. -/
theorem bind_lt {t : Terminal} {f : α → Reader β}
    (hp : Takes p [.terminal t] (front' ++ stack) (limit + 1))
    (hfollows : Follows p [.terminal t]) (hf : ∀ a, Takes (f a) front' stack limit) :
    Takes (do let a ← p; gap; f a) (.terminal t :: front') stack (limit + 1) := by
  refine hp.bind (fun text mid a hread hlimit => ?_) hf
  have hlt := (hfollows.run hread).length_lt
  omega

/-- Something or nothing, if nothing can be read where it is left out. -/
theorem optional {r : Part} {production : List Expected}
    (hr : r.productions = [[], production]) (hp : Takes p production stack limit)
    (hnone : ∀ ⦃text⦄, Accepts stack text → reads p text = none) :
    Takes (optional p) [.part r] stack limit := by
  intro text hlimit haccepts
  rcases (accepts_either_iff hr).1 haccepts with haccepts | haccepts
  · have haccepts : Accepts stack text := haccepts
    refine ⟨none, text, by rw [reads_optional, hnone haccepts]; rfl, ?_⟩
    rwa [haccepts.dropWhile]
  · obtain ⟨a, mid, hread, hrest⟩ := hp hlimit haccepts
    exact ⟨some a, mid, by rw [reads_optional, hread]; rfl, hrest⟩

/-- As many items as there are, if no item can be read behind them. -/
theorem repeated {r : Part} {item : List Expected}
    (hr : r.productions = [[], item ++ [.part r]])
    (hp : Takes p item (.part r :: stack) limit)
    (hlt : ∀ ⦃text mid a⦄, reads p text = some (a, mid) → mid.length < text.length)
    (hnone : ∀ ⦃text⦄, Accepts stack text → reads p text = none) :
    Takes (Reader.repeated p) [.part r] stack limit := by
  have hrepeats : ∀ text, text.length < limit → Accepts (.part r :: stack) (text.dropWhile isGap) →
      ∃ as rest, Repeats p text as rest ∧ Accepts stack (rest.dropWhile isGap) := by
    intro text
    -- every item takes something off the text
    induction hn : text.length using Nat.strong_induction_on generalizing text with
    | _ n ih =>
      intro hlimit haccepts
      have hle : (text.dropWhile isGap).length ≤ text.length := List.length_dropWhile_le isGap text
      rcases (accepts_either_iff hr).1 haccepts with haccepts | haccepts
      · exact ⟨[], text, .stop (hnone haccepts), haccepts⟩
      · rw [List.append_assoc] at haccepts
        obtain ⟨a, mid, hread, hmid⟩ := hp (by omega) haccepts
        have hshorter := hlt hread
        obtain ⟨as, rest, hitems, hrest⟩ := ih mid.length (by omega) mid rfl (by omega) hmid
        exact ⟨a :: as, rest, .item hread (by omega) hitems, hrest⟩
  intro text hlimit haccepts
  have hblank : text.dropWhile isGap = text := haccepts.dropWhile
  obtain ⟨as, rest, hitems, hrest⟩ := hrepeats text hlimit (by rwa [hblank])
  exact ⟨as, rest, hitems.repeated hblank, hrest⟩

/-- A reader of a lexeme takes it. -/
theorem lexeme {t : Terminal} (h : ReadsOne p t) : Takes p [.terminal t] stack limit := by
  intro text _ haccepts
  obtain ⟨mid, hafter, hrest⟩ := accepts_terminal_iff.1 haccepts
  rw [h text] at hafter
  obtain ⟨⟨a, mid⟩, hread, rfl⟩ := Option.map_eq_some_iff.1 hafter
  exact ⟨a, mid, hread, hrest⟩

end Takes

/-! ## Where nothing is read -/

/-- A reader of a lexeme reads nothing where the lexeme cannot start. -/
theorem ReadsOne.reads_eq_none {t : Terminal} (h : ReadsOne p t)
    (htext : ∀ c ∈ text.head?, t.starts c = false) : reads p text = none := by
  have hafter := Terminal.after_eq_none htext
  rwa [h text, Option.map_eq_none_iff] at hafter

/-- The reader of phrases reads nothing where a phrase would stop. -/
def Refuses (inner : Reader Phrase) : Prop :=
  ∀ ⦃text⦄, (∀ c ∈ text.head?, isStop c = true) → reads inner text = none

/-- What a stop is not. -/
theorem of_isStop {c : Char} (h : isStop c = true) :
    isGap c = false ∧ (∀ t ∈ [Terminal.operator, .sign, .number, .name, .quoted, .mark .opening,
      .mark .openBracket, .mark .point], t.starts c = false) := by
  have hcases : c = ')' ∨ c = ']' ∨ c = ',' := by simpa [isStop, or_assoc] using h
  rcases hcases with rfl | rfl | rfl <;> decide

end SchoolMath.Surface
