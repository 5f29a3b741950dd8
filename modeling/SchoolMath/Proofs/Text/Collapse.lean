import SchoolMath.Proofs.Text.Edit

/-!
# `Text.Collapse` — collapsing blanks, character by character

`collapseBlanks` cuts the text into words and joins them with single spaces. Here it is read as one
pass over the characters: blanks in front are dropped, and behind the first character of a word the
rest of the text is written by `respace`, each run of blanks as one space if a word follows. Every
property is proved of both at once, by induction on the text.

A word of a collapsed text is a word of the text (`exists_of_collapseBlanks_eq_append`), a word of
the text is kept (`exists_collapseBlanks_append`), and collapsing again changes nothing
(`collapseBlanks_idem`).
-/

namespace SchoolMath.Text

variable {text word left right : List Char} {c : Char}

/-- A space in front of a text, unless that is empty. -/
def spaced : List Char → List Char
  | [] => []
  | c :: cs => ' ' :: c :: cs

/-- What is written of a text behind a character of a word: the rest of the word, and the words
behind it, each with a space in front. -/
def respace : List Char → List Char
  | [] => []
  | c :: cs => if isBlank c then spaced (collapseBlanks cs) else c :: respace cs

/-! ## The equations -/

theorem isBlank_space : isBlank ' ' = true := rfl

theorem spaced_of_ne_nil (h : text ≠ []) : spaced text = ' ' :: text := by
  cases text with
  | nil => exact absurd rfl h
  | cons c cs => rfl

theorem spaced_injective {other : List Char} (h : spaced text = spaced other) : text = other := by
  cases text with
  | nil => cases other with
    | nil => rfl
    | cons d ds => cases h
  | cons c cs => cases other with
    | nil => cases h
    | cons d ds => exact (List.cons.inj h).2

theorem respace_cons (h : isBlank c = false) (cs : List Char) :
    respace (c :: cs) = c :: respace cs := by
  rw [respace, if_neg (by simp [h])]

theorem respace_blank (h : isBlank c = true) (cs : List Char) :
    respace (c :: cs) = spaced (collapseBlanks cs) := by
  rw [respace, if_pos h]

/-- A space that is already there is written once. -/
theorem respace_spaced (text : List Char) :
    respace (spaced text) = spaced (collapseBlanks text) := by
  cases text with
  | nil => rfl
  | cons c cs => exact respace_blank isBlank_space (c :: cs)

/-- Blanks in front of the words are no part of them. -/
theorem words_blank (h : isBlank c = true) (cs : List Char) : words (c :: cs) = words cs := by
  rw [words.eq_def]
  exact if_pos h

/-- A blank ends the word. -/
theorem words_cons_blank {d : Char} (h : isBlank c = false) (hd : isBlank d = true)
    (ds : List Char) : words (c :: d :: ds) = [c] :: words ds := by
  have hblank := words_blank hd ds
  rw [words.eq_def]
  cases hwords : words ds with
  | nil => simp [h, hblank, hwords]
  | cons w ws => simp [h, hd, hblank, hwords]

/-- Without a blank the word goes on. -/
theorem words_cons_cons {d : Char} {ds : List Char} {ws : List (List Char)} (h : isBlank c = false)
    (hd : isBlank d = false) (hwords : words (d :: ds) = word :: ws) :
    words (c :: d :: ds) = (c :: word) :: ws := by
  rw [words.eq_def]
  simp [h, hd, hwords]

theorem ne_nil_of_mem_words (h : word ∈ words text) : word ≠ [] := by
  induction text generalizing word with
  | nil => cases h
  | cons c cs ih =>
    unfold words at h
    split at h
    · exact ih h
    · split at h
      · next d ds w ws hwords =>
        rw [hwords] at ih
        split at h
        · rcases List.mem_cons.1 h with rfl | h
          · exact List.cons_ne_nil c []
          · exact ih h
        · rcases List.mem_cons.1 h with rfl | h
          · exact List.cons_ne_nil c w
          · exact ih (List.mem_cons_of_mem w h)
      · rcases List.mem_cons.1 h with rfl | h
        · exact List.cons_ne_nil c []
        · exact ih h

/-- A text is collapsed to nothing only if it has no words. -/
theorem words_eq_nil (h : collapseBlanks text = []) : words text = [] := by
  unfold collapseBlanks at h
  cases hwords : words text with
  | nil => rfl
  | cons w ws =>
    have hmem : w ∈ words text := by
      rw [hwords]
      exact List.mem_cons_self
    have hw := ne_nil_of_mem_words hmem
    rw [hwords] at h
    cases ws with
    | nil => exact absurd (by simpa using h) hw
    | cons v vs => simp [List.intercalate_cons_cons] at h

/-- A blank in front is dropped. -/
theorem collapseBlanks_blank (h : isBlank c = true) (cs : List Char) :
    collapseBlanks (c :: cs) = collapseBlanks cs := by
  rw [collapseBlanks, words_blank h, collapseBlanks]

/-- The first character of a word is kept. -/
theorem collapseBlanks_cons (h : isBlank c = false) (cs : List Char) :
    collapseBlanks (c :: cs) = c :: respace cs := by
  induction cs generalizing c with
  | nil => simp [collapseBlanks, words, respace, h]
  | cons d ds ih =>
    by_cases hd : isBlank d = true
    · -- the word ends here
      rw [collapseBlanks, words_cons_blank h hd, respace_blank hd]
      by_cases hnil : collapseBlanks ds = []
      · rw [hnil, words_eq_nil hnil]
        rfl
      · rw [spaced_of_ne_nil hnil, collapseBlanks]
        cases hwords : words ds with
        | nil => exact absurd (by rw [collapseBlanks, hwords]; rfl) hnil
        | cons w ws =>
          rw [List.intercalate_cons_cons]
          rfl
    · -- the word goes on
      replace hd : isBlank d = false := by simpa using hd
      have hrest := ih hd
      rw [respace_cons hd, ← hrest]
      unfold collapseBlanks at hrest ⊢
      cases hwords : words (d :: ds) with
      | nil =>
        rw [hwords] at hrest
        cases hrest
      | cons w ws =>
        rw [words_cons_cons h hd hwords]
        cases ws with
        | nil => rw [List.intercalate_singleton, List.intercalate_singleton]
        | cons v vs =>
          rw [List.intercalate_cons_cons, List.intercalate_cons_cons]
          rfl

/-! ## Collapsing again -/

theorem collapse_idem (text : List Char) :
    collapseBlanks (collapseBlanks text) = collapseBlanks text ∧
      respace (respace text) = respace text := by
  induction text with
  | nil => exact ⟨rfl, rfl⟩
  | cons c cs ih =>
    by_cases hc : isBlank c = true
    · rw [collapseBlanks_blank hc, respace_blank hc, respace_spaced, ih.1]
      exact ⟨rfl, rfl⟩
    · replace hc : isBlank c = false := by simpa using hc
      rw [collapseBlanks_cons hc, respace_cons hc, collapseBlanks_cons hc, respace_cons hc, ih.2]
      exact ⟨rfl, rfl⟩

/-- A collapsed text is not changed by collapsing it. -/
theorem collapseBlanks_idem (text : List Char) :
    collapseBlanks (collapseBlanks text) = collapseBlanks text :=
  (collapse_idem text).1

/-! ## Characters and words of a collapsed text -/

theorem mem_of_mem_spaced (h : c ∈ spaced text) : c ∈ text ∨ c = ' ' := by
  cases text with
  | nil => exact .inl h
  | cons d ds => exact (List.mem_cons.1 h).symm

theorem mem_of_mem_collapse (text : List Char) :
    (c ∈ collapseBlanks text → c ∈ text ∨ c = ' ') ∧ (c ∈ respace text → c ∈ text ∨ c = ' ') := by
  induction text with
  | nil => exact ⟨fun h => .inl h, fun h => .inl h⟩
  | cons d ds ih =>
    by_cases hd : isBlank d = true
    · rw [collapseBlanks_blank hd, respace_blank hd]
      have hcollapse : c ∈ collapseBlanks ds → c ∈ d :: ds ∨ c = ' ' :=
        fun h => (ih.1 h).imp_left (List.mem_cons_of_mem d)
      exact ⟨hcollapse, fun h => (mem_of_mem_spaced h).elim hcollapse .inr⟩
    · replace hd : isBlank d = false := by simpa using hd
      have key : c ∈ d :: respace ds → c ∈ d :: ds ∨ c = ' ' := by
        intro h
        rcases List.mem_cons.1 h with rfl | h
        · exact .inl List.mem_cons_self
        · exact (ih.2 h).imp_left (List.mem_cons_of_mem d)
      rw [collapseBlanks_cons hd, respace_cons hd]
      exact ⟨key, key⟩

/-- Collapsing adds no character but the space. -/
theorem mem_of_mem_collapseBlanks (h : c ∈ collapseBlanks text) : c ∈ text ∨ c = ' ' :=
  (mem_of_mem_collapse text).1 h

theorem eq_space_of_mem_head?_spaced (h : c ∈ (spaced text).head?) : c = ' ' := by
  cases text with
  | nil => cases h
  | cons d ds => exact (Option.some.inj h).symm

/-- What is written as a blank is one. -/
theorem exists_of_respace_eq_blank (hc : isBlank c = true) (h : respace text = c :: right) :
    ∃ d ds, text = d :: ds ∧ isBlank d = true := by
  cases text with
  | nil => cases h
  | cons d ds =>
    refine ⟨d, ds, rfl, ?_⟩
    by_contra hd
    replace hd : isBlank d = false := by simpa using hd
    rw [respace_cons hd] at h
    obtain ⟨rfl, -⟩ := List.cons.inj h
    rw [hc] at hd
    cases hd

/-- A word at the front of what is written stands at the front of the text. -/
theorem exists_of_respace_eq_append (hword : ∀ d ∈ word, isBlank d = false)
    (h : respace text = word ++ right) : ∃ rest, text = word ++ rest ∧ respace rest = right := by
  induction word generalizing text with
  | nil => exact ⟨text, rfl, h⟩
  | cons d ds ih =>
    have hd := hword d List.mem_cons_self
    cases text with
    | nil => cases h
    | cons c cs =>
      by_cases hc : isBlank c = true
      · rw [respace_blank hc] at h
        have hmem : d ∈ (spaced (collapseBlanks cs)).head? := by rw [h]; rfl
        rw [eq_space_of_mem_head?_spaced hmem, isBlank_space] at hd
        cases hd
      · rw [respace_cons (by simpa using hc)] at h
        obtain ⟨rfl, hcs⟩ := List.cons.inj h
        obtain ⟨rest, rfl, hrest⟩ := ih (fun e he => hword e (List.mem_cons_of_mem _ he)) hcs
        exact ⟨rest, rfl, hrest⟩

theorem exists_of_collapse_eq_append_cons (text : List Char) (hc : isBlank c = false) :
    (∀ left, collapseBlanks text = left ++ c :: right →
        ∃ before after, text = before ++ c :: after ∧ respace after = right) ∧
      ∀ left, respace text = left ++ c :: right →
        ∃ before after, text = before ++ c :: after ∧ respace after = right := by
  induction text with
  | nil =>
    have hnone : ∀ left, [] ≠ left ++ c :: right := fun left h => by simp at h
    exact ⟨fun left h => absurd h (hnone left), fun left h => absurd h (hnone left)⟩
  | cons d ds ih =>
    have hlonger : (∃ before after, ds = before ++ c :: after ∧ respace after = right) →
        ∃ before after, d :: ds = before ++ c :: after ∧ respace after = right := by
      rintro ⟨before, after, rfl, hafter⟩
      exact ⟨d :: before, after, rfl, hafter⟩
    by_cases hd : isBlank d = true
    · rw [collapseBlanks_blank hd, respace_blank hd]
      refine ⟨fun left h => hlonger (ih.1 left h), ?_⟩
      intro left h
      have hne : collapseBlanks ds ≠ [] := by
        intro hnil
        rw [hnil] at h
        simp [spaced] at h
      rw [spaced_of_ne_nil hne] at h
      cases left with
      | nil =>
        obtain ⟨rfl, -⟩ := List.cons.inj h
        rw [isBlank_space] at hc
        cases hc
      | cons e es => exact hlonger (ih.1 es (List.cons.inj h).2)
    · replace hd : isBlank d = false := by simpa using hd
      have key : ∀ left, d :: respace ds = left ++ c :: right →
          ∃ before after, d :: ds = before ++ c :: after ∧ respace after = right := by
        intro left h
        cases left with
        | nil =>
          obtain ⟨rfl, hrest⟩ := List.cons.inj h
          exact ⟨[], ds, rfl, hrest⟩
        | cons e es => exact hlonger (ih.2 es (List.cons.inj h).2)
      rw [collapseBlanks_cons hd, respace_cons hd]
      exact ⟨key, key⟩

/-- Where a word stands in a collapsed text, it stands in the text, with the same behind it. -/
theorem exists_of_collapseBlanks_eq_append (hne : word ≠ []) (hword : ∀ d ∈ word, isBlank d = false)
    (h : collapseBlanks text = left ++ (word ++ right)) :
    ∃ before after, text = before ++ (word ++ after) ∧ respace after = right := by
  obtain ⟨c, cs, rfl⟩ := List.exists_cons_of_ne_nil hne
  obtain ⟨before, rest, rfl, hrest⟩ :=
    (exists_of_collapse_eq_append_cons text (hword c List.mem_cons_self)).1 left h
  obtain ⟨after, rfl, hafter⟩ :=
    exists_of_respace_eq_append (fun d hd => hword d (List.mem_cons_of_mem c hd)) hrest
  exact ⟨before, after, rfl, hafter⟩

/-- A word of a collapsed text is a word of the text. -/
theorem occurs_of_occurs_collapseBlanks (hne : word ≠ []) (hword : ∀ d ∈ word, isBlank d = false)
    (h : word <:+: collapseBlanks text) : word <:+: text := by
  obtain ⟨left, right, h⟩ := h
  rw [List.append_assoc] at h
  obtain ⟨before, after, rfl, -⟩ := exists_of_collapseBlanks_eq_append hne hword h.symm
  exact ⟨before, after, List.append_assoc _ _ _⟩

theorem respace_append (hword : ∀ d ∈ word, isBlank d = false) (text : List Char) :
    respace (word ++ text) = word ++ respace text := by
  induction word with
  | nil => rfl
  | cons d ds ih =>
    rw [List.cons_append, respace_cons (hword d List.mem_cons_self),
      ih fun e he => hword e (List.mem_cons_of_mem d he), List.cons_append]

theorem exists_collapse_append (hne : word ≠ []) (hword : ∀ d ∈ word, isBlank d = false)
    (left right : List Char) :
    (∃ before, collapseBlanks (left ++ (word ++ right)) = before ++ (word ++ respace right)) ∧
      ∃ before, respace (left ++ (word ++ right)) = before ++ (word ++ respace right) := by
  induction left with
  | nil =>
    refine ⟨⟨[], ?_⟩, ⟨[], respace_append hword right⟩⟩
    obtain ⟨c, cs, rfl⟩ := List.exists_cons_of_ne_nil hne
    show collapseBlanks (c :: (cs ++ right)) = c :: (cs ++ respace right)
    rw [collapseBlanks_cons (hword c List.mem_cons_self),
      respace_append fun d hd => hword d (List.mem_cons_of_mem c hd)]
  | cons d ds ih =>
    obtain ⟨⟨before, hbefore⟩, ⟨inside, hinside⟩⟩ := ih
    by_cases hd : isBlank d = true
    · rw [List.cons_append, collapseBlanks_blank hd, respace_blank hd, hbefore,
        spaced_of_ne_nil (by simp [hne])]
      exact ⟨⟨before, rfl⟩, ⟨' ' :: before, rfl⟩⟩
    · replace hd : isBlank d = false := by simpa using hd
      rw [List.cons_append, collapseBlanks_cons hd, respace_cons hd, hinside]
      exact ⟨⟨d :: inside, rfl⟩, ⟨d :: inside, rfl⟩⟩

/-- A word of the text is a word of the collapsed text. -/
theorem exists_collapseBlanks_append (hne : word ≠ []) (hword : ∀ d ∈ word, isBlank d = false)
    (left right : List Char) :
    ∃ before, collapseBlanks (left ++ (word ++ right)) = before ++ (word ++ respace right) :=
  (exists_collapse_append hne hword left right).1

/-! ## Texts that are collapsed alike -/

/-- The same text, with some characters exchanged that are no blanks. -/
def SameBlanks (text other : List Char) : Prop :=
  List.Forall₂ (fun c d => c = d ∨ isBlank c = false ∧ isBlank d = false) text other

theorem eq_of_collapse_eq {other : List Char} (h : SameBlanks text other) :
    (collapseBlanks text = collapseBlanks other → text = other) ∧
      (respace text = respace other → text = other) := by
  induction h with
  | nil => exact ⟨fun _ => rfl, fun _ => rfl⟩
  | @cons c d cs ds hfirst hrest ih =>
    by_cases hc : isBlank c = true
    · obtain rfl : c = d := hfirst.resolve_right fun hboth => by simp [hc] at hboth
      rw [collapseBlanks_blank hc, collapseBlanks_blank hc, respace_blank hc, respace_blank hc]
      have hcollapse : collapseBlanks cs = collapseBlanks ds → c :: cs = c :: ds :=
        fun heq => by rw [ih.1 heq]
      exact ⟨hcollapse, fun heq => hcollapse (spaced_injective heq)⟩
    · replace hc : isBlank c = false := by simpa using hc
      have hd : isBlank d = false := by
        rcases hfirst with rfl | hboth
        · exact hc
        · exact hboth.2
      have key : c :: respace cs = d :: respace ds → c :: cs = d :: ds := by
        intro heq
        obtain ⟨rfl, hcs⟩ := List.cons.inj heq
        rw [ih.2 hcs]
      rw [collapseBlanks_cons hc, collapseBlanks_cons hd, respace_cons hc, respace_cons hd]
      exact ⟨key, key⟩

end SchoolMath.Text
