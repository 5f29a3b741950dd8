import Mathlib
import SchoolMath.Latex.Problem

/-!
# `Latex.Bound` — scanning for a bracket or for a sign

The scanners for the end of a bound and for the sign of an equation go through a text from left to
right and keep a depth. What such a scanner finds in the front of a text it finds there whatever
follows; if it finds nothing it goes on behind, with another depth (`ScansPast`). Characters that are
neither brackets nor the sign are passed over.
-/

namespace SchoolMath.Latex

/-! ## Scanners with a state -/

section Scanner

variable {σ : Type} {split : σ → List Char → Option (List Char × List Char)} {s s' : σ} {c : Char}
  {cs : List Char}

/-- The scanner `split`, in the state `s`, splits every text that starts with `text` at one place in
`text`, or it goes on behind `text` in some state. -/
def ScansPast (split : σ → List Char → Option (List Char × List Char)) (s : σ) (text : List Char) :
    Prop :=
  (∃ front back, ∀ rest, split s (text ++ rest) = some (front, back ++ rest)) ∨
  ∃ s', ∀ rest, split s (text ++ rest) =
    (split s' rest).map fun (front, back) => (text ++ front, back)

theorem ScansPast.nil (split : σ → List Char → Option (List Char × List Char)) (s : σ) :
    ScansPast split s [] := .inr ⟨s, fun rest => by simp⟩

/-- The scanner splits the text at its first character. -/
theorem ScansPast.here (h : ∀ rest, split s (c :: rest) = some ([], rest)) :
    ScansPast split s (c :: cs) := .inl ⟨[], cs, fun rest => h (cs ++ rest)⟩

/-- The scanner passes over the first character. -/
theorem ScansPast.cons (h : ∀ rest, split s (c :: rest) =
      (split s' rest).map fun (front, back) => (c :: front, back))
    (hcs : ScansPast split s' cs) : ScansPast split s (c :: cs) := by
  rcases hcs with ⟨front, back, hfound⟩ | ⟨s'', hbehind⟩
  · refine .inl ⟨c :: front, back, fun rest => ?_⟩
    rw [List.cons_append, h, hfound]
    rfl
  · refine .inr ⟨s'', fun rest => ?_⟩
    rw [List.cons_append, h, hbehind, Option.map_map]
    rfl

/-- The scanner passes over `c`, and its state stays as it is. -/
def Passes (split : σ → List Char → Option (List Char × List Char)) (s : σ) (c : Char) : Prop :=
  ∀ rest, split s (c :: rest) = (split s rest).map fun (front, back) => (c :: front, back)

/-- A text of characters that are passed over is passed over. -/
theorem split_append_of_passes {text : List Char} (rest : List Char)
    (h : ∀ c ∈ text, Passes split s c) :
    split s (text ++ rest) = (split s rest).map fun (front, back) => (text ++ front, back) := by
  induction text with
  | nil => simp
  | cons c cs ih =>
    rw [List.cons_append, h c List.mem_cons_self, ih fun d hd => h d (List.mem_cons_of_mem _ hd),
      Option.map_map]
    rfl

end Scanner

/-! ## The closing bracket -/

section Closing

variable {opening closing : Char} {depth : Nat} {text : List Char}

/-- What is no bracket is passed over. -/
theorem passes_splitAtClosing {c : Char} (hopening : c ≠ opening) (hclosing : c ≠ closing) :
    Passes (splitAtClosing opening closing) depth c := by
  intro cs
  cases depth <;> simp [splitAtClosing, hopening, hclosing]

/-- The closing bracket is in the front of a text, or it is looked for behind it. -/
theorem scansPast_splitAtClosing (opening closing : Char) (depth : Nat) (text : List Char) :
    ScansPast (splitAtClosing opening closing) depth text := by
  induction text generalizing depth with
  | nil => exact .nil _ _
  | cons c cs ih =>
    by_cases hopening : c = opening
    · refine .cons (fun rest => ?_) (ih (depth + 1))
      cases depth <;> simp [splitAtClosing, hopening]
    · by_cases hclosing : c = closing
      · cases depth with
        | zero => exact .here fun rest => by rw [splitAtClosing, if_neg hopening, if_pos hclosing]
        | succ depth =>
          refine .cons (fun rest => ?_) (ih depth)
          rw [splitAtClosing, if_neg hopening, if_pos hclosing]
      · exact .cons (passes_splitAtClosing hopening hclosing) (ih depth)

/-- What is inside, the closing bracket and what is behind make up the text. -/
theorem eq_append_of_splitAtClosing {inner rest : List Char}
    (h : splitAtClosing opening closing depth text = some (inner, rest)) :
    text = inner ++ closing :: rest := by
  induction text generalizing depth inner with
  | nil => cases h
  | cons c cs ih =>
    have hstep : ∀ depth', (splitAtClosing opening closing depth' cs).map
        (fun (inner, rest) => (c :: inner, rest)) = some (inner, rest) →
        c :: cs = inner ++ closing :: rest := by
      intro depth' hmap
      obtain ⟨⟨inner', rest'⟩, hsplit, heq⟩ := Option.map_eq_some_iff.1 hmap
      obtain ⟨rfl, rfl⟩ := Prod.mk.inj heq
      rw [ih hsplit, List.cons_append]
    unfold splitAtClosing at h
    split at h
    · exact hstep _ h
    · split at h
      · next hclosing =>
        cases depth with
        | zero =>
          obtain ⟨rfl, rfl⟩ := Prod.mk.inj (Option.some.inj h)
          rw [hclosing, List.nil_append]
        | succ depth => exact hstep _ h
      · exact hstep _ h

/-- The brackets come in three kinds. -/
theorem of_closingBracket? {closing : Char} (h : closingBracket? opening = some closing) :
    (opening = '(' ∧ closing = ')') ∨ (opening = '\x7b' ∧ closing = '\x7d') ∨
      (opening = '[' ∧ closing = ']') := by
  unfold closingBracket? at h
  split at h <;> cases h <;> simp

end Closing

/-! ## Bounds -/

section Bounds

variable {K : Type} {mark : Char} {text rest : List Char} {bound : Option (List Char)}

/-- What stands behind a bound is an end of the text. -/
theorem suffix_of_splitBound? {inner : List Char} (h : splitBound? text = some (inner, rest)) :
    rest <:+ text := by
  cases text with
  | nil =>
    obtain ⟨rfl, rfl⟩ := Prod.mk.inj (Option.some.inj h)
    exact List.suffix_rfl
  | cons c cs =>
    refine List.IsSuffix.trans ?_ (List.suffix_cons c cs)
    simp only [splitBound?] at h
    split at h
    · rw [eq_append_of_splitAtClosing h]
      exact (List.suffix_cons _ _).trans (List.suffix_append _ _)
    · obtain ⟨-, rfl⟩ := Prod.mk.inj (Option.some.inj h)
      exact List.suffix_rfl

/-- What stands behind a marked bound is an end of the text. -/
theorem suffix_of_markedBound (h : markedBound (K := K) mark text = .ok (bound, rest)) :
    rest <:+ text := by
  cases text with
  | nil =>
    obtain ⟨rfl, rfl⟩ := Prod.mk.inj (Except.ok.inj h)
    exact List.suffix_rfl
  | cons c cs =>
    simp only [markedBound] at h
    split at h
    · split at h
      · next hsplit =>
        obtain ⟨rfl, rfl⟩ := Prod.mk.inj (Except.ok.inj h)
        exact (suffix_of_splitBound? hsplit).trans (List.suffix_cons c cs)
      · cases h
    · obtain ⟨rfl, rfl⟩ := Prod.mk.inj (Except.ok.inj h)
      exact List.suffix_rfl

end Bounds

/-! ## The sign of an equation -/

/-- What is neither a bracket nor the sign is passed over. -/
theorem passes_splitAtEquals {depth : Int} {c : Char} (hsign : c ≠ '=') (hdepth : depthChange c = 0) :
    Passes splitAtEquals depth c := by
  intro cs
  rw [splitAtEquals, if_neg fun hand => hsign hand.1, hdepth, add_zero]

/-- The sign is in the front of a text, or it is looked for behind it. -/
theorem scansPast_splitAtEquals (depth : Int) (text : List Char) :
    ScansPast splitAtEquals depth text := by
  induction text generalizing depth with
  | nil => exact .nil _ _
  | cons c cs ih =>
    by_cases hsign : c = '=' ∧ depth = 0
    · exact .here fun rest => by rw [splitAtEquals, if_pos hsign]
    · exact .cons (fun rest => by rw [splitAtEquals, if_neg hsign]) (ih _)

end SchoolMath.Latex
