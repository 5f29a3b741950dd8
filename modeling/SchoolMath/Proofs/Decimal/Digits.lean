import Mathlib
import SchoolMath.Decimal.Notation
import SchoolMath.Proofs.Number.Numeral

/-!
# `Decimal.Digits` — digit strings and their values

The value of a digit string is built from the left, so that of two strings one behind the other is
found from their values and the length of the second (`ofDigits_append`). Strings of one length are
determined by their values (`eq_of_ofDigits_eq`), and so are those without a superfluous zero in front
(`eq_of_ofDigits_eq_of_lead`). The digits of a number have no such zero (`hasLead_digits`), and
padding them keeps their value.
-/

namespace SchoolMath.Decimal

/-- A string of digits only. -/
def AreDigits (ds : List Char) : Prop := ∀ c ∈ ds, c.isDigit = true

/-- A digit string that is not empty and that starts with a zero only if it is the digit zero. -/
structure HasLead (ds : List Char) : Prop where
  areDigits : AreDigits ds
  ne_nil : ds ≠ []
  lead : ds.head? = some '0' → ds = ['0']

namespace AreDigits

variable {ds es : List Char}

theorem append (hd : AreDigits ds) (he : AreDigits es) : AreDigits (ds ++ es) :=
  List.forall_mem_append.2 ⟨hd, he⟩

theorem left (h : AreDigits (ds ++ es)) : AreDigits ds := (List.forall_mem_append.1 h).1

theorem zeros (k : Nat) : AreDigits (List.replicate k '0') := by
  intro c hc
  rw [List.eq_of_mem_replicate hc]
  rfl

end AreDigits

theorem areDigits_digits (n : Nat) : AreDigits (digits n) :=
  fun _ hc => Nat.isDigit_of_mem_toDigits (by decide) (by decide) hc

theorem areDigits_paddedDigits (width n : Nat) : AreDigits (paddedDigits width n) :=
  (AreDigits.zeros _).append (areDigits_digits n)

/-! ## Values -/

/-- The value of a digit. -/
theorem isDigit_value {c : Char} (h : c.isDigit = true) :
    c.toNat - '0'.toNat < 10 ∧ c.toNat = (c.toNat - '0'.toNat) + '0'.toNat := by
  rw [Char.isDigit_iff_toNat] at h
  have hzero : '0'.toNat = 48 := by decide
  have hnine : '9'.toNat = 57 := by decide
  omega

theorem ofDigits_append (ds es : List Char) :
    ofDigits (ds ++ es) = 10 ^ es.length * ofDigits ds + ofDigits es := by
  show Nat.ofDigitChars 10 (ds ++ es) 0 = _
  rw [Nat.ofDigitChars_append, Nat.ofDigitChars_eq_ofDigitChars_zero]
  rfl

theorem ofDigits_concat (ds : List Char) (c : Char) :
    ofDigits (ds ++ [c]) = 10 * ofDigits ds + (c.toNat - '0'.toNat) := by
  rw [ofDigits_append, List.length_singleton, Nat.pow_one]
  simp [ofDigits]

theorem ofDigits_zeros (k : Nat) : ofDigits (List.replicate k '0') = 0 :=
  (Nat.ofDigitChars_replicate_zero (b := 10) (n := k)).trans (Nat.mul_zero _)

theorem ofDigits_paddedDigits (width n : Nat) : ofDigits (paddedDigits width n) = n := by
  rw [paddedDigits, ofDigits_append, ofDigits_zeros, Nat.mul_zero, Nat.zero_add, ofDigits_digits]

theorem ofDigits_lt {ds : List Char} (h : AreDigits ds) : ofDigits ds < 10 ^ ds.length := by
  induction ds using List.reverseRecOn with
  | nil => exact Nat.one_pos
  | append_singleton ds c ih =>
    have hprefix := ih h.left
    have hdigit := isDigit_value (h c (by simp))
    rw [ofDigits_concat, List.length_append, List.length_singleton, Nat.pow_succ]
    omega

/-- Digit strings of one length are told apart by their values. -/
theorem eq_of_ofDigits_eq {ds es : List Char} (hd : AreDigits ds) (he : AreDigits es)
    (hlength : ds.length = es.length) (h : ofDigits ds = ofDigits es) : ds = es := by
  induction ds using List.reverseRecOn generalizing es with
  | nil => exact (List.length_eq_zero_iff.1 hlength.symm).symm
  | append_singleton ds c ih =>
    cases es using List.reverseRecOn with
    | nil => simp at hlength
    | append_singleton es c' =>
      obtain ⟨hc, hvalue⟩ := isDigit_value (hd c (by simp))
      obtain ⟨hc', hvalue'⟩ := isDigit_value (he c' (by simp))
      rw [ofDigits_concat, ofDigits_concat] at h
      have hprefix : ofDigits ds = ofDigits es := by omega
      have hlast : c = c' := Char.toNat_inj.1 (by omega)
      rw [ih hd.left he.left (by simpa using hlength) hprefix, hlast]

/-- Without a zero in front a digit string is as long as its value tells. -/
theorem pow_le_ofDigits {c : Char} {ds : List Char} (h : AreDigits (c :: ds)) (hc : c ≠ '0') :
    10 ^ ds.length ≤ ofDigits (c :: ds) := by
  have hvalue := (isDigit_value (h c (by simp))).2
  have hne : c.toNat ≠ '0'.toNat := fun heq => hc (Char.toNat_inj.1 heq)
  have hone : ofDigits [c] = c.toNat - '0'.toNat := by simp [ofDigits]
  have hpos : 1 ≤ ofDigits [c] := by omega
  have hsplit : c :: ds = [c] ++ ds := rfl
  rw [hsplit, ofDigits_append]
  exact (Nat.le_mul_of_pos_right _ hpos).trans (Nat.le_add_right _ _)

/-- A number other than zero has one digit string without a zero in front. -/
theorem length_le_of_ofDigits_eq {ds es : List Char} (hd : HasLead ds) (he : HasLead es)
    (h : ofDigits ds = ofDigits es) : ds.length ≤ es.length := by
  obtain ⟨c, cs, rfl⟩ := List.exists_cons_of_ne_nil hd.ne_nil
  by_cases hc : c = '0'
  · obtain rfl : cs = [] := by simpa [hc] using hd.lead (by rw [hc]; rfl)
    exact List.length_pos_iff.2 he.ne_nil
  · have hlow := pow_le_ofDigits hd.areDigits hc
    rw [h] at hlow
    exact (Nat.pow_lt_pow_iff_right (by decide)).1 (hlow.trans_lt (ofDigits_lt he.areDigits))

theorem eq_of_ofDigits_eq_of_lead {ds es : List Char} (hd : HasLead ds) (he : HasLead es)
    (h : ofDigits ds = ofDigits es) : ds = es :=
  eq_of_ofDigits_eq hd.areDigits he.areDigits
    (le_antisymm (length_le_of_ofDigits_eq hd he h) (length_le_of_ofDigits_eq he hd h.symm)) h

/-! ## The digits of a number -/

/-- The last digit is the remainder by ten. -/
theorem digits_of_ten_le {n : Nat} (h : 10 ≤ n) :
    digits n = digits (n / 10) ++ [(n % 10).digitChar] :=
  Nat.toDigits_of_base_le (by decide) h

theorem head?_digits_ne_zero {n : Nat} (h : 0 < n) : (digits n).head? ≠ some '0' := by
  induction n using Nat.strong_induction_on with
  | _ n ih =>
    by_cases hsmall : n < 10
    · have hone : digits n = [n.digitChar] := Nat.toDigits_of_lt_base hsmall
      rw [hone]
      interval_cases n <;> decide
    · have hten : 10 ≤ n := Nat.le_of_not_lt hsmall
      have hfront : (digits n).head? = (digits (n / 10)).head? := by
        rw [digits_of_ten_le hten]
        exact List.head?_append_of_ne_nil _ Nat.toDigits_ne_nil
      rw [hfront]
      exact ih (n / 10) (by omega) (by omega)

/-- The digits of a number have no superfluous zero in front. -/
theorem hasLead_digits (n : Nat) : HasLead (digits n) where
  areDigits := areDigits_digits n
  ne_nil := Nat.toDigits_ne_nil
  lead h := by
    by_cases hn : n = 0
    · rw [hn]
      rfl
    · exact absurd h (head?_digits_ne_zero (Nat.pos_of_ne_zero hn))

theorem length_paddedDigits {width n : Nat} (hwidth : 0 < width) (h : n < 10 ^ width) :
    (paddedDigits width n).length = width := by
  have hle : (digits n).length ≤ width := (Nat.length_toDigits_le_iff (by decide) hwidth).2 h
  rw [paddedDigits, List.length_append, List.length_replicate, Nat.sub_add_cancel hle]

theorem paddedDigits_zero {width : Nat} (hwidth : 0 < width) :
    paddedDigits width 0 = List.replicate width '0' := by
  apply eq_of_ofDigits_eq (areDigits_paddedDigits _ _) (AreDigits.zeros _)
  · rw [length_paddedDigits hwidth (Nat.pow_pos (by decide)), List.length_replicate]
  · rw [ofDigits_paddedDigits, ofDigits_zeros]

/-! ## Zeros at the end -/

/-- Only zeros are taken away at the end. -/
theorem exists_dropTrailingZeros (ds : List Char) :
    ∃ k, ds = dropTrailingZeros ds ++ List.replicate k '0' := by
  have hsplit : dropTrailingZeros ds ++ ds.rtakeWhile (· == '0') = ds :=
    List.rdropWhile_append_rtakeWhile
  have hzeros : ds.rtakeWhile (· == '0') =
      List.replicate (ds.rtakeWhile (· == '0')).length '0' :=
    List.eq_replicate_of_mem fun c hc => by simpa using List.mem_rtakeWhile_imp hc
  exact ⟨_, by rw [← hzeros, hsplit]⟩

/-- No zero is left at the end. -/
theorem getLast?_dropTrailingZeros (ds : List Char) :
    (dropTrailingZeros ds).getLast? ≠ some '0' := by
  intro h
  have hne : dropTrailingZeros ds ≠ [] := by
    rintro hnil
    rw [hnil] at h
    cases h
  have hlast : ¬ ((dropTrailingZeros ds).getLast hne == '0') = true :=
    List.rdropWhile_last_not (p := (· == '0')) ds hne
  rw [List.getLast?_eq_some_getLast hne, Option.some_inj] at h
  exact hlast (by rw [h]; rfl)

/-- Zeros behind a string that does not end in one. -/
theorem dropTrailingZeros_append_zeros {ds : List Char} (h : ds.getLast? ≠ some '0') (k : Nat) :
    dropTrailingZeros (ds ++ List.replicate k '0') = ds := by
  induction k with
  | zero =>
    rw [List.replicate_zero, List.append_nil]
    refine List.rdropWhile_eq_self_iff.2 fun hne hlast => h ?_
    rw [List.getLast?_eq_some_getLast hne, eq_of_beq hlast]
  | succ k ih =>
    rw [List.replicate_succ', ← List.append_assoc]
    exact (List.rdropWhile_concat_pos _ _ _ rfl).trans ih

end SchoolMath.Decimal
