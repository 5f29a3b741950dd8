import SchoolMath.Polynomial.Text
import SchoolMath.Proofs.Latex.Juxtaposition
import SchoolMath.Proofs.Polynomial.Shown

/-!
# `Polynomial.Text` — the texts of a polynomial read back

Both texts show the terms with a coefficient other than zero, the highest power first, with a sign in
front of the first and between any two (`joinTerms_toList`). The characters of `render` are the tokens
of such a sum with blanks around the signs; those of `latex` leave out the signs of products and have
braces around exponents. In both ways the tokens are spelled (`Spaced`), so the text is read as a tree
whose polynomial has just the terms that were shown.
-/

namespace SchoolMath.Polynomial

open Arithmetic Latex

/-! ## Characters -/

namespace Shown

/-- The minus in front of the first term. -/
def signChars (negative : Bool) : List Char := if negative then ['-'] else []

/-- A term behind another, with blanks around its sign. -/
def linkChars (body : Shown → List Char) (s : Shown) : List Char :=
  ' ' :: (if s.negative then '-' else '+') :: ' ' :: body s

/-- A sum of terms; without terms it is zero. -/
def sumChars (body : Shown → List Char) : List Shown → List Char
  | [] => ['0']
  | s :: ss => signChars s.negative ++ body s ++ ss.flatMap (linkChars body)

/-- A sum is spelled if each of its terms is. -/
theorem spaced_sumChars {implicit : Bool} {exponentTokens : Nat → List Token} {w : List Char}
    {body : Shown → List Char} {ss : List Shown}
    (h : ∀ s ∈ ss, Spaced implicit (bodyTokens exponentTokens w s) (body s)) :
    Spaced implicit (sumTokens exponentTokens w ss) (sumChars body ss) := by
  have hblank : ∀ {ts : List Token} {text : List Char}, Spaced implicit ts text →
      Spaced implicit ts (' ' :: text) := fun h => .blank rfl h
  have hsign : ∀ (negative : Bool) {ts : List Token} {text : List Char}, Spaced implicit ts text →
      Spaced implicit (.operator (if negative then .minus else .plus) :: ts)
        ((if negative then '-' else '+') :: text) := by
    intro negative ts text h
    cases negative with
    | false => exact .token (w := ['+']) (.symbol (by decide)) h
    | true => exact .token (w := ['-']) (.symbol (by decide)) h
  cases ss with
  | nil => exact .token (w := ['0']) (.number (by decide)) .done
  | cons s ss =>
    obtain ⟨hs, hss⟩ := List.forall_mem_cons.1 h
    have hlinks : Spaced implicit (ss.flatMap (linkTokens exponentTokens w))
        (ss.flatMap (linkChars body)) := by
      clear h
      induction ss with
      | nil => exact .done
      | cons s' ss ih =>
        obtain ⟨hs', hss⟩ := List.forall_mem_cons.1 hss
        exact (hblank (hsign s'.negative (hblank hs'))).append (ih hss)
    refine .append ?_ hlinks
    cases hnegative : s.negative with
    | false => simpa [sumTokens, sumChars, signTokens, signChars] using hs
    | true => exact hsign true hs

/-- Parentheses for braces are put in the terms. -/
theorem map_sumChars (body : Shown → List Char) (ss : List Shown) :
    (sumChars body ss).map parenthesis = sumChars (fun s => (body s).map parenthesis) ss := by
  have hsign : ∀ negative, (signChars negative).map parenthesis = signChars negative := by decide
  have hlink : ∀ s, (linkChars body s).map parenthesis =
      linkChars (fun s => (body s).map parenthesis) s := by
    intro s
    cases hnegative : s.negative <;> simp [linkChars, hnegative, parenthesis]
  cases ss with
  | nil => rfl
  | cons s ss => simp [sumChars, List.map_flatMap, hsign, hlink]

/-- A power of the name. -/
def powerChars (exponentChars : Nat → List Char) (w : List Char) (n : Nat) : List Char :=
  if n = 1 then w else w ++ exponentChars n

/-- A term without its sign. -/
def bodyChars (product : List Char) (exponentChars : Nat → List Char) (w : List Char) (s : Shown) :
    List Char :=
  if s.exponent = 0 then Decimal.digits s.magnitude
  else if s.magnitude = 1 then powerChars exponentChars w s.exponent
  else Decimal.digits s.magnitude ++ (product ++ powerChars exponentChars w s.exponent)

theorem bodyChars_ne_nil {product : List Char} {exponentChars : Nat → List Char} {w : List Char}
    (hw : IsWord w) (s : Shown) : bodyChars product exponentChars w s ≠ [] := by
  have hname : w ≠ [] := (Token.Spells.word hw).ne_nil
  have hdigits : Decimal.digits s.magnitude ≠ [] := (isNumber_decimalDigits _).ne_nil
  unfold bodyChars powerChars
  split_ifs <;> simp [hname, hdigits]

/-- A term is spelled, with the sign of the product or, where that may be missing, without it. -/
theorem spaced_bodyChars {implicit : Bool} {exponentTokens : Nat → List Token}
    {exponentChars : Nat → List Char} {product w : List Char} (hw : IsWord w)
    (hletter : ∃ c ∈ w.head?, c.isAlpha = true)
    (hproduct : product = ['*'] ∨ implicit = true ∧ product = [])
    (hexponent : ∀ n, Spaced implicit (.operator .power :: exponentTokens n) (exponentChars n))
    (s : Shown) :
    Spaced implicit (bodyTokens exponentTokens w s) (bodyChars product exponentChars w s) := by
  have hdigits : IsNumber (Decimal.digits s.magnitude) := isNumber_decimalDigits _
  -- a power is the name and what stands behind it
  obtain ⟨ts, text, htokens, hchars, hrest⟩ : ∃ ts text,
      powerTokens exponentTokens w s.exponent = .word w :: ts ∧
      powerChars exponentChars w s.exponent = w ++ text ∧ Spaced implicit ts text := by
    unfold powerTokens powerChars
    split
    · exact ⟨[], [], rfl, (List.append_nil w).symm, .done⟩
    · exact ⟨_, _, rfl, rfl, hexponent s.exponent⟩
  unfold bodyTokens bodyChars
  rw [htokens, hchars]
  split_ifs
  · exact .single (.number hdigits)
  · exact .token (.word hw) hrest
  · rcases hproduct with rfl | ⟨himplicit, rfl⟩
    · exact .token (.number hdigits) (.token (w := ['*']) (.symbol (by decide))
        (.token (.word hw) hrest))
    · exact .product himplicit hdigits hw hletter hrest

end Shown

/-! ## Texts -/

section Texts

variable {K : Type} [Zero K] [One K] [Add K] [Mul K] [Neg K] [BEq K] [LT K] [DecidableLT K]
  [NatCast K] [Numeral K] [Whole K]

omit [DecidableLT K] in
/-- The text of a term without its sign. -/
theorem termText_toList (h : ExactIntegers K) {s : Shown} (hs : s.InRange) {product : String}
    {power : Nat → String} {exponentChars : Nat → List Char} {w : List Char}
    (hpower : ∀ n, (power n).toList = Shown.powerChars exponentChars w n) :
    (termText product power s.exponent (s.magnitude : K)).toList =
      Shown.bodyChars product.toList exponentChars w s := by
  have hdisplay : (Numeral.display (s.magnitude : K)).toList = Decimal.digits s.magnitude := by
    rw [h.display_natCast _ hs.magnitude_lt, String.toList_ofList]
  have hone : ((s.magnitude : K) == 1) = true ↔ s.magnitude = 1 := by
    rw [h.beq_one s.magnitude hs.magnitude_lt, beq_iff_eq]
  unfold termText Shown.bodyChars
  simp only [hone]
  split_ifs
  · exact hdisplay
  · exact hpower s.exponent
  · rw [String.toList_append, String.toList_append, hdisplay, hpower, List.append_assoc]

/-- What the loop over the terms does with a term that is not left out. -/
def appendTerm (text : Nat → K → String) (out : String) (t : Nat × K) : String :=
  out ++ separator out.isEmpty (t.2 < 0) ++ text t.1 (if t.2 < 0 then -t.2 else t.2)

/-- The sign of a term is the one that is shown, and without it the magnitude is left. -/
theorem appendTerm_term (h : ExactIntegers K) {s : Shown} (hs : s.InRange)
    (text : Nat → K → String) (out : String) :
    appendTerm text out (s.term : Nat × K) =
      out ++ separator out.isEmpty s.negative ++ text s.exponent (s.magnitude : K) := by
  obtain ⟨n, negative, m⟩ := s
  cases negative with
  | false =>
    have hsign : ¬ (m : K) < 0 := h.not_natCast_neg m hs.magnitude_lt
    simp [appendTerm, Shown.term, signed, hsign]
  | true =>
    have hsign : -(m : K) < 0 := h.neg_natCast_neg m hs.magnitude_lt hs.pos
    simp [appendTerm, Shown.term, signed, hsign, h.neg_neg m hs.magnitude_lt]

/-- Terms behind others are appended with blanks around their signs. -/
theorem foldl_appendTerm (h : ExactIntegers K) {text : Nat → K → String}
    {body : Shown → List Char} {ss : List Shown} (hrange : ∀ s ∈ ss, s.InRange)
    (hbody : ∀ s ∈ ss, (text s.exponent (s.magnitude : K)).toList = body s) :
    ∀ {out : String}, out ≠ "" →
      ((ss.map Shown.term).foldl (appendTerm text) out).toList =
        out.toList ++ ss.flatMap (Shown.linkChars body) := by
  induction ss with
  | nil =>
    intro out _
    simp
  | cons s ss ih =>
    intro out hout
    obtain ⟨hs, hrange⟩ := List.forall_mem_cons.1 hrange
    obtain ⟨hfirst, hbody⟩ := List.forall_mem_cons.1 hbody
    have hlink : (appendTerm text out (s.term : Nat × K)).toList =
        out.toList ++ Shown.linkChars body s := by
      rw [appendTerm_term h hs, String.isEmpty_eq_false_iff.2 hout]
      cases hnegative : s.negative <;>
        simp [separator, Shown.linkChars, hnegative, hfirst, String.toList_append]
    have hne : appendTerm text out (s.term : Nat × K) ≠ "" := by
      intro hempty
      rw [hempty] at hlink
      simp [Shown.linkChars] at hlink
    rw [List.map_cons, List.foldl_cons, ih hrange hbody hne, hlink, List.flatMap_cons,
      List.append_assoc]

/-- The terms of a polynomial that are not zero. -/
def nonzero (p : Polynomial K) : List (Nat × K) := p.terms.filter fun t => !(t.2 == 0)

omit [One K] [Add K] [Mul K] [NatCast K] [Numeral K] [Whole K] in
/-- The loop appends the terms that are not zero, from the highest power down. -/
theorem joinTerms_eq (text : Nat → K → String) (p : Polynomial K) :
    joinTerms text p =
      if (p.nonzero.reverse.foldl (appendTerm text) "").isEmpty then "0"
      else p.nonzero.reverse.foldl (appendTerm text) "" := by
  have hloop : p.nonzero.reverse.foldl (appendTerm text) "" = p.terms.reverse.foldl
      (fun out t => if t.2 == 0 then out else appendTerm text out t) "" := by
    rw [nonzero, ← List.filter_reverse, List.foldl_filter]
    congr 1
    funext out t
    cases t.2 == 0 <;> rfl
  rw [hloop]
  rfl

/-- The text is that of the sum of the terms that are not zero. -/
theorem joinTerms_toList (h : ExactIntegers K) {text : Nat → K → String}
    {body : Shown → List Char} {ss : List Shown} (hrange : ∀ s ∈ ss, s.InRange)
    (hbody : ∀ s ∈ ss, (text s.exponent (s.magnitude : K)).toList = body s)
    (hne : ∀ s ∈ ss, body s ≠ []) {p : Polynomial K}
    (hterms : p.nonzero.reverse = ss.map Shown.term) :
    (joinTerms text p).toList = Shown.sumChars body ss := by
  have hempty : "".isEmpty = true := String.isEmpty_iff.2 rfl
  rw [joinTerms_eq, hterms]
  cases ss with
  | nil =>
    simp only [List.map_nil, List.foldl_nil, hempty, if_true]
    rfl
  | cons s ss =>
    obtain ⟨hs, hrange⟩ := List.forall_mem_cons.1 hrange
    obtain ⟨hfirst, hbody⟩ := List.forall_mem_cons.1 hbody
    have hstart : (appendTerm text "" (s.term : Nat × K)).toList =
        Shown.signChars s.negative ++ body s := by
      rw [appendTerm_term h hs, hempty]
      cases hnegative : s.negative <;>
        simp [separator, Shown.signChars, hfirst, String.toList_append]
    have hnonempty : appendTerm text "" (s.term : Nat × K) ≠ "" := by
      intro hnil
      rw [hnil] at hstart
      exact hne s List.mem_cons_self (List.append_eq_nil_iff.1 hstart.symm).2
    have hjoined : (((s :: ss).map Shown.term).foldl (appendTerm text) "").toList =
        Shown.sumChars body (s :: ss) := by
      rw [List.map_cons, List.foldl_cons, foldl_appendTerm h hrange hbody hnonempty, hstart]
      rfl
    have hfull : ((s :: ss).map Shown.term).foldl (appendTerm text) "" ≠ "" := by
      intro hnil
      rw [hnil] at hjoined
      simp [Shown.sumChars, hne s List.mem_cons_self] at hjoined
    simp only [String.isEmpty_eq_false_iff.2 hfull]
    exact hjoined

omit [One K] [Add K] [Mul K] [Neg K] [LT K] [DecidableLT K] [NatCast K] [Numeral K] [Whole K] in
theorem mem_nonzero {p : Polynomial K} {t : Nat × K} :
    t ∈ p.nonzero ↔ t ∈ p.terms ∧ (t.2 == 0) = false := by
  rw [nonzero, List.mem_filter, Bool.not_eq_true']

omit [DecidableLT K] in
/-- An integer coefficient that is not zero has a sign and a magnitude. -/
theorem exists_term_eq (h : ExactIntegers K) {t : Nat × K} (hexponent : t.1 ≤ exponentLimit)
    (hinteger : IsInteger t.2) (hnonzero : (t.2 == 0) = false) :
    ∃ s : Shown, s.InRange ∧ s.term = t := by
  obtain ⟨n, c⟩ := t
  obtain ⟨m, hm, rfl | rfl⟩ := hinteger
  · rw [h.beq_zero m hm, beq_eq_false_iff_ne] at hnonzero
    exact ⟨⟨n, false, m⟩, ⟨hexponent, Nat.pos_of_ne_zero hnonzero, hm⟩, rfl⟩
  · rw [h.neg_beq_zero m hm, beq_eq_false_iff_ne] at hnonzero
    exact ⟨⟨n, true, m⟩, ⟨hexponent, Nat.pos_of_ne_zero hnonzero, hm⟩, rfl⟩

omit [DecidableLT K] in
/-- The terms that a polynomial shows, from the highest power down. -/
theorem exists_shown (h : ExactIntegers K) {p : Polynomial K}
    (hexponents : ∀ t ∈ p.terms, t.1 ≤ exponentLimit) (hintegers : ∀ t ∈ p.terms, IsInteger t.2) :
    ∃ ss : List Shown, (∀ s ∈ ss, s.InRange) ∧
      ss.Pairwise (fun s s' => s'.exponent < s.exponent) ∧
      p.nonzero.reverse = ss.map Shown.term := by
  have hterm : ∀ t ∈ p.nonzero.reverse, ∃ s : Shown, s.InRange ∧ s.term = t := by
    intro t ht
    obtain ⟨hmem, hnonzero⟩ := mem_nonzero.1 (List.mem_reverse.1 ht)
    exact exists_term_eq h (hexponents t hmem) (hintegers t hmem) hnonzero
  obtain ⟨ss, hrange, hss⟩ : ∃ ss : List Shown, (∀ s ∈ ss, s.InRange) ∧
      ss.map Shown.term = p.nonzero.reverse := by
    choose f hrange hf using hterm
    refine ⟨p.nonzero.reverse.pmap f fun _ ht => ht, fun s hs => ?_, ?_⟩
    · obtain ⟨t, ht, rfl⟩ := List.mem_pmap.1 hs
      exact hrange t ht
    · rw [List.map_pmap]
      simp [hf]
  refine ⟨ss, hrange, ?_, hss.symm⟩
  have hdescending : p.nonzero.reverse.Pairwise fun t t' => t'.1 < t.1 :=
    List.pairwise_reverse.2 (p.ascending.sublist List.filter_sublist)
  rwa [← hss, List.pairwise_map] at hdescending

/-- What reading a text of a polynomial gives: the terms that are not zero, or a zero if there are
none. -/
def nonzeroOrZero (p : Polynomial K) : List (Nat × K) :=
  if p.nonzero.isEmpty then [(0, 0)] else p.nonzero

omit [One K] [Add K] [Mul K] [LT K] [DecidableLT K] [Numeral K] [Whole K] in
theorem sumTerms_eq {p : Polynomial K} {ss : List Shown}
    (h : p.nonzero.reverse = ss.map Shown.term) : Shown.sumTerms ss = p.nonzeroOrZero := by
  have hnonzero : p.nonzero = (ss.map Shown.term).reverse := by rw [← h, List.reverse_reverse]
  rw [Shown.sumTerms, nonzeroOrZero, hnonzero]
  simp

/-! ## Reading back -/

/-- An exponent behind two stars. -/
def starredChars (n : Nat) : List Char := '*' :: '*' :: Decimal.digits n

/-- An exponent in braces. -/
def bracedChars (n : Nat) : List Char := '^' :: '\x7b' :: (Decimal.digits n ++ ['\x7d'])

theorem toList_toString (n : Nat) : (toString n).toList = Decimal.digits n := by
  simp [Decimal.digits]

/-- The text of a polynomial whose terms are written by `termText`. -/
theorem joinTerms_termText_toList (h : ExactIntegers K) {product : String}
    {power : Nat → String} {exponentChars : Nat → List Char} {w : List Char} (hw : IsWord w)
    (hpower : ∀ n, (power n).toList = Shown.powerChars exponentChars w n) {p : Polynomial K}
    {ss : List Shown} (hrange : ∀ s ∈ ss, s.InRange)
    (hterms : p.nonzero.reverse = ss.map Shown.term) :
    (joinTerms (termText product power) p).toList =
      Shown.sumChars (Shown.bodyChars product.toList exponentChars w) ss :=
  joinTerms_toList h hrange (fun s hs => termText_toList h (hrange s hs) hpower)
    (fun s _ => Shown.bodyChars_ne_nil hw s) hterms

theorem render_toList (h : ExactIntegers K) {unknown : String}
    (hname : IsWord unknown.toList) {p : Polynomial K} {ss : List Shown}
    (hrange : ∀ s ∈ ss, s.InRange) (hterms : p.nonzero.reverse = ss.map Shown.term) :
    (p.render unknown).toList =
      Shown.sumChars (Shown.bodyChars ['*'] starredChars unknown.toList) ss := by
  refine joinTerms_termText_toList h hname (fun n => ?_) hrange hterms
  unfold Shown.powerChars
  split
  · rfl
  · simp only [String.toList_append, toList_toString, List.append_assoc]
    rfl

theorem latex_toList (h : ExactIntegers K) {unknown : String}
    (hname : IsWord unknown.toList) {p : Polynomial K} {ss : List Shown}
    (hrange : ∀ s ∈ ss, s.InRange) (hterms : p.nonzero.reverse = ss.map Shown.term) :
    (p.latex unknown).toList =
      Shown.sumChars (Shown.bodyChars [] bracedChars unknown.toList) ss := by
  refine joinTerms_termText_toList h hname (fun n => ?_) hrange hterms
  unfold Shown.powerChars
  split
  · rfl
  · simp only [String.toList_append, toList_toString, List.append_assoc]
    rfl

/-- The terms of `render` are spelled with the signs of products. -/
theorem spaced_starred {w : List Char} (hw : IsWord w) (hletter : ∃ c ∈ w.head?, c.isAlpha = true)
    (s : Shown) : Spaced false (Shown.bodyTokens plainExponent w s)
      (Shown.bodyChars ['*'] starredChars w s) := by
  refine Shown.spaced_bodyChars hw hletter (.inl rfl) (fun n => ?_) s
  have hdigits : Spaced false (plainExponent n) (Decimal.digits n) :=
    .single (.number (isNumber_decimalDigits n))
  exact .token (w := ['*', '*']) (.symbol (by decide)) hdigits

/-- Those of `latex` are spelled without them, once the braces are replaced. -/
theorem spaced_braced {w : List Char} (hw : IsWord w) (hletter : ∃ c ∈ w.head?, c.isAlpha = true)
    (s : Shown) : Spaced true (Shown.bodyTokens groupedExponent w s)
      ((Shown.bodyChars [] bracedChars w s).map parenthesis) := by
  have hdigits : ∀ n, (Decimal.digits n).map parenthesis = Decimal.digits n :=
    fun n => map_parenthesis_of_spells (.number (isNumber_decimalDigits n))
  have hname : w.map parenthesis = w := map_parenthesis_of_spells (.word hw)
  have hmap : ∀ n, (bracedChars n).map parenthesis =
      '^' :: '(' :: (Decimal.digits n ++ [')']) := by
    intro n
    rw [bracedChars, List.map_cons, List.map_cons, List.map_append, hdigits]
    rfl
  have hbody : (Shown.bodyChars [] bracedChars w s).map parenthesis =
      Shown.bodyChars [] (fun n => (bracedChars n).map parenthesis) w s := by
    unfold Shown.bodyChars Shown.powerChars
    split_ifs <;> simp [hdigits, hname]
  rw [hbody]
  refine Shown.spaced_bodyChars hw hletter (.inr ⟨rfl, rfl⟩) (fun n => ?_) s
  rw [hmap]
  exact .token (w := ['^']) (.symbol (by decide)) (.token (w := ['(']) (.symbol (by decide))
    (.token (.number (isNumber_decimalDigits n)) (.single (.symbol (by decide)))))

/-- A polynomial whose coefficients are exact integers is read back from both of its texts. -/
theorem read_texts_of_exactIntegers (h : ExactIntegers K) {p : Polynomial K}
    (hexponents : ∀ t ∈ p.terms, t.1 ≤ exponentLimit) (hintegers : ∀ t ∈ p.terms, IsInteger t.2)
    {unknown : String} (hname : IsIdentifier unknown.toList)
    (hletter : ∃ c ∈ unknown.toList.head?, c.isAlpha = true) :
    (∃ e : Expression K, Expression.read (p.render unknown) = .ok e ∧
      ∃ q : Polynomial K, ofTree unknown e.tree = .ok q ∧ q.terms = p.nonzeroOrZero) ∧
    ∃ e : Expression K, Problem.read (p.latex unknown) = .ok (.expression e) ∧
      ∃ q : Polynomial K, ofTree unknown e.tree = .ok q ∧ q.terms = p.nonzeroOrZero := by
  obtain ⟨ss, hrange, hdescending, hshown⟩ := exists_shown h hexponents hintegers
  obtain ⟨hw, hkeyword⟩ := hname
  constructor
  · have hspaced : Spaced false (Shown.sumTokens plainExponent unknown.toList ss)
        (p.render unknown).toList := by
      rw [render_toList h hw hrange hshown]
      exact Shown.spaced_sumChars fun s _ => spaced_starred hw hletter s
    obtain ⟨q, ⟨t, hderives, ht⟩, hterms⟩ :=
      means_sumTokens h (writesExponents_plain h) hkeyword hrange hdescending
    rw [String.ofList_toList] at ht
    exact ⟨_, hspaced.read hderives, q, ht, hterms.trans (sumTerms_eq hshown)⟩
  · have hspaced : Spaced true (Shown.sumTokens groupedExponent unknown.toList ss)
        ((p.latex unknown).toList.map parenthesis) := by
      rw [latex_toList h hw hrange hshown, Shown.map_sumChars]
      exact Shown.spaced_sumChars fun s _ => spaced_braced hw hletter s
    obtain ⟨q, ⟨t, hderives, ht⟩, hterms⟩ :=
      means_sumTokens h (writesExponents_grouped h) hkeyword hrange hdescending
    obtain ⟨e, hread, rfl⟩ := hspaced.problem hderives
    rw [String.ofList_toList] at ht
    exact ⟨e, hread, q, ht, hterms.trans (sumTerms_eq hshown)⟩

end Texts

/-- Both texts of a polynomial read back to it: whatever name stands for the variable, the tree of
either is a polynomial with just the terms that are not zero. -/
theorem read_texts {p : Polynomial Float} (hexponents : ∀ t ∈ p.terms, t.1 ≤ exponentLimit)
    (hintegers : ∀ t ∈ p.terms, IsInteger t.2) {unknown : String}
    (hname : IsIdentifier unknown.toList) (hletter : ∃ c ∈ unknown.toList.head?, c.isAlpha = true) :
    (∃ e : Expression Float, Expression.read (p.render unknown) = .ok e ∧
      ∃ q : Polynomial Float, ofTree unknown e.tree = .ok q ∧ q.terms = p.nonzeroOrZero) ∧
    ∃ e : Expression Float, Problem.read (p.latex unknown) = .ok (.expression e) ∧
      ∃ q : Polynomial Float, ofTree unknown e.tree = .ok q ∧ q.terms = p.nonzeroOrZero :=
  read_texts_of_exactIntegers exactIntegers_double hexponents hintegers hname hletter

/-- The polynomial `12x1^4 + x1 - 5`, with a term that cancelled. -/
def quartic : Polynomial Float where
  terms := [(0, -5), (1, 1), (3, 0), (4, 12)]
  ascending := by decide

theorem read_texts_quartic :
    (∃ e : Expression Float, Expression.read (quartic.render "x1") = .ok e ∧
      ∃ q : Polynomial Float, ofTree "x1" e.tree = .ok q ∧
        q.terms = [(0, -5), (1, 1), (4, 12)]) ∧
    ∃ e : Expression Float, Problem.read (quartic.latex "x1") = .ok (.expression e) ∧
      ∃ q : Polynomial Float, ofTree "x1" e.tree = .ok q ∧
        q.terms = [(0, -5), (1, 1), (4, 12)] := by
  have hexponents : ∀ t ∈ quartic.terms, t.1 ≤ exponentLimit := by
    simp [quartic, exponentLimit]
  have hintegers : ∀ t ∈ quartic.terms, IsInteger t.2 := by
    simp only [quartic, List.forall_mem_cons]
    exact ⟨⟨5, by decide, .inr rfl⟩, ⟨1, by decide, .inl rfl⟩, ⟨0, by decide, .inl rfl⟩,
      ⟨12, by decide, .inl rfl⟩, List.forall_mem_nil _⟩
  have hzeros : ((-5 : Float) == 0) = false ∧ ((1 : Float) == 0) = false ∧
      ((0 : Float) == 0) = true ∧ ((12 : Float) == 0) = false := by decide +kernel
  have hnonzero : nonzeroOrZero quartic = [(0, -5), (1, 1), (4, 12)] := by
    simp [nonzeroOrZero, nonzero, quartic, hzeros]
  rw [← hnonzero]
  exact read_texts hexponents hintegers (by decide) ⟨'x', rfl, by decide⟩

end SchoolMath.Polynomial
