import SchoolMath.Proofs.Latex.Notation

/-!
# `Latex.MatchingBracket` — where a bound in brackets ends

A bound in brackets ends with the first front of the text in which its kind of bracket is closed as
often as it is opened; if there is none, the whole text is reported (`splitBound?_bracketed`).
Brackets of other kinds do not count. The scan succeeds or fails with the same invariant: as long as
it goes on, no more brackets were closed than are open (`StaysOpen`).

A text is kept in UTF-8, and a program finds the bound in its bytes: it counts the bytes that it
passes and the brackets that are open, both without a sign, and cuts slices out of the text.
`boundInBytes` is that program, with the ways in which it might come to a stop as failures of their
own. None of them occurs, and what it finds is the bound (`boundInBytes_eq`).
-/

namespace SchoolMath.Latex

variable {opening closing : Char} {depth : Nat} {cs text front inner rest : List Char}

/-! ## The first even front -/

/-- In no front of the text are more brackets closed than are open, `depth` of them from before. -/
def StaysOpen (opening closing : Char) (depth : Nat) (text : List Char) : Prop :=
  ∀ front, front <+: text → front.count closing ≤ depth + front.count opening

/-- A nonempty front of the text, with as many closing as opening brackets. -/
structure IsEvenFront (opening closing : Char) (text front : List Char) : Prop where
  starts : front <+: text
  ne_nil : front ≠ []
  even : front.count opening = front.count closing

theorem staysOpen_nil : StaysOpen opening closing depth [] := by
  intro front hfront
  rw [List.prefix_nil.1 hfront]
  exact Nat.zero_le _

/-- A text stays open from its first character on. -/
theorem staysOpen_cons_iff {c : Char} : StaysOpen opening closing depth (c :: cs) ↔
    ∀ front, front <+: cs → (c :: front).count closing ≤ depth + (c :: front).count opening := by
  constructor
  · intro h front hfront
    exact h (c :: front) (List.cons_prefix_cons.2 ⟨rfl, hfront⟩)
  · intro h front hfront
    cases front with
    | nil => exact Nat.zero_le _
    | cons d front =>
      obtain ⟨rfl, hrest⟩ := List.cons_prefix_cons.1 hfront
      exact h front hrest

theorem staysOpen_opening (hne : closing ≠ opening) :
    StaysOpen opening closing depth (opening :: cs) ↔ StaysOpen opening closing (depth + 1) cs := by
  rw [staysOpen_cons_iff]
  simp only [List.count_cons_self, List.count_cons_of_ne hne.symm, StaysOpen, Nat.add_assoc,
    Nat.add_comm 1]

theorem staysOpen_closing (hne : closing ≠ opening) :
    StaysOpen opening closing (depth + 1) (closing :: cs) ↔ StaysOpen opening closing depth cs := by
  rw [staysOpen_cons_iff]
  simp only [List.count_cons_self, List.count_cons_of_ne hne, StaysOpen, Nat.add_right_comm depth 1,
    Nat.add_le_add_iff_right]

theorem not_staysOpen_closing (hne : closing ≠ opening) :
    ¬ StaysOpen opening closing 0 (closing :: cs) := by
  intro h
  have hfirst := staysOpen_cons_iff.1 h [] List.nil_prefix
  rw [List.count_cons_self, List.count_cons_of_ne hne, List.count_nil, List.count_nil] at hfirst
  exact absurd hfirst (by decide)

theorem staysOpen_other {c : Char} (hopening : c ≠ opening) (hclosing : c ≠ closing) :
    StaysOpen opening closing depth (c :: cs) ↔ StaysOpen opening closing depth cs := by
  rw [staysOpen_cons_iff]
  simp only [List.count_cons_of_ne hopening, List.count_cons_of_ne hclosing, StaysOpen]

/-- The scan for the closing bracket finds none where the text stays open. -/
theorem splitAtClosing_eq_none_iff (hne : closing ≠ opening) :
    splitAtClosing opening closing depth cs = none ↔ StaysOpen opening closing depth cs := by
  induction cs generalizing depth with
  | nil => exact iff_of_true rfl staysOpen_nil
  | cons c cs ih =>
    unfold splitAtClosing
    by_cases hopening : c = opening
    · rw [if_pos hopening, Option.map_eq_none_iff, ih, hopening, staysOpen_opening hne]
    · rw [if_neg hopening]
      by_cases hclosing : c = closing
      · rw [if_pos hclosing, hclosing]
        cases depth with
        | zero => exact iff_of_false (Option.some_ne_none _) (not_staysOpen_closing hne)
        | succ depth =>
          show Option.map _ _ = none ↔ _
          rw [Option.map_eq_none_iff, ih, staysOpen_closing hne]
      · rw [if_neg hclosing, Option.map_eq_none_iff, ih, staysOpen_other hopening hclosing]

/-- Up to the bracket that the scan finds the text stays open, and there all that was opened is
closed. -/
theorem of_splitAtClosing (hne : closing ≠ opening)
    (h : splitAtClosing opening closing depth cs = some (inner, rest)) :
    StaysOpen opening closing depth inner ∧
      depth + inner.count opening = inner.count closing := by
  induction cs generalizing depth inner with
  | nil => cases h
  | cons c cs ih =>
    have hstep : ∀ {depth'}, (splitAtClosing opening closing depth' cs).map
        (fun found => (c :: found.1, found.2)) = some (inner, rest) →
        ∃ inner', inner = c :: inner' ∧ StaysOpen opening closing depth' inner' ∧
          depth' + inner'.count opening = inner'.count closing := by
      intro depth' hmap
      obtain ⟨⟨inner', rest'⟩, hsplit, heq⟩ := Option.map_eq_some_iff.1 hmap
      obtain ⟨rfl, rfl⟩ := Prod.mk.inj heq
      exact ⟨inner', rfl, ih hsplit⟩
    unfold splitAtClosing at h
    by_cases hopening : c = opening
    · rw [if_pos hopening] at h
      obtain ⟨inner', rfl, hopen, hcount⟩ := hstep h
      subst hopening
      rw [staysOpen_opening hne, List.count_cons_self, List.count_cons_of_ne hne.symm]
      exact ⟨hopen, by omega⟩
    · rw [if_neg hopening] at h
      by_cases hclosing : c = closing
      · rw [if_pos hclosing] at h
        subst hclosing
        cases depth with
        | zero =>
          obtain ⟨rfl, rfl⟩ := Prod.mk.inj (Option.some.inj h)
          exact ⟨staysOpen_nil, rfl⟩
        | succ depth =>
          obtain ⟨inner', rfl, hopen, hcount⟩ := hstep h
          rw [staysOpen_closing hne, List.count_cons_self, List.count_cons_of_ne hne]
          exact ⟨hopen, by omega⟩
      · rw [if_neg hclosing] at h
        obtain ⟨inner', rfl, hopen, hcount⟩ := hstep h
        rw [staysOpen_other hopening hclosing, List.count_cons_of_ne hopening,
          List.count_cons_of_ne hclosing]
        exact ⟨hopen, hcount⟩

/-- The bound in brackets with them is an even front. -/
theorem isEvenFront_of_splitAtClosing (hne : closing ≠ opening)
    (h : splitAtClosing opening closing 0 cs = some (inner, rest)) :
    IsEvenFront opening closing (opening :: cs) (opening :: (inner ++ [closing])) where
  starts := by
    rw [eq_append_of_splitAtClosing h]
    exact ⟨rest, by simp⟩
  ne_nil := List.cons_ne_nil _ _
  even := by
    have hcount := (of_splitAtClosing hne h).2
    simp only [List.count_cons_self, List.count_cons_of_ne hne, List.count_cons_of_ne hne.symm,
      List.count_append, List.count_nil]
    omega

/-- There is no even front without the first bracket that closes what is open. -/
theorem not_staysOpen_of_isEvenFront (hne : closing ≠ opening)
    (h : IsEvenFront opening closing (opening :: cs) front) :
    ∃ tail, front = opening :: tail ∧ tail <+: cs ∧ ¬ StaysOpen opening closing 0 tail := by
  obtain ⟨c, tail, rfl⟩ := List.exists_cons_of_ne_nil h.ne_nil
  obtain ⟨rfl, htail⟩ := List.cons_prefix_cons.1 h.starts
  refine ⟨tail, rfl, htail, fun hopen => ?_⟩
  have hle := hopen tail List.prefix_rfl
  have heven := h.even
  rw [List.count_cons_self, List.count_cons_of_ne hne.symm] at heven
  omega

/-- No even front is shorter than the bound with its brackets. -/
theorem length_le_of_isEvenFront (hne : closing ≠ opening)
    (h : splitAtClosing opening closing 0 cs = some (inner, rest))
    (hfront : IsEvenFront opening closing (opening :: cs) front) :
    (opening :: (inner ++ [closing])).length ≤ front.length := by
  obtain ⟨tail, rfl, htail, hcloses⟩ := not_staysOpen_of_isEvenFront hne hfront
  obtain ⟨hopen, -⟩ := of_splitAtClosing hne h
  rw [eq_append_of_splitAtClosing h] at htail
  by_contra hshort
  have hlength : tail.length ≤ inner.length := by simpa using hshort
  have hinner : tail <+: inner :=
    List.prefix_of_prefix_length_le htail (List.prefix_append _ _) hlength
  exact hcloses fun f hf => hopen f (hf.trans hinner)

/-- A bound in brackets is found exactly where the text has an even front. -/
theorem exists_splitAtClosing_iff (hne : closing ≠ opening) :
    (∃ inner rest, splitAtClosing opening closing 0 cs = some (inner, rest)) ↔
      ∃ front, IsEvenFront opening closing (opening :: cs) front := by
  constructor
  · rintro ⟨inner, rest, h⟩
    exact ⟨_, isEvenFront_of_splitAtClosing hne h⟩
  · rintro ⟨front, hfront⟩
    obtain ⟨tail, -, htail, hcloses⟩ := not_staysOpen_of_isEvenFront hne hfront
    cases hsplit : splitAtClosing opening closing 0 cs with
    | some found => exact ⟨found.1, found.2, rfl⟩
    | none =>
      have hopen := (splitAtClosing_eq_none_iff hne).1 hsplit
      exact absurd (fun f hf => hopen f (hf.trans htail)) hcloses

/-! ## The scan over the bytes -/

/-- What would stop a program that looks for the bound in the bytes of a text. -/
inductive Fault where
  /-- A bracket is to be taken off a counter that is zero. -/
  | counterBelowZero
  /-- A slice is to be cut that ends outside the text or inside a character. -/
  | noSlice

/-- The bytes of a text from `first` up to `last`, which are to be boundaries of characters. -/
def byteSlice (text : String) (first last : Nat) : Except Fault String :=
  if h : first ≤ last ∧ (String.Pos.Raw.mk first).IsValid text ∧
      (String.Pos.Raw.mk last).IsValid text then
    .ok (text.extract (text.pos ⟨first⟩ h.2.1) (text.pos ⟨last⟩ h.2.2))
  else .error .noSlice

/-- A counter without a sign, counted down. -/
def countDown : Nat → Except Fault Nat
  | 0 => .error .counterBelowZero
  | count + 1 => .ok count

/-- The slices inside and behind the first brackets of a text that match each other. The characters
that are left start at byte `index`; `depth` brackets are open. -/
def scanBytes (text : String) (opening closing : Char) (index depth : Nat) :
    List Char → Except Fault (Option (String × String))
  | [] => .ok none
  | c :: cs =>
    if c = opening then scanBytes text opening closing (index + c.utf8Size) (depth + 1) cs
    else if c = closing then do
      let depth ← countDown depth
      if depth = 0 then
        let inner ← byteSlice text 1 index
        let rest ← byteSlice text (index + 1) text.utf8ByteSize
        return some (inner, rest)
      else scanBytes text opening closing (index + c.utf8Size) depth cs
    else scanBytes text opening closing (index + c.utf8Size) depth cs

/-- The bound at the front of a text and the text behind it, found in its bytes. -/
def boundInBytes (text : String) : Except Fault (Option (String × String)) :=
  match text.toList with
  | [] => .ok (some ("", ""))
  | c :: cs =>
    match closingBracket? c with
    | some closing => scanBytes text c closing 0 0 (c :: cs)
    | none => do
      let bound ← byteSlice text 0 c.utf8Size
      let rest ← byteSlice text c.utf8Size text.utf8ByteSize
      return some (bound, rest)

/-- Where one text ends and the next begins there is a boundary, and between two of them a slice. -/
theorem byteSlice_append (before slice behind : String) :
    byteSlice (before ++ (slice ++ behind)) before.utf8ByteSize
      (before.utf8ByteSize + slice.utf8ByteSize) = .ok slice := by
  have hfirst : (String.Pos.Raw.mk before.utf8ByteSize).IsValid (before ++ (slice ++ behind)) :=
    String.Pos.Raw.isValid_iff_exists_append.2 ⟨before, slice ++ behind, rfl, rfl⟩
  have hlast : (String.Pos.Raw.mk (before.utf8ByteSize + slice.utf8ByteSize)).IsValid
      (before ++ (slice ++ behind)) := by
    refine String.Pos.Raw.isValid_iff_exists_append.2
      ⟨before ++ slice, behind, String.append_assoc.symm, ?_⟩
    rw [String.Pos.Raw.ext_iff, String.byteIdx_rawEndPos, String.utf8ByteSize_append]
  unfold byteSlice
  rw [dif_pos ⟨Nat.le_add_right _ _, hfirst, hlast⟩]
  congr 1
  apply String.toByteArray_inj.1
  rw [String.toByteArray_extract, String.toByteArray_append, String.toByteArray_append]
  show ByteArray.extract _ before.toByteArray.size (before.toByteArray.size + slice.toByteArray.size) = _
  have hbytes := ByteArray.extract_append_size_add (a := before.toByteArray)
    (b := slice.toByteArray ++ behind.toByteArray) (i := 0) (j := slice.toByteArray.size)
  rw [Nat.add_zero] at hbytes
  rw [hbytes]
  exact ByteArray.extract_append_eq_left rfl

/-- The number of bytes that characters take up. -/
def byteCount (text : List Char) : Nat := (String.ofList text).utf8ByteSize

theorem byteCount_append (left right : List Char) :
    byteCount (left ++ right) = byteCount left + byteCount right := by
  rw [byteCount, String.ofList_append, String.utf8ByteSize_append]
  rfl

theorem byteCount_singleton (c : Char) : byteCount [c] = c.utf8Size := by
  rw [byteCount, ← String.singleton_eq_ofList, String.utf8ByteSize_singleton]

/-- A slice is cut where the bytes in front of its ends are counted. -/
theorem byteSlice_ofList {whole : List Char} {first last : Nat} (before slice behind : List Char)
    (hwhole : whole = before ++ (slice ++ behind)) (hfirst : first = byteCount before)
    (hlast : last = byteCount before + byteCount slice) :
    byteSlice (String.ofList whole) first last = .ok (String.ofList slice) := by
  subst hwhole hfirst hlast
  rw [String.ofList_append, String.ofList_append]
  exact byteSlice_append _ _ _

/-- From the first bracket on, the scan over the bytes finds what the scan over the characters
finds: the counter holds one bracket more than are open behind the first, and the index the bytes
passed. -/
theorem scanBytes_eq (hopening : opening.utf8Size = 1) (hclosing : closing.utf8Size = 1)
    (depth : Nat) (passed cs : List Char) :
    scanBytes (String.ofList (opening :: (passed ++ cs))) opening closing
        (byteCount (opening :: passed)) (depth + 1) cs =
      .ok ((splitAtClosing opening closing depth cs).map fun (inner, rest) =>
        (String.ofList (passed ++ inner), String.ofList rest)) := by
  induction cs generalizing passed depth with
  | nil => rfl
  | cons c cs ih =>
    -- the scan goes on behind the character
    have hnext : ∀ depth', scanBytes (String.ofList (opening :: (passed ++ c :: cs))) opening closing
        (byteCount (opening :: passed) + c.utf8Size) (depth' + 1) cs =
        .ok (((splitAtClosing opening closing depth' cs).map
          fun (inner, rest) => (c :: inner, rest)).map fun (inner, rest) =>
            (String.ofList (passed ++ inner), String.ofList rest)) := by
      intro depth'
      have hcount : byteCount (opening :: passed) + c.utf8Size =
          byteCount (opening :: (passed ++ [c])) := by
        rw [← byteCount_singleton c, ← byteCount_append, List.cons_append]
      have hrest := ih depth' (passed ++ [c])
      rw [List.append_assoc, List.singleton_append] at hrest
      rw [hcount, hrest, Option.map_map]
      congr 2
      funext found
      simp
    unfold scanBytes splitAtClosing
    by_cases hopens : c = opening
    · rw [if_pos hopens, if_pos hopens]
      exact hnext (depth + 1)
    · rw [if_neg hopens, if_neg hopens]
      by_cases hcloses : c = closing
      · rw [if_pos hcloses, if_pos hcloses]
        cases depth with
        | zero =>
          have hinner : byteSlice (String.ofList (opening :: (passed ++ c :: cs))) 1
              (byteCount (opening :: passed)) = .ok (String.ofList passed) := by
            apply byteSlice_ofList [opening] passed (c :: cs) rfl
            · rw [byteCount_singleton, hopening]
            · rw [← byteCount_append, List.singleton_append]
          have hbehind : byteSlice (String.ofList (opening :: (passed ++ c :: cs)))
              (byteCount (opening :: passed) + 1)
              (String.ofList (opening :: (passed ++ c :: cs))).utf8ByteSize =
                .ok (String.ofList cs) := by
            apply byteSlice_ofList (opening :: (passed ++ [c])) cs []
            · simp
            · rw [← List.cons_append, byteCount_append, byteCount_singleton, hcloses, hclosing]
            · rw [← byteCount_append]
              simp [byteCount]
          show (byteSlice _ 1 _ >>= fun inner => byteSlice _ _ _ >>= fun rest =>
            pure (some (inner, rest))) = .ok (some (String.ofList (passed ++ []), String.ofList cs))
          rw [hinner, hbehind, List.append_nil]
          rfl
        | succ depth => exact hnext depth
      · rw [if_neg hcloses, if_neg hcloses]
        exact hnext depth

/-- In no text does the scan over the bytes come to a stop, and what it finds is the bound. -/
theorem boundInBytes_eq (text : String) :
    boundInBytes text =
      .ok ((splitBound? text.toList).map (Prod.map String.ofList String.ofList)) := by
  unfold boundInBytes
  cases htext : text.toList with
  | nil => rfl
  | cons c cs =>
    obtain rfl : text = String.ofList (c :: cs) := by rw [← htext, String.ofList_toList]
    cases hkind : closingBracket? c with
    | some closing =>
      have hsizes : c.utf8Size = 1 ∧ closing.utf8Size = 1 := by
        rcases of_closingBracket? hkind with ⟨rfl, rfl⟩ | ⟨rfl, rfl⟩ | ⟨rfl, rfl⟩ <;> decide
      have hscan := scanBytes_eq hsizes.1 hsizes.2 0 [] cs
      rw [byteCount_singleton, List.nil_append] at hscan
      simp only [hkind, splitBound?]
      rw [scanBytes, if_pos rfl, Nat.zero_add, hscan]
      rfl
    | none =>
      have hbound : byteSlice (String.ofList (c :: cs)) 0 c.utf8Size = .ok (String.ofList [c]) := by
        apply byteSlice_ofList [] [c] cs rfl rfl
        rw [byteCount_singleton]
        exact (Nat.zero_add _).symm
      have hrest : byteSlice (String.ofList (c :: cs)) c.utf8Size
          (String.ofList (c :: cs)).utf8ByteSize = .ok (String.ofList cs) := by
        apply byteSlice_ofList [c] cs []
        · rw [List.append_nil, List.singleton_append]
        · rw [byteCount_singleton]
        · rw [← byteCount_append]
          rfl
      simp only [hkind, splitBound?]
      rw [hbound, ok_bind, hrest]
      rfl

/-! ## Bounds in brackets -/

/-- A bound in brackets is found exactly if the text has an even front, and then the bound with its
brackets is the shortest one; otherwise the whole text is reported. In no text does the scan over
the bytes come to a stop: no counter falls below zero, and all slices lie in the text and end
between characters. -/
theorem splitBound?_bracketed {K : Type} {opening closing : Char}
    (hkind : (opening, closing) ∈ bracketKinds) (cs : List Char) (mark : Char) :
    ((∃ inner rest, splitBound? (opening :: cs) = some (inner, rest)) ↔
      ∃ front, IsEvenFront opening closing (opening :: cs) front) ∧
    (∀ inner rest, splitBound? (opening :: cs) = some (inner, rest) →
      opening :: cs = opening :: (inner ++ closing :: rest) ∧
      IsEvenFront opening closing (opening :: cs) (opening :: (inner ++ [closing])) ∧
      ∀ front, IsEvenFront opening closing (opening :: cs) front →
        (opening :: (inner ++ [closing])).length ≤ front.length) ∧
    ((¬ ∃ front, IsEvenFront opening closing (opening :: cs) front) →
      markedBound (K := K) mark (mark :: opening :: cs) =
        .error (.unbalancedBound (String.ofList (opening :: cs)))) ∧
    ∀ text, boundInBytes text =
      .ok ((splitBound? text.toList).map (Prod.map String.ofList String.ofList)) := by
  obtain ⟨hcloses, hne⟩ := closingBracket?_of_mem hkind
  have hsplit : splitBound? (opening :: cs) = splitAtClosing opening closing 0 cs := by
    rw [splitBound?, hcloses]
  rw [hsplit]
  refine ⟨exists_splitAtClosing_iff hne, ?_, ?_, boundInBytes_eq⟩
  · intro inner rest h
    refine ⟨?_, isEvenFront_of_splitAtClosing hne h, fun _ => length_le_of_isEvenFront hne h⟩
    rw [← eq_append_of_splitAtClosing h]
  · intro hnone
    have hunbalanced : splitBound? (opening :: cs) = none := by
      rw [hsplit, Option.eq_none_iff_forall_ne_some]
      rintro ⟨inner, rest⟩ h
      exact hnone ((exists_splitAtClosing_iff hne).1 ⟨inner, rest, h⟩)
    rw [markedBound, if_pos rfl, hunbalanced]

/-- A bound with brackets inside ends where all of them are closed; a bracket of another kind does
not count. Without its last bracket the text is reported. -/
theorem splitBound?_bracketed_nested :
    ('(', ')') ∈ bracketKinds ∧
    splitBound? "((é])x)y".toList = some ("(é])x".toList, "y".toList) ∧
    (∀ front, IsEvenFront '(' ')' "((é])x)y".toList front → 7 ≤ front.length) ∧
    markedBound (K := Float) '^' "^((é])x".toList = .error (.unbalancedBound "((é])x") := by
  have hkind : ('(', ')') ∈ bracketKinds := by decide
  have hfound : splitBound? "((é])x)y".toList = some ("(é])x".toList, "y".toList) := by decide
  have hnone : ¬ ∃ front, IsEvenFront '(' ')' "((é])x".toList front := by
    have hfronts : ∀ front ∈ "((é])x".toList.inits, front ≠ [] →
        front.count '(' ≠ front.count ')' := by decide
    rintro ⟨front, hfront⟩
    exact hfronts front ((List.mem_inits _ _).2 hfront.starts) hfront.ne_nil hfront.even
  obtain ⟨-, hshortest, -, -⟩ := splitBound?_bracketed (K := Float) hkind "(é])x)y".toList '^'
  obtain ⟨-, -, hreported, -⟩ := splitBound?_bracketed (K := Float) hkind "(é])x".toList '^'
  exact ⟨hkind, hfound, (hshortest _ _ hfound).2.2, hreported hnone⟩

end SchoolMath.Latex
