import Mathlib.Algebra.Group.Int.Defs
import Mathlib.Data.List.TakeWhile
import ShellPreview.Json.Reader
/-!
# Numbers

A number is read up to the first character that cannot go on with it:
`readNumeral_append` puts any text behind a number that `Ends` it, and
`skipNumeral_of_read` says that passing over the number leads to the same
place. A whole number of 64 bits is read back from its decimal digits
(`readNumeral_wholeText`), and no other whole number is ever read
(`inRange_of_readNumeral`).
-/

namespace ShellPreview.Json

/-- A text with which no number goes on. -/
def Ends (rest : List Char) : Prop :=
  ∀ c ∈ rest.head?, c.isDigit = false ∧ c ≠ '.' ∧ c ≠ 'e' ∧ c ≠ 'E'

theorem ends_nil : Ends [] := by
  simp [Ends]

section Append

variable {cs r rest : List Char} {negative : Bool} {n : Numeral}

/-! ## Digits -/

theorem takeWhile_isDigit_of_ends (h : Ends rest) : rest.takeWhile Char.isDigit = [] := by
  cases rest with
  | nil => rfl
  | cons c cs => rw [List.takeWhile_cons_of_neg (by simp [(h c rfl).1])]

theorem dropWhile_isDigit_of_ends (h : Ends rest) : rest.dropWhile Char.isDigit = rest := by
  cases rest with
  | nil => rfl
  | cons c cs => rw [List.dropWhile_cons_of_neg (by simp [(h c rfl).1])]

theorem digits_append (h : Ends rest) (cs : List Char) :
    digits (cs ++ rest) = ((digits cs).1, (digits cs).2 ++ rest) := by
  induction cs with
  | nil => simp [digits, takeWhile_isDigit_of_ends h, dropWhile_isDigit_of_ends h]
  | cons c cs ih =>
    simp only [digits, Prod.mk.injEq] at ih
    by_cases hc : c.isDigit = true <;> simp [digits, hc, ih.1, ih.2]

theorem readExponentDigits_append (h : Ends rest) (e : Nat) (cs : List Char) :
    readExponentDigits e (cs ++ rest) =
      ((readExponentDigits e cs).1, (readExponentDigits e cs).2.1 ++ rest,
        (readExponentDigits e cs).2.2) := by
  induction cs generalizing e with
  | nil =>
    cases rest with
    | nil => rfl
    | cons c r => simp [readExponentDigits, (h c rfl).1]
  | cons c cs ih =>
    simp only [List.cons_append, readExponentDigits]
    split
    · split
      · exact ih _
      · rfl
    · rfl

/-! ## Behind the digits -/

theorem realOf_append {p : Int} {significand : Nat} (rest : List Char)
    (h : realOf negative significand p cs = .ok (n, r)) :
    realOf negative significand p (cs ++ rest) = .ok (n, r ++ rest) := by
  unfold realOf at h ⊢
  split at h <;> simp_all

/-- Whether an exponent is to be taken with a minus sign, and the text behind
the sign. -/
def exponentSign : List Char → Bool × List Char
  | '+' :: r => (false, r)
  | '-' :: r => (true, r)
  | r => (false, r)

/-- Reading an exponent behind its sign. -/
def readUnsignedExponent (negative : Bool) (significand : Nat) (start : Int) (down : Bool) :
    List Char → Reading Numeral
  | [] => .error (.here .eofValue [])
  | c :: r =>
    if c.isDigit then
      match readExponentDigits (digitValue c) r with
      | (e, r', true) =>
        realOf negative significand (clampExponent (if down then start - e else start + e)) r'
      | (_, r', false) =>
        if significand ≠ 0 && !down then .error (.here .numberRange r')
        else .ok (.real ⟨negative, .zero⟩, (digits r').2)
    else .error (.ahead .invalidNumber (c :: r))

theorem readExponent_eq (negative : Bool) (significand : Nat) (start : Int) (cs : List Char) :
    readExponent negative significand start cs =
      readUnsignedExponent negative significand start (exponentSign cs).1 (exponentSign cs).2 :=
  rfl

theorem exponentSign_append (c : Char) (cs rest : List Char) :
    exponentSign (c :: cs ++ rest) =
      ((exponentSign (c :: cs)).1, (exponentSign (c :: cs)).2 ++ rest) := by
  simp only [List.cons_append]
  unfold exponentSign
  split <;> simp_all

theorem readUnsignedExponent_append {start : Int} {significand : Nat} {down : Bool}
    (hrest : Ends rest) (h : readUnsignedExponent negative significand start down cs = .ok (n, r)) :
    readUnsignedExponent negative significand start down (cs ++ rest) = .ok (n, r ++ rest) := by
  cases cs with
  | nil => cases h
  | cons c cs =>
    simp only [readUnsignedExponent, List.cons_append, readExponentDigits_append hrest] at h ⊢
    split at h
    · next hc =>
      rw [if_pos hc]
      generalize readExponentDigits (digitValue c) cs = read at h ⊢
      obtain ⟨e, r', _ | _⟩ := read
      · simp only at h ⊢
        split at h
        · cases h
        · next hsmall =>
          simp only [Except.ok.injEq, Prod.mk.injEq] at h
          rw [if_neg hsmall, digits_append hrest, h.1, h.2]
      · exact realOf_append rest h
    · cases h

theorem readExponent_append {start : Int} {significand : Nat} (hrest : Ends rest)
    (h : readExponent negative significand start cs = .ok (n, r)) :
    readExponent negative significand start (cs ++ rest) = .ok (n, r ++ rest) := by
  cases cs with
  | nil => cases h
  | cons c cs =>
    rw [readExponent_eq] at h
    rw [readExponent_eq, exponentSign_append]
    exact readUnsignedExponent_append hrest h

/-- Reading an exponent if there is one, and else nothing more. -/
def readExponentIf (negative : Bool) (significand : Nat) (p : Int) : List Char → Reading Numeral
  | 'e' :: r => readExponent negative significand p r
  | 'E' :: r => readExponent negative significand p r
  | r => realOf negative significand p r

/-- With no point and no letter of an exponent in front, there is none in
front of what is appended. -/
theorem append_ne_cons {c : Char} (hrest : Ends rest) (hc : c = '.' ∨ c = 'e' ∨ c = 'E')
    (h : ∀ r, cs ≠ c :: r) : ∀ r, cs ++ rest ≠ c :: r := by
  intro r heq
  cases cs with
  | nil =>
    have hends := hrest c (by simp [show rest = c :: r from heq])
    rcases hc with rfl | rfl | rfl <;> simp at hends
  | cons d cs =>
    obtain ⟨rfl, -⟩ := List.cons.inj heq
    exact h cs rfl

theorem readExponentIf_append {p : Int} {significand : Nat} (hrest : Ends rest)
    (h : readExponentIf negative significand p cs = .ok (n, r)) :
    readExponentIf negative significand p (cs ++ rest) = .ok (n, r ++ rest) := by
  unfold readExponentIf at h
  split at h
  · exact readExponent_append hrest h
  · exact readExponent_append hrest h
  · next hlower hupper =>
    rw [readExponentIf.eq_3 _ _ _ _ (append_ne_cons hrest (by simp) hlower)
      (append_ne_cons hrest (by simp) hupper), realOf_append rest h]

theorem readFraction_append {start : Int} {significand : Nat} (hrest : Ends rest)
    (h : readFraction negative significand start cs = .ok (n, r)) :
    readFraction negative significand start (cs ++ rest) = .ok (n, r ++ rest) := by
  simp only [readFraction, digits_append hrest] at h ⊢
  split at h
  · split at h <;> cases h
  · next hds =>
    rw [if_neg hds]
    exact readExponentIf_append hrest h

theorem finishNumeral_append {significand left : Nat} (hrest : Ends rest)
    (h : finishNumeral negative significand left cs = .ok (n, r)) :
    finishNumeral negative significand left (cs ++ rest) = .ok (n, r ++ rest) := by
  unfold finishNumeral at h
  split at h
  · exact readFraction_append hrest h
  · exact readExponent_append hrest h
  · exact readExponent_append hrest h
  · next hpoint hlower hupper =>
    rw [finishNumeral.eq_4 _ _ _ _ (append_ne_cons hrest (by simp) hpoint)
      (append_ne_cons hrest (by simp) hlower) (append_ne_cons hrest (by simp) hupper)]
    split at h
    · next hleft =>
      cases h
      rw [if_pos hleft]
    · next hleft => rw [if_neg hleft, realOf_append rest h]

theorem readMagnitude_append (hrest : Ends rest) (h : readMagnitude negative cs = .ok (n, r)) :
    readMagnitude negative (cs ++ rest) = .ok (n, r ++ rest) := by
  cases cs with
  | nil => cases h
  | cons c cs =>
    simp only [readMagnitude, List.cons_append] at h ⊢
    split at h
    · next hzero =>
      rw [if_pos hzero]
      cases cs with
      | nil =>
        -- behind a zero there may be no digit, and none is appended
        have hnext := finishNumeral_append hrest h
        cases rest with
        | nil => exact hnext
        | cons d rest => simpa [(hrest d rfl).1] using hnext
      | cons d cs =>
        simp only [List.cons_append] at h ⊢
        split at h
        · cases h
        · next hd =>
          rw [if_neg hd]
          exact finishNumeral_append hrest h
    · next hzero =>
      rw [if_neg hzero]
      split at h
      · next hc =>
        rw [if_pos hc, digits_append hrest]
        exact finishNumeral_append hrest h
      · cases h

/-- **A number is read in the same way with anything behind it that ends
it.** -/
theorem readNumeral_append (hrest : Ends rest) (h : readNumeral cs = .ok (n, r)) :
    readNumeral (cs ++ rest) = .ok (n, r ++ rest) := by
  unfold readNumeral at h
  split at h
  · exact readMagnitude_append hrest h
  · next hminus =>
    cases cs with
    | nil => cases h
    | cons c cs =>
      rw [readNumeral.eq_2]
      · exact readMagnitude_append hrest h
      · intro r' hr
        obtain ⟨rfl, -⟩ := List.cons.inj hr
        exact hminus cs rfl

end Append

/-! ## Passing over -/

section Skip

variable {cs r : List Char} {negative : Bool} {n : Numeral}

/-- The digits of an exponent are read to their end, or up to one behind
which the others are passed over. -/
theorem digits_readExponentDigits (e : Nat) (cs : List Char) :
    (digits (readExponentDigits e cs).2.1).2 = (digits cs).2 ∧
      ((readExponentDigits e cs).2.2 = true → (readExponentDigits e cs).2.1 = (digits cs).2) := by
  induction cs generalizing e with
  | nil => exact ⟨rfl, fun _ => rfl⟩
  | cons c cs ih =>
    by_cases hc : c.isDigit = true
    · have hdigits : (digits (c :: cs)).2 = (digits cs).2 := List.dropWhile_cons_of_pos hc
      rw [hdigits, readExponentDigits, if_pos hc]
      dsimp only
      split
      · exact ih _
      · exact ⟨rfl, nofun⟩
    · have hdigits : (digits (c :: cs)).2 = c :: cs := List.dropWhile_cons_of_neg hc
      rw [readExponentDigits, if_neg hc]
      exact ⟨rfl, fun _ => hdigits.symm⟩

theorem rest_realOf {p : Int} {significand : Nat}
    (h : realOf negative significand p cs = .ok (n, r)) : r = cs := by
  unfold realOf at h
  split at h
  · cases h
  · cases h
    rfl

/-- Passing over an exponent behind its sign. -/
def skipUnsignedExponent : List Char → Except Stop (List Char)
  | [] => .error (.here .invalidNumber [])
  | c :: r => if c.isDigit then .ok (digits r).2 else .error (.ahead .invalidNumber (c :: r))

theorem skipExponent_eq (cs : List Char) :
    skipExponent cs = skipUnsignedExponent (exponentSign cs).2 := by
  unfold skipExponent
  split
  · rfl
  · rfl
  · next hplus hminus =>
    rw [exponentSign.eq_3 _ hplus hminus]
    rfl

theorem skipExponent_of_read {start : Int} {significand : Nat}
    (h : readExponent negative significand start cs = .ok (n, r)) : skipExponent cs = .ok r := by
  rw [readExponent_eq] at h
  rw [skipExponent_eq]
  generalize (exponentSign cs).2 = cs at h ⊢
  cases cs with
  | nil => cases h
  | cons c cs =>
    obtain ⟨hbehind, hend⟩ := digits_readExponentDigits (digitValue c) cs
    simp only [readUnsignedExponent, skipUnsignedExponent] at h ⊢
    split at h
    · next hc =>
      rw [if_pos hc]
      generalize readExponentDigits (digitValue c) cs = read at h hbehind hend
      obtain ⟨e, r', _ | _⟩ := read
      · -- the exponent is too large, and its other digits are passed over
        simp only at h hbehind
        split at h
        · cases h
        · cases h
          rw [hbehind]
      · rw [rest_realOf h, ← hend rfl]
    · cases h

/-- Passing over an exponent if there is one. -/
def skipExponentIf : List Char → Except Stop (List Char)
  | 'e' :: r => skipExponent r
  | 'E' :: r => skipExponent r
  | r => .ok r

theorem skipExponentIf_of_read {p : Int} {significand : Nat}
    (h : readExponentIf negative significand p cs = .ok (n, r)) : skipExponentIf cs = .ok r := by
  unfold readExponentIf at h
  split at h
  · exact skipExponent_of_read h
  · exact skipExponent_of_read h
  · next hlower hupper => rw [skipExponentIf.eq_3 _ hlower hupper, rest_realOf h]

theorem skipNumeralTail_of_finish {significand left : Nat}
    (h : finishNumeral negative significand left cs = .ok (n, r)) :
    skipNumeralTail cs = .ok r := by
  unfold finishNumeral at h
  split at h
  · next point behind =>
    simp only [readFraction] at h
    simp only [skipNumeralTail]
    split at h
    · split at h <;> cases h
    · next hds =>
      rw [if_neg hds]
      exact skipExponentIf_of_read h
  · exact skipExponent_of_read h
  · exact skipExponent_of_read h
  · next hpoint hlower hupper =>
    rw [skipNumeralTail.eq_4 _ hpoint hlower hupper]
    split at h
    · cases h
      rfl
    · rw [rest_realOf h]

theorem skipMagnitude_of_read (h : readMagnitude negative cs = .ok (n, r)) :
    skipMagnitude cs = .ok r := by
  cases cs with
  | nil => cases h
  | cons c cs =>
    simp only [readMagnitude, skipMagnitude] at h ⊢
    split at h
    · next hzero =>
      rw [if_pos hzero]
      cases cs with
      | nil => exact skipNumeralTail_of_finish h
      | cons d cs =>
        simp only at h ⊢
        split at h
        · cases h
        · next hd =>
          rw [if_neg hd]
          exact skipNumeralTail_of_finish h
    · next hzero =>
      rw [if_neg hzero]
      split at h
      · next hc =>
        rw [if_pos hc]
        exact skipNumeralTail_of_finish h
      · cases h

/-- **Passing over a number leads behind it.** -/
theorem skipNumeral_of_read (h : readNumeral cs = .ok (n, r)) : skipNumeral cs = .ok r := by
  unfold readNumeral at h
  split at h
  · exact skipMagnitude_of_read h
  · next hminus =>
    rw [skipNumeral.eq_2 _ hminus]
    exact skipMagnitude_of_read h

end Skip

/-! ## Whole numbers -/

theorem le_ofDigitChars (s : Nat) (cs : List Char) : s ≤ Nat.ofDigitChars 10 cs s := by
  induction cs generalizing s with
  | nil => simp
  | cons c cs ih =>
    rw [Nat.ofDigitChars_cons]
    have hnext := ih (10 * s + (c.toNat - '0'.toNat))
    omega

/-- Digits are appended as long as the number keeps to 64 bits. -/
theorem absorb_eq_of_le {s : Nat} {cs : List Char} (h : Nat.ofDigitChars 10 cs s ≤ maxWhole) :
    absorb s cs = (Nat.ofDigitChars 10 cs s, 0) := by
  induction cs generalizing s with
  | nil => simp [absorb]
  | cons c cs ih =>
    rw [Nat.ofDigitChars_cons] at h ⊢
    have hnext : 10 * s + digitValue c ≤ maxWhole := Nat.le_trans (le_ofDigitChars _ cs) h
    rw [absorb, if_pos hnext]
    exact ih h

theorem absorb_le {s : Nat} (h : s ≤ maxWhole) (cs : List Char) : (absorb s cs).1 ≤ maxWhole := by
  induction cs generalizing s with
  | nil => exact h
  | cons c cs ih =>
    rw [absorb]
    split
    · next hnext => exact ih hnext
    · exact h

/-- The digits of a number begin with a digit that is not zero, if the number
is not. -/
theorem toDigits_eq_cons {k : Nat} (h : 0 < k) :
    ∃ c ds, Nat.toDigits 10 k = c :: ds ∧ c ≠ '0' := by
  induction k using Nat.strongRecOn with
  | _ k ih =>
    by_cases hk : k < 10
    · exact ⟨k.digitChar, [], Nat.toDigits_of_lt_base hk, by simp; omega⟩
    · obtain ⟨c, ds, hds, hc⟩ := ih (k / 10) (by omega) (by omega)
      exact ⟨c, ds ++ [(k % 10).digitChar],
        by rw [Nat.toDigits_of_base_le (by decide) (by omega), hds, List.cons_append], hc⟩

theorem readMagnitude_toDigits (negative : Bool) {k : Nat} (h : k ≤ maxWhole) :
    readMagnitude negative (Nat.toDigits 10 k) = .ok (wholeOf negative k, []) := by
  by_cases hk : k = 0
  · subst hk
    rfl
  · obtain ⟨c, ds, hds, hc⟩ := toDigits_eq_cons (Nat.pos_of_ne_zero hk)
    have hall : ∀ d ∈ c :: ds, d.isDigit = true := fun d hd =>
      Nat.isDigit_of_mem_toDigits (by decide) (by decide) (hds ▸ hd)
    have hdigits : digits ds = (ds, []) := by
      have hmem : ∀ d ∈ ds, d.isDigit = true := fun d hd => hall d (List.mem_cons_of_mem _ hd)
      simp [digits, List.takeWhile_eq_self_iff.mpr hmem, List.dropWhile_eq_nil_iff.mpr hmem]
    have hvalue : Nat.ofDigitChars 10 ds (digitValue c) = k := by
      rw [← Nat.ofDigitChars_ten_toDigits (n := k), hds, Nat.ofDigitChars_cons]
      simp [digitValue]
    have habsorb := absorb_eq_of_le (hvalue.symm ▸ h)
    simp only [hds, readMagnitude, if_neg hc, if_pos (hall c List.mem_cons_self), hdigits, habsorb,
      hvalue]
    rfl

/-- The whole numbers of 64 bits, with or without a sign. -/
def Numeral.InRange : Numeral → Prop
  | .whole i => -2 ^ 63 ≤ i ∧ i ≤ maxWhole
  | .real _ => True

/-- **A whole number of 64 bits is read back from its digits.** -/
theorem readNumeral_wholeText {i : Int} (h : (Numeral.whole i).InRange) :
    readNumeral (wholeText i) = .ok (.whole i, []) := by
  obtain ⟨hleast, hmost⟩ := h
  have hsize : UInt64.size = 2 ^ 64 := rfl
  unfold wholeText
  split
  · next hneg =>
    have hk : i.natAbs ≤ maxWhole := by simp only [maxWhole]; omega
    have hwhole : wholeOf true i.natAbs = .whole i := by
      rw [wholeOf, if_pos rfl, if_neg (by omega)]
      congr 1
      omega
    simp only [readNumeral, readMagnitude_toDigits true hk, hwhole]
  · next hpos =>
    have hk : i.natAbs ≤ maxWhole := by omega
    have hwhole : wholeOf false i.natAbs = .whole i := by
      rw [wholeOf, if_neg (by decide)]
      congr 1
      omega
    rw [readNumeral.eq_2, readMagnitude_toDigits false hk, hwhole]
    intro r hr
    have hminus := Nat.isDigit_of_mem_toDigits (b := 10) (n := i.natAbs) (c := '-') (by decide)
      (by decide) (by simp [hr])
    exact absurd hminus (by decide)

/-- The number is read from its own digits. -/
def Numeral.ReadsBack (n : Numeral) : Prop :=
  readNumeral n.chars = .ok (n, [])

theorem Numeral.readsBack_whole {i : Int} (h : (Numeral.whole i).InRange) :
    (Numeral.whole i).ReadsBack :=
  readNumeral_wholeText h

theorem Numeral.readsBack_nat {n : Nat} (h : n ≤ maxWhole) : (Numeral.whole n).ReadsBack :=
  readsBack_whole ⟨by omega, by omega⟩

/-- If the number is none of the whole numbers of 64 bits, it is read from
its own digits. -/
def Numeral.RealReadsBack : Numeral → Prop
  | .whole _ => True
  | .real x => (Numeral.real x).ReadsBack

theorem Numeral.readsBack_of_inRange {n : Numeral} (h : n.InRange) (hreal : n.RealReadsBack) :
    n.ReadsBack := by
  cases n with
  | whole i => exact readsBack_whole h
  | real x => exact hreal

/-! ## What is read is in range -/

section InRange

variable {cs r : List Char} {negative : Bool} {n : Numeral}

theorem inRange_of_realOf {p : Int} {significand : Nat}
    (h : realOf negative significand p cs = .ok (n, r)) : n.InRange := by
  unfold realOf at h
  split at h
  · cases h
  · cases h
    trivial

theorem inRange_of_readExponent {start : Int} {significand : Nat}
    (h : readExponent negative significand start cs = .ok (n, r)) : n.InRange := by
  rw [readExponent_eq] at h
  generalize (exponentSign cs).2 = cs at h
  cases cs with
  | nil => cases h
  | cons c cs =>
    simp only [readUnsignedExponent] at h
    split at h
    · split at h
      · exact inRange_of_realOf h
      · split at h
        · cases h
        · cases h
          trivial
    · cases h

theorem inRange_of_readExponentIf {p : Int} {significand : Nat}
    (h : readExponentIf negative significand p cs = .ok (n, r)) : n.InRange := by
  unfold readExponentIf at h
  split at h
  · exact inRange_of_readExponent h
  · exact inRange_of_readExponent h
  · exact inRange_of_realOf h

theorem inRange_wholeOf {k : Nat} (h : k ≤ maxWhole) : (wholeOf negative k).InRange := by
  have hsize : UInt64.size = 2 ^ 64 := rfl
  unfold wholeOf
  split
  · split
    · trivial
    · exact ⟨by omega, by omega⟩
  · exact ⟨by omega, by omega⟩

theorem inRange_of_finish {significand left : Nat} (hsignificand : significand ≤ maxWhole)
    (h : finishNumeral negative significand left cs = .ok (n, r)) : n.InRange := by
  unfold finishNumeral at h
  split at h
  · simp only [readFraction] at h
    split at h
    · split at h <;> cases h
    · exact inRange_of_readExponentIf h
  · exact inRange_of_readExponent h
  · exact inRange_of_readExponent h
  · split at h
    · cases h
      exact inRange_wholeOf hsignificand
    · exact inRange_of_realOf h

theorem digitValue_le {c : Char} (h : c.isDigit = true) : digitValue c ≤ 9 := by
  simp only [Char.isDigit, Bool.and_eq_true, decide_eq_true_eq] at h
  have hle : c.toNat ≤ '9'.toNat := h.2
  have hnine : '9'.toNat = 57 := rfl
  have hzero : '0'.toNat = 48 := rfl
  rw [digitValue]
  omega

theorem inRange_of_readMagnitude (h : readMagnitude negative cs = .ok (n, r)) : n.InRange := by
  cases cs with
  | nil => cases h
  | cons c cs =>
    simp only [readMagnitude] at h
    split at h
    · split at h
      · split at h
        · cases h
        · exact inRange_of_finish (Nat.zero_le _) h
      · exact inRange_of_finish (Nat.zero_le _) h
    · split at h
      · next hc =>
        have hfirst : digitValue c ≤ maxWhole :=
          Nat.le_trans (digitValue_le hc) (by decide)
        exact inRange_of_finish (absorb_le hfirst _) h
      · cases h

/-- **Every whole number that is read is one of 64 bits.** -/
theorem inRange_of_readNumeral (h : readNumeral cs = .ok (n, r)) : n.InRange := by
  unfold readNumeral at h
  split at h <;> exact inRange_of_readMagnitude h

end InRange

end ShellPreview.Json
