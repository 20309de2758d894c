import ShellPreview.Proofs.Json.Numeral
/-!
# How numbers are written

`IsNumeral` is the grammar of numbers: a sign or none, a zero or digits
that do not begin with one, and after them, or not, digits behind a point
and digits behind the letter of an exponent. Reading agrees with it in
both directions (`recognizes_readNumeral`): what is read is the number
that a text of the grammar stands for, and a text of the grammar is read,
unless its number is out of range.
-/

namespace ShellPreview.Json

/-- At least one digit, and nothing else. -/
def IsDigits (ds : List Char) : Prop :=
  ds ≠ [] ∧ ∀ c ∈ ds, c.isDigit = true

/-- Digits behind a sign or none. -/
def IsSignedDigits (cs : List Char) : Prop :=
  ∃ sign ds, (sign = [] ∨ sign = ['+'] ∨ sign = ['-']) ∧ IsDigits ds ∧ cs = sign ++ ds

/-- An exponent or none. -/
inductive IsExponent : List Char → Prop
  | absent : IsExponent []
  | lower {cs : List Char} (h : IsSignedDigits cs) : IsExponent ('e' :: cs)
  | upper {cs : List Char} (h : IsSignedDigits cs) : IsExponent ('E' :: cs)

/-- What may follow a point. -/
def IsFraction (cs : List Char) : Prop :=
  ∃ ds exponent, IsDigits ds ∧ IsExponent exponent ∧ cs = ds ++ exponent

/-- What may follow the digits in front of a point. -/
inductive IsNumeralTail : List Char → Prop
  | point {cs : List Char} (h : IsFraction cs) : IsNumeralTail ('.' :: cs)
  | exponent {cs : List Char} (h : IsExponent cs) : IsNumeralTail cs

/-- A number without its sign. -/
inductive IsMagnitude : List Char → Prop
  | zero {cs : List Char} (h : IsNumeralTail cs) : IsMagnitude ('0' :: cs)
  | digits {c : Char} {ds cs : List Char} (hc : c.isDigit = true) (hzero : c ≠ '0')
      (hds : ∀ d ∈ ds, d.isDigit = true) (h : IsNumeralTail cs) : IsMagnitude (c :: (ds ++ cs))

/-- A number as it is written. -/
inductive IsNumeral : List Char → Prop
  | minus {cs : List Char} (h : IsMagnitude cs) : IsNumeral ('-' :: cs)
  | plain {cs : List Char} (h : IsMagnitude cs) : IsNumeral cs

/-- The reader reads what is written so: a number that it gives is that of
a piece of the text in front, and of every such piece it gives a number,
unless that is out of range. -/
structure Recognizes (reader : List Char → Reading Numeral) (P : List Char → Prop) : Prop where
  piece : ∀ {cs n r}, reader cs = .ok (n, r) → ∃ ds, P ds ∧ cs = ds ++ r ∧ reader ds = .ok (n, [])
  takes : ∀ {ds}, P ds →
    (∃ n, reader ds = .ok (n, [])) ∨ ∃ r, reader ds = .error (.here .numberRange r)

section Parts

variable {negative : Bool} {significand : Nat} {cs ds r more : List Char}

/-! ## Digits -/

theorem digits_fst_append_snd (cs : List Char) : cs = (digits cs).1 ++ (digits cs).2 :=
  List.takeWhile_append_dropWhile.symm

theorem isDigit_of_mem_digits {c : Char} (h : c ∈ (digits cs).1) : c.isDigit = true :=
  List.mem_takeWhile_imp h

/-- Digits are read up to a text that goes on with none. -/
theorem digits_of_all (hds : ∀ d ∈ ds, d.isDigit = true)
    (hmore : ∀ c ∈ more.head?, c.isDigit = false) : digits (ds ++ more) = (ds, more) := by
  have hnone : more.takeWhile Char.isDigit = [] ∧ more.dropWhile Char.isDigit = more := by
    cases more with
    | nil => exact ⟨rfl, rfl⟩
    | cons c cs => simp [hmore c rfl]
  rw [digits, List.takeWhile_append_of_pos hds, List.dropWhile_append_of_pos hds, hnone.1, hnone.2,
    List.append_nil]

/-- The digits of an exponent are read from digits. -/
theorem readExponentDigits_piece (e : Nat) (cs : List Char) :
    ∃ ds, (∀ d ∈ ds, d.isDigit = true) ∧ cs = ds ++ (readExponentDigits e cs).2.1 ∧
      ∀ more : List Char,
        (readExponentDigits e cs).2.2 = false ∨ (∀ c ∈ more.head?, c.isDigit = false) →
        readExponentDigits e (ds ++ more) =
          ((readExponentDigits e cs).1, more, (readExponentDigits e cs).2.2) := by
  have hstop : ∀ (e : Nat) (more : List Char), (∀ c ∈ more.head?, c.isDigit = false) →
      readExponentDigits e more = (e, more, true) := by
    intro e more hmore
    cases more with
    | nil => rfl
    | cons c more => simp [readExponentDigits, hmore c rfl]
  induction cs generalizing e with
  | nil => exact ⟨[], List.forall_mem_nil _, rfl, fun more hmore =>
      hstop e more (hmore.resolve_left Bool.noConfusion)⟩
  | cons c cs ih =>
    by_cases hc : c.isDigit = true
    · by_cases hnext : 10 * e + digitValue c ≤ maxExponentDigits
      · obtain ⟨ds, hds, hcs, hmore⟩ := ih (10 * e + digitValue c)
        refine ⟨c :: ds, List.forall_mem_cons.mpr ⟨hc, hds⟩, ?_, fun more h => ?_⟩
        · simp only [readExponentDigits, hc, hnext, if_true, List.cons_append, ← hcs]
        · simp only [readExponentDigits, hc, hnext, if_true, List.cons_append] at h ⊢
          exact hmore more h
      · refine ⟨[c], List.forall_mem_singleton.mpr hc, ?_, fun more _ => ?_⟩
        · simp [readExponentDigits, hc, hnext]
        · simp [readExponentDigits, hc, hnext]
    · have hread := hstop e (c :: cs) (by simpa using hc)
      rw [hread]
      exact ⟨[], List.forall_mem_nil _, rfl, fun more hmore =>
      hstop e more (hmore.resolve_left Bool.noConfusion)⟩

/-! ## From the end of a number to its beginning -/

theorem recognizes_realOf {p : Int} :
    Recognizes (realOf negative significand p) (· = []) where
  piece := by
    intro cs n r h
    obtain rfl := rest_realOf h
    refine ⟨[], rfl, rfl, ?_⟩
    unfold realOf at h ⊢
    split at h
    · cases h
    · cases h
      rfl
  takes := by
    rintro _ rfl
    unfold realOf
    split
    · exact .inr ⟨[], rfl⟩
    · exact .inl ⟨_, rfl⟩

theorem recognizes_readUnsignedExponent {start : Int} {down : Bool} :
    Recognizes (readUnsignedExponent negative significand start down) IsDigits where
  piece := by
    intro cs n r h
    have hnothing : ∀ c ∈ ([] : List Char).head?, c.isDigit = false :=
      fun _ hc => absurd hc (Option.not_mem_none _)
    cases cs with
    | nil => cases h
    | cons c cs =>
      obtain ⟨ds, hds, hcs, hmore⟩ := readExponentDigits_piece (digitValue c) cs
      simp only [readUnsignedExponent] at h
      split at h
      · next hc =>
        generalize readExponentDigits (digitValue c) cs = read at h hcs hmore
        obtain ⟨e, r', _ | _⟩ := read
        · -- the digits behind the one that is too many belong to the number
          simp only at h hcs hmore
          split at h
          · cases h
          · next hsmall =>
            cases h
            have hbehind := digits_fst_append_snd r'
            have hread := hmore (digits r').1 (.inl trivial)
            have hend : digits ((digits r').1 ++ []) = ((digits r').1, []) :=
              digits_of_all (fun _ => isDigit_of_mem_digits) hnothing
            rw [List.append_nil] at hend
            refine ⟨c :: (ds ++ (digits r').1), ⟨List.cons_ne_nil _ _, ?_⟩, ?_, ?_⟩
            · exact List.forall_mem_cons.mpr ⟨hc, List.forall_mem_append.mpr
                ⟨hds, fun d => isDigit_of_mem_digits⟩⟩
            · rw [hcs, List.cons_append, List.append_assoc, ← hbehind]
            · simp only [readUnsignedExponent, hc, if_true, hread, hsmall, hend]
              rfl
        · simp only at h hcs hmore
          obtain ⟨_, rfl, hr, hreal⟩ := Recognizes.piece recognizes_realOf h
          have hread := hmore [] (.inr hnothing)
          rw [List.append_nil] at hread
          refine ⟨c :: ds, ⟨List.cons_ne_nil _ _, List.forall_mem_cons.mpr ⟨hc, hds⟩⟩, ?_, ?_⟩
          · rw [hcs, hr]
            rfl
          · simp only [readUnsignedExponent, hc, if_true, hread, hreal]
      · cases h
  takes := by
    rintro ds ⟨hne, hds⟩
    obtain ⟨c, ds, rfl⟩ := List.exists_cons_of_ne_nil hne
    obtain ⟨hc, hds⟩ := List.forall_mem_cons.mp hds
    obtain ⟨hbehind, hend⟩ := digits_readExponentDigits (digitValue c) ds
    have hnone : (digits ds).2 = [] := List.dropWhile_eq_nil_iff.mpr hds
    rw [hnone] at hbehind hend
    simp only [readUnsignedExponent, hc, if_true]
    generalize readExponentDigits (digitValue c) ds = read at hbehind hend ⊢
    obtain ⟨e, r', _ | _⟩ := read
    · simp only at hbehind ⊢
      split
      · exact .inr ⟨_, rfl⟩
      · exact .inl ⟨_, by rw [hbehind]⟩
    · exact Recognizes.takes recognizes_realOf (hend rfl)

/-- Digits begin with no sign. -/
theorem exponentSign_of_isDigits (h : IsDigits ds) : exponentSign ds = (false, ds) := by
  obtain ⟨hne, hds⟩ := h
  obtain ⟨c, ds, rfl⟩ := List.exists_cons_of_ne_nil hne
  have hc : c.isDigit = true := hds c List.mem_cons_self
  refine exponentSign.eq_3 _ ?_ ?_
  · rintro r heq
    obtain ⟨rfl, -⟩ := List.cons.inj heq
    cases hc
  · rintro r heq
    obtain ⟨rfl, -⟩ := List.cons.inj heq
    cases hc

/-- There is a sign in front, or the text is as it is behind one. -/
theorem exponentSign_cases (cs : List Char) :
    (∃ r, cs = '+' :: r) ∨ (∃ r, cs = '-' :: r) ∨ exponentSign cs = (false, cs) := by
  unfold exponentSign
  split
  · exact .inl ⟨_, rfl⟩
  · exact .inr (.inl ⟨_, rfl⟩)
  · exact .inr (.inr rfl)

theorem recognizes_readExponent {start : Int} :
    Recognizes (readExponent negative significand start) IsSignedDigits where
  piece := by
    intro cs n r h
    rw [readExponent_eq] at h
    rcases exponentSign_cases cs with ⟨cs, rfl⟩ | ⟨cs, rfl⟩ | hplain
    · obtain ⟨ds, hds, hcs, hread⟩ := Recognizes.piece recognizes_readUnsignedExponent h
      exact ⟨'+' :: ds, ⟨['+'], ds, by simp, hds, rfl⟩, congrArg _ hcs, hread⟩
    · obtain ⟨ds, hds, hcs, hread⟩ := Recognizes.piece recognizes_readUnsignedExponent h
      exact ⟨'-' :: ds, ⟨['-'], ds, by simp, hds, rfl⟩, congrArg _ hcs, hread⟩
    · rw [hplain] at h
      obtain ⟨ds, hds, hcs, hread⟩ := Recognizes.piece recognizes_readUnsignedExponent h
      refine ⟨ds, ⟨[], ds, by simp, hds, rfl⟩, hcs, ?_⟩
      rw [readExponent_eq, exponentSign_of_isDigits hds, hread]
  takes := by
    rintro _ ⟨sign, ds, hsign, hds, rfl⟩
    rcases hsign with rfl | rfl | rfl
    · rw [List.nil_append, readExponent_eq, exponentSign_of_isDigits hds]
      exact Recognizes.takes recognizes_readUnsignedExponent hds
    · exact Recognizes.takes recognizes_readUnsignedExponent hds
    · exact Recognizes.takes recognizes_readUnsignedExponent hds

theorem recognizes_readExponentIf {p : Int} :
    Recognizes (readExponentIf negative significand p) IsExponent where
  piece := by
    intro cs n r h
    unfold readExponentIf at h
    split at h
    · obtain ⟨ds, hds, rfl, hread⟩ := Recognizes.piece recognizes_readExponent h
      exact ⟨'e' :: ds, .lower hds, rfl, hread⟩
    · obtain ⟨ds, hds, rfl, hread⟩ := Recognizes.piece recognizes_readExponent h
      exact ⟨'E' :: ds, .upper hds, rfl, hread⟩
    · obtain ⟨_, rfl, hcs, hread⟩ := Recognizes.piece recognizes_realOf h
      exact ⟨[], .absent, hcs, hread⟩
  takes := by
    intro ds h
    cases h with
    | absent => exact Recognizes.takes recognizes_realOf rfl
    | lower h => exact Recognizes.takes recognizes_readExponent h
    | upper h => exact Recognizes.takes recognizes_readExponent h

/-- No exponent begins with a digit. -/
theorem IsExponent.not_isDigit (h : IsExponent cs) : ∀ c ∈ cs.head?, c.isDigit = false := by
  rintro c hc
  cases h with
  | absent => cases hc
  | lower | upper =>
    obtain rfl := Option.mem_some.mp hc
    rfl

theorem recognizes_readFraction {start : Int} :
    Recognizes (readFraction negative significand start) IsFraction where
  piece := by
    intro cs n r h
    have hcs := digits_fst_append_snd cs
    have hall : ∀ d ∈ (digits cs).1, d.isDigit = true := fun d => isDigit_of_mem_digits
    simp only [readFraction] at h
    split at h
    · split at h <;> cases h
    · next hne =>
      obtain ⟨exponent, hexponent, hbehind, hread⟩ := Recognizes.piece recognizes_readExponentIf h
      have hdigits := digits_of_all hall hexponent.not_isDigit
      refine ⟨(digits cs).1 ++ exponent, ⟨_, exponent, ⟨by simpa using hne, hall⟩, hexponent, rfl⟩,
        ?_, ?_⟩
      · rw [List.append_assoc, ← hbehind, ← hcs]
      · simp only [readFraction, hdigits, hne]
        exact hread
  takes := by
    rintro _ ⟨ds, exponent, ⟨hne, hds⟩, hexponent, rfl⟩
    simp only [readFraction, digits_of_all hds hexponent.not_isDigit, List.isEmpty_iff, hne,
      if_false]
    exact Recognizes.takes recognizes_readExponentIf hexponent

theorem finishNumeral_nil {left : Nat} : finishNumeral negative significand left [] =
    if left = 0 then .ok (wholeOf negative significand, [])
    else realOf negative significand left [] :=
  rfl

theorem recognizes_finishNumeral {left : Nat} :
    Recognizes (finishNumeral negative significand left) IsNumeralTail where
  piece := by
    intro cs n r h
    unfold finishNumeral at h
    split at h
    · obtain ⟨ds, hds, rfl, hread⟩ := Recognizes.piece recognizes_readFraction h
      exact ⟨'.' :: ds, .point hds, rfl, hread⟩
    · obtain ⟨ds, hds, rfl, hread⟩ := Recognizes.piece recognizes_readExponent h
      exact ⟨'e' :: ds, .exponent (.lower hds), rfl, hread⟩
    · obtain ⟨ds, hds, rfl, hread⟩ := Recognizes.piece recognizes_readExponent h
      exact ⟨'E' :: ds, .exponent (.upper hds), rfl, hread⟩
    · split at h
      · next hleft =>
        cases h
        exact ⟨[], .exponent .absent, rfl, by rw [finishNumeral_nil, if_pos hleft]⟩
      · next hleft =>
        obtain ⟨_, rfl, hcs, hread⟩ := Recognizes.piece recognizes_realOf h
        exact ⟨[], .exponent .absent, hcs, by rw [finishNumeral_nil, if_neg hleft, hread]⟩
  takes := by
    intro ds h
    cases h with
    | point h => exact Recognizes.takes recognizes_readFraction h
    | exponent h =>
      cases h with
      | lower h => exact Recognizes.takes recognizes_readExponent h
      | upper h => exact Recognizes.takes recognizes_readExponent h
      | absent =>
        rw [finishNumeral_nil]
        split
        · exact .inl ⟨_, rfl⟩
        · exact Recognizes.takes recognizes_realOf rfl

/-- Nothing that follows the digits in front of a point begins with a
digit. -/
theorem IsNumeralTail.not_isDigit (h : IsNumeralTail cs) :
    ∀ c ∈ cs.head?, c.isDigit = false := by
  cases h with
  | point =>
    rintro c hc
    obtain rfl := Option.mem_some.mp hc
    rfl
  | exponent h => exact h.not_isDigit

/-- Behind a zero stands no digit, and the number goes on there. -/
theorem readMagnitude_zero (h : ∀ c ∈ cs.head?, c.isDigit = false) :
    readMagnitude negative ('0' :: cs) = finishNumeral negative 0 0 cs := by
  cases cs with
  | nil => rfl
  | cons c cs =>
    have hc : c.isDigit = false := h c rfl
    simp [readMagnitude, hc]

/-- Behind another digit its digits are read first. -/
theorem readMagnitude_digit {c : Char} (hc : c.isDigit = true) (hzero : c ≠ '0') (cs : List Char) :
    readMagnitude negative (c :: cs) =
      finishNumeral negative (absorb (digitValue c) (digits cs).1).1
        (absorb (digitValue c) (digits cs).1).2 (digits cs).2 := by
  simp only [readMagnitude, if_neg hzero, if_pos hc]

theorem recognizes_readMagnitude : Recognizes (readMagnitude negative) IsMagnitude where
  piece := by
    intro cs n r h
    cases cs with
    | nil => cases h
    | cons c cs =>
      by_cases hzero : c = '0'
      · subst hzero
        have hnext : ∀ d ∈ cs.head?, d.isDigit = false := by
          intro d hd
          cases cs with
          | nil => cases hd
          | cons e cs =>
            obtain rfl := Option.mem_some.mp hd
            by_contra hdigit
            simp [readMagnitude, Bool.of_not_eq_false hdigit] at h
        rw [readMagnitude_zero hnext] at h
        obtain ⟨ds, hds, rfl, hread⟩ := Recognizes.piece recognizes_finishNumeral h
        exact ⟨'0' :: ds, .zero hds, rfl, by rw [readMagnitude_zero hds.not_isDigit, hread]⟩
      · by_cases hc : c.isDigit = true
        · have hcs := digits_fst_append_snd cs
          have hall : ∀ d ∈ (digits cs).1, d.isDigit = true := fun d => isDigit_of_mem_digits
          rw [readMagnitude_digit hc hzero] at h
          obtain ⟨ds, hds, hbehind, hread⟩ := Recognizes.piece recognizes_finishNumeral h
          have hdigits := digits_of_all hall hds.not_isDigit
          refine ⟨c :: ((digits cs).1 ++ ds), .digits hc hzero hall hds, ?_, ?_⟩
          · rw [List.cons_append, List.append_assoc, ← hbehind, ← hcs]
          · rw [readMagnitude_digit hc hzero, hdigits, hread]
        · simp [readMagnitude, hzero, hc] at h
  takes := by
    intro ds h
    cases h with
    | zero h =>
      rw [readMagnitude_zero h.not_isDigit]
      exact Recognizes.takes recognizes_finishNumeral h
    | digits hc hzero hds h =>
      rw [readMagnitude_digit hc hzero, digits_of_all hds h.not_isDigit]
      exact Recognizes.takes recognizes_finishNumeral h

/-- A magnitude begins with no sign. -/
theorem readNumeral_of_isMagnitude (h : IsMagnitude cs) :
    readNumeral cs = readMagnitude false cs := by
  refine readNumeral.eq_2 _ ?_
  rintro r rfl
  cases h with
  | digits hc => cases hc

/-- **A number is read from a text of the grammar**, and every such text is
read as one, unless its number is out of range. -/
theorem recognizes_readNumeral : Recognizes readNumeral IsNumeral where
  piece := by
    intro cs n r h
    unfold readNumeral at h
    split at h
    · obtain ⟨ds, hds, rfl, hread⟩ := Recognizes.piece recognizes_readMagnitude h
      exact ⟨'-' :: ds, .minus hds, rfl, hread⟩
    · obtain ⟨ds, hds, rfl, hread⟩ := Recognizes.piece recognizes_readMagnitude h
      exact ⟨ds, .plain hds, rfl, by rw [readNumeral_of_isMagnitude hds, hread]⟩
  takes := by
    intro ds h
    cases h with
    | minus h => exact Recognizes.takes recognizes_readMagnitude h
    | plain h =>
      rw [readNumeral_of_isMagnitude h]
      exact Recognizes.takes recognizes_readMagnitude h

end Parts

end ShellPreview.Json
