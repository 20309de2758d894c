import ShellPreview.Json.Reader
/-!
# Texts between quotes

`Escapes s cs` says that `cs` is a way to write the text `s` between
quotes: a character as it is, or a backslash with a letter, with the
number of the character, or with the two halves of a pair. Reading gives
the text back, passing over leads behind the closing quote, and what the
printer writes is one of these ways.
-/

namespace ShellPreview.Json

/-- Nothing but blanks between tokens. -/
def Blanks (bs : List Char) : Prop :=
  ∀ b ∈ bs, isBlank b = true

theorem skipBlanks_append {bs cs : List Char} (h : Blanks bs) :
    skipBlanks (bs ++ cs) = skipBlanks cs :=
  List.dropWhile_append_of_pos h

theorem skipBlanks_cons {c : Char} {cs : List Char} (h : isBlank c = false) :
    skipBlanks (c :: cs) = c :: cs :=
  List.dropWhile_cons_of_neg (by simp [h])

/-! ## One character -/

section Character

variable {a b c d l x : Char} {n m fuel : Nat} {cs r : List Char}

/-- No number is that of both halves of a pair. -/
theorem not_low_of_high (h : isHighSurrogate n = true) : isLowSurrogate n = false := by
  simp only [isHighSurrogate, isLowSurrogate, Bool.and_eq_true, Bool.and_eq_false_iff,
    decide_eq_true_eq, decide_eq_false_iff_not] at h ⊢
  omega

/-- A letter behind a backslash is not the one in front of a number. -/
theorem ne_u_of_simpleEscape (h : simpleEscape l = some c) : l ≠ 'u' := by
  rintro rfl
  have hnone : simpleEscape 'u' = none := by decide
  rw [hnone] at h
  cases h

theorem readHex_eq (h : fourHex a b c d = some n) (r : List Char) :
    readHex (a :: b :: c :: d :: r) = .ok (n, r) := by
  rw [readHex, h]

theorem readEscape_letter (h : simpleEscape l = some x) (r : List Char) :
    readEscape (l :: r) = .ok (x, r) := by
  rw [readEscape.eq_3 _ _ (ne_u_of_simpleEscape h), h]

/-- The number of a character alone, or of the first half of a pair. -/
theorem readEscape_hex (h : readHex cs = .ok (n, r)) : readEscape ('u' :: cs) =
    if isLowSurrogate n then .error (.here .loneSurrogate r)
    else if isHighSurrogate n then readLowSurrogate n r else .ok (Char.ofNat n, r) := by
  rw [readEscape, h]

theorem readEscape_number (h : fourHex a b c d = some n) (hlow : isLowSurrogate n = false)
    (hhigh : isHighSurrogate n = false) (r : List Char) :
    readEscape ('u' :: a :: b :: c :: d :: r) = .ok (Char.ofNat n, r) := by
  simp [readEscape_hex (readHex_eq h r), hlow, hhigh]

theorem readEscape_pair {a' b' c' d' : Char} (hn : fourHex a b c d = some n)
    (hhigh : isHighSurrogate n = true) (hm : fourHex a' b' c' d' = some m)
    (hlow : isLowSurrogate m = true) (r : List Char) :
    readEscape ('u' :: a :: b :: c :: d :: '\\' :: 'u' :: a' :: b' :: c' :: d' :: r) =
      .ok (Char.ofNat (0x10000 + 0x400 * (n - 0xD800) + (m - 0xDC00)), r) := by
  have hsecond : readLowSurrogate n ('\\' :: 'u' :: a' :: b' :: c' :: d' :: r) =
      .ok (Char.ofNat (0x10000 + 0x400 * (n - 0xD800) + (m - 0xDC00)), r) := by
    simp [readLowSurrogate, readHex_eq hm, hlow]
  simp [readEscape_hex (readHex_eq hn _), not_low_of_high hhigh, hhigh, hsecond]

theorem skipEscape_letter (h : simpleEscape l = some x) (r : List Char) :
    skipEscape (l :: r) = .ok r := by
  rw [skipEscape.eq_3 _ _ (ne_u_of_simpleEscape h), h]

theorem skipEscape_number (h : fourHex a b c d = some n) (r : List Char) :
    skipEscape ('u' :: a :: b :: c :: d :: r) = .ok r := by
  show Except.map _ (readHex _) = _
  rw [readHex_eq h]
  rfl

/-- A character may stand for itself. -/
theorem readTextIn_plain (hquote : c ≠ '\x22') (hbackslash : c ≠ '\\')
    (hcontrol : ¬ c.toNat < 0x20) (cs : List Char) :
    readTextIn (fuel + 1) (c :: cs) = (readTextIn fuel cs).map fun (s, r) => (c :: s, r) := by
  show (if c = '\x22' then _ else if c = '\\' then _ else if c.toNat < 0x20 then _ else _) = _
  rw [if_neg hquote, if_neg hbackslash, if_neg hcontrol]

theorem readTextIn_backslash (h : readEscape cs = .ok (x, r)) :
    readTextIn (fuel + 1) ('\\' :: cs) =
      (readTextIn fuel r).map fun (s, r') => (x :: s, r') := by
  simp [readTextIn, h]

theorem skipTextIn_plain (hquote : c ≠ '\x22') (hbackslash : c ≠ '\\')
    (hcontrol : ¬ c.toNat < 0x20) (cs : List Char) :
    skipTextIn (fuel + 1) (c :: cs) = skipTextIn fuel cs := by
  show (if c = '\x22' then _ else if c = '\\' then _ else if c.toNat < 0x20 then _ else _) = _
  rw [if_neg hquote, if_neg hbackslash, if_neg hcontrol]

theorem skipTextIn_backslash (h : skipEscape cs = .ok r) :
    skipTextIn (fuel + 1) ('\\' :: cs) = skipTextIn fuel r := by
  simp [skipTextIn, h]

end Character

/-! ## Ways to write a text -/

/-- A way to write a text between quotes. -/
inductive Escapes : List Char → List Char → Prop
  | nil : Escapes [] []
  | plain {c : Char} {s cs : List Char} (hquote : c ≠ '\x22') (hbackslash : c ≠ '\\')
      (hcontrol : ¬ c.toNat < 0x20) (h : Escapes s cs) : Escapes (c :: s) (c :: cs)
  | letter {l c : Char} {s cs : List Char} (hl : simpleEscape l = some c) (h : Escapes s cs) :
      Escapes (c :: s) ('\\' :: l :: cs)
  | number {a b c d : Char} {n : Nat} {s cs : List Char} (hn : fourHex a b c d = some n)
      (hlow : isLowSurrogate n = false) (hhigh : isHighSurrogate n = false) (h : Escapes s cs) :
      Escapes (Char.ofNat n :: s) ('\\' :: 'u' :: a :: b :: c :: d :: cs)
  | pair {a b c d a' b' c' d' : Char} {n m : Nat} {s cs : List Char}
      (hn : fourHex a b c d = some n) (hhigh : isHighSurrogate n = true)
      (hm : fourHex a' b' c' d' = some m) (hlow : isLowSurrogate m = true) (h : Escapes s cs) :
      Escapes (Char.ofNat (0x10000 + 0x400 * (n - 0xD800) + (m - 0xDC00)) :: s)
        ('\\' :: 'u' :: a :: b :: c :: d :: '\\' :: 'u' :: a' :: b' :: c' :: d' :: cs)

namespace Escapes

variable {s cs rest : List Char} {fuel : Nat}

theorem length_le (h : Escapes s cs) : s.length ≤ cs.length := by
  induction h with
  | nil => exact Nat.le_refl _
  | _ => simp only [List.length_cons]; omega

/-! ## Whole texts -/

/-- **Reading gives the text that is written**, one step for each of its
characters and one for the quote. -/
theorem readTextIn_eq (h : Escapes s cs) (hfuel : s.length < fuel) :
    readTextIn fuel (cs ++ '\x22' :: rest) = .ok (s, rest) := by
  induction h generalizing fuel with
  | nil =>
    obtain ⟨fuel, rfl⟩ := Nat.exists_eq_succ_of_ne_zero (Nat.ne_zero_of_lt hfuel)
    rfl
  | plain hquote hbackslash hcontrol _ ih =>
    obtain ⟨fuel, rfl⟩ := Nat.exists_eq_succ_of_ne_zero (Nat.ne_zero_of_lt hfuel)
    have hrest := ih (Nat.lt_of_succ_lt_succ hfuel)
    rw [List.cons_append, readTextIn_plain hquote hbackslash hcontrol, hrest]
    rfl
  | letter hl _ ih =>
    obtain ⟨fuel, rfl⟩ := Nat.exists_eq_succ_of_ne_zero (Nat.ne_zero_of_lt hfuel)
    have hrest := ih (Nat.lt_of_succ_lt_succ hfuel)
    simp only [List.cons_append, readTextIn_backslash (readEscape_letter hl _), hrest]
    rfl
  | number hn hlow hhigh _ ih =>
    obtain ⟨fuel, rfl⟩ := Nat.exists_eq_succ_of_ne_zero (Nat.ne_zero_of_lt hfuel)
    have hrest := ih (Nat.lt_of_succ_lt_succ hfuel)
    simp only [List.cons_append, readTextIn_backslash (readEscape_number hn hlow hhigh _), hrest]
    rfl
  | pair hn hhigh hm hlow _ ih =>
    obtain ⟨fuel, rfl⟩ := Nat.exists_eq_succ_of_ne_zero (Nat.ne_zero_of_lt hfuel)
    have hrest := ih (Nat.lt_of_succ_lt_succ hfuel)
    simp only [List.cons_append, readTextIn_backslash (readEscape_pair hn hhigh hm hlow _), hrest]
    rfl

theorem readText_eq (h : Escapes s cs) : readText (cs ++ '\x22' :: rest) = .ok (s, rest) := by
  refine h.readTextIn_eq ?_
  have hle := h.length_le
  rw [List.length_append, List.length_cons]
  omega

/-- **And passing over leads behind it**; the halves of a pair take a step
each. -/
theorem skipTextIn_eq (h : Escapes s cs) (hfuel : cs.length < fuel) :
    skipTextIn fuel (cs ++ '\x22' :: rest) = .ok rest := by
  induction h generalizing fuel with
  | nil =>
    obtain ⟨fuel, rfl⟩ := Nat.exists_eq_succ_of_ne_zero (Nat.ne_zero_of_lt hfuel)
    rfl
  | plain hquote hbackslash hcontrol _ ih =>
    obtain ⟨fuel, rfl⟩ := Nat.exists_eq_succ_of_ne_zero (Nat.ne_zero_of_lt hfuel)
    rw [List.cons_append, skipTextIn_plain hquote hbackslash hcontrol]
    exact ih (Nat.lt_of_succ_lt_succ hfuel)
  | letter hl _ ih =>
    obtain ⟨fuel, rfl⟩ := Nat.exists_eq_succ_of_ne_zero (Nat.ne_zero_of_lt hfuel)
    simp only [List.length_cons] at hfuel
    rw [List.cons_append, List.cons_append, skipTextIn_backslash (skipEscape_letter hl _)]
    exact ih (by omega)
  | number hn _ _ _ ih =>
    obtain ⟨fuel, rfl⟩ := Nat.exists_eq_succ_of_ne_zero (Nat.ne_zero_of_lt hfuel)
    simp only [List.length_cons] at hfuel
    simp only [List.cons_append, skipTextIn_backslash (skipEscape_number hn _)]
    exact ih (by omega)
  | pair hn _ hm _ _ ih =>
    obtain ⟨fuel, rfl⟩ := Nat.exists_eq_succ_of_ne_zero (Nat.ne_zero_of_lt hfuel)
    simp only [List.length_cons] at hfuel
    obtain ⟨fuel, rfl⟩ := Nat.exists_eq_succ_of_ne_zero (n := fuel) (by omega)
    simp only [List.cons_append, skipTextIn_backslash (skipEscape_number hn _),
      skipTextIn_backslash (skipEscape_number hm _)]
    exact ih (by omega)

theorem skipText_eq (h : Escapes s cs) : skipText (cs ++ '\x22' :: rest) = .ok rest := by
  refine h.skipTextIn_eq ?_
  rw [List.length_append, List.length_cons]
  omega

/-! ## What the printer writes -/

theorem hexValue_hexDigit {k : Nat} (h : k < 16) : hexValue (hexDigit k) = some k := by
  have hall : ∀ k : Fin 16, hexValue (hexDigit k) = some k.val := by decide
  exact hall ⟨k, h⟩

/-- The characters without a letter of their own are written by number. -/
theorem fourHex_control {n : Nat} (h : n < 0x20) :
    fourHex '0' '0' (hexDigit (n / 16)) (hexDigit (n % 16)) = some n := by
  have hzero : hexValue '0' = some 0 := by decide
  have hsixteens := hexValue_hexDigit (by omega : n / 16 < 16)
  have hunits := hexValue_hexDigit (by omega : n % 16 < 16)
  simp only [fourHex, hzero, hsixteens, hunits, Option.bind_eq_bind, Option.bind_some,
    Option.pure_def, Option.some.injEq]
  omega

/-- The printer writes a character in one of the ways. -/
theorem escapeChar_append (c : Char) (h : Escapes s cs) :
    Escapes (c :: s) (escapeChar c ++ cs) := by
  unfold escapeChar
  -- seven characters have a letter of their own
  iterate 7
    split
    · next hc => subst hc; exact .letter (by decide) h
  split
  · next hcontrol =>
    have hnumber := Escapes.number (fourHex_control hcontrol)
      (by simp [isLowSurrogate]; omega) (by simp [isHighSurrogate]; omega) h
    rwa [Char.ofNat_toNat] at hnumber
  · next hquote hbackslash _ _ _ _ _ hcontrol => exact .plain hquote hbackslash hcontrol h

/-- **What the printer writes between quotes is one of the ways.** -/
theorem escapes_escape (s : List Char) : Escapes s (escape s) := by
  induction s with
  | nil => exact .nil
  | cons c s ih =>
    rw [escape, List.flatMap_cons]
    exact escapeChar_append c ih

end Escapes

end ShellPreview.Json
