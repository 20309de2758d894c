import Mathlib.Algebra.Order.Floor.Semifield
import ShellPreview.Proofs.Number.Order
import ShellPreview.Report.Size
/-!
# Sizes in words, read back

A size in words is a number and a unit, and can be read back as the number
of bytes that it stands for. So read, a larger number of bytes is never
written as a smaller size, also where the unit changes, and no size is
more than a twentieth of its unit away from the number of bytes, if that
has no more than 53 bits (`sizeText_in_order_and_near`). The unit is chosen
before the number is rounded; so a number that is less than a twentieth of
a unit short of the next unit is written as 1024 of its own
(`sizeText_number_below_next_unit`).
-/

namespace ShellPreview.Report

variable {a b n : Nat}

/-! ## Reading a size -/

/-- A number of units. -/
structure Amount where
  number : ℚ
  unit : SizeUnit

/-- The bytes of an amount. -/
def Amount.bytes (amount : Amount) : ℚ :=
  amount.number * amount.unit.bytes

/-- The number that digits spell. -/
def readDigits (cs : List Char) : Option Nat :=
  if cs ≠ [] ∧ cs.all Char.isDigit then some (Nat.ofDigitChars 10 cs 0) else none

/-- The number that digits spell, with or without others behind a point. -/
def readDecimal (cs : List Char) : Option ℚ :=
  match cs.splitOn '.' with
  | [whole] => do return (← readDigits whole : Nat)
  | [whole, fraction] => do
    return (← readDigits whole : Nat) + (← readDigits fraction : Nat) / 10 ^ fraction.length
  | _ => none

/-- The unit with the letters. -/
def SizeUnit.ofSymbol (cs : List Char) : Option SizeUnit :=
  [byte, kilobyte, megabyte, gigabyte].find? fun unit => unit.symbol.toList == cs

/-- Reads a size in words. -/
def Amount.read (s : String) : Option Amount :=
  match s.toList.splitOn ' ' with
  | [number, letters] => do return ⟨← readDecimal number, ← SizeUnit.ofSymbol letters⟩
  | _ => none

theorem splitOn_of_not_mem {mark : Char} {cs : List Char} (h : mark ∉ cs) :
    cs.splitOn mark = [cs] := by
  have hnone : ∀ c ∈ cs, (c == mark) = false := fun c hc =>
    beq_false_of_ne (ne_of_mem_of_not_mem hc h)
  exact List.splitOnP_eq_singleton hnone

theorem splitOn_append {mark : Char} {cs ds : List Char} (hcs : mark ∉ cs) (hds : mark ∉ ds) :
    (cs ++ mark :: ds).splitOn mark = [cs, ds] := by
  have hnone : ∀ c ∈ cs, (c == mark) = false :=
    fun c hc => beq_false_of_ne (ne_of_mem_of_not_mem hc hcs)
  have hsplit := List.splitOnP_append_cons_of_forall_mem hnone mark (beq_self_eq_true mark) ds
  exact hsplit.trans (congrArg (cs :: ·) (splitOn_of_not_mem hds))

/-! ## The number -/

theorem not_mem_toDigits {mark : Char} (hmark : mark.isDigit = false) (n : Nat) :
    mark ∉ Nat.toDigits 10 n := by
  intro hmem
  have hdigit := Nat.isDigit_of_mem_toDigits (by decide) (by decide) hmem
  rw [hmark] at hdigit
  cases hdigit

theorem readDigits_toDigits (n : Nat) : readDigits (Nat.toDigits 10 n) = some n := by
  have hall : (Nat.toDigits 10 n).all Char.isDigit = true :=
    List.all_eq_true.mpr fun _ => Nat.isDigit_of_mem_toDigits (by decide) (by decide)
  rw [readDigits, if_pos ⟨Nat.toDigits_ne_nil, hall⟩, Nat.ofDigitChars_ten_toDigits]

theorem readDecimal_repr (n : Nat) : readDecimal (Nat.repr n).toList = some (n : ℚ) := by
  rw [Nat.toList_repr, readDecimal, splitOn_of_not_mem (not_mem_toDigits (by decide) n)]
  dsimp only
  rw [readDigits_toDigits]
  rfl

/-- Tenths are read back. -/
theorem readDecimal_tenthsText (t : Nat) :
    readDecimal (Number.tenthsText t).toList = some (t / 10 : ℚ) := by
  have htext : (Number.tenthsText t).toList =
      Nat.toDigits 10 (t / 10) ++ '.' :: Nat.toDigits 10 (t % 10) := by
    simp [Number.tenthsText]
  have hdigit : (Nat.toDigits 10 (t % 10)).length = 1 := by
    rw [Nat.toDigits_of_lt_base (Nat.mod_lt t (by decide))]
    rfl
  have hsum : ((t / 10 : Nat) : ℚ) + (t % 10 : Nat) / 10 ^ 1 = t / 10 := by
    have hparts : (10 : ℚ) * (t / 10 : Nat) + (t % 10 : Nat) = t := by
      exact_mod_cast Nat.div_add_mod t 10
    rw [← hparts]
    ring
  rw [readDecimal, htext, splitOn_append (not_mem_toDigits (by decide) _)
    (not_mem_toDigits (by decide) _)]
  dsimp only
  rw [readDigits_toDigits, readDigits_toDigits, hdigit, ← hsum]
  rfl

theorem blank_not_mem_tenthsText (t : Nat) : ' ' ∉ (Number.tenthsText t).toList := by
  simp [Number.tenthsText, not_mem_toDigits]

theorem ofSymbol_symbol (unit : SizeUnit) : SizeUnit.ofSymbol unit.symbol.toList = some unit := by
  cases unit <;> decide

theorem blank_not_mem_symbol (unit : SizeUnit) : ' ' ∉ unit.symbol.toList := by
  cases unit <;> decide

theorem read_append {number : String} {x : ℚ} (hnumber : readDecimal number.toList = some x)
    (hblank : ' ' ∉ number.toList) (unit : SizeUnit) :
    Amount.read (number ++ " " ++ unit.symbol) = some ⟨x, unit⟩ := by
  have htext : (number ++ " " ++ unit.symbol).toList =
      number.toList ++ ' ' :: unit.symbol.toList := by
    simp
  rw [Amount.read, htext, splitOn_append hblank (blank_not_mem_symbol unit)]
  dsimp only
  rw [hnumber, ofSymbol_symbol]
  rfl

/-! ## The amount that is written -/

/-- The amount that stands for a number of bytes in words. -/
def amountOf (n : Nat) : Amount :=
  match SizeUnit.ofBytes n with
  | .byte => ⟨n, .byte⟩
  | unit => ⟨sizeTenths unit n / 10, unit⟩

theorem unit_amountOf (n : Nat) : (amountOf n).unit = SizeUnit.ofBytes n := by
  unfold amountOf
  split
  · next h => exact h.symm
  · rfl

/-- Bytes are written one by one. -/
theorem bytes_amountOf_of_byte (h : SizeUnit.ofBytes n = .byte) : (amountOf n).bytes = n := by
  rw [amountOf, h, Amount.bytes, SizeUnit.bytes, Nat.cast_one, mul_one]

theorem number_amountOf (h : SizeUnit.ofBytes n ≠ .byte) :
    (amountOf n).number = sizeTenths (SizeUnit.ofBytes n) n / 10 := by
  unfold amountOf
  split
  · next hbyte => exact absurd hbyte h
  · rfl

/-- **A size in words is read back.** -/
theorem read_sizeText (n : Nat) : Amount.read (sizeText n) = some (amountOf n) := by
  have hblank : ' ' ∉ (Nat.repr n).toList := by
    rw [Nat.toList_repr]
    exact not_mem_toDigits (by decide) n
  have hletter : Nat.repr n ++ " B" = Nat.repr n ++ " " ++ SizeUnit.byte.symbol := by
    rw [String.append_assoc]
    rfl
  rw [sizeText, amountOf]
  cases SizeUnit.ofBytes n with
  | byte =>
    dsimp only
    rw [hletter]
    exact read_append (readDecimal_repr n) hblank .byte
  | kilobyte | megabyte | gigabyte =>
    exact read_append (readDecimal_tenthsText _) (blank_not_mem_tenthsText _) _

/-! ## Bytes with 53 bits -/

theorem significantBytes_eq_floor (hn : 0 < n) (h : n < 2 ^ 64) :
    significantBytes n = ⌊(Number.Magnitude.nearest n 1).value⌋₊ := by
  rw [significantBytes, Number.Magnitude.ofNat_eq_nearest hn h, Number.Magnitude.value_eq_ratio,
    Nat.floor_div_eq_div]

theorem significantBytes_of_le (h : n ≤ 2 ^ 53) : significantBytes n = n := by
  rcases n.eq_zero_or_pos with rfl | hn
  · decide
  · rw [significantBytes_eq_floor hn (by omega), Number.Magnitude.value_nearest_of_le hn h,
      Nat.floor_natCast]

theorem significantBytes_mono (hab : a ≤ b) (hb : b < 2 ^ 64) :
    significantBytes a ≤ significantBytes b := by
  rcases a.eq_zero_or_pos with rfl | ha
  · exact Nat.zero_le _
  · have hquotient : (a : ℚ) / (1 : Nat) ≤ b / (1 : Nat) := by
      rw [Nat.cast_one, div_one, div_one]
      exact_mod_cast hab
    rw [significantBytes_eq_floor ha (by omega), significantBytes_eq_floor (by omega) hb]
    exact Nat.floor_le_floor (Number.Magnitude.value_nearest_mono ha Nat.one_pos (by omega)
      Nat.one_pos hquotient)

/-! ## Units -/

theorem SizeUnit.bytes_pos (unit : SizeUnit) : 0 < unit.bytes := by
  cases unit <;> decide

/-- A number of bytes fills its unit, -/
theorem bytes_ofBytes_le (h : SizeUnit.ofBytes n ≠ .byte) : (SizeUnit.ofBytes n).bytes ≤ n := by
  unfold SizeUnit.ofBytes at h ⊢
  split at h
  · exact absurd rfl h
  · split_ifs <;> simp_all [SizeUnit.bytes]

/-- but not the next one. -/
theorem lt_bytes_ofBytes (h : SizeUnit.ofBytes n ≠ .gigabyte) :
    n < 1024 * (SizeUnit.ofBytes n).bytes := by
  unfold SizeUnit.ofBytes at h ⊢
  split_ifs at h ⊢ <;> simp_all [SizeUnit.bytes]

/-- A smaller number of bytes has the same unit, or one that is smaller by
a factor of 1024 at least. -/
theorem bytes_ofBytes_mono (hab : a ≤ b) (h : SizeUnit.ofBytes a ≠ SizeUnit.ofBytes b) :
    1024 * (SizeUnit.ofBytes a).bytes ≤ (SizeUnit.ofBytes b).bytes := by
  unfold SizeUnit.ofBytes at h ⊢
  split_ifs at h ⊢ <;> simp_all [SizeUnit.bytes] <;> omega

/-- The unit of a number of bytes that is written with a point is filled, -/
theorem one_le_number_amountOf (hn : n < 2 ^ 64) (h : SizeUnit.ofBytes n ≠ .byte) :
    1 ≤ (amountOf n).number := by
  have hfilled := bytes_ofBytes_le h
  have hsmall : (SizeUnit.ofBytes n).bytes ≤ 2 ^ 53 := by
    cases SizeUnit.ofBytes n <;> decide
  have hsignificant : (SizeUnit.ofBytes n).bytes ≤ significantBytes n := by
    have hmono := significantBytes_mono hfilled hn
    rwa [significantBytes_of_le hsmall] at hmono
  have htenths : 10 ≤ sizeTenths (SizeUnit.ofBytes n) n :=
    Number.le_roundDiv (SizeUnit.bytes_pos _) (Nat.mul_le_mul_left 10 hsignificant)
  have hcast : (10 : ℚ) ≤ sizeTenths (SizeUnit.ofBytes n) n := by exact_mod_cast htenths
  rw [number_amountOf h]
  linarith

/-- The tenths of a number of bytes with 53 bits. -/
theorem sizeTenths_of_le (h : n ≤ 2 ^ 53) (unit : SizeUnit) :
    sizeTenths unit n = Number.roundDiv (10 * n) unit.bytes := by
  rw [sizeTenths, significantBytes_of_le h, Number.tenths]

theorem le_of_ne_gigabyte (h : SizeUnit.ofBytes n ≠ .gigabyte) : n ≤ 2 ^ 53 := by
  have hless := lt_bytes_ofBytes h
  have hunit : (SizeUnit.ofBytes n).bytes ≤ 2 ^ 30 := by
    cases SizeUnit.ofBytes n <;> decide
  omega

/-- and of a larger unit there is at most one. -/
theorem number_amountOf_le (h : SizeUnit.ofBytes n ≠ .gigabyte) : (amountOf n).number ≤ 1024 := by
  have hless := lt_bytes_ofBytes h
  by_cases hbyte : SizeUnit.ofBytes n = .byte
  · rw [hbyte, SizeUnit.bytes, Nat.mul_one] at hless
    have hnumber : (amountOf n).number = n := by rw [amountOf, hbyte]
    rw [hnumber]
    exact_mod_cast hless.le
  · have htenths : sizeTenths (SizeUnit.ofBytes n) n ≤ 10240 := by
      rw [sizeTenths_of_le (le_of_ne_gigabyte h)]
      exact Number.roundDiv_le (SizeUnit.bytes_pos _) (by omega)
    have hcast : (sizeTenths (SizeUnit.ofBytes n) n : ℚ) ≤ 10240 := by exact_mod_cast htenths
    rw [number_amountOf hbyte]
    linarith

/-! ## Order and error -/

theorem bytes_amountOf (n : Nat) :
    (amountOf n).bytes = (amountOf n).number * (SizeUnit.ofBytes n).bytes := by
  rw [Amount.bytes, unit_amountOf]

/-- **Sizes in words are in the order of the numbers of bytes.** -/
theorem bytes_amountOf_mono (hab : a ≤ b) (hb : b < 2 ^ 64) :
    (amountOf a).bytes ≤ (amountOf b).bytes := by
  by_cases hunit : SizeUnit.ofBytes a = SizeUnit.ofBytes b
  · by_cases hbyte : SizeUnit.ofBytes b = .byte
    · rw [bytes_amountOf_of_byte (hunit.trans hbyte), bytes_amountOf_of_byte hbyte]
      exact_mod_cast hab
    · have hpos := SizeUnit.bytes_pos (SizeUnit.ofBytes b)
      have hquotient : ((10 * significantBytes a : Nat) : ℚ) / (SizeUnit.ofBytes b).bytes ≤
          (10 * significantBytes b : Nat) / (SizeUnit.ofBytes b).bytes :=
        div_le_div_of_nonneg_right
          (Nat.cast_le.mpr (Nat.mul_le_mul_left 10 (significantBytes_mono hab hb)))
          (Nat.cast_nonneg _)
      have htenths : (sizeTenths (SizeUnit.ofBytes b) a : ℚ) ≤ sizeTenths (SizeUnit.ofBytes b) b :=
        Nat.cast_le.mpr (Number.roundDiv_mono hpos hpos hquotient)
      rw [bytes_amountOf, bytes_amountOf, number_amountOf (hunit ▸ hbyte), number_amountOf hbyte,
        hunit]
      gcongr
  · -- between the two there is the larger unit
    have hfactor := bytes_ofBytes_mono hab hunit
    have hgigabyte : SizeUnit.ofBytes a ≠ .gigabyte := fun h => by
      rw [h] at hfactor
      cases hlarge : SizeUnit.ofBytes b <;> simp [hlarge, SizeUnit.bytes] at hfactor
    have hbyte : SizeUnit.ofBytes b ≠ .byte := fun h => by
      have hpos := SizeUnit.bytes_pos (SizeUnit.ofBytes a)
      rw [h, SizeUnit.bytes] at hfactor
      omega
    have hcast : (1024 : ℚ) * (SizeUnit.ofBytes a).bytes ≤ (SizeUnit.ofBytes b).bytes := by
      exact_mod_cast hfactor
    calc (amountOf a).bytes
        ≤ 1024 * (SizeUnit.ofBytes a).bytes := by
          rw [bytes_amountOf]
          exact mul_le_mul_of_nonneg_right (number_amountOf_le hgigabyte) (Nat.cast_nonneg _)
      _ ≤ 1 * (SizeUnit.ofBytes b).bytes := by rwa [one_mul]
      _ ≤ (amountOf b).bytes := by
          rw [bytes_amountOf]
          exact mul_le_mul_of_nonneg_right (one_le_number_amountOf hb hbyte) (Nat.cast_nonneg _)

/-- The amount is the number of bytes, rounded to tenths of its unit; a tie
goes to the even tenth. -/
def Amount.Rounds (amount : Amount) (n : Nat) : Prop :=
  ∃ tenths : Nat, amount.number = tenths / 10 ∧ |amount.bytes - n| ≤ amount.unit.bytes / 20 ∧
    (|amount.bytes - n| = amount.unit.bytes / 20 → Even tenths)

/-- **A size in words is rounded to tenths**, up to 53 bits. -/
theorem rounds_amountOf (h : n ≤ 2 ^ 53) : (amountOf n).Rounds n := by
  have hpos : (0 : ℚ) < (SizeUnit.ofBytes n).bytes := Nat.cast_pos.mpr (SizeUnit.bytes_pos _)
  rw [Amount.Rounds, unit_amountOf]
  by_cases hbyte : SizeUnit.ofBytes n = .byte
  · rw [bytes_amountOf_of_byte hbyte, sub_self, abs_zero]
    refine ⟨10 * n, ?_, by positivity, fun _ => ⟨5 * n, by omega⟩⟩
    rw [amountOf, hbyte]
    push_cast
    ring
  · obtain ⟨hnear, heven⟩ :=
      Number.abs_roundDiv_sub_le (n := 10 * n) (SizeUnit.bytes_pos (SizeUnit.ofBytes n))
    rw [← sizeTenths_of_le h] at hnear heven
    -- the error of the bytes is that of the tenths, in tenths of the unit
    have herror : (amountOf n).bytes - n =
        (sizeTenths (SizeUnit.ofBytes n) n - (10 * n : Nat) / (SizeUnit.ofBytes n).bytes) *
          ((SizeUnit.ofBytes n).bytes / 10) := by
      rw [bytes_amountOf, number_amountOf hbyte]
      push_cast
      field_simp
    have htenth : (0 : ℚ) < (SizeUnit.ofBytes n).bytes / 10 := by positivity
    have hhalf : ((SizeUnit.ofBytes n).bytes : ℚ) / 20 =
        1 / 2 * ((SizeUnit.ofBytes n).bytes / 10) := by ring
    rw [herror, abs_mul, abs_of_pos htenth, hhalf]
    refine ⟨_, number_amountOf hbyte, mul_le_mul_of_nonneg_right hnear htenth.le, fun heq => ?_⟩
    exact Nat.even_iff.mpr (heven (mul_right_cancel₀ htenth.ne' heq))

/-- **Sizes in words keep the order and are near.** A number of 64 bits is
not written as a smaller size than a smaller one, in whatever units the
two are written, and a number of 53 bits is written as the nearest tenth of
its unit. -/
theorem sizeText_in_order_and_near :
    (∀ a b, a ≤ b → b < 2 ^ 64 → ∃ v w, Amount.read (sizeText a) = some v ∧
      Amount.read (sizeText b) = some w ∧ v.bytes ≤ w.bytes) ∧
    ∀ n, n ≤ 2 ^ 53 → ∃ w, Amount.read (sizeText n) = some w ∧
      |w.bytes - n| ≤ w.unit.bytes / 20 ∧ w.Rounds n := by
  refine ⟨fun a b hab hb => ?_, fun n hn => ?_⟩
  · exact ⟨_, _, read_sizeText a, read_sizeText b, bytes_amountOf_mono hab hb⟩
  · have hrounds := rounds_amountOf hn
    obtain ⟨-, -, herror, -⟩ := id hrounds
    exact ⟨_, read_sizeText n, herror, hrounds⟩

/-- The last number in kilobytes and the first in megabytes, two numbers
that are more than 53 bits, and a tie. -/
theorem sizeText_in_order_and_near_samples :
    (∃ v w, Amount.read (sizeText 1048575) = some v ∧ Amount.read (sizeText 1048576) = some w ∧
      v.bytes ≤ w.bytes) ∧
    (∃ v w, Amount.read (sizeText (2 ^ 63 - 1)) = some v ∧
      Amount.read (sizeText (2 ^ 64 - 1)) = some w ∧ v.bytes ≤ w.bytes) ∧
    sizeText 1280 = "1.2 KB" ∧
    ∃ w, Amount.read (sizeText 1280) = some w ∧ |w.bytes - (1280 : Nat)| ≤ w.unit.bytes / 20 ∧
      w.Rounds 1280 :=
  ⟨sizeText_in_order_and_near.1 _ _ (by decide) (by decide),
    sizeText_in_order_and_near.1 _ _ (by decide) (by decide), by decide,
    sizeText_in_order_and_near.2 _ (by decide)⟩

/-! ## The largest unit -/

/-- A number rounds up to the next unit if it is no more than a twentieth of
its unit short of it. -/
theorem number_amountOf_lt_iff (hbyte : SizeUnit.ofBytes n ≠ .byte)
    (h : SizeUnit.ofBytes n ≠ .gigabyte) :
    (amountOf n).number < 1024 ↔
      (n : ℚ) + (SizeUnit.ofBytes n).bytes / 20 < 1024 * (SizeUnit.ofBytes n).bytes := by
  have hpos : (0 : ℚ) < (SizeUnit.ofBytes n).bytes := Nat.cast_pos.mpr (SizeUnit.bytes_pos _)
  have htenths : (amountOf n).number < 1024 ↔ ¬10239 < sizeTenths (SizeUnit.ofBytes n) n := by
    rw [number_amountOf hbyte, div_lt_iff₀ (by norm_num), not_lt, ← Nat.lt_succ_iff]
    norm_num
  rw [htenths, sizeTenths_of_le (le_of_ne_gigabyte h),
    Number.lt_roundDiv_iff_quotient (SizeUnit.bytes_pos _), and_iff_left (by decide),
    ← le_iff_lt_or_eq, not_le, div_lt_iff₀ hpos]
  push_cast
  constructor <;> intro hlt <;> linarith

/-- **The number in front of a unit.** What is written in kilobytes or
megabytes is at least one of them and at most 1024, and it is less than 1024
exactly if more than a twentieth of the unit is missing to the next one. -/
theorem sizeText_number_below_next_unit :
    ∀ n, n < 2 ^ 64 → ∃ w, Amount.read (sizeText n) = some w ∧
      (w.unit = .kilobyte ∨ w.unit = .megabyte →
        1 ≤ w.number ∧ w.number ≤ 1024 ∧
          (w.number < 1024 ↔ (n : ℚ) + w.unit.bytes / 20 < 1024 * w.unit.bytes)) := by
  intro n hn
  refine ⟨_, read_sizeText n, fun hunit => ?_⟩
  rw [unit_amountOf] at hunit ⊢
  have hbyte : SizeUnit.ofBytes n ≠ .byte := by
    rcases hunit with h | h <;> simp [h]
  have hgigabyte : SizeUnit.ofBytes n ≠ .gigabyte := by
    rcases hunit with h | h <;> simp [h]
  exact ⟨one_le_number_amountOf hn hbyte, number_amountOf_le hgigabyte,
    number_amountOf_lt_iff hbyte hgigabyte⟩

/-- The largest number in kilobytes below 1024. -/
theorem sizeText_number_below_next_unit_sample :
    sizeText 1048524 = "1023.9 KB" ∧
    ∃ w, Amount.read (sizeText 1048524) = some w ∧
      (w.unit = .kilobyte ∨ w.unit = .megabyte →
        1 ≤ w.number ∧ w.number ≤ 1024 ∧
          (w.number < 1024 ↔ ((1048524 : Nat) : ℚ) + w.unit.bytes / 20 < 1024 * w.unit.bytes)) :=
  ⟨by decide, sizeText_number_below_next_unit 1048524 (by decide)⟩

/-- **A full megabyte in kilobytes**: one byte less than a megabyte is
written as 1024 kilobytes. -/
theorem sizeText_full_kilobytes :
    sizeText 1048575 = "1024.0 KB" ∧
    ¬∀ n, n < 2 ^ 64 → ∀ w, Amount.read (sizeText n) = some w →
      w.unit = .kilobyte ∨ w.unit = .megabyte → 1 ≤ w.number ∧ w.number < 1024 := by
  refine ⟨by decide, fun hless => ?_⟩
  have hread := read_sizeText 1048575
  have hunit : SizeUnit.ofBytes 1048575 = .kilobyte := by decide
  have htenths : sizeTenths .kilobyte 1048575 = 10240 := by decide
  have hnumber : (amountOf 1048575).number = 1024 := by
    rw [number_amountOf (by rw [hunit]; decide), hunit, htenths]
    norm_num
  have hlt := (hless 1048575 (by decide) _ hread (by rw [unit_amountOf, hunit]; exact .inl rfl)).2
  rw [hnumber] at hlt
  exact lt_irrefl _ hlt

end ShellPreview.Report
