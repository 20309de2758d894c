import ShellPreview.Fetch.Route
import ShellPreview.Proofs.FileTree
/-!
# Percent escapes are read back

What is escaped is read back byte by byte (`decode_encode`), also if the
text has percent signs or escapes of its own, since a percent sign is
never kept. So a relay that is asked with an escaped URL can tell which
URL was meant, and nothing of the URL is taken for a part of the request
(`requestUrl_escapes`).
-/

namespace ShellPreview

namespace Url.Percent

/-! ## Escapes -/

/-- A hexadecimal digit, in upper case. -/
def isUpperHex (c : Char) : Bool :=
  c.isDigit || (decide ('A' ≤ c) && decide (c ≤ 'F'))

/-- Unreserved characters and whole escapes, and nothing else. -/
inductive Escaped : List Char → Prop
  | nil : Escaped []
  | plain {c : Char} {cs : List Char} (hc : isUnreserved c = true) (h : Escaped cs) :
      Escaped (c :: cs)
  | escape {a b : Char} {cs : List Char} (ha : isUpperHex a = true) (hb : isUpperHex b = true)
      (h : Escaped cs) : Escaped ('%' :: a :: b :: cs)

/-- A digit has its value, and is one of the digits. -/
theorem upperHex_spec {k : Nat} (h : k < 16) :
    hexValue (upperHex k) = some k ∧ isUpperHex (upperHex k) = true := by
  have hall : ∀ k : Fin 16,
      hexValue (upperHex k) = some k.val ∧ isUpperHex (upperHex k) = true := by decide
  exact hall ⟨k, h⟩

theorem hexByte_upperHex (b : UInt8) :
    hexByte (upperHex (b.toNat / 16)) (upperHex (b.toNat % 16)) = some b := by
  have hb := b.toNat_lt
  have hhigh := (upperHex_spec (k := b.toNat / 16) (by omega)).1
  have hlow := (upperHex_spec (k := b.toNat % 16) (by omega)).1
  have hsum : 16 * (b.toNat / 16) + b.toNat % 16 = b.toNat := Nat.div_add_mod _ _
  rw [hexByte, hhigh, hlow]
  show some (UInt8.ofNat (16 * (b.toNat / 16) + b.toNat % 16)) = some b
  rw [hsum, UInt8.ofNat_toNat]

/-- An escape is read as its byte. -/
theorem decode_escape (b : UInt8) (cs : List Char) : decode (escape b ++ cs) = b :: decode cs := by
  rw [escape, List.cons_append, List.cons_append, List.cons_append, List.nil_append, decode,
    hexByte_upperHex]

theorem decode_escapes (bs : List UInt8) (cs : List Char) :
    decode (bs.flatMap escape ++ cs) = bs ++ decode cs := by
  induction bs with
  | nil => rfl
  | cons b bs ih => rw [List.flatMap_cons, List.append_assoc, decode_escape, ih, List.cons_append]

/-- Any other character stands for itself. -/
theorem decode_cons {c : Char} (hc : c ≠ '%') (cs : List Char) :
    decode (c :: cs) = String.utf8EncodeChar c ++ decode cs := by
  refine decode.eq_2 c cs ?_
  rintro a b r hr -
  exact hc hr

/-- **The bytes of a text are read back**, whatever is kept of it besides
percent signs. -/
theorem decode_encode {keep : Char → Bool} (hkeep : keep '%' = false) (cs : List Char) :
    decode (encode keep cs) = cs.flatMap String.utf8EncodeChar := by
  induction cs with
  | nil => rfl
  | cons c cs ih =>
    rw [encode, List.flatMap_cons, List.flatMap_cons]
    split
    · next hc =>
      have hne : c ≠ '%' := by
        rintro rfl
        rw [hkeep] at hc
        cases hc
      rw [List.singleton_append, decode_cons hne]
      exact congrArg _ ih
    · rw [decode_escapes]
      exact congrArg _ ih

/-- The bytes of the characters are those of the text. -/
theorem toByteArray_flatMap (s : String) :
    (⟨(s.toList.flatMap String.utf8EncodeChar).toArray⟩ : ByteArray) = s.toUTF8 := by
  apply ByteArray.ext
  rw [String.toUTF8_eq_toByteArray]
  conv => rhs; rw [← String.ofList_toList (s := s)]
  exact List.data_toByteArray.symm

/-- So the text is read back. -/
theorem decodeText_encode {keep : Char → Bool} (hkeep : keep '%' = false) (s : String) :
    decodeText (encode keep s.toList) = some s := by
  rw [decodeText, decode_encode hkeep, toByteArray_flatMap, Text.decode_toUTF8]

/-! ## What is escaped -/

theorem Escaped.escapes {cs : List Char} (h : Escaped cs) (bs : List UInt8) :
    Escaped (bs.flatMap Percent.escape ++ cs) := by
  induction bs with
  | nil => exact h
  | cons b bs ih =>
    have hb := b.toNat_lt
    have hhigh := (upperHex_spec (k := b.toNat / 16) (by omega)).2
    have hlow := (upperHex_spec (k := b.toNat % 16) (by omega)).2
    exact .escape hhigh hlow ih

/-- **Nothing is left but unreserved characters and escapes.** -/
theorem escaped_encode (cs : List Char) : Escaped (encode isUnreserved cs) := by
  induction cs with
  | nil => exact .nil
  | cons c cs ih =>
    rw [encode, List.flatMap_cons]
    split
    · next hc => exact .plain hc ih
    · exact ih.escapes _

theorem isUnreserved_of_isUpperHex {c : Char} (h : isUpperHex c = true) :
    isUnreserved c = true := by
  have halphanum : c.isAlphanum = true := by
    rw [isUpperHex, Bool.or_eq_true, Bool.and_eq_true] at h
    refine Bool.or_eq_true_iff.mpr (h.symm.imp_left fun ⟨hlow, hhigh⟩ => ?_)
    have hlow : 65 ≤ c.val := of_decide_eq_true hlow
    have hhigh : c.val ≤ 90 := UInt32.le_trans (of_decide_eq_true hhigh) (by decide)
    have hupper : c.isUpper = true := decide_eq_true ⟨hlow, hhigh⟩
    exact Bool.or_eq_true_iff.mpr (.inl hupper)
  simp [isUnreserved, halphanum]

/-- Apart from the percent signs all characters are unreserved. -/
theorem Escaped.isUnreserved_of_mem {cs : List Char} (h : Escaped cs) :
    ∀ c ∈ cs, c = '%' ∨ isUnreserved c = true := by
  induction h with
  | nil => exact nofun
  | plain hc _ ih => exact List.forall_mem_cons.mpr ⟨.inr hc, ih⟩
  | escape ha hb _ ih =>
    exact List.forall_mem_cons.mpr ⟨.inl rfl, List.forall_mem_cons.mpr
      ⟨.inr (isUnreserved_of_isUpperHex ha), List.forall_mem_cons.mpr
        ⟨.inr (isUnreserved_of_isUpperHex hb), ih⟩⟩⟩

/-- So a character that is neither does not stand in the text. -/
theorem Escaped.not_mem {c : Char} {cs : List Char} (h : Escaped cs) (hne : c ≠ '%')
    (hc : isUnreserved c = false) : c ∉ cs := by
  intro hmem
  rcases h.isUnreserved_of_mem c hmem with heq | hunreserved
  · exact hne heq
  · rw [hc] at hunreserved
    cases hunreserved

end Url.Percent

namespace Fetch.Route

open Url.Percent

variable {name base : String} {format : RelayFormat}

/-- What stands behind the fixed text of a relay that is asked with
escaped URLs. -/
theorem requestUrl_eq (target : String) :
    (relay name base format true).requestUrl target =
      base ++ String.ofList (encode isUnreserved target.toList) :=
  rfl

/-- **A relay cannot take one URL for another.** Behind its fixed text a
relay that is asked with escaped URLs gets unreserved characters and whole
escapes only, which spell the URL in UTF-8. So different URLs make
different requests, and of a URL no ampersand, hash, question mark or
space comes through as it is. -/
theorem requestUrl_escapes (name base : String) (format : RelayFormat) :
    (∀ target : String, ∃ cs : List Char,
      (relay name base format true).requestUrl target = base ++ String.ofList cs ∧
        Escaped cs ∧ decodeText cs = some target ∧
        '&' ∉ cs ∧ '#' ∉ cs ∧ '?' ∉ cs ∧ ' ' ∉ cs) ∧
    ∀ target other : String, target ≠ other →
      (relay name base format true).requestUrl target ≠
        (relay name base format true).requestUrl other := by
  refine ⟨fun target => ?_, fun target other hne heq => hne ?_⟩
  · have hescaped := escaped_encode target.toList
    refine ⟨encode isUnreserved target.toList, requestUrl_eq target, hescaped,
      decodeText_encode (by decide) target, ?_, ?_, ?_, ?_⟩ <;>
    exact hescaped.not_mem (by decide) (by decide)
  · rw [requestUrl_eq, requestUrl_eq, String.append_right_inj, String.ofList_inj] at heq
    have hread := congrArg decodeText heq
    rw [decodeText_encode (by decide), decodeText_encode (by decide)] at hread
    exact Option.some.inj hread

/-- A URL with a blank, and one with the escape of a blank. -/
theorem requestUrl_escapes_sample :
    "http://e/a b?c=é" ≠ "http://e/a%20b?c=é" ∧
    (relay "r" "https://r/?u=" .raw true).requestUrl "http://e/a b?c=é" =
      "https://r/?u=http%3A%2F%2Fe%2Fa%20b%3Fc%3D%C3%A9" ∧
    "https://r/?u=http%3A%2F%2Fe%2Fa%20b%3Fc%3D%C3%A9" ≠
      (relay "r" "https://r/?u=" .raw true).requestUrl "http://e/a%20b?c=é" := by
  have hne : "http://e/a b?c=é" ≠ "http://e/a%20b?c=é" := by decide
  have hspelled : (relay "r" "https://r/?u=" .raw true).requestUrl "http://e/a b?c=é" =
      "https://r/?u=http%3A%2F%2Fe%2Fa%20b%3Fc%3D%C3%A9" := by decide
  exact ⟨hne, hspelled, hspelled ▸ (requestUrl_escapes "r" "https://r/?u=" .raw).2 _ _ hne⟩

end Fetch.Route

end ShellPreview
