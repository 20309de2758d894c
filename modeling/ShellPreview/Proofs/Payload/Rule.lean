import ShellPreview.Proofs.Classify.Vocabulary
import ShellPreview.Proofs.Number.Rounding
/-!
# Payloads — when a download is taken for a binary file

A text is binary data by rule if it begins like a known file or is long and
has more than three tenths of control characters. The program divides and
compares rounded numbers; for texts that are not absurdly long this comes
to the exact comparison (`exceedsRatio_iff`), since a quotient above three
tenths is far enough above. A payload then says what belongs to its rule
and nothing else (`describes_ofContent`).
-/

namespace ShellPreview.Payload

open Number Magnitude

variable {part whole : Nat} {content : String} {source : Option String} {caution : Caution}

/-! ## The ratio -/

theorem isNormal_threeTenths : threeTenths.IsNormal :=
  ⟨by decide, by decide, by decide⟩

/-- A part of a whole has a nearest magnitude. -/
theorem ofRatio_of_part (hpart : 0 < part) (hle : part ≤ whole) :
    ofRatio part whole = some (nearest part whole) := by
  have hwhole : 0 < whole := by omega
  have hone : (part : ℚ) / whole < 2 ^ ((0 : Int) + 53) := by
    have hpos : (0 : ℚ) < whole := Nat.cast_pos.mpr hwhole
    have hratio : (part : ℚ) / whole ≤ 1 := (div_le_one hpos).mpr (Nat.cast_le.mpr hle)
    have hbound : (1 : ℚ) < 2 ^ ((0 : Int) + 53) := by norm_num
    exact hratio.trans_lt hbound
  have hunit := exponentOf_le_of_lt hpart hwhole (by decide) hone
  exact ofRatio_eq_nearest hpart (hunit.trans_lt (by decide))

/-- **The rounded comparison is the exact one**, also where the ratio is three
tenths or next to it. -/
theorem exceedsRatio_iff (hwhole : 0 < whole) (hlong : whole < 2 ^ 52) (hle : part ≤ whole) :
    exceedsRatio part whole = true ↔ 3 * whole < 10 * part := by
  rcases Nat.eq_zero_or_pos part with rfl | hpart
  · have hnone : exceedsRatio 0 whole = false := rfl
    rw [hnone]
    exact iff_of_false Bool.false_ne_true (by omega)
  · have hunits : inUnits part whole threeTenths.exponent = (part <<< 54, whole) := rfl
    have hbound : threeTenths.significand = 5404319552844595 := rfl
    have hrounded := lt_nearest_iff isNormal_threeTenths hpart hwhole
    rw [hunits, hbound, lt_roundDiv_iff hwhole, Nat.shiftLeft_eq] at hrounded
    simp only [exceedsRatio, ofRatio_of_part hpart hle]
    rw [hrounded]
    constructor
    · -- the place where rounding goes above the bound is above three tenths
      rintro (habove | ⟨htie, -⟩)
      · linarith
      · linarith
    · -- and nearer to them than a tenth of a part, by which a ratio is above
      intro h
      left
      linarith

/-- The bound is what three tenths round to. -/
example : ofRatio 3 10 = some threeTenths := by
  decide

/-! ## The rule -/

/-- How data begins that is known by its beginning: a data URL, a program for
Windows, and files of the four formats. -/
def signatures : List String :=
  ["data:application/octet-stream;base64,", "MZ", "PK", "Rar!", "\x7fELF", "%PDF"]

/-- The text begins like data that is known by its beginning. -/
def Signed (content : String) : Prop :=
  ∃ s ∈ signatures, s.toList <+: content.toList

/-- More than three tenths of the characters are control characters. -/
def Noisy (content : String) : Prop :=
  3 * content.length < 10 * content.toList.countP isControl

/-- The text is binary data by rule. -/
def IsData (content : String) : Prop :=
  Signed content ∨ 100 < content.length ∧ Noisy content

theorem looksBinary_iff (hlong : content.length < 2 ^ 52) :
    looksBinary content.toList = true ↔ 100 < content.length ∧ Noisy content := by
  rw [looksBinary, Bool.and_eq_true, decide_eq_true_eq, String.length_toList]
  refine and_congr_right fun hguard => ?_
  have hcount : content.toList.countP isControl ≤ content.length := by
    rw [← String.length_toList]
    exact List.countP_le_length
  exact exceedsRatio_iff (by omega) hlong hcount

theorem mem_formats (format : FileFormat) : format ∈ FileFormat.all := by
  cases format <;> decide

/-- A format is found for the texts that begin like one of its files. -/
theorem isSome_formatOf_iff : (FileFormat.ofContent content).isSome = true ↔
    ∃ format : FileFormat, format.signature.toList <+: content.toList := by
  simp only [FileFormat.ofContent, List.find?_isSome, Text.begins_iff, mem_formats, true_and]

/-- The beginnings are looked for in three steps. -/
theorem signed_iff : Signed content ↔ Text.begins content dataMarker = true ∨
    Text.begins content "MZ" = true ∨ (FileFormat.ofContent content).isSome = true := by
  have hlist : signatures = dataMarker :: "MZ" :: FileFormat.all.map FileFormat.signature := rfl
  rw [isSome_formatOf_iff, Signed, hlist, Text.begins_iff, Text.begins_iff]
  simp only [List.mem_cons, exists_eq_or_imp, List.mem_map, mem_formats, true_and,
    exists_exists_eq_and]

/-- **A text is taken for a binary file by the rule.** -/
theorem isSome_cautionOf_iff (hlong : content.length < 2 ^ 52) :
    (cautionOf content).isSome = true ↔ IsData content := by
  have hfinds := finds_cautionOf content
  rw [IsData, signed_iff, ← looksBinary_iff hlong]
  generalize cautionOf content = found at hfinds ⊢
  cases hfinds with
  | encoded hdata => exact iff_of_true rfl (.inl (.inl hdata))
  | program _ hprogram => exact iff_of_true rfl (.inl (.inr (.inl hprogram)))
  | file _ hformat => exact iff_of_true rfl (.inl (.inr (.inr (by rw [hformat]; rfl))))
  | noise _ hnoise => exact iff_of_true rfl (.inr hnoise)
  | text hdata hprogram hformat hnoise =>
    simp only [hdata, hprogram, hformat, hnoise, Option.isSome_none, Bool.false_eq_true, or_false]

/-- Only a data URL is warned of as one. -/
theorem cautionOf_eq_encoded_iff :
    cautionOf content = some .encodedBinary ↔ Text.begins content dataMarker = true := by
  have hfinds := finds_cautionOf content
  generalize cautionOf content = found at hfinds ⊢
  cases hfinds with
  | encoded hdata => exact iff_of_true rfl hdata
  | program hdata => simp [hdata]
  | file hdata => simp [hdata]
  | noise hdata => simp [hdata]
  | text hdata => simp [hdata]

/-! ## What is known about a binary file -/

/-- A payload says of a text from a source what the rule says, and what
belongs to that. -/
structure Describes (content : String) (source : Option String) (p : Payload) : Prop where
  isBinary_iff : p.isBinary = true ↔ IsData content
  /-- Nothing is known about text, -/
  plain : p.isBinary = false → p = ⟨false, none, none, none, none, none⟩
  /-- and a type and a warning about binary data. -/
  known : p.isBinary = true → p.mimeType.isSome = true ∧ p.warning.isSome = true
  /-- Its name is that of the source. -/
  fileName : p.isBinary = true → p.fileName = source.bind Url.fileName
  /-- A size is known of a data URL only; four characters stand for three
  bytes there. -/
  size_iff : p.size.isSome = true ↔ dataMarker.toList <+: content.toList
  size : ∀ encoded, content = dataMarker ++ encoded → p.size = some (3 * encoded.utf8ByteSize / 4)

theorem ofContent_of_none (h : cautionOf content = none) : ofContent content source = plain := by
  rw [ofContent, h]

theorem ofContent_of_some (h : cautionOf content = some caution) :
    ofContent content source = ofCaution content source caution := by
  rw [ofContent, h]

theorem isSome_size_ofCaution_iff :
    (ofCaution content source caution).size.isSome = true ↔ caution = .encodedBinary := by
  cases caution with
  | encodedBinary => exact iff_of_true rfl rfl
  | _ => exact iff_of_false Bool.false_ne_true (by simp)

/-- Four characters of a data URL stand for three bytes. -/
theorem size_ofContent (encoded : String) (source : Option String) :
    (ofContent (dataMarker ++ encoded) source).size = some (3 * encoded.utf8ByteSize / 4) := by
  have hcaution : cautionOf (dataMarker ++ encoded) = some .encodedBinary :=
    (cautionOf_eq_encoded_iff).mpr (Text.begins_append dataMarker encoded)
  have hdrop : (dataMarker ++ encoded).toList.drop dataMarker.length = encoded.toList := by
    rw [String.toList_append, ← String.length_toList, List.drop_left]
  rw [ofContent_of_some hcaution]
  simp only [ofCaution, hdrop, decodedSize, Text.byteLength_toList]

/-- A size is known of data URLs and of nothing else. -/
theorem isSome_size_iff :
    (ofContent content source).size.isSome = true ↔ dataMarker.toList <+: content.toList := by
  rw [← Text.begins_iff, ← cautionOf_eq_encoded_iff]
  rcases hcaution : cautionOf content with - | caution
  · rw [ofContent_of_none hcaution]
    exact iff_of_false Bool.false_ne_true nofun
  · rw [ofContent_of_some hcaution, isSome_size_ofCaution_iff, Option.some_inj]

theorem isBinary_ofContent :
    (ofContent content source).isBinary = (cautionOf content).isSome := by
  cases hcaution : cautionOf content with
  | none =>
    rw [ofContent_of_none hcaution]
    rfl
  | some caution =>
    rw [ofContent_of_some hcaution]
    rfl

/-- **A payload decides by the rule and says what belongs to it.** -/
theorem describes_ofContent (source : Option String) (hlong : content.length < 2 ^ 52) :
    (ofContent content source).Describes content source := by
  have hsome : (ofContent content source).isBinary = true →
      ∃ caution, ofContent content source = ofCaution content source caution := by
    intro h
    rw [isBinary_ofContent, Option.isSome_iff_exists] at h
    obtain ⟨caution, hcaution⟩ := h
    exact ⟨caution, ofContent_of_some hcaution⟩
  exact {
    isBinary_iff := by
      rw [isBinary_ofContent]
      exact isSome_cautionOf_iff hlong
    plain := fun h => by
      rw [isBinary_ofContent, Option.isSome_eq_false_iff, Option.isNone_iff_eq_none] at h
      exact ofContent_of_none h
    known := fun h => by
      obtain ⟨caution, heq⟩ := hsome h
      rw [heq]
      exact ⟨rfl, rfl⟩
    fileName := fun h => by
      obtain ⟨caution, heq⟩ := hsome h
      rw [heq]
      rfl
    size_iff := isSome_size_iff
    size := fun encoded heq => by
      rw [heq]
      exact size_ofContent encoded source }

end ShellPreview.Payload
