import Mathlib.Data.List.Infix
import Mathlib.Data.List.Sections
import ShellPreview.Proofs.Text.Segments
import ShellPreview.Proofs.Url.Percent
import ShellPreview.Url
/-!
# Segments of a path

Whatever text a URL is read from, the segments of its path are visible
ASCII without the characters that divide a URL, and none of them stands for
one dot or two (`hasSegments_of_parse`). Dots are carried out as they are
found, in whatever way they are spelled; and no other piece becomes dots
when it is escaped, since a dot itself is never escaped
(`eq_of_encode_mem`).
-/

namespace ShellPreview.Url

variable {c : Char} {cs piece path : List Char} {pieces done : List (List Char)}
variable {special file isLast : Bool} {scheme s : String} {url : Url}

/-! ## Dots -/

/-- A dot, as it may be spelled. -/
def dotSpellings : List (List Char) :=
  [".", "%2e", "%2E"].map String.toList

/-- One dot and two, as they may be spelled. -/
def dotSegments : List (List Char) :=
  dotSpellings ++ dotSpellings.flatMap fun a => dotSpellings.map fun b => a ++ b

/-- A character is its small form, or the capital of that. -/
theorem eq_toLower_or_eq_toUpper (c : Char) : c = c.toLower ∨ c = c.toLower.toUpper := by
  by_cases hc : 'A'.val ≤ c.val ∧ c.val ≤ 'Z'.val
  · right
    have hlow : 65 ≤ c.val.toNat := UInt32.le_iff_toNat_le.mp hc.1
    have hhigh : c.val.toNat ≤ 90 := UInt32.le_iff_toNat_le.mp hc.2
    have hval : c.toLower.val = c.val + 32 := by
      show (if h : 'A'.val ≤ c.val ∧ c.val ≤ 'Z'.val then _ else _ : Char).val = _
      rw [dif_pos hc]
      rfl
    have hnat : c.toLower.val.toNat = c.val.toNat + 32 := by
      rw [hval, UInt32.toNat_add]
      exact Nat.mod_eq_of_lt (by simp only [UInt32.reduceToNat]; omega)
    have hsmall : 'a'.val ≤ c.toLower.val ∧ c.toLower.val ≤ 'z'.val := by
      rw [UInt32.le_iff_toNat_le, UInt32.le_iff_toNat_le, hnat]
      exact ⟨Nat.add_le_add_right hlow 32, Nat.add_le_add_right hhigh 32⟩
    apply Char.ext
    show c.val =
      (if h : 'a'.val ≤ c.toLower.val ∧ c.toLower.val ≤ 'z'.val then _ else _ : Char).val
    rw [dif_pos hsmall]
    show c.val = c.toLower.val + ('A'.val - 'a'.val)
    rw [hval, UInt32.add_assoc]
    exact (UInt32.add_zero _).symm
  · left
    show c = if h : 'A'.val ≤ c.val ∧ c.val ≤ 'Z'.val then _ else _
    rw [dif_neg hc]

/-- **Exactly the dots are carried out.** -/
theorem mem_dotSegments : cs ∈ dotSegments ↔ isTwoDots cs = true ∨ isDot cs = true := by
  have hall : ∀ cs ∈ dotSegments, isTwoDots cs = true ∨ isDot cs = true := by decide +kernel
  refine ⟨hall cs, fun h => ?_⟩
  -- each character is the small one that was looked for, or its capital
  have hspelled :
      cs ∈ ((String.ofList cs).toLower.toList.map fun d => [d, d.toUpper]).sections := by
    have hmap : (String.ofList cs).toLower.toList = cs.map Char.toLower :=
      String.toList_map.trans (congrArg (List.map Char.toLower) String.toList_ofList)
    rw [hmap, List.mem_sections, List.forall₂_map_right_iff, List.forall₂_map_right_iff,
      List.forall₂_same]
    intro c _
    simpa using eq_toLower_or_eq_toUpper c
  have hdots : ∀ small ∈ ["..", ".%2e", "%2e.", "%2e%2e"] ++ [".", "%2e"],
      ∀ cs ∈ (small.toList.map fun d => [d, d.toUpper]).sections, cs ∈ dotSegments := by
    decide
  have hsmall : (String.ofList cs).toLower ∈
      ["..", ".%2e", "%2e.", "%2e%2e"] ++ [".", "%2e"] :=
    List.mem_append.mpr (h.imp List.contains_iff_mem.mp List.contains_iff_mem.mp)
  exact hdots _ hsmall cs hspelled

/-- An escape in one of them is that of a dot. -/
theorem hexByte_of_infix {a b : Char} (h : cs ∈ dotSegments) (hfound : ['%', a, b] <:+: cs) :
    Percent.hexByte a b = some 0x2E := by
  have hall : ∀ cs ∈ dotSegments, ∀ tail ∈ cs.tails, tail.head? = some '%' →
      tail.take 3 ∈ ["%2e".toList, "%2E".toList] := by decide
  obtain ⟨front, behind, rfl⟩ := hfound
  have htail : ['%', a, b] ++ behind ∈ (front ++ ['%', a, b] ++ behind).tails := by
    rw [List.mem_tails, List.append_assoc]
    exact List.suffix_append _ _
  have hmem := hall _ h _ htail rfl
  simp only [List.mem_cons, List.not_mem_nil, or_false] at hmem
  rcases hmem with heq | heq <;> cases heq <;> rfl

/-! ## Escapes -/

theorem encode_of_forall {keep : Char → Bool} (h : ∀ c ∈ cs, keep c = true) :
    Percent.encode keep cs = cs := by
  induction cs with
  | nil => rfl
  | cons c cs ih =>
    obtain ⟨hc, hcs⟩ := List.forall_mem_cons.mp h
    rw [Percent.encode, List.flatMap_cons, if_pos hc, ← Percent.encode, ih hcs]
    rfl

/-- Only a dot has the byte of a dot. -/
theorem eq_dot_of_head_utf8 (h : (String.utf8EncodeChar c).head? = some 0x2E) : c = '.' := by
  have hbyte : ∀ k : Nat, UInt8.ofNat k = 0x2E ↔ k % 256 = 0x2E := by
    intro k
    rw [← UInt8.toNat_inj, UInt8.toNat_ofNat']
    rfl
  rw [String.utf8EncodeChar] at h
  split_ifs at h
  all_goals simp only [List.head?_cons, Option.some_inj, hbyte] at h
  -- all but the bytes of ASCII characters begin with a larger one
  · have hvalue : c.val.toNat = 0x2E := by omega
    exact Char.ext (UInt32.toNat_inj.mp hvalue)
  · omega
  · omega
  · omega

/-- The escape of a character that is not kept is found in the text. -/
theorem escape_infix_encode {keep : Char → Bool} (hc : c ∈ cs) (hkeep : keep c = false) :
    ∃ b, (String.utf8EncodeChar c).head? = some b ∧
      Percent.escape b <:+: Percent.encode keep cs := by
  cases hbytes : String.utf8EncodeChar c with
  | nil => exact absurd hbytes String.utf8EncodeChar_ne_nil
  | cons b bs =>
    obtain ⟨front, behind, rfl⟩ := List.append_of_mem hc
    refine ⟨b, rfl, Percent.encode keep front, bs.flatMap Percent.escape ++
      Percent.encode keep behind, ?_⟩
    simp [Percent.encode, hkeep, hbytes]

/-- **Nothing becomes dots by being escaped.** -/
theorem eq_of_encode_mem (h : Percent.encode Percent.isPathChar cs ∈ dotSegments) :
    Percent.encode Percent.isPathChar cs = cs := by
  refine encode_of_forall fun c hc => ?_
  by_contra hnot
  obtain ⟨b, hb, hfound⟩ := escape_infix_encode hc (Bool.eq_false_iff.mpr hnot)
  have hbyte := hexByte_of_infix h hfound
  rw [Percent.hexByte_upperHex, Option.some_inj] at hbyte
  rw [hbyte] at hb
  rw [eq_dot_of_head_utf8 hb] at hnot
  exact hnot rfl

theorem mem_encode {keep : Char → Bool} (h : c ∈ Percent.encode keep cs) :
    c ∈ cs ∧ keep c = true ∨ c = '%' ∨ Percent.isUpperHex c = true := by
  obtain ⟨d, hd, hc⟩ := List.mem_flatMap.mp h
  split at hc
  · next hkeep =>
    obtain rfl := List.mem_singleton.mp hc
    exact .inl ⟨hd, hkeep⟩
  · obtain ⟨b, -, hc⟩ := List.mem_flatMap.mp hc
    have hb := b.toNat_lt
    simp only [Percent.escape, List.mem_cons, List.not_mem_nil, or_false] at hc
    rcases hc with rfl | rfl | rfl
    · exact .inr (.inl rfl)
    · exact .inr (.inr (Percent.upperHex_spec (by omega)).2)
    · exact .inr (.inr (Percent.upperHex_spec (by omega)).2)

/-! ## What a segment looks like -/

/-- Visible ASCII: none of the characters that divide a URL, and none that a
path does not keep. -/
@[mk_iff]
structure IsSegmentChar (c : Char) : Prop where
  visible : 0x21 ≤ c.toNat ∧ c.toNat ≤ 0x7E
  no_divider : c ∉ ['/', '?', '#']
  kept : c ∉ ['\x22', '<', '>', '^', '\x60', '\x7b', '\x7d']

/-- The segment stands for itself. -/
structure IsSegment (cs : List Char) : Prop where
  chars : ∀ c ∈ cs, IsSegmentChar c
  no_dots : cs ∉ dotSegments

theorem isSegment_nil : IsSegment [] where
  chars := List.forall_mem_nil _
  no_dots := by decide

theorem isSegmentChar_iff_isPathChar :
    IsSegmentChar c ↔ Percent.isPathChar c = true ∧ c ≠ '/' := by
  have haccent : c.toNat = 0x60 ↔ c = '\x60' :=
    ⟨fun h => Char.ext (UInt32.toNat_inj.mp h), fun h => h ▸ rfl⟩
  simp only [isSegmentChar_iff, Percent.isPathChar, Bool.and_eq_true, decide_eq_true_eq,
    Bool.not_eq_true', Bool.or_eq_false_iff, beq_eq_false_iff_ne, List.mem_cons,
    List.not_mem_nil, or_false, not_or, ne_eq, haccent]
  tauto

/-- Letters and digits stand between the first digit and the last small
letter. -/
theorem toNat_of_isAlphanum (h : c.isAlphanum = true) : 48 ≤ c.toNat ∧ c.toNat ≤ 122 := by
  rcases Bool.or_eq_true_iff.mp h with halpha | hdigit
  · rcases Bool.or_eq_true_iff.mp halpha with hupper | hlower
    · obtain ⟨hlow, hhigh⟩ : c.val ≥ 65 ∧ c.val ≤ 90 := of_decide_eq_true hupper
      have hlow : 65 ≤ c.toNat := UInt32.le_iff_toNat_le.mp hlow
      have hhigh : c.toNat ≤ 90 := UInt32.le_iff_toNat_le.mp hhigh
      omega
    · obtain ⟨hlow, hhigh⟩ := Bool.and_eq_true_iff.mp hlower
      have hlow : 97 ≤ c.toNat := UInt32.le_iff_toNat_le.mp (of_decide_eq_true hlow)
      have hhigh : c.toNat ≤ 122 := UInt32.le_iff_toNat_le.mp (of_decide_eq_true hhigh)
      omega
  · obtain ⟨hlow, hhigh⟩ := Bool.and_eq_true_iff.mp hdigit
    have hlow : 48 ≤ c.toNat := UInt32.le_iff_toNat_le.mp (of_decide_eq_true hlow)
    have hhigh : c.toNat ≤ 57 := UInt32.le_iff_toNat_le.mp (of_decide_eq_true hhigh)
    omega

theorem isSegmentChar_of_isUnreserved (h : Percent.isUnreserved c = true) : IsSegmentChar c where
  visible := by
    simp only [Percent.isUnreserved, Bool.or_eq_true, beq_iff_eq] at h
    rcases h with (((halphanum | rfl) | rfl) | rfl) | rfl
    · obtain ⟨hlow, hhigh⟩ := toNat_of_isAlphanum halphanum
      exact ⟨by omega, by omega⟩
    all_goals decide
  no_divider := by
    intro hmem
    have hnone : ['/', '?', '#'].any Percent.isUnreserved = false := by decide
    exact List.any_eq_false.mp hnone c hmem h
  kept := by
    intro hmem
    have hnone : ['\x22', '<', '>', '^', '\x60', '\x7b', '\x7d'].any Percent.isUnreserved =
        false := by decide
    exact List.any_eq_false.mp hnone c hmem h

/-- **An escaped piece is a segment**, unless it is dots. -/
theorem isSegment_encode (hslash : '/' ∉ piece) (hdots : piece ∉ dotSegments) :
    IsSegment (Percent.encode Percent.isPathChar piece) where
  chars := by
    intro c hc
    rcases mem_encode hc with ⟨hmem, hkept⟩ | rfl | hhex
    · exact isSegmentChar_iff_isPathChar.mpr ⟨hkept, fun heq => hslash (heq ▸ hmem)⟩
    · exact isSegmentChar_iff_isPathChar.mpr ⟨rfl, by decide⟩
    · exact isSegmentChar_of_isUnreserved (Percent.isUnreserved_of_isUpperHex hhex)
  no_dots := fun h => hdots (eq_of_encode_mem h ▸ h)

/-- So is the drive of a file. -/
theorem isSegment_drive (h : isDrive piece = true) : IsSegment (piece.take 1 ++ [':']) := by
  match piece, h with
  | [a, b], h =>
    have ha : Percent.isUnreserved a = true := by
      have halpha := (Bool.and_eq_true_iff.mp h).1
      have halphanum : a.isAlphanum = true := Bool.or_eq_true_iff.mpr (.inl halpha)
      simp [Percent.isUnreserved, halphanum]
    have hcolon : ∀ cs ∈ dotSegments, ':' ∉ cs := by decide
    refine ⟨List.forall_mem_cons.mpr ⟨isSegmentChar_of_isUnreserved ha,
      List.forall_mem_singleton.mpr (isSegmentChar_iff_isPathChar.mpr ⟨rfl, by decide⟩)⟩,
      fun hmem => ?_⟩
    exact hcolon _ hmem (List.mem_append_right _ List.mem_cons_self)

/-! ## Segments that are put together -/

/-- Carrying out a piece leaves segments. -/
theorem isSegment_of_mem_addSegment (hdone : ∀ d ∈ done, IsSegment d) (hslash : '/' ∉ piece) :
    ∀ d ∈ addSegment file isLast done piece, IsSegment d := by
  have hclosed : ∀ done : List (List Char), (∀ d ∈ done, IsSegment d) →
      ∀ d ∈ if isLast then [] :: done else done, IsSegment d := by
    intro done hdone
    split
    · exact List.forall_mem_cons.mpr ⟨isSegment_nil, hdone⟩
    · exact hdone
  unfold addSegment
  dsimp only
  split
  · -- two dots take back the last segment
    refine hclosed _ ?_
    split
    · exact List.forall_mem_nil _
    · split
      · exact hdone
      · exact List.forall_mem_nil _
    · exact (List.forall_mem_cons.mp hdone).2
  next htwo =>
  split
  · exact hclosed done hdone
  next hone =>
  split
  · next hdrive =>
    simp only [Bool.and_eq_true] at hdrive
    exact List.forall_mem_singleton.mpr (isSegment_drive hdrive.2)
  · have hdots : piece ∉ dotSegments := fun hmem =>
      (mem_dotSegments.mp hmem).elim htwo hone
    exact List.forall_mem_cons.mpr ⟨isSegment_encode hslash hdots, hdone⟩

theorem isSegment_of_mem_addSegments (hdone : ∀ d ∈ done, IsSegment d)
    (hslash : ∀ piece ∈ pieces, '/' ∉ piece) :
    ∀ d ∈ addSegments file done pieces, IsSegment d := by
  fun_induction addSegments file done pieces with
  | case1 done => exact hdone
  | case2 done piece =>
    exact isSegment_of_mem_addSegment hdone (hslash piece List.mem_cons_self)
  | case3 done piece pieces hne ih =>
    obtain ⟨hpiece, hpieces⟩ := List.forall_mem_cons.mp hslash
    exact ih (isSegment_of_mem_addSegment hdone hpiece) hpieces

/-- Between slashes there is none. -/
theorem not_mem_of_mem_splitOnP (h : piece ∈ path.splitOnP (isSlash special)) : '/' ∉ piece := by
  have hslash : ∀ segment : List Char, (∀ c ∈ segment, isSlash special c = false) →
      '/' ∉ segment := fun segment hsegment hmem => Bool.noConfusion (hsegment _ hmem)
  induction path using Text.segment_induction (isSlash special) with
  | last segment hsegment =>
    rw [List.splitOnP_eq_singleton hsegment, List.mem_singleton] at h
    exact h ▸ hslash segment hsegment
  | more segment c cs hsegment hc ih =>
    rw [List.splitOnP_append_cons_of_forall_mem hsegment c hc, List.mem_cons] at h
    rcases h with rfl | h
    · exact hslash _ hsegment
    · exact ih h

/-- **A path is made of segments.** -/
theorem isSegment_of_mem_pathSegments : ∀ d ∈ pathSegments special file cs, IsSegment d := by
  intro d hd
  rw [pathSegments, List.mem_reverse] at hd
  exact isSegment_of_mem_addSegments (List.forall_mem_nil _) (fun _ => not_mem_of_mem_splitOnP) d hd

/-- A segment is read as it stands. -/
theorem pathSegments_of_isSegment (h : IsSegment cs)
    (hslash : ∀ c ∈ cs, isSlash special c = false) :
    pathSegments special false cs = [cs] := by
  have hpath : ∀ c ∈ cs, (c != '?' && c != '#') = true := by
    intro c hc
    have hdivider := (h.chars c hc).no_divider
    simp only [List.mem_cons, List.not_mem_nil, or_false, not_or] at hdivider
    simp [hdivider]
  have hkept : Percent.encode Percent.isPathChar cs = cs := encode_of_forall fun c hc =>
    (isSegmentChar_iff_isPathChar.mp (h.chars c hc)).1
  have hdots : ¬(isTwoDots cs = true ∨ isDot cs = true) := fun hdots =>
    h.no_dots (mem_dotSegments.mpr hdots)
  obtain ⟨htwo, hone⟩ := not_or.mp hdots
  rw [pathSegments, List.takeWhile_eq_self_iff.mpr hpath, List.splitOnP_eq_singleton hslash,
    addSegments, addSegment, if_neg htwo, if_neg hone, Bool.false_and, Bool.false_and,
    if_neg Bool.false_ne_true, hkept]
  rfl

/-- All segments of the URL stand for themselves. -/
def HasSegments (url : Url) : Prop :=
  ∀ d ∈ url.segments, IsSegment d

theorem hasSegments_of_parseAuthority (h : parseAuthority scheme cs = some url) :
    url.HasSegments := by
  unfold parseAuthority at h
  dsimp only at h
  split at h
  · cases h
  split at h
  · cases h
  · cases h
  · cases h
    show ∀ d ∈ _, IsSegment d
    split
    · split
      · exact List.forall_mem_singleton.mpr isSegment_nil
      · exact List.forall_mem_nil _
    · split_ifs
      · exact isSegment_of_mem_pathSegments
      · exact List.forall_mem_nil _
      · exact isSegment_of_mem_pathSegments

theorem hasSegments_file (hasHost : Bool) (cs : List Char) :
    HasSegments ⟨"file", hasHost, fileSegments cs⟩ := by
  cases cs <;> exact isSegment_of_mem_pathSegments

theorem hasSegments_of_parseFileHost (h : parseFileHost cs = some url) : url.HasSegments := by
  unfold parseFileHost at h
  dsimp only at h
  split_ifs at h
  · cases h
    exact isSegment_of_mem_pathSegments
  · cases h
    exact hasSegments_file _ _

theorem hasSegments_of_parseFile (h : parseFile cs = some url) : url.HasSegments := by
  unfold parseFile at h
  split at h
  · split at h
    · exact hasSegments_of_parseFileHost h
    · cases h
      exact hasSegments_file _ _
  · cases h
    exact hasSegments_file _ _

/-- **The path of a URL is made of segments**, from whatever text it is
read. -/
theorem hasSegments_of_parse (h : parse s = some url) : url.HasSegments := by
  unfold parse at h
  split at h
  · cases h
  split_ifs at h
  · exact hasSegments_of_parseFile h
  · exact hasSegments_of_parseAuthority h
  · split at h
    · exact hasSegments_of_parseAuthority h
    · cases h
      exact isSegment_of_mem_pathSegments
    · cases h
      exact List.forall_mem_nil _

end ShellPreview.Url
