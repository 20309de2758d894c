import Mathlib.Data.List.Infix
import ShellPreview.Proofs.Text.Blank
import ShellPreview.Proofs.Text.Segments
/-!
# Words of a text that is put together

Blanks divide a text in two as far as its words go (`words_append_cons`).
So blanks at the ends do not count (`words_trim`), words with single
blanks between them are the words of what they make up (`words_spaced`),
and every word stands in the text (`isInfix_of_mem_words`).
-/

namespace ShellPreview.Text

variable {a cs w : List Char} {c : Char} {ws : List (List Char)}

/-- **The words in front of a blank and behind it** are all words. -/
theorem words_append_cons (hc : isBlank c = true) (a cs : List Char) :
    words (a ++ c :: cs) = words a ++ words cs := by
  rw [words, List.splitOnP_append_cons a cs hc, List.filter_append]
  rfl

theorem words_append_of_atStop (a : List Char) (hcs : AtStop isBlank cs) :
    words (a ++ cs) = words a ++ words cs := by
  cases cs with
  | nil =>
    have hnil : words [] = [] := rfl
    rw [hnil, List.append_nil, List.append_nil]
  | cons c cs =>
    have hc : isBlank c = true := hcs c rfl
    rw [words_append_cons hc, words_cons_of_blank hc]

theorem words_append_of_endsAtStop (ha : EndsAtStop isBlank a) (cs : List Char) :
    words (a ++ cs) = words a ++ words cs := by
  obtain ⟨front, c, rfl, hc⟩ := ha
  have hfront : words (front ++ [c]) = words front ++ words [] := words_append_cons hc front []
  have hall : words (front ++ c :: cs) = words front ++ words cs := words_append_cons hc front cs
  rw [List.append_assoc, List.singleton_append, hall, hfront]
  exact congrArg (· ++ words cs) (List.append_nil _).symm

/-- The words of a text with blanks around its middle part. -/
theorem words_between {before piece behind : List Char} (hbefore : EndsAtStop isBlank before)
    (hbehind : AtStop isBlank behind) :
    words (before ++ (piece ++ behind)) = words before ++ (words piece ++ words behind) := by
  rw [words_append_of_endsAtStop hbefore, words_append_of_atStop _ hbehind]

theorem words_of_blanks (h : ∀ c ∈ cs, isBlank c = true) : words cs = [] := by
  induction cs with
  | nil => rfl
  | cons c cs ih =>
    obtain ⟨hc, hcs⟩ := List.forall_mem_cons.mp h
    rw [words_cons_of_blank hc, ih hcs]

/-- What a text without the blanks at its end lacks. -/
theorem trimEnd_append (cs : List Char) :
    ∃ blanks, cs = trimEnd cs ++ blanks ∧ ∀ c ∈ blanks, isBlank c = true := by
  refine ⟨(cs.reverse.takeWhile isBlank).reverse, ?_, fun c hc => ?_⟩
  · rw [trimEnd, ← List.reverse_append, List.takeWhile_append_dropWhile, List.reverse_reverse]
  · exact List.mem_takeWhile_imp (List.mem_reverse.mp hc)

/-- **Blanks at the ends do not count.** -/
theorem words_trim (cs : List Char) : words (trim cs) = words cs := by
  obtain ⟨blanks, hcs, hblanks⟩ := trimEnd_append (trimStart cs)
  have hstop : AtStop isBlank blanks := fun c hc =>
    hblanks c (List.mem_of_mem_head? (Option.mem_def.mp hc))
  calc words (trim cs)
      = words (trim cs) ++ words blanks := by rw [words_of_blanks hblanks, List.append_nil]
    _ = words (trim cs ++ blanks) := (words_append_of_atStop _ hstop).symm
    _ = words (trimStart cs) := by rw [trim, ← hcs]
    _ = words cs := words_dropWhile_isBlank cs

theorem words_trimmed (s : String) : words (trimmed s).toList = words s.toList := by
  rw [trimmed, String.toList_ofList, words_trim]

theorem eq_of_mem_words_segment {segment : List Char}
    (hsegment : ∀ c ∈ segment, isBlank c = false) (hw : w ∈ words segment) : w = segment := by
  rw [words_segment hsegment] at hw
  split at hw
  · cases hw
  · exact List.mem_singleton.mp hw

/-- **A word is a part of the text.** -/
theorem isInfix_of_mem_words (hw : w ∈ words cs) : w <:+: cs := by
  induction cs using segment_induction isBlank with
  | last segment hsegment =>
    obtain rfl := eq_of_mem_words_segment hsegment hw
    exact List.infix_refl _
  | more segment c cs hsegment hc ih =>
    rw [words_append_cons hc, List.mem_append] at hw
    rcases hw with hw | hw
    · obtain rfl := eq_of_mem_words_segment hsegment hw
      exact (List.prefix_append _ _).isInfix
    · have hbehind : cs <:+ segment ++ c :: cs :=
        (List.suffix_cons c cs).trans (List.suffix_append segment _)
      exact (ih hw).trans hbehind.isInfix

/-- No blank is a printed character of ASCII. -/
theorem isBlank_of_printed (hlow : 33 ≤ c.toNat) (hhigh : c.toNat ≤ 126) : isBlank c = false := by
  cases hblank : isBlank c with
  | false => rfl
  | true =>
    simp only [isBlank, Bool.or_eq_true, Bool.and_eq_true, decide_eq_true_eq, beq_iff_eq] at hblank
    omega

theorem isBlank_of_isDigit (hc : c.isDigit = true) : isBlank c = false := by
  obtain ⟨hlow, hhigh⟩ := Bool.and_eq_true_iff.mp hc
  have hlow : 48 ≤ c.toNat := UInt32.le_iff_toNat_le.mp (of_decide_eq_true hlow)
  have hhigh : c.toNat ≤ 57 := UInt32.le_iff_toNat_le.mp (of_decide_eq_true hhigh)
  exact isBlank_of_printed (by omega) (by omega)

theorem isBlank_of_isAlpha (hc : c.isAlpha = true) : isBlank c = false := by
  rcases Bool.or_eq_true_iff.mp hc with hupper | hlower
  · obtain ⟨hlow, hhigh⟩ := of_decide_eq_true hupper
    have hlow : 65 ≤ c.toNat := UInt32.le_iff_toNat_le.mp hlow
    have hhigh : c.toNat ≤ 90 := UInt32.le_iff_toNat_le.mp hhigh
    exact isBlank_of_printed (by omega) (by omega)
  · obtain ⟨hlow, hhigh⟩ := Bool.and_eq_true_iff.mp hlower
    have hlow : 97 ≤ c.toNat := UInt32.le_iff_toNat_le.mp (of_decide_eq_true hlow)
    have hhigh : c.toNat ≤ 122 := UInt32.le_iff_toNat_le.mp (of_decide_eq_true hhigh)
    exact isBlank_of_printed (by omega) (by omega)

/-- What is a word wherever it stands alone: it is not empty and has no
blanks. -/
def IsWord (w : List Char) : Prop :=
  w ≠ [] ∧ ∀ c ∈ w, isBlank c = false

instance (w : List Char) : Decidable (IsWord w) :=
  decidable_of_iff (w ≠ [] ∧ (w.all fun c => !isBlank c) = true) (by simp [IsWord])

theorem IsWord.words_eq (hw : IsWord w) : words w = [w] := by
  rw [words_segment hw.2, if_neg hw.1]

/-- A word in front of a blank is one of the words, -/
theorem IsWord.mem_words_of_front (hw : IsWord w) (h : w ++ [' '] <+: cs) : w ∈ words cs := by
  obtain ⟨rest, rfl⟩ := h
  have hspace : isBlank ' ' = true := rfl
  rw [List.append_assoc, List.singleton_append, words_append_cons hspace, hw.words_eq]
  exact List.mem_append_left _ (List.mem_singleton_self w)

/-- and so is a word between blanks. -/
theorem IsWord.mem_words_of_part (hw : IsWord w) (h : ' ' :: (w ++ [' ']) <:+: cs) :
    w ∈ words cs := by
  obtain ⟨front, rest, rfl⟩ := h
  have hspace : isBlank ' ' = true := rfl
  have hmem : w ∈ words (w ++ [' '] ++ rest) :=
    hw.mem_words_of_front (List.prefix_append _ _)
  rw [List.append_assoc, List.cons_append, words_append_cons hspace]
  exact List.mem_append_right _ hmem

/-- **Words with single blanks between them** are the words of what they
make up, whatever comes behind. -/
theorem words_spaced (hws : ∀ w ∈ ws, IsWord w) (hcs : AtStop isBlank cs) :
    words ([' '].intercalate ws ++ cs) = ws ++ words cs := by
  rw [words_append_of_atStop _ hcs]
  congr 1
  induction ws with
  | nil => rfl
  | cons w ws ih =>
    obtain ⟨hw, hws⟩ := List.forall_mem_cons.mp hws
    cases ws with
    | nil => rw [List.intercalate_singleton, hw.words_eq]
    | cons v ws =>
      have hspace : isBlank ' ' = true := rfl
      rw [List.intercalate_cons_cons, List.append_assoc, List.singleton_append,
        words_append_cons hspace, hw.words_eq, ih hws]
      rfl

/-- Nothing in front of a character that is no blank is taken away. -/
theorem trimEnd_append_cons (hc : isBlank c = false) (a cs : List Char) :
    trimEnd (a ++ c :: cs) = a ++ c :: trimEnd cs := by
  have hkept : (c :: a.reverse).dropWhile isBlank = c :: a.reverse :=
    List.dropWhile_cons_of_neg (by simp [hc])
  have hreverse : (a ++ c :: cs).reverse = cs.reverse ++ c :: a.reverse := by simp
  have hdrop : (cs.reverse ++ c :: a.reverse).dropWhile isBlank =
      cs.reverse.dropWhile isBlank ++ c :: a.reverse := by
    rw [List.dropWhile_append, hkept]
    split
    · next hempty => rw [List.isEmpty_iff.mp hempty, List.nil_append]
    · rfl
  rw [trimEnd, hreverse, hdrop, trimEnd, List.reverse_append, List.reverse_cons,
    List.reverse_reverse, List.append_assoc, List.singleton_append]

/-- The first of several words still has a blank behind it. -/
theorem prefix_trim_spaced {v : List Char} (hw : IsWord w) (hv : IsWord v)
    (ws : List (List Char)) (cs : List Char) :
    w ++ [' '] <+: trim ([' '].intercalate (w :: v :: ws) ++ cs) := by
  obtain ⟨hne, hblank⟩ := hw
  obtain ⟨b, bs, rfl⟩ := List.exists_cons_of_ne_nil hne
  obtain ⟨d, ds, rfl⟩ := List.exists_cons_of_ne_nil hv.1
  have hsecond : ∃ rest, [' '].intercalate ((d :: ds) :: ws) = d :: rest := by
    cases ws with
    | nil => exact ⟨ds, List.intercalate_singleton⟩
    | cons u ws => exact ⟨_, List.intercalate_cons_cons⟩
  obtain ⟨rest, hrest⟩ := hsecond
  have hfirst : isBlank b = false := hblank b List.mem_cons_self
  have hd : isBlank d = false := hv.2 d List.mem_cons_self
  have htext : [' '].intercalate ((b :: bs) :: (d :: ds) :: ws) ++ cs =
      (b :: bs ++ [' ']) ++ d :: (rest ++ cs) := by
    rw [List.intercalate_cons_cons, hrest]
    simp
  have hstart : trimStart ((b :: bs ++ [' ']) ++ d :: (rest ++ cs)) =
      (b :: bs ++ [' ']) ++ d :: (rest ++ cs) :=
    List.dropWhile_cons_of_neg (by simp [hfirst])
  rw [htext, trim, hstart, trimEnd_append_cons hd]
  exact List.prefix_append _ _

end ShellPreview.Text
