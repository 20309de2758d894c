import Mathlib.Data.List.Infix
import ShellPreview.Proofs.Text.Words
/-!
# Parts of a text that is put together

A part of a text stands on one side of a cut if it does not have the two
characters at the cut next to each other (`infix_cut_iff`), and behind all
of what lacks its first character (`infix_append_of_not_mem_iff`). A pipe
with a word behind it is such a part: it stands in front of a piece
between blanks or behind it (`piped_infix_iff`).
-/

namespace ShellPreview.Text

variable {needle a b cs before piece behind word : List Char} {x y : Char}

/-- What does not have two characters next to each other ends in front of
the place where they are. -/
theorem prefix_cut (h : ¬[x, y] <:+: needle) (hfront : needle <+: (a ++ [x]) ++ y :: cs) :
    needle <+: a ++ [x] := by
  rcases Nat.lt_or_ge (a ++ [x]).length needle.length with hlong | hshort
  · -- a longer text has both characters
    have hboth : a ++ [x, y] <+: (a ++ [x]) ++ y :: cs := ⟨cs, by simp⟩
    have hlength : (a ++ [x, y]).length ≤ needle.length := by
      simp only [List.length_append, List.length_cons, List.length_nil] at hlong ⊢
      omega
    have hpart := List.prefix_of_prefix_length_le hboth hfront hlength
    exact absurd ((List.suffix_append a _).isInfix.trans hpart.isInfix) h
  · exact List.prefix_of_prefix_length_le hfront (List.prefix_append _ _) hshort

/-- **A part stands on one side of a cut** if it does not have the
characters at the cut next to each other. -/
theorem infix_cut_iff (h : ¬[x, y] <:+: needle) :
    needle <:+: (a ++ [x]) ++ y :: cs ↔ needle <:+: a ++ [x] ∨ needle <:+: y :: cs := by
  constructor
  · intro hpart
    induction a with
    | nil =>
      rcases List.infix_cons_iff.mp hpart with hfront | hbehind
      · exact .inl (prefix_cut (a := []) h hfront).isInfix
      · exact .inr hbehind
    | cons z a ih =>
      rcases List.infix_cons_iff.mp hpart with hfront | hbehind
      · exact .inl (prefix_cut (a := z :: a) h hfront).isInfix
      · exact (ih hbehind).imp_left List.infix_cons
  · rintro (hpart | hpart)
    · exact hpart.trans (List.prefix_append _ _).isInfix
    · exact hpart.trans (List.suffix_append _ _).isInfix

/-- **A part begins behind all of what lacks its first character.** -/
theorem infix_append_of_not_mem_iff (hx : x ∉ a) :
    x :: needle <:+: a ++ b ↔ x :: needle <:+: b := by
  induction a with
  | nil => rfl
  | cons z a ih =>
    have ha := List.not_mem_of_not_mem_cons hx
    rw [List.cons_append, List.infix_cons_iff, ih ha, List.cons_prefix_cons]
    exact or_iff_right fun hfront => List.ne_of_not_mem_cons hx hfront.1

/-- A part without line feeds stands in front of a line feed or behind it. -/
theorem infix_feed_iff (hfeed : '\n' ∉ needle) :
    needle <:+: a ++ '\n' :: b ↔ needle <:+: a ∨ needle <:+: b := by
  constructor
  · intro hpart
    rcases List.infix_append_iff.mp hpart with hin | hin | ⟨front, back, rfl, hfront, hback⟩
    · exact .inl hin
    · rcases List.infix_cons_iff.mp hin with hback | hin
      · cases needle with
        | nil => exact .inl List.nil_infix
        | cons c needle =>
          obtain ⟨rfl, -⟩ := List.cons_prefix_cons.mp hback
          exact absurd List.mem_cons_self hfeed
      · exact .inr hin
    -- a part over the line feed would have it
    · cases back with
      | nil => exact .inl (by simpa using hfront.isInfix)
      | cons c back =>
        obtain ⟨rfl, -⟩ := List.cons_prefix_cons.mp hback
        exact absurd (List.mem_append_right front List.mem_cons_self) hfeed
  · rintro (hpart | hpart)
    · exact hpart.trans (List.prefix_append _ _).isInfix
    · exact hpart.trans (List.suffix_append_of_suffix (List.suffix_cons _ _)).isInfix

/-- **A part on one line is a part of one of the lines.** -/
theorem infix_lines_iff (hne : needle ≠ []) (hfeed : '\n' ∉ needle) {lines : List (List Char)} :
    needle <:+: ['\n'].intercalate lines ↔ ∃ line ∈ lines, needle <:+: line := by
  induction lines with
  | nil => simp [hne]
  | cons line lines ih =>
    cases lines with
    | nil => simp
    | cons line' lines =>
      rw [List.intercalate_cons_cons, List.append_assoc, List.singleton_append,
        infix_feed_iff hfeed, ih]
      exact (List.exists_mem_cons_iff _ line _).symm

/-- A word behind a pipe and a space has a blank only in front of its first
character. -/
theorem not_infix_piped (hx : isBlank x = true) (hword : ∀ c ∈ word, isBlank c = false)
    (hy : word.head? ≠ some y) : ¬[x, y] <:+: '|' :: ' ' :: word := by
  intro hpart
  rcases List.infix_cons_iff.mp hpart with hfront | hpart
  · obtain ⟨rfl, -⟩ := List.cons_prefix_cons.mp hfront
    cases hx
  rcases List.infix_cons_iff.mp hpart with hfront | hpart
  · obtain ⟨-, r, rfl⟩ := List.cons_prefix_cons.mp hfront
    exact hy rfl
  · have hnot := hword x (hpart.subset List.mem_cons_self)
    rw [hx] at hnot
    cases hnot

/-- **A pipe with a word behind it** stands in front of a piece without
pipes or behind it, if there is a blank in front of the piece and the word
does not begin as the piece does. -/
theorem piped_infix_iff (hbefore : EndsAtStop isBlank before) (hpipe : '|' ∉ y :: piece)
    (hword : ∀ c ∈ word, isBlank c = false) (hy : word.head? ≠ some y) :
    '|' :: ' ' :: word <:+: before ++ (y :: piece ++ behind) ↔
      '|' :: ' ' :: word <:+: before ∨ '|' :: ' ' :: word <:+: behind := by
  obtain ⟨front, x, rfl, hx⟩ := hbefore
  rw [List.cons_append, infix_cut_iff (not_infix_piped hx hword hy), ← List.cons_append,
    infix_append_of_not_mem_iff hpipe]

end ShellPreview.Text
