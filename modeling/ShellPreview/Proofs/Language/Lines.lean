import Mathlib.Data.List.Nodup
import Mathlib.Order.Bounds.Basic
import ShellPreview.Language
import ShellPreview.Proofs.Text.Parts
/-!
# Languages — line by line

Code shows the languages of which it has a marker, and all code shows
text. The language of code is the first one that it shows
(`isLeast_detect`). No marker has a line feed in it, so lines show together
what any of them shows by itself, and the language of code is the first one
of its lines.
-/

namespace ShellPreview.Language

/-- How many languages are tried before a language. -/
def rank : Language → Nat
  | .bash => 0
  | .powerShell => 1
  | .python => 2
  | .javaScript => 3
  | .c => 4
  | .java => 5
  | .text => 6

/-- The languages are tried in the order of their ranks. -/
theorem pairwise_rank_all : all.Pairwise fun l k => l.rank < k.rank := by
  decide

theorem mem_all (l : Language) : l ∈ all := by
  cases l <;> decide

theorem rank_injective : Function.Injective rank := by
  intro l k h
  have hnodup : (all.map rank).Nodup := by decide
  exact List.inj_on_of_nodup_map hnodup (mem_all l) (mem_all k) h

/-- A language is less than those that are tried after it. -/
instance : LinearOrder Language :=
  LinearOrder.lift' rank rank_injective

theorem le_iff_rank_le {l k : Language} : l ≤ k ↔ l.rank ≤ k.rank :=
  Iff.rfl

/-- Plain text comes last. -/
theorem le_text (l : Language) : l ≤ .text := by
  rw [le_iff_rank_le]
  cases l <;> decide

/-! ## What code shows -/

/-- Code shows a language if it has a marker of it, and all code shows
text. -/
def Shows (code : String) (l : Language) : Prop :=
  l = .text ∨ ∃ marker ∈ l.markers, marker.toList <:+: code.toList

variable {code : String} {l : Language}

theorem marks_iff : l.marks code = true ↔ ∃ marker ∈ l.markers, marker.toList <:+: code.toList := by
  simp only [marks, List.any_eq_true, Text.holds_iff]

/-- **The language of code is the first one that it shows.** -/
theorem isLeast_detect (code : String) : IsLeast {l | Shows code l} (detect code) := by
  rcases hfind : all.find? fun l => l.marks code with - | l
  · -- nothing but text is shown
    have hdetect : detect code = .text := by rw [detect, hfind, Option.getD_none]
    rw [hdetect]
    rw [List.find?_eq_none] at hfind
    refine ⟨.inl rfl, fun k hk => ?_⟩
    rcases hk with rfl | hk
    · exact le_refl _
    · exact absurd (marks_iff.mpr hk) (hfind k (mem_all k))
  · have hdetect : detect code = l := by rw [detect, hfind, Option.getD_some]
    rw [hdetect]
    obtain ⟨hl, front, behind, hall, hfront⟩ := List.find?_eq_some_iff_append.mp hfind
    refine ⟨.inr (marks_iff.mp hl), fun k hk => ?_⟩
    rcases hk with rfl | hk
    · exact le_text l
    · -- what is shown is not in front of it, and what is behind it has a greater rank
      have hmem := mem_all k
      have horder := pairwise_rank_all
      rw [hall] at hmem horder
      rcases List.mem_append.mp hmem with hmem | hmem
      · have hno := hfront k hmem
        rw [(marks_iff).mpr hk] at hno
        cases hno
      · have hbehind := (List.pairwise_cons.mp (List.pairwise_append.mp horder).2.1).1
        rcases List.mem_cons.mp hmem with rfl | hmem
        · exact le_refl k
        · exact le_iff_rank_le.mpr (hbehind k hmem).le

/-! ## Code that is put together -/

/-- Code shows what a part of it shows. -/
theorem Shows.of_part {part : String} (h : Shows part l) (hpart : part.toList <:+: code.toList) :
    Shows code l := by
  rcases h with rfl | ⟨marker, hmarker, hin⟩
  · exact .inl rfl
  · exact .inr ⟨marker, hmarker, hin.trans hpart⟩

/-- A marker is on one line. -/
theorem marker_spec {marker : String} (h : marker ∈ l.markers) :
    marker.toList ≠ [] ∧ '\n' ∉ marker.toList := by
  have hall : ∀ l ∈ all, ∀ marker ∈ l.markers, marker.toList ≠ [] ∧ '\n' ∉ marker.toList := by
    decide
  exact hall l (mem_all l) marker h

/-- **Lines show together what one of them shows.** -/
theorem shows_lines_iff {lines : List String} (hne : lines ≠ []) :
    Shows ("\n".intercalate lines) l ↔ ∃ line ∈ lines, Shows line l := by
  have hmarker : ∀ marker ∈ l.markers, marker.toList <:+: ("\n".intercalate lines).toList ↔
      ∃ line ∈ lines, marker.toList <:+: line.toList := by
    intro marker hmarker
    obtain ⟨hsome, hfeed⟩ := marker_spec hmarker
    rw [String.toList_intercalate]
    have htext : "\n".toList = ['\n'] := rfl
    rw [htext, Text.infix_lines_iff hsome hfeed]
    simp only [List.mem_map, exists_exists_and_eq_and]
  constructor
  · rintro (rfl | ⟨marker, hmem, hin⟩)
    · obtain ⟨line, hline⟩ := List.exists_mem_of_ne_nil lines hne
      exact ⟨line, hline, .inl rfl⟩
    · obtain ⟨line, hline, hpart⟩ := (hmarker marker hmem).mp hin
      exact ⟨line, hline, .inr ⟨marker, hmem, hpart⟩⟩
  · rintro ⟨line, hline, rfl | ⟨marker, hmem, hin⟩⟩
    · exact .inl rfl
    · exact .inr ⟨marker, hmem, (hmarker marker hmem).mpr ⟨line, hline, hin⟩⟩

/-- **The language of lines is the first one of theirs.** -/
theorem isLeast_detect_lines {lines : List String} (hne : lines ≠ []) :
    IsLeast (detect '' {line | line ∈ lines}) (detect ("\n".intercalate lines)) := by
  obtain ⟨hshows, hle⟩ := isLeast_detect ("\n".intercalate lines)
  -- what a line shows is shown by all of them together
  have hlower : ∀ line ∈ lines, detect ("\n".intercalate lines) ≤ detect line := by
    intro line hline
    have hline' := (isLeast_detect line).1
    exact hle ((shows_lines_iff hne).mpr ⟨line, hline, hline'⟩)
  constructor
  · obtain ⟨line, hline, hshown⟩ := (shows_lines_iff hne).mp hshows
    exact ⟨line, hline, le_antisymm ((isLeast_detect line).2 hshown) (hlower line hline)⟩
  · rintro _ ⟨line, hline, rfl⟩
    exact hlower line hline

/-- **Languages are found line by line.** The language of lines with line
feeds between them is the first one in the order of the languages of the
lines, and text if there are no lines. So it does not depend on the order
of the lines or on how often there is a line, and more text behind code
only moves its language to the front. -/
theorem detect_line_by_line :
    (∀ lines : List String, lines ≠ [] →
        IsLeast (detect '' {line | line ∈ lines}) (detect ("\n".intercalate lines))) ∧
      detect ("\n".intercalate []) = .text ∧
      (∀ lines lines' : List String, (∀ line, line ∈ lines ↔ line ∈ lines') →
        detect ("\n".intercalate lines) = detect ("\n".intercalate lines')) ∧
      ∀ code more : String, detect (code ++ more) ≤ detect code := by
  refine ⟨fun lines hne => isLeast_detect_lines hne, by decide, fun lines lines' hsame => ?_,
    fun code more => ?_⟩
  · -- the same lines have the same languages, of which there is one least
    have hset : {line | line ∈ lines} = {line | line ∈ lines'} := Set.ext hsame
    rcases lines with - | ⟨first, lines⟩
    · obtain rfl : lines' = [] := List.eq_nil_iff_forall_not_mem.mpr fun line hline =>
        List.not_mem_nil ((hsame line).mpr hline)
      rfl
    · have hne : lines' ≠ [] := List.ne_nil_of_mem ((hsame first).mp List.mem_cons_self)
      have hleast := isLeast_detect_lines (List.cons_ne_nil first lines)
      rw [hset] at hleast
      exact hleast.unique (isLeast_detect_lines hne)
  · have hpart : code.toList <:+: (code ++ more).toList := by
      rw [String.toList_append]
      exact (List.prefix_append _ _).isInfix
    exact (isLeast_detect code).mono (isLeast_detect (code ++ more)) fun _ h => h.of_part hpart

/-- Lines of text, Python and PowerShell are PowerShell, in any order. -/
theorem detect_line_by_line_samples :
    detect ("\n".intercalate ["x = 1", "import os", "$x"]) ∈
        detect '' {line | line ∈ ["x = 1", "import os", "$x"]} ∧
      detect ("\n".intercalate ["x = 1", "import os", "$x"]) =
        detect ("\n".intercalate ["$x", "import os", "$x", "x = 1"]) ∧
      detect ("\n".intercalate ["$x", "import os", "$x", "x = 1"]) = .powerShell := by
  obtain ⟨hleast, -, hsame, -⟩ := detect_line_by_line
  refine ⟨(hleast _ (by decide)).1, hsame _ _ fun line => ?_, by decide⟩
  simp only [List.mem_cons, List.not_mem_nil, or_false]
  tauto

end ShellPreview.Language
