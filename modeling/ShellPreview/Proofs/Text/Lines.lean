import ShellPreview.Proofs.Text.Segments
/-!
# Lines and remarks

A line feed breaks a line; whether other blanks do is left open
(`LineBreak`). A remark is a line that is empty or begins with `#`. What
stands behind a `#` on its line is a remark as far as its first line goes,
so all of it is if its further lines are remarks (`remarks_append_iff`).
-/

namespace ShellPreview.Text

/-- What may be taken for a line break: a line feed, and any other blanks
but a space. -/
structure LineBreak (isBreak : Char → Bool) : Prop where
  feed : isBreak '\n' = true
  space : isBreak ' ' = false
  blank : ∀ c, isBreak c = true → isBlank c = true

/-- A text that is on one line. -/
def Unbroken (isBreak : Char → Bool) (cs : List Char) : Prop :=
  ∀ c ∈ cs, isBreak c = false

/-- The lines of a text. -/
def lines (isBreak : Char → Bool) (cs : List Char) : List (List Char) :=
  cs.splitOnP isBreak

/-- A line that is empty or begins with the mark of a remark. -/
def IsRemark (line : List Char) : Prop :=
  ∀ c ∈ line.head?, c = '#'

/-- All lines of a text are remarks. -/
def Remarks (isBreak : Char → Bool) (cs : List Char) : Prop :=
  ∀ line ∈ lines isBreak cs, IsRemark line

/-- All lines of a text but the first one are remarks. -/
def FurtherRemarks (isBreak : Char → Bool) (cs : List Char) : Prop :=
  ∀ line ∈ (lines isBreak cs).tail, IsRemark line

instance (line : List Char) : Decidable (IsRemark line) :=
  match line with
  | [] => isTrue fun _ hc => nomatch hc
  | c :: _ => decidable_of_iff (c = '#')
    ⟨fun hmark _ hc => Option.some.inj hc ▸ hmark, fun h => h c rfl⟩

instance (isBreak : Char → Bool) (cs : List Char) : Decidable (Unbroken isBreak cs) :=
  List.decidableBAll (fun c => isBreak c = false) cs

variable {isBreak : Char → Bool} {a b cs : List Char} {c : Char}

/-! ## What breaks a line -/

/-- A space breaks no line, nor does a character that is no blank. -/
def staysInLine (c : Char) : Bool :=
  c == ' ' || !isBlank c

theorem LineBreak.eq_false (h : LineBreak isBreak) (hc : staysInLine c = true) :
    isBreak c = false := by
  rcases Bool.or_eq_true_iff.mp hc with hspace | hsolid
  · obtain rfl := beq_iff_eq.mp hspace
    exact h.space
  · refine Bool.eq_false_iff.mpr fun hbreak => ?_
    rw [h.blank c hbreak] at hsolid
    cases hsolid

/-- A text of such characters is on one line. -/
theorem LineBreak.unbroken (h : LineBreak isBreak) (hcs : cs.all staysInLine = true) :
    Unbroken isBreak cs :=
  fun c hc => h.eq_false (List.all_eq_true.mp hcs c hc)

theorem unbroken_append_iff :
    Unbroken isBreak (a ++ b) ↔ Unbroken isBreak a ∧ Unbroken isBreak b :=
  List.forall_mem_append

/-! ## Lines of texts that are put together -/

theorem lines_of_unbroken (h : Unbroken isBreak cs) : lines isBreak cs = [cs] :=
  List.splitOnP_eq_singleton h

theorem lines_segment_cons (ha : Unbroken isBreak a) (hc : isBreak c = true) (cs : List Char) :
    lines isBreak (a ++ c :: cs) = a :: lines isBreak cs :=
  List.splitOnP_append_cons_of_forall_mem ha c hc cs

theorem lines_append_cons (hc : isBreak c = true) (a cs : List Char) :
    lines isBreak (a ++ c :: cs) = lines isBreak a ++ lines isBreak cs :=
  List.splitOnP_append_cons a cs hc

/-- What is in front of a text stands on its first line. -/
theorem lines_unbroken_append (ha : Unbroken isBreak a) (cs : List Char) :
    ∃ line more, lines isBreak cs = line :: more ∧
      lines isBreak (a ++ cs) = (a ++ line) :: more := by
  induction cs using segment_induction isBreak with
  | last segment hsegment =>
    exact ⟨segment, [], lines_of_unbroken hsegment,
      lines_of_unbroken (unbroken_append_iff.mpr ⟨ha, hsegment⟩)⟩
  | more segment c cs hsegment hc ih =>
    have hlonger : Unbroken isBreak (a ++ segment) := (unbroken_append_iff).mpr ⟨ha, hsegment⟩
    refine ⟨segment, lines isBreak cs, lines_segment_cons hsegment hc cs, ?_⟩
    rw [← List.append_assoc, lines_segment_cons hlonger hc]

/-- What is behind it stands on its last line. -/
theorem lines_append_unbroken (hb : Unbroken isBreak b) (cs : List Char) :
    ∃ front line, lines isBreak cs = front ++ [line] ∧
      lines isBreak (cs ++ b) = front ++ [line ++ b] := by
  induction cs using segment_induction isBreak with
  | last segment hsegment =>
    exact ⟨[], segment, lines_of_unbroken hsegment,
      lines_of_unbroken (unbroken_append_iff.mpr ⟨hsegment, hb⟩)⟩
  | more segment c cs hsegment hc ih =>
    obtain ⟨front, line, hcs, hlonger⟩ := ih
    refine ⟨segment :: front, line, ?_, ?_⟩
    · rw [lines_segment_cons hsegment hc, hcs, List.cons_append]
    · rw [List.append_assoc, List.cons_append, lines_segment_cons hsegment hc, hlonger,
        List.cons_append]

/-- **Texts with line feeds between them** have the lines of each. -/
theorem lines_intercalate (hfeed : isBreak '\n' = true) {texts : List (List Char)}
    (hne : texts ≠ []) :
    lines isBreak (['\n'].intercalate texts) = texts.flatMap (lines isBreak) := by
  induction texts with
  | nil => exact absurd rfl hne
  | cons text texts ih =>
    cases texts with
    | nil => rw [List.intercalate_singleton, List.flatMap_singleton]
    | cons next texts =>
      rw [List.intercalate_cons_cons, List.append_assoc, List.singleton_append,
        lines_append_cons hfeed, ih (List.cons_ne_nil _ _)]
      exact List.flatMap_cons.symm

/-! ## Remarks -/

theorem remarks_of_unbroken (h : Unbroken isBreak cs) :
    Remarks isBreak cs ↔ IsRemark cs := by
  rw [Remarks, lines_of_unbroken h, List.forall_mem_singleton]

/-- **What is behind the mark of a remark** is all remarks if its further
lines are. -/
theorem remarks_append_iff (ha : Unbroken isBreak a) (hmark : a.head? = some '#')
    (cs : List Char) : Remarks isBreak (a ++ cs) ↔ FurtherRemarks isBreak cs := by
  obtain ⟨line, more, hcs, happend⟩ := lines_unbroken_append ha cs
  have hfirst : IsRemark (a ++ line) := by
    intro c hc
    rw [List.head?_append, hmark] at hc
    exact (Option.some.inj hc).symm
  rw [Remarks, happend, List.forall_mem_cons, and_iff_right hfirst, FurtherRemarks, hcs,
    List.tail_cons]

theorem furtherRemarks_of_unbroken (h : Unbroken isBreak cs) : FurtherRemarks isBreak cs := by
  rw [FurtherRemarks, lines_of_unbroken h]
  exact List.forall_mem_nil _

/-- Something behind a text does not make its lines remarks. -/
theorem FurtherRemarks.of_append (hb : Unbroken isBreak b)
    (h : FurtherRemarks isBreak (cs ++ b)) : FurtherRemarks isBreak cs := by
  obtain ⟨front, line, hcs, happend⟩ := lines_append_unbroken hb cs
  have hline : IsRemark (line ++ b) → IsRemark line := by
    intro hremark c hc
    refine hremark c ?_
    rw [List.head?_append, hc]
    rfl
  rw [FurtherRemarks, happend] at h
  rw [FurtherRemarks, hcs]
  cases front with
  | nil => exact List.forall_mem_nil _
  | cons first front =>
    rw [List.cons_append, List.tail_cons, List.forall_mem_append, List.forall_mem_singleton] at h ⊢
    exact ⟨h.1, hline h.2⟩

end ShellPreview.Text
