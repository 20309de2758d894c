import ShellPreview.Command
import ShellPreview.Proofs.Text.Parts
/-!
# Pipes to what runs a download

A pipe counts only with one blank behind it and the name of a shell, or of
what evaluates PowerShell, behind the blank. It stands in front of a piece
of a command or behind it, never in part in the piece (`piped_around_iff`).
-/

namespace ShellPreview.Command

variable {targets : List (List Char)} {before piece behind : List Char} {command : String}

/-- What runs the code that a pipe leads to it. -/
def shells : List (List Char) :=
  ["bash".toList, "sh".toList]

/-- What runs it in PowerShell. -/
def evaluators : List (List Char) :=
  ["iex".toList, "Invoke-Expression".toList]

/-- A pipe leads to one of the targets. -/
def Piped (targets : List (List Char)) (cs : List Char) : Prop :=
  ∃ target ∈ targets, '|' :: ' ' :: target <:+: cs

/-- A piece has no pipe, and begins as none of the targets does. -/
def Clear (targets : List (List Char)) (piece : List Char) : Prop :=
  '|' ∉ piece ∧ ∃ c cs, piece = c :: cs ∧ ∀ target ∈ targets, target.head? ≠ some c

instance (targets : List (List Char)) (piece : List Char) : Decidable (Clear targets piece) :=
  match piece with
  | [] => isFalse fun h => by obtain ⟨-, c, cs, heq, -⟩ := h; cases heq
  | c :: cs => decidable_of_iff
      ('|' ∉ c :: cs ∧ ∀ target ∈ targets, target.head? ≠ some c) (by
        refine and_congr_right fun _ => ⟨fun hhead => ⟨c, cs, rfl, hhead⟩, ?_⟩
        rintro ⟨c', cs', heq, hhead⟩
        cases heq
        exact hhead)

theorem pipesToShell_iff : pipesToShell command = true ↔ Piped shells command.toList := by
  simp [pipesToShell, Text.holds_iff, Piped, shells]

theorem piped_evaluators_iff :
    (Text.holds command "| iex" || Text.holds command "| Invoke-Expression") = true ↔
      Piped evaluators command.toList := by
  simp [Text.holds_iff, Piped, evaluators]

/-- **A piece that is clear does not change where pipes lead**, if there is
a blank in front of it. -/
theorem piped_around_iff (htargets : ∀ target ∈ targets, Text.IsWord target)
    (hbefore : Text.EndsAtStop Text.isBlank before) (hpiece : Clear targets piece) :
    Piped targets (before ++ (piece ++ behind)) ↔ Piped targets before ∨ Piped targets behind := by
  obtain ⟨hpipe, c, cs, rfl, hhead⟩ := hpiece
  have hparts : ∀ target ∈ targets,
      ('|' :: ' ' :: target <:+: before ++ (c :: cs ++ behind) ↔
        '|' :: ' ' :: target <:+: before ∨ '|' :: ' ' :: target <:+: behind) :=
    fun target hmem =>
      Text.piped_infix_iff hbefore hpipe (htargets target hmem).2 (hhead target hmem)
  constructor
  · rintro ⟨target, hmem, hpart⟩
    exact ((hparts target hmem).mp hpart).imp (fun h => ⟨target, hmem, h⟩)
      fun h => ⟨target, hmem, h⟩
  · rintro (⟨target, hmem, hpart⟩ | ⟨target, hmem, hpart⟩)
    · exact ⟨target, hmem, (hparts target hmem).mpr (.inl hpart)⟩
    · exact ⟨target, hmem, (hparts target hmem).mpr (.inr hpart)⟩

/-- Behind a text without a pipe, pipes lead to the same. -/
theorem piped_append_of_not_mem_iff (hbefore : '|' ∉ before) :
    Piped targets (before ++ behind) ↔ Piped targets behind :=
  exists_congr fun _ => and_congr_right fun _ => Text.infix_append_of_not_mem_iff hbefore

theorem isWord_of_mem_shells : ∀ target ∈ shells, Text.IsWord target := by
  decide

end ShellPreview.Command
