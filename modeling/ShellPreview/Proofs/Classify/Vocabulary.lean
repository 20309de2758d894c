import ShellPreview.Payload
import Mathlib.Data.List.Nodup
/-!
# The vocabulary of warnings

All cautions in one list, and which of them a download can earn. No two
cautions have one text, so a warning tells which caution it is.
-/

namespace ShellPreview

namespace Caution

/-- All cautions. -/
def all : List Caution :=
  [.installs, .installsGlobally, .runsInlineCode, .usesNetwork, .ignoresCertificates,
    .runsDownloadedCode, .runsDownloadedFile, .evaluatesDownloadedCode, .runsRemoteCode,
    .notDownloaded, .holdsBash, .holdsPowerShell, .holdsPython, .encodedBinary, .windowsProgram,
    .fileOf .zip, .fileOf .rar, .fileOf .elf, .fileOf .pdf, .looksBinary, .destructive, .privileged]

/-- Everything that a warning can say. -/
def vocabulary : List String :=
  all.map text

/-- What a download is warned of as a binary file. -/
def ofBinary : List Caution :=
  [.encodedBinary, .windowsProgram, .fileOf .zip, .fileOf .rar, .fileOf .elf, .fileOf .pdf,
    .looksBinary]

/-- What a downloaded script is warned of for its language. -/
def ofKind : List Caution :=
  [.holdsBash, .holdsPowerShell, .holdsPython]

theorem mem_all (c : Caution) : c ∈ all := by
  cases c with
  | fileOf format => cases format <;> decide
  | _ => decide

theorem text_mem_vocabulary (c : Caution) : c.text ∈ vocabulary :=
  List.mem_map_of_mem (mem_all c)

/-- **No two cautions have one text.** -/
theorem text_injective : Function.Injective text := by
  intro a b h
  have hnodup : (all.map text).Nodup := by decide
  exact List.inj_on_of_nodup_map hnodup (mem_all a) (mem_all b) h

/-! Some cautions can be picked out of a list by their texts. -/

section Picking

variable {cautions kinds : List Caution}

theorem filter_map_text (cautions kinds : List Caution) :
    ((cautions.map text).filter fun w => w ∈ kinds.map text) =
      (cautions.filter fun c => c ∈ kinds).map text := by
  simp only [List.filter_map, Function.comp_def, List.mem_map_of_injective text_injective]

theorem filter_of_forall_not_mem (h : ∀ c ∈ cautions, c ∉ kinds) :
    (cautions.filter fun c => c ∈ kinds) = [] := by
  rw [List.filter_eq_nil_iff]
  intro c hc
  rw [decide_eq_true_eq]
  exact h c hc

theorem filter_of_forall_mem (h : ∀ c ∈ cautions, c ∈ kinds) :
    (cautions.filter fun c => c ∈ kinds) = cautions := by
  rw [List.filter_eq_self]
  intro c hc
  rw [decide_eq_true_eq]
  exact h c hc

end Picking

end Caution

namespace Payload

variable {content : String} {caution : Caution}

/-- What a download is found to be; the first finding counts. -/
inductive Finds (content : String) : Option Caution → Prop
  | encoded (hdata : Text.begins content dataMarker = true) : Finds content (some .encodedBinary)
  | program (hdata : Text.begins content dataMarker = false)
      (hprogram : Text.begins content "MZ" = true) : Finds content (some .windowsProgram)
  | file {format : FileFormat} (hdata : Text.begins content dataMarker = false)
      (hformat : FileFormat.ofContent content = some format) : Finds content (some (.fileOf format))
  | noise (hdata : Text.begins content dataMarker = false)
      (hnoise : looksBinary content.toList = true) : Finds content (some .looksBinary)
  | text (hdata : Text.begins content dataMarker = false)
      (hprogram : Text.begins content "MZ" = false)
      (hformat : FileFormat.ofContent content = none)
      (hnoise : looksBinary content.toList = false) : Finds content none

/-- **The caution is for what is found.** -/
theorem finds_cautionOf (content : String) : Finds content (cautionOf content) := by
  rcases hdata : Text.begins content dataMarker with - | -
  · rcases hprogram : Text.begins content "MZ" with - | -
    · rcases hformat : FileFormat.ofContent content with - | format
      · rcases hnoise : looksBinary content.toList with - | -
        · simpa [cautionOf, hdata, hprogram, hformat, hnoise] using
            Finds.text hdata hprogram hformat hnoise
        · simpa [cautionOf, hdata, hprogram, hformat, hnoise] using Finds.noise hdata hnoise
      · simpa [cautionOf, hdata, hprogram, hformat] using Finds.file hdata hformat
    · simpa [cautionOf, hdata, hprogram] using Finds.program hdata hprogram
  · simpa [cautionOf, hdata] using Finds.encoded hdata

/-- A binary file is warned of as one. -/
theorem cautionOf_mem (h : cautionOf content = some caution) : caution ∈ Caution.ofBinary := by
  have hfinds := finds_cautionOf content
  rw [h] at hfinds
  cases hfinds with
  | @file format => cases format <;> decide
  | _ => decide

end Payload

/-- And a script as one of its language. -/
theorem Caution.ofScript_mem {code : String} {caution : Caution}
    (h : Caution.ofScript code = some caution) : caution ∈ Caution.ofKind := by
  unfold Caution.ofScript at h
  split at h
  · cases h
    decide
  split at h
  · cases h
    decide
  split at h
  · cases h
    decide
  · cases h

end ShellPreview
