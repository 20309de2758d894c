import ShellPreview.Proofs.Classify.Dispatch
import ShellPreview.Proofs.Json.Sorted
/-!
# Classifying — links are a set, parameters a map

The links of a classification are in increasing order and so are the keys
of its parameters, whose values are texts. A family starts with neither,
links are only put in as the set of the links of a text, and parameters
are only set one by one.
-/

namespace ShellPreview

namespace Analysis

/-- The links are a set, and the parameters a map of texts. -/
structure Orderly (a : Analysis) : Prop where
  links : Text.Ordered.Increasing a.links
  parameters : Json.Increasing a.parameters
  texts : ∀ m ∈ a.parameters, ∃ s, m.2 = .text s

namespace Orderly

variable {a b : Analysis}

theorem of_new (kind description : String) (language : Language) :
    (Analysis.new kind description language).Orderly :=
  ⟨.nil, .nil, nofun⟩

/-- Only links and parameters count. -/
theorem congr (h : a.Orderly) (hlinks : b.links = a.links)
    (hparameters : b.parameters = a.parameters) : b.Orderly :=
  ⟨hlinks ▸ h.links, hparameters ▸ h.parameters, hparameters ▸ h.texts⟩

theorem warn (h : a.Orderly) (cautions : List Caution) : (a.warn cautions).Orderly :=
  h.congr rfl rfl

theorem withCode (h : a.Orderly) (code : Option String) :
    ({ a with code := code } : Analysis).Orderly :=
  h.congr rfl rfl

theorem setParameter (h : a.Orderly) (key value : String) : (a.setParameter key value).Orderly where
  links := h.links
  parameters := Json.increasing_insertMember h.parameters key _
  texts m hm := by
    rcases Json.mem_insertMember hm with rfl | hm
    · exact ⟨value, rfl⟩
    · exact h.texts m hm

theorem setParameterIf (h : a.Orderly) (condition : Bool) (key value : String) :
    (if condition then a.setParameter key value else a).Orderly := by
  split
  · exact h.setParameter key value
  · exact h

/-- The links of a text are a set. -/
theorem withLinks (h : a.Orderly) {text : String} (hlinks : b.links = Link.ofDocument text)
    (hparameters : b.parameters = a.parameters) : b.Orderly :=
  ⟨hlinks ▸ Text.Ordered.increasing_ofList _, hparameters ▸ h.parameters, hparameters ▸ h.texts⟩

end Orderly

end Analysis

namespace Family

variable {registry : Registry} {fetcher : Fetch.Fetcher} {command : String} {family : Family}
variable {x : Fetch.Traced Analysis} {a : Analysis}

theorem orderly_withDocument (h : a.Orderly) (d : Fetch.Document) :
    (withDocument a d).Orderly := by
  unfold withDocument
  split
  · exact h.withLinks rfl rfl
  · exact h.withLinks rfl rfl

theorem orderly_withEvaluation (h : a.Orderly) (command : String) :
    (withEvaluation command a).Orderly :=
  (h.warn _).setParameterIf _ _ _

theorem orderly_curlBase (command : String) : (curlBase command).Orderly := by
  have hset := ((Analysis.Orderly.of_new "cURL - HTTP Download"
    "Command to download content from URL" .bash).setParameterIf
      (Command.hasFlag command 's' "--silent") "mode" "silent").setParameterIf
      (Command.hasFlag command 'L' "--location") "redirect" "follow redirects"
  rw [curlBase]
  split
  · exact (hset.setParameter _ _).warn _
  · exact hset

theorem orderly_wgetBase (command : String) : (wgetBase command).Orderly :=
  (Analysis.Orderly.of_new _ _ _).setParameterIf _ _ _

theorem orderly_powerShellBase : powerShellBase.Orderly :=
  Analysis.Orderly.of_new _ _ _

/-! ## What each family tells -/

theorem orderly_ofManager (m : Installer) (command : String) : (ofManager m command).Orderly :=
  (Analysis.Orderly.of_new (m.name ++ " - Package Manager") m.description .bash).congr rfl rfl

theorem orderly_ofTool (t : Tool) (command : String) : (ofTool t command).Orderly := by
  have hnew := Analysis.Orderly.of_new (t.name ++ " - Programming Tool") t.description
    (if t.isPython then Language.python else Language.bash)
  by_cases hc : Text.holds command "-c" = true
  · rcases hi : Command.inlineCode command with - | code
    · simp only [ofTool, hc, hi, if_true]
      exact hnew.congr rfl rfl
    · simp only [ofTool, hc, hi, if_true]
      exact hnew.withLinks rfl rfl
  · simp only [ofTool, if_neg hc]
    exact hnew.congr rfl rfl

theorem orderly_ofInlinePython (command : String) : (ofInlinePython command).Orderly := by
  have hnew := Analysis.Orderly.of_new "Python - Inline Execution"
    "Inline Python code execution" .python
  unfold ofInlinePython
  split
  · exact hnew.withLinks rfl rfl
  · exact hnew.congr rfl rfl

theorem orderly_idle (hd : family.downloads = true) (command : String) :
    (family.idle command).Orderly := by
  cases family with
  | powerShell => exact orderly_withEvaluation (orderly_powerShellBase.withCode _) command
  | curl => exact orderly_curlBase command
  | wget => exact orderly_wgetBase command
  | _ => cases hd

theorem orderly_shown (hd : family.downloads = true) (command : String) (d : Fetch.Document) :
    (family.shown command d).Orderly := by
  cases family with
  | powerShell =>
    have hdoc := orderly_withDocument orderly_powerShellBase d
    exact orderly_withEvaluation (hdoc.warn _) command
  | curl => exact (orderly_withDocument (orderly_curlBase command) d).warn _
  | wget => exact (orderly_withDocument (orderly_wgetBase command) d).warn _
  | _ => cases hd

theorem orderly_refused (hd : family.downloads = true) (command : String) (f : Fetch.Failure) :
    (family.refused command f).Orderly := by
  cases family with
  | powerShell =>
    have hwarn := (orderly_powerShellBase.withCode (some command)).warn
      [.notDownloaded, .runsRemoteCode]
    exact orderly_withEvaluation hwarn command
  | curl => exact ((orderly_curlBase command).withCode _).warn _
  | wget => exact ((orderly_wgetBase command).withCode _).warn _
  | _ => cases hd

theorem Tells.orderly (h : Tells registry fetcher command family x) : x.value.Orderly := by
  -- a family that downloads tells one of three things, the others one thing each
  rcases hd : family.downloads with - | -
  · cases h with
    | manager => exact orderly_ofManager _ command
    | tool => exact orderly_ofTool _ command
    | inline => exact orderly_ofInlinePython command
    | npm => exact (Analysis.Orderly.of_new _ _ _).warn _
    | npx => exact (Analysis.Orderly.of_new _ _ _).warn _
    | _ => cases hd
  · cases h.ofFetch hd with
    | idle _ hv _ => exact hv ▸ orderly_idle hd command
    | shown _ _ hv _ => exact hv ▸ orderly_shown hd command _
    | refused _ _ hv _ => exact hv ▸ orderly_refused hd command _

end Family

/-- **The links of a classification are a set, and its parameters a map of
texts.** -/
theorem Classifier.orderly_classify (c : Classifier) (command : String) :
    (c.classify command).value.Orderly := by
  rcases c.firstMatch_or_noMatch (Text.trimmed command) with ⟨front, family, a, h⟩ | hno
  · obtain ⟨x, hx, rfl⟩ := h.tells
    rw [(classify_of_firstMatch h).1]
    exact hx.orderly.warn _
  · rw [(classify_of_noMatch hno).1]
    exact (Analysis.Orderly.of_new _ _ _).warn _

end ShellPreview
