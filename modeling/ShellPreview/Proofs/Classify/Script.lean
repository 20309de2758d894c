import ShellPreview.Proofs.Classify.Payload
import ShellPreview.Proofs.Classify.Warnings
import ShellPreview.Proofs.Language.Lines
/-!
# Classifying — what kind of script a document is

A document of PowerShell may be warned of for what it is written in, and
it has a language. The two are found with lists of markers of their own:
the warning for Python knows fewer of them than the language, and there is
none for the languages behind. They never contradict each other
(`names_ofScript`), and of a document that is taken for a binary file
nothing of the kind is said.
-/

namespace ShellPreview

/-! ## The caution and the language -/

/-- What code in a language is warned of. -/
inductive Caution.Names : Option Caution → Language → Prop
  | bash : Names (some .holdsBash) .bash
  | powerShell : Names (some .holdsPowerShell) .powerShell
  | python : Names (some .holdsPython) .python
  /-- No caution is missing for the first two languages. -/
  | nothing {l : Language} (hbash : l ≠ .bash) (hshell : l ≠ .powerShell) : Names none l

namespace Caution

variable {code : String} {caution : Option Caution} {l : Language}

/-- The first two cautions are for the markers of their languages, and the
third is for some of those of Python. -/
theorem ofScript_eq (code : String) :
    ofScript code =
      if Language.bash.marks code then some .holdsBash
      else if Language.powerShell.marks code then some .holdsPowerShell
      else if Text.holds code "python" || Text.holds code "import " then some .holdsPython
      else none := by
  simp only [ofScript, Language.marks, Language.markers, List.any_cons, List.any_nil,
    Bool.or_false, Bool.or_assoc]

/-- **The caution for a script names its language.** -/
theorem names_ofScript (code : String) : Names (ofScript code) (Language.detect code) := by
  rw [ofScript_eq]
  by_cases hbash : Language.bash.marks code = true
  · have hdetect : Language.detect code = .bash := by
      simp [Language.detect, Language.all, hbash]
    rw [if_pos hbash, hdetect]
    exact .bash
  by_cases hshell : Language.powerShell.marks code = true
  · have hdetect : Language.detect code = .powerShell := by
      simp [Language.detect, Language.all, hbash, hshell]
    rw [if_neg hbash, if_pos hshell, hdetect]
    exact .powerShell
  rw [if_neg hbash, if_neg hshell]
  by_cases hsome : (Text.holds code "python" || Text.holds code "import ") = true
  · have hpython : Language.python.marks code = true := by
      rcases Bool.or_eq_true_iff.mp hsome with hname | himport
      · simp [Language.marks, Language.markers, hname]
      · simp [Language.marks, Language.markers, himport]
    have hdetect : Language.detect code = .python := by
      simp [Language.detect, Language.all, hbash, hshell, hpython]
    rw [if_pos hsome, hdetect]
    exact .python
  · -- a language that is found is text or has a marker
    have hshown := (Language.isLeast_detect code).1
    rw [if_neg hsome]
    refine .nothing (fun heq => ?_) (fun heq => ?_)
    · rw [heq] at hshown
      exact hbash (Language.marks_iff.mpr (hshown.resolve_left (by decide)))
    · rw [heq] at hshown
      exact hshell (Language.marks_iff.mpr (hshown.resolve_left (by decide)))

namespace Names

theorem bash_iff (h : Names caution l) : caution = some .holdsBash ↔ l = .bash := by
  cases h with
  | bash => exact iff_of_true rfl rfl
  | nothing hbash => exact iff_of_false nofun hbash
  | _ => exact iff_of_false nofun nofun

theorem powerShell_iff (h : Names caution l) :
    caution = some .holdsPowerShell ↔ l = .powerShell := by
  cases h with
  | powerShell => exact iff_of_true rfl rfl
  | nothing _ hshell => exact iff_of_false nofun hshell
  | _ => exact iff_of_false nofun nofun

theorem eq_python (h : Names caution l) (hcaution : caution = some .holdsPython) : l = .python := by
  cases h with
  | python => rfl
  | _ => cases hcaution

end Names

end Caution

/-- What an analysis warns of does not contradict its language. -/
structure Analysis.KindAgrees (a : Analysis) : Prop where
  bash_iff : Caution.holdsBash.text ∈ a.warnings ↔ a.language = .bash
  powerShell_iff : Caution.holdsPowerShell.text ∈ a.warnings ↔ a.language = .powerShell
  python : Caution.holdsPython.text ∈ a.warnings → a.language = .python
  /-- There is one warning of this kind at most. -/
  one : (a.warnings.countP fun w => w ∈ Caution.ofKind.map Caution.text) ≤ 1

namespace Family

variable {command : String} {d : Fetch.Document}

/-! ## What is shown of a document -/

theorem language_withDocument (a : Analysis) (d : Fetch.Document) :
    (withDocument a d).language =
      if (Payload.cautionOf d.body).isSome then .text else Language.detect d.body := by
  rw [withDocument]
  split
  · next hcaution =>
    rw [hcaution]
    rfl
  · next hcaution =>
    rw [hcaution]
    rfl

theorem warnings_withDocument (a : Analysis) (d : Fetch.Document) :
    (withDocument a d).warnings =
      a.warnings ++ (Payload.cautionOf d.body).toList.map Caution.text := by
  rw [withDocument]
  split
  · next hcaution =>
    rw [hcaution]
    rfl
  · next hcaution => rw [hcaution, Option.toList_none, List.map_nil, List.append_nil]

theorem warnings_withEvaluation (command : String) (a : Analysis) :
    ∃ given : List Caution, given.Sublist [.evaluatesDownloadedCode] ∧
      (withEvaluation command a).warnings = a.warnings ++ given.map Caution.text := by
  have hgiven := cautionIf_sublist
    (Text.holds command "| iex" || Text.holds command "| Invoke-Expression")
    .evaluatesDownloadedCode
  refine ⟨_, hgiven, ?_⟩
  unfold withEvaluation
  split <;> rfl

theorem language_shown_powerShell (command : String) (d : Fetch.Document) :
    (powerShell.shown command d).language =
      if (Payload.cautionOf d.body).isSome then .text else Language.detect d.body := by
  rw [shown, (annotates_withEvaluation command _).language, Analysis.language_warn,
    language_withDocument]

theorem warnings_shown_powerShell (command : String) (d : Fetch.Document) :
    ∃ given : List Caution, given.Sublist [.evaluatesDownloadedCode] ∧
      (powerShell.shown command d).warnings =
        ((Payload.cautionOf d.body).toList ++ scriptCautions d.body ++ given).map Caution.text := by
  obtain ⟨given, hgiven, heq⟩ := warnings_withEvaluation command
    ((withDocument powerShellBase d).warn (scriptCautions d.body))
  have hnone : powerShellBase.warnings = [] := rfl
  refine ⟨given, hgiven, ?_⟩
  rw [shown, heq, Analysis.warn, warnings_withDocument, hnone, List.nil_append, List.map_append,
    List.map_append]

/-- The warnings of the kind of a script are those for it. -/
theorem filter_warnings_shown (command : String) (d : Fetch.Document) :
    ((powerShell.shown command d).warnings.filter fun w => w ∈ Caution.ofKind.map Caution.text) =
      (scriptCautions d.body).map Caution.text := by
  obtain ⟨given, hgiven, heq⟩ := warnings_shown_powerShell command d
  have hbinary : ∀ c ∈ (Payload.cautionOf d.body).toList, c ∉ Caution.ofKind := by
    intro c hc
    have hno : ∀ c ∈ Caution.ofBinary, c ∉ Caution.ofKind := by decide
    exact hno c (Payload.cautionOf_mem (Option.mem_toList.mp hc))
  have hevaluated : ∀ c ∈ given, c ∉ Caution.ofKind := by
    intro c hc
    obtain rfl := List.mem_singleton.mp (hgiven.subset hc)
    decide
  rw [heq, Caution.filter_map_text, List.filter_append, List.filter_append,
    Caution.filter_of_forall_not_mem hbinary, Caution.filter_of_forall_not_mem hevaluated,
    Caution.filter_of_forall_mem (scriptCautions_subset d.body), List.nil_append, List.append_nil]

/-- A warning of the kind of a script is given if it is the one for it. -/
theorem text_mem_warnings_shown_iff {c : Caution} (hc : c ∈ Caution.ofKind) :
    c.text ∈ (powerShell.shown command d).warnings ↔ c ∈ scriptCautions d.body := by
  have hkind : c.text ∈ Caution.ofKind.map Caution.text := List.mem_map_of_mem hc
  rw [← List.mem_map_of_injective Caution.text_injective, ← filter_warnings_shown command d,
    List.mem_filter, decide_eq_true_eq, and_iff_left hkind]

/-- **A document that is text is warned of as what its language is.** -/
theorem kindAgrees_shown (command : String) (htext : Payload.cautionOf d.body = none) :
    (powerShell.shown command d).KindAgrees := by
  -- the warnings of this kind are those for the script, so the caution tells all
  have hnames := Caution.names_ofScript d.body
  have hlanguage : (powerShell.shown command d).language = Language.detect d.body := by
    rw [language_shown_powerShell, htext]
    rfl
  have hscript : scriptCautions d.body = (Caution.ofScript d.body).toList := by
    rw [scriptCautions, htext]
  have hmem : ∀ c ∈ Caution.ofKind, c.text ∈ (powerShell.shown command d).warnings ↔
      Caution.ofScript d.body = some c := by
    intro c hc
    rw [text_mem_warnings_shown_iff hc, hscript, Option.mem_toList]
  exact {
    bash_iff := by rw [hmem _ (by decide), hlanguage, hnames.bash_iff]
    powerShell_iff := by rw [hmem _ (by decide), hlanguage, hnames.powerShell_iff]
    python := fun h => hlanguage.trans (hnames.eq_python ((hmem _ (by decide)).mp h))
    one := by
      rw [List.countP_eq_length_filter, filter_warnings_shown, List.length_map, hscript]
      exact Option.length_toList_le }

/-- **What a document is warned of never contradicts its language.** If
PowerShell shows a document that is text, there is the warning for a
shell script or for PowerShell exactly if the language is that, the one
for Python only if the language is that, and never two of them; if it
shows one that is taken for a binary file, there is none of them and the
language is text. -/
theorem script_warning_names_language (registry : Registry) (fetcher : Fetch.Fetcher)
    (command url : String) (a : Analysis) (d : Fetch.Document)
    (ha : (powerShell.recognize registry fetcher command).value = some a)
    (hl : Link.ofCommand command = some url) (hf : (fetcher.fetch url).value = .ok d) :
    ((Payload.ofContent d.body (some d.resolvedUrl)).isBinary = false → a.KindAgrees) ∧
      ((Payload.ofContent d.body (some d.resolvedUrl)).isBinary = true →
        (∀ c ∈ Caution.ofKind, c.text ∉ a.warnings) ∧ a.language = .text) := by
  obtain ⟨x, hx, rfl⟩ := tells_of_recognize ha
  have hshown := ((hx.ofFetch rfl).of_link hl).2 d hf
  rw [hshown, Payload.isBinary_ofContent]
  constructor
  · intro htext
    rw [Option.isSome_eq_false_iff, Option.isNone_iff_eq_none] at htext
    exact kindAgrees_shown command htext
  · intro hbinary
    refine ⟨fun c hc => ?_, ?_⟩
    · obtain ⟨caution, hcaution⟩ := Option.isSome_iff_exists.mp hbinary
      rw [text_mem_warnings_shown_iff hc, scriptCautions, hcaution]
      exact List.not_mem_nil
    · rw [language_shown_powerShell, if_pos hbinary]

/-- A document with many marks of PowerShell. -/
def dollars : String :=
  String.ofList (List.replicate 101 '$')

/-- Dollars are PowerShell, and hissing is none of the three. -/
theorem script_warning_names_language_samples :
    (∃ a, (powerShell.recognize ⟨[], []⟩ (.showing dollars) "iwr http://a").value = some a ∧
        a.KindAgrees ∧ a.language = .powerShell) ∧
      ∃ a, (powerShell.recognize ⟨[], []⟩ (.showing (Classifier.hissing 34))
          "iwr http://a").value = some a ∧
        (∀ c ∈ Caution.ofKind, c.text ∉ a.warnings) ∧ a.language = .text := by
  have hl : Link.ofCommand "iwr http://a" = some "http://a" := by decide
  constructor
  · have htells : Tells ⟨[], []⟩ (.showing dollars) "iwr http://a" .powerShell _ :=
      .powerShell (by decide)
    have hf : ((Fetch.Fetcher.showing dollars).fetch "http://a").value = _ :=
      Fetch.Fetcher.fetch_showing ⟨'$', by decide, by decide⟩ (by decide) "http://a"
    have hnames := script_warning_names_language _ _ _ _ _ _ htells.recognize_eq.1 hl hf
    refine ⟨_, htells.recognize_eq.1, hnames.1 (by decide), ?_⟩
    rw [((htells.ofFetch rfl).of_link hl).2 _ hf, language_shown_powerShell]
    decide
  · have htells : Tells ⟨[], []⟩ (.showing (Classifier.hissing 34)) "iwr http://a" .powerShell _ :=
      .powerShell (by decide)
    have hf : ((Fetch.Fetcher.showing (Classifier.hissing 34)).fetch "http://a").value = _ :=
      Classifier.fetch_hearing (by omega) (by omega)
    have hnames := script_warning_names_language _ _ _ _ _ _ htells.recognize_eq.1 hl hf
    have hlength : (Classifier.hissing 34).length = 110 := Classifier.length_hissing (by omega)
    have hnoisy : Payload.Noisy (Classifier.hissing 34) :=
      (Classifier.noisy_hissing_iff (by omega)).mpr (by omega)
    have hdescribes := Payload.describes_ofContent (some "http://a")
      (hlength.trans_lt (by omega) : (Classifier.hissing 34).length < 2 ^ 52)
    have hbinary := hdescribes.isBinary_iff.mpr (.inr ⟨hlength ▸ by omega, hnoisy⟩)
    exact ⟨_, htells.recognize_eq.1, hnames.2 hbinary⟩

end Family

end ShellPreview
