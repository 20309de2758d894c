import ShellPreview.Proofs.Classify.Dispatch
import ShellPreview.Proofs.Classify.Vocabulary
/-!
# Classifying — which warnings there can be

Every warning is the text of a caution, and what a family warns of is some
of at most three cautions, in an order that is fixed for each thing that
it can tell. The cautions for any command come behind, so the warnings are
drawn from a closed vocabulary, none is given twice and there are at most
five.
-/

namespace ShellPreview

namespace Analysis

/-- The warnings of an analysis are some of the cautions, in their
order. -/
def WarnsWithin (a : Analysis) (cautions : List Caution) : Prop :=
  ∃ given : List Caution, given.Sublist cautions ∧ a.warnings = given.map Caution.text

namespace WarnsWithin

variable {a b : Analysis} {cautions more given : List Caution}

theorem of_new (kind description : String) (language : Language) :
    (Analysis.new kind description language).WarnsWithin [] :=
  ⟨[], .slnil, rfl⟩

/-- Only the warnings count. -/
theorem congr (h : a.WarnsWithin cautions) (hw : b.warnings = a.warnings) :
    b.WarnsWithin cautions := by
  obtain ⟨given, hsub, heq⟩ := h
  exact ⟨given, hsub, hw.trans heq⟩

theorem withCode (h : a.WarnsWithin cautions) (code : Option String) :
    ({ a with code := code } : Analysis).WarnsWithin cautions :=
  h.congr rfl

theorem warn (h : a.WarnsWithin cautions) (hmore : given.Sublist more) :
    (a.warn given).WarnsWithin (cautions ++ more) := by
  obtain ⟨before, hsub, heq⟩ := h
  refine ⟨before ++ given, hsub.append hmore, ?_⟩
  rw [Analysis.warn, heq, List.map_append]

theorem setParameter (h : a.WarnsWithin cautions) (key value : String) :
    (a.setParameter key value).WarnsWithin cautions :=
  h.congr rfl

theorem setParameterIf (h : a.WarnsWithin cautions) (condition : Bool) (key value : String) :
    (if condition then a.setParameter key value else a).WarnsWithin cautions := by
  split
  · exact h.setParameter key value
  · exact h

theorem mono (h : a.WarnsWithin cautions) (hsub : cautions.Sublist more) :
    a.WarnsWithin more := by
  obtain ⟨given, hgiven, heq⟩ := h
  exact ⟨given, hgiven.trans hsub, heq⟩

/-- Cautions that are all different are not given twice. -/
theorem nodup (h : a.WarnsWithin cautions) (hc : cautions.Nodup) : a.warnings.Nodup := by
  obtain ⟨given, hsub, heq⟩ := h
  rw [heq]
  exact (hc.sublist hsub).map Caution.text_injective

theorem length_le (h : a.WarnsWithin cautions) : a.warnings.length ≤ cautions.length := by
  obtain ⟨given, hsub, heq⟩ := h
  rw [heq, List.length_map]
  exact hsub.length_le

theorem mem_vocabulary (h : a.WarnsWithin cautions) : ∀ w ∈ a.warnings, w ∈ Caution.vocabulary := by
  obtain ⟨given, -, heq⟩ := h
  intro w hw
  rw [heq] at hw
  obtain ⟨c, -, rfl⟩ := List.mem_map.mp hw
  exact c.text_mem_vocabulary

/-- A caution that is not among them is not given. -/
theorem not_mem (h : a.WarnsWithin cautions) {c : Caution} (hc : c ∉ cautions) :
    c.text ∉ a.warnings := by
  obtain ⟨given, hsub, heq⟩ := h
  intro hw
  rw [heq] at hw
  obtain ⟨d, hd, htext⟩ := List.mem_map.mp hw
  obtain rfl := Caution.text_injective htext
  exact hc (hsub.subset hd)

end WarnsWithin

end Analysis

namespace Family

variable {registry : Registry} {fetcher : Fetch.Fetcher} {command : String} {family : Family}
variable {x : Fetch.Traced Analysis} {a : Analysis} {cautions : List Caution}

/-! ## What is added to an analysis -/

theorem cautionIf_sublist (condition : Bool) (c : Caution) :
    (cautionIf condition c).Sublist [c] := by
  rw [cautionIf]
  split
  · exact List.Sublist.refl _
  · exact List.nil_sublist _

theorem withDocument_warnsWithin (h : a.WarnsWithin cautions) (d : Fetch.Document) :
    (withDocument a d).WarnsWithin (cautions ++ (Payload.cautionOf d.body).toList) := by
  rw [withDocument]
  split
  · rename_i caution hc
    rw [hc]
    exact (h.congr rfl).warn (List.Sublist.refl _)
  · rename_i hc
    rw [hc, Option.toList_none, List.append_nil]
    exact h.congr rfl

theorem withEvaluation_warnsWithin (h : a.WarnsWithin cautions) (command : String) :
    (withEvaluation command a).WarnsWithin (cautions ++ [.evaluatesDownloadedCode]) := by
  have hwarn := h.warn (cautionIf_sublist
    (Text.holds command "| iex" || Text.holds command "| Invoke-Expression")
    .evaluatesDownloadedCode)
  rw [withEvaluation]
  split
  · exact hwarn.setParameter _ _
  · exact hwarn

theorem curlBase_warnsWithin (command : String) :
    (curlBase command).WarnsWithin [.ignoresCertificates] := by
  have hnew := Analysis.WarnsWithin.of_new "cURL - HTTP Download"
    "Command to download content from URL" .bash
  have hset := (hnew.setParameterIf (Command.hasFlag command 's' "--silent") "mode"
    "silent").setParameterIf (Command.hasFlag command 'L' "--location") "redirect"
    "follow redirects"
  rw [curlBase]
  split
  · exact (hset.setParameter _ _).warn (List.Sublist.refl _)
  · exact hset.mono (List.nil_sublist _)

theorem wgetBase_warnsWithin (command : String) : (wgetBase command).WarnsWithin [] :=
  (Analysis.WarnsWithin.of_new _ _ _).setParameterIf _ _ _

/-! ## What each family warns of -/

/-- At most three cautions, all different, and none of those for any
command. -/
def Bounded (cautions : List Caution) : Prop :=
  (cautions ++ [Caution.destructive, Caution.privileged]).Nodup ∧ cautions.length ≤ 3

instance (cautions : List Caution) : Decidable (Bounded cautions) :=
  inferInstanceAs (Decidable (_ ∧ _))

/-- The warnings are within some bounded cautions, and none is that
nothing could be downloaded. -/
def Quiet (a : Analysis) : Prop :=
  ∃ cautions, (Bounded cautions ∧ .notDownloaded ∉ cautions) ∧ a.WarnsWithin cautions

theorem ofInlinePython_warnsWithin (command : String) :
    (ofInlinePython command).WarnsWithin [.usesNetwork] := by
  have hnew := Analysis.WarnsWithin.of_new "Python - Inline Execution"
    "Inline Python code execution" .python
  have hsub := cautionIf_sublist (Command.usesNetworkLibrary command) .usesNetwork
  unfold ofInlinePython
  split
  · exact (hnew.congr rfl).warn hsub
  · exact hnew.warn hsub

theorem ofTool_warnsWithin (t : Tool) (command : String) :
    (ofTool t command).WarnsWithin [.runsInlineCode, .usesNetwork] := by
  have hnew := Analysis.WarnsWithin.of_new (t.name ++ " - Programming Tool") t.description
    (if t.isPython then Language.python else Language.bash)
  have hsub := (cautionIf_sublist (t.isPython && Command.usesNetworkLibrary command)
    .usesNetwork).cons_cons .runsInlineCode
  by_cases hc : Text.holds command "-c" = true
  · rcases hi : Command.inlineCode command with - | code
    · simp only [ofTool, hc, hi, if_true]
      exact (hnew.congr rfl).warn hsub
    · simp only [ofTool, hc, hi, if_true]
      exact (hnew.congr rfl).warn hsub
  · simp only [ofTool, if_neg hc]
    exact (hnew.congr rfl).mono (List.nil_sublist _)

theorem ofManager_warnsWithin (m : Installer) (command : String) :
    (ofManager m command).WarnsWithin [.installs, .installsGlobally] := by
  have hnew := Analysis.WarnsWithin.of_new (m.name ++ " - Package Manager") m.description .bash
  have hsub := (cautionIf_sublist (Text.holds command "install" || Text.holds command "add")
    .installs).append (cautionIf_sublist (isGlobalInstall command) .installsGlobally)
  exact (hnew.congr rfl).warn hsub

theorem ofNode_warnsWithin (kind command : String) :
    (ofNode kind command).WarnsWithin [.installsGlobally] :=
  (Analysis.WarnsWithin.of_new _ _ _).warn (cautionIf_sublist _ _)

/-! ### The families that download -/

theorem powerShellBase_warnsWithin : powerShellBase.WarnsWithin [] :=
  Analysis.WarnsWithin.of_new _ _ _

theorem withReason_warnsWithin (h : a.WarnsWithin cautions) (f : Fetch.Failure) :
    (withReason a f).WarnsWithin (cautions ++ [.notDownloaded]) :=
  (h.withCode _).warn (List.Sublist.refl _)

theorem quiet_idle (hd : family.downloads = true) (command : String) :
    Quiet (family.idle command) := by
  cases family with
  | powerShell =>
    have hcode := powerShellBase_warnsWithin.withCode (some command)
    exact ⟨_, by decide, withEvaluation_warnsWithin hcode command⟩
  | curl => exact ⟨_, by decide, curlBase_warnsWithin command⟩
  | wget => exact ⟨_, by decide, wgetBase_warnsWithin command⟩
  | _ => cases hd

/-- What a family that downloads warns of when there is no document. -/
def refusedCautions : Family → List Caution
  | powerShell => [.notDownloaded, .runsRemoteCode, .evaluatesDownloadedCode]
  | curl => [.ignoresCertificates, .notDownloaded]
  | wget => [.notDownloaded]
  | _ => []

theorem refused_warnsWithin (hd : family.downloads = true) (command : String)
    (f : Fetch.Failure) : (family.refused command f).WarnsWithin family.refusedCautions := by
  cases family with
  | powerShell =>
    have hwarn := (powerShellBase_warnsWithin.withCode (some command)).warn
      (List.Sublist.refl [Caution.notDownloaded, .runsRemoteCode])
    exact withEvaluation_warnsWithin hwarn command
  | curl => exact withReason_warnsWithin (curlBase_warnsWithin command) f
  | wget => exact withReason_warnsWithin (wgetBase_warnsWithin command) f
  | _ => cases hd

theorem bounded_refusedCautions (family : Family) : Bounded family.refusedCautions := by
  cases family <;> decide

/-- A document is warned of as a binary file or as a script, if at all. -/
theorem documentCautions_cases (body : String) :
    (∃ c ∈ Caution.ofBinary, (Payload.cautionOf body).toList = [c] ∧ scriptCautions body = []) ∨
      (Payload.cautionOf body).toList = [] ∧
        (scriptCautions body = [] ∨ ∃ c ∈ Caution.ofKind, scriptCautions body = [c]) := by
  rcases hb : Payload.cautionOf body with - | c
  · refine .inr ⟨rfl, ?_⟩
    rcases hk : Caution.ofScript body with - | c
    · exact .inl (by simp [scriptCautions, hb, hk])
    · exact .inr ⟨c, Caution.ofScript_mem hk, by simp [scriptCautions, hb, hk]⟩
  · exact .inl ⟨c, Payload.cautionOf_mem hb, rfl, by simp [scriptCautions, hb]⟩

theorem quiet_shown (hd : family.downloads = true) (command : String) (d : Fetch.Document) :
    Quiet (family.shown command d) := by
  have hcases := documentCautions_cases d.body
  -- a document is warned of once at most, and there is room for one caution more or two
  cases family with
  | powerShell =>
    have hdoc := (withDocument_warnsWithin powerShellBase_warnsWithin d).warn
      (List.Sublist.refl (scriptCautions d.body))
    refine ⟨_, ?_, withEvaluation_warnsWithin hdoc command⟩
    rcases hcases with ⟨c, hc, hb, hs⟩ | ⟨hb, hs | ⟨c, hc, hs⟩⟩
    · rw [hb, hs]
      exact (by decide : ∀ c ∈ Caution.ofBinary, Bounded [c, .evaluatesDownloadedCode] ∧
        .notDownloaded ∉ [c, .evaluatesDownloadedCode]) c hc
    · rw [hb, hs]
      decide
    · rw [hb, hs]
      exact (by decide : ∀ c ∈ Caution.ofKind, Bounded [c, .evaluatesDownloadedCode] ∧
        .notDownloaded ∉ [c, .evaluatesDownloadedCode]) c hc
  | curl =>
    have hdoc := (withDocument_warnsWithin (curlBase_warnsWithin command) d).warn
      (cautionIf_sublist (Command.pipesToShell command) .runsDownloadedCode)
    refine ⟨_, ?_, hdoc⟩
    rcases hcases with ⟨c, hc, hb, -⟩ | ⟨hb, -⟩
    · rw [hb]
      exact (by decide : ∀ c ∈ Caution.ofBinary,
        Bounded [.ignoresCertificates, c, .runsDownloadedCode] ∧
          .notDownloaded ∉ [.ignoresCertificates, c, .runsDownloadedCode]) c hc
    · rw [hb]
      decide
  | wget =>
    have hdoc := (withDocument_warnsWithin (wgetBase_warnsWithin command) d).warn
      (cautionIf_sublist (Command.pipesToShell command) .runsDownloadedFile)
    refine ⟨_, ?_, hdoc⟩
    rcases hcases with ⟨c, hc, hb, -⟩ | ⟨hb, -⟩
    · rw [hb]
      exact (by decide : ∀ c ∈ Caution.ofBinary, Bounded [c, .runsDownloadedFile] ∧
        .notDownloaded ∉ [c, .runsDownloadedFile]) c hc
    · rw [hb]
      decide
  | _ => cases hd

/-- **Whatever a family tells, it is quiet about downloads or refused**: it
says that nothing could be downloaded only if a fetch has failed. -/
theorem Tells.quiet_or_refused (h : Tells registry fetcher command family x) :
    Quiet x.value ∨ family.downloads = true ∧ ∃ url f, Link.ofCommand command = some url ∧
      (fetcher.fetch url).value = .error f ∧ x.value = family.refused command f := by
  rcases hd : family.downloads with - | -
  · left
    cases h with
    | manager => exact ⟨_, by decide, ofManager_warnsWithin _ command⟩
    | tool => exact ⟨_, by decide, ofTool_warnsWithin _ command⟩
    | inline => exact ⟨_, by decide, ofInlinePython_warnsWithin command⟩
    | npm => exact ⟨_, by decide, ofNode_warnsWithin _ command⟩
    | npx => exact ⟨_, by decide, ofNode_warnsWithin _ command⟩
    | _ => cases hd
  · cases h.ofFetch hd with
    | idle _ hv _ => exact .inl (hv ▸ quiet_idle hd command)
    | shown _ _ hv _ => exact .inl (hv ▸ quiet_shown hd command _)
    | @refused url f hl hf hv _ => exact .inr ⟨rfl, url, f, hl, hf, hv⟩

/-- In either case it warns of at most three things. -/
theorem Tells.warnsWithin (h : Tells registry fetcher command family x) :
    ∃ cautions, Bounded cautions ∧ x.value.WarnsWithin cautions := by
  rcases h.quiet_or_refused with ⟨cautions, ⟨hbounded, -⟩, hwithin⟩ | ⟨hd, -, f, -, -, hv⟩
  · exact ⟨cautions, hbounded, hwithin⟩
  · exact ⟨_, bounded_refusedCautions family, hv ▸ refused_warnsWithin hd command f⟩

end Family

namespace Safety

/-- One of the pieces of text stands in the command. -/
def Marked (markers : List String) (command : String) : Prop :=
  ∃ m ∈ markers, m.toList <:+: command.toList

variable {markers : List String} {command : String}

theorem any_holds_iff : markers.any (Text.holds command) = true ↔ Marked markers command := by
  simp only [List.any_eq_true, Marked, Text.holds_iff]

theorem cautions_sublist (command : String) :
    (cautions command).Sublist [.destructive, .privileged] := by
  have hif : ∀ (b : Bool) (c : Caution), (if b then [c] else []).Sublist [c] := by
    intro b c
    cases b
    · exact List.nil_sublist _
    · exact List.Sublist.refl _
  exact (hif (destructiveMarkers.any (Text.holds command)) .destructive).append
    (hif (privilegeMarkers.any (Text.holds command)) .privileged)

theorem destructive_mem_cautions_iff :
    .destructive ∈ cautions command ↔ Marked destructiveMarkers command := by
  rw [← any_holds_iff, cautions]
  split <;> split <;> simp_all

theorem privileged_mem_cautions_iff :
    .privileged ∈ cautions command ↔ Marked privilegeMarkers command := by
  rw [← any_holds_iff, cautions]
  split <;> split <;> simp_all

end Safety

namespace Classifier

/-- What is said before the cautions for any command: by the first family
to know it, or nothing. -/
def Says (c : Classifier) (command : String) (warnings : List String) : Prop :=
  (∃ front family a, c.FirstMatch command front family a ∧ warnings = a.warnings) ∨
    c.NoMatch command ∧ warnings = []

/-- A classification is what is said before, with the cautions for any
command behind it; before, at most three are given. -/
theorem exists_says (c : Classifier) (command : String) :
    ∃ (a : Analysis) (cautions : List Caution),
      (c.classify command).value = a.warn (Safety.cautions (Text.trimmed command)) ∧
        c.Says (Text.trimmed command) a.warnings ∧ Family.Bounded cautions ∧
        a.WarnsWithin cautions := by
  rcases c.firstMatch_or_noMatch (Text.trimmed command) with ⟨front, family, a, h⟩ | hno
  · obtain ⟨x, hx, rfl⟩ := h.tells
    obtain ⟨cautions, hbounded, hwithin⟩ := hx.warnsWithin
    exact ⟨_, cautions, (classify_of_firstMatch h).1, .inl ⟨front, family, _, h, rfl⟩,
      hbounded, hwithin⟩
  · exact ⟨_, [], (classify_of_noMatch hno).1, .inr ⟨hno, rfl⟩, by decide,
      Analysis.WarnsWithin.of_new _ _ _⟩

/-- **The warnings are drawn from a closed vocabulary and ordered.**
Whatever the tables, the families, the network and the command are, every
warning is one of the fixed texts, none is given twice and there are at
most five. They are what the first family to know the command warns of,
and then what any such command is warned of: that it may destroy data, if
it has a mark of that, and that it is about permissions, if it has a mark
of that. -/
theorem warnings_classify (c : Classifier) (command : String) :
    (∀ w ∈ (c.classify command).value.warnings, w ∈ Caution.vocabulary) ∧
      (c.classify command).value.warnings.Nodup ∧
      (c.classify command).value.warnings.length ≤ 5 ∧
      ∃ said given, (c.classify command).value.warnings = said ++ given.map Caution.text ∧
        c.Says (Text.trimmed command) said ∧
        given = Safety.cautions (Text.trimmed command) ∧
        given.Sublist [.destructive, .privileged] ∧
        (.destructive ∈ given ↔
          Safety.Marked Safety.destructiveMarkers (Text.trimmed command)) ∧
        (.privileged ∈ given ↔
          Safety.Marked Safety.privilegeMarkers (Text.trimmed command)) := by
  obtain ⟨a, cautions, hvalue, hsays, hbounded, hwithin⟩ := c.exists_says command
  have hsafe := Safety.cautions_sublist (Text.trimmed command)
  have hall := hwithin.warn hsafe
  rw [hvalue]
  refine ⟨hall.mem_vocabulary, hall.nodup hbounded.1, ?_, a.warnings, _, rfl, hsays, rfl, hsafe,
    Safety.destructive_mem_cautions_iff, Safety.privileged_mem_cautions_iff⟩
  have hlength := hall.length_le
  have hthree := hbounded.2
  rw [List.length_append, List.length_cons, List.length_cons, List.length_nil] at hlength
  omega

end Classifier

end ShellPreview
