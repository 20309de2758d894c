import ShellPreview.Proofs.Classify.Agreement
import ShellPreview.Proofs.Classify.Requests
import ShellPreview.Proofs.Pattern.Groups
import ShellPreview.Proofs.Registry.Selection
/-!
# Classifying — every analysis is well formed

The parts of an analysis hang together: a package belongs to the family,
a payload to the code and the warnings, links to the code. Adding cautions
and parameters keeps this, so it is enough to show it where something else
is put in: a package, a piece of code, a document.
-/

namespace ShellPreview

/-- No entry of the tables has an empty description. -/
def Registry.Described (r : Registry) : Prop :=
  (∀ m ∈ r.managers, m.description ≠ "") ∧ ∀ t ∈ r.tools, t.description ≠ ""

namespace Analysis

/-- An analysis is another one with cautions and parameters added. -/
structure Annotates (b a : Analysis) : Prop where
  kind : b.kind = a.kind
  description : b.description = a.description
  code : b.code = a.code
  language : b.language = a.language
  links : b.links = a.links
  package : b.package = a.package
  payload : b.payload = a.payload
  warnings : ∀ w ∈ a.warnings, w ∈ b.warnings

namespace Annotates

variable {a b c : Analysis}

theorem refl (a : Analysis) : a.Annotates a :=
  ⟨rfl, rfl, rfl, rfl, rfl, rfl, rfl, fun _ h => h⟩

theorem trans (h : c.Annotates b) (h' : b.Annotates a) : c.Annotates a where
  kind := h.kind.trans h'.kind
  description := h.description.trans h'.description
  code := h.code.trans h'.code
  language := h.language.trans h'.language
  links := h.links.trans h'.links
  package := h.package.trans h'.package
  payload := h.payload.trans h'.payload
  warnings w hw := h.warnings w (h'.warnings w hw)

theorem warn (h : b.Annotates a) (cautions : List Caution) : (b.warn cautions).Annotates a where
  kind := h.kind
  description := h.description
  code := h.code
  language := h.language
  links := h.links
  package := h.package
  payload := h.payload
  warnings w hw := List.mem_append_left _ (h.warnings w hw)

theorem setParameter (h : b.Annotates a) (key value : String) :
    (b.setParameter key value).Annotates a :=
  ⟨h.kind, h.description, h.code, h.language, h.links, h.package, h.payload, h.warnings⟩

end Annotates

/-- How the parts of an analysis of a trimmed command hang together. -/
structure Coherent (registry : Registry) (fetcher : Fetch.Fetcher) (command : String)
    (a : Analysis) : Prop where
  kind_ne_empty : a.kind ≠ ""
  /-- A description is only empty if the tables have an empty one. -/
  description_ne_empty : registry.Described → a.description ≠ ""
  /-- A package is a part of the command, and its manager the family. -/
  package : ∀ p, a.package = some p →
    a.kind = p.manager ++ " - Package Manager" ∧ p.name ≠ "" ∧
      p.name.toList <:+: command.toList ∧ a.payload = none
  /-- A payload is what is known of the document that was fetched and is
  shown, a binary file. -/
  payload : ∀ p, a.payload = some p →
    p.isBinary = true ∧ a.language = .text ∧ (∃ w, p.warning = some w ∧ w ∈ a.warnings) ∧
      ∃ url d, Link.ofCommand command = some url ∧ (fetcher.fetch url).value = .ok d ∧
        a.code = some d.body ∧ p = Payload.ofContent d.body (some d.resolvedUrl)
  /-- Links are links of the code. -/
  links : ∀ l ∈ a.links, ∃ code, a.code = some code ∧ l ∈ Link.ofDocument code
  links_of_no_code : a.code = none → a.links = []

variable {registry : Registry} {fetcher : Fetch.Fetcher} {command : String} {a b : Analysis}

/-- **Cautions and parameters keep the parts together.** -/
theorem Coherent.annotate (h : a.Coherent registry fetcher command) (hb : b.Annotates a) :
    b.Coherent registry fetcher command where
  kind_ne_empty := hb.kind ▸ h.kind_ne_empty
  description_ne_empty hr := hb.description ▸ h.description_ne_empty hr
  package p hp := by
    rw [hb.kind, hb.payload]
    exact h.package p (hb.package ▸ hp)
  payload p hp := by
    obtain ⟨hbin, hlang, ⟨w, hw, hmem⟩, hdoc⟩ := h.payload p (hb.payload ▸ hp)
    rw [hb.language, hb.code]
    exact ⟨hbin, hlang, ⟨w, hw, hb.warnings w hmem⟩, hdoc⟩
  links l hl := by
    rw [hb.code]
    exact h.links l (hb.links ▸ hl)
  links_of_no_code hc := hb.links ▸ h.links_of_no_code (hb.code ▸ hc)

/-- Nothing was put into an analysis but code. -/
structure Bare (registry : Registry) (a : Analysis) : Prop where
  kind_ne_empty : a.kind ≠ ""
  description_ne_empty : registry.Described → a.description ≠ ""
  links : a.links = []
  package : a.package = none
  payload : a.payload = none

theorem bare_new {kind description : String} {language : Language} (hkind : kind ≠ "")
    (hdescription : registry.Described → description ≠ "") :
    (Analysis.new kind description language).Bare registry :=
  ⟨hkind, hdescription, rfl, rfl, rfl⟩

namespace Bare

theorem withCode (h : a.Bare registry) (code : Option String) :
    ({ a with code := code }).Bare registry :=
  ⟨h.kind_ne_empty, h.description_ne_empty, h.links, h.package, h.payload⟩

theorem annotate (h : a.Bare registry) (hb : b.Annotates a) : b.Bare registry where
  kind_ne_empty := hb.kind ▸ h.kind_ne_empty
  description_ne_empty hr := hb.description ▸ h.description_ne_empty hr
  links := hb.links ▸ h.links
  package := hb.package ▸ h.package
  payload := hb.payload ▸ h.payload

/-- Such an analysis hangs together, -/
theorem coherent (h : a.Bare registry) : a.Coherent registry fetcher command where
  kind_ne_empty := h.kind_ne_empty
  description_ne_empty := h.description_ne_empty
  package p hp := by
    rw [h.package] at hp
    cases hp
  payload p hp := by
    rw [h.payload] at hp
    cases hp
  links l hl := by
    rw [h.links] at hl
    cases hl
  links_of_no_code _ := h.links

/-- also with a piece of code and its links. -/
theorem coherent_withLinks (h : a.Bare registry) (code : String) :
    ({ a with code := some code, links := Link.ofDocument code }).Coherent registry fetcher
      command where
  kind_ne_empty := h.kind_ne_empty
  description_ne_empty := h.description_ne_empty
  package p hp := by
    rw [h.package] at hp
    cases hp
  payload p hp := by
    rw [h.payload] at hp
    cases hp
  links l hl := ⟨code, rfl, hl⟩
  links_of_no_code hnone := by cases hnone

end Bare

end Analysis

namespace Family

variable {registry : Registry} {fetcher : Fetch.Fetcher} {command url : String} {family : Family}
variable {x : Fetch.Traced Analysis} {a : Analysis} {d : Fetch.Document}

/-! ## What cautions and parameters are added to -/

theorem annotates_withEvaluation (command : String) (a : Analysis) :
    (withEvaluation command a).Annotates a := by
  unfold withEvaluation
  split
  · exact ((Analysis.Annotates.refl a).warn _).setParameter _ _
  · exact (Analysis.Annotates.refl a).warn _

theorem annotates_curlBase (command : String) :
    (curlBase command).Annotates
      (Analysis.new "cURL - HTTP Download" "Command to download content from URL" .bash) := by
  -- each of the three options is there or not
  unfold curlBase
  split <;> split <;> split <;> exact ⟨rfl, rfl, rfl, rfl, rfl, rfl, rfl, by simp [Analysis.new]⟩

theorem annotates_wgetBase (command : String) :
    (wgetBase command).Annotates
      (Analysis.new "wget - File Download" "Command to download files from internet" .bash) := by
  unfold wgetBase
  split <;> exact ⟨rfl, rfl, rfl, rfl, rfl, rfl, rfl, by simp [Analysis.new]⟩

/-! ## Documents -/

/-- **A document is shown with what belongs to it.** -/
theorem coherent_withDocument (ha : a.Bare registry) (hl : Link.ofCommand command = some url)
    (hf : (fetcher.fetch url).value = .ok d) :
    (withDocument a d).Coherent registry fetcher command := by
  have hagree := agree_withDocument a d
  have hcode := code_withDocument a d
  have hlinks := links_withDocument a d
  refine ⟨hagree.kind ▸ ha.kind_ne_empty,
    fun hr => hagree.description ▸ ha.description_ne_empty hr, fun p hp => ?_, fun p hp => ?_,
    fun l hmem => ⟨d.body, hcode, hlinks ▸ hmem⟩, fun hnone => ?_⟩
  · rw [hagree.package, ha.package] at hp
    cases hp
  · unfold withDocument at hp ⊢
    split at hp
    · rename_i caution hc
      cases hp
      refine ⟨rfl, rfl, ⟨caution.text, rfl, ?_⟩, url, d, hl, hf, rfl, ?_⟩
      · exact List.mem_append_right _ List.mem_cons_self
      · rw [Payload.ofContent, hc]
    · rw [ha.payload] at hp
      cases hp
  · rw [hcode] at hnone
    cases hnone

/-! ## The families that download -/

theorem bare_powerShellBase : powerShellBase.Bare registry :=
  Analysis.bare_new (by decide) fun _ => by decide

theorem bare_curlBase (command : String) : (curlBase command).Bare registry :=
  (Analysis.bare_new (by decide) fun _ => by decide).annotate (annotates_curlBase command)

theorem bare_wgetBase (command : String) : (wgetBase command).Bare registry :=
  (Analysis.bare_new (by decide) fun _ => by decide).annotate (annotates_wgetBase command)

theorem bare_withReason (ha : a.Bare registry) (f : Fetch.Failure) :
    (withReason a f).Bare registry :=
  (ha.withCode _).annotate ((Analysis.Annotates.refl _).warn _)

theorem bare_idle (hd : family.downloads = true) (command : String) :
    (family.idle command).Bare registry := by
  cases family with
  | powerShell =>
    exact (bare_powerShellBase.withCode _).annotate (annotates_withEvaluation command _)
  | curl => exact bare_curlBase command
  | wget => exact bare_wgetBase command
  | _ => cases hd

theorem bare_refused (hd : family.downloads = true) (command : String) (f : Fetch.Failure) :
    (family.refused command f).Bare registry := by
  cases family with
  | powerShell =>
    have hwarn := (Analysis.Annotates.refl { powerShellBase with code := some command }).warn
      [.notDownloaded, .runsRemoteCode]
    have hbare : ({ powerShellBase with code := some command }.warn
        [.notDownloaded, .runsRemoteCode]).Bare registry :=
      (bare_powerShellBase.withCode _).annotate hwarn
    exact hbare.annotate (annotates_withEvaluation command _)
  | curl => exact bare_withReason (bare_curlBase command) f
  | wget => exact bare_withReason (bare_wgetBase command) f
  | _ => cases hd

/-- **What a family shows of a document** is the document on a bare analysis,
with cautions and parameters. -/
theorem exists_annotates_shown (hd : family.downloads = true) (command : String)
    (d : Fetch.Document) : ∃ base : Analysis, (∀ registry, base.Bare registry) ∧
      (family.shown command d).Annotates (withDocument base d) := by
  cases family with
  | powerShell =>
    have hevaluated := annotates_withEvaluation command
      ((withDocument powerShellBase d).warn (scriptCautions d.body))
    have hwarned := (Analysis.Annotates.refl (withDocument powerShellBase d)).warn
      (scriptCautions d.body)
    exact ⟨_, fun _ => bare_powerShellBase, hevaluated.trans hwarned⟩
  | curl => exact ⟨_, fun _ => bare_curlBase command, (Analysis.Annotates.refl _).warn _⟩
  | wget => exact ⟨_, fun _ => bare_wgetBase command, (Analysis.Annotates.refl _).warn _⟩
  | _ => cases hd

theorem coherent_shown (hd : family.downloads = true) (hl : Link.ofCommand command = some url)
    (hf : (fetcher.fetch url).value = .ok d) :
    (family.shown command d).Coherent registry fetcher command := by
  obtain ⟨base, hbase, hshown⟩ := exists_annotates_shown hd command d
  exact (coherent_withDocument (hbase registry) hl hf).annotate hshown

/-! ## The other families -/

/-- The name of a family is not empty, and not the name for none. -/
theorem append_ne {name rest : String} (h : 7 < rest.length) :
    name ++ rest ≠ "" ∧ name ++ rest ≠ "Unknown" := by
  have hlength : 7 < (name ++ rest).length := by
    rw [String.length_append]
    omega
  constructor
  · intro heq
    rw [heq] at hlength
    exact absurd hlength (by decide)
  · intro heq
    rw [heq] at hlength
    exact absurd hlength (by decide)

/-- **A package is a part of the command**: it is a group of a pattern. -/
theorem coherent_ofManager {m : Installer} (h : registry.managerFor command = some m) :
    (ofManager m command).Coherent registry fetcher command where
  kind_ne_empty := (append_ne (by decide)).1
  description_ne_empty hr := hr.1 m (Registry.serves_of_managerFor h).1
  package p hp := by
    obtain ⟨name, hname, rfl⟩ := Option.map_eq_some_iff.mp hp
    obtain ⟨hne, hpart⟩ := Pattern.firstText_isPart hname
    exact ⟨rfl, hne, hpart, rfl⟩
  payload p hp := by cases hp
  links l hl := by cases hl
  links_of_no_code _ := rfl

theorem coherent_ofTool {t : Tool} (h : registry.toolFor command = some t) :
    (ofTool t command).Coherent registry fetcher command := by
  have hmem : t ∈ registry.tools := List.mem_of_find?_eq_some h
  have hbase : (Analysis.new (t.name ++ " - Programming Tool") t.description
      (if t.isPython then Language.python else Language.bash)).Bare registry :=
    Analysis.bare_new (append_ne (by decide)).1 fun hr => hr.2 t hmem
  by_cases hc : Text.holds command "-c" = true
  · rcases hi : Command.inlineCode command with - | code
    · simp only [ofTool, hc, hi, if_true]
      exact ((hbase.withCode _).annotate ((Analysis.Annotates.refl _).warn _)).coherent
    · simp only [ofTool, hc, hi, if_true]
      exact (hbase.coherent_withLinks _).annotate ((Analysis.Annotates.refl _).warn _)
  · simp only [ofTool, if_neg hc]
    exact (hbase.withCode _).coherent

theorem coherent_ofInlinePython (command : String) :
    (ofInlinePython command).Coherent registry fetcher command := by
  have hbase : (Analysis.new "Python - Inline Execution" "Inline Python code execution"
      .python).Bare registry :=
    Analysis.bare_new (by decide) fun _ => by decide
  unfold ofInlinePython
  split
  · exact (hbase.coherent_withLinks _).annotate ((Analysis.Annotates.refl _).warn _)
  · exact (hbase.annotate ((Analysis.Annotates.refl _).warn _)).coherent

theorem coherent_ofNode {kind : String} (hkind : kind ≠ "") (command : String) :
    (ofNode kind command).Coherent registry fetcher command := by
  have hbase : (Analysis.new kind "Command to manage or execute Node.js packages"
      .bash).Bare registry :=
    Analysis.bare_new hkind fun _ => by decide
  exact (hbase.annotate ((Analysis.Annotates.refl _).warn _)).coherent

/-! ## All families -/

/-- **Whatever a family tells hangs together.** -/
theorem Tells.coherent (h : Tells registry fetcher command family x) :
    x.value.Coherent registry fetcher command := by
  rcases hd : family.downloads with - | -
  · cases h with
    | manager hm => exact coherent_ofManager hm
    | tool ht => exact coherent_ofTool ht
    | inline => exact coherent_ofInlinePython command
    | npm => exact coherent_ofNode (by decide) command
    | npx => exact coherent_ofNode (by decide) command
    | _ => cases hd
  · cases h.ofFetch hd with
    | idle hl hv => exact hv ▸ (bare_idle hd command).coherent
    | shown hl hf hv => exact hv ▸ coherent_shown hd hl hf
    | refused hl hf hv => exact hv ▸ (bare_refused hd command _).coherent

theorem kind_ofTool (t : Tool) (command : String) :
    (ofTool t command).kind = t.name ++ " - Programming Tool" := by
  by_cases hc : Text.holds command "-c" = true
  · rcases hi : Command.inlineCode command with - | code
    · simp only [ofTool, hc, hi, if_true]
      rfl
    · simp only [ofTool, hc, hi, if_true]
      rfl
  · simp only [ofTool, if_neg hc]
    rfl

theorem kind_ofInlinePython (command : String) :
    (ofInlinePython command).kind = "Python - Inline Execution" := by
  unfold ofInlinePython
  split <;> rfl

/-- What a family that downloads calls its analyses. -/
def downloadKind : Family → String
  | powerShell => "PowerShell - Web Request"
  | curl => "cURL - HTTP Download"
  | wget => "wget - File Download"
  | _ => "Unknown"

theorem kind_idle (hd : family.downloads = true) (command : String) :
    (family.idle command).kind = family.downloadKind := by
  cases family with
  | powerShell => exact (annotates_withEvaluation command _).kind
  | curl => exact (annotates_curlBase command).kind
  | wget => exact (annotates_wgetBase command).kind
  | _ => cases hd

/-- A family that downloads calls its analyses what it does, whatever it
downloads. -/
theorem Tells.kind_eq (h : Tells registry fetcher command family x)
    (hd : family.downloads = true) : x.value.kind = family.downloadKind := by
  rw [(h.agree_idle hd).kind, kind_idle hd]

theorem downloadKind_ne_unknown (hd : family.downloads = true) :
    family.downloadKind ≠ "Unknown" := by
  cases family with
  | powerShell => decide
  | curl => decide
  | wget => decide
  | _ => cases hd

/-- No family tells that a command is unknown. -/
theorem Tells.kind_ne_unknown (h : Tells registry fetcher command family x) :
    x.value.kind ≠ "Unknown" := by
  rcases hd : family.downloads with - | -
  · cases h with
    | manager => exact (append_ne (by decide)).2
    | @tool t =>
      rw [Fetch.Traced.value_pure, kind_ofTool]
      exact (append_ne (by decide)).2
    | inline =>
      rw [Fetch.Traced.value_pure, kind_ofInlinePython]
      decide
    | npm => exact (by decide : "npm - Node Package Manager" ≠ "Unknown")
    | npx => exact (by decide : "npx - Node Package Execute" ≠ "Unknown")
    | _ => cases hd
  · rw [h.kind_eq hd]
    exact downloadKind_ne_unknown hd

end Family

namespace Classifier

/-- **Every analysis is well formed.** Its parts hang together, whatever
the tables, the families, the network and the command are, and it is one
of an unknown command exactly if no family knows the command. -/
theorem wellFormed_classify (c : Classifier) (command : String) :
    (c.classify command).value.Coherent c.registry c.fetcher (Text.trimmed command) ∧
      ((c.classify command).value.isUnknown = true ↔ c.NoMatch (Text.trimmed command)) := by
  rcases c.firstMatch_or_noMatch (Text.trimmed command) with ⟨front, family, a, h⟩ | hno
  · obtain ⟨x, hx, rfl⟩ := h.tells
    rw [(classify_of_firstMatch h).1]
    refine ⟨hx.coherent.annotate ((Analysis.Annotates.refl _).warn _), ?_, fun hno => ?_⟩
    · intro hunknown
      exact absurd (beq_iff_eq.mp hunknown) hx.kind_ne_unknown
    · exact absurd hno h.not_noMatch
  · rw [(classify_of_noMatch hno).1]
    have hbare : Analysis.unknown.Bare c.registry :=
      Analysis.bare_new (by decide) fun _ => by decide
    exact ⟨(hbare.annotate ((Analysis.Annotates.refl _).warn _)).coherent, fun _ => hno,
      fun _ => rfl⟩

end Classifier

end ShellPreview
