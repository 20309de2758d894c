import ShellPreview.Proofs.Classify.Warnings
import ShellPreview.Proofs.Classify.WellFormed
/-!
# Classifying — a download that fails

A family whose fetch fails says so once and shows nothing of a document:
no links, no payload and no caution for a document. What it shows instead
depends on the command alone or on the reasons for the failure. The
warning that nothing could be downloaded is given in no other case, and
without a network every fetch fails.
-/

namespace ShellPreview

/-- The cautions that are about something that was downloaded. -/
def Caution.ofDownload : List Caution :=
  Caution.ofKind ++ Caution.ofBinary ++ [.runsDownloadedCode, .runsDownloadedFile]

/-- What an analysis of a command shows of a fetch that failed. -/
structure Analysis.ShowsFailure (family : Family) (command : String) (f : Fetch.Failure)
    (a : Analysis) : Prop where
  warned_once : a.warnings.count Caution.notDownloaded.text = 1
  links : a.links = []
  payload : a.payload = none
  /-- There is no warning of a document that is not there. -/
  no_document : ∀ c ∈ Caution.ofDownload, c.text ∉ a.warnings
  /-- PowerShell shows the command, -/
  command_shown : family = .powerShell → a.code = some command ∧ a.language = .powerShell
  /-- and the other families show the reasons. -/
  reasons_shown : family ≠ .powerShell →
    a.code = some ("Download error: " ++ f.summary) ∧ a.language = .bash

namespace Family

variable {command : String} {family : Family}

/-! ## What a family tells of a failure -/

theorem notDownloaded_mem_refused (hd : family.downloads = true) (command : String)
    (f : Fetch.Failure) :
    Caution.notDownloaded.text ∈ (family.refused command f).warnings := by
  cases family with
  | powerShell =>
    refine (annotates_withEvaluation command _).warnings _ ?_
    exact List.mem_append_right _ List.mem_cons_self
  | curl => exact List.mem_append_right _ List.mem_cons_self
  | wget => exact List.mem_append_right _ List.mem_cons_self
  | _ => cases hd

theorem code_refused_powerShell (command : String) (f : Fetch.Failure) :
    (powerShell.refused command f).code = some command ∧
      (powerShell.refused command f).language = .powerShell := by
  have hsame := annotates_withEvaluation command
    ({ powerShellBase with code := some command }.warn [.notDownloaded, .runsRemoteCode])
  exact ⟨hsame.code, hsame.language⟩

theorem code_refused (hd : family.downloads = true) (hp : family ≠ .powerShell)
    (command : String) (f : Fetch.Failure) :
    (family.refused command f).code = some ("Download error: " ++ f.summary) ∧
      (family.refused command f).language = .bash := by
  cases family with
  | powerShell => exact absurd rfl hp
  | curl => exact ⟨rfl, (annotates_curlBase command).language⟩
  | wget => exact ⟨rfl, (annotates_wgetBase command).language⟩
  | _ => cases hd

/-- **A family shows of a failed fetch that it failed, and nothing else**,
also with the cautions for any command. -/
theorem refused_showsFailure (hd : family.downloads = true) (command : String)
    (f : Fetch.Failure) :
    ((family.refused command f).warn (Safety.cautions command)).ShowsFailure family command f := by
  have hbare : (family.refused command f).Bare ⟨[], []⟩ := bare_refused hd command f
  have hwithin := (refused_warnsWithin hd command f).warn (Safety.cautions_sublist command)
  have hnodup := hwithin.nodup (bounded_refusedCautions family).1
  have hmem := List.mem_append_left ((Safety.cautions command).map Caution.text)
    (notDownloaded_mem_refused hd command f)
  exact {
    warned_once := List.count_eq_one_of_mem hnodup hmem
    links := hbare.links
    payload := hbare.payload
    no_document := fun c hc => by
      have hno : ∀ c ∈ Caution.ofDownload,
          c ∉ family.refusedCautions ++ [.destructive, .privileged] := by
        cases family <;> decide
      exact hwithin.not_mem (hno c hc)
    command_shown := fun hp => by
      subst hp
      exact code_refused_powerShell command f
    reasons_shown := fun hp => code_refused hd hp command f }

end Family

namespace Fetch.Fetcher

variable {f : Fetcher}

/-- **Without a network every fetch fails**, whatever the settings and the
time for an answer are. -/
theorem fetch_offline (hf : f.transport = .offline) (url : String) :
    ∃ failure, (f.fetch url).value = .error failure := by
  obtain ⟨resolved, probe, hlead⟩ := f.exists_leadsTo url
  have hno : ∀ route body, ¬ f.Succeeds resolved route body := by
    intro route body hs
    obtain ⟨answer, hr, -⟩ := hs.carried
    rw [answerTo, hf] at hr
    cases hr
  rcases f.tryRoutes_cases url resolved f.settings.routes.length f.settings.routes with
    ⟨front, route, back, body, -, -, hs, -, -⟩ | ⟨attempts, -, -, hv, -⟩
  · exact absurd hs (hno route body)
  · exact ⟨_, (fetch_of_leadsTo hlead).1.trans hv⟩

end Fetch.Fetcher

namespace Classifier

variable {c : Classifier} {command url : String} {family : Family} {f : Fetch.Failure}

/-- A family is the first to know the command, it downloads from the first
link of the command, and the fetch fails. -/
def FailsFrom (c : Classifier) (command url : String) (family : Family) (f : Fetch.Failure) :
    Prop :=
  (∃ front a, c.FirstMatch command front family a) ∧ family.downloads = true ∧
    Link.ofCommand command = some url ∧ (c.fetcher.fetch url).value = .error f

/-- Such a command is classified as refused. -/
theorem classify_of_failsFrom (h : c.FailsFrom (Text.trimmed command) url family f) :
    (c.classify command).value = (family.refused (Text.trimmed command) f).warn
      (Safety.cautions (Text.trimmed command)) := by
  obtain ⟨⟨front, a, hfirst⟩, hd, hl, hf⟩ := h
  obtain ⟨x, hx, rfl⟩ := hfirst.tells
  rw [(classify_of_firstMatch hfirst).1]
  cases hx.ofFetch hd with
  | idle hl' => rw [hl] at hl'; cases hl'
  | shown hl' hf' =>
    rw [hl] at hl'; cases hl'
    rw [hf] at hf'; cases hf'
  | refused hl' hf' hv =>
    rw [hl] at hl'; cases hl'
    rw [hf] at hf'; cases hf'
    rw [hv]

/-- A network on which the fetch fails as well refuses the command, too. -/
theorem FailsFrom.transfer (h : c.FailsFrom command url family f) {g : Fetch.Fetcher}
    {f' : Fetch.Failure} (hg : (g.fetch url).value = .error f') :
    ({ c with fetcher := g } : Classifier).FailsFrom command url family f' := by
  obtain ⟨⟨front, a, hfirst⟩, hd, hl, -⟩ := h
  obtain ⟨b, hb, -, -⟩ := hfirst.transfer g
  exact ⟨⟨front, b, hb⟩, hd, hl, hg⟩

/-- **The warning that nothing could be downloaded tells the truth.** -/
theorem failsFrom_of_warned
    (h : Caution.notDownloaded.text ∈ (c.classify command).value.warnings) :
    ∃ url family f, c.FailsFrom (Text.trimmed command) url family f := by
  -- the cautions for any command are others, so it has been given before
  have hbefore : ∀ a : Analysis,
      Caution.notDownloaded.text ∈ (a.warn (Safety.cautions (Text.trimmed command))).warnings →
        Caution.notDownloaded.text ∈ a.warnings := by
    intro a hmem
    rcases List.mem_append.mp hmem with hmem | hmem
    · exact hmem
    · obtain ⟨d, hd, htext⟩ := List.mem_map.mp hmem
      obtain rfl := Caution.text_injective htext
      exact absurd ((Safety.cautions_sublist _).subset hd) (by decide)
  rcases c.firstMatch_or_noMatch (Text.trimmed command) with ⟨front, family, a, hfirst⟩ | hno
  · rw [(classify_of_firstMatch hfirst).1] at h
    have hsaid := hbefore a h
    obtain ⟨x, hx, rfl⟩ := hfirst.tells
    rcases hx.quiet_or_refused with ⟨cautions, ⟨-, hquiet⟩, hwithin⟩ | ⟨hd, url, f, hl, hf, -⟩
    · exact absurd hsaid (hwithin.not_mem hquiet)
    · exact ⟨url, family, f, ⟨front, _, hfirst⟩, hd, hl, hf⟩
  · rw [(classify_of_noMatch hno).1] at h
    exact absurd (hbefore _ h) List.not_mem_nil

/-- **A failed download leaves nothing behind and is always visible.** If
the first family to know a command downloads and its fetch of the first
link fails, the analysis shows that and nothing of a document, and for
PowerShell it is the same on any network on which the fetch fails. In no
other case is it said that nothing could be downloaded. Without a network
this is what becomes of every command whose first family downloads and
that has a link. -/
theorem classify_shows_failure (c : Classifier) (command : String) :
    (∀ url family f, c.FailsFrom (Text.trimmed command) url family f →
        (c.classify command).value.ShowsFailure family (Text.trimmed command) f ∧
          (family = .powerShell → ∀ g : Fetch.Fetcher, ∀ f', (g.fetch url).value = .error f' →
            (({ c with fetcher := g } : Classifier).classify command).value =
              (c.classify command).value)) ∧
      (Caution.notDownloaded.text ∈ (c.classify command).value.warnings →
        ∃ url family f, c.FailsFrom (Text.trimmed command) url family f) ∧
      (c.fetcher.transport = .offline → ∀ url, c.DownloadsFrom (Text.trimmed command) url →
        ∃ family f, c.FailsFrom (Text.trimmed command) url family f) := by
  refine ⟨fun url family f h => ⟨?_, ?_⟩, failsFrom_of_warned, fun hoff url hdown => ?_⟩
  · rw [classify_of_failsFrom h]
    exact Family.refused_showsFailure h.2.1 _ f
  · rintro rfl g f' hg
    rw [classify_of_failsFrom h, classify_of_failsFrom (h.transfer hg)]
    rfl
  · obtain ⟨front, family, a, hfirst, hd, hl⟩ := hdown
    obtain ⟨f, hf⟩ := Fetch.Fetcher.fetch_offline hoff url
    exact ⟨family, f, ⟨front, a, hfirst⟩, hd, hl, hf⟩

/-- A classifier that knows curl and has no network. -/
def unconnectedCurl : Classifier :=
  ⟨⟨[], []⟩, ⟨.offline, .default, 0⟩, [.curl]⟩

/-- It shows a failure for a command with a link. -/
theorem classify_shows_failure_of_curl :
    unconnectedCurl.DownloadsFrom (Text.trimmed "curl http://a") "http://a" ∧
      ∃ family f, (unconnectedCurl.classify "curl http://a").value.ShowsFailure family
        (Text.trimmed "curl http://a") f := by
  have htells : Family.Tells unconnectedCurl.registry unconnectedCurl.fetcher
      (Text.trimmed "curl http://a") .curl _ := .curl (by decide)
  have hdown : unconnectedCurl.DownloadsFrom (Text.trimmed "curl http://a") "http://a" :=
    ⟨[], .curl, _, ⟨⟨[], rfl⟩, fun g hg => absurd hg List.not_mem_nil, htells.recognize_eq.1⟩,
      rfl, by decide⟩
  have hshows := classify_shows_failure unconnectedCurl "curl http://a"
  obtain ⟨family, f, hfails⟩ := hshows.2.2 rfl _ hdown
  exact ⟨hdown, family, f, (hshows.1 _ family f hfails).1⟩

end Classifier

end ShellPreview
