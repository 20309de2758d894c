import ShellPreview.Proofs.Classify.Dispatch
import ShellPreview.Proofs.Classify.Vocabulary
/-!
# Classifying — what the network cannot change

Two analyses agree if they say the same of the command itself: all but
the code, its language, the links, the payload and the cautions for what
was downloaded. What is downloaded adds to an analysis only what does not
count here, so two classifications of a command agree whatever the
network answers, and whatever the settings for it are.
-/

namespace ShellPreview

/-- The cautions that are read off a command, not off a download. -/
def Caution.ofCommand : List Caution :=
  [.installs, .installsGlobally, .runsInlineCode, .usesNetwork, .ignoresCertificates,
    .evaluatesDownloadedCode, .destructive, .privileged]

namespace Analysis

/-- The warnings that are read off the command, in order. -/
def commandWarnings (a : Analysis) : List String :=
  a.warnings.filter fun w => w ∈ Caution.ofCommand.map Caution.text

/-- Two analyses say the same of the command itself. -/
structure Agree (a b : Analysis) : Prop where
  kind : a.kind = b.kind
  description : a.description = b.description
  parameters : a.parameters = b.parameters
  package : a.package = b.package
  warnings : a.commandWarnings = b.commandWarnings

/-! ## Warnings -/

theorem commandWarnings_warn (a : Analysis) (cautions : List Caution) :
    (a.warn cautions).commandWarnings =
      a.commandWarnings ++
        (cautions.filter fun c => c ∈ Caution.ofCommand).map Caution.text := by
  simp only [commandWarnings, warn, List.filter_append, Caution.filter_map_text]

namespace Agree

variable {a b c : Analysis}

theorem refl (a : Analysis) : Agree a a :=
  ⟨rfl, rfl, rfl, rfl, rfl⟩

theorem symm (h : Agree a b) : Agree b a :=
  ⟨h.kind.symm, h.description.symm, h.parameters.symm, h.package.symm, h.warnings.symm⟩

theorem trans (h : Agree a b) (h' : Agree b c) : Agree a c :=
  ⟨h.kind.trans h'.kind, h.description.trans h'.description, h.parameters.trans h'.parameters,
    h.package.trans h'.package, h.warnings.trans h'.warnings⟩

/-- The same cautions for both leave them in agreement. -/
theorem warn (h : Agree a b) (cautions : List Caution) :
    Agree (a.warn cautions) (b.warn cautions) where
  kind := h.kind
  description := h.description
  parameters := h.parameters
  package := h.package
  warnings := by rw [commandWarnings_warn, commandWarnings_warn, h.warnings]

/-- So does the same parameter. -/
theorem setParameter (h : Agree a b) (key value : String) :
    Agree (a.setParameter key value) (b.setParameter key value) where
  kind := h.kind
  description := h.description
  parameters := by rw [Analysis.setParameter, Analysis.setParameter, h.parameters]
  package := h.package
  warnings := h.warnings

end Agree

/-- Cautions for a download do not count. -/
theorem agree_warn (a : Analysis) {cautions : List Caution}
    (h : ∀ c ∈ cautions, c ∉ Caution.ofCommand) : Agree (a.warn cautions) a where
  kind := rfl
  description := rfl
  parameters := rfl
  package := rfl
  warnings := by
    rw [commandWarnings_warn, Caution.filter_of_forall_not_mem h, List.map_nil, List.append_nil]

end Analysis

/-! ## What a download adds -/

theorem Payload.cautionOf_not_mem_ofCommand {content : String} {caution : Caution}
    (h : Payload.cautionOf content = some caution) : caution ∉ Caution.ofCommand := by
  have hno : ∀ c ∈ Caution.ofBinary, c ∉ Caution.ofCommand := by decide
  exact hno caution (Payload.cautionOf_mem h)

namespace Family

variable {registry : Registry} {f g : Fetch.Fetcher} {command : String} {family : Family}
variable {a b : Analysis} {x y : Fetch.Traced Analysis}

theorem agree_withDocument (a : Analysis) (d : Fetch.Document) :
    (withDocument a d).Agree a := by
  rw [withDocument]
  split
  · rename_i caution hc
    refine (Analysis.agree_warn _ fun c hmem => ?_).trans ⟨rfl, rfl, rfl, rfl, rfl⟩
    obtain rfl := List.mem_singleton.mp hmem
    exact Payload.cautionOf_not_mem_ofCommand hc
  · exact ⟨rfl, rfl, rfl, rfl, rfl⟩

theorem agree_withReason (a : Analysis) (f : Fetch.Failure) : (withReason a f).Agree a := by
  refine (Analysis.agree_warn _ fun c hmem => ?_).trans ⟨rfl, rfl, rfl, rfl, rfl⟩
  obtain rfl := List.mem_singleton.mp hmem
  decide

theorem scriptCautions_subset (body : String) : ∀ c ∈ scriptCautions body, c ∈ Caution.ofKind := by
  intro c hc
  unfold scriptCautions at hc
  split at hc
  · cases hc
  · exact Caution.ofScript_mem (Option.mem_toList.mp hc)

theorem scriptCautions_not_ofCommand (body : String) :
    ∀ c ∈ scriptCautions body, c ∉ Caution.ofCommand := by
  intro c hc
  have hno : ∀ c ∈ Caution.ofKind, c ∉ Caution.ofCommand := by decide
  exact hno c (scriptCautions_subset body c hc)

theorem cautionIf_not_ofCommand {piped : Caution} (h : piped ∉ Caution.ofCommand)
    (condition : Bool) : ∀ c ∈ cautionIf condition piped, c ∉ Caution.ofCommand := by
  intro c hc
  unfold cautionIf at hc
  split at hc
  · obtain rfl := List.mem_singleton.mp hc
    exact h
  · cases hc

/-- What the rest of a command does with a download leaves two analyses
in agreement. -/
theorem agree_withEvaluation (h : a.Agree b) (command : String) :
    (withEvaluation command a).Agree (withEvaluation command b) := by
  rw [withEvaluation, withEvaluation]
  split
  · exact (h.warn _).setParameter _ _
  · exact h.warn _

/-- **What a family downloads does not change what it says of the
command**: with a document it agrees with what it tells without a link. -/
theorem agree_shown (hd : family.downloads = true) (command : String) (d : Fetch.Document) :
    (family.shown command d).Agree (family.idle command) := by
  cases family with
  | powerShell =>
    refine agree_withEvaluation ?_ command
    have hwarn := Analysis.agree_warn (withDocument powerShellBase d)
      (scriptCautions_not_ofCommand d.body)
    exact (hwarn.trans (agree_withDocument powerShellBase d)).trans ⟨rfl, rfl, rfl, rfl, rfl⟩
  | curl =>
    have hpiped : Caution.runsDownloadedCode ∉ Caution.ofCommand := by decide
    have hwarn := Analysis.agree_warn (withDocument (curlBase command) d)
      (cautionIf_not_ofCommand hpiped (Command.pipesToShell command))
    exact hwarn.trans (agree_withDocument (curlBase command) d)
  | wget =>
    have hpiped : Caution.runsDownloadedFile ∉ Caution.ofCommand := by decide
    have hwarn := Analysis.agree_warn (withDocument (wgetBase command) d)
      (cautionIf_not_ofCommand hpiped (Command.pipesToShell command))
    exact hwarn.trans (agree_withDocument (wgetBase command) d)
  | _ => cases hd

/-- Nor does a failure to download. -/
theorem agree_refused (hd : family.downloads = true) (command : String) (r : Fetch.Failure) :
    (family.refused command r).Agree (family.idle command) := by
  cases family with
  | powerShell =>
    refine agree_withEvaluation (Analysis.agree_warn _ fun c hc => ?_) command
    simp only [List.mem_cons, List.not_mem_nil, or_false] at hc
    rcases hc with rfl | rfl <;> decide
  | curl => exact agree_withReason (curlBase command) r
  | wget => exact agree_withReason (wgetBase command) r
  | _ => cases hd

theorem Tells.agree_idle (h : Tells registry f command family x)
    (hd : family.downloads = true) : x.value.Agree (family.idle command) := by
  cases h.ofFetch hd with
  | idle _ hv _ => exact hv ▸ .refl _
  | shown _ _ hv _ => exact hv ▸ agree_shown hd command _
  | refused _ _ hv _ => exact hv ▸ agree_refused hd command _

/-! ## Two runs of a family -/

/-- A family that does not download tells the same on both networks. -/
theorem Tells.value_eq_of_not_downloads (hx : Tells registry f command family x)
    (hy : Tells registry g command family y) (hd : family.downloads = false) :
    x.value = y.value := by
  cases hx with
  | manager hm =>
    cases hy with
    | manager hm' => rw [hm] at hm'; cases hm'; rfl
  | tool ht =>
    cases hy with
    | tool ht' => rw [ht] at ht'; cases ht'; rfl
  | inline => cases hy; rfl
  | npm hb =>
    cases hy with
    | npm => rfl
    | npx _ hn => rw [hb] at hn; cases hn
  | npx _ hn =>
    cases hy with
    | npm hb => rw [hb] at hn; cases hn
    | npx => rfl
  | _ => cases hd

/-- So does any family for a command without a link. -/
theorem Tells.value_eq_of_no_link (hx : Tells registry f command family x)
    (hy : Tells registry g command family y) (hl : Link.ofCommand command = none) :
    x.value = y.value := by
  rcases hd : family.downloads with - | -
  · exact hx.value_eq_of_not_downloads hy hd
  · have hxv := ((hx.ofFetch hd).of_no_link hl).1
    have hyv := ((hy.ofFetch hd).of_no_link hl).1
    exact hxv.trans hyv.symm

/-- **Two runs of a family agree.** -/
theorem Tells.agree (hx : Tells registry f command family x)
    (hy : Tells registry g command family y) : x.value.Agree y.value := by
  rcases hd : family.downloads with - | -
  · exact hx.value_eq_of_not_downloads hy hd ▸ .refl _
  · exact (hx.agree_idle hd).trans (hy.agree_idle hd).symm

/-- A family that knows a command knows it on any network. -/
theorem Tells.transfer (hx : Tells registry f command family x) (g : Fetch.Fetcher) :
    ∃ y, Tells registry g command family y := by
  cases hx with
  | manager hm => exact ⟨_, .manager hm⟩
  | tool ht => exact ⟨_, .tool ht⟩
  | powerShell hw => exact ⟨_, .powerShell hw⟩
  | curl hb => exact ⟨_, .curl hb⟩
  | wget hb => exact ⟨_, .wget hb⟩
  | inline hp hc => exact ⟨_, .inline hp hc⟩
  | npm hb => exact ⟨_, .npm hb⟩
  | npx hb hn => exact ⟨_, .npx hb hn⟩

/-- And a family that declines it declines it on any. -/
theorem declines_transfer (h : (family.recognize registry f command).value = none)
    (g : Fetch.Fetcher) : (family.recognize registry g command).value = none := by
  rcases tells_or_declines registry g command family with ⟨y, hy⟩ | hnone
  · obtain ⟨x, hx⟩ := hy.transfer f
    rw [hx.recognize_eq.1] at h
    cases h
  · rw [hnone]
    rfl

end Family

/-! ## Two runs of a classifier -/

namespace Classifier

variable {c : Classifier} {command : String} {front : List Family} {family : Family}
variable {a : Analysis}

/-- **The same family is the first on any network**, and it tells the
same of the command. -/
theorem FirstMatch.transfer (h : c.FirstMatch command front family a) (g : Fetch.Fetcher) :
    ∃ b, ({ c with fetcher := g } : Classifier).FirstMatch command front family b ∧ a.Agree b ∧
      (family.downloads = false ∨ Link.ofCommand command = none → a = b) := by
  -- the family tells something on both networks, and those in front decline on both
  obtain ⟨x, hx, rfl⟩ := h.tells
  obtain ⟨hsplit, hfront, -⟩ := h
  obtain ⟨y, hy⟩ := hx.transfer g
  refine ⟨y.value, ⟨hsplit, fun k hk => Family.declines_transfer (hfront k hk) g,
    hy.recognize_eq.1⟩, hx.agree hy, ?_⟩
  rintro (hd | hl)
  · exact hx.value_eq_of_not_downloads hy hd
  · exact hx.value_eq_of_no_link hy hl

theorem NoMatch.transfer (h : c.NoMatch command) (g : Fetch.Fetcher) :
    ({ c with fetcher := g } : Classifier).NoMatch command :=
  fun k hk => Family.declines_transfer (h k hk) g

/-- **The network cannot change what is said of the command itself.** Two
classifications of a command with the same tables and families agree on
its kind, description, parameters and package and on the warnings that
are read off it, whatever the network, the settings and the time for an
answer are; and they agree in everything if the first family to know the
command does not download or the command has no link. -/
theorem classify_agrees_on_command (c : Classifier) (g : Fetch.Fetcher) (command : String) :
    (c.classify command).value.Agree
        (({ c with fetcher := g } : Classifier).classify command).value ∧
      ((¬ ∃ url, c.DownloadsFrom (Text.trimmed command) url) →
        (c.classify command).value =
          (({ c with fetcher := g } : Classifier).classify command).value) := by
  rcases c.firstMatch_or_noMatch (Text.trimmed command) with ⟨front, family, a, h⟩ | hno
  · obtain ⟨b, hb, hagree, heq⟩ := h.transfer g
    rw [(classify_of_firstMatch h).1, (classify_of_firstMatch hb).1]
    refine ⟨hagree.warn _, fun hdown => ?_⟩
    have hcases : family.downloads = false ∨ Link.ofCommand (Text.trimmed command) = none := by
      rcases hd : family.downloads with - | -
      · exact .inl rfl
      rcases hl : Link.ofCommand (Text.trimmed command) with - | url
      · exact .inr rfl
      · exact absurd ⟨url, front, family, a, h, hd, hl⟩ hdown
    rw [heq hcases]
  · rw [(classify_of_noMatch hno).1, (classify_of_noMatch (hno.transfer g)).1]
    exact ⟨.refl _, fun _ => rfl⟩

end Classifier

end ShellPreview
