import ShellPreview.Proofs.Classify.Options
import ShellPreview.Proofs.Classify.Vocabulary
import ShellPreview.Proofs.Classify.WellFormed
import ShellPreview.Proofs.Command.Pipe
import ShellPreview.Proofs.Link.Segments
/-!
# Classifying — curl and wget side by side

Two commands that differ in nothing but the name of the tool, curl or
wget, have the same first link and the same pipes. The two families begin
with analyses that are counterparts, and what they add of a download keeps
them so: they say the same but for the options and the wording for a pipe
(`curl_and_wget_counterparts`).
-/

namespace ShellPreview

/-- The wording of wget's family for a warning of curl's. -/
def asOfFile (warning : String) : String :=
  if warning = Caution.runsDownloadedCode.text then Caution.runsDownloadedFile.text else warning

/-- Warnings of curl's family as wget's gives them: without the one for
certificates, and with its own wording for a pipe to a shell. -/
def retold (warnings : List String) : List String :=
  (warnings.filter (· ≠ Caution.ignoresCertificates.text)).map asOfFile

theorem retold_append (ws vs : List String) : retold (ws ++ vs) = retold ws ++ retold vs := by
  rw [retold, List.filter_append, List.map_append]
  rfl

/-- Other warnings are given as they are. -/
theorem retold_texts {cautions : List Caution}
    (h : ∀ c ∈ cautions, c ≠ .ignoresCertificates ∧ c ≠ .runsDownloadedCode) :
    retold (cautions.map Caution.text) = cautions.map Caution.text := by
  induction cautions with
  | nil => rfl
  | cons c cautions ih =>
    obtain ⟨⟨hinsecure, hpiped⟩, hrest⟩ := List.forall_mem_cons.mp h
    have hkept : c.text ≠ Caution.ignoresCertificates.text :=
      fun heq => hinsecure (Caution.text_injective heq)
    have hsame : asOfFile c.text = c.text :=
      if_neg fun heq => hpiped (Caution.text_injective heq)
    have hsingle : retold [c.text] = [c.text] := by
      rw [retold, List.filter_singleton, decide_eq_true hkept, cond_true, List.map_singleton, hsame]
    rw [List.map_cons, ← List.singleton_append, retold_append, hsingle, ih hrest]

/-- An analysis of curl's family and one of wget's are counterparts: they
are the same but for the kind, the description and the parameters, with
the warnings as wget's family gives them. -/
structure Analysis.Counterpart (ofCurl ofWget : Analysis) : Prop where
  code : ofCurl.code = ofWget.code
  language : ofCurl.language = ofWget.language
  links : ofCurl.links = ofWget.links
  package : ofCurl.package = ofWget.package
  payload : ofCurl.payload = ofWget.payload
  warnings : retold ofCurl.warnings = ofWget.warnings

namespace Analysis.Counterpart

variable {a b : Analysis}

/-- Cautions that are told of both keep counterparts. -/
theorem warn (h : a.Counterpart b) {ofCurl ofWget : List Caution}
    (hretold : retold (ofCurl.map Caution.text) = ofWget.map Caution.text) :
    (a.warn ofCurl).Counterpart (b.warn ofWget) where
  code := h.code
  language := h.language
  links := h.links
  package := h.package
  payload := h.payload
  warnings := by rw [Analysis.warn, Analysis.warn, retold_append, h.warnings, hretold]

end Analysis.Counterpart

namespace Family

variable {a b : Analysis}

/-! ## What is added of a download -/

/-- A document is shown in the same way by both. -/
theorem counterpart_withDocument (h : a.Counterpart b) (d : Fetch.Document) :
    (withDocument a d).Counterpart (withDocument b d) := by
  unfold withDocument
  split
  · next caution hcaution =>
    have hother : ∀ c ∈ [caution], c ≠ .ignoresCertificates ∧ c ≠ .runsDownloadedCode := by
      have hbinary : ∀ c ∈ Caution.ofBinary,
          c ≠ .ignoresCertificates ∧ c ≠ .runsDownloadedCode := by decide
      exact List.forall_mem_singleton.mpr (hbinary _ (Payload.cautionOf_mem hcaution))
    have hshown : ({ a with
          code := some d.body
          links := Link.ofDocument d.body
          language := .text
          payload := some (Payload.ofCaution d.body (some d.resolvedUrl) caution) } :
        Analysis).Counterpart { b with
          code := some d.body
          links := Link.ofDocument d.body
          language := .text
          payload := some (Payload.ofCaution d.body (some d.resolvedUrl) caution) } :=
      ⟨rfl, rfl, rfl, h.package, rfl, h.warnings⟩
    exact hshown.warn (retold_texts hother)
  · exact ⟨rfl, rfl, rfl, h.package, h.payload, h.warnings⟩

/-- And so is the reason why there is none. -/
theorem counterpart_withReason (h : a.Counterpart b) (f : Fetch.Failure) :
    (withReason a f).Counterpart (withReason b f) := by
  have hother : ∀ c ∈ [Caution.notDownloaded],
      c ≠ .ignoresCertificates ∧ c ≠ .runsDownloadedCode := by decide
  have hreason : ({ a with code := some ("Download error: " ++ f.summary) } :
      Analysis).Counterpart { b with code := some ("Download error: " ++ f.summary) } :=
    ⟨rfl, h.language, h.links, h.package, h.payload, h.warnings⟩
  exact hreason.warn (retold_texts hother)

/-- Each of the two has its own wording for a pipe to a shell. -/
theorem retold_piped (condition : Bool) :
    retold ((cautionIf condition .runsDownloadedCode).map Caution.text) =
      (cautionIf condition .runsDownloadedFile).map Caution.text := by
  cases condition with
  | false => rfl
  | true => decide

theorem counterpart_base (c d : String) : (curlBase c).Counterpart (wgetBase d) := by
  have hcurl := annotates_curlBase c
  have hwget := annotates_wgetBase d
  refine ⟨hcurl.code.trans hwget.code.symm, hcurl.language.trans hwget.language.symm,
    hcurl.links.trans hwget.links.symm, hcurl.package.trans hwget.package.symm,
    hcurl.payload.trans hwget.payload.symm, ?_⟩
  rw [warnings_wgetBase]
  -- the only warning of curl's family is the one for certificates
  unfold curlBase
  split <;> split <;> split <;> decide

/-! ## What is read of the two commands -/

/-- A name without the first letter of a link does not change the links. -/
theorem ofCommand_behind_name {name : String} (h : 'h' ∉ name.toList) (t : String) :
    Link.ofCommand (name ++ t) = Link.ofCommand t := by
  rw [Link.ofCommand, String.toList_append, Link.first_append_of_not_mem h, Link.ofCommand]

/-- A name without a pipe does not change where pipes lead. -/
theorem pipesToShell_behind_name {name : String} (h : '|' ∉ name.toList) (t : String) :
    Command.pipesToShell (name ++ t) = Command.pipesToShell t := by
  rw [Bool.eq_iff_iff, Command.pipesToShell_iff, Command.pipesToShell_iff, String.toList_append]
  exact Command.piped_append_of_not_mem_iff h

/-- **The families of curl and wget say the same of what they download.**
Of two commands with the same text behind the name of the tool they make
the same requests, and their analyses are counterparts: code, language,
links, package and payload are the same, and so are the warnings, without
the one for certificates and up to the wording for a pipe to a shell. -/
theorem curl_and_wget_counterparts (registry : Registry) (fetcher : Fetch.Fetcher) (t : String) :
    ∃ a b, (curl.recognize registry fetcher ("curl" ++ t)).value = some a ∧
      (wget.recognize registry fetcher ("wget" ++ t)).value = some b ∧
      (curl.recognize registry fetcher ("curl" ++ t)).calls =
        (wget.recognize registry fetcher ("wget" ++ t)).calls ∧
      a.Counterpart b := by
  have hx : Tells registry fetcher ("curl" ++ t) curl _ := .curl (Text.begins_append "curl" t)
  have hy : Tells registry fetcher ("wget" ++ t) wget _ := .wget (Text.begins_append "wget" t)
  have hcurl : Link.ofCommand ("curl" ++ t) = Link.ofCommand t :=
    ofCommand_behind_name (by decide) t
  have hwget : Link.ofCommand ("wget" ++ t) = Link.ofCommand t :=
    ofCommand_behind_name (by decide) t
  have hpipes : Command.pipesToShell ("curl" ++ t) = Command.pipesToShell ("wget" ++ t) := by
    rw [pipesToShell_behind_name (by decide), pipesToShell_behind_name (by decide)]
  have hbase := counterpart_base ("curl" ++ t) ("wget" ++ t)
  refine ⟨_, _, hx.recognize_eq.1, hy.recognize_eq.1, ?_⟩
  rw [hx.recognize_eq.2, hy.recognize_eq.2]
  refine (hx.ofFetch rfl).relate (hy.ofFetch rfl) (hwget.trans hcurl.symm) (fun _ => hbase)
    (fun d => ?_) fun f => counterpart_withReason hbase f
  rw [shown, shown, hpipes]
  exact (counterpart_withDocument hbase d).warn (retold_piped _)

end Family

end ShellPreview
