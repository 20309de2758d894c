import ShellPreview.Proofs.Classify.Agreement
import ShellPreview.Proofs.Command.Option
/-!
# Classifying — the options of curl and wget

Of a command of curl or wget nothing but its options is said before
anything is downloaded, and all words of the line are read for them. So a
command behind a pipe adds what its own options are taken for, and
nothing else (`options_behind_pipe`).
-/

namespace ShellPreview.Family

open Command (Gives GivesOption SendsToStdout)

/-- The options that count in a command of curl, each with the parameter
that it sets. -/
def curlSettings : List ((Char × String) × (String × Json)) :=
  [(('k', "--insecure"), "SSL", .text "ignore certificates"),
    (('s', "--silent"), "mode", .text "silent"),
    (('L', "--location"), "redirect", .text "follow redirects")]

/-- The options that count in a command of curl. -/
def curlOptions : List (Char × String) :=
  curlSettings.map (·.1)

section Base

variable {registry : Registry} {fetcher : Fetch.Fetcher} {family : Family}
variable {c d : String} {x : Fetch.Traced Analysis}

/-! ## Curl -/

theorem isLong_of_mem_curlOptions : ∀ o ∈ curlOptions, Command.IsLong o.2 := by
  decide

/-- Nothing but the options is read for what is said of a command of
curl. -/
theorem curlBase_congr
    (h : ∀ o ∈ curlOptions, Command.hasFlag c o.1 o.2 = Command.hasFlag d o.1 o.2) :
    curlBase c = curlBase d := by
  have hsilent := h ('s', "--silent") (by decide)
  have hlocation := h ('L', "--location") (by decide)
  have hinsecure := h ('k', "--insecure") (by decide)
  simp only [curlBase, hsilent, hlocation, hinsecure]

/-- **The parameters are those of the options that are given.** -/
theorem parameters_curlBase (c : String) : (curlBase c).parameters =
    (curlSettings.filter fun p => Command.hasFlag c p.1.1 p.1.2).map (·.2) := by
  -- each of the three options is there or not
  cases hinsecure : Command.hasFlag c 'k' "--insecure" <;>
  cases hsilent : Command.hasFlag c 's' "--silent" <;>
  cases hlocation : Command.hasFlag c 'L' "--location" <;>
  simp only [curlBase, curlSettings, List.filter_cons, hinsecure, hsilent, hlocation] <;>
  rfl

theorem key_mem_curlBase_iff (c : String) {p : (Char × String) × (String × Json)}
    (hp : p ∈ curlSettings) : p.2.1 ∈ (curlBase c).parameters.map (·.1) ↔
      Command.hasFlag c p.1.1 p.1.2 = true := by
  have hkeys : ∀ p ∈ curlSettings, ∀ q ∈ curlSettings, q.2.1 = p.2.1 → q.1 = p.1 := by decide
  rw [parameters_curlBase, List.map_map, List.mem_map]
  constructor
  · rintro ⟨q, hq, hkey⟩
    obtain ⟨hmem, hflag⟩ := List.mem_filter.mp hq
    exact hkeys p hp q hmem hkey ▸ hflag
  · exact fun hflag => ⟨p, List.mem_filter.mpr ⟨hp, hflag⟩, rfl⟩

theorem parameters_curlBase_eq_iff : (curlBase c).parameters = (curlBase d).parameters ↔
    ∀ o ∈ curlOptions, Command.hasFlag c o.1 o.2 = Command.hasFlag d o.1 o.2 := by
  constructor
  · intro heq o ho
    obtain ⟨p, hp, rfl⟩ := List.mem_map.mp ho
    rw [Bool.eq_iff_iff, ← key_mem_curlBase_iff c hp, ← key_mem_curlBase_iff d hp, heq]
  · exact fun h => congrArg Analysis.parameters (curlBase_congr h)

theorem ignoresCertificates_mem_curlBase_iff :
    Caution.ignoresCertificates.text ∈ (curlBase c).warnings ↔
      Command.hasFlag c 'k' "--insecure" = true := by
  cases hinsecure : Command.hasFlag c 'k' "--insecure" <;>
  cases hsilent : Command.hasFlag c 's' "--silent" <;>
  cases hlocation : Command.hasFlag c 'L' "--location" <;>
  simp only [curlBase, hinsecure, hsilent, hlocation] <;>
  decide

/-! ## Wget -/

theorem wgetBase_congr (h : Command.writesToStdout c = Command.writesToStdout d) :
    wgetBase c = wgetBase d := by
  simp only [wgetBase, h]

theorem parameters_wgetBase_eq_iff : (wgetBase c).parameters = (wgetBase d).parameters ↔
    Command.writesToStdout c = Command.writesToStdout d := by
  constructor
  · intro heq
    have hkeys := congrArg (List.map (·.1)) heq
    cases hc : Command.writesToStdout c <;> cases hd : Command.writesToStdout d <;>
    simp only [wgetBase, hc, hd] at hkeys <;>
    first | rfl | exact absurd hkeys (by decide)
  · exact fun h => congrArg Analysis.parameters (wgetBase_congr h)

theorem warnings_wgetBase (c : String) : (wgetBase c).warnings = [] := by
  rw [wgetBase]
  split <;> rfl

/-! ## What a download cannot change -/

theorem mem_warnings_iff_of_agree {a b : Analysis} (h : a.Agree b) {caution : Caution}
    (hcaution : caution ∈ Caution.ofCommand) :
    caution.text ∈ a.warnings ↔ caution.text ∈ b.warnings := by
  have hcommand : ∀ a : Analysis, caution.text ∈ a.commandWarnings ↔ caution.text ∈ a.warnings := by
    intro a
    rw [Analysis.commandWarnings, List.mem_filter, decide_eq_true_iff]
    exact and_iff_left (List.mem_map_of_mem hcaution)
  rw [← hcommand, ← hcommand, h.warnings]

/-! ## Behind a pipe -/

variable {s : String} {letter : Char} {long : String}

/-- A pipe between blanks is a word of its own. -/
theorem words_behind_pipe (c s : String) : Text.words (c ++ " | " ++ s).toList =
    Text.words c.toList ++ ['|'] :: Text.words s.toList := by
  have hspace : Text.isBlank ' ' = true := rfl
  have htext : (c ++ " | " ++ s).toList = c.toList ++ ' ' :: (['|'] ++ ' ' :: s.toList) := by
    simp
  rw [htext, Text.words_append_cons hspace, Text.words_append_cons hspace]
  rfl

theorem hasFlag_behind_pipe_iff (hlong : Command.IsLong long) :
    Command.hasFlag (c ++ " | " ++ s) letter long = true ↔
      Gives letter long (Text.words c.toList) ∨ Gives letter long (Text.words s.toList) := by
  have hpipe : ¬GivesOption letter long ['|'] := fun hgives => by
    have hhead := hgives.head?_eq hlong
    cases hhead
  rw [Command.hasFlag_iff, words_behind_pipe, Command.gives_append_iff, ← List.singleton_append,
    Command.gives_append_iff, Command.gives_singleton_iff, or_iff_right hpipe]

theorem writesToStdout_behind_pipe_iff :
    Command.writesToStdout (c ++ " | " ++ s) = true ↔
      SendsToStdout (Text.words c.toList) ∨ SendsToStdout (Text.words s.toList) := by
  have hpipe : ∀ next, ¬Command.Outputs ['|'] next := fun next houtputs => by
    have hhead := houtputs.head?_eq
    cases hhead
  rw [Command.writesToStdout_iff, words_behind_pipe, Command.sendsToStdout_append_iff (by simp),
    Command.sendsToStdout_cons_iff, or_iff_right (hpipe _)]

/-- **All words of a line are read for options.** A command of curl has the
parameters of its own options and of those behind a pipe, so that these
change the parameters if and only if they are not given in front of the
pipe too; and so it is with wget's output. Certificates are ignored with
the option of either, and never by wget. -/
theorem options_behind_pipe (registry : Registry) (fetcher : Fetch.Fetcher) (c s : String) :
    (Text.begins c "curl" = true → ∃ a b,
      (curl.recognize registry fetcher c).value = some a ∧
      (curl.recognize registry fetcher (c ++ " | " ++ s)).value = some b ∧
      b.parameters = (curlSettings.filter fun p => Gives p.1.1 p.1.2 (Text.words c.toList) ∨
        Gives p.1.1 p.1.2 (Text.words s.toList)).map (·.2) ∧
      (a.parameters = b.parameters ↔ ∀ o ∈ curlOptions,
        Gives o.1 o.2 (Text.words s.toList) → Gives o.1 o.2 (Text.words c.toList)) ∧
      (Caution.ignoresCertificates.text ∈ b.warnings ↔
        Caution.ignoresCertificates.text ∈ a.warnings ∨
          Gives 'k' "--insecure" (Text.words s.toList))) ∧
    (Text.begins c "wget" = true → ∃ a b,
      (wget.recognize registry fetcher c).value = some a ∧
      (wget.recognize registry fetcher (c ++ " | " ++ s)).value = some b ∧
      (a.parameters = b.parameters ↔
        (SendsToStdout (Text.words s.toList) → SendsToStdout (Text.words c.toList))) ∧
      Caution.ignoresCertificates.text ∉ a.warnings ∧
      Caution.ignoresCertificates.text ∉ b.warnings) := by
  have hbegins : ∀ {tool : String}, Text.begins c tool = true →
      Text.begins (c ++ " | " ++ s) tool = true := by
    intro tool h
    rw [Text.begins_iff] at h ⊢
    rw [String.toList_append, String.toList_append, List.append_assoc]
    exact h.trans (List.prefix_append _ _)
  have hinsecure : Caution.ignoresCertificates ∈ Caution.ofCommand := by decide
  have hlong := isLong_of_mem_curlOptions
  refine ⟨fun hc => ?_, fun hc => ?_⟩
  · have hx : Tells registry fetcher c curl _ := .curl hc
    have hy : Tells registry fetcher (c ++ " | " ++ s) curl _ := .curl (hbegins hc)
    have hax := hx.agree_idle rfl
    have hay := hy.agree_idle rfl
    refine ⟨_, _, hx.recognize_eq.1, hy.recognize_eq.1, ?_, ?_, ?_⟩
    · rw [hay.parameters, idle, parameters_curlBase]
      congr 1
      refine List.filter_congr fun p hp => Bool.eq_iff_iff.mpr ?_
      rw [decide_eq_true_iff]
      exact hasFlag_behind_pipe_iff (hlong _ (List.mem_map_of_mem hp))
    · rw [hax.parameters, hay.parameters, idle, idle, parameters_curlBase_eq_iff]
      refine forall₂_congr fun o ho => ?_
      rw [Bool.eq_iff_iff, hasFlag_behind_pipe_iff (hlong o ho), Command.hasFlag_iff]
      exact iff_self_or
    · have hname : Command.IsLong "--insecure" := by decide
      rw [mem_warnings_iff_of_agree hax hinsecure, mem_warnings_iff_of_agree hay hinsecure, idle,
        idle, ignoresCertificates_mem_curlBase_iff, ignoresCertificates_mem_curlBase_iff,
        hasFlag_behind_pipe_iff hname, Command.hasFlag_iff]
  · have hx : Tells registry fetcher c wget _ := .wget hc
    have hy : Tells registry fetcher (c ++ " | " ++ s) wget _ := .wget (hbegins hc)
    have hax := hx.agree_idle rfl
    have hay := hy.agree_idle rfl
    refine ⟨_, _, hx.recognize_eq.1, hy.recognize_eq.1, ?_, ?_, ?_⟩
    · rw [hax.parameters, hay.parameters, idle, idle, parameters_wgetBase_eq_iff,
        Bool.eq_iff_iff, writesToStdout_behind_pipe_iff, Command.writesToStdout_iff]
      exact iff_self_or
    · rw [mem_warnings_iff_of_agree hax hinsecure, idle, warnings_wgetBase]
      exact List.not_mem_nil
    · rw [mem_warnings_iff_of_agree hay hinsecure, idle, warnings_wgetBase]
      exact List.not_mem_nil

/-- A letter of tar's cluster is one of curl's options. -/
theorem options_behind_pipe_keep : ∃ a b,
    (curl.recognize ⟨[], []⟩ ⟨.offline, .default, 0⟩ "curl http://a/b.tgz").value = some a ∧
    (curl.recognize ⟨[], []⟩ ⟨.offline, .default, 0⟩ "curl http://a/b.tgz | tar -xzk").value =
      some b ∧
    a.parameters ≠ b.parameters := by
  obtain ⟨a, b, ha, hb, -, hparameters, -⟩ :=
    (options_behind_pipe ⟨[], []⟩ ⟨.offline, .default, 0⟩ "curl http://a/b.tgz" "tar -xzk").1
      (by decide)
  refine ⟨a, b, ha, hb, fun heq => ?_⟩
  have hgiven := hparameters.mp heq ('k', "--insecure") (by decide) (by decide)
  exact absurd hgiven (by decide)

/-- So a command behind a pipe can add a parameter and a caution to a
command of curl that has neither. -/
theorem tar_ignores_certificates : ∃ a b,
    (curl.recognize ⟨[], []⟩ ⟨.offline, .default, 0⟩ "curl https://example.com/x.tgz").value =
      some a ∧
    (curl.recognize ⟨[], []⟩ ⟨.offline, .default, 0⟩
      ("curl https://example.com/x.tgz" ++ " | " ++ "tar -xzk")).value = some b ∧
    a.parameters ≠ b.parameters ∧
    ¬(Caution.ignoresCertificates.text ∈ a.warnings ↔
      Caution.ignoresCertificates.text ∈ b.warnings) := by
  refine ⟨_, _, rfl, rfl, fun heq => ?_, ?_⟩
  · have hlength := congrArg List.length heq
    exact absurd hlength (by decide)
  · decide

end Base

end ShellPreview.Family
