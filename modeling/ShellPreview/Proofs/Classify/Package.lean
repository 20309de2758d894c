import ShellPreview.Proofs.Classify.Warnings
import ShellPreview.Proofs.Classify.WellFormed
import ShellPreview.Proofs.Registry.Builtin
/-!
# Classifying — the package of a command

Only the family of the package managers tells of a package
(`Tells.of_package`), and it is the one that the pattern of the manager of
the command finds. With the built-in tables this is the package that the
words of the command ask for first (`Classifier.Credits`), and there is one
exactly if they ask for any (`package_iff_credits`). On the phrase with
which they ask depends whether there is a warning that software is
installed (`installs_of_package`).
-/

namespace ShellPreview

open Text (words)

/-- What is said of a package of a manager. -/
def Manager.packageOf (m : Manager) (name : String) : Package :=
  ⟨name, m.name, "Installing package: " ++ name,
    some (Text.replaceAll m.searchTemplate "\x7bpackage\x7d" name)⟩

namespace Family

variable {registry : Registry} {fetcher : Fetch.Fetcher} {command : String} {family : Family}
variable {x : Fetch.Traced Analysis} {p : Package} {m : Installer}

/-! ## Which family tells of a package -/

theorem package_ofTool (t : Tool) (command : String) : (ofTool t command).package = none := by
  by_cases hc : Text.holds command "-c" = true
  · rcases hi : Command.inlineCode command with - | code
    · simp only [ofTool, hc, hi, if_true]
      rfl
    · simp only [ofTool, hc, hi, if_true]
      rfl
  · simp only [ofTool, if_neg hc]
    rfl

theorem package_ofInlinePython (command : String) : (ofInlinePython command).package = none := by
  unfold ofInlinePython
  split <;> rfl

/-- **Only the family of the package managers tells of a package.** -/
theorem Tells.of_package (h : Tells registry fetcher command family x)
    (hp : x.value.package = some p) :
    ∃ m, registry.managerFor command = some m ∧ x.value = ofManager m command := by
  rcases hd : family.downloads with - | -
  · cases h with
    | manager hm => exact ⟨_, hm, rfl⟩
    | tool =>
      rw [Fetch.Traced.value_pure, package_ofTool] at hp
      cases hp
    | inline =>
      rw [Fetch.Traced.value_pure, package_ofInlinePython] at hp
      cases hp
    | npm => cases hp
    | npx => cases hp
    | _ => cases hd
  · have hbare : (family.idle command).Bare registry := bare_idle hd command
    rw [(h.agree_idle hd).package, hbare.package] at hp
    cases hp

/-! ## What is said of a package -/

/-- No built-in manager leaves out where to look for a package. -/
theorem searchUrl_builtin {m : Manager} (hm : m ∈ Registry.defaultManagers) (name : String) :
    m.searchUrl name = some (Text.replaceAll m.searchTemplate "\x7bpackage\x7d" name) := by
  have htemplate : ∀ m ∈ Registry.defaultManagers, m.searchTemplate.isEmpty = false := by decide
  rw [Manager.searchUrl, htemplate m hm]
  rfl

/-- The package is what the pattern of the manager finds. -/
theorem package_ofManager (hm : m.toManager ∈ Registry.defaultManagers) :
    (ofManager m command).package = (m.packageName command).map m.packageOf := by
  simp only [ofManager, Analysis.package_warn, searchUrl_builtin hm]
  rfl

theorem mem_cautionIf_iff {condition : Bool} {c d : Caution} :
    c ∈ cautionIf condition d ↔ condition = true ∧ c = d := by
  cases condition with
  | false => simp [cautionIf]
  | true => simp [cautionIf]

/-- There is a warning that software is installed if the command has a
word for it. -/
theorem installs_mem_ofManager_iff :
    Caution.installs.text ∈ ((ofManager m command).warn (Safety.cautions command)).warnings ↔
      Text.holds command "install" = true ∨ Text.holds command "add" = true := by
  have hwarnings : ((ofManager m command).warn (Safety.cautions command)).warnings =
      (cautionIf (Text.holds command "install" || Text.holds command "add") .installs ++
        cautionIf (isGlobalInstall command) .installsGlobally ++
          Safety.cautions command).map Caution.text := by
    rw [List.map_append]
    rfl
  have hglobal : Caution.installs ∉ cautionIf (isGlobalInstall command) .installsGlobally := by
    simp [mem_cautionIf_iff]
  have hsafe : Caution.installs ∉ Safety.cautions command := fun hmem =>
    absurd ((Safety.cautions_sublist command).subset hmem) (by decide)
  rw [hwarnings, List.mem_map_of_injective Caution.text_injective, List.mem_append,
    or_iff_left hsafe, List.mem_append, or_iff_left hglobal, mem_cautionIf_iff,
    and_iff_left rfl, Bool.or_eq_true]

end Family

namespace Classifier

variable {c : Classifier} {command : String} {p : Package} {m : Installer}

/-! ## The manager of a command -/

/-- **A command with a package** is a command of a manager. -/
theorem exists_manager_of_package (hp : (c.classify command).value.package = some p) :
    ∃ m, c.registry.managerFor (Text.trimmed command) = some m ∧
      (c.classify command).value =
        (Family.ofManager m (Text.trimmed command)).warn
          (Safety.cautions (Text.trimmed command)) := by
  rcases c.firstMatch_or_noMatch (Text.trimmed command) with ⟨front, family, a, h⟩ | hno
  · obtain ⟨x, hx, rfl⟩ := h.tells
    rw [(classify_of_firstMatch h).1] at hp ⊢
    obtain ⟨m, hm, hvalue⟩ := hx.of_package hp
    exact ⟨m, hm, by rw [hvalue]⟩
  · rw [(classify_of_noMatch hno).1] at hp
    cases hp

/-- Where all families are tried, a command of a manager is told of as
one. -/
theorem classify_of_managerFor {registry : Registry} (fetcher : Fetch.Fetcher)
    (hm : registry.managerFor (Text.trimmed command) = some m) :
    ((standard registry fetcher).classify command).value =
      (Family.ofManager m (Text.trimmed command)).warn
        (Safety.cautions (Text.trimmed command)) := by
  have htells : Family.Tells registry fetcher (Text.trimmed command) .packageManager _ :=
    .manager hm
  have hfirst : (standard registry fetcher).FirstMatch (Text.trimmed command) [] .packageManager
      (Family.ofManager m (Text.trimmed command)) :=
    ⟨⟨_, rfl⟩, List.forall_mem_nil _, htells.recognize_eq.1⟩
  exact (classify_of_firstMatch hfirst).1

/-! ## Built-in managers -/

/-- **Why a package is told of**: the manager of the command is one of the
built-in ones, and the package is the one that the words of the command
ask it for first. -/
structure Credits (registry : Registry) (command : String) (p : Package) (m : Installer)
    (u : Usage) : Prop where
  selected : registry.managerFor (Text.trimmed command) = some m
  builtin : m.toManager ∈ Registry.defaultManagers
  usage_mem : u ∈ usages
  word : u.word = m.token
  package : p = m.packageOf p.name
  cited : ∃ k token rest, u.CitesFirst (words command.toList) k token rest p.name.toList

/-- A manager is told of with the package that the words ask it for. -/
theorem package_ofManager_eq_some_iff {registry : Registry}
    (h : Configuration.default.tables = .ok registry)
    (hm : registry.managerFor (Text.trimmed command) = some m) :
    (Family.ofManager m (Text.trimmed command)).package = some p ↔
      ∃ u, Credits registry command p m u := by
  have hmem : m ∈ registry.managers := (Registry.serves_of_managerFor hm).1
  have hbuiltin := Registry.mem_default_of_mem h hmem
  rw [Family.package_ofManager hbuiltin, Option.map_eq_some_iff]
  constructor
  · rintro ⟨name, hname, rfl⟩
    obtain ⟨u, hu, hword, -⟩ := exists_usage hbuiltin
    have hcited := (Registry.packageName_builtin h hmem hu hword).mp hname
    rw [Text.words_trimmed] at hcited
    exact ⟨u, hm, hbuiltin, hu, hword, rfl, hcited⟩
  · rintro ⟨u, hcredits⟩
    refine ⟨p.name, ?_, hcredits.package.symm⟩
    rw [Registry.packageName_builtin h hmem hcredits.usage_mem hcredits.word,
      Text.words_trimmed]
    exact hcredits.cited

theorem exists_credits (hc : Configuration.default.tables = .ok c.registry)
    (hp : (c.classify command).value.package = some p) :
    ∃ m u, Credits c.registry command p m u ∧
      (c.classify command).value =
        (Family.ofManager m (Text.trimmed command)).warn
          (Safety.cautions (Text.trimmed command)) := by
  obtain ⟨m, hm, hvalue⟩ := exists_manager_of_package hp
  rw [hvalue, Analysis.package_warn, package_ofManager_eq_some_iff hc hm] at hp
  obtain ⟨u, hcredits⟩ := hp
  exact ⟨m, u, hcredits, hvalue⟩

/-- The command begins with the word of a built-in manager, whose pattern
finds the name in it. -/
def AsksUpFront (manager name command : String) : Prop :=
  ∃ m ∈ Registry.defaultManagers, m.name = manager ∧ m.leads (Text.trimmed command) = true ∧
    ((Pattern.parse m.installPattern).toOption.bind fun pattern =>
      pattern.firstText (Text.trimmed command)) = some name

instance (manager name command : String) : Decidable (AsksUpFront manager name command) :=
  inferInstanceAs (Decidable (∃ _ ∈ _, _))

/-- **A command that begins with the word of a built-in manager** is told
of as one of this manager, with the package that its pattern finds. -/
theorem exists_package_of_asksUpFront {manager name command : String}
    (hm : AsksUpFront manager name command) :
    ∃ registry, Configuration.default.tables = .ok registry ∧ ∀ fetcher,
      (∃ p, ((standard registry fetcher).classify command).value.package = some p ∧
        p.name = name ∧ p.manager = manager ∧ p.description = "Installing package: " ++ name) ∧
      (Caution.installs.text ∈ ((standard registry fetcher).classify command).value.warnings ↔
        Text.holds (Text.trimmed command) "install" = true ∨
          Text.holds (Text.trimmed command) "add" = true) := by
  obtain ⟨m, hm, rfl, hleads, hfinds⟩ := hm
  obtain ⟨registry, h⟩ := Registry.exists_builtin
  obtain ⟨i, hi, rfl⟩ := Registry.exists_installer h hm
  have hselects := Registry.managerFor_of_leads (Registry.spaceless_builtin h)
    (Registry.nodup_builtin h) hi hleads
  refine ⟨registry, h, fun fetcher => ?_⟩
  rw [classify_of_managerFor fetcher hselects]
  refine ⟨⟨i.packageOf name, ?_, rfl, rfl, rfl⟩, Family.installs_mem_ofManager_iff⟩
  rw [Analysis.package_warn, Family.package_ofManager hm, Registry.packageName_eq_firstText h hi,
    hfinds, Option.map_some]

/-- What pip is asked for, what pnpm is asked for behind npm, and what npm
is asked for with its short phrase. -/
theorem asksUpFront_samples :
    AsksUpFront "pip" "requests" "pip install -U requests" ∧
      AsksUpFront "npm" "lodash" "npm run build && pnpm install lodash" ∧
      AsksUpFront "npm" "lodash" "npm i lodash" := by
  decide +kernel

/-- **A package is credited to the manager whose phrase asks for it.** With
the built-in tables a command is told of with a package exactly if its
words ask the manager of the command for this package before any other.
The word of the manager is one of the words. The first word of the phrase
may only be the end of a word of the command; it is a whole word unless a
tool with a longer name asks for something. -/
theorem package_iff_credits {registry : Registry}
    (h : Configuration.default.tables = .ok registry) (fetcher : Fetch.Fetcher)
    (command : String) (p : Package) :
    (((standard registry fetcher).classify command).value.package = some p ↔
      ∃ m u, Credits registry command p m u) ∧
    ∀ m u, Credits registry command p m u →
      p.manager = m.name ∧ m.token.toList ∈ words command.toList ∧
      ∃ k token rest, u.CitesFirst (words command.toList) k token rest p.name.toList ∧
        ((∀ j other others name, u.Cites (words command.toList) j other others name →
          other = m.token.toList) → token = m.token.toList) := by
  refine ⟨⟨fun hp => ?_, ?_⟩, fun m u hcredits => ?_⟩
  · obtain ⟨m, u, hcredits, -⟩ := exists_credits (c := standard registry fetcher) h hp
    exact ⟨m, u, hcredits⟩
  · rintro ⟨m, u, hcredits⟩
    rw [classify_of_managerFor fetcher hcredits.selected, Analysis.package_warn]
    exact (package_ofManager_eq_some_iff h hcredits.selected).mpr ⟨u, hcredits⟩
  · obtain ⟨k, token, rest, hcited⟩ := hcredits.cited
    have hmanager : p.manager = m.name := by
      rw [hcredits.package]
      rfl
    have hword := Registry.token_mem_words h hcredits.selected
    rw [Text.words_trimmed] at hword
    exact ⟨hmanager, hword, k, token, rest, hcited,
      fun hwhole => hwhole k token rest _ hcited.toCites⟩

/-- A package that pip is asked for. -/
theorem package_iff_credits_requests :
    ∃ registry, Configuration.default.tables = .ok registry ∧
      ∃ p m u, Credits registry "pip install -U requests" p m u ∧ p.name = "requests" ∧
        p.manager = "pip" ∧ "pip".toList ∈ words "pip install -U requests".toList := by
  obtain ⟨registry, h, htold⟩ := exists_package_of_asksUpFront asksUpFront_samples.1
  obtain ⟨p, hp, hname, hmanager, -⟩ := (htold ⟨.offline, .default, 0⟩).1
  obtain ⟨hiff, hwhere⟩ := package_iff_credits h ⟨.offline, .default, 0⟩
    "pip install -U requests" p
  obtain ⟨m, u, hcredits⟩ := hiff.mp hp
  have htoken : ∀ m ∈ Registry.defaultManagers, m.name = "pip" → m.token = "pip" := by decide
  have hpip : m.token = "pip" :=
    htoken m.toManager hcredits.builtin ((hwhere m u hcredits).1.symm.trans hmanager)
  exact ⟨registry, h, p, m, u, hcredits, hname, hmanager, hpip ▸ (hwhere m u hcredits).2.1⟩

/-- A package that pnpm is asked for and npm is credited with: nowhere in
the command is npm asked for a package. -/
theorem credited_to_npm :
    ∃ registry, Configuration.default.tables = .ok registry ∧ ∀ fetcher, ∃ p,
      ((standard registry fetcher).classify
        "npm run build && pnpm install lodash").value.package = some p ∧
      p.name = "lodash" ∧ p.manager = "npm" ∧
      ∀ u ∈ usages, u.word = "npm" → ∀ k rest name, ¬u.Cites
        (words "npm run build && pnpm install lodash".toList) k "npm".toList rest name := by
  obtain ⟨registry, h, htold⟩ := exists_package_of_asksUpFront asksUpFront_samples.2.1
  have hphrase : ∀ u ∈ usages, u.word = "npm" → ∀ rest ∈ u.rests,
      ¬"npm".toList :: rest.map String.toList <:+:
        words "npm run build && pnpm install lodash".toList := by
    decide
  refine ⟨registry, h, fun fetcher => ?_⟩
  obtain ⟨p, hp, hname, hmanager, -⟩ := (htold fetcher).1
  exact ⟨p, hp, hname, hmanager, fun u hu hword k rest name hcites =>
    hphrase u hu hword rest hcites.rest_mem hcites.phrase_isInfix⟩

/-! ## The warning that software is installed -/

/-- The only phrase without a word for installing. -/
theorem install_or_add_mem_rest : ∀ u ∈ usages, ∀ rest ∈ u.rests,
    "install" ∈ rest ∨ "add" ∈ rest ∨ u.word = "npm" ∧ rest = ["i"] := by
  decide

theorem holds_trimmed_of_mem_words {v : String} (hv : v.toList ∈ words command.toList) :
    Text.holds (Text.trimmed command) v = true := by
  rw [← Text.words_trimmed] at hv
  exact Text.holds_iff.mpr (Text.isInfix_of_mem_words hv)

/-- **A command with a package is said to install software**, but for one
phrase. With the built-in tables there is the warning exactly if `install`
or `add` stands in the command; and there is, unless the package is found
behind the short phrase of npm. -/
theorem installs_of_package (hc : Configuration.default.tables = .ok c.registry)
    (hp : (c.classify command).value.package = some p) :
    (Caution.installs.text ∈ (c.classify command).value.warnings ↔
      Text.holds (Text.trimmed command) "install" = true ∨
        Text.holds (Text.trimmed command) "add" = true) ∧
    (Caution.installs.text ∈ (c.classify command).value.warnings ∨
      p.manager = "npm" ∧ ∃ u ∈ usages, u.word = "npm" ∧ ∃ k token,
        u.CitesFirst (words command.toList) k token ["i"] p.name.toList) := by
  obtain ⟨m, u, h, hvalue⟩ := exists_credits hc hp
  obtain ⟨k, token, rest, hcited⟩ := h.cited
  rw [hvalue, Family.installs_mem_ofManager_iff]
  refine ⟨Iff.rfl, ?_⟩
  rcases install_or_add_mem_rest u h.usage_mem rest hcited.rest_mem with
    hinstall | hadd | ⟨hnpm, rfl⟩
  · exact .inl (.inl (holds_trimmed_of_mem_words (hcited.mem_of_mem_rest hinstall)))
  · exact .inl (.inr (holds_trimmed_of_mem_words (hcited.mem_of_mem_rest hadd)))
  · have hname : ∀ m ∈ Registry.defaultManagers, m.token = "npm" → m.name = "npm" := by decide
    refine .inr ⟨?_, u, h.usage_mem, hnpm, k, token, hcited⟩
    rw [h.package]
    exact hname _ h.builtin (h.word.symm.trans hnpm)

/-- A package that pip is asked for, and the warning. -/
theorem installs_of_package_requests :
    ∃ c : Classifier, Configuration.default.tables = .ok c.registry ∧
      (∃ p, (c.classify "pip install -U requests").value.package = some p) ∧
      Caution.installs.text ∈ (c.classify "pip install -U requests").value.warnings := by
  obtain ⟨registry, h, htold⟩ := exists_package_of_asksUpFront asksUpFront_samples.1
  obtain ⟨p, hp, -⟩ := (htold ⟨.offline, .default, 0⟩).1
  have hinstall : Text.holds (Text.trimmed "pip install -U requests") "install" = true := by
    decide
  exact ⟨_, h, ⟨p, hp⟩, (installs_of_package h hp).1.mpr (.inl hinstall)⟩

/-- A package that npm is asked for with its short phrase, and no
warning. -/
theorem no_warning_for_short_phrase :
    ∃ registry, Configuration.default.tables = .ok registry ∧ ∀ fetcher,
      (∃ p, ((standard registry fetcher).classify "npm i lodash").value.package = some p ∧
        p.name = "lodash" ∧ p.manager = "npm" ∧ p.description = "Installing package: lodash") ∧
      Caution.installs.text ∉
        ((standard registry fetcher).classify "npm i lodash").value.warnings := by
  obtain ⟨registry, h, htold⟩ := exists_package_of_asksUpFront asksUpFront_samples.2.2
  have hwords : ¬(Text.holds (Text.trimmed "npm i lodash") "install" = true ∨
      Text.holds (Text.trimmed "npm i lodash") "add" = true) := by
    decide
  exact ⟨registry, h, fun fetcher => ⟨(htold fetcher).1,
    fun hwarned => hwords ((htold fetcher).2.mp hwarned)⟩⟩

end Classifier

end ShellPreview
