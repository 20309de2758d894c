import ShellPreview.Proofs.Classify.Package
import ShellPreview.Proofs.Registry.Call
/-!
# Classifying — commands that ask for a package

A call asks its manager for a package behind any options. With the built-in
tables the analysis has the package that is asked for, also behind options,
for all managers but one: the pattern of winget knows one option only, and
ends a name at a hyphen (`package_of_call`).
-/

namespace ShellPreview

open Pattern (nameOf isOption)
open Text (words)

namespace Usage

variable {u : Usage} (call : u.Call)

/-- The options of a call pass if there is no marker, or nothing else in
front of the package. -/
theorem passes_call_iff : u.Passes (call.flags.map String.toList) ↔
    ∀ w ∈ u.marker, call.flags = [] ∨ call.flags = [w] := by
  have hflags : ∀ w : String, call.flags.map String.toList = [w.toList] ↔ call.flags = [w] := by
    intro w
    rw [← List.map_singleton, (List.map_injective_iff.mpr fun _ _ => String.toList_inj.mp).eq_iff]
  constructor
  · intro h w hw
    simpa only [List.map_eq_nil_iff, hflags] using h.marked w hw
  · intro h
    refine ⟨List.forall_mem_map.mpr fun flag hflag => (call.flags_option flag hflag).1,
      fun w hw => ?_⟩
    simpa only [List.map_eq_nil_iff, hflags] using h w hw

/-- A call whose options pass asks for its package before anything else. -/
theorem citesFirst_of_call {name : List Char} (hflags : u.Passes (call.flags.map String.toList))
    (hname : nameOf u.stops [call.package.toList] = some name) :
    ∃ k token rest, u.CitesFirst (words call.command.toList) k token rest name :=
  ⟨0, u.word.toList, call.rest, (cites_call_iff call).mpr ⟨rfl, rfl, hflags, hname⟩,
    fun _ hj => absurd hj (Nat.not_lt_zero _)⟩

/-- One whose options do not pass asks for nothing, if no later word ends
like its first one. -/
theorem not_cites_of_call (hflags : ¬u.Passes (call.flags.map String.toList))
    (hlater : ∀ w ∈ (words call.command.toList).tail, ¬u.word.toList <:+ w)
    (k : Nat) (token : List Char) (rest : List String) (name : List Char) :
    ¬u.Cites (words call.command.toList) k token rest name := by
  intro hcites
  cases k with
  | zero => exact hflags ((cites_call_iff call).mp hcites).2.2.1
  | succ k =>
    obtain ⟨flags, argument, tail, htokens, -⟩ := hcites.follows
    have hmem : token ∈ (words call.command.toList).drop (k + 1) :=
      htokens ▸ List.mem_cons_self
    rw [← List.drop_tail] at hmem
    exact hlater token (List.mem_of_mem_drop hmem) hcites.ends

/-- A package can be called for, with options, behind the word `install`. -/
theorem exists_call {flags : List String} {package : String} (hrest : ["install"] ∈ u.rests)
    (hflags : ∀ flag ∈ flags, isOption flag.toList = true ∧ Text.IsWord flag.toList)
    (hpackage : Text.IsWord package.toList) (hplain : package.toList.head? ≠ some '-') :
    ∃ call : u.Call,
      call.command = " ".intercalate (u.word :: "install" :: (flags ++ [package])) ∧
        call.flags = flags ∧ call.package = package :=
  ⟨{ rest := ["install"], flags, package, remainder := "", rest_mem := hrest,
      flags_option := hflags, package_word := hpackage, package_plain := hplain,
      remainder_apart := Text.atStop_nil _ }, String.append_empty, rfl, rfl⟩

/-- Any options may stand behind the phrases of all managers but winget,
and only those of go end a name early. -/
theorem unmarked_of_mem : ∀ u ∈ usages, u.word ≠ "winget" →
    u.marker = none ∧ (u.stops = [] ∨ u.word = "go" ∧ u.stops = ['@']) := by
  decide

/-- Only one option may stand behind the phrase of winget, and a hyphen
ends a name. -/
theorem marked_of_mem : ∀ u ∈ usages, u.word = "winget" →
    u.marker = some "--id" ∧ u.stops = ['-'] := by
  decide

/-- What winget is asked for. -/
theorem nameOf_package_of_hyphen (hstops : u.stops = ['-']) :
    nameOf u.stops [call.package.toList] = some (call.package.toList.takeWhile (· ≠ '-')) := by
  have hfirst : ∀ c ∈ call.package.toList.head?, c ∉ u.stops := by
    intro c hc hstop
    rw [hstops, List.mem_singleton] at hstop
    exact call.package_plain (hstop ▸ hc)
  have hends : (fun c => !u.stops.contains c) = fun c => decide (c ≠ '-') := by
    funext c
    simp [hstops]
  rw [nameOf_package call hfirst, hends]

end Usage

namespace Classifier

variable {registry : Registry} {m : Manager} {u : Usage}

/-- **A call is told of with what is asked for first.** -/
theorem package_call_eq_some_iff (h : Configuration.default.tables = .ok registry)
    (hm : m ∈ Registry.defaultManagers) (hu : u ∈ usages) (hword : u.word = m.token)
    (call : u.Call) (fetcher : Fetch.Fetcher) {p : Package} :
    ((standard registry fetcher).classify call.command).value.package = some p ↔
      p = m.packageOf p.name ∧ ∃ k token rest,
        u.CitesFirst (words call.command.toList) k token rest p.name.toList := by
  obtain ⟨i, hi, rfl⟩ := Registry.exists_installer h hm
  rw [classify_of_managerFor fetcher (Registry.managerFor_call h hi hword call),
    Analysis.package_warn, Family.package_ofManager hm, Option.map_eq_some_iff]
  simp only [Registry.packageName_builtin h hi hu hword, Text.words_trimmed]
  constructor
  · rintro ⟨name, hcited, rfl⟩
    exact ⟨rfl, hcited⟩
  · rintro ⟨hp, hcited⟩
    exact ⟨p.name, hcited, hp.symm⟩

/-- With options that pass it is told of with the name that the package
gives, -/
theorem package_call_of_passes (h : Configuration.default.tables = .ok registry)
    (hm : m ∈ Registry.defaultManagers) (hu : u ∈ usages) (hword : u.word = m.token)
    (call : u.Call) (hflags : u.Passes (call.flags.map String.toList)) {name : String}
    (hname : nameOf u.stops [call.package.toList] = some name.toList) (fetcher : Fetch.Fetcher) :
    ((standard registry fetcher).classify call.command).value.package =
      some (m.packageOf name) :=
  (package_call_eq_some_iff h hm hu hword call fetcher).mpr
    ⟨rfl, Usage.citesFirst_of_call call hflags hname⟩

/-- and with others without a package. -/
theorem package_call_of_not_passes (h : Configuration.default.tables = .ok registry)
    (hm : m ∈ Registry.defaultManagers) (hu : u ∈ usages) (hword : u.word = m.token)
    (call : u.Call) (hflags : ¬u.Passes (call.flags.map String.toList))
    (hlater : ∀ w ∈ (words call.command.toList).tail, ¬u.word.toList <:+ w)
    (fetcher : Fetch.Fetcher) :
    ((standard registry fetcher).classify call.command).value.package = none := by
  refine Option.eq_none_iff_forall_ne_some.mpr fun p hp => ?_
  obtain ⟨-, k, token, rest, hcited⟩ := (package_call_eq_some_iff h hm hu hword call fetcher).mp hp
  exact Usage.not_cites_of_call call hflags hlater k token rest _ hcited.toCites

/-- **Behind a phrase and options the whole package is taken**, for all
built-in managers but winget, if for go no `@` is in it. With winget only
the option `--id` may stand there, and the package ends at a hyphen; behind
other options nothing is found, unless winget is called once more. -/
theorem package_of_call (h : Configuration.default.tables = .ok registry)
    (hm : m ∈ Registry.defaultManagers) :
    ∃ u ∈ usages, u.word = m.token ∧ ∀ (call : u.Call) (fetcher : Fetch.Fetcher),
      (m.token ≠ "winget" → (m.token = "go" → '@' ∉ call.package.toList) →
        ((standard registry fetcher).classify call.command).value.package =
          some (m.packageOf call.package)) ∧
      (m.token = "winget" → call.flags = [] ∨ call.flags = ["--id"] →
        ((standard registry fetcher).classify call.command).value.package =
          some (m.packageOf (String.ofList (call.package.toList.takeWhile (· ≠ '-'))))) ∧
      (m.token = "winget" → ¬(call.flags = [] ∨ call.flags = ["--id"]) →
        (∀ w ∈ (words call.command.toList).tail, ¬m.token.toList <:+ w) →
        ((standard registry fetcher).classify call.command).value.package = none) := by
  obtain ⟨u, hu, hword, -⟩ := exists_usage hm
  refine ⟨u, hu, hword, fun call fetcher => ⟨fun hother hgo => ?_, fun hwinget hflags => ?_,
    fun hwinget hflags hlater => ?_⟩⟩
  · obtain ⟨hmarker, hstops⟩ := Usage.unmarked_of_mem u hu (hword ▸ hother)
    have hpasses : u.Passes (call.flags.map String.toList) :=
      (Usage.passes_call_iff call).mpr fun w hw => by simp [hmarker] at hw
    have hwhole : ∀ c ∈ u.stops, c ∉ call.package.toList := by
      rcases hstops with hnone | ⟨hgoes, hat⟩
      · rw [hnone]
        exact List.forall_mem_nil _
      · rw [hat]
        exact List.forall_mem_singleton.mpr (hgo (hword.symm.trans hgoes))
    exact package_call_of_passes h hm hu hword call hpasses
      (Usage.nameOf_package_of_no_stop call hwhole) fetcher
  · obtain ⟨hmarker, hstops⟩ := Usage.marked_of_mem u hu (hword.trans hwinget)
    have hpasses : u.Passes (call.flags.map String.toList) :=
      (Usage.passes_call_iff call).mpr fun w hw => by
        rw [hmarker, Option.mem_some_iff] at hw
        exact hw ▸ hflags
    refine package_call_of_passes h hm hu hword call hpasses ?_ fetcher
    rw [Usage.nameOf_package_of_hyphen call hstops, String.toList_ofList]
  · obtain ⟨hmarker, -⟩ := Usage.marked_of_mem u hu (hword.trans hwinget)
    have hstays : ¬u.Passes (call.flags.map String.toList) := fun hpasses =>
      hflags ((Usage.passes_call_iff call).mp hpasses "--id" (by rw [hmarker]; rfl))
    exact package_call_of_not_passes h hm hu hword call hstays (hword ▸ hlater) fetcher

/-- A call of npm with an option. -/
theorem package_of_call_typescript :
    ∃ registry, Configuration.default.tables = .ok registry ∧
      ∃ m ∈ Registry.defaultManagers, m.token = "npm" ∧ ∃ u ∈ usages, u.word = "npm" ∧
        ∃ call : u.Call, call.command = "npm install -g typescript" ∧ call.flags = ["-g"] ∧
          ∀ fetcher, ((standard registry fetcher).classify call.command).value.package =
            some (m.packageOf "typescript") := by
  obtain ⟨registry, h⟩ := Registry.exists_builtin
  obtain ⟨m, hm, hnpm⟩ : ∃ m ∈ Registry.defaultManagers, m.token = "npm" := by decide
  obtain ⟨u, hu, hword, hcalls⟩ := package_of_call h hm
  rw [hnpm] at hword hcalls
  have hrest : ∀ u ∈ usages, u.word = "npm" → ["install"] ∈ u.rests := by decide
  obtain ⟨call, hcommand, hflags, hpackage⟩ : ∃ call : u.Call, _ ∧ call.flags = ["-g"] ∧
      call.package = "typescript" :=
    Usage.exists_call (hrest u hu hword) (by decide) (by decide) (by decide)
  have htext : " ".intercalate ["npm", "install", "-g", "typescript"] =
      "npm install -g typescript" := by decide
  rw [hword] at hcommand
  replace hcommand := hcommand.trans htext
  refine ⟨registry, h, m, hm, hnpm, u, hu, hword, call, hcommand, hflags, fun fetcher => ?_⟩
  rw [← hpackage]
  exact (hcalls call fetcher).1 (by decide) fun hgo => absurd hgo (by decide)

/-- A call of winget with two options has no package. -/
theorem no_package_of_winget_call :
    ∃ registry, Configuration.default.tables = .ok registry ∧ Usage.winget ∈ usages ∧
      ∃ call : Usage.winget.Call, call.command = "winget install -e --id Git.Git" ∧
        call.flags = ["-e", "--id"] ∧ call.package = "Git.Git" ∧
        ∀ fetcher, ((standard registry fetcher).classify call.command).value.package = none := by
  obtain ⟨registry, h⟩ := Registry.exists_builtin
  obtain ⟨m, hm, hwinget⟩ : ∃ m ∈ Registry.defaultManagers, m.token = "winget" := by decide
  have hu : Usage.winget ∈ usages := List.mem_append_right _ (List.mem_singleton_self _)
  obtain ⟨call, hcommand, hflags, hpackage⟩ : ∃ call : Usage.winget.Call, _ ∧
      call.flags = ["-e", "--id"] ∧ call.package = "Git.Git" :=
    Usage.exists_call (List.mem_singleton_self _) (by decide) (by decide) (by decide)
  have htext : " ".intercalate ["winget", "install", "-e", "--id", "Git.Git"] =
      "winget install -e --id Git.Git" := by decide
  replace hcommand := hcommand.trans htext
  have hstays : ¬Usage.winget.Passes (call.flags.map String.toList) := by
    intro hpasses
    have hmarked := (Usage.passes_call_iff call).mp hpasses "--id" rfl
    rw [hflags] at hmarked
    exact absurd hmarked (by decide)
  have hlater : ∀ w ∈ (words call.command.toList).tail, ¬Usage.winget.word.toList <:+ w := by
    rw [hcommand]
    decide
  exact ⟨registry, h, hu, call, hcommand, hflags, hpackage,
    package_call_of_not_passes h hm hu hwinget.symm call hstays hlater⟩

end Classifier

end ShellPreview
