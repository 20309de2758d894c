import Mathlib.Data.List.Nodup
import ShellPreview.Proofs.Pattern.Marked
import ShellPreview.Proofs.Registry.Install
/-!
# How a command asks a manager for a package

A usage is an idiom together with the options that may stand in front of a
name: any options, or only one that is known, the marker. `Usage.Cites` says
where in the tokens of a command a package is asked for, and each of the
built-in package managers finds the one that is asked for first
(`packageName_eq_some_iff`).
-/

namespace ShellPreview

open Pattern (Found Place nameOf isOption unmarked foundBehind foundMarked firstGroup)
open Text (words)

variable {stops : List Char} {tokens tail : List (List Char)} {name : List Char} {k : Nat}

/-! ## Options in front of a name -/

/-- Only the first word gives a name. -/
theorem nameOf_cons (argument : List Char) (tail : List (List Char)) :
    nameOf stops (argument :: tail) = nameOf stops [argument] := by
  cases argument <;> rfl

/-- What gives a name is no option. -/
theorem isOption_eq_false_of_nameOf {argument : List Char}
    (h : nameOf stops [argument] = some name) : isOption argument = false := by
  refine Bool.eq_false_iff.mpr fun hoption => ?_
  rw [Pattern.nameOf_option hoption] at h
  cases h

theorem exists_argument_of_nameOf (h : nameOf stops tokens = some name) :
    ∃ argument tail, tokens = argument :: tail ∧ nameOf stops [argument] = some name := by
  cases tokens with
  | nil => cases h
  | cons argument tail => exact ⟨argument, tail, rfl, (nameOf_cons argument tail).symm.trans h⟩

/-- **Behind all options** stands the argument that gives the name. -/
theorem nameOf_dropWhile_isOption_iff :
    nameOf stops (tokens.dropWhile isOption) = some name ↔
      ∃ flags argument tail, tokens = flags ++ argument :: tail ∧
        (∀ flag ∈ flags, isOption flag = true) ∧ nameOf stops [argument] = some name := by
  constructor
  · intro h
    obtain ⟨argument, tail, hdrop, hname⟩ := exists_argument_of_nameOf h
    refine ⟨tokens.takeWhile isOption, argument, tail, ?_, fun flag hflag => ?_, hname⟩
    · rw [← hdrop, List.takeWhile_append_dropWhile]
    · exact List.mem_takeWhile_imp hflag
  · rintro ⟨flags, argument, tail, rfl, hflags, hname⟩
    rw [List.dropWhile_append_of_pos hflags, List.dropWhile_cons_of_neg, nameOf_cons, hname]
    rw [isOption_eq_false_of_nameOf hname]
    exact Bool.false_ne_true

/-- **Behind a marker**, if there is one, stands the argument that gives the
name. -/
theorem nameOf_unmarked_iff {marker : List Char} (hmarker : isOption marker = true) :
    nameOf stops (unmarked marker tokens) = some name ↔
      ∃ flags argument tail, tokens = flags ++ argument :: tail ∧
        (flags = [] ∨ flags = [marker]) ∧ nameOf stops [argument] = some name := by
  constructor
  · intro h
    cases tokens with
    | nil => cases h
    | cons w ws =>
      rw [unmarked] at h
      split at h
      · next hw =>
        obtain ⟨argument, tail, rfl, hname⟩ := exists_argument_of_nameOf h
        exact ⟨[w], argument, tail, rfl, .inr (by rw [hw]), hname⟩
      · exact ⟨[], w, ws, rfl, .inl rfl, (nameOf_cons w ws).symm.trans h⟩
  · rintro ⟨flags, argument, tail, rfl, rfl | rfl, hname⟩
    · have hne : argument ≠ marker := by
        rintro rfl
        rw [isOption_eq_false_of_nameOf hname] at hmarker
        cases hmarker
      rw [List.nil_append, unmarked, if_neg hne, nameOf_cons, hname]
    · rw [List.singleton_append, unmarked, if_pos rfl, nameOf_cons, hname]

/-! ## Usages -/

/-- How a command asks a manager for a package. -/
structure Usage extends Idiom where
  /-- The only option that may stand in front of a name; if there is none,
  any options may. -/
  marker : Option String
  /-- It is an option without blanks. -/
  marker_option : (marker.all fun w =>
    isOption w.toList && w.toList.all fun c => !Text.isBlank c) = true := by decide

namespace Usage

/-- The usage of an idiom in front of whose name any options may stand. -/
def ofIdiom (i : Idiom) : Usage :=
  { i with marker := none }

/-- Only one phrase follows the word of `winget`, which has a word, -/
theorem winget_follows : [["install"]] ≠ [] ∧ [] ∉ [["install"]] := by
  decide

/-- and nothing else begins like it. -/
theorem winget_apart : ∀ a ∈ [["install"]], ∀ b ∈ [["install"]], a.head? = b.head? → a = b := by
  decide

/-- The usage of `winget`, which takes no options but one, and whose names
end at a hyphen. -/
def winget : Usage :=
  { word := "winget", rests := [["install"]], stops := ['-'], marker := some "--id"
    follows := winget_follows, apart := winget_apart }

end Usage

/-- The usages of the built-in package managers. -/
def usages : List Usage :=
  idioms.map Usage.ofIdiom ++ [Usage.winget]

namespace Usage

variable {u : Usage} {token other : List Char} {rest others : List String}

/-- No two usages have one word. -/
theorem eq_of_word {v : Usage} (hu : u ∈ usages) (hv : v ∈ usages) (h : u.word = v.word) :
    u = v := by
  have hnodup : (usages.map fun u => u.word).Nodup := by decide
  exact List.inj_on_of_nodup_map hnodup hu hv h

/-- The options may stand in front of a name. -/
structure Passes (u : Usage) (flags : List (List Char)) : Prop where
  options : ∀ flag ∈ flags, isOption flag = true
  marked : ∀ w ∈ u.marker, flags = [] ∨ flags = [w.toList]

/-- **A place at which a package is asked for.** At an index stands a token
that ends with the first word of the usage; behind it come the words that
follow that one, options, and an argument that gives the name. -/
structure Cites (u : Usage) (tokens : List (List Char)) (k : Nat) (token : List Char)
    (rest : List String) (name : List Char) : Prop where
  ends : u.word.toList <:+ token
  rest_mem : rest ∈ u.rests
  follows : ∃ flags argument tail,
    tokens.drop k = token :: (rest.map String.toList ++ (flags ++ argument :: tail)) ∧
      u.Passes flags ∧ nameOf u.stops [argument] = some name

/-- A package is asked for at the index. -/
def Asks (u : Usage) (tokens : List (List Char)) (k : Nat) (name : List Char) : Prop :=
  ∃ token rest, u.Cites tokens k token rest name

/-- The first place at which a package is asked for. -/
structure CitesFirst (u : Usage) (tokens : List (List Char)) (k : Nat) (token : List Char)
    (rest : List String) (name : List Char) : Prop extends u.Cites tokens k token rest name where
  first : ∀ j < k, ∀ token rest name, ¬u.Cites tokens j token rest name

theorem exists_citesFirst_iff :
    (∃ k token rest, u.CitesFirst tokens k token rest name) ↔
      ∃ k, u.Asks tokens k name ∧ ∀ j < k, ∀ other, ¬u.Asks tokens j other := by
  constructor
  · rintro ⟨k, token, rest, h, hbefore⟩
    exact ⟨k, ⟨token, rest, h⟩, fun j hj other ⟨token, rest, hother⟩ =>
      hbefore j hj token rest other hother⟩
  · rintro ⟨k, ⟨token, rest, h⟩, hbefore⟩
    exact ⟨k, token, rest, h, fun j hj token rest other hother =>
      hbefore j hj other ⟨token, rest, hother⟩⟩

/-- The phrase stands among the tokens, -/
theorem Cites.phrase_isInfix (h : u.Cites tokens k token rest name) :
    token :: rest.map String.toList <:+: tokens := by
  obtain ⟨flags, argument, tail, htokens, -⟩ := h.follows
  have hphrase : token :: rest.map String.toList <+: tokens.drop k := by
    rw [htokens, ← List.cons_append]
    exact List.prefix_append _ _
  exact hphrase.isInfix.trans (List.drop_suffix k tokens).isInfix

/-- and so do the words that follow its first one. -/
theorem Cites.mem_of_mem_rest (h : u.Cites tokens k token rest name) {v : String}
    (hv : v ∈ rest) : v.toList ∈ tokens :=
  h.phrase_isInfix.subset (List.mem_cons_of_mem _ (List.mem_map_of_mem hv))

theorem Cites.ne_nil (h : u.Cites tokens k token rest name) : name ≠ [] := by
  obtain ⟨flags, argument, tail, -, -, hname⟩ := h.follows
  obtain ⟨c, cs, rfl, -⟩ := Pattern.eq_cons_of_nameOf hname
  exact List.cons_ne_nil c cs

/-! ## What the patterns find -/

/-- With no marker, a package is asked for where one is named. -/
theorem names_iff_asks (hmarker : u.marker = none) :
    u.Names tokens k name ↔ u.Asks tokens k name := by
  have hmarked : ∀ flags : List (List Char), ∀ w ∈ u.marker, flags = [] ∨ flags = [w.toList] := by
    rw [hmarker]
    exact nofun
  constructor
  · rintro ⟨token, tail, hdrop, hends, rest, hrest, tail', rfl, hname⟩
    obtain ⟨flags, argument, tail, rfl, hflags, hname⟩ := (nameOf_dropWhile_isOption_iff).mp hname
    exact ⟨token, rest, hends, hrest, flags, argument, tail, hdrop, ⟨hflags, hmarked flags⟩,
      hname⟩
  · rintro ⟨token, rest, hends, hrest, flags, argument, tail, hdrop, hpasses, hname⟩
    exact ⟨token, _, hdrop, hends, rest, hrest, _, rfl, (nameOf_dropWhile_isOption_iff).mpr
      ⟨flags, argument, tail, rfl, hpasses.options, hname⟩⟩

variable {marker : String}

theorem marker_spec (hmarker : u.marker = some marker) :
    isOption marker.toList = true ∧ ∀ c ∈ marker.toList, Text.isBlank c = false := by
  have hoption := u.marker_option
  rw [hmarker, Option.all_some] at hoption
  simpa using hoption

/-- With a marker, it is asked for where the pattern finds something. -/
theorem foundBehind_eq_some_iff (hmarker : u.marker = some marker) (hrests : u.rests = [rest])
    (hstops : u.stops = ['-']) {groups : List (Nat × List Char)} :
    foundBehind u.word.toList (foundMarked (rest.map String.toList) marker.toList 1)
        (tokens.drop k) = some groups ↔
      ∃ token name, u.Cites tokens k token rest name ∧ groups = [(1, name)] := by
  have hoption := (marker_spec hmarker).1
  constructor
  · intro hfound
    cases hdrop : tokens.drop k with
    | nil =>
      rw [hdrop] at hfound
      cases hfound
    | cons token tail =>
      rw [hdrop, foundBehind] at hfound
      split at hfound
      · next hends =>
        obtain ⟨tail', rfl, hgroups⟩ := Pattern.behind_eq_some_iff.mp hfound
        obtain ⟨name, hname, rfl⟩ := Option.map_eq_some_iff.mp hgroups
        obtain ⟨flags, argument, tail, rfl, hflags, hname⟩ := (nameOf_unmarked_iff hoption).mp hname
        refine ⟨token, name, ⟨hends, hrests ▸ List.mem_singleton_self rest, flags, argument, tail,
          hdrop, ⟨?_, ?_⟩, hstops ▸ hname⟩, rfl⟩
        · rcases hflags with rfl | rfl
          · exact List.forall_mem_nil _
          · exact List.forall_mem_singleton.mpr hoption
        · rintro w hw
          rw [hmarker, Option.mem_some_iff] at hw
          exact hw ▸ hflags
      · cases hfound
  · rintro ⟨token, name, ⟨hends, -, flags, argument, tail, hdrop, hpasses, hname⟩, rfl⟩
    have hflags : flags = [] ∨ flags = [marker.toList] := hpasses.marked marker hmarker
    rw [hdrop, foundBehind, if_pos hends]
    refine Pattern.behind_eq_some_iff.mpr ⟨_, rfl, ?_⟩
    rw [(nameOf_unmarked_iff hoption).mpr
      ⟨flags, argument, tail, rfl, hflags, hstops ▸ hname⟩, Option.map_some]

theorem asks_iff_foundBehind (hmarker : u.marker = some marker) (hrests : u.rests = [rest])
    (hstops : u.stops = ['-']) :
    u.Asks tokens k name ↔ ∃ groups,
      foundBehind u.word.toList (foundMarked (rest.map String.toList) marker.toList 1)
        (tokens.drop k) = some groups ∧ firstGroup 1 groups = some name := by
  have hgroup : ∀ name : List Char, name ≠ [] → firstGroup 1 [(1, name)] = some name :=
    fun name hname => Pattern.firstGroup_singleton (le_refl 1) (le_refl 1) hname
  constructor
  · rintro ⟨token, others, h⟩
    obtain rfl : others = rest := by simpa [hrests] using h.rest_mem
    exact ⟨_, (foundBehind_eq_some_iff hmarker hrests hstops).mpr ⟨token, name, h, rfl⟩,
      hgroup name h.ne_nil⟩
  · rintro ⟨groups, hfound, hname⟩
    obtain ⟨token, found, h, rfl⟩ := (foundBehind_eq_some_iff hmarker hrests hstops).mp hfound
    rw [hgroup found h.ne_nil, Option.some_inj] at hname
    exact ⟨token, rest, hname ▸ h⟩

theorem forall_not_asks_iff (hmarker : u.marker = some marker) (hrests : u.rests = [rest])
    (hstops : u.stops = ['-']) :
    (∀ name, ¬u.Asks tokens k name) ↔
      foundBehind u.word.toList (foundMarked (rest.map String.toList) marker.toList 1)
        (tokens.drop k) = none := by
  constructor
  · intro hno
    refine Option.eq_none_iff_forall_ne_some.mpr fun groups hfound => ?_
    obtain ⟨token, name, h, -⟩ := (foundBehind_eq_some_iff hmarker hrests hstops).mp hfound
    exact hno name ⟨token, rest, h⟩
  · intro hnone name hasks
    obtain ⟨groups, hfound, -⟩ := (asks_iff_foundBehind hmarker hrests hstops).mp hasks
    rw [hnone] at hfound
    cases hfound

/-- The pattern of a usage with a marker finds the first package that is
asked for. -/
theorem firstText_nameMarked (hmarker : u.marker = some marker) (hrests : u.rests = [rest])
    (hstops : u.stops = ['-']) {command name : String} :
    Pattern.firstText
        ⟨Pattern.nameMarked (u.word.toList :: rest.map String.toList) marker.toList 1, 1⟩ command =
          some name ↔
      ∃ k, u.Asks (words command.toList) k name.toList ∧
        ∀ j < k, ∀ other, ¬u.Asks (words command.toList) j other := by
  have hsolid : ∀ v ∈ u.word.toList :: rest.map String.toList,
      v ≠ [] ∧ ∀ c ∈ v, Text.isBlank c = false := by
    obtain ⟨hword, hrest⟩ := List.forall_mem_cons.mp u.solid_of_mem
    rw [hrests, List.flatten_singleton] at hrest
    exact List.forall_mem_cons.mpr ⟨hword, List.forall_mem_map.mpr hrest⟩
  exact firstText_eq_some_iff_of_foundAt (List.forall_mem_cons.mp hsolid).1.1
    (fun before cs => Pattern.groups_nameMarked hsolid (marker_spec hmarker) 1 rfl)
    (fun _ _ => asks_iff_foundBehind hmarker hrests hstops)
    (fun _ => forall_not_asks_iff hmarker hrests hstops)

end Usage

/-- The pattern of the package manager with a marker. -/
theorem parse_marked : ∀ m ∈ Registry.defaultManagers, m.token = "winget" →
    Pattern.parse m.installPattern = .ok
      ⟨Pattern.nameMarked (Usage.winget.word.toList :: ["install"].map String.toList)
        "--id".toList 1, 1⟩ := by
  decide +kernel

/-- Every built-in pattern is that of a usage. -/
theorem exists_usage {m : Manager} (hm : m ∈ Registry.defaultManagers) :
    ∃ u ∈ usages, u.word = m.token ∧ ∃ pattern, Pattern.parse m.installPattern = .ok pattern ∧
      ∀ command name, pattern.firstText command = some name ↔
        ∃ k, u.Asks (words command.toList) k name.toList ∧
          ∀ j < k, ∀ other, ¬u.Asks (words command.toList) j other := by
  by_cases hmarked : m.token = "winget"
  · have hmarker : Usage.winget.marker = some "--id" := rfl
    exact ⟨.winget, List.mem_append_right _ (List.mem_singleton_self _), hmarked.symm, _,
      parse_marked m hm hmarked, fun _ _ => Usage.firstText_nameMarked hmarker rfl rfl⟩
  · obtain ⟨i, hi, hword, hparse⟩ := parse_default m hm hmarked
    refine ⟨.ofIdiom i, List.mem_append_left _ (List.mem_map_of_mem hi), hword, _, hparse,
      fun command name => ?_⟩
    have hnames : ∀ k name, i.Names (words command.toList) k name ↔
        (Usage.ofIdiom i).Asks (words command.toList) k name := fun _ _ =>
      Usage.names_iff_asks (u := .ofIdiom i) rfl
    simp only [← hnames]
    exact Idiom.firstText_eq_some_iff

/-- **Every built-in package manager finds the package that is asked for
first**, and nothing if none is. -/
theorem packageName_eq_some_iff {m : Manager} (hm : m ∈ Registry.defaultManagers)
    {installer : Installer} (hcompile : m.compile = .ok installer) {u : Usage} (hu : u ∈ usages)
    (hword : u.word = m.token) {command name : String} :
    installer.packageName command = some name ↔
      ∃ k token rest, u.CitesFirst (words command.toList) k token rest name.toList := by
  obtain ⟨v, hv, hsame, pattern, hparse, hfinds⟩ := exists_usage hm
  obtain rfl := Usage.eq_of_word hu hv (hword.trans hsame.symm)
  rw [Manager.compile, hparse, Except.ok.injEq] at hcompile
  subst hcompile
  exact (hfinds command name).trans (Usage.exists_citesFirst_iff).symm

end ShellPreview
