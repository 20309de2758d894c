import Mathlib.Data.Nat.Find
import ShellPreview.Proofs.Pattern.Groups
import ShellPreview.Proofs.Pattern.Phrase
import ShellPreview.Registry.Default
/-!
# Which package a command installs

An idiom is how a command names a package to a manager: a phrase, options,
and a name. `Idiom.Names` says in terms of the tokens of a command where a
package is named. The patterns of the built-in package managers, but for
one, are those of idioms (`idioms`), and find the package that is named
first (`packageName_of_default`).
-/

namespace ShellPreview

open Pattern (Found Place nameOf isOption nameAfter foundAfter foundAt foundBehind firstGroup)
open Text (words)

/-- How a package is named to a manager: by some words of which the first
one is always the same, options, and a name that ends at a stop. -/
structure Idiom where
  word : String
  /-- What may follow the first word. -/
  rests : List (List String)
  stops : List Char
  /-- Something must follow it. -/
  follows : rests ≠ [] ∧ [] ∉ rests := by decide
  /-- The words are not empty and have no blanks. -/
  solid : (word :: rests.flatten).all fun w =>
    !w.toList.isEmpty && w.toList.all fun c => !Text.isBlank c := by decide
  /-- What follows it differs in its first word. -/
  apart : ∀ a ∈ rests, ∀ b ∈ rests, a.head? = b.head? → a = b := by decide

namespace Idiom

variable {i : Idiom} {tokens : List (List Char)} {name : List Char} {k : Nat}

theorem solid_of_mem (i : Idiom) : ∀ w ∈ i.word :: i.rests.flatten,
    w.toList ≠ [] ∧ ∀ c ∈ w.toList, Text.isBlank c = false := by
  intro w hw
  have hsolid := List.all_eq_true.mp i.solid w hw
  simpa using hsolid

/-- The tokens begin with the words that follow the first one, and behind
them and all options comes a name. -/
def Gives (i : Idiom) (tokens : List (List Char)) (name : List Char) : Prop :=
  ∃ rest ∈ i.rests, ∃ tail, tokens = rest.map String.toList ++ tail ∧
    nameOf i.stops (tail.dropWhile isOption) = some name

/-- The token at an index ends with the first word, and a name is given by
those behind it. -/
def Names (i : Idiom) (tokens : List (List Char)) (k : Nat) (name : List Char) : Prop :=
  ∃ token tail, tokens.drop k = token :: tail ∧ i.word.toList <:+ token ∧ i.Gives tail name

/-- The pattern of the idiom. Each alternative has a group of its own. -/
def node (i : Idiom) : Pattern.Node :=
  .choice ((i.rests.zipIdx 1).map fun r =>
    nameAfter (i.word.toList :: r.1.map String.toList) i.stops r.2)

/-- What the alternatives find behind the first word. -/
def found (i : Idiom) (tokens : List (List Char)) : Found :=
  (i.rests.zipIdx 1).findSome? fun r => foundAfter (r.1.map String.toList) i.stops r.2 tokens

end Idiom

/-- The idioms of the built-in package managers. -/
def idioms : List Idiom :=
  [{ word := "pip", rests := [["install"]], stops := [] },
    { word := "uv", rests := [["add"], ["pip", "install"]], stops := [] },
    { word := "npm", rests := [["install"], ["i"]], stops := [] },
    { word := "yarn", rests := [["add"]], stops := [] },
    { word := "pnpm", rests := [["add"], ["install"]], stops := [] },
    { word := "choco", rests := [["install"]], stops := [] },
    { word := "scoop", rests := [["install"]], stops := [] },
    { word := "conda", rests := [["install"]], stops := [] },
    { word := "mamba", rests := [["install"]], stops := [] },
    { word := "cargo", rests := [["install"]], stops := [] },
    { word := "gem", rests := [["install"]], stops := [] },
    { word := "go", rests := [["install"]], stops := ['@'] }]

/-! ## Searching behind a word -/

section Search

variable {node : Pattern.Node} {count : Nat} {w : List Char} {f : List (List Char) → Found}
variable {command name : String} {names : Nat → List Char → Prop}

/-- A pattern that finds what stands behind a word finds the groups at the
first token behind which there are any. -/
theorem firstText_eq_of_foundAt (hw : w ≠ [])
    (hfound : ∀ before cs, (node.run some ⟨before, cs, []⟩).map Place.groups = foundAt w f cs) :
    Pattern.firstText ⟨node, count⟩ command =
      (((words command.toList).tails.findSome? (foundBehind w f)).bind
        (firstGroup count)).map String.ofList := by
  have hsearch : node.search command.toList =
      (words command.toList).tails.findSome? (foundBehind w f) := by
    rw [Pattern.search_eq hfound, Pattern.findSome?_foundAt hw]
  rw [Pattern.firstText, hsearch]
  cases (words command.toList).tails.findSome? (foundBehind w f) <;> rfl

/-- So it finds the name at the smallest index at which there is one. -/
theorem firstText_eq_some_iff_of_foundAt (hw : w ≠ [])
    (hfound : ∀ before cs, (node.run some ⟨before, cs, []⟩).map Place.groups = foundAt w f cs)
    (hnames : ∀ k name, names k name ↔
      ∃ groups, foundBehind w f ((words command.toList).drop k) = some groups ∧
        firstGroup count groups = some name)
    (hnone : ∀ k, (∀ name, ¬names k name) ↔
      foundBehind w f ((words command.toList).drop k) = none) :
    Pattern.firstText ⟨node, count⟩ command = some name ↔
      ∃ k, names k name.toList ∧ ∀ j < k, ∀ other, ¬names j other := by
  have hnil : foundBehind w f [] = none := rfl
  simp only [firstText_eq_of_foundAt hw hfound, Option.map_eq_some_iff, Option.bind_eq_some_iff,
    Pattern.findSome?_tails_eq_some_iff hnil, hnone]
  constructor
  · rintro ⟨cs, ⟨groups, ⟨k, hk, hbefore⟩, hgroup⟩, rfl⟩
    rw [String.toList_ofList]
    exact ⟨k, (hnames k cs).mpr ⟨groups, hk, hgroup⟩, hbefore⟩
  · rintro ⟨k, hname, hbefore⟩
    obtain ⟨groups, hk, hgroup⟩ := (hnames k _).mp hname
    exact ⟨name.toList, ⟨groups, ⟨k, hk, hbefore⟩, hgroup⟩, String.ofList_toList⟩

end Search

/-! ## At one token -/

namespace Idiom

variable {i : Idiom} {tokens : List (List Char)} {name other : List Char} {k : Nat}

/-- What follows the first word differs in its own first word. -/
theorem rest_eq_of_append_eq {rest rest' : List String} (hrest : rest ∈ i.rests)
    (hrest' : rest' ∈ i.rests) {tail tail' : List (List Char)}
    (h : rest.map String.toList ++ tail = rest'.map String.toList ++ tail') : rest = rest' := by
  refine i.apart rest hrest rest' hrest' ?_
  cases rest with
  | nil => exact absurd hrest i.follows.2
  | cons v rest =>
    cases rest' with
    | nil => exact absurd hrest' i.follows.2
    | cons v' rest' => simpa using String.toList_inj.mp (List.cons.inj h).1

/-- At most one name is given. -/
theorem Gives.unique (h : i.Gives tokens name) (hother : i.Gives tokens other) : name = other := by
  obtain ⟨rest, hrest, tail, htokens, hname⟩ := h
  obtain ⟨rest', hrest', tail', htokens', hname'⟩ := hother
  rw [htokens'] at htokens
  obtain rfl := rest_eq_of_append_eq hrest' hrest htokens
  rw [List.append_cancel_left_eq] at htokens
  rw [htokens, hname] at hname'
  exact Option.some.inj hname'

/-- The alternatives find the name that is given. -/
theorem found_spec (i : Idiom) (tokens : List (List Char)) :
    (i.found tokens = none ∧ ∀ name, ¬i.Gives tokens name) ∨
      ∃ groups name, i.found tokens = some groups ∧
        firstGroup i.rests.length groups = some name ∧ i.Gives tokens name := by
  cases hfound : i.found tokens with
  | none =>
    refine .inl ⟨rfl, ?_⟩
    rintro name ⟨rest, hrest, tail, htokens, hname⟩
    have hmem : rest ∈ (i.rests.zipIdx 1).map Prod.fst := by rwa [List.zipIdx_map_fst]
    obtain ⟨r, hr, rfl⟩ := List.mem_map.mp hmem
    have hnone := List.findSome?_eq_none_iff.mp hfound r hr
    have hsome : foundAfter (r.1.map String.toList) i.stops r.2 tokens = some [(r.2, name)] :=
      Pattern.behind_eq_some_iff.mpr ⟨tail, htokens, by rw [hname, Option.map_some]⟩
    rw [hnone] at hsome
    cases hsome
  | some groups =>
    obtain ⟨r, hr, hgroups⟩ := List.exists_of_findSome?_eq_some hfound
    obtain ⟨tail, htokens, hname⟩ := Pattern.behind_eq_some_iff.mp hgroups
    obtain ⟨name, hgiven, rfl⟩ := Option.map_eq_some_iff.mp hname
    obtain ⟨hfirst, hlast, -⟩ := List.mem_zipIdx hr
    obtain ⟨c, cs, rfl, -⟩ := Pattern.eq_cons_of_nameOf hgiven
    have hgroup : firstGroup i.rests.length [(r.2, c :: cs)] = some (c :: cs) :=
      Pattern.firstGroup_singleton hfirst (by omega) (List.cons_ne_nil c cs)
    exact .inr ⟨_, _, rfl, hgroup, r.1, List.fst_mem_of_mem_zipIdx hr, tail, htokens, hgiven⟩

/-- So do they at an index. -/
theorem names_spec (i : Idiom) (tokens : List (List Char)) (k : Nat) :
    (foundBehind i.word.toList i.found (tokens.drop k) = none ∧ ∀ name, ¬i.Names tokens k name) ∨
      ∃ groups name, foundBehind i.word.toList i.found (tokens.drop k) = some groups ∧
        firstGroup i.rests.length groups = some name ∧
          ∀ other, i.Names tokens k other ↔ other = name := by
  unfold Names
  cases tokens.drop k with
  | nil => exact .inl ⟨rfl, nofun⟩
  | cons token tail =>
    rw [foundBehind]
    by_cases hends : i.word.toList <:+ token
    · rw [if_pos hends]
      rcases i.found_spec tail with ⟨hnone, hno⟩ | ⟨groups, name, hfound, hgroup, hgives⟩
      · refine .inl ⟨hnone, ?_⟩
        rintro name ⟨_, _, ⟨⟩, -, hgives⟩
        exact hno name hgives
      · refine .inr ⟨groups, name, hfound, hgroup, fun other => ?_⟩
        constructor
        · rintro ⟨_, _, ⟨⟩, -, hother⟩
          exact hother.unique hgives
        · rintro rfl
          exact ⟨token, tail, rfl, hends, hgives⟩
    · refine .inl ⟨if_neg hends, ?_⟩
      rintro name ⟨_, _, ⟨⟩, hends', -⟩
      exact hends hends'

theorem names_iff : i.Names tokens k name ↔
    ∃ groups, foundBehind i.word.toList i.found (tokens.drop k) = some groups ∧
      firstGroup i.rests.length groups = some name := by
  rcases i.names_spec tokens k with ⟨hnone, hno⟩ | ⟨groups, found, hfound, hgroup, hiff⟩
  · simp [hnone, hno]
  · simp [hfound, hgroup, hiff, eq_comm]

theorem forall_not_names_iff : (∀ name, ¬i.Names tokens k name) ↔
    foundBehind i.word.toList i.found (tokens.drop k) = none := by
  rcases i.names_spec tokens k with ⟨hnone, hno⟩ | ⟨groups, found, hfound, -, hiff⟩
  · exact iff_of_true hno hnone
  · refine iff_of_false (fun h => h found ((hiff found).mpr rfl)) ?_
    rw [hfound]
    nofun

/-! ## Over a command -/

theorem groups_node (i : Idiom) (before : Option Char) (cs : List Char) :
    (i.node.run some ⟨before, cs, []⟩).map Place.groups = foundAt i.word.toList i.found cs := by
  have halternatives : (i.rests.zipIdx 1).map (fun r =>
      nameAfter (i.word.toList :: r.1.map String.toList) i.stops r.2) ≠ [] := by
    simpa using i.follows.1
  -- every alternative finds what it finds behind the first word
  have halternative : ∀ r ∈ i.rests.zipIdx 1,
      ((nameAfter (i.word.toList :: r.1.map String.toList) i.stops r.2).run some
        ⟨before, cs, []⟩).map Place.groups =
          foundAt i.word.toList (foundAfter (r.1.map String.toList) i.stops r.2) cs := by
    intro r hr
    have hrest : r.1 ∈ i.rests := List.fst_mem_of_mem_zipIdx hr
    obtain ⟨hword, hrests⟩ := List.forall_mem_cons.mp i.solid_of_mem
    refine Pattern.groups_nameAfter (List.forall_mem_cons.mpr ⟨hword, ?_⟩) _ _ rfl
    rw [List.forall_mem_map]
    exact List.forall_mem_flatten.mp hrests _ hrest
  rw [node, Pattern.run_choice halternatives, List.findSome?_map, List.map_findSome?]
  refine (Pattern.findSome?_congr halternative).trans ?_
  rw [foundAt]
  by_cases hhead : Text.headWord cs = i.word.toList
  · simp only [foundAt, if_pos hhead, found]
  · simp only [foundAt, if_neg hhead, List.findSome?_eq_none_iff, implies_true]

/-- **The pattern finds the name at the smallest index at which there is
one.** -/
theorem firstText_eq_some_iff {command : String} {name : String} :
    Pattern.firstText ⟨i.node, i.rests.length⟩ command = some name ↔
      ∃ k, i.Names (words command.toList) k name.toList ∧
        ∀ j < k, ∀ other, ¬i.Names (words command.toList) j other := by
  have hword : i.word.toList ≠ [] := (List.forall_mem_cons.mp i.solid_of_mem).1.1
  exact firstText_eq_some_iff_of_foundAt hword i.groups_node (fun _ _ => names_iff)
    (fun _ => forall_not_names_iff)

/-- It finds nothing if there is no such index. -/
theorem firstText_eq_none_iff {command : String} :
    Pattern.firstText ⟨i.node, i.rests.length⟩ command = none ↔
      ∀ k name, ¬i.Names (words command.toList) k name := by
  classical
  constructor
  · intro hnone k name hname
    have hexists : ∃ k name, i.Names (words command.toList) k name := ⟨k, name, hname⟩
    obtain ⟨first, hfirst⟩ := Nat.find_spec hexists
    have hbefore : ∀ j < Nat.find hexists, ∀ other, ¬i.Names (words command.toList) j other :=
      fun j hj other hother => Nat.find_min hexists hj ⟨other, hother⟩
    have hsome : Pattern.firstText ⟨i.node, i.rests.length⟩ command =
        some (String.ofList first) :=
      (firstText_eq_some_iff).mpr ⟨_, by rwa [String.toList_ofList], hbefore⟩
    rw [hnone] at hsome
    cases hsome
  · intro hno
    refine Option.eq_none_iff_forall_ne_some.mpr fun name hname => ?_
    obtain ⟨k, hk, -⟩ := (firstText_eq_some_iff).mp hname
    exact hno k _ hk

/-- What is named is no option. -/
theorem Names.head?_ne (h : i.Names tokens k name) : name.head? ≠ some '-' := by
  obtain ⟨_, _, _, _, rest, _, tail, _, hname⟩ := h
  obtain ⟨c, cs, rfl, hc, -⟩ := Pattern.eq_cons_of_nameOf hname
  exact fun heq => hc (Option.some.inj heq)

end Idiom

/-- The built-in patterns are those of the idioms. -/
theorem parse_default : ∀ m ∈ Registry.defaultManagers, m.token ≠ "winget" →
    ∃ i ∈ idioms, i.word = m.token ∧
      Pattern.parse m.installPattern = .ok ⟨i.node, i.rests.length⟩ := by
  decide +kernel

/-- **The built-in patterns read the tokens of a command.** A package
manager finds the package that is named by its idiom at the smallest index
at which one is named, and nothing if there is no such index; and what it
finds is never an option. -/
theorem packageName_of_default (m : Manager) (hm : m ∈ Registry.defaultManagers)
    (hother : m.token ≠ "winget") :
    ∃ i ∈ idioms, i.word = m.token ∧ ∃ installer, m.compile = .ok installer ∧
      ∀ command,
        (∀ name, installer.packageName command = some name ↔
          ∃ k, i.Names (words command.toList) k name.toList ∧
            ∀ j < k, ∀ other, ¬i.Names (words command.toList) j other) ∧
        (installer.packageName command = none ↔
          ∀ k name, ¬i.Names (words command.toList) k name) ∧
        (∀ name, installer.packageName command = some name → name.toList.head? ≠ some '-') := by
  obtain ⟨i, hi, hword, hparse⟩ := parse_default m hm hother
  have hcompile : m.compile = .ok { m with pattern := ⟨i.node, i.rests.length⟩ } := by
    rw [Manager.compile, hparse]
  refine ⟨i, hi, hword, _, hcompile, fun command => ⟨fun name => Idiom.firstText_eq_some_iff,
    Idiom.firstText_eq_none_iff, fun name hname => ?_⟩⟩
  obtain ⟨k, hk, -⟩ := (Idiom.firstText_eq_some_iff).mp hname
  exact hk.head?_ne

/-- The first manager passes over an option. -/
theorem packageName_of_default_pip :
    ∃ m ∈ Registry.defaultManagers, m.token = "pip" ∧ ∃ installer, m.compile = .ok installer ∧
      installer.packageName "sudo pip install -U requests" = some "requests" := by
  have hmem : Registry.defaultManagers.head (by decide) ∈ Registry.defaultManagers :=
    List.head_mem _
  obtain ⟨i, hi, hword, installer, hcompile, hfinds⟩ := packageName_of_default _ hmem (by decide)
  have hpip : ∀ i ∈ idioms, i.word = "pip" → i.rests = [["install"]] ∧ i.stops = [] := by decide
  obtain ⟨hrests, hstops⟩ := hpip i hi hword
  have htoken : i.word = "pip" := hword
  have htokens : words "sudo pip install -U requests".toList = ["sudo".toList, "pip".toList,
      "install".toList, "-U".toList, "requests".toList] := by decide
  refine ⟨_, hmem, rfl, installer, hcompile, ((hfinds _).1 "requests").mpr ⟨1, ?_, ?_⟩⟩
  · rw [htokens]
    refine ⟨"pip".toList, _, rfl, htoken ▸ List.suffix_refl _, ["install"], ?_,
      ["-U".toList, "requests".toList], rfl, ?_⟩
    · rw [hrests]
      exact List.mem_singleton_self _
    · rw [hstops]
      decide
  · -- the token in front is another word
    rintro j hj other ⟨token, tail, hdrop, hends, -⟩
    obtain rfl := Nat.lt_one_iff.mp hj
    rw [htokens, List.drop_zero] at hdrop
    rw [← (List.cons.inj hdrop).1, htoken] at hends
    exact absurd hends (by decide)

end ShellPreview
