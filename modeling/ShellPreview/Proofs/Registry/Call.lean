import ShellPreview.Proofs.Registry.Builtin
/-!
# Commands that ask for a package

A call is a command of a certain form: a phrase of a manager, options and a
package, with single spaces between them, and behind the package nothing or
a blank and whatever follows it (`Idiom.Call`). Its manager is the one of
the phrase (`managerFor_call`), and what is asked for at its first word is
the package, if the options may stand there (`cites_call_iff`).
-/

namespace ShellPreview

open Pattern (nameOf isOption)
open Text (words)

/-- **A command that asks for a package.** -/
structure Idiom.Call (i : Idiom) where
  /-- The words of the phrase behind the first one. -/
  rest : List String
  flags : List String
  package : String
  remainder : String
  rest_mem : rest ∈ i.rests
  /-- The options are words that begin with a hyphen and go on behind it. -/
  flags_option : ∀ flag ∈ flags, isOption flag.toList = true ∧ Text.IsWord flag.toList
  /-- The package is a word that does not begin with a hyphen. -/
  package_word : Text.IsWord package.toList
  package_plain : package.toList.head? ≠ some '-'
  /-- The remainder is empty or begins with a blank. -/
  remainder_apart : Text.AtStop Text.isBlank remainder.toList

namespace Idiom.Call

variable {i : Idiom} (call : i.Call)

/-- The words of a call up to the package. -/
def parts : List String :=
  i.word :: (call.rest ++ (call.flags ++ [call.package]))

/-- A call as a command. -/
def command : String :=
  " ".intercalate call.parts ++ call.remainder

theorem isWord_of_mem_parts : ∀ w ∈ call.parts, Text.IsWord w.toList := by
  have hsolid : ∀ w ∈ i.word :: i.rests.flatten, Text.IsWord w.toList := i.solid_of_mem
  obtain ⟨hword, hrests⟩ := List.forall_mem_cons.mp hsolid
  refine List.forall_mem_cons.mpr ⟨hword, List.forall_mem_append.mpr ⟨fun w hw => ?_,
    List.forall_mem_append.mpr ⟨fun flag hflag => ?_, ?_⟩⟩⟩
  · exact hrests w (List.mem_flatten.mpr ⟨call.rest, call.rest_mem, hw⟩)
  · exact (call.flags_option flag hflag).2
  · exact List.forall_mem_singleton.mpr call.package_word

theorem toList_command : call.command.toList =
    [' '].intercalate (call.parts.map String.toList) ++ call.remainder.toList := by
  rw [command, String.toList_append, String.toList_intercalate]
  rfl

/-- The words of a call are its parts and those of the remainder. -/
theorem words_command : words call.command.toList =
    call.parts.map String.toList ++ words call.remainder.toList := by
  rw [toList_command, Text.words_spaced _ call.remainder_apart]
  exact List.forall_mem_map.mpr call.isWord_of_mem_parts

/-- A call begins with the first word of the phrase and a space, also
without the blanks at its ends. -/
theorem front_trimmed :
    i.word.toList ++ [' '] <+: (Text.trimmed call.command).toList := by
  obtain ⟨hword, hparts⟩ := List.forall_mem_cons.mp call.isWord_of_mem_parts
  obtain ⟨second, more, hmore⟩ : ∃ second more,
      call.rest ++ (call.flags ++ [call.package]) = second :: more := by
    refine List.exists_cons_of_ne_nil fun hnil => ?_
    simp at hnil
  rw [Text.trimmed, String.toList_ofList, toList_command, parts, hmore, List.map_cons,
    List.map_cons]
  rw [hmore] at hparts
  exact Text.prefix_trim_spaced hword (List.forall_mem_cons.mp hparts).1 _ _

end Idiom.Call

/-! ## What a call asks for -/

/-- Options in front of a word that is none are all of them. -/
theorem flags_eq_of_append_eq {flags others tail tail' : List (List Char)}
    {argument argument' : List Char} (hflags : ∀ flag ∈ flags, isOption flag = true)
    (hothers : ∀ flag ∈ others, isOption flag = true) (hargument : isOption argument = false)
    (hargument' : isOption argument' = false)
    (h : flags ++ argument :: tail = others ++ argument' :: tail') :
    flags = others ∧ argument = argument' := by
  have htake : ∀ {flags argument tail}, (∀ flag ∈ flags, isOption flag = true) →
      isOption argument = false → (flags ++ argument :: tail).takeWhile isOption = flags := by
    intro flags argument tail hflags hargument
    rw [List.takeWhile_append_of_pos hflags, List.takeWhile_cons_of_neg (by simp [hargument]),
      List.append_nil]
  have hsame : flags = others := by
    rw [← htake hflags hargument, h, htake hothers hargument']
  subst hsame
  exact ⟨rfl, (List.cons.inj (List.append_cancel_left h)).1⟩

namespace Usage

variable {u : Usage} (call : u.Call) {token name : List Char} {rest : List String}

theorem isOption_package : isOption call.package.toList = false := by
  refine Bool.eq_false_iff.mpr fun hoption => call.package_plain ?_
  cases hpackage : call.package.toList with
  | nil => exact absurd hpackage call.package_word.1
  | cons c cs =>
    rw [hpackage, Pattern.isOption_cons, Bool.and_eq_true, beq_iff_eq] at hoption
    rw [hoption.1, List.head?_cons]

/-- **At the first word of a call a package is asked for** exactly if its
options may stand in front of a name; and it is the one of the call. -/
theorem cites_call_iff :
    u.Cites (words call.command.toList) 0 token rest name ↔
      token = u.word.toList ∧ rest = call.rest ∧ u.Passes (call.flags.map String.toList) ∧
        nameOf u.stops [call.package.toList] = some name := by
  have htokens : words call.command.toList = u.word.toList :: (call.rest.map String.toList ++
      (call.flags.map String.toList ++ call.package.toList :: words call.remainder.toList)) := by
    rw [call.words_command, Idiom.Call.parts]
    simp
  constructor
  · rintro ⟨-, hrest, flags, argument, tail, hdrop, hpasses, hname⟩
    rw [List.drop_zero, htokens, List.cons.injEq] at hdrop
    obtain ⟨rfl, hbehind⟩ := hdrop
    obtain rfl := Idiom.rest_eq_of_append_eq call.rest_mem hrest hbehind
    have hflags : ∀ flag ∈ call.flags.map String.toList, isOption flag = true :=
      List.forall_mem_map.mpr fun flag hflag => (call.flags_option flag hflag).1
    obtain ⟨hsame, rfl⟩ := flags_eq_of_append_eq hflags hpasses.options (isOption_package call)
      (isOption_eq_false_of_nameOf hname) (List.append_cancel_left hbehind)
    exact ⟨rfl, rfl, hsame ▸ hpasses, hname⟩
  · rintro ⟨rfl, rfl, hpasses, hname⟩
    exact ⟨List.suffix_refl _, call.rest_mem, _, _, _, htokens, hpasses, hname⟩

/-- A package gives the name in front of its first stop, -/
theorem nameOf_package (hfirst : ∀ c ∈ call.package.toList.head?, c ∉ u.stops) :
    nameOf u.stops [call.package.toList] =
      some (call.package.toList.takeWhile fun c => !u.stops.contains c) := by
  have hplain := call.package_plain
  cases hpackage : call.package.toList with
  | nil => exact absurd hpackage call.package_word.1
  | cons c cs =>
    rw [hpackage] at hplain hfirst
    have hno : ¬(c = '-' ∨ c ∈ u.stops) := by
      rintro (rfl | hstop)
      · exact hplain rfl
      · exact hfirst c rfl hstop
    rw [nameOf, if_neg hno]

/-- which is all of it if it has none. -/
theorem nameOf_package_of_no_stop (hstops : ∀ c ∈ u.stops, c ∉ call.package.toList) :
    nameOf u.stops [call.package.toList] = some call.package.toList := by
  have hall : ∀ c ∈ call.package.toList, (!u.stops.contains c) = true := by
    intro c hc
    simpa using fun hstop => hstops c hstop hc
  rw [nameOf_package call fun c hc hstop => hstops c hstop (List.mem_of_mem_head? hc),
    List.takeWhile_eq_self_iff.mpr hall]

end Usage

namespace Registry

variable {r : Registry} {i : Installer}

/-- **The manager of a call** is the one of its phrase. -/
theorem managerFor_call (h : Configuration.default.tables = .ok r) (hi : i ∈ r.managers)
    {u : Usage} (hword : u.word = i.token) (call : u.Call) :
    r.managerFor (Text.trimmed call.command) = some i := by
  refine managerFor_of_leads (spaceless_builtin h) (nodup_builtin h) hi ?_
  rw [Manager.leads_iff_begins, ← hword]
  exact call.front_trimmed

end Registry

end ShellPreview
