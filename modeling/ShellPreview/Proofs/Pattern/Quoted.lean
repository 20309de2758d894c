import ShellPreview.Proofs.Command.Inline
import ShellPreview.Proofs.Pattern.Groups
import ShellPreview.Proofs.Pattern.Phrase
/-!
# A pattern that reads a quoted argument

The pattern of an option `-c`, blanks, a quote, characters that are no
quotes, as a group, and another quote. Blanks are no quotes and what stands
between quotes has none, so neither repetition has anything to give back,
and the search finds what is read off the text directly
(`firstText_quotedCode`).
-/

namespace ShellPreview.Pattern

open Command (isQuote quotedArgument inlineCodeAtFront inlineCodeIn inlineCode)
open Text (isBlank)

variable {next : Next} {p : Place} {cs : List Char}

/-- The quotes of both kinds. -/
def quotes : CharSet :=
  .union (.single '\x22') (.single '\x27')

/-- What stands between quotes, as a group, and the quote behind it. -/
def quotedNodes : List Node :=
  [.group (some 1) (.plus true (.chars (.complement quotes))), .chars quotes]

/-- An option `-c`, blanks, and a quoted argument. -/
def quotedCode : Node :=
  .sequence (literal ['-', 'c'] ++ gap :: .chars quotes :: quotedNodes)

/-- The text of the pattern. -/
def quotedCodeText : String :=
  "-c\\s+[\"\x27]([^\"\x27]+)[\"\x27]"

theorem parse_quotedCodeText : parse quotedCodeText = .ok ⟨quotedCode, 1⟩ := by
  decide +kernel

theorem holds_quotes (c : Char) : quotes.holds c = isQuote c := by
  rw [quotes, holds_union, holds_single, holds_single, isQuote, Bool.or_comm, Bool.beq_comm,
    Bool.beq_comm (a := '\x22')]

theorem holds_complement_quotes : (CharSet.complement quotes).holds = fun c => !isQuote c := by
  funext c
  rw [holds_complement, holds_quotes]

/-- No quote is found in front of another character. -/
theorem run_quotes_of_not {c : Char} (hrest : p.rest = c :: cs) (hc : isQuote c = false) :
    (Node.chars quotes).run next p = none := by
  rw [run_chars_cons hrest, holds_quotes, hc]
  rfl

/-- What is found between quotes is the text up to the next one, if it is
not empty and there is one. -/
theorem groups_run_quoted (hp : p.groups = []) :
    ((Node.sequence quotedNodes).run some p).map Place.groups =
      let code := p.rest.takeWhile fun c => !isQuote c
      if !code.isEmpty && code.length < p.rest.length then some [(1, code)] else none := by
  let closed : Next := fun q => (Node.chars quotes).run some (Place.keep (some 1) p q)
  have hclosed : closed.Refuses (CharSet.complement quotes).holds := by
    intro q c cs hrest hc
    rw [holds_complement_quotes] at hc
    exact run_quotes_of_not hrest (by simpa using hc)
  have hrun : (Node.sequence quotedNodes).run some p =
      (Node.plus true (.chars (.complement quotes))).run closed p := rfl
  have hfront : p.front (.complement quotes) = (p.rest.takeWhile fun c => !isQuote c).length := by
    rw [Place.front, holds_complement_quotes]
  have hsplit := List.takeWhile_append_dropWhile (p := fun c => !isQuote c) (l := p.rest)
  have hends := Text.atStop_dropWhile isQuote p.rest
  rw [hrun, run_plus_chars (hclosed.settles p), hfront]
  generalize p.rest.takeWhile (fun c => !isQuote c) = code at hsplit ⊢
  generalize p.rest.dropWhile (fun c => !isQuote c) = more at hsplit hends
  have hkept : (p.skip code.length).rest = more := by
    rw [Place.rest_skip, ← hsplit, List.drop_left]
  cases code with
  | nil => rfl
  | cons d code =>
    have hsome : (d :: code).length ≠ 0 := Nat.succ_ne_zero _
    rw [if_neg hsome]
    cases more with
    | nil =>
      -- the quote behind is missing
      have hnone : closed (p.skip (d :: code).length) = none := run_chars_nil hkept
      rw [hnone]
      simp [← hsplit]
    | cons c more =>
      have hplace : (Place.keep (some 1) p (p.skip (d :: code).length)).rest = c :: more := hkept
      have hquote : closed (p.skip (d :: code).length) =
          some ((Place.keep (some 1) p (p.skip (d :: code).length)).skip 1) := by
        show (Node.chars quotes).run some _ = _
        rw [run_chars_cons hplace, holds_quotes, hends c rfl]
        rfl
      have hlength : (d :: code).length ≤ p.rest.length := by
        rw [← hsplit, List.length_append]
        exact Nat.le_add_right _ _
      have htake : p.rest.take (d :: code).length = d :: code := by rw [← hsplit, List.take_left]
      rw [hquote, Option.map_some, Place.groups_skip, Place.groups_keep_skip hlength, htake, hp]
      simp [← hsplit]

/-- Behind blanks there is found what is read there. -/
theorem groups_run_argument (hp : p.groups = []) (hrest : p.rest = Text.trimStart cs) :
    ((Node.sequence (.chars quotes :: quotedNodes)).run some p).map Place.groups =
      (quotedArgument cs).map fun code => [(1, code)] := by
  rw [run_sequence_cons, quotedArgument, ← hrest]
  cases hargument : p.rest with
  | nil =>
    rw [run_chars_nil hargument]
    rfl
  | cons q argument =>
    rw [run_chars_cons hargument, holds_quotes]
    cases hquote : isQuote q with
    | false => simp [hquote]
    | true =>
      have hquoted := groups_run_quoted (p := p.skip 1) (by rw [Place.groups_skip, hp])
      rw [Place.rest_skip_one hargument] at hquoted
      rw [if_pos rfl, hquoted]
      dsimp only
      rw [hquote, Bool.true_and, apply_ite (Option.map _)]
      rfl

/-- **The pattern finds at a place what is read there.** -/
theorem groups_run_quotedCode (before : Option Char) (cs : List Char) :
    (quotedCode.run some ⟨before, cs, []⟩).map Place.groups =
      (inlineCodeAtFront cs).map fun code => [(1, code)] := by
  have hrefuses : Next.Refuses ((Node.sequence (.chars quotes :: quotedNodes)).run some)
      isBlank := by
    intro p c cs hrest hc
    refine run_quotes_of_not hrest (Bool.eq_false_iff.mpr fun hquote => ?_)
    exact Bool.false_ne_true ((Command.isBlank_of_isQuote hquote).symm.trans hc)
  rw [quotedCode, run_literal]
  by_cases hoption : ['-', 'c'] <+: cs
  · obtain ⟨rest, rfl⟩ := hoption
    rw [if_pos (List.prefix_append _ _), run_sequence_cons]
    generalize hp : Place.skip ⟨before, ['-', 'c'] ++ rest, []⟩ ['-', 'c'].length = p
    have hrest : p.rest = rest := by rw [← hp, Place.rest_skip, List.drop_left]
    have hgroups : p.groups = [] := by rw [← hp, Place.groups_skip]
    cases rest with
    | nil =>
      rw [run_gap hrefuses (hrest ▸ Text.atStop_nil _), if_pos hrest]
      rfl
    | cons c rest =>
      cases hc : isBlank c with
      | false =>
        rw [run_gap_of_not hrest hc]
        simp [inlineCodeAtFront, hc]
      | true =>
        have hbehind : (p.skip (p.rest.takeWhile isBlank).length).rest = Text.trimStart rest := by
          rw [Place.rest_skip, Text.drop_length_takeWhile, hrest, List.dropWhile_cons_of_pos hc]
          rfl
        rw [run_gap hrefuses (hrest ▸ Text.atStop_cons hc rest),
          if_neg (hrest ▸ List.cons_ne_nil c rest),
          groups_run_argument (by rw [Place.groups_skip, hgroups]) hbehind]
        simp [inlineCodeAtFront, hc]
  · have hnone : inlineCodeAtFront cs = none := by
      refine Command.inlineCodeAtFront_eq_none_iff.mpr fun code hopens => hoption ?_
      obtain ⟨_, _, rfl, -⟩ := hopens
      exact ⟨_, rfl⟩
    rw [if_neg hoption, hnone]
    rfl

theorem inlineCodeIn_eq_findSome? (cs : List Char) :
    inlineCodeIn cs = cs.tails.findSome? inlineCodeAtFront := by
  induction cs with
  | nil => rfl
  | cons c cs ih =>
    rw [inlineCodeIn, List.tails, List.findSome?_cons, ← ih]
    cases inlineCodeAtFront (c :: cs) <;> rfl

/-- **The pattern finds the code of a command.** -/
theorem firstText_quotedCode (command : String) :
    firstText ⟨quotedCode, 1⟩ command = inlineCode command := by
  have hsearch : quotedCode.search command.toList =
      (inlineCodeIn command.toList).map fun code => [(1, code)] := by
    rw [search_eq groups_run_quotedCode, inlineCodeIn_eq_findSome?, List.map_findSome?]
    rfl
  rw [firstText, hsearch, inlineCode]
  cases hcode : inlineCodeIn command.toList with
  | none => rfl
  | some code =>
    obtain ⟨_, _, -, ⟨_, _, -, -, _, _, _, _, -, -, -, -, hne, -⟩, -⟩ :=
      Command.inlineCodeIn_eq_some_iff.mp hcode
    have hgroup : firstGroup 1 [(1, code)] = some code :=
      firstGroup_singleton (Nat.le_refl 1) (Nat.le_refl 1) hne
    rw [Option.map_some]
    dsimp only
    rw [hgroup]

end ShellPreview.Pattern
