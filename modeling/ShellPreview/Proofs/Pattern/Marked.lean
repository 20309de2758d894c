import ShellPreview.Proofs.Pattern.Phrase
/-!
# Patterns that read a name behind a marker

A pattern of a phrase may have room for one certain word, the marker, in
front of the name, and for no other option (`reads_optional`). The name of
such a pattern is made of parts between dots, of which none has a hyphen;
the first part takes the dots as well, so that the name goes up to the next
hyphen (`reads_dotted`).
-/

namespace ShellPreview.Pattern

open Text (isBlank words headWord behindWord)

variable {next : Next} {p : Place} {nodes : List Node} {w : List Char}
variable {f : List (List Char) → Found}

/-- A word and the blanks behind it, or nothing. -/
def optional (w : List Char) : Node :=
  .upTo true (.group none (.sequence (literal w ++ [gap]))) 1

/-- The part of a name behind a dot. -/
def dotPart : Node :=
  .group none (.seq (.chars (.single '.')) (.plus true (.chars (outside ['-']))))

/-- A name without hyphens, as a group. -/
def dotted (index : Nat) : Node :=
  .group (some index) (.seq (.plus true (.chars (outside ['-']))) (.star true dotPart))

/-- The name behind some words and a marker, which may be missing. -/
def nameMarked (words : List (List Char)) (marker : List Char) (index : Nat) : Node :=
  .sequence (phrase words ++ [optional marker, dotted index])

/-! ## The marker -/

/-- The words without a marker in front. -/
def unmarked (marker : List Char) : List (List Char) → List (List Char)
  | [] => []
  | w :: ws => if w = marker then ws else w :: ws

/-- The word is taken if it stands there and something follows it. -/
theorem run_optional (hw : ∀ c ∈ w, isBlank c = false) (hnext : next.Refuses isBlank)
    (p : Place) :
    (optional w).run next p =
      prefer true
        (fun _ => if headWord p.rest = w ∧ behindWord p.rest ≠ [] then next p.nextWord else none)
        fun _ => next p := by
  have hnothing : Next.Refuses ((Node.sequence []).run next) isBlank := hnext
  have hword : (Node.sequence (literal w ++ [gap])).run next p =
      if headWord p.rest = w ∧ behindWord p.rest ≠ [] then next p.nextWord else none :=
    run_word hw hnothing p
  rw [← hword]
  rfl

/-- **A marker is passed over**, where nothing is found if it stands
there. -/
theorem reads_optional (hw : w ≠ [] ∧ ∀ c ∈ w, isBlank c = false)
    (h : Next.Reads ((Node.sequence nodes).run next) f) (hmarker : ∀ ws, f (w :: ws) = none) :
    Next.Reads ((Node.sequence (optional w :: nodes)).run next)
      fun tokens => f (unmarked w tokens) := by
  obtain ⟨hne, hblank⟩ := hw
  refine ⟨fun p hp => ?_, fun p c cs hp hc => ?_, h.needs⟩
  · have hnext := h.finds p hp
    rw [run_sequence_cons, run_optional hblank h.refuses]
    rw [hp.words_eq] at hnext ⊢
    by_cases hend : p.rest = []
    · -- at the end there is no marker
      rw [prefer_of_none, hnext, if_pos hend, unmarked]
      rw [hend]
      exact if_neg fun hhead => hne hhead.1.symm
    rw [if_neg hend] at hnext ⊢
    rw [unmarked]
    by_cases hhead : headWord p.rest = w
    · have hfails : (Node.sequence nodes).run next p = none :=
        Option.map_eq_none_iff.mp (hnext.trans (hhead ▸ hmarker _))
      rw [if_pos hhead, prefer_eq_of_imp fun _ => hfails]
      by_cases hlast : behindWord p.rest = []
      · rw [if_neg fun hboth => hboth.2 hlast, hlast]
        exact h.needs.symm
      · rw [if_pos ⟨hhead, hlast⟩, h.finds _ (Place.atWord_nextWord hp.groups),
          Place.words_nextWord]
    · rw [prefer_of_none (if_neg fun hboth => hhead hboth.1), hnext, if_neg hhead]
  · have hnone : headWord p.rest = [] :=
      Text.headWord_eq_nil_of_atStop (hp ▸ Text.atStop_cons hc cs)
    rw [run_sequence_cons, run_optional hblank h.refuses, prefer_of_none]
    · exact h.refuses p c cs hp hc
    · rw [hnone]
      exact if_neg fun hboth => hne hboth.1.symm

/-! ## The name -/

/-- No further part is taken where there is no dot. -/
theorem run_star_dotPart (hdot : '.' ∉ p.rest.head?) :
    (Node.star true dotPart).run next p = next p := by
  have hpart : ∀ next : Next, dotPart.run next p = none := by
    intro next
    have hrun : dotPart.run next p = (Node.chars (.single '.')).run
        ((Node.plus true (.chars (outside ['-']))).run next) p := rfl
    rw [hrun]
    cases hrest : p.rest with
    | nil => exact run_chars_nil hrest
    | cons c cs =>
      rw [run_chars_cons hrest, holds_single, if_neg]
      intro hc
      rw [hrest, beq_iff_eq.mp hc] at hdot
      exact hdot rfl
  have hrun : (Node.star true dotPart).run next p =
      prefer true (fun _ => onceOrMore (fun k => dotPart.run k) true next p) fun _ => next p := rfl
  rw [hrun]
  exact prefer_of_none (hpart _)

/-- Behind all characters of a name there is no dot. -/
theorem not_dot_behind_name (p : Place) :
    '.' ∉ (p.skip (p.front (outside ['-']))).rest.head? := by
  intro hdot
  have hnot := List.head?_dropWhile_not (outside ['-']).holds p.rest
  rw [Place.rest_skip, Place.front, Text.drop_length_takeWhile] at hdot
  rw [Option.mem_def.mp hdot] at hnot
  exact absurd hnot (by decide)

/-- A repetition leaves behind it what its characters are. -/
theorem Place.take_front (p : Place) (s : CharSet) :
    p.rest.take (p.front s) = p.rest.takeWhile s.holds :=
  (List.prefix_iff_eq_take.mp (List.takeWhile_prefix s.holds)).symm

/-- The characters of a name are taken all at once. -/
theorem run_dotted (index : Nat) (p : Place) :
    ((Node.sequence [dotted index]).run some p).map Place.groups =
      if p.front (outside ['-']) = 0 then none
      else some ((index, p.rest.takeWhile (outside ['-']).holds) :: p.groups) := by
  have hrun : (Node.sequence [dotted index]).run some p =
      (Node.plus true (.chars (outside ['-']))).run
        ((Node.star true dotPart).run fun q => some (Place.keep (some index) p q)) p := rfl
  have hbehind : ((Node.star true dotPart).run fun q => some (Place.keep (some index) p q))
      (p.skip (p.front (outside ['-']))) =
        some (Place.keep (some index) p (p.skip (p.front (outside ['-'])))) :=
    run_star_dotPart (not_dot_behind_name p)
  -- behind all characters the match succeeds, so none is given back
  have hsettles : Next.Settles
      ((Node.star true dotPart).run fun q => some (Place.keep (some index) p q)) p
      (p.front (outside ['-'])) := by
    intro m _ hnone
    rw [hbehind] at hnone
    cases hnone
  rw [hrun, run_plus_chars hsettles, hbehind]
  split
  · rfl
  · have hlength : p.front (outside ['-']) ≤ p.rest.length :=
      (List.takeWhile_prefix _).length_le
    rw [Option.map_some, Place.groups_keep_skip hlength, Place.take_front]

/-- **The name goes up to the next hyphen**, and must not begin with
one. -/
theorem reads_dotted (index : Nat) :
    Next.Reads ((Node.sequence [dotted index]).run some)
      fun tokens => (nameOf ['-'] tokens).map fun name => [(index, name)] := by
  refine ⟨fun p hp => ?_, fun p c cs hp hc => ?_, rfl⟩
  · rw [run_dotted, takeWhile_outside, hp.groups, hp.words_eq]
    cases hrest : p.rest with
    | nil =>
      rw [Place.front_nil hrest]
      rfl
    | cons c cs =>
      have hblank : isBlank c = false := hp.isBlank_eq hrest
      have hhead : headWord (c :: cs) = c :: headWord cs :=
        List.takeWhile_cons_of_pos (by simp [hblank])
      have hholds : (outside ['-']).holds c = !(['-'].contains c) := by
        rw [holds_outside, hblank, Bool.not_false, Bool.true_and]
      rw [if_neg (List.cons_ne_nil c cs), hhead, nameOf]
      by_cases hc : c = '-'
      · have hfront : p.front (outside ['-']) = 0 :=
          Place.front_of_not hrest (by rw [hholds, hc]; rfl)
        rw [if_pos hfront, if_pos (.inl hc)]
        rfl
      · have hfront : p.front (outside ['-']) ≠ 0 := by
          rw [Place.front_of_holds hrest (by simp [hholds, hc])]
          omega
        have hname : ¬(c = '-' ∨ c ∈ ['-']) := by simp [hc]
        rw [if_neg hfront, if_neg hname, Option.map_some]
  · have hholds : (outside ['-']).holds c = false := by
      rw [holds_outside, hc]
      rfl
    have hnone := run_dotted index p
    rw [if_pos (Place.front_of_not hp hholds)] at hnone
    exact Option.map_eq_none_iff.mp hnone

/-- What stands behind the words and a marker, as a name. -/
def foundMarked (ws : List (List Char)) (marker : List Char) (index : Nat) :
    List (List Char) → Found :=
  behind (fun tokens => (nameOf ['-'] (unmarked marker tokens)).map fun name => [(index, name)]) ws

/-- **The pattern of a phrase with a marker finds what the phrase finds**
among the words behind its first word, of which the text has the end. -/
theorem groups_nameMarked {ws : List (List Char)} {marker : List Char}
    (hwords : ∀ v ∈ w :: ws, v ≠ [] ∧ ∀ c ∈ v, isBlank c = false)
    (hmarker : isOption marker = true ∧ ∀ c ∈ marker, isBlank c = false) (index : Nat)
    (hp : p.groups = []) :
    ((nameMarked (w :: ws) marker index).run some p).map Place.groups =
      foundAt w (foundMarked ws marker index) p.rest := by
  obtain ⟨⟨-, hw⟩, hws⟩ := List.forall_mem_cons.mp hwords
  have hne : marker ≠ [] := by
    rintro rfl
    cases hmarker.1
  have hname := reads_dotted index
  have hoptional := reads_optional ⟨hne, hmarker.2⟩ hname fun vs => by
    rw [nameOf_option hmarker.1, Option.map_none]
  have hphrase := reads_phrase hws hoptional
  have hnodes : nameMarked (w :: ws) marker index = .sequence
      (literal w ++ gap :: (phrase ws ++ [optional marker, dotted index])) := by
    rw [nameMarked, phrase, List.append_assoc, List.cons_append]
  rw [hnodes, groups_run_word hw hphrase hp]
  rfl

end ShellPreview.Pattern
