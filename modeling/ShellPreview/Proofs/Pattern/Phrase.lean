import ShellPreview.Proofs.Pattern.Greedy
import ShellPreview.Proofs.Text.Segments
/-!
# Patterns that read words

Patterns of a phrase, of options and of a name behind them. What such a
pattern does at a place at which a word begins depends on the words that
follow only (`Next.Reads`), and every part takes whole words: a gap takes
all blanks, an option all of a word, so that there is nothing to give back.
A search for such a pattern goes from token to token (`findSome?_foundAt`).
-/

namespace ShellPreview.Pattern

open Text (isBlank words headWord behindWord)

variable {next : Next} {p : Place} {nodes : List Node} {w : List Char} {stops : List Char}

/-- What the groups have matched at the end, or that there is no match. -/
abbrev Found := Option (List (Nat × List Char))

variable {f : List (List Char) → Found}

/-! ## The parts of the patterns -/

/-- Blanks between words. -/
def gap : Node :=
  .plus true (.chars .blank)

/-- The characters of a word. -/
def literal (w : List Char) : List Node :=
  w.map fun c => .chars (.single c)

/-- Words with blanks behind each. -/
def phrase : List (List Char) → List Node
  | [] => []
  | w :: ws => literal w ++ gap :: phrase ws

/-- An option and the blanks behind it. -/
def option : Node :=
  .group none (.seq (.chars (.single '-')) (.seq (.plus true (.chars (.complement .blank))) gap))

/-- The characters that are neither blanks nor stops. -/
def outside (stops : List Char) : CharSet :=
  .complement (.unions (.blank :: stops.map .single))

/-- A name up to the next stop, which does not begin with a hyphen, as a
group. -/
def named (stops : List Char) (index : Nat) : Node :=
  .group (some index)
    (.seq (.chars (outside (stops ++ ['-']))) (.star true (.chars (outside stops))))

/-- The name behind some words and options. -/
def nameAfter (words : List (List Char)) (stops : List Char) (index : Nat) : Node :=
  .sequence (phrase words ++ [.star true option, named stops index])

/-! ## Their sets of characters -/

theorem holds_range (first last c : Char) :
    (CharSet.range first last).holds c = (decide (first ≤ c) && decide (c ≤ last)) :=
  rfl

theorem holds_complement (s : CharSet) (c : Char) : (CharSet.complement s).holds c = !s.holds c :=
  rfl

theorem holds_union (s t : CharSet) (c : Char) :
    (CharSet.union s t).holds c = (s.holds c || t.holds c) :=
  rfl

theorem unions_cons_cons (s t : CharSet) (sets : List CharSet) :
    CharSet.unions (s :: t :: sets) = .union s (CharSet.unions (t :: sets)) :=
  rfl

theorem holds_unions (s : CharSet) (sets : List CharSet) (c : Char) :
    (CharSet.unions (s :: sets)).holds c = (s :: sets).any fun s => s.holds c := by
  induction sets generalizing s with
  | nil =>
    rw [List.any_cons, List.any_nil, Bool.or_false]
    rfl
  | cons t sets ih =>
    rw [unions_cons_cons, holds_union, ih]
    rfl

theorem holds_single (c d : Char) : (CharSet.single c).holds d = (c == d) := by
  rw [CharSet.single, holds_range, Bool.eq_iff_iff, Bool.and_eq_true, decide_eq_true_iff,
    decide_eq_true_iff, beq_iff_eq]
  constructor
  · rintro ⟨hle, hge⟩
    exact Char.le_antisymm hle hge
  · rintro rfl
    exact ⟨Char.le_refl c, Char.le_refl c⟩

theorem holds_outside (stops : List Char) (c : Char) :
    (outside stops).holds c = (!isBlank c && !stops.contains c) := by
  have hstops : (stops.map CharSet.single).any (fun s => s.holds c) = stops.contains c := by
    rw [List.any_map, List.contains_eq_any_beq]
    congr 1
    funext d
    rw [Function.comp_apply, holds_single, Bool.beq_comm]
  rw [outside, holds_complement, holds_unions, List.any_cons, hstops, Bool.not_or]
  rfl

/-- What stands in front of the next blank or stop. -/
theorem takeWhile_outside (stops cs : List Char) :
    cs.takeWhile (outside stops).holds =
      (headWord cs).takeWhile fun c => !stops.contains c := by
  have hset : (outside stops).holds = fun c => !stops.contains c && !isBlank c := by
    funext c
    rw [holds_outside, Bool.and_comm]
  rw [headWord, List.takeWhile_takeWhile, hset]
  simp

/-! ## Places at words -/

/-- A word begins at the place, or it is the end; and no group has matched
so far. -/
structure Place.AtWord (p : Place) : Prop where
  groups : p.groups = []
  notBlank : ∀ c ∈ p.rest.head?, isBlank c = false

/-- The place of the word behind the one that begins here. -/
def Place.nextWord (p : Place) : Place :=
  p.skip ((headWord p.rest).length + ((behindWord p.rest).takeWhile isBlank).length)

theorem Place.rest_nextWord (p : Place) :
    p.nextWord.rest = (behindWord p.rest).dropWhile isBlank := by
  have hbehind : p.rest.drop (headWord p.rest).length = behindWord p.rest :=
    Text.drop_length_takeWhile _ _
  rw [Place.nextWord, Place.rest_skip, ← List.drop_drop, hbehind, Text.drop_length_takeWhile]

theorem Place.atWord_nextWord (h : p.groups = []) : p.nextWord.AtWord where
  groups := by rw [Place.nextWord, Place.groups_skip, h]
  notBlank := by
    intro c hc
    have hnot := List.head?_dropWhile_not isBlank (behindWord p.rest)
    rw [Place.rest_nextWord] at hc
    rw [Option.mem_def.mp hc] at hnot
    simpa using hnot

theorem Place.words_nextWord (p : Place) : words p.nextWord.rest = words (behindWord p.rest) := by
  rw [Place.rest_nextWord, Text.words_dropWhile_isBlank]

theorem Place.AtWord.isBlank_eq (h : p.AtWord) {c : Char} {cs : List Char}
    (hrest : p.rest = c :: cs) : isBlank c = false :=
  h.notBlank c (by rw [hrest]; rfl)

/-- The first word of a place at a word is one of the words. -/
theorem Place.AtWord.words_eq (h : p.AtWord) :
    words p.rest =
      if p.rest = [] then [] else headWord p.rest :: words (behindWord p.rest) := by
  cases hrest : p.rest with
  | nil => rfl
  | cons c cs =>
    have hc : isBlank c = false := h.isBlank_eq hrest
    rw [if_neg (List.cons_ne_nil _ _)]
    refine Text.words_eq_cons ?_
    rw [headWord, List.takeWhile_cons_of_pos (by simp [hc])]
    exact List.cons_ne_nil _ _

/-- What comes next finds, at a place at a word, what is said of the words
that follow. It does not start with a blank and needs a word. -/
structure Next.Reads (next : Next) (f : List (List Char) → Found) : Prop where
  finds : ∀ p : Place, p.AtWord → (next p).map Place.groups = f (words p.rest)
  refuses : next.Refuses isBlank
  needs : f [] = none

/-! ## Words and gaps -/

/-- A gap takes all blanks, if what comes next does not start with one. -/
theorem run_gap (hnext : next.Refuses isBlank) (hstop : Text.AtStop isBlank p.rest) :
    gap.run next p =
      if p.rest = [] then none else next (p.skip (p.rest.takeWhile isBlank).length) := by
  have hblank : next.Refuses CharSet.blank.holds := hnext
  have hfront : p.front .blank = (p.rest.takeWhile isBlank).length := rfl
  rw [gap, run_plus_chars (hblank.settles p), hfront]
  cases hrest : p.rest with
  | nil => rfl
  | cons c cs =>
    have hc : isBlank c = true := hstop c (by rw [hrest]; rfl)
    rw [List.takeWhile_cons_of_pos hc, List.length_cons, if_neg (Nat.succ_ne_zero _),
      if_neg (List.cons_ne_nil _ _)]

/-- A gap needs a blank. -/
theorem run_gap_of_not {c : Char} {cs : List Char} (hrest : p.rest = c :: cs)
    (hc : isBlank c = false) : gap.run next p = none := by
  have hblank : CharSet.blank.holds c = false := hc
  rw [gap, run_plus, run_chars_cons hrest, hblank]
  rfl

theorem run_literal (w : List Char) (p : Place) :
    (Node.sequence (literal w ++ nodes)).run next p =
      if w <+: p.rest then (Node.sequence nodes).run next (p.skip w.length) else none := by
  induction w generalizing p with
  | nil =>
    rw [if_pos (List.nil_prefix), List.length_nil, Place.skip_zero]
    rfl
  | cons c w ih =>
    rw [literal, List.map_cons, List.cons_append, run_sequence_cons, ← literal]
    cases hrest : p.rest with
    | nil =>
      rw [run_chars_nil hrest, if_neg]
      exact fun h => List.cons_ne_nil _ _ (List.prefix_nil.mp h)
    | cons d ds =>
      rw [run_chars_cons hrest, holds_single, ih, Place.rest_skip_one hrest, Place.skip_skip,
        List.length_cons, Nat.add_comm]
      by_cases hc : c = d
      · simp [hc, List.cons_prefix_cons]
      · simp [hc, List.cons_prefix_cons]

/-- A word and a gap take the word that begins at the place, and nothing
but all of it. -/
theorem run_word (hw : ∀ c ∈ w, isBlank c = false)
    (hnext : Next.Refuses ((Node.sequence nodes).run next) isBlank) (p : Place) :
    (Node.sequence (literal w ++ gap :: nodes)).run next p =
      if headWord p.rest = w ∧ behindWord p.rest ≠ [] then
        (Node.sequence nodes).run next p.nextWord
      else none := by
  rw [run_literal, run_sequence_cons]
  by_cases hprefix : w <+: p.rest
  · obtain ⟨r, hr⟩ := hprefix
    have hskip : (p.skip w.length).rest = r := by rw [Place.rest_skip, ← hr, List.drop_left]
    rw [if_pos ⟨r, hr⟩]
    by_cases hstop : Text.AtStop isBlank r
    · -- the word ends here, and behind it there are blanks or nothing
      have hhead : headWord p.rest = w := by rw [← hr]; exact Text.takeWhile_segment hw hstop
      have hbehind : behindWord p.rest = r := by rw [← hr]; exact Text.dropWhile_segment hw hstop
      rw [run_gap hnext (hskip ▸ hstop), hskip, Place.skip_skip, Place.nextWord, hhead, hbehind]
      by_cases hend : r = []
      · rw [if_pos hend, if_neg fun h => h.2 hend]
      · rw [if_neg hend, if_pos ⟨rfl, hend⟩]
    · -- the word of the text goes on
      have hnot : ¬headWord p.rest = w := by
        intro hhead
        have happend := Text.headWord_append_behindWord p.rest
        have hbehind : Text.AtStop isBlank (behindWord p.rest) := Text.atStop_dropWhile _ _
        rw [hhead] at happend
        exact hstop (List.append_cancel_left (happend.trans hr.symm) ▸ hbehind)
      rw [if_neg fun h => hnot h.1]
      cases r with
      | nil => exact absurd (Text.atStop_nil _) hstop
      | cons c cs =>
        have hc : isBlank c = false :=
          Bool.eq_false_iff.mpr fun hc => hstop (Text.atStop_cons hc cs)
        exact run_gap_of_not hskip hc
  · rw [if_neg hprefix, if_neg]
    rintro ⟨rfl, -⟩
    exact hprefix (List.takeWhile_prefix _)

/-- What is found behind the word, if it begins the text. -/
def foundAt (w : List Char) (f : List (List Char) → Found) (cs : List Char) : Found :=
  if headWord cs = w then f (words (behindWord cs)) else none

/-- What is found behind a word and a gap. -/
theorem groups_run_word (hw : ∀ c ∈ w, isBlank c = false)
    (h : Next.Reads ((Node.sequence nodes).run next) f) (hp : p.groups = []) :
    ((Node.sequence (literal w ++ gap :: nodes)).run next p).map Place.groups =
      foundAt w f p.rest := by
  rw [run_word hw h.refuses, foundAt]
  by_cases hhead : headWord p.rest = w
  · rw [if_pos hhead]
    by_cases hbehind : behindWord p.rest = []
    · rw [if_neg fun h => h.2 hbehind, hbehind]
      exact h.needs.symm
    · rw [if_pos ⟨hhead, hbehind⟩, h.finds _ (Place.atWord_nextWord hp), Place.words_nextWord]
  · rw [if_neg hhead, if_neg fun h => hhead h.1]
    rfl

/-- What is found behind some words. -/
def behind (f : List (List Char) → Found) : List (List Char) → List (List Char) → Found
  | [], tokens => f tokens
  | w :: ws, token :: tokens => if token = w then behind f ws tokens else none
  | _ :: _, [] => none

theorem behind_eq_some_iff {ws tokens : List (List Char)} {groups : List (Nat × List Char)} :
    behind f ws tokens = some groups ↔ ∃ tail, tokens = ws ++ tail ∧ f tail = some groups := by
  induction ws generalizing tokens with
  | nil => simp [behind]
  | cons w ws ih =>
    cases tokens with
    | nil => simp [behind]
    | cons token tokens =>
      rw [behind]
      by_cases htoken : token = w
      · simp [htoken, ih]
      · simp [htoken]

/-- The induction is on the words. -/
theorem reads_phrase {ws : List (List Char)}
    (hws : ∀ w ∈ ws, w ≠ [] ∧ ∀ c ∈ w, isBlank c = false)
    (h : Next.Reads ((Node.sequence nodes).run next) f) :
    Next.Reads ((Node.sequence (phrase ws ++ nodes)).run next) (behind f ws) := by
  induction ws with
  | nil => exact ⟨h.finds, h.refuses, h.needs⟩
  | cons w ws ih =>
    obtain ⟨⟨hne, hw⟩, hws⟩ := List.forall_mem_cons.mp hws
    have hrest := ih hws
    rw [phrase, List.append_assoc, List.cons_append]
    refine ⟨fun p hp => ?_, fun p c cs hp hc => ?_, rfl⟩
    · rw [groups_run_word hw hrest hp.groups, foundAt, hp.words_eq]
      by_cases hend : p.rest = []
      · rw [if_pos hend, hend]
        exact if_neg (Ne.symm hne)
      · rw [if_neg hend, behind]
    · -- no word begins with a blank
      have hnone : headWord p.rest = [] :=
        Text.headWord_eq_nil_of_atStop (hp ▸ Text.atStop_cons hc cs)
      rw [run_word hw hrest.refuses, hnone, if_neg fun h => hne h.1.symm]

/-! ## Options -/

/-- A word that begins with a hyphen and goes on behind it. -/
def isOption : List Char → Bool
  | '-' :: _ :: _ => true
  | _ => false

theorem isOption_cons (c : Char) (w : List Char) :
    isOption (c :: w) = (c == '-' && !w.isEmpty) := by
  by_cases hc : c = '-'
  · subst hc
    cases w <;> rfl
  · rw [beq_false_of_ne hc, Bool.false_and]
    unfold isOption
    split
    · next heq => exact absurd (List.cons.inj heq).1 hc
    · rfl

/-- An option takes the word that begins at the place, if it is one and
something follows it. -/
theorem run_option (hnext : next.Refuses isBlank) (p : Place) :
    option.run next p =
      if isOption (headWord p.rest) ∧ behindWord p.rest ≠ [] then next p.nextWord else none := by
  have hset : ∀ c, (CharSet.complement .blank).holds c = !isBlank c := fun _ => rfl
  -- a gap refuses all that is no blank, so the word is taken as a whole
  have hgap : Next.Refuses (gap.run next) (CharSet.complement .blank).holds := by
    intro q c cs hq hc
    exact run_gap_of_not hq (by simpa [hset] using hc)
  have hrun : option.run next p = (Node.chars (.single '-')).run
      ((Node.plus true (.chars (.complement .blank))).run (gap.run next)) p := rfl
  rw [hrun]
  cases hrest : p.rest with
  | nil =>
    rw [run_chars_nil hrest, if_neg]
    rintro ⟨⟨⟩, -⟩
  | cons c cs =>
    rw [run_chars_cons hrest, holds_single]
    by_cases hc : '-' = c
    · subst hc
      have hhead : headWord ('-' :: cs) = '-' :: headWord cs :=
        List.takeWhile_cons_of_pos (by decide)
      have hbehind : behindWord ('-' :: cs) = behindWord cs :=
        List.dropWhile_cons_of_pos (by decide)
      have hskip := Place.rest_skip_one hrest
      have hfront : (p.skip 1).front (.complement .blank) = (headWord cs).length := by
        rw [Place.front, hskip]
        rfl
      have hend : ((p.skip 1).skip (headWord cs).length).rest = behindWord cs := by
        rw [Place.rest_skip, hskip]
        exact Text.drop_length_takeWhile _ _
      have hstop : Text.AtStop isBlank (behindWord cs) := Text.atStop_dropWhile _ _
      rw [if_pos (beq_self_eq_true _), run_plus_chars (hgap.settles _), hfront,
        run_gap hnext (hend ▸ hstop), hend, Place.skip_skip, Place.skip_skip, Place.nextWord,
        hrest, hhead, hbehind, List.length_cons, isOption_cons, beq_self_eq_true, Bool.true_and]
      have hlength : ∀ n, 1 + ((headWord cs).length + n) = (headWord cs).length + 1 + n := by omega
      rw [hlength]
      cases headWord cs with
      | nil => rfl
      | cons d ds =>
        have hsome : (d :: ds).length ≠ 0 := Nat.succ_ne_zero _
        rw [if_neg hsome]
        by_cases hnone : behindWord cs = []
        · rw [if_pos hnone, if_neg fun h => h.2 hnone]
        · rw [if_neg hnone, if_pos ⟨rfl, hnone⟩]
    · rw [if_neg (by simpa using hc), if_neg]
      rintro ⟨hoption, -⟩
      rw [headWord, List.takeWhile_cons] at hoption
      split at hoption
      · rw [isOption_cons, beq_false_of_ne (Ne.symm hc)] at hoption
        cases hoption
      · cases hoption

theorem refuses_option (hnext : next.Refuses isBlank) :
    Next.Refuses (option.run next) isBlank := by
  intro p c cs hrest hc
  have hnone : headWord p.rest = [] :=
    Text.headWord_eq_nil_of_atStop (hrest ▸ Text.atStop_cons hc cs)
  rw [run_option hnext, hnone, if_neg]
  rintro ⟨⟨⟩, -⟩

/-- One more option or what comes next: what is found behind all options is
found behind one more of them. -/
theorem prefer_option (h : next.Reads f) (hoption : ∀ w ws, isOption w = true → f (w :: ws) = none)
    {more : Next} (hmore : more.Refuses isBlank) (hp : p.AtWord)
    (hbehind : p.nextWord.rest.length < p.rest.length → (more p.nextWord).map Place.groups =
      f ((words p.nextWord.rest).dropWhile isOption)) :
    (prefer true (fun _ => option.run more p) fun _ => next p).map Place.groups =
      f ((words p.rest).dropWhile isOption) := by
  have hnext := h.finds p hp
  rw [hp.words_eq] at hnext ⊢
  by_cases hend : p.rest = []
  · -- at the end there is no option
    have hnone : option.run more p = none := by
      rw [run_option hmore, hend, if_neg]
      rintro ⟨⟨⟩, -⟩
    rw [prefer_of_none hnone, hnext, if_pos hend]
    rfl
  rw [if_neg hend] at hnext ⊢
  by_cases hhead : isOption (headWord p.rest) = true
  · have hfails : next p = none := Option.map_eq_none_iff.mp (hnext.trans (hoption _ _ hhead))
    rw [List.dropWhile_cons_of_pos hhead]
    by_cases hlast : behindWord p.rest = []
    · -- an option at the very end is not taken, and neither is it a name
      have hnone : option.run more p = none := by
        rw [run_option hmore, if_neg fun h => h.2 hlast]
      rw [prefer_of_none hnone, hfails, hlast]
      exact h.needs.symm
    · have htaken : option.run more p = more p.nextWord := by
        rw [run_option hmore, if_pos ⟨hhead, hlast⟩]
      have hshorter : p.nextWord.rest.length < p.rest.length := by
        have happend := congrArg List.length (Text.headWord_append_behindWord p.rest)
        have hnonempty : (headWord p.rest).length ≠ 0 := by
          intro hzero
          rw [List.length_eq_zero_iff.mp hzero] at hhead
          cases hhead
        have hdrop := (List.dropWhile_suffix (l := behindWord p.rest) isBlank).length_le
        rw [List.length_append] at happend
        rw [Place.rest_nextWord]
        omega
      rw [prefer_eq_of_imp fun _ => hfails, htaken, hbehind hshorter, Place.words_nextWord]
  · have hnone : option.run more p = none := by
      rw [run_option hmore, if_neg fun h => hhead h.1]
    rw [prefer_of_none hnone, hnext, List.dropWhile_cons_of_neg hhead]

/-- The induction is on the characters that are left to options. -/
theorem reads_again_option (h : next.Reads f)
    (hoption : ∀ w ws, isOption w = true → f (w :: ws) = none) (fuel : Nat) :
    Next.Refuses (again (fun k => option.run k) true next fuel) isBlank ∧
      ∀ p : Place, p.AtWord → p.rest.length ≤ fuel →
        (again (fun k => option.run k) true next fuel p).map Place.groups =
          f ((words p.rest).dropWhile isOption) := by
  induction fuel with
  | zero =>
    refine ⟨h.refuses, fun p hp hfuel => ?_⟩
    have hrest : p.rest = [] := List.length_eq_zero_iff.mp (Nat.le_zero.mp hfuel)
    rw [again, h.finds p hp, hrest]
    rfl
  | succ fuel ih =>
    have hmore : ∀ p, Next.Refuses
        (Next.beyond (again (fun k => option.run k) true next fuel) p) isBlank := by
      intro p q c cs hq hc
      rw [Next.beyond, ih.1 q c cs hq hc, ite_self]
    refine ⟨fun p c cs hp hc => ?_, fun p hp hfuel => ?_⟩
    · rw [again_succ, prefer_of_none]
      · exact h.refuses p c cs hp hc
      · exact refuses_option (hmore p) p c cs hp hc
    · rw [again_succ]
      -- an option always takes characters
      refine prefer_option h hoption (hmore p) hp fun hshorter => ?_
      have hagain := ih.2 p.nextWord (Place.atWord_nextWord hp.groups) (by omega)
      rw [Next.beyond, if_pos hshorter, hagain]

/-- **Options are passed over**, all of them. -/
theorem reads_options (h : Next.Reads ((Node.sequence nodes).run next) f)
    (hoption : ∀ w ws, isOption w = true → f (w :: ws) = none) :
    Next.Reads ((Node.sequence (.star true option :: nodes)).run next)
      fun tokens => f (tokens.dropWhile isOption) := by
  have hrun : ∀ p, (Node.sequence (.star true option :: nodes)).run next p =
      prefer true (fun _ => option.run (again (fun k => option.run k) true
        ((Node.sequence nodes).run next) p.rest.length) p)
        fun _ => (Node.sequence nodes).run next p := fun p => run_sequence_cons _ _
  have hagain := reads_again_option h hoption
  refine ⟨fun p hp => ?_, fun p c cs hp hc => ?_, h.needs⟩
  · rw [hrun]
    refine prefer_option h hoption (hagain _).1 hp fun hshorter => ?_
    exact (hagain _).2 _ (Place.atWord_nextWord hp.groups) hshorter.le
  · rw [hrun, prefer_of_none]
    · exact h.refuses p c cs hp hc
    · exact refuses_option (hagain _).1 p c cs hp hc

/-! ## Names -/

/-- The name that the first word gives: what stands in front of the first
stop, if it does not begin with a hyphen or a stop. -/
def nameOf (stops : List Char) : List (List Char) → Option (List Char)
  | (c :: cs) :: _ =>
    if c = '-' ∨ c ∈ stops then none else some ((c :: cs).takeWhile fun c => !stops.contains c)
  | _ => none

/-- No option gives a name. -/
theorem nameOf_option {w : List Char} (h : isOption w = true) (ws : List (List Char)) :
    nameOf stops (w :: ws) = none := by
  cases w with
  | nil => cases h
  | cons c w =>
    rw [isOption_cons, Bool.and_eq_true, beq_iff_eq] at h
    rw [nameOf, if_pos (.inl h.1)]

/-- A name is not empty and begins with neither a hyphen nor a stop. -/
theorem eq_cons_of_nameOf {name : List Char} {tokens : List (List Char)}
    (h : nameOf stops tokens = some name) :
    ∃ c cs, name = c :: cs ∧ c ≠ '-' ∧ c ∉ stops := by
  unfold nameOf at h
  split at h
  · next c cs _ =>
    split at h
    · cases h
    · next hfirst =>
      rw [not_or] at hfirst
      rw [List.takeWhile_cons_of_pos (by simpa using hfirst.2), Option.some.injEq] at h
      exact ⟨c, _, h.symm, hfirst.1, hfirst.2⟩
  · cases h

theorem reads_named (stops : List Char) (index : Nat) :
    Next.Reads ((Node.sequence [named stops index]).run some)
      fun tokens => (nameOf stops tokens).map fun name => [(index, name)] := by
  have hrun : ∀ p : Place, (Node.sequence [named stops index]).run some p =
      (Node.chars (outside (stops ++ ['-']))).run
        ((Node.star true (.chars (outside stops))).run
          fun q => some (Place.keep (some index) p q)) p := fun p => rfl
  have hfirst : ∀ c, (outside (stops ++ ['-'])).holds c = true ↔
      isBlank c = false ∧ ¬(c = '-' ∨ c ∈ stops) := by
    intro c
    rw [holds_outside]
    simp [and_comm]
  refine ⟨fun p hp => ?_, fun p c cs hp hc => ?_, rfl⟩
  · rw [hrun, hp.words_eq]
    cases hrest : p.rest with
    | nil =>
      rw [run_chars_nil hrest]
      rfl
    | cons c cs =>
      have hc : isBlank c = false := hp.isBlank_eq hrest
      have hhead : headWord (c :: cs) = c :: headWord cs :=
        List.takeWhile_cons_of_pos (by simp [hc])
      rw [run_chars_cons hrest, if_neg (List.cons_ne_nil _ _), hhead, nameOf]
      by_cases hname : c = '-' ∨ c ∈ stops
      · rw [if_neg fun h => ((hfirst c).mp h).2 hname, if_pos hname]
        rfl
      · have hskip := Place.rest_skip_one hrest
        have hstop : (!stops.contains c) = true := by
          simpa using fun h => hname (.inr h)
        have htaken : (c :: headWord cs).takeWhile (fun c => !stops.contains c) =
            c :: (headWord cs).takeWhile fun c => !stops.contains c :=
          List.takeWhile_cons_of_pos hstop
        -- the name goes on up to the next blank or stop
        have htake := List.prefix_iff_eq_take.mp (List.takeWhile_prefix (l := cs)
          (outside stops).holds)
        have hlength := (List.takeWhile_prefix (l := cs) (outside stops).holds).length_le
        rw [if_pos ((hfirst c).mpr ⟨hc, hname⟩), if_neg hname, run_star_chars, Place.skip_skip,
          htaken, ← takeWhile_outside, Option.map_some, Option.map_some,
          Place.groups_keep_skip, hrest, hp.groups, Place.front, hskip, Nat.add_comm,
          List.take_succ_cons, ← htake]
        · rw [hrest, Place.front, hskip, List.length_cons]
          omega
        · exact fun _ _ h => absurd h (Option.some_ne_none _)
  · rw [hrun, run_chars_cons hp, if_neg]
    intro h
    rw [((hfirst c).mp h).1] at hc
    cases hc

/-- What stands behind the words and all options, as a name. -/
def foundAfter (ws : List (List Char)) (stops : List Char) (index : Nat) :
    List (List Char) → Found :=
  behind
    (fun tokens => (nameOf stops (tokens.dropWhile isOption)).map fun name => [(index, name)]) ws

/-- **The pattern of a phrase finds what the phrase finds** among the words
behind its first word, of which the text has the end. -/
theorem groups_nameAfter {ws : List (List Char)}
    (hwords : ∀ v ∈ w :: ws, v ≠ [] ∧ ∀ c ∈ v, isBlank c = false) (stops : List Char) (index : Nat)
    (hp : p.groups = []) :
    ((nameAfter (w :: ws) stops index).run some p).map Place.groups =
      foundAt w (foundAfter ws stops index) p.rest := by
  obtain ⟨⟨-, hw⟩, hws⟩ := List.forall_mem_cons.mp hwords
  have hname := reads_named stops index
  have hoptions := reads_options hname fun v vs hv => by rw [nameOf_option hv, Option.map_none]
  have hphrase := reads_phrase hws hoptions
  have hnodes : nameAfter (w :: ws) stops index = .sequence
      (literal w ++ gap :: (phrase ws ++ [.star true option, named stops index])) := by
    rw [nameAfter, phrase, List.append_assoc, List.cons_append]
  rw [hnodes, groups_run_word hw hphrase hp]
  rfl

/-! ## Searching -/

/-- What is found behind a token that ends with the word. -/
def foundBehind (w : List Char) (f : List (List Char) → Found) : List (List Char) → Found
  | token :: tokens => if w <:+ token then f tokens else none
  | [] => none

theorem foundAt_of_atStop (hw : w ≠ []) {cs : List Char} (hcs : Text.AtStop isBlank cs) :
    foundAt w f cs = none := by
  rw [foundAt, Text.headWord_eq_nil_of_atStop hcs, if_neg (Ne.symm hw)]

/-- The induction is on the segment, at whose places words begin that are
ends of it. -/
theorem findSome?_foundAt_segment (hw : w ≠ []) {segment rest : List Char}
    (hsegment : ∀ c ∈ segment, isBlank c = false) (hrest : Text.AtStop isBlank rest) :
    (segment ++ rest).tails.findSome? (foundAt w f) =
      (if w <:+ segment then f (words rest) else none).or
        (rest.tails.findSome? (foundAt w f)) := by
  induction segment with
  | nil => rw [if_neg fun h => hw (List.suffix_nil.mp h), Option.none_or, List.nil_append]
  | cons c cs ih =>
    have hhead : headWord (c :: cs ++ rest) = c :: cs := Text.takeWhile_segment hsegment hrest
    have hbehind : behindWord (c :: cs ++ rest) = rest := Text.dropWhile_segment hsegment hrest
    have hcs := ih (List.forall_mem_cons.mp hsegment).2
    rw [List.cons_append] at hhead hbehind ⊢
    rw [List.tails, List.findSome?_cons, hcs, foundAt, hhead, hbehind]
    by_cases heq : c :: cs = w
    · subst heq
      have hshorter : ¬c :: cs <:+ cs := fun h => by
        have hlength := h.length_le
        rw [List.length_cons] at hlength
        omega
      rw [if_pos rfl, if_pos (List.suffix_refl _), if_neg hshorter]
      cases f (words rest) <;> rfl
    · have hiff : w <:+ c :: cs ↔ w <:+ cs := by
        rw [List.suffix_cons_iff]
        exact or_iff_right (Ne.symm heq)
      rw [if_neg heq]
      simp only [hiff]

/-- A segment is a token if it is not empty. -/
theorem findSome?_foundBehind_segment (hw : w ≠ []) (segment : List Char)
    (tokens : List (List Char)) :
    (if segment = [] then tokens else segment :: tokens).tails.findSome? (foundBehind w f) =
      (if w <:+ segment then f tokens else none).or
        (tokens.tails.findSome? (foundBehind w f)) := by
  by_cases hnil : segment = []
  · rw [if_pos hnil, if_neg fun h => hw (List.suffix_nil.mp (hnil ▸ h)), Option.none_or]
  · rw [if_neg hnil, List.tails, List.findSome?_cons, foundBehind]
    by_cases hends : w <:+ segment
    · rw [if_pos hends]
      cases f tokens <;> rfl
    · rw [if_neg hends, Option.none_or]

/-- **A search over the places of a text is a search over its tokens.** -/
theorem findSome?_foundAt (hw : w ≠ []) (cs : List Char) :
    cs.tails.findSome? (foundAt w f) = (words cs).tails.findSome? (foundBehind w f) := by
  induction cs using Text.segment_induction isBlank with
  | last segment hsegment =>
    have hstop := Text.atStop_nil isBlank
    have hplaces := findSome?_foundAt_segment (f := f) hw hsegment hstop
    rw [List.append_nil] at hplaces
    rw [hplaces, Text.words_segment hsegment, findSome?_foundBehind_segment hw, List.tails,
      List.findSome?_singleton, foundAt_of_atStop hw hstop]
    rfl
  | more segment c cs hsegment hc ih =>
    have hstop := Text.atStop_cons hc cs
    rw [findSome?_foundAt_segment hw hsegment hstop, List.tails, List.findSome?_cons,
      foundAt_of_atStop hw hstop, ih, Text.words_segment_cons hsegment hc,
      Text.words_cons_of_blank hc, findSome?_foundBehind_segment hw]

/-- What is found at the first tail of a list at which anything is found. -/
theorem findSome?_tails_eq_some_iff {α β : Type} {g : List α → Option β} (hnil : g [] = none)
    {l : List α} {b : β} :
    l.tails.findSome? g = some b ↔
      ∃ k, g (l.drop k) = some b ∧ ∀ j < k, g (l.drop j) = none := by
  induction l with
  | nil => simp [hnil]
  | cons a l ih =>
    rw [List.tails, List.findSome?_cons]
    cases ha : g (a :: l) with
    | some b' =>
      constructor
      · intro hb
        exact ⟨0, ha.trans hb, nofun⟩
      · rintro ⟨k, hk, hbefore⟩
        cases k with
        | zero => exact ha.symm.trans hk
        | succ k =>
          have hnone := hbefore 0 (Nat.succ_pos k)
          rw [List.drop_zero, ha] at hnone
          cases hnone
    | none =>
      dsimp only
      rw [ih]
      constructor
      · rintro ⟨k, hk, hbefore⟩
        refine ⟨k + 1, hk, fun j hj => ?_⟩
        cases j with
        | zero => exact ha
        | succ j => exact hbefore j (Nat.lt_of_succ_lt_succ hj)
      · rintro ⟨k, hk, hbefore⟩
        cases k with
        | zero =>
          rw [List.drop_zero, ha] at hk
          cases hk
        | succ k => exact ⟨k, hk, fun j hj => hbefore (j + 1) (Nat.succ_lt_succ hj)⟩

end ShellPreview.Pattern
