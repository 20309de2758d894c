import ShellPreview.Command
import ShellPreview.Proofs.Text.Segments
/-!
# Code that is written in a command

Code is given by an option `-c`, some blanks and the code between two
quotes, of which each is of either kind. What stands in front of the option
does not matter, so it may be the end of a longer word, and of several such
places the first counts: `inlineCode_eq_some_iff` says which code is found
and `inlineCode_eq_none_iff` when none is.
-/

namespace ShellPreview.Command

variable {code cs rest w b : List Char} {q q' c : Char} {command : String}

/-- The text begins with a quoted argument, behind blanks if there are
any. -/
def Quotes (code cs : List Char) : Prop :=
  ∃ w q q' b, cs = w ++ q :: (code ++ q' :: b) ∧ (∀ c ∈ w, Text.isBlank c = true) ∧
    isQuote q = true ∧ isQuote q' = true ∧ code ≠ [] ∧ ∀ c ∈ code, isQuote c = false

/-- The text begins with an option `-c` that has a quoted argument; there
is at least one blank between them. -/
def OpensCode (code cs : List Char) : Prop :=
  ∃ blank rest, cs = '-' :: 'c' :: blank :: rest ∧ Text.isBlank blank = true ∧ Quotes code rest

/-- The code that is given by the first option `-c` with a quoted
argument. -/
def FirstCode (code cs : List Char) : Prop :=
  ∃ front rest, cs = front ++ rest ∧ OpensCode code rest ∧
    ∀ front' rest' code', cs = front' ++ rest' → OpensCode code' rest' →
      front.length ≤ front'.length

/-! ## At the front of a text -/

theorem isBlank_of_isQuote (h : isQuote c = true) : Text.isBlank c = false := by
  rcases Bool.or_eq_true_iff.mp h with h | h
  · obtain rfl := beq_iff_eq.mp h
    rfl
  · obtain rfl := beq_iff_eq.mp h
    rfl

theorem quotedArgument_of_quotes (h : Quotes code cs) : quotedArgument cs = some code := by
  obtain ⟨w, q, q', b, rfl, hw, hq, hq', hne, hcode⟩ := h
  have htrim : Text.trimStart (w ++ q :: (code ++ q' :: b)) = q :: (code ++ q' :: b) := by
    rw [Text.trimStart, List.dropWhile_append_of_pos hw,
      List.dropWhile_cons_of_neg (by simp [isBlank_of_isQuote hq])]
  have htake : (code ++ q' :: b).takeWhile (fun c => !isQuote c) = code :=
    Text.takeWhile_segment hcode (Text.atStop_cons hq' b)
  simp [quotedArgument, htrim, htake, hq, hne]

theorem quotes_of_quotedArgument (h : quotedArgument cs = some code) : Quotes code cs := by
  have hsplit : cs.takeWhile Text.isBlank ++ Text.trimStart cs = cs :=
    List.takeWhile_append_dropWhile
  unfold quotedArgument at h
  split at h
  · cases h
  next q r htrim =>
  simp only [Option.ite_none_right_eq_some, Bool.and_eq_true, Bool.not_eq_true',
    List.isEmpty_eq_false_iff, decide_eq_true_eq, Option.some_inj] at h
  obtain ⟨⟨⟨hq, hne⟩, hlength⟩, rfl⟩ := h
  -- the quote behind the code is the one at which it ends
  have hends := Text.atStop_dropWhile isQuote r
  have hr := List.takeWhile_append_dropWhile (p := fun c => !isQuote c) (l := r)
  rcases hbehind : r.dropWhile (fun c => !isQuote c) with - | ⟨q', b⟩
  · rw [hbehind, List.append_nil] at hr
    rw [hr] at hlength
    exact absurd hlength (Nat.lt_irrefl _)
  · rw [hbehind] at hr hends
    have hblank : ∀ c ∈ cs.takeWhile Text.isBlank, Text.isBlank c = true :=
      fun c hc => List.mem_takeWhile_imp hc
    have hcode : ∀ c ∈ r.takeWhile (fun c => !isQuote c), isQuote c = false :=
      fun c hc => by simpa using List.mem_takeWhile_imp hc
    refine ⟨_, q, q', b, ?_, hblank, hq, hends q' rfl, hne, hcode⟩
    rw [hr, ← htrim, hsplit]

theorem quotedArgument_eq_some_iff : quotedArgument cs = some code ↔ Quotes code cs :=
  ⟨quotes_of_quotedArgument, quotedArgument_of_quotes⟩

/-- **The code at the front is that of the option there.** -/
theorem inlineCodeAtFront_eq_some_iff : inlineCodeAtFront cs = some code ↔ OpensCode code cs := by
  constructor
  · intro h
    unfold inlineCodeAtFront at h
    split at h
    · split at h
      · next blank rest hblank =>
        exact ⟨blank, rest, rfl, hblank, (quotedArgument_eq_some_iff).mp h⟩
      · cases h
    · cases h
  · rintro ⟨blank, rest, rfl, hblank, hquotes⟩
    rw [inlineCodeAtFront, if_pos hblank, quotedArgument_eq_some_iff]
    exact hquotes

theorem inlineCodeAtFront_eq_none_iff :
    inlineCodeAtFront cs = none ↔ ∀ code, ¬OpensCode code cs := by
  rw [Option.eq_none_iff_forall_ne_some]
  exact forall_congr' fun code => not_congr inlineCodeAtFront_eq_some_iff

/-! ## Anywhere in a text -/

/-- No code is given by an empty text. -/
theorem not_opensCode_nil : ¬OpensCode code [] := by
  rintro ⟨blank, rest, heq, -⟩
  cases heq

theorem firstCode_of_opensCode (h : OpensCode code cs) : FirstCode code cs :=
  ⟨[], cs, rfl, h, fun front' _ _ _ _ => Nat.zero_le front'.length⟩

/-- Code at the front is the first. -/
theorem FirstCode.opensCode (h : FirstCode code cs) {code' : List Char}
    (h' : OpensCode code' cs) : OpensCode code cs := by
  obtain ⟨front, rest, rfl, hopens, hfirst⟩ := h
  obtain rfl := List.length_eq_zero_iff.mp (Nat.le_zero.mp (hfirst [] _ code' rfl h'))
  exact hopens

/-- Without code at the front the first is that of the rest. -/
theorem firstCode_cons_iff (hno : ∀ code, ¬OpensCode code (c :: cs)) :
    FirstCode code (c :: cs) ↔ FirstCode code cs := by
  constructor
  · rintro ⟨front, rest, heq, hopens, hfirst⟩
    cases front with
    | nil =>
      obtain rfl : c :: cs = rest := heq
      exact absurd hopens (hno code)
    | cons d front =>
      obtain ⟨rfl, rfl⟩ := List.cons.inj heq
      refine ⟨front, rest, rfl, hopens, fun front' rest' code' heq' hopens' => ?_⟩
      have hle := hfirst (c :: front') rest' code' (congrArg (c :: ·) heq') hopens'
      exact Nat.le_of_succ_le_succ hle
  · rintro ⟨front, rest, rfl, hopens, hfirst⟩
    refine ⟨c :: front, rest, rfl, hopens, fun front' rest' code' heq' hopens' => ?_⟩
    cases front' with
    | nil =>
      obtain rfl : c :: (front ++ rest) = rest' := heq'
      exact absurd hopens' (hno code')
    | cons d front' =>
      obtain ⟨-, htail⟩ := List.cons.inj heq'
      exact Nat.succ_le_succ (hfirst front' rest' code' htail hopens')

/-- **The first code is found.** -/
theorem inlineCodeIn_eq_some_iff : inlineCodeIn cs = some code ↔ FirstCode code cs := by
  -- a step finds code at the front, which is the first, or leaves it to the rest
  induction cs with
  | nil =>
    refine iff_of_false nofun ?_
    rintro ⟨front, rest, heq, hopens, -⟩
    obtain ⟨-, rfl⟩ := List.append_eq_nil_iff.mp heq.symm
    exact not_opensCode_nil hopens
  | cons c cs ih =>
    rw [inlineCodeIn]
    split
    · next code' hfront =>
      have hopens' := (inlineCodeAtFront_eq_some_iff).mp hfront
      rw [Option.some_inj]
      constructor
      · rintro rfl
        exact firstCode_of_opensCode hopens'
      · intro hfirst
        have hopens := (inlineCodeAtFront_eq_some_iff).mpr (hfirst.opensCode hopens')
        exact Option.some.inj (hfront.symm.trans hopens)
    · next hfront => rw [ih, firstCode_cons_iff (inlineCodeAtFront_eq_none_iff.mp hfront)]

/-- **The code of a command** is the first that is given in it. -/
theorem inlineCode_eq_some_iff {code : String} :
    inlineCode command = some code ↔ FirstCode code.toList command.toList := by
  rw [inlineCode, Option.map_eq_some_iff]
  constructor
  · rintro ⟨chars, hchars, rfl⟩
    rw [String.toList_ofList]
    exact (inlineCodeIn_eq_some_iff).mp hchars
  · intro hfirst
    exact ⟨code.toList, (inlineCodeIn_eq_some_iff).mpr hfirst, String.ofList_toList⟩

theorem inlineCode_eq_none_iff :
    inlineCode command = none ↔ ∀ code : String, ¬FirstCode code.toList command.toList := by
  rw [Option.eq_none_iff_forall_ne_some]
  exact forall_congr' fun code => not_congr inlineCode_eq_some_iff

end ShellPreview.Command
