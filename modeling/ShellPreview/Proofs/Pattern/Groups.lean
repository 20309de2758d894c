import ShellPreview.Pattern.Parser
/-!
# Patterns — groups are parts of the text

Matching only ever moves on from one place to a later one and keeps what
lies between two places. A property of places that these two keep holds
of every match: `takes_run`, one case for each way to build a pattern.
For the property of lying within a text it gives that a group of a match
is a part of the text.
-/

namespace ShellPreview.Pattern

/-- Going on from a place with the first property can only end at one
with the second. -/
def Next.Takes (next : Next) (I R : Place → Prop) : Prop :=
  ∀ p q, I p → next p = some q → R q

/-- Moving over a character and keeping a group both keep the property. -/
structure Steady (I : Place → Prop) : Prop where
  step : ∀ p s q, I p → p.step s = some q → I q
  keep : ∀ index p q, I p → I q → I (Place.keep index p q)

variable {I R : Place → Prop} {step : Next → Next} {next : Next}

/-! ## Repetitions -/

theorem eq_some_of_prefer {greedy : Bool} {more fewer : Unit → Option Place} {q : Place}
    (h : prefer greedy more fewer = some q) : more () = some q ∨ fewer () = some q := by
  unfold prefer at h
  split at h
  · split at h
    · rename_i hmore
      exact .inl (hmore.trans h)
    · exact .inr h
  · split at h
    · rename_i hfewer
      exact .inr (hfewer.trans h)
    · exact .inl h

/-- The induction is on the characters that are left to repetitions. -/
theorem takes_again (hstep : ∀ k : Next, k.Takes I R → (step k).Takes I R)
    (hnext : next.Takes I R) (greedy : Bool) (fuel : Nat) :
    Next.Takes (again step greedy next fuel) I R := by
  induction fuel with
  | zero => exact hnext
  | succ fuel ih =>
    intro p q hp h
    rcases eq_some_of_prefer h with hmore | hfewer
    · refine hstep _ (fun r s hr hrs => ?_) p q hp hmore
      split at hrs
      · exact ih r s hr hrs
      · cases hrs
    · exact hnext p q hp hfewer

theorem takes_onceOrMore (hstep : ∀ k : Next, k.Takes I R → (step k).Takes I R)
    (hnext : next.Takes I R) (greedy : Bool) : Next.Takes (onceOrMore step greedy next) I R :=
  fun p q hp h => hstep _ (takes_again hstep hnext greedy p.rest.length) p q hp h

theorem takes_many (hstep : ∀ k : Next, k.Takes I R → (step k).Takes I R)
    (hnext : next.Takes I R) (greedy : Bool) : Next.Takes (many step greedy next) I R := by
  intro p q hp h
  rcases eq_some_of_prefer h with hmore | hfewer
  · exact takes_onceOrMore hstep hnext greedy p q hp hmore
  · exact hnext p q hp hfewer

theorem takes_exactly (hstep : ∀ k : Next, k.Takes I R → (step k).Takes I R)
    (hnext : next.Takes I R) (n : Nat) : (exactly step n next).Takes I R := by
  induction n with
  | zero => exact hnext
  | succ n ih => exact hstep _ ih

theorem takes_atMost (hstep : ∀ k : Next, k.Takes I R → (step k).Takes I R)
    (hnext : next.Takes I R) (greedy : Bool) (n : Nat) :
    (atMost step greedy next n).Takes I R := by
  induction n with
  | zero => exact hnext
  | succ n ih =>
    intro p q hp h
    rw [atMost] at h
    rcases eq_some_of_prefer h with hmore | hfewer
    · exact hstep _ ih p q hp hmore
    · exact hnext p q hp hfewer

/-! ## Patterns -/

/-- **A pattern only leads where stepping and keeping lead.** -/
theorem takes_run (hI : Steady I) (node : Node) :
    ∀ next : Next, next.Takes I R → Next.Takes (node.run next) I R := by
  induction node with
  | unit => exact fun next hnext => hnext
  | chars s =>
    intro next hnext p q hp h
    obtain ⟨r, hr, hrq⟩ := Option.bind_eq_some_iff.mp h
    exact hnext r q (hI.step p s r hp hr) hrq
  | edge e =>
    intro next hnext p q hp h
    rw [Node.run] at h
    split at h
    · exact hnext p q hp h
    · cases h
  | seq a b iha ihb => exact fun next hnext => iha _ (ihb next hnext)
  | alt a b iha ihb =>
    intro next hnext p q hp h
    rw [Node.run] at h
    split at h
    · rename_i r ha
      cases h
      exact iha next hnext p _ hp ha
    · exact ihb next hnext p q hp h
  | plus greedy a iha => exact fun next hnext => takes_onceOrMore iha hnext greedy
  | star greedy a iha => exact fun next hnext => takes_many iha hnext greedy
  | times a n iha => exact fun next hnext => takes_exactly iha hnext n
  | upTo greedy a n iha => exact fun next hnext => takes_atMost iha hnext greedy n
  | group index a iha =>
    intro next hnext p q hp h
    -- the group is kept where its pattern ends, before the rest goes on from there
    refine iha _ (fun r s hr hrs => ?_) p q hp h
    exact hnext _ s (hI.keep index p r hp hr) hrs

/-! ## Places within a text -/

/-- What is left at a place is the end of the text, and the groups are
parts of it. -/
def Place.Within (text : List Char) (p : Place) : Prop :=
  p.rest <:+ text ∧ ∀ g ∈ p.groups, g.2 <:+: text

theorem steady_within (text : List Char) : Steady (Place.Within text) where
  step p s q hp h := by
    unfold Place.step at h
    split at h
    · cases h
    rename_i c cs hrest
    split at h
    · cases h
      refine ⟨?_, hp.2⟩
      exact ((List.suffix_cons c cs).trans (hrest ▸ hp.1))
    · cases h
  keep index p q hp hq := by
    cases index with
    | none => exact hq
    | some i =>
      refine ⟨hq.1, fun g hg => ?_⟩
      rcases List.mem_cons.mp hg with rfl | hg
      · exact (List.take_prefix _ _).isInfix.trans hp.1.isInfix
      · exact hq.2 g hg

/-- A match at some place of a text stays within the text. -/
theorem within_of_searchFrom {node : Node} {text : List Char} {before : Option Char}
    {cs : List Char} {p : Place} (hcs : cs <:+ text) (h : node.searchFrom before cs = some p) :
    p.Within text := by
  -- a match that begins at some place, with no groups yet
  have hrun : ∀ before cs q, cs <:+ text → node.run some ⟨before, cs, []⟩ = some q →
      q.Within text := by
    intro before cs q hsuf hq
    refine takes_run (steady_within text) node some (fun r s hr hrs => ?_) _ q ⟨hsuf, ?_⟩ hq
    · cases hrs
      exact hr
    · exact fun g hg => absurd hg List.not_mem_nil
  induction cs generalizing before with
  | nil => exact hrun before [] p hcs h
  | cons c cs ih =>
    rw [Node.searchFrom] at h
    split at h
    · rename_i q hq
      cases h
      exact hrun before (c :: cs) _ hcs hq
    · exact ih ((List.suffix_cons c cs).trans hcs) h

/-! ## Groups -/

/-- The first group that matched some text is one of the groups, and not
empty. -/
theorem firstGroup_eq_some {count : Nat} {groups : List (Nat × List Char)} {g : List Char}
    (h : firstGroup count groups = some g) : g ≠ [] ∧ ∃ i, (i, g) ∈ groups := by
  obtain ⟨i, -, hi⟩ := List.exists_of_findSome?_eq_some h
  obtain ⟨g', hlookup, hg⟩ := Option.bind_eq_some_iff.mp hi
  split at hg
  · cases hg
  · rename_i hne
    cases hg
    obtain ⟨front, back, rfl, -⟩ := List.lookup_eq_some_iff.mp hlookup
    exact ⟨by simpa using hne, i + 1, by simp⟩

/-- A single group is the first one that matched some text, if it did. -/
theorem firstGroup_singleton {index count : Nat} {g : List Char} (hfirst : 1 ≤ index)
    (hlast : index ≤ count) (hg : g ≠ []) : firstGroup count [(index, g)] = some g := by
  have hgroup : ∀ j, (([(index, g)] : List (Nat × List Char)).lookup (j + 1)).bind
      (fun text => if text.isEmpty then none else some text) =
        if j + 1 = index then some g else none := by
    intro j
    rw [List.lookup_cons, List.lookup_nil]
    by_cases hj : j + 1 = index
    · simp [hj, hg]
    · rw [beq_false_of_ne hj, if_neg hj]
      rfl
  rw [firstGroup]
  simp only [hgroup]
  cases hfound : (List.range count).findSome? fun j => if j + 1 = index then some g else none with
  | none =>
    have hmem : index - 1 ∈ List.range count := List.mem_range.mpr (by omega)
    have hnone := List.findSome?_eq_none_iff.mp hfound _ hmem
    rw [if_pos (by omega)] at hnone
    cases hnone
  | some found =>
    obtain ⟨j, -, hj⟩ := List.exists_of_findSome?_eq_some hfound
    split at hj
    · exact hj.symm
    · cases hj

end ShellPreview.Pattern

namespace ShellPreview

/-- **What a pattern finds is a part of the text**, and not empty. -/
theorem Pattern.firstText_isPart {pattern : Pattern} {text found : String}
    (h : pattern.firstText text = some found) :
    found ≠ "" ∧ found.toList <:+: text.toList := by
  unfold Pattern.firstText at h
  split at h
  · cases h
  rename_i groups hsearch
  obtain ⟨g, hg, rfl⟩ := Option.map_eq_some_iff.mp h
  obtain ⟨p, hp, rfl⟩ := Option.map_eq_some_iff.mp hsearch
  obtain ⟨hne, i, hmem⟩ := Pattern.firstGroup_eq_some hg
  have hwithin := Pattern.within_of_searchFrom (List.suffix_refl text.toList) hp
  refine ⟨fun hempty => hne ?_, ?_⟩
  · simpa using congrArg String.toList hempty
  · rw [String.toList_ofList]
    exact hwithin.2 _ hmem

end ShellPreview
