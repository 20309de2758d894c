import Mathlib.Data.List.Infix
import Mathlib.Data.List.TakeWhile
import ShellPreview.Pattern.Match
/-!
# Greedy repetitions of a character

A greedy repetition of a set of characters takes all of them that it can.
It would give some back only if what comes next failed behind all of them
and not behind fewer: where that cannot be (`Next.Settles`), and above all
where what comes next refuses the characters of the set, the repetition is
a step over the longest run of such characters.
-/

namespace ShellPreview.Pattern

variable {next : Next} {s : CharSet} {p : Place} {c : Char} {cs : List Char} {n : Nat}

/-! ## Going over characters -/

/-- The place that is some characters further on. -/
def Place.skip : Place → Nat → Place
  | p, 0 => p
  | p, n + 1 =>
    match p.rest with
    | [] => p
    | c :: cs => Place.skip ⟨some c, cs, p.groups⟩ n

@[simp]
theorem Place.skip_zero (p : Place) : p.skip 0 = p := rfl

theorem Place.skip_succ (h : p.rest = c :: cs) (n : Nat) :
    p.skip (n + 1) = Place.skip ⟨some c, cs, p.groups⟩ n := by
  obtain ⟨before, rest, groups⟩ := p
  obtain rfl : rest = c :: cs := h
  rfl

/-- At the end there is nothing to go over. -/
theorem Place.skip_of_nil (h : p.rest = []) (n : Nat) : p.skip n = p := by
  obtain ⟨before, rest, groups⟩ := p
  obtain rfl : rest = [] := h
  cases n <;> rfl

@[simp]
theorem Place.rest_skip (p : Place) (n : Nat) : (p.skip n).rest = p.rest.drop n := by
  induction n generalizing p with
  | zero => rw [Place.skip_zero, List.drop_zero]
  | succ n ih =>
    cases h : p.rest with
    | nil => rw [Place.skip_of_nil h, List.drop_nil, h]
    | cons c cs => rw [Place.skip_succ h, ih, List.drop_succ_cons]

theorem Place.rest_skip_one (h : p.rest = c :: cs) : (p.skip 1).rest = cs := by
  rw [Place.rest_skip, h, List.drop_succ_cons, List.drop_zero]

@[simp]
theorem Place.groups_skip (p : Place) (n : Nat) : (p.skip n).groups = p.groups := by
  induction n generalizing p with
  | zero => rw [Place.skip_zero]
  | succ n ih =>
    cases h : p.rest with
    | nil => rw [Place.skip_of_nil h]
    | cons c cs => rw [Place.skip_succ h, ih]

theorem Place.skip_skip (p : Place) (m n : Nat) : (p.skip m).skip n = p.skip (m + n) := by
  induction m generalizing p with
  | zero => rw [Place.skip_zero, Nat.zero_add]
  | succ m ih =>
    rw [Nat.succ_add]
    cases h : p.rest with
    | nil => rw [Place.skip_of_nil h, Place.skip_of_nil h, Place.skip_of_nil h]
    | cons c cs => rw [Place.skip_succ h, Place.skip_succ h, ih]

/-- A group keeps the characters between two places. -/
theorem Place.groups_keep_skip (h : n ≤ p.rest.length) (index : Nat) :
    (Place.keep (some index) p (p.skip n)).groups = (index, p.rest.take n) :: p.groups := by
  have hlength : p.rest.length - (p.rest.length - n) = n := by omega
  rw [Place.keep, Place.rest_skip, List.length_drop, hlength, Place.groups_skip]

/-! ## One step of a pattern -/

theorem run_chars (s : CharSet) : (Node.chars s).run next p = (p.step s).bind next := rfl

theorem run_alt (a b : Node) :
    (Node.alt a b).run next p = (a.run next p).or (b.run next p) := by
  rw [Node.run]
  cases a.run next p <;> rfl

/-- The first time a repetition need not take a character, so it runs the
pattern before it repeats it. -/
theorem run_plus (greedy : Bool) (a : Node) : (Node.plus greedy a).run next p =
    a.run (again (fun k => a.run k) greedy next p.rest.length) p :=
  rfl

theorem run_star (greedy : Bool) (a : Node) : (Node.star greedy a).run next p =
    prefer greedy (fun _ => (Node.plus greedy a).run next p) fun _ => next p :=
  rfl

theorem run_chars_cons (h : p.rest = c :: cs) :
    (Node.chars s).run next p = if s.holds c then next (p.skip 1) else none := by
  rw [run_chars, Place.step, h]
  dsimp only
  rw [Place.skip_succ h, Place.skip_zero]
  split <;> rfl

theorem run_chars_nil (h : p.rest = []) : (Node.chars s).run next p = none := by
  rw [run_chars, Place.step, h]
  rfl

/-- What comes next fails in front of such characters. -/
def Next.Refuses (next : Next) (refused : Char → Bool) : Prop :=
  ∀ p c cs, p.rest = c :: cs → refused c = true → next p = none

/-! ## Repetitions -/

/-- How many characters of the set stand in front. -/
def Place.front (p : Place) (s : CharSet) : Nat :=
  (p.rest.takeWhile s.holds).length

/-- What comes next does not succeed behind fewer characters only. -/
def Next.Settles (next : Next) (p : Place) (n : Nat) : Prop :=
  ∀ m < n, next (p.skip n) = none → next (p.skip m) = none

/-- What comes next settles on the longest run if it refuses the characters
of which it consists. -/
theorem Next.Refuses.settles (h : next.Refuses s.holds) (p : Place) :
    next.Settles p (p.front s) := by
  intro m hm _
  have hlength : m < p.rest.length :=
    Nat.lt_of_lt_of_le hm (List.takeWhile_prefix _).length_le
  have hholds : s.holds p.rest[m] = true := by
    have hmem : (p.rest.takeWhile s.holds)[m] ∈ p.rest.takeWhile s.holds := List.getElem_mem hm
    rw [(List.takeWhile_prefix _).getElem hm] at hmem
    exact List.mem_takeWhile_imp hmem
  refine h _ p.rest[m] (p.rest.drop (m + 1)) ?_ hholds
  rw [Place.rest_skip, List.drop_eq_getElem_cons hlength]

theorem Place.front_of_not (h : p.rest = c :: cs) (hc : s.holds c = false) : p.front s = 0 := by
  rw [Place.front, h, List.takeWhile_cons_of_neg (by simp [hc]), List.length_nil]

theorem Place.front_of_holds (h : p.rest = c :: cs) (hc : s.holds c = true) :
    p.front s = 1 + (p.skip 1).front s := by
  rw [Place.front, Place.front, Place.rest_skip_one h, h, List.takeWhile_cons_of_pos hc,
    List.length_cons, Nat.add_comm]

theorem Place.front_nil (h : p.rest = []) : p.front s = 0 := by
  rw [Place.front, h, List.takeWhile_nil, List.length_nil]

/-- It still does behind the first of them. -/
theorem Next.Settles.skip_one (h : next.Settles p (1 + n)) : next.Settles (p.skip 1) n := by
  intro m hm hnone
  rw [Place.skip_skip] at hnone ⊢
  exact h (1 + m) (by omega) hnone

theorem prefer_true (more fewer : Unit → Option Place) :
    prefer true more fewer = (more ()).or (fewer ()) := by
  rw [prefer, if_pos rfl]
  cases more () <;> rfl

/-- The better way is the first one, if the other one fails whenever it
does. -/
theorem prefer_eq_of_imp {more fewer : Unit → Option Place}
    (h : more () = none → fewer () = none) : prefer true more fewer = more () := by
  rw [prefer_true]
  cases hmore : more () with
  | none => rw [h hmore, Option.or_none]
  | some q => rw [Option.some_or]

theorem prefer_of_none {more fewer : Unit → Option Place} (h : more () = none) :
    prefer true more fewer = fewer () := by
  rw [prefer_true, h, Option.none_or]

/-- What comes next, if it comes behind some place. -/
def Next.beyond (next : Next) (p : Place) : Next := fun q =>
  if q.rest.length < p.rest.length then next q else none

theorem again_zero (step : Next → Next) (greedy : Bool) (p : Place) :
    again step greedy next 0 p = next p :=
  rfl

theorem again_succ (step : Next → Next) (fuel : Nat) (p : Place) :
    again step true next (fuel + 1) p =
      prefer true (fun _ => step (Next.beyond (again step true next fuel) p) p) fun _ => next p :=
  rfl

/-- The induction is on the characters that are left to the repetition. -/
theorem again_chars {fuel : Nat} (hfuel : p.rest.length ≤ fuel)
    (hnext : next.Settles p (p.front s)) :
    again (fun k => (Node.chars s).run k) true next fuel p = next (p.skip (p.front s)) := by
  induction fuel generalizing p with
  | zero =>
    have hrest : p.rest = [] := List.length_eq_zero_iff.mp (Nat.le_zero.mp hfuel)
    rw [again_zero, Place.front_nil hrest, Place.skip_zero]
  | succ fuel ih =>
    rw [again_succ]
    cases hrest : p.rest with
    | nil => rw [prefer_of_none (run_chars_nil hrest), Place.front_nil hrest, Place.skip_zero]
    | cons c cs =>
      cases hc : s.holds c with
      | false =>
        rw [prefer_of_none, Place.front_of_not hrest hc, Place.skip_zero]
        rw [run_chars_cons hrest, hc]
        rfl
      | true =>
        have hfront := Place.front_of_holds hrest hc
        rw [hfront] at hnext
        have hshorter : (p.skip 1).rest.length < p.rest.length := by
          rw [Place.rest_skip_one hrest, hrest, List.length_cons]
          omega
        have hagain := ih (p := p.skip 1) (by omega) hnext.skip_one
        rw [Place.skip_skip, ← hfront] at hagain
        have hmore : (Node.chars s).run (Next.beyond (again (fun k => (Node.chars s).run k) true
            next fuel) p) p = next (p.skip (p.front s)) := by
          rw [run_chars_cons hrest, if_pos hc, Next.beyond, if_pos hshorter, hagain]
        rw [prefer_eq_of_imp, hmore]
        rw [hmore, hfront]
        exact hnext 0 (by omega)

/-- **A greedy repetition goes over all characters of the set**, of which
there must be one. -/
theorem run_plus_chars (hnext : next.Settles p (p.front s)) :
    (Node.plus true (.chars s)).run next p =
      if p.front s = 0 then none else next (p.skip (p.front s)) := by
  rw [run_plus]
  cases hrest : p.rest with
  | nil => rw [run_chars_nil hrest, Place.front_nil hrest, if_pos rfl]
  | cons c cs =>
    rw [run_chars_cons hrest]
    cases hc : s.holds c with
    | false =>
      rw [Place.front_of_not hrest hc, if_pos rfl]
      rfl
    | true =>
      have hfront := Place.front_of_holds hrest hc
      rw [hfront] at hnext ⊢
      have hfuel : (p.skip 1).rest.length ≤ (c :: cs).length := by
        rw [Place.rest_skip_one hrest, List.length_cons]
        omega
      have hsome : 1 + (p.skip 1).front s ≠ 0 := by omega
      rw [if_pos rfl, if_neg hsome, again_chars hfuel hnext.skip_one, Place.skip_skip]

theorem run_star_chars (hnext : next.Settles p (p.front s)) :
    (Node.star true (.chars s)).run next p = next (p.skip (p.front s)) := by
  have hplus := run_plus_chars hnext
  rw [run_star]
  by_cases hfront : p.front s = 0
  · rw [if_pos hfront] at hplus
    rw [prefer_of_none hplus, hfront, Place.skip_zero]
  · rw [if_neg hfront] at hplus
    rw [prefer_eq_of_imp, hplus]
    rw [hplus]
    exact hnext 0 (Nat.pos_of_ne_zero hfront)

/-! ## Sequences and choices -/

/-- A sequence goes on with its rest behind its first part. -/
theorem run_sequence_cons (a : Node) (as : List Node) :
    (Node.sequence (a :: as)).run next p = a.run ((Node.sequence as).run next) p := by
  cases as with
  | nil => rfl
  | cons b as => rfl

theorem findSome?_congr {α β : Type} {f g : α → Option β} {l : List α}
    (h : ∀ a ∈ l, f a = g a) : l.findSome? f = l.findSome? g := by
  induction l with
  | nil => rfl
  | cons a l ih =>
    obtain ⟨ha, hl⟩ := List.forall_mem_cons.mp h
    rw [List.findSome?_cons, List.findSome?_cons, ha, ih hl]

theorem choice_singleton (a : Node) : Node.choice [a] = a := rfl

theorem choice_cons_cons (a b : Node) (as : List Node) :
    Node.choice (a :: b :: as) = .alt a (Node.choice (b :: as)) :=
  rfl

/-- A choice takes the first way that succeeds. -/
theorem run_choice {as : List Node} (has : as ≠ []) :
    (Node.choice as).run next p = as.findSome? fun a => a.run next p := by
  induction as with
  | nil => exact absurd rfl has
  | cons a as ih =>
    cases as with
    | nil => rw [choice_singleton, List.findSome?_singleton]
    | cons b as =>
      have hrest := ih (List.cons_ne_nil _ _)
      rw [choice_cons_cons, run_alt, hrest]
      cases ha : a.run next p <;>
        simp only [List.findSome?_cons, ha, Option.none_or, Option.some_or]

/-- The groups of a match are those of the first place at which there is
one. -/
theorem search_eq {node : Node} {found : List Char → Option (List (Nat × List Char))}
    (h : ∀ before cs, (node.run some ⟨before, cs, []⟩).map Place.groups = found cs)
    (text : List Char) : node.search text = text.tails.findSome? found := by
  have hfrom : ∀ before, (node.searchFrom before text).map Place.groups =
      text.tails.findSome? found := by
    induction text with
    | nil =>
      intro before
      rw [Node.searchFrom, h, List.tails, List.findSome?_singleton]
    | cons c cs ih =>
      intro before
      rw [Node.searchFrom, List.tails, List.findSome?_cons, ← h before]
      cases node.run some ⟨before, c :: cs, []⟩ with
      | none => exact ih _
      | some q => rfl
  exact hfrom none

end ShellPreview.Pattern
