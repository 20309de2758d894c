import ShellPreview.Link
import ShellPreview.Proofs.Text.Ordered
import ShellPreview.Proofs.Text.Words
/-!
# Links are ends of segments

Stops divide a text into segments. A segment has a link if some end of it
begins with a scheme and goes on behind it, and the longest such end is
the link. The search for links, which goes from place to place, finds the
links of the segments: the first one (`first_eq`), and all of them in
order (`every_eq`).
-/

namespace ShellPreview.Link

open Text (AtStop EndsAtStop atStop_nil atStop_cons takeWhile_segment segment_induction)

variable {stop : Char → Bool} {scheme segment rest : List Char}

/-- The schemes of links. -/
def schemes : List (List Char) :=
  ["http://".toList, "https://".toList]

/-- The text begins with a scheme and goes on behind it. -/
def Opens (cs : List Char) : Prop :=
  ∃ scheme ∈ schemes, scheme <+: cs ∧ scheme.length < cs.length

instance (cs : List Char) : Decidable (Opens cs) :=
  inferInstanceAs (Decidable (∃ scheme ∈ schemes, scheme <+: cs ∧ scheme.length < cs.length))

/-- The link of a segment: its longest end that begins with a scheme and
goes on behind it. -/
def ofSegment (segment : List Char) : Option (List Char) :=
  segment.tails.find? fun cs => decide (Opens cs)

theorem ofSegment_nil : ofSegment [] = none := by
  decide

theorem ofSegment_cons (c : Char) (cs : List Char) :
    ofSegment (c :: cs) = if Opens (c :: cs) then some (c :: cs) else ofSegment cs := by
  rw [ofSegment, List.tails, List.find?_cons]
  by_cases hopens : Opens (c :: cs)
  · rw [decide_eq_true hopens, if_pos hopens]
  · rw [decide_eq_false hopens, if_neg hopens, ofSegment]

/-! ## At one place -/

/-- A scheme alone is no link. -/
theorem opens_append_iff (h : scheme ∈ schemes) : Opens (scheme ++ rest) ↔ rest ≠ [] := by
  constructor
  · rintro hopens rfl
    have halone : ∀ scheme ∈ schemes, ¬Opens scheme := by decide
    exact halone scheme h (by rwa [List.append_nil] at hopens)
  · intro hne
    have hlength := List.length_pos_iff.mpr hne
    refine ⟨scheme, h, List.prefix_append _ _, ?_⟩
    rw [List.length_append]
    omega

theorem afterScheme_eq_some_iff {cs : List Char} :
    afterScheme cs = some rest ↔ ∃ scheme ∈ schemes, cs = scheme ++ rest := by
  constructor
  · intro h
    unfold afterScheme at h
    split at h
    · cases h
      exact ⟨"http://".toList, by decide, rfl⟩
    · cases h
      exact ⟨"https://".toList, by decide, rfl⟩
    · cases h
  · rintro ⟨scheme, hscheme, rfl⟩
    rcases List.mem_pair.mp hscheme with rfl | rfl <;> rfl

/-- No character of a scheme is a stop. -/
def PassesSchemes (stop : Char → Bool) : Prop :=
  ∀ scheme ∈ schemes, ∀ c ∈ scheme, stop c = false

/-- A link begins at a place if the segment from there on opens one, and it
is all of the segment. -/
theorem atFront_eq (hstop : PassesSchemes stop) (cs : List Char) :
    atFront stop cs =
      if Opens (cs.takeWhile fun c => !stop c) then some (cs.takeWhile fun c => !stop c)
      else none := by
  unfold atFront
  split
  · next c r hafter =>
    obtain ⟨scheme, hscheme, rfl⟩ := (afterScheme_eq_some_iff).mp hafter
    have hall : ∀ c ∈ scheme, (!stop c) = true := fun c hc => by
      rw [hstop scheme hscheme c hc, Bool.not_false]
    rw [List.takeWhile_append_of_pos hall]
    cases hc : stop c with
    | true =>
      have hnone : (c :: r).takeWhile (fun c => !stop c) = [] :=
        List.takeWhile_cons_of_neg (by simp [hc])
      rw [hnone, if_neg fun hopens => (opens_append_iff hscheme).mp hopens rfl, if_pos rfl]
    | false => simp [opens_append_iff hscheme, hc]
  · next hafter =>
    rw [if_neg]
    rintro ⟨scheme, hscheme, hprefix, hlength⟩
    -- the scheme stands at the front of the whole text, and something follows it
    obtain ⟨r, rfl⟩ := hprefix.trans (List.takeWhile_prefix _)
    cases r with
    | nil =>
      have hshort := (List.takeWhile_prefix (l := scheme ++ []) fun c => !stop c).length_le
      rw [List.append_nil] at hshort hlength
      omega
    | cons c r => exact hafter c r (afterScheme_eq_some_iff.mpr ⟨scheme, hscheme, rfl⟩)

/-- So it is at a place in a segment. -/
theorem atFront_segment (hstop : PassesSchemes stop) (hsegment : ∀ c ∈ segment, stop c = false)
    (hrest : AtStop stop rest) :
    atFront stop (segment ++ rest) = if Opens segment then some segment else none := by
  rw [atFront_eq hstop, takeWhile_segment hsegment hrest]

/-- No link begins at a stop. -/
theorem atFront_stop (hstop : PassesSchemes stop) {c : Char} (hc : stop c = true)
    (cs : List Char) : atFront stop (c :: cs) = none := by
  have hnone : ¬Opens [] := by decide
  have hfront := atFront_segment hstop (List.forall_mem_nil _) (atStop_cons hc cs)
  rw [List.nil_append, if_neg hnone] at hfront
  exact hfront

/-! ## From place to place -/

theorem first_nil (stop : Char → Bool) : first stop [] = none := rfl

/-- The first link is that of the front, or else the first one behind it. -/
theorem first_cons (stop : Char → Bool) (c : Char) (cs : List Char) :
    first stop (c :: cs) = (atFront stop (c :: cs)).or (first stop cs) := by
  rw [first]
  cases atFront stop (c :: cs) <;> rfl

theorem every_nil (stop : Char → Bool) : every stop false [] = [] := rfl

theorem every_true_cons (stop : Char → Bool) (c : Char) (cs : List Char) :
    every stop true (c :: cs) = every stop (!stop c) cs :=
  rfl

/-- Behind a link that begins at the front the search waits for its stop. -/
theorem every_false_cons (stop : Char → Bool) (c : Char) (cs : List Char) :
    every stop false (c :: cs) = (atFront stop (c :: cs)).elim (every stop false cs)
      fun link => link :: every stop true cs := by
  rw [every]
  cases atFront stop (c :: cs) <;> rfl

/-! ## Over a segment -/

/-- The induction is on the segment, from which the search takes one
character after the other. -/
theorem first_segment (hstop : PassesSchemes stop) (hsegment : ∀ c ∈ segment, stop c = false)
    (hrest : AtStop stop rest) :
    first stop (segment ++ rest) = (ofSegment segment).or (first stop rest) := by
  induction segment with
  | nil => rw [ofSegment_nil, List.nil_append, Option.none_or]
  | cons c cs ih =>
    have hfront := atFront_segment hstop hsegment hrest
    rw [List.cons_append] at hfront ⊢
    rw [first_cons, hfront, ofSegment_cons]
    by_cases hopens : Opens (c :: cs)
    · rw [if_pos hopens, if_pos hopens, Option.some_or, Option.some_or]
    · rw [if_neg hopens, if_neg hopens, Option.none_or]
      exact ih (List.forall_mem_cons.mp hsegment).2

/-- Inside a link nothing is found up to the next stop. -/
theorem every_true_segment (hstop : PassesSchemes stop) (hsegment : ∀ c ∈ segment, stop c = false)
    (hrest : AtStop stop rest) : every stop true (segment ++ rest) = every stop false rest := by
  induction segment with
  | nil =>
    cases rest with
    | nil => rfl
    | cons c cs =>
      have hc : stop c = true := hrest c rfl
      rw [List.nil_append, every_true_cons, every_false_cons, atFront_stop hstop hc, hc]
      rfl
  | cons c cs ih =>
    obtain ⟨hc, hcs⟩ := List.forall_mem_cons.mp hsegment
    rw [List.cons_append, every_true_cons, hc]
    exact ih hcs

theorem every_segment (hstop : PassesSchemes stop) (hsegment : ∀ c ∈ segment, stop c = false)
    (hrest : AtStop stop rest) :
    every stop false (segment ++ rest) = (ofSegment segment).toList ++ every stop false rest := by
  induction segment with
  | nil => rw [ofSegment_nil, List.nil_append, Option.toList_none, List.nil_append]
  | cons c cs ih =>
    have hcs := (List.forall_mem_cons.mp hsegment).2
    have hfront := atFront_segment hstop hsegment hrest
    rw [List.cons_append] at hfront ⊢
    rw [every_false_cons, hfront, ofSegment_cons]
    by_cases hopens : Opens (c :: cs)
    · rw [if_pos hopens, if_pos hopens, Option.elim_some, every_true_segment hstop hcs hrest,
        Option.toList_some, List.singleton_append]
    · rw [if_neg hopens, if_neg hopens, Option.elim_none]
      exact ih hcs

/-! ## Over a text -/

/-- **The first link of a text is that of the first segment with one.** -/
theorem first_eq (hstop : PassesSchemes stop) (cs : List Char) :
    first stop cs = (cs.splitOnP stop).findSome? ofSegment := by
  induction cs using segment_induction stop with
  | last segment hsegment =>
    have hsplit : segment.splitOnP stop = [segment] :=
      List.splitOnP_eq_singleton hsegment
    have hfirst := first_segment hstop hsegment (atStop_nil stop)
    rw [List.append_nil] at hfirst
    rw [hsplit, hfirst, List.findSome?_singleton]
    exact Option.or_none
  | more segment c cs hsegment hc ih =>
    have hrest : AtStop stop (c :: cs) := atStop_cons hc cs
    have hsplit := List.splitOnP_append_cons_of_forall_mem hsegment c hc cs
    rw [hsplit, first_segment hstop hsegment hrest,
      first_cons, atFront_stop hstop hc, List.findSome?_cons, ← ih]
    cases ofSegment segment <;> rfl

/-- **The links of a text are those of its segments**, in order. -/
theorem every_eq (hstop : PassesSchemes stop) (cs : List Char) :
    every stop false cs = (cs.splitOnP stop).filterMap ofSegment := by
  induction cs using segment_induction stop with
  | last segment hsegment =>
    have hsplit : segment.splitOnP stop = [segment] :=
      List.splitOnP_eq_singleton hsegment
    have hevery := every_segment hstop hsegment (atStop_nil stop)
    rw [List.append_nil] at hevery
    rw [hsplit, hevery, every_nil, List.append_nil, List.filterMap_cons]
    cases ofSegment segment <;> rfl
  | more segment c cs hsegment hc ih =>
    have hrest : AtStop stop (c :: cs) := atStop_cons hc cs
    have hsplit := List.splitOnP_append_cons_of_forall_mem hsegment c hc cs
    rw [hsplit, every_segment hstop hsegment hrest,
      every_false_cons, atFront_stop hstop hc, List.filterMap_cons, ← ih]
    cases ofSegment segment <;> rfl

/-- The first link of two texts with a stop between them is the first of the
one, or else the first of the other. -/
theorem first_append_cons (hstop : PassesSchemes stop) {c : Char} (hc : stop c = true)
    (a cs : List Char) : first stop (a ++ c :: cs) = (first stop a).or (first stop cs) := by
  rw [first_eq hstop, List.splitOnP_append_cons a cs hc, List.findSome?_append, ← first_eq hstop,
    ← first_eq hstop]

theorem first_cons_of_stop (hstop : PassesSchemes stop) {c : Char} (hc : stop c = true)
    (cs : List Char) : first stop (c :: cs) = first stop cs :=
  first_append_cons hstop hc [] cs

theorem first_append_of_atStop (hstop : PassesSchemes stop) (a : List Char)
    (hrest : AtStop stop rest) : first stop (a ++ rest) = (first stop a).or (first stop rest) := by
  cases rest with
  | nil => rw [List.append_nil, first_nil, Option.or_none]
  | cons c cs =>
    have hc : stop c = true := hrest c rfl
    rw [first_append_cons hstop hc, first_cons_of_stop hstop hc]

theorem first_append_of_endsAtStop (hstop : PassesSchemes stop) {a : List Char}
    (ha : EndsAtStop stop a) (cs : List Char) :
    first stop (a ++ cs) = (first stop a).or (first stop cs) := by
  obtain ⟨front, c, rfl, hc⟩ := ha
  rw [List.append_assoc, List.singleton_append, first_append_cons hstop hc,
    first_append_cons hstop hc, first_nil, Option.or_none]

/-- A segment that opens a link is the first link of a text that begins
with it. -/
theorem first_of_opens (hstop : PassesSchemes stop) (hopens : Opens segment)
    (hsegment : ∀ c ∈ segment, stop c = false) (hrest : AtStop stop rest) :
    first stop (segment ++ rest) = some segment := by
  rw [first_segment hstop hsegment hrest]
  cases segment with
  | nil => exact absurd hopens (by decide)
  | cons c cs => rw [ofSegment_cons, if_pos hopens, Option.some_or]

/-- No link begins where no scheme does. -/
theorem atFront_of_no_scheme {cs : List Char} (h : ∀ scheme ∈ schemes, ¬scheme <+: cs) :
    atFront stop cs = none := by
  unfold atFront
  split
  · next c r hafter =>
    obtain ⟨scheme, hscheme, rfl⟩ := (afterScheme_eq_some_iff).mp hafter
    exact absurd (List.prefix_append scheme _) (h scheme hscheme)
  · rfl

/-- Without a colon there is no link. -/
theorem first_of_not_mem {cs : List Char} (h : ':' ∉ cs) : first stop cs = none := by
  induction cs with
  | nil => rfl
  | cons c cs ih =>
    have hcolon : ∀ scheme ∈ schemes, ':' ∈ scheme := by decide
    have hfront : atFront stop (c :: cs) = none :=
      atFront_of_no_scheme fun scheme hscheme hopening =>
        h (hopening.subset (hcolon scheme hscheme))
    rw [first_cons, hfront, Option.none_or]
    exact ih fun hmem => h (List.mem_cons_of_mem _ hmem)

/-- Behind a text without the first letter of the schemes the first link is
the same. -/
theorem first_append_of_not_mem {front : List Char} (h : 'h' ∉ front) (cs : List Char) :
    first stop (front ++ cs) = first stop cs := by
  induction front with
  | nil => rfl
  | cons c front ih =>
    have hletter : ∀ scheme ∈ schemes, scheme.head? = some 'h' := by decide
    have hfront : atFront stop (c :: (front ++ cs)) = none := by
      refine atFront_of_no_scheme fun scheme hscheme hopening => ?_
      obtain ⟨more, rfl⟩ := List.head?_eq_some_iff.mp (hletter scheme hscheme)
      obtain ⟨rfl, -⟩ := List.cons_prefix_cons.mp hopening
      exact h List.mem_cons_self
    rw [List.cons_append, first_cons, hfront, Option.none_or]
    exact ih (List.not_mem_of_not_mem_cons h)

theorem passesSchemes_of_all (h : schemes.flatten.all (fun c => !stop c) = true) :
    PassesSchemes stop := by
  intro scheme hscheme c hc
  have hpasses := List.all_eq_true.mp h c (List.mem_flatten_of_mem hscheme hc)
  simpa using hpasses

theorem passesSchemes_isCommandStop : PassesSchemes isCommandStop :=
  passesSchemes_of_all (by decide)

theorem passesSchemes_isDocumentStop : PassesSchemes isDocumentStop :=
  passesSchemes_of_all (by decide)

/-! ## In a command -/

theorem isCommandStop_of_isBlank {c : Char} (hc : Text.isBlank c = true) :
    isCommandStop c = true := by
  rw [isCommandStop, hc]
  rfl

theorem isBlank_of_not_isCommandStop {c : Char} (hc : isCommandStop c = false) :
    Text.isBlank c = false := by
  simp only [isCommandStop, Bool.or_eq_false_iff] at hc
  exact hc.1.1

theorem exists_eq_cons_of_opens {cs : List Char} (hopens : Opens cs) :
    ∃ rest, cs = 'h' :: rest := by
  obtain ⟨scheme, hscheme, ⟨rest, rfl⟩, -⟩ := hopens
  rcases List.mem_pair.mp hscheme with rfl | rfl <;> exact ⟨_, rfl⟩

/-- A link that goes on is a link. -/
theorem Opens.append {cs : List Char} (hopens : Opens cs) (more : List Char) :
    Opens (cs ++ more) := by
  obtain ⟨scheme, hscheme, hprefix, hlength⟩ := hopens
  refine ⟨scheme, hscheme, hprefix.trans (List.prefix_append cs more), ?_⟩
  rw [List.length_append]
  omega

/-- A link without stops is a word, and no option. -/
theorem isWord_of_opens {cs : List Char} (hopens : Opens cs)
    (hcs : ∀ c ∈ cs, isCommandStop c = false) : Text.IsWord cs := by
  obtain ⟨rest, rfl⟩ := exists_eq_cons_of_opens hopens
  exact ⟨List.cons_ne_nil _ _, fun c hc => isBlank_of_not_isCommandStop (hcs c hc)⟩

theorem head?_ne_hyphen_of_opens {cs : List Char} (hopens : Opens cs) : cs.head? ≠ some '-' := by
  obtain ⟨rest, rfl⟩ := exists_eq_cons_of_opens hopens
  exact fun heq => absurd (Option.some.inj heq) (by decide)

/-- **The first link behind a blank and in front of one** comes behind that
of what stands in front. -/
theorem first_between {before piece behind : List Char}
    (hbefore : Text.EndsAtStop Text.isBlank before) (hbehind : AtStop Text.isBlank behind) :
    first isCommandStop (before ++ (piece ++ behind)) =
      (first isCommandStop before).or
        ((first isCommandStop piece).or (first isCommandStop behind)) := by
  have hends : EndsAtStop isCommandStop before := by
    obtain ⟨front, c, rfl, hc⟩ := hbefore
    exact ⟨front, c, rfl, isCommandStop_of_isBlank hc⟩
  have hat : AtStop isCommandStop behind := fun c hc => isCommandStop_of_isBlank (hbehind c hc)
  rw [first_append_of_endsAtStop passesSchemes_isCommandStop hends,
    first_append_of_atStop passesSchemes_isCommandStop piece hat]

/-- **The links of a document are the links of its segments**, each once,
and the link of a command is that of the first segment that has one. -/
theorem links_of_segments (text : String) :
    (∀ link, link ∈ ofDocument text ↔
        ∃ segment ∈ text.toList.splitOnP isDocumentStop, ofSegment segment = some link.toList) ∧
      Text.Ordered.Increasing (ofDocument text) ∧
      ofCommand text =
        ((text.toList.splitOnP isCommandStop).findSome? ofSegment).map String.ofList ∧
      (ofCommand text = none ↔
        ∀ segment ∈ text.toList.splitOnP isCommandStop, ofSegment segment = none) := by
  have hcommand : ofCommand text =
      ((text.toList.splitOnP isCommandStop).findSome? ofSegment).map String.ofList := by
    rw [ofCommand, first_eq passesSchemes_isCommandStop]
  refine ⟨fun link => ?_, Text.Ordered.increasing_ofList _, hcommand, ?_⟩
  · rw [ofDocument, Text.Ordered.mem_ofList, every_eq passesSchemes_isDocumentStop, List.mem_map]
    constructor
    · rintro ⟨cs, hcs, rfl⟩
      rw [String.toList_ofList]
      exact List.mem_filterMap.mp hcs
    · intro hsegment
      exact ⟨link.toList, List.mem_filterMap.mpr hsegment, String.ofList_toList⟩
  · rw [hcommand, Option.map_eq_none_iff, List.findSome?_eq_none_iff]

/-- A scheme within a link and one in front of a stop begin no link. -/
example : ofDocument "<http://> xhttps://a?u=http://b(c" = ["https://a?u=http://b"] := by
  decide +kernel

end ShellPreview.Link
