import Mathlib.Data.List.TakeWhile
import ShellPreview.Text.Blank
/-!
# Segments between stops

Stops divide a text into segments without stops. A text is a segment, or a
segment in front of a stop and another text (`segment_induction`); and
what stands in front of the next stop is the segment itself
(`takeWhile_segment`). With blanks as stops the segments that are not
empty are the words.
-/

namespace ShellPreview.Text

variable {stop : Char → Bool} {segment rest cs : List Char} {c : Char}

/-- The text goes on with a stop, if it goes on at all. -/
def AtStop (stop : Char → Bool) (rest : List Char) : Prop :=
  ∀ c ∈ rest.head?, stop c = true

theorem atStop_nil (stop : Char → Bool) : AtStop stop [] :=
  nofun

theorem atStop_cons (hc : stop c = true) (cs : List Char) : AtStop stop (c :: cs) :=
  fun _ hd => Option.some.inj hd ▸ hc

/-- The text ends with a stop. -/
def EndsAtStop (stop : Char → Bool) (cs : List Char) : Prop :=
  ∃ front c, cs = front ++ [c] ∧ stop c = true

theorem atStop_dropWhile (stop : Char → Bool) (cs : List Char) :
    AtStop stop (cs.dropWhile fun c => !stop c) := by
  intro c hc
  have hnot := List.head?_dropWhile_not (fun c => !stop c) cs
  rw [Option.mem_def.mp hc] at hnot
  simpa using hnot

theorem forall_of_all_not (h : (cs.all fun c => !stop c) = true) : ∀ c ∈ cs, stop c = false := by
  intro c hc
  have hnot := List.all_eq_true.mp h c hc
  rwa [Bool.not_eq_true'] at hnot

theorem drop_length_takeWhile (stop : Char → Bool) (cs : List Char) :
    cs.drop (cs.takeWhile stop).length = cs.dropWhile stop := by
  calc cs.drop (cs.takeWhile stop).length
      = (cs.takeWhile stop ++ cs.dropWhile stop).drop (cs.takeWhile stop).length := by
        rw [List.takeWhile_append_dropWhile]
    _ = cs.dropWhile stop := List.drop_left

/-- The segment is what stands in front of the next stop. -/
theorem takeWhile_segment (hsegment : ∀ c ∈ segment, stop c = false) (hrest : AtStop stop rest) :
    (segment ++ rest).takeWhile (fun c => !stop c) = segment := by
  have hall : ∀ c ∈ segment, (!stop c) = true := fun c hc => by
    rw [hsegment c hc, Bool.not_false]
  have hnone : rest.takeWhile (fun c => !stop c) = [] := by
    cases rest with
    | nil => rfl
    | cons c cs => rw [List.takeWhile_cons_of_neg (by simp [hrest c rfl])]
  rw [List.takeWhile_append_of_pos hall, hnone, List.append_nil]

/-- The rest is what stands behind the segment. -/
theorem dropWhile_segment (hsegment : ∀ c ∈ segment, stop c = false) (hrest : AtStop stop rest) :
    (segment ++ rest).dropWhile (fun c => !stop c) = rest := by
  have happend := List.takeWhile_append_dropWhile (p := fun c => !stop c) (l := segment ++ rest)
  rw [takeWhile_segment hsegment hrest] at happend
  exact List.append_cancel_left happend

/-- What holds of texts without stops, and of a segment and a stop in front
of a text of which it holds, holds of all texts. -/
theorem segment_induction {P : List Char → Prop} (stop : Char → Bool)
    (last : ∀ segment, (∀ c ∈ segment, stop c = false) → P segment)
    (more : ∀ segment c cs, (∀ c ∈ segment, stop c = false) → stop c = true → P cs →
      P (segment ++ c :: cs)) (cs : List Char) : P cs := by
  -- the segment that has been read so far comes in front of the rest
  have hread : ∀ rest segment : List Char, (∀ c ∈ segment, stop c = false) →
      P (segment ++ rest) := by
    intro rest
    induction rest with
    | nil =>
      intro segment hsegment
      rw [List.append_nil]
      exact last segment hsegment
    | cons c rest ih =>
      intro segment hsegment
      cases hc : stop c with
      | true => exact more segment c rest hsegment hc (ih [] (List.forall_mem_nil _))
      | false =>
        have hlonger : ∀ d ∈ segment ++ [c], stop d = false :=
          List.forall_mem_append.mpr ⟨hsegment, List.forall_mem_singleton.mpr hc⟩
        rw [List.append_cons]
        exact ih _ hlonger
  exact hread cs [] (List.forall_mem_nil _)

/-! ## Words -/

/-- The word with which a text begins; nothing if it begins with a blank. -/
def headWord (cs : List Char) : List Char :=
  cs.takeWhile fun c => !isBlank c

/-- What stands behind the word with which a text begins. -/
def behindWord (cs : List Char) : List Char :=
  cs.dropWhile fun c => !isBlank c

theorem headWord_append_behindWord (cs : List Char) : headWord cs ++ behindWord cs = cs :=
  List.takeWhile_append_dropWhile

theorem isBlank_of_mem_headWord (h : c ∈ headWord cs) : isBlank c = false := by
  simpa using List.mem_takeWhile_imp h

theorem headWord_eq_nil_of_atStop (h : AtStop isBlank cs) : headWord cs = [] :=
  takeWhile_segment (List.forall_mem_nil _) h

theorem words_segment_cons (hsegment : ∀ c ∈ segment, isBlank c = false) (hc : isBlank c = true)
    (cs : List Char) :
    words (segment ++ c :: cs) = if segment = [] then words cs else segment :: words cs := by
  rw [words, List.splitOnP_append_cons_of_forall_mem hsegment c hc, List.filter_cons]
  cases segment <;> rfl

theorem words_segment (hsegment : ∀ c ∈ segment, isBlank c = false) :
    words segment = if segment = [] then [] else [segment] := by
  rw [words, List.splitOnP_eq_singleton hsegment, List.filter_cons]
  cases segment <;> rfl

theorem words_cons_of_blank (hc : isBlank c = true) (cs : List Char) :
    words (c :: cs) = words cs := by
  have hnone : ∀ d ∈ ([] : List Char), isBlank d = false := List.forall_mem_nil _
  exact words_segment_cons hnone hc cs

/-- Blanks in front of the words do not count. -/
theorem words_dropWhile_isBlank (cs : List Char) : words (cs.dropWhile isBlank) = words cs := by
  induction cs with
  | nil => rfl
  | cons c cs ih =>
    cases hc : isBlank c with
    | true => rw [List.dropWhile_cons_of_pos hc, ih, words_cons_of_blank hc]
    | false => rw [List.dropWhile_cons_of_neg (by simp [hc])]

/-- **The words of a text are the first one and those behind it.** -/
theorem words_eq_cons (h : headWord cs ≠ []) :
    words cs = headWord cs :: words (behindWord cs) := by
  have hhead : ∀ c ∈ headWord cs, isBlank c = false := fun c hc => isBlank_of_mem_headWord hc
  have hbehind : AtStop isBlank (behindWord cs) := atStop_dropWhile isBlank cs
  have hwords : words (headWord cs ++ behindWord cs) = headWord cs :: words (behindWord cs) := by
    cases hrest : behindWord cs with
    | nil =>
      rw [List.append_nil, words_segment hhead, if_neg h]
      rfl
    | cons c rest =>
      have hc : isBlank c = true := hbehind c (by rw [hrest]; rfl)
      rw [words_segment_cons hhead hc, if_neg h, words_cons_of_blank hc]
  rwa [headWord_append_behindWord] at hwords

end ShellPreview.Text
