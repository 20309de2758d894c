import Mathlib.Data.String.Basic
import ShellPreview.Text.Ordered
/-!
# Sets of texts are in increasing order

The set of a list is in increasing order, and a list in increasing order
is its own set: making a set twice is making it once.
-/

namespace ShellPreview.Text.Ordered

/-- Increasing order, without repetitions. -/
def Increasing (set : List String) : Prop :=
  set.Pairwise (· < ·)

theorem increasing_insert {set : List String} (h : Increasing set) (s : String) :
    Increasing (insert s set) := by
  induction set with
  | nil => exact List.pairwise_singleton _ _
  | cons t ts ih =>
    obtain ⟨hfirst, hts⟩ := List.pairwise_cons.mp h
    rw [insert]
    split
    · next hlt =>
      refine List.pairwise_cons.mpr ⟨fun u hu => ?_, h⟩
      rcases List.mem_cons.mp hu with rfl | hu
      · exact hlt
      · exact hlt.trans (hfirst u hu)
    · next hle =>
      split
      · exact h
      · next hne =>
        refine List.pairwise_cons.mpr ⟨fun u hu => ?_, ih hts⟩
        rcases mem_insert.mp hu with rfl | hu
        · exact lt_of_le_of_ne (not_lt.mp hle) (Ne.symm hne)
        · exact hfirst u hu

theorem increasing_foldl {texts set : List String} (h : Increasing set) :
    Increasing (texts.foldl (fun set s => insert s set) set) := by
  induction texts generalizing set with
  | nil => exact h
  | cons s texts ih => exact ih (increasing_insert h s)

/-- **The set of a list is in increasing order.** -/
theorem increasing_ofList (texts : List String) : Increasing (ofList texts) :=
  increasing_foldl List.Pairwise.nil

/-- A text behind all others is put at the end. -/
theorem insert_of_forall_lt {s : String} {set : List String} (h : ∀ t ∈ set, t < s) :
    insert s set = set ++ [s] := by
  induction set with
  | nil => rfl
  | cons t ts ih =>
    obtain ⟨ht, hts⟩ := List.forall_mem_cons.mp h
    rw [insert, if_neg ht.not_gt, if_neg ht.ne', ih hts]
    rfl

theorem foldl_of_increasing {texts set : List String} (h : Increasing (set ++ texts)) :
    texts.foldl (fun set s => insert s set) set = set ++ texts := by
  induction texts generalizing set with
  | nil => simp
  | cons s texts ih =>
    have hlt : ∀ t ∈ set, t < s := fun t ht =>
      (List.pairwise_append.mp h).2.2 t ht s List.mem_cons_self
    rw [List.foldl_cons, insert_of_forall_lt hlt, ih (by simpa using h)]
    simp

/-- **A list in increasing order is its own set.** -/
theorem ofList_of_increasing {texts : List String} (h : Increasing texts) :
    ofList texts = texts :=
  foldl_of_increasing h

end ShellPreview.Text.Ordered
