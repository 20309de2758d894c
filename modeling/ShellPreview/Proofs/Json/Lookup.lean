import Mathlib.Data.List.Nodup
/-!
# Looking up keys

What a list of keys and values has for a key. Where no key is repeated a
key has the value that stands with it, and it does not count from which
end the key is looked up.
-/

namespace ShellPreview.Json

variable {α : Type} {k key : String} {x : α} {xs : List (String × α)}

theorem lookup_cons_eq (k key : String) (x : α) (xs : List (String × α)) :
    ((key, x) :: xs).lookup k = if k = key then some x else xs.lookup k := by
  rw [List.lookup_cons]
  by_cases hk : k = key
  · rw [if_pos hk, hk, beq_self_eq_true]
  · rw [if_neg hk, beq_false_of_ne hk]

theorem lookup_cons_ne (h : k ≠ key) (x : α) (xs : List (String × α)) :
    ((key, x) :: xs).lookup k = xs.lookup k := by
  rw [lookup_cons_eq, if_neg h]

theorem mem_of_lookup (h : xs.lookup k = some x) : (k, x) ∈ xs := by
  obtain ⟨before, after, rfl, -⟩ := List.lookup_eq_some_iff.mp h
  exact List.mem_append_right _ List.mem_cons_self

theorem lookup_eq_none_of_not_mem (h : k ∉ xs.map (·.1)) : xs.lookup k = none := by
  cases hx : xs.lookup k with
  | none => rfl
  | some x => exact absurd (List.mem_map.mpr ⟨_, mem_of_lookup hx, rfl⟩) h

/-- **A key that is not repeated has the value that stands with it.** -/
theorem lookup_of_mem (hkeys : (xs.map (·.1)).Nodup) (h : (k, x) ∈ xs) :
    xs.lookup k = some x := by
  induction xs with
  | nil => cases h
  | cons y ys ih =>
    obtain ⟨key, y⟩ := y
    obtain ⟨hkey, hkeys⟩ := List.nodup_cons.mp hkeys
    rcases List.mem_cons.mp h with heq | hmem
    · cases heq
      exact List.lookup_cons_self
    · rw [lookup_cons_ne fun heq => hkey (List.mem_map.mpr ⟨_, hmem, heq⟩)]
      exact ih hkeys hmem

theorem lookup_reverse_of_nodup (hkeys : (xs.map (·.1)).Nodup) :
    xs.reverse.lookup k = xs.lookup k := by
  have hreverse : (xs.reverse.map (·.1)).Nodup := by
    rw [List.map_reverse, List.nodup_reverse]
    exact hkeys
  cases hx : xs.lookup k with
  | some x => exact lookup_of_mem hreverse (List.mem_reverse.mpr (mem_of_lookup hx))
  | none =>
    refine lookup_eq_none_of_not_mem fun hkey => ?_
    obtain ⟨⟨key, x⟩, hmem, rfl⟩ := List.mem_map.mp hkey
    rw [lookup_of_mem hkeys (List.mem_reverse.mp hmem)] at hx
    cases hx

end ShellPreview.Json
