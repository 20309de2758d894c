import ShellPreview.FileTree
import ShellPreview.Text.Utf8
/-!
# What was written is read

Putting an entry at a place changes no other place, and so no walk through
directories when no directory is replaced. A file that is written can
therefore be found on the same path, with the bytes that were written.
-/

namespace ShellPreview

namespace FileTree

variable {t t' : FileTree} {place target start : List String} {e : Entry}

theorem get?_put_self (t : FileTree) (e : Entry) (h : place ≠ []) :
    (t.put place e).get? place = some e := by
  unfold get?
  split
  · exact absurd rfl h
  · exact List.lookup_cons_self

theorem get?_put_ne (t : FileTree) (e : Entry) (h : place ≠ target) :
    (t.put target e).get? place = t.get? place := by
  unfold get?
  split
  · rfl
  · have hlookup : ∀ entries : List (List String × Entry),
        (entries.filter fun x => x.1 ≠ target).lookup place = entries.lookup place := by
      intro entries
      induction entries with
      | nil => rfl
      | cons x entries ih =>
        obtain ⟨p, e⟩ := x
        by_cases hp : p = target
        · subst hp
          rw [List.filter_cons_of_neg (by simp), ih, List.lookup_cons, beq_false_of_ne h]
        · rw [List.filter_cons_of_pos (by simpa using hp), List.lookup_cons, List.lookup_cons, ih]
    rw [put, List.lookup_cons, beq_false_of_ne h]
    exact hlookup _

/-- What is no directory is not the root. -/
theorem ne_nil_of_get? (h : t.get? target ≠ some .directory) : target ≠ [] := by
  rintro rfl
  exact h rfl

/-- A walk passes through directories only. -/
theorem walk_put {names : List String} (h : t.get? target ≠ some .directory) (e : Entry)
    (hwalk : t.walk start names = .ok place) : (t.put target e).walk start names = .ok place := by
  induction names generalizing start with
  | nil => exact hwalk
  | cons name names ih =>
    rw [walk] at hwalk ⊢
    split at hwalk
    · next hup =>
      rw [if_pos hup]
      exact ih hwalk
    · next hup =>
      rw [if_neg hup]
      split at hwalk
      · next hdirectory =>
        -- a directory stands at the next place, so it is not where the entry was put
        have hne : start ++ [name] ≠ target := by
          rintro rfl
          exact h hdirectory
        rw [get?_put_ne t e hne, hdirectory]
        exact ih hwalk
      · cases hwalk
      · cases hwalk

/-- The same names lead to the entry that was put where they lead to. -/
theorem locate_put {names : List String} (h : t.get? target ≠ some .directory) (e : Entry)
    (hlocate : t.locate start names = .ok (target, t.get? target)) :
    (t.put target e).locate start names = .ok (target, some e) := by
  have hself := get?_put_self t e (ne_nil_of_get? h)
  unfold locate at hlocate ⊢
  split at hlocate
  · cases hlocate
    rw [hself]
  · split at hlocate
    · cases hlocate
    · next hwalk =>
      simp only [Except.ok.injEq, Prod.mk.injEq] at hlocate
      rw [walk_put h e hwalk]
      simp only [hlocate.1, hself]

/-- What is located is what stands at the place. -/
theorem get?_of_locate {names : List String} {found : Option Entry}
    (h : t.locate start names = .ok (place, found)) : found = t.get? place := by
  unfold locate at h
  split at h
  · cases h
    rfl
  · split at h
    · cases h
    · cases h
      rfl

/-- What is found is located, and a file is not asked for as a directory. -/
theorem locate_of_find {working : List String} {path : String} {found : Option Entry}
    (h : t.find working path = .ok (place, found)) :
    t.locate (origin working path) (names path) = .ok (place, found) ∧
      (∀ bytes, found = some (.file bytes) → endsInDirectory path = false) := by
  unfold find at h
  split at h
  · cases h
  · next hlocate =>
    split at h
    · cases h
    · next hends =>
      cases h
      exact ⟨hlocate, fun _ _ => Bool.eq_false_iff.mpr hends⟩
  · next hfile hlocate =>
    cases h
    refine ⟨hlocate, fun bytes hbytes => ?_⟩
    subst hbytes
    exact absurd rfl (hfile place bytes)

/-- A write puts the file where the path leads to, which is no directory. -/
theorem put_of_write {working : List String} {path : String} {bytes : ByteArray}
    (h : t.write working path bytes = .ok t') :
    ∃ place, t.locate (origin working path) (names path) = .ok (place, t.get? place) ∧
      t.get? place ≠ some .directory ∧ endsInDirectory path = false ∧
      t' = t.put place (.file bytes) := by
  unfold write at h
  split at h
  · cases h
  · cases h
  · next place found hdirectory hlocate =>
    split at h
    · cases h
    · split at h
      · cases h
      · next hends =>
        cases h
        obtain rfl := get?_of_locate hlocate
        exact ⟨place, hlocate, hdirectory, Bool.eq_false_iff.mpr hends, rfl⟩

/-- **A file that was written is found on the same path, with the bytes that
were written.** -/
theorem find_write {working : List String} {path : String} {bytes : ByteArray}
    (h : t.write working path bytes = .ok t') :
    ∃ place, t'.find working path = .ok (place, some (.file bytes)) := by
  obtain ⟨place, hlocate, hplace, hends, rfl⟩ := put_of_write h
  refine ⟨place, ?_⟩
  rw [find, locate_put hplace (.file bytes) hlocate]
  simp [hends]

theorem contains_write {working : List String} {path : String} {bytes : ByteArray}
    (h : t.write working path bytes = .ok t') : t'.contains working path = true := by
  obtain ⟨place, hfind⟩ := find_write h
  rw [contains, hfind]

theorem read_write {working : List String} {path : String} {bytes : ByteArray}
    (h : t.write working path bytes = .ok t') : t'.read working path = .ok bytes := by
  obtain ⟨place, hfind⟩ := find_write h
  rw [read, hfind]

end FileTree

/-- The bytes of a text spell the text. -/
theorem Text.decode_toUTF8 (s : String) : Text.decode s.toUTF8 = some s := by
  simp only [Text.decode, String.fromUTF8?, String.toUTF8_eq_toByteArray, dif_pos s.isValidUTF8]
  rfl

end ShellPreview
