import Mathlib.Data.List.Induction
import ShellPreview.Proofs.FileTree
/-!
# Making directories

In a tree that is rooted everything stands in a directory, so a walk from
a directory ends in one, and names without a step up lead where they say
(`locate_of_rooted`). Making directories only adds directories: what stood
in the tree stands there afterwards and no file is new (`grows_makeParent`).
-/

namespace ShellPreview.FileTree

variable {t t' t'' : FileTree} {place start names : List String} {found : Option Entry}
variable {e : Entry}

/-! ## Rooted trees -/

/-- Everything stands in a directory. -/
def Rooted (t : FileTree) : Prop :=
  ∀ place e, place ≠ [] → t.get? place = some e → t.get? place.dropLast = some .directory

/-- What is above something is a directory. -/
theorem Rooted.above (h : t.Rooted) (hnames : names ≠ [])
    (hthere : t.get? (start ++ names) = some e) : t.get? start = some .directory := by
  induction names using List.reverseRecOn generalizing e with
  | nil => exact absurd rfl hnames
  | append_singleton names name ih =>
    have hne : start ++ (names ++ [name]) ≠ [] := by simp
    have hparent := h _ _ hne hthere
    rw [← List.append_assoc, List.dropLast_concat] at hparent
    by_cases hnil : names = []
    · rwa [hnil, List.append_nil] at hparent
    · exact ih hnil hparent

/-- The directory above a directory, and that of the root. -/
theorem Rooted.dropLast (h : t.Rooted) (hplace : t.get? place = some .directory) :
    t.get? place.dropLast = some .directory := by
  by_cases hnil : place = []
  · subst hnil
    rfl
  · exact h _ _ hnil hplace

/-- A walk from a directory ends in a directory. -/
theorem Rooted.walk (h : t.Rooted) (hstart : t.get? start = some .directory)
    (hwalk : t.walk start names = .ok place) : t.get? place = some .directory := by
  induction names generalizing start with
  | nil =>
    cases hwalk
    exact hstart
  | cons name names ih =>
    rw [FileTree.walk] at hwalk
    split at hwalk
    · exact ih (h.dropLast hstart) hwalk
    · split at hwalk
      · next hdirectory => exact ih hdirectory hwalk
      · cases hwalk
      · cases hwalk

/-- What is located and is no directory stands, or can be put, in one. -/
theorem Rooted.parent_of_locate (h : t.Rooted) (hstart : t.get? start = some .directory)
    (hlocate : t.locate start names = .ok (place, t.get? place))
    (hplace : t.get? place ≠ some .directory) : t.get? place.dropLast = some .directory := by
  unfold locate at hlocate
  split at hlocate
  · cases hlocate
    exact absurd hstart hplace
  · next name hname =>
    split at hlocate
    · cases hlocate
    · next above hwalk =>
      have habove := h.walk hstart hwalk
      simp only [Except.ok.injEq, Prod.mk.injEq] at hlocate
      obtain ⟨rfl, -⟩ := hlocate
      split at hplace
      · exact absurd (h.dropLast habove) hplace
      · next hup =>
        rw [if_neg hup, List.dropLast_concat]
        exact habove

/-! ## Names without a step up -/

theorem walk_of_not_up (hup : ".." ∉ names) (hwalk : t.walk start names = .ok place) :
    place = start ++ names := by
  induction names generalizing start with
  | nil =>
    cases hwalk
    exact (List.append_nil _).symm
  | cons name names ih =>
    have hname := List.ne_of_not_mem_cons hup
    have hrest := List.not_mem_of_not_mem_cons hup
    rw [walk, if_neg (Ne.symm hname)] at hwalk
    split at hwalk
    · rw [ih hrest hwalk, List.append_assoc, List.singleton_append]
    · cases hwalk
    · cases hwalk

/-- Such names lead where they say, if they lead anywhere. -/
theorem locate_of_not_up (hup : ".." ∉ names)
    (hlocate : t.locate start names = .ok (place, found)) : place = start ++ names := by
  unfold locate at hlocate
  split at hlocate
  · next hlast =>
    cases hlocate
    rw [List.getLast?_eq_none_iff.mp hlast, List.append_nil]
  · next name hlast =>
    obtain ⟨front, rfl⟩ := List.getLast?_eq_some_iff.mp hlast
    rw [List.dropLast_concat] at hlocate
    rw [List.mem_append, not_or, List.mem_singleton] at hup
    split at hlocate
    · cases hlocate
    · next hwalk =>
      have habove := walk_of_not_up hup.1 hwalk
      simp only [Except.ok.injEq, Prod.mk.injEq] at hlocate
      rw [← hlocate.1, if_neg (Ne.symm hup.2), habove, List.append_assoc]

/-- A walk along directories gets to its end. -/
theorem walk_of_directories (hup : ".." ∉ names)
    (h : ∀ front back, names = front ++ back → front ≠ [] →
      t.get? (start ++ front) = some .directory) : t.walk start names = .ok (start ++ names) := by
  induction names generalizing start with
  | nil => rw [walk, List.append_nil]
  | cons name names ih =>
    have hname := List.ne_of_not_mem_cons hup
    have hrest := List.not_mem_of_not_mem_cons hup
    have hfirst : t.get? (start ++ [name]) = some .directory :=
      h [name] names rfl (List.cons_ne_nil _ _)
    rw [walk, if_neg (Ne.symm hname), hfirst]
    dsimp only
    rw [ih hrest fun front back hsplit hfront => ?_, List.append_assoc, List.singleton_append]
    rw [List.append_assoc, List.singleton_append]
    exact h (name :: front) back (by rw [hsplit, List.cons_append]) (List.cons_ne_nil _ _)

/-- **What stands in a rooted tree is located by the names that lead to
it.** -/
theorem locate_of_rooted (h : t.Rooted) (hup : ".." ∉ names)
    (hthere : t.get? (start ++ names) = some e) :
    t.locate start names = .ok (start ++ names, some e) := by
  unfold locate
  split
  · next hlast =>
    obtain rfl := List.getLast?_eq_none_iff.mp hlast
    rw [List.append_nil] at hthere ⊢
    rw [hthere]
  · next name hlast =>
    obtain ⟨front, rfl⟩ := List.getLast?_eq_some_iff.mp hlast
    rw [List.mem_append, not_or, List.mem_singleton] at hup
    -- every place on the way is above what stands at the end
    have hwalk : t.walk start front = .ok (start ++ front) := by
      refine walk_of_directories hup.1 fun first rest hsplit _ => ?_
      rw [hsplit, List.append_assoc, ← List.append_assoc] at hthere
      exact h.above (by simp) hthere
    rw [List.dropLast_concat, hwalk]
    dsimp only
    rw [if_neg (Ne.symm hup.2), List.append_assoc, hthere]

/-- What is located is found, if it is not asked for as a directory. -/
theorem find_of_locate {working : List String} {path : String}
    (h : t.locate (origin working path) (FileTree.names path) = .ok (place, found))
    (hends : endsInDirectory path = false) : t.find working path = .ok (place, found) := by
  unfold find
  rw [h]
  cases found with
  | none => rfl
  | some e => cases e <;> simp [hends]

/-! ## Directories that are added -/

/-- The second tree has what the first one has, and perhaps more
directories. -/
def Grows (t t' : FileTree) : Prop :=
  ∀ place, t'.get? place = t.get? place ∨
    (t.get? place = none ∧ t'.get? place = some .directory)

theorem Grows.refl (t : FileTree) : Grows t t :=
  fun _ => .inl rfl

theorem Grows.trans (h : Grows t t') (h' : Grows t' t'') : Grows t t'' := by
  intro place
  rcases h' place with hsame | ⟨hnone, hnew⟩
  · rw [hsame]
    exact h place
  · rcases h place with hsame | ⟨-, hsome⟩
    · exact .inr ⟨hsame ▸ hnone, hnew⟩
    · rw [hsome] at hnone
      cases hnone

theorem Grows.get? (h : Grows t t') (hthere : t.get? place = some e) :
    t'.get? place = some e := by
  rcases h place with hsame | ⟨hnone, -⟩
  · rw [hsame, hthere]
  · rw [hthere] at hnone
    cases hnone

/-- No file is new. -/
theorem Grows.file (h : Grows t t') {bytes : ByteArray}
    (hthere : t'.get? place = some (.file bytes)) : t.get? place = some (.file bytes) := by
  rcases h place with hsame | ⟨-, hnew⟩
  · rw [← hsame, hthere]
  · rw [hthere] at hnew
    cases hnew

/-- A tree stays rooted if an entry is put where a directory lies above and
none is replaced. -/
theorem Rooted.put (h : t.Rooted) (hparent : t.get? place.dropLast = some .directory)
    (hplace : t.get? place ≠ some .directory) (e : Entry) : (t.put place e).Rooted := by
  have hdirectory : ∀ above, t.get? above = some .directory →
      (t.put place e).get? above = some .directory := by
    intro above habove
    have hne : above ≠ place := fun heq => hplace (heq ▸ habove)
    rw [get?_put_ne t e hne, habove]
  intro target e' htarget hthere
  by_cases heq : target = place
  · subst heq
    exact hdirectory _ hparent
  · rw [get?_put_ne t e heq] at hthere
    exact hdirectory _ (h _ _ htarget hthere)

theorem createDirectory_eq_ok (h : t.createDirectory start names = .ok t') :
    ∃ place, t.locate start names = .ok (place, t.get? place) ∧ t.get? place = none ∧
      t' = t.put place .directory := by
  unfold createDirectory at h
  split at h
  · cases h
  · cases h
  · next place hlocate =>
    cases h
    have hnone := get?_of_locate hlocate
    exact ⟨place, by rw [hlocate, ← hnone], hnone.symm, rfl⟩

theorem grows_createDirectory (h : t.createDirectory start names = .ok t') : Grows t t' := by
  obtain ⟨place, -, hnone, rfl⟩ := createDirectory_eq_ok h
  intro target
  by_cases heq : target = place
  · subst heq
    have hplace : t.get? target ≠ some .directory := by simp [hnone]
    exact .inr ⟨hnone, get?_put_self t _ (ne_nil_of_get? hplace)⟩
  · exact .inl (get?_put_ne t _ heq)

theorem Rooted.createDirectory (h : t.Rooted) (hstart : t.get? start = some .directory)
    (hcreate : t.createDirectory start names = .ok t') : t'.Rooted := by
  obtain ⟨place, hlocate, hnone, rfl⟩ := createDirectory_eq_ok hcreate
  have hplace : t.get? place ≠ some .directory := by simp [hnone]
  exact h.put (h.parent_of_locate hstart hlocate hplace) hplace _

/-- The induction is on the names, of which the last one comes first. -/
theorem createUpward_spec (h : t.Rooted) (hstart : t.get? start = some .directory)
    (reversed : List String) :
    Grows t (t.createUpward start reversed).1 ∧ (t.createUpward start reversed).1.Rooted := by
  induction reversed with
  | nil => exact ⟨.refl t, h⟩
  | cons name above ih =>
    rw [createUpward]
    split
    · next hcreate => exact ⟨grows_createDirectory hcreate, h.createDirectory hstart hcreate⟩
    · split
      · next habove =>
        rw [habove] at ih
        exact ih
      · next habove =>
        rw [habove] at ih
        split
        · next hcreate =>
          exact ⟨ih.1.trans (grows_createDirectory hcreate),
            ih.2.createDirectory (ih.1.get? hstart) hcreate⟩
        · exact ih
    · exact ⟨.refl t, h⟩

/-- The root or the working directory is a directory. -/
theorem get?_origin {working : List String} (h : t.get? working = some .directory)
    (path : String) : t.get? (origin working path) = some .directory := by
  unfold origin
  split
  · rfl
  · exact h

theorem makeParent_of_createParent {working : List String} {path : String}
    (h : t.createParent working path = .ok t') : t.makeParent working path = (t', none) := by
  unfold createParent at h
  split at h
  · next hmade =>
    cases h
    exact hmade
  · cases h

/-- **Making the directory of a path only adds directories.** -/
theorem grows_makeParent {working : List String} (h : t.Rooted)
    (hworking : t.get? working = some .directory) (path : String) :
    Grows t (t.makeParent working path).1 ∧ (t.makeParent working path).1.Rooted :=
  createUpward_spec h (get?_origin hworking path) _

end ShellPreview.FileTree
