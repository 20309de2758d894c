import ShellPreview.Proofs.Json.Lookup
import ShellPreview.Proofs.Json.Spelling
import ShellPreview.Proofs.Text.Ordered
/-!
# Objects as maps

In the normal form of a value the keys of every object are in increasing
order. The normal form of a normal form is itself (`sorted_sorted`); it
nests no deeper and has no other numbers than the value, and a key has the
same value in it (`get?_sorted`).
-/

namespace ShellPreview.Json

/-- Keys in increasing order, each once. -/
def Increasing (ms : List (String × Json)) : Prop :=
  Text.Ordered.Increasing (ms.map (·.1))

section Map

variable {key : String} {value : Json} {ms done : List (String × Json)} {m : String × Json}

theorem insertMember_nil (key : String) (value : Json) :
    insertMember key value [] = [(key, value)] :=
  rfl

theorem insertMember_cons (key : String) (value : Json) (m : String × Json)
    (ms : List (String × Json)) : insertMember key value (m :: ms) =
      if key < m.1 then (key, value) :: m :: ms
      else if key = m.1 then (key, value) :: ms
      else m :: insertMember key value ms :=
  rfl

theorem mem_insertMember (h : m ∈ insertMember key value ms) : m = (key, value) ∨ m ∈ ms := by
  induction ms with
  | nil => exact .inl (List.mem_singleton.mp h)
  | cons x ms ih =>
    rw [insertMember_cons] at h
    split at h
    · exact List.mem_cons.mp h
    · split at h
      · rcases List.mem_cons.mp h with h | h
        · exact .inl h
        · exact .inr (List.mem_cons_of_mem _ h)
      · rcases List.mem_cons.mp h with h | h
        · exact .inr (List.mem_cons.mpr (.inl h))
        · exact (ih h).imp_right (List.mem_cons_of_mem _)

/-- The keys are a set, into which the key is put. -/
theorem keys_insertMember (key : String) (value : Json) (ms : List (String × Json)) :
    (insertMember key value ms).map (·.1) = Text.Ordered.insert key (ms.map (·.1)) := by
  induction ms with
  | nil => rfl
  | cons m ms ih =>
    rw [insertMember_cons, List.map_cons, Text.Ordered.insert]
    split
    · rfl
    · split
      · next heq => rw [List.map_cons, heq]
      · rw [List.map_cons, ih]

theorem increasing_insertMember (h : Increasing ms) (key : String) (value : Json) :
    Increasing (insertMember key value ms) := by
  rw [Increasing, keys_insertMember]
  exact Text.Ordered.increasing_insert h key

theorem mem_foldl_insertMember
    (h : m ∈ ms.foldl (fun ms m => insertMember m.1 m.2 ms) done) : m ∈ ms ∨ m ∈ done := by
  induction ms generalizing done with
  | nil => exact .inr h
  | cons x ms ih =>
    rcases ih h with h | h
    · exact .inl (List.mem_cons_of_mem _ h)
    · exact (mem_insertMember h).imp_left fun h => List.mem_cons.mpr (.inl h)

theorem mem_of_mem_mapOf (h : m ∈ mapOf ms) : m ∈ ms := by
  simpa using mem_foldl_insertMember h

theorem increasing_foldl (h : Increasing done) :
    Increasing (ms.foldl (fun ms m => insertMember m.1 m.2 ms) done) := by
  induction ms generalizing done with
  | nil => exact h
  | cons m ms ih => exact ih (increasing_insertMember h m.1 m.2)

/-- **The keys of a map are in increasing order.** -/
theorem increasing_mapOf (ms : List (String × Json)) : Increasing (mapOf ms) :=
  increasing_foldl List.Pairwise.nil

/-- A key behind all others is put at the end. -/
theorem insertMember_of_forall_lt (h : ∀ m ∈ ms, m.1 < key) :
    insertMember key value ms = ms ++ [(key, value)] := by
  induction ms with
  | nil => rfl
  | cons m ms ih =>
    obtain ⟨hm, hms⟩ := List.forall_mem_cons.mp h
    rw [insertMember_cons, if_neg hm.not_gt, if_neg hm.ne', ih hms]
    rfl

theorem foldl_of_increasing (h : Increasing (done ++ ms)) :
    ms.foldl (fun ms m => insertMember m.1 m.2 ms) done = done ++ ms := by
  induction ms generalizing done with
  | nil => simp
  | cons m ms ih =>
    have hlt : ∀ m' ∈ done, m'.1 < m.1 := fun m' hm' =>
      (List.pairwise_append.mp (List.pairwise_map.mp h)).2.2 m' hm' m List.mem_cons_self
    rw [List.foldl_cons, insertMember_of_forall_lt hlt, ih (by simpa using h)]
    simp

/-- **Members with increasing keys are their own map.** -/
theorem mapOf_of_increasing (h : Increasing ms) : mapOf ms = ms :=
  foldl_of_increasing h

end Map

/-! ## The normal form -/

theorem sortedItems_eq (vs : List Json) : sortedItems vs = vs.map sorted := by
  induction vs with
  | nil => rfl
  | cons v vs ih => exact congrArg (v.sorted :: ·) ih

theorem sortedMembers_eq (ms : List (String × Json)) :
    sortedMembers ms = ms.map fun m => (m.1, m.2.sorted) := by
  induction ms with
  | nil => rfl
  | cons m ms ih =>
    obtain ⟨k, v⟩ := m
    exact congrArg ((k, v.sorted) :: ·) ih

theorem sorted_list (vs : List Json) : (Json.list vs).sorted = .list (vs.map sorted) :=
  congrArg Json.list (sortedItems_eq vs)

theorem sorted_object (ms : List (String × Json)) :
    (Json.object ms).sorted = .object (mapOf (ms.map fun m => (m.1, m.2.sorted))) :=
  congrArg (fun ms => Json.object (mapOf ms)) (sortedMembers_eq ms)

/-- An object whose keys increase and whose values are normal forms is a
normal form. -/
theorem sorted_object_of_increasing {ms : List (String × Json)} (hkeys : Increasing ms)
    (hvalues : ∀ m ∈ ms, m.2.sorted = m.2) : (Json.object ms).sorted = .object ms := by
  have hmap : (ms.map fun m => (m.1, m.2.sorted)) = ms.map id :=
    List.map_congr_left fun m hm => by rw [hvalues m hm, id]
  rw [List.map_id] at hmap
  rw [sorted_object, hmap, mapOf_of_increasing hkeys]

/-- Every value in the map of the normal forms is the normal form of a
value. -/
theorem exists_of_mem_sorted {ms : List (String × Json)} {m : String × Json}
    (h : m ∈ mapOf (ms.map fun m => (m.1, m.2.sorted))) : ∃ m' ∈ ms, m'.2.sorted = m.2 := by
  obtain ⟨m', hm', rfl⟩ := List.mem_map.mp (mem_of_mem_mapOf h)
  exact ⟨m', hm', rfl⟩

/-- **The normal form of a normal form is itself.** -/
theorem sorted_sorted (v : Json) : v.sorted.sorted = v.sorted := by
  induction v using ind with
  | null | flag b | number n | text s => rfl
  | list vs ih =>
    rw [sorted_list, sorted_list, List.map_map]
    congr 1
    exact List.map_congr_left ih
  | object ms ih =>
    rw [sorted_object]
    refine sorted_object_of_increasing (increasing_mapOf _) fun m hm => ?_
    obtain ⟨m', hm', heq⟩ := exists_of_mem_sorted hm
    rw [← heq]
    exact ih m' hm'

/-- The normal form nests no deeper. -/
theorem Nests.sorted {room : Nat} {v : Json} (h : Nests room v) : Nests room v.sorted := by
  induction h with
  | null => exact .null
  | flag b => exact .flag b
  | number n => exact .number n
  | text s => exact .text s
  | list _ ih =>
    rw [sorted_list]
    exact .list (List.forall_mem_map.mpr ih)
  | object _ ih =>
    rw [sorted_object]
    refine .object fun m hm => ?_
    obtain ⟨m', hm', heq⟩ := exists_of_mem_sorted hm
    exact heq ▸ ih m' hm'

/-- The normal form has no other numbers. -/
theorem Numbers.sorted {P : Numeral → Prop} {v : Json} (h : Numbers P v) : Numbers P v.sorted := by
  induction h with
  | null => exact .null
  | flag b => exact .flag b
  | number h => exact .number h
  | text s => exact .text s
  | list _ ih =>
    rw [sorted_list]
    exact .list (List.forall_mem_map.mpr ih)
  | object _ ih =>
    rw [sorted_object]
    refine .object fun m hm => ?_
    obtain ⟨m', hm', heq⟩ := exists_of_mem_sorted hm
    exact heq ▸ ih m' hm'

/-! ## Looking up -/

section Lookup

variable {key k : String} {value : Json} {ms done : List (String × Json)}

theorem lookup_insertMember : (insertMember key value ms).lookup k =
    if k = key then some value else ms.lookup k := by
  induction ms with
  | nil => rw [insertMember_nil, lookup_cons_eq]
  | cons m ms ih =>
    obtain ⟨key', value'⟩ := m
    rw [insertMember_cons]
    split
    · exact lookup_cons_eq _ _ _ _
    · split
      · next heq => rw [lookup_cons_eq, lookup_cons_eq, heq]; split <;> rfl
      · next hne =>
        rw [lookup_cons_eq, lookup_cons_eq, ih]
        by_cases hk : k = key
        · rw [if_pos hk, if_pos hk, if_neg (hk ▸ hne)]
        · rw [if_neg hk, if_neg hk]

/-- In a map a key has the value of the last member with it. -/
theorem lookup_foldl_insertMember :
    (ms.foldl (fun ms m => insertMember m.1 m.2 ms) done).lookup k =
      (ms.reverse.lookup k).or (done.lookup k) := by
  induction ms generalizing done with
  | nil => rfl
  | cons m ms ih =>
    obtain ⟨key, value⟩ := m
    rw [List.foldl_cons, ih, lookup_insertMember, List.reverse_cons, List.lookup_append,
      Option.or_assoc, lookup_cons_eq]
    by_cases hk : k = key
    · rw [if_pos hk, if_pos hk, Option.some_or]
    · rw [if_neg hk, if_neg hk, List.lookup_nil, Option.none_or]

theorem lookup_map_sorted :
    (ms.map fun m => (m.1, m.2.sorted)).lookup k = (ms.lookup k).map sorted := by
  induction ms with
  | nil => rfl
  | cons m ms ih =>
    obtain ⟨key, value⟩ := m
    rw [List.map_cons, lookup_cons_eq, lookup_cons_eq, ih]
    split <;> rfl

/-- **The normal form has the same members**, each with the normal form of
its value. -/
theorem get?_sorted (v : Json) (key : String) : v.sorted.get? key = (v.get? key).map sorted := by
  cases v with
  | object ms =>
    have hnodup : ((mapOf (ms.map fun m => (m.1, m.2.sorted))).map (·.1)).Nodup :=
      (increasing_mapOf _).imp fun hlt => ne_of_lt hlt
    rw [sorted_object, get?, get?, lookup_reverse_of_nodup hnodup, mapOf, lookup_foldl_insertMember,
      List.lookup_nil, Option.or_none, ← List.map_reverse, lookup_map_sorted]
  | list vs =>
    rw [sorted_list]
    rfl
  | null | flag b | number n | text s => rfl

end Lookup

end ShellPreview.Json
