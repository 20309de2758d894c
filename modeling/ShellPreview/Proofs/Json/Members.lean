import Mathlib.Data.List.Count
import ShellPreview.Proofs.Json.Given
/-!
# The members of an object

What a record makes of an object is settled by the values that stand with
the keys of its fields (`valuesOf`): each key at most once, in whatever
order, among members that no field asks for, which may also repeat. So
acceptance is said once more, field by field, without regard to where in
the object a member is (`acceptAt_record_once`); where the value names its
kind by a tag, the tag may stand anywhere too (`acceptAt_tagged_once`).
-/

namespace ShellPreview.Json

/-- The values that stand with the key. -/
def valuesOf (key : String) (ms : List (String × Json)) : List Json :=
  (ms.filter fun m => m.1 == key).map (·.2)

/-- The field comes to this member: the key is given once, with a value
that is accepted as that of the member, or it is not given, and the value of
the member stands for it. -/
def FillsOnce (given : List (String × Json)) (field : String × Absent × (Json → Except Cause Json))
    (m : String × Json) : Prop :=
  m.1 = field.1 ∧
    ((∃ v, valuesOf field.1 given = [v] ∧ field.2.2 v = .ok m.2) ∨
      (valuesOf field.1 given = [] ∧ field.2.1.Stands m.2))

/-- A part of what an object tells: if it is there, its key is given once,
with a value that has the property, and else the key is not given. -/
def HasPart (given : List (String × Json)) (key : String) (there : Bool) (P : Json → Prop) : Prop :=
  if there then ∃ v, valuesOf key given = [v] ∧ P v else valuesOf key given = []

/-- The value is a list whose items tell the things, in order. -/
def Lists {α : Type} (Told : α → Json → Prop) (xs : List α) (v : Json) : Prop :=
  ∃ vs, v = .list vs ∧ List.Forall₂ Told xs vs

/-! ## The values of a key -/

section Values

variable {key : String}

theorem valuesOf_cons_self (key : String) (v : Json) (ms : List (String × Json)) :
    valuesOf key ((key, v) :: ms) = v :: valuesOf key ms := by
  simp [valuesOf]

theorem valuesOf_cons_ne {k : String} (h : k ≠ key) (v : Json) (ms : List (String × Json)) :
    valuesOf key ((k, v) :: ms) = valuesOf key ms := by
  simp [valuesOf, h]

/-- The first of the values is the one that is looked up. -/
theorem lookup_eq_head?_valuesOf (key : String) (ms : List (String × Json)) :
    ms.lookup key = (valuesOf key ms).head? := by
  induction ms with
  | nil => rfl
  | cons m ms ih =>
    obtain ⟨k, v⟩ := m
    by_cases hk : k = key
    · rw [hk, valuesOf_cons_self, List.lookup_cons_self, List.head?_cons]
    · rw [lookup_cons_ne (Ne.symm hk), valuesOf_cons_ne hk, ih]

/-- Members that are left out for their keys leave the values of other keys
as they are. -/
theorem valuesOf_filter {p : String → Bool} (h : p key = true) (ms : List (String × Json)) :
    valuesOf key (ms.filter fun m => p m.1) = valuesOf key ms := by
  have hboth : ∀ m : String × Json, (m.1 == key && p m.1) = (m.1 == key) := by
    intro m
    by_cases hm : m.1 = key
    · rw [hm, h, Bool.and_true]
    · rw [beq_false_of_ne hm, Bool.false_and]
  simp only [valuesOf, List.filter_filter, hboth]

/-- A key is repeated as often as there are values that stand with it. -/
theorem count_keys (key : String) (ms : List (String × Json)) :
    (ms.map (·.1)).count key = (valuesOf key ms).length := by
  rw [valuesOf, List.length_map, List.count, List.countP_map, List.countP_eq_length_filter]
  rfl

end Values

/-! ## Fields -/

section Field

variable {ms : List (String × Json)} {key : String} {absent : Absent} {v w d : Json}
  {accept : Json → Except Cause Json}

theorem FillsOnce.given (h : valuesOf key ms = [v]) (haccept : accept v = .ok w) :
    FillsOnce ms (key, absent, accept) (key, w) :=
  ⟨rfl, .inl ⟨v, h, haccept⟩⟩

/-- A value may be left out where it is the one that would stand for it. -/
theorem FillsOnce.given_or (h : valuesOf key ms = [v] ∨ valuesOf key ms = [] ∧ v = d)
    (haccept : accept v = .ok v) : FillsOnce ms (key, .fallback d, accept) (key, v) := by
  rcases h with hgiven | ⟨hnone, rfl⟩
  · exact .given hgiven haccept
  · exact ⟨rfl, .inr ⟨hnone, rfl⟩⟩

theorem HasPart.of_given {P : Json → Prop} (h : valuesOf key ms = [v]) (hv : P v) :
    HasPart ms key true P :=
  ⟨v, h, hv⟩

theorem HasPart.of_none {P : Json → Prop} (h : valuesOf key ms = []) : HasPart ms key false P :=
  h

theorem HasPart.cons_ne {k : String} {there : Bool} {P : Json → Prop} (h : HasPart ms key there P)
    (hk : k ≠ key) (v : Json) : HasPart ((k, v) :: ms) key there P := by
  rw [HasPart, valuesOf_cons_ne hk]
  exact h

/-- A part comes to what it tells if it is there, and else to what stands
for it. -/
theorem FillsOnce.part {there : Bool} {P : Json → Prop} (h : HasPart ms key there P)
    (haccept : ∀ v, P v → accept v = .ok w) :
    FillsOnce ms (key, .fallback d, accept) (key, if there then w else d) := by
  cases there with
  | false => exact ⟨rfl, .inr ⟨h, rfl⟩⟩
  | true =>
    obtain ⟨v, hv, hP⟩ := h
    exact .given hv (haccept v hP)

end Field

/-- The members of the parts that are there. -/
def partsOf : List (Bool × String × Json) → List (String × Json)
  | [] => []
  | (there, m) :: parts => if there then m :: partsOf parts else partsOf parts

theorem valuesOf_partsOf_of_not_mem {parts : List (Bool × String × Json)} {key : String}
    (h : key ∉ parts.map fun x => x.2.1) : valuesOf key (partsOf parts) = [] := by
  induction parts with
  | nil => rfl
  | cons x parts ih =>
    obtain ⟨there, k, v⟩ := x
    rw [List.map_cons, List.mem_cons, not_or] at h
    have hlater := ih h.2
    rw [partsOf]
    split
    · rw [valuesOf_cons_ne (Ne.symm h.1), hlater]
    · exact hlater

/-- An object of parts has each of them, if it is there. -/
theorem hasPart_partsOf {parts : List (Bool × String × Json)} {there : Bool} {key : String}
    {v : Json} {P : Json → Prop} (hkeys : (parts.map fun x => x.2.1).Nodup)
    (h : (there, key, v) ∈ parts) (hv : P v) : HasPart (partsOf parts) key there P := by
  induction parts with
  | nil => cases h
  | cons x parts ih =>
    obtain ⟨there', k, v'⟩ := x
    obtain ⟨hk, hkeys⟩ := List.nodup_cons.mp hkeys
    rcases List.mem_cons.mp h with heq | hmem
    · cases heq
      have hlater := valuesOf_partsOf_of_not_mem hk
      cases there with
      | false => exact .of_none hlater
      | true => exact .of_given (by rw [partsOf, if_pos rfl, valuesOf_cons_self, hlater]) hv
    · have hne : k ≠ key := fun heq => hk (List.mem_map.mpr ⟨_, hmem, heq.symm⟩)
      rw [partsOf]
      split
      · exact (ih hkeys hmem).cons_ne hne v'
      · exact ih hkeys hmem

/-! ## Records -/

section Record

variable {fields : FieldsOf (Json → Except Cause Json)} {given outs : List (String × Json)}

/-- Some field asks for the key. -/
def asks (fields : FieldsOf (Json → Except Cause Json)) (key : String) : Bool :=
  (fields.lookup key).isSome

theorem asks_of_mem {f : String × Absent × (Json → Except Cause Json)} (h : f ∈ fields) :
    asks fields f.1 = true := by
  rw [asks, Option.isSome_iff_ne_none]
  intro hnone
  have hne := List.lookup_eq_none_iff.mp hnone f h
  rw [bne_self_eq_false] at hne
  cases hne

/-- Members that no field asks for are passed over. -/
theorem acceptMembers_filter (done : List (String × Json)) :
    acceptMembers fields done (given.filter fun m => asks fields m.1) =
      acceptMembers fields done given := by
  induction given generalizing done with
  | nil => rfl
  | cons m given ih =>
    obtain ⟨key, v⟩ := m
    cases hfield : fields.lookup key with
    | none =>
      have hno : asks fields key = false := by rw [asks, hfield]; rfl
      rw [List.filter_cons, if_neg (by simp [hno]), acceptMembers, hfield]
      exact ih done
    | some f =>
      have hyes : asks fields key = true := by rw [asks, hfield]; rfl
      rw [List.filter_cons, if_pos hyes, acceptMembers, acceptMembers, hfield]
      simp only [ih]

theorem Fills.of_once {f : String × Absent × (Json → Except Cause Json)} {m : String × Json}
    (h : FillsOnce given f m) : Fills given f m := by
  obtain ⟨hkey, hvalue⟩ := h
  refine ⟨hkey, ?_⟩
  rw [lookup_eq_head?_valuesOf]
  obtain ⟨v, hv, haccept⟩ | ⟨hnone, hstands⟩ := hvalue
  · rw [hv]
    exact haccept
  · rw [hnone]
    cases habsent : f.2.1 <;> rw [habsent] at hstands <;> exact hstands

/-- The members that fields ask for have different keys if every key of a
field is given at most once. -/
theorem nodup_asked (h : ∀ f ∈ fields, (valuesOf f.1 given).length ≤ 1) :
    ((given.filter fun m => asks fields m.1).map (·.1)).Nodup := by
  refine List.nodup_iff_count_le_one.mpr fun key => ?_
  rw [count_keys]
  cases hfield : fields.lookup key with
  | some f =>
    have hasks : asks fields key = true := by rw [asks, hfield]; rfl
    rw [valuesOf_filter hasks]
    exact h _ (mem_of_lookup hfield)
  | none =>
    have hno : asks fields key = false := by rw [asks, hfield]; rfl
    have hnone : ∀ m ∈ given.filter fun m => asks fields m.1, ¬ (m.1 == key) = true := by
      intro m hm heq
      rw [← eq_of_beq heq, (List.mem_filter.mp hm).2] at hno
      cases hno
    rw [valuesOf, List.filter_eq_nil_iff.mpr hnone]
    exact Nat.zero_le 1

/-- **A record is accepted field by field**, in whatever order and among
whatever members no field asks for. -/
theorem acceptRecord_once (what : String) (aside : Bool) (hfields : (fields.map (·.1)).Nodup)
    (h : List.Forall₂ (FillsOnce given) fields outs) :
    acceptRecord what aside fields (.object given) = .ok outs := by
  have honce : ∀ f ∈ fields, (valuesOf f.1 given).length ≤ 1 := by
    intro f hf
    obtain ⟨m, -, ⟨v, hv, -⟩ | ⟨hnone, -⟩⟩ := exists_of_forall₂ h f hf
    · rw [hv]; exact Nat.le_refl 1
    · rw [hnone]; exact Nat.zero_le 1
  have hasked : List.Forall₂ (Fills (given.filter fun m => asks fields m.1)) fields outs := by
    have hmem : List.Forall₂ (fun f m => f ∈ fields ∧ FillsOnce given f m) fields outs :=
      (List.forall₂_and_left _ _).mpr ⟨fun _ hf => hf, h⟩
    refine hmem.imp fun f m ⟨hf, hfills⟩ => ?_
    obtain ⟨hkey, hvalue⟩ := hfills
    rw [← valuesOf_filter (asks_of_mem hf)] at hvalue
    exact Fills.of_once ⟨hkey, hvalue⟩
  have haccept := acceptRecord_object what aside hfields (nodup_asked honce) hasked
  rw [acceptRecord, acceptMembers_filter] at haccept
  exact haccept

end Record

section Forms

variable (aside : Bool) {what : String} {fields : List (String × Absent × Schema)}
  {given outs : List (String × Json)}

theorem acceptAt_record_once (hfields : (fields.map (·.1)).Nodup)
    (h : List.Forall₂ (FillsOnce given) (Schema.acceptFields aside fields) outs) :
    (Schema.record what fields).acceptAt aside (.object given) = .ok (.object outs) := by
  rw [← acceptFields_keys aside] at hfields
  rw [acceptAt_record_eq, acceptRecord_once what aside hfields h]
  rfl

/-- The items of a list are accepted as what they tell. -/
theorem Lists.acceptAt {α : Type} {item : Schema} {Told : α → Json → Prop} {toJson : α → Json}
    (hitem : ∀ x v, Told x v → item.acceptAt aside v = .ok (toJson x)) {xs : List α} {v : Json}
    (h : Lists Told xs v) :
    (Schema.list item).acceptAt aside v = .ok (.list (xs.map toJson)) := by
  obtain ⟨vs, rfl, hvs⟩ := h
  have hitems : List.Forall₂ (fun v w => item.acceptAt aside v = .ok w) vs (xs.map toJson) :=
    List.forall₂_map_right_iff.mpr (hvs.flip.imp fun v x => hitem x v)
  rw [acceptAt_list_eq, mapM_of_forall₂ hitems]
  rfl

theorem lists_map {α : Type} {Told : α → Json → Prop} {toJson : α → Json}
    (h : ∀ x, Told x (toJson x)) (xs : List α) : Lists Told xs (.list (xs.map toJson)) :=
  ⟨_, rfl, List.forall₂_map_right_iff.mpr (List.forall₂_same.mpr fun x _ => h x)⟩

/-! ## Values with a tag -/

variable {names : List String} {tag kind what' : String}
  {kinds : List (String × Option (String × List (String × Absent × Schema)))}

theorem acceptAt_tagged_eq (what : String) (v : Json) :
    (Schema.tagged what tag kinds).acceptAt aside v =
      acceptTagged what tag (Schema.acceptKinds kinds) v :=
  rfl

/-- The tag is found wherever it stands. -/
theorem splitTag_once (hkind : kind ∈ names) (h : valuesOf tag given = [.text kind])
    (done : List (String × Json)) :
    splitTag names tag (none, done) given =
      .ok (some kind, done ++ given.filter fun m => m.1 != tag) := by
  induction given generalizing done with
  | nil => cases h
  | cons m given ih =>
    obtain ⟨key, v⟩ := m
    by_cases hkey : key = tag
    · subst hkey
      rw [valuesOf_cons_self, List.cons.injEq] at h
      obtain ⟨rfl, hlater⟩ := h
      -- no other member has the tag, so all others stay
      have hrest : ∀ m ∈ given, m.1 ≠ key := by
        intro m hm heq
        rw [valuesOf, List.map_eq_nil_iff, List.filter_eq_nil_iff] at hlater
        exact hlater m hm (beq_iff_eq.mpr heq)
      have hall : ((key, text kind) :: given).filter (fun m => m.1 != key) = given := by
        rw [List.filter_cons, if_neg (by simp)]
        exact List.filter_eq_self.mpr fun m hm => bne_iff_ne.mpr (hrest m hm)
      rw [splitTag, if_pos rfl, hall]
      simp only [Option.isSome_none, Bool.false_eq_true, if_false, acceptTag, if_pos hkind]
      exact splitTag_of_forall_ne hrest _ _
    · rw [valuesOf_cons_ne hkey] at h
      rw [splitTag, if_neg hkey, ih h, List.filter_cons, if_pos (bne_iff_ne.mpr hkey),
        List.append_assoc, List.singleton_append]

/-- A field that is not the tag comes to the same without the tag. -/
theorem FillsOnce.without {f : String × Absent × (Json → Except Cause Json)} {m : String × Json}
    (hf : f.1 ≠ tag) (h : FillsOnce given f m) :
    FillsOnce (given.filter fun m => m.1 != tag) f m := by
  have hvalues : valuesOf f.1 (given.filter fun m => m.1 != tag) = valuesOf f.1 given :=
    valuesOf_filter (p := fun key => key != tag) (bne_iff_ne.mpr hf) given
  rw [FillsOnce, hvalues]
  exact h

/-- **A value is accepted as the record of its kind**, wherever its tag
stands. -/
theorem acceptAt_tagged_once (hkind : kinds.lookup kind = some (some (what', fields)))
    (htag : tag ∉ fields.map (·.1)) (hfields : (fields.map (·.1)).Nodup)
    (hgiven : valuesOf tag given = [.text kind])
    (h : List.Forall₂ (FillsOnce given) (Schema.acceptFields true fields) outs) :
    (Schema.tagged what tag kinds).acceptAt aside (.object given) =
      .ok (.object ((tag, .text kind) :: outs)) := by
  have hlookup := lookup_acceptKinds hkind
  have hname : kind ∈ (Schema.acceptKinds kinds).map (·.1) :=
    List.mem_map_of_mem (mem_of_lookup hlookup)
  rw [← acceptFields_keys true] at htag hfields
  have hothers : List.Forall₂ (FillsOnce (given.filter fun m => m.1 != tag))
      (Schema.acceptFields true fields) outs := by
    have hmem : List.Forall₂ (fun f m => f ∈ Schema.acceptFields true fields ∧
        FillsOnce given f m) (Schema.acceptFields true fields) outs :=
      (List.forall₂_and_left _ _).mpr ⟨fun _ hf => hf, h⟩
    refine hmem.imp fun f m ⟨hf, hfills⟩ => hfills.without fun heq => htag ?_
    exact heq ▸ List.mem_map_of_mem hf
  rw [acceptAt_tagged_eq, acceptTagged]
  simp only [splitTag_once hname hgiven, List.nil_append]
  simp [acceptKind, hlookup, acceptRecord_once what' true hfields hothers, Except.map]

/-- A kind without fields is accepted among whatever members. -/
theorem acceptAt_tagged_bare (hkind : (Schema.acceptKinds kinds).lookup kind = some none)
    (hgiven : valuesOf tag given = [.text kind]) :
    (Schema.tagged what tag kinds).acceptAt aside (.object given) =
      .ok (.object [(tag, .text kind)]) := by
  have hname : kind ∈ (Schema.acceptKinds kinds).map (·.1) :=
    List.mem_map_of_mem (mem_of_lookup hkind)
  rw [acceptAt_tagged_eq, acceptTagged]
  simp only [splitTag_once hname hgiven, acceptKind, hkind]

end Forms

end ShellPreview.Json
