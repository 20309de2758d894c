import ShellPreview.Proofs.Json.Record
/-!
# Reading with a schema

Whatever way an accepted value is written, reading gives its normal form
(`Schema.agrees`), by induction on the schema: the readers of lists, of
values with a tag and of records agree if those inside of them do. The
printer writes a value in two of these ways.
-/

namespace ShellPreview.Json

/-! ## Values with a tag -/

/-- What a member does to the tag and the members in front of it. -/
def readTagMember (names : List String) (tag : String) (room : Nat)
    (state : Option String × List (String × Json)) (key : String) (r : List Char) :
    Reading (Option String × List (String × Json)) :=
  if key = tag then
    if state.1.isSome then .error (.loose (.duplicateField tag) r)
    else
      match readColon r with
      | .error stop => .error stop
      | .ok r =>
        (readName "variant identifier" names r).map fun (kind, r) => ((some kind, state.2), r)
  else
    match readColon r with
    | .error stop => .error stop
    | .ok r => (readValue room r).map fun (v, r) => ((state.1, state.2 ++ [(key, v)]), r)

theorem readTagMembers_eq (names : List String) (tag : String) (room : Nat) (cs : List Char) :
    readTagMembers names tag room cs =
      match readMembers (readTagMember names tag room) (cs.length + 1) true (none, []) cs with
      | .error stop => .error stop
      | .ok ((none, _), r) => .error (.loose (.missingField tag) r)
      | .ok ((some kind, rest), r) => .ok ((kind, .object rest), r) :=
  rfl

section Tagged

variable {room : Nat} {names : List String} {tag kind : String} {v : Json}

theorem eq_text_of_acceptTag (h : acceptTag names v = .ok kind) :
    v = .text kind ∧ kind ∈ names := by
  unfold acceptTag at h
  split at h
  · split at h
    · next hs =>
      cases h
      exact ⟨rfl, hs⟩
    · cases h
  · cases h

theorem readsBehind_readTagMember {rest : List (String × Json)} (h : kind ∈ names) :
    ReadsBehind (readTagMember names tag room (none, rest) tag) (.text kind) (some kind, rest) := by
  intro bs bs' cs rest hbs hbs' hcs hrest
  simp [readTagMember, readColon_eq hbs, reads_readName "variant identifier" h hbs' hcs hrest,
    Except.map]

theorem readsBehind_readTagMember_ne {key : String} (hkey : key ≠ tag) (hv : Nests room v)
    (state : Option String × List (String × Json)) :
    ReadsBehind (readTagMember names tag room state key) v (state.1, state.2 ++ [(key, v)]) := by
  intro bs bs' cs rest hbs hbs' hcs hrest
  simp [readTagMember, hkey, readColon_eq hbs, reads_readValue hv hbs' hcs hrest, Except.map]

/-- The tag is found among the members in one step each. -/
theorem steps_readTagMember {ms : List (String × Json)}
    {state state' : Option String × List (String × Json)} (hms : ∀ m ∈ ms, Nests room m.2)
    (h : splitTag names tag state ms = .ok state') :
    Steps (readTagMember names tag room) state ms state' := by
  induction ms generalizing state with
  | nil =>
    obtain rfl := Except.ok.inj h
    exact .nil _
  | cons m ms ih =>
    obtain ⟨hm, hlater⟩ := List.forall_mem_cons.mp hms
    obtain ⟨key, v⟩ := m
    obtain ⟨kind, rest⟩ := state
    rw [splitTag] at h
    split at h
    · next hkey =>
      subst hkey
      split at h
      · cases h
      · next hnone =>
        obtain rfl := Option.not_isSome_iff_eq_none.mp hnone
        split at h
        · cases h
        · next name hname =>
          obtain ⟨rfl, hmem⟩ := eq_text_of_acceptTag hname
          exact .cons (readsBehind_readTagMember hmem) (ih hlater h)
    · next hkey => exact .cons (readsBehind_readTagMember_ne hkey hm _) (ih hlater h)

variable {kinds : List (String × Option (String × FieldsOf (Json → Except Cause Json)))}

/-- **Reading a value with a tag agrees with accepting it.** -/
theorem agrees_readTagged (what tag : String) (room : Nat) :
    Agrees room (readTagged what tag room kinds) (acceptTagged what tag kinds) := by
  intro v w hv hw bs cs rest hbs hcs hrest
  unfold acceptTagged at hw
  split at hw
  · next ms =>
    obtain - | - | - | - | - | @⟨room, _, hms⟩ := hv
    obtain - | - | - | - | - | @⟨_, cs, hcs⟩ := hcs
    split at hw
    · cases hw
    · cases hw
    · next kind rest' hsplit =>
      have hread : readTagMembers (kinds.map (·.1)) tag room (cs ++ rest) =
          .ok ((kind, .object rest'), '\x7d' :: rest) := by
        rw [readTagMembers_eq, readMembers_whole (steps_readTagMember hms hsplit) hcs]
      unfold readTagged
      rw [List.cons_append, skipBlanks_append hbs, skipBlanks_cons (by decide)]
      simp only [hread, finishObject_ok, hw, loosely]
  · cases hw
  · next first vs =>
    -- in a list the tag is the first item, and the others are the value
    obtain - | - | - | - | @⟨room, _, hvs⟩ | - := hv
    obtain - | - | - | - | hcs | - := hcs
    split at hw
    · cases hw
    · next kind htag =>
      obtain ⟨rfl, hmem⟩ := eq_text_of_acceptTag htag
      cases hcs with
      | @item _ sep cs ds _ _ hsep hcs hds =>
        obtain ⟨-, hvs⟩ := List.forall_mem_cons.mp hvs
        have hname := reads_readName "variant identifier" hmem blanks_nil hcs (hds.ends rest)
        have hitems : List.Forall₂ (Reads (readValue room)) vs vs :=
          List.forall₂_same.mpr fun v hv => reads_readValue (hvs v hv)
        have hread := readItems_whole hitems hds rest
        obtain ⟨c, r, rfl, hblank, -, hclose, -⟩ := hcs.head
        have hnext := nextItem_item hsep hblank hclose (r ++ (ds ++ rest))
        unfold readTagged
        simp only [List.append_assoc, List.cons_append, List.nil_append] at hname hnext ⊢
        rw [skipBlanks_append hbs, skipBlanks_cons (by decide)]
        simp only [readTagItems, hnext, hname, hread, Except.map, finishList_ok, hw, loosely]
  · cases hw

end Tagged

/-! ## Any schema -/

theorem forall₂_of_mapM {α β ε : Type} {f : α → Except ε β} {xs : List α} {ys : List β}
    (h : xs.mapM f = .ok ys) : List.Forall₂ (fun x y => f x = .ok y) xs ys := by
  induction xs generalizing ys with
  | nil =>
    cases h
    exact .nil
  | cons x xs ih =>
    rw [List.mapM_cons] at h
    cases hx : f x with
    | error e => simp [hx, bind, Except.bind] at h
    | ok y =>
      cases hxs : xs.mapM f with
      | error e => simp [hx, hxs, bind, Except.bind] at h
      | ok ys' =>
        simp [hx, hxs, bind, Except.bind, pure, Except.pure] at h
        exact h ▸ .cons hx (ih hxs)

theorem mapM_of_forall₂ {α β ε : Type} {f : α → Except ε β} {xs : List α} {ys : List β}
    (h : List.Forall₂ (fun x y => f x = .ok y) xs ys) : xs.mapM f = .ok ys := by
  induction h with
  | nil => rfl
  | cons hx _ ih => simp [List.mapM_cons, hx, ih, bind, Except.bind, pure, Except.pure]

theorem acceptAt_natural_eq (aside : Bool) (word : String) (i : Int) :
    (Schema.natural word).acceptAt aside (.number (.whole i)) =
      if i < 0 then .error (.wrongValue (.number (.whole i)) word)
      else .ok (.number (.whole i)) :=
  rfl

theorem acceptAt_list_eq (aside : Bool) (item : Schema) (vs : List Json) :
    (Schema.list item).acceptAt aside (.list vs) = (vs.mapM (item.acceptAt aside)).map .list :=
  rfl

theorem acceptAt_record_eq (aside : Bool) (what : String)
    (fields : List (String × Absent × Schema)) (v : Json) :
    (Schema.record what fields).acceptAt aside v =
      (acceptRecord what aside (Schema.acceptFields aside fields) v).map .object :=
  rfl

theorem acceptAt_optional {v : Json} (h : v ≠ .null) (aside : Bool) (form : Schema) :
    (Schema.optional form).acceptAt aside v = form.acceptAt aside v := by
  cases v with
  | null => exact absurd rfl h
  | _ => rfl

theorem agrees_optional {room : Nat} {form : Schema}
    (h : Agrees room (form.read room) (form.acceptAt false)) :
    Agrees room ((Schema.optional form).read room) ((Schema.optional form).acceptAt false) := by
  intro v w hv hw bs cs rest hbs hcs hrest
  rw [Schema.read, skipBlanks_append hbs]
  by_cases hnull : v = .null
  · subst hnull
    cases hw
    cases hcs
    rfl
  · -- what is written is no null, so its first letter is not that of null
    rw [acceptAt_optional hnull] at hw
    have hread := h v w hv hw blanks_nil hcs hrest
    have hne := hcs.head_ne_n hnull
    obtain ⟨c, r, rfl, hblank, -⟩ := hcs.head
    rw [List.cons_append, skipBlanks_cons hblank]
    split
    · next heq => exact absurd (congrArg (· :: r) (List.cons.inj heq).1) (hne r)
    · exact hread

theorem read_list (item : Schema) (room : Nat) {bs : List Char} (hbs : Blanks bs) (r : List Char) :
    (Schema.list item).read (room + 1) (bs ++ '[' :: r) =
      (finishList (readItems (item.read room) (r.length + 1) true r)).map fun (vs, r) =>
        (.list vs, r) := by
  unfold Schema.read
  rw [skipBlanks_append hbs]
  rfl

theorem agrees_list {item : Schema}
    (h : ∀ room, Agrees room (item.read room) (item.acceptAt false)) (room : Nat) :
    Agrees room ((Schema.list item).read room) ((Schema.list item).acceptAt false) := by
  intro v w hv hw bs cs rest hbs hcs hrest
  cases v with
  | list vs =>
    obtain - | - | - | - | @⟨room, _, hvs⟩ | - := hv
    obtain - | - | - | - | hcs | - := hcs
    obtain ⟨ws, hws, rfl⟩ := exists_of_map_eq_ok hw
    have hitems : List.Forall₂ (Reads (item.read room)) vs ws :=
      ((List.forall₂_and_left _ _).mpr ⟨hvs, forall₂_of_mapM hws⟩).imp
        fun v w ⟨hv, hw⟩ => h room v w hv hw
    rw [List.cons_append, read_list item room hbs, readItems_whole hitems hcs, finishList_ok]
    rfl
  | _ => cases hw

theorem read_dictionary (room : Nat) {bs : List Char} (hbs : Blanks bs) (r : List Char) :
    Schema.dictionary.read (room + 1) (bs ++ '\x7b' :: r) =
      (finishObject (readMembers (readMember room) (r.length + 1) true [] r)).map fun (ms, r) =>
        ((Json.object ms).sorted, r) := by
  unfold Schema.read
  rw [skipBlanks_append hbs]
  rfl

theorem agrees_dictionary (room : Nat) :
    Agrees room (Schema.dictionary.read room) (Schema.dictionary.acceptAt false) := by
  intro v w hv hw bs cs rest hbs hcs hrest
  cases v with
  | object ms =>
    obtain - | - | - | - | - | @⟨room, _, hms⟩ := hv
    obtain - | - | - | - | - | hcs := hcs
    cases hw
    have hsteps := steps_readMember (fun m hm => reads_readValue (hms m hm)) []
    rw [List.cons_append, read_dictionary room hbs, readMembers_whole hsteps hcs, finishObject_ok]
    rfl
  | _ => cases hw

theorem agrees_anything (room : Nat) :
    Agrees room (Schema.anything.read room) (Schema.anything.acceptAt false) := by
  intro v w hv hw bs cs rest hbs hcs hrest
  cases hw
  show Except.map _ (readValue room _) = _
  rw [reads_readValue hv hbs hcs hrest]
  rfl

theorem agrees_text (room : Nat) :
    Agrees room (Schema.text.read room) (Schema.text.acceptAt false) := by
  intro v w hv hw bs cs rest hbs hcs hrest
  cases v with
  | text s =>
    cases hw
    show Except.map _ (readPlainText "a string" _) = _
    rw [reads_readPlainText "a string" s hbs hcs hrest]
    rfl
  | _ => cases hw

theorem agrees_flag (room : Nat) :
    Agrees room (Schema.flag.read room) (Schema.flag.acceptAt false) := by
  intro v w hv hw bs cs rest hbs hcs hrest
  cases v with
  | flag b =>
    cases hw
    exact reads_readFlag b hbs hcs hrest
  | _ => cases hw

theorem agrees_natural (word : String) (room : Nat) :
    Agrees room ((Schema.natural word).read room) ((Schema.natural word).acceptAt false) := by
  intro v w hv hw bs cs rest hbs hcs hrest
  cases v with
  | number n =>
    cases n with
    | whole i =>
      rw [acceptAt_natural_eq] at hw
      split at hw
      · cases hw
      · next hi =>
        cases hw
        exact reads_readNatural word hi hbs hcs hrest
    | real x => cases hw
  | _ => cases hw

mutual

/-- **A text is read with a schema as the value it spells is accepted.** -/
theorem Schema.agrees (form : Schema) (room : Nat) :
    Agrees room (form.read room) (form.acceptAt false) :=
  match form with
  | .anything => agrees_anything room
  | .text => agrees_text room
  | .flag => agrees_flag room
  | .natural word => agrees_natural word room
  | .choice names => agrees_readChoice room names
  | .dictionary => agrees_dictionary room
  | .optional form => agrees_optional (Schema.agrees form room)
  | .list item => agrees_list (Schema.agrees item) room
  | .record _ fields => agrees_readRecord (Schema.fieldsAgree fields) room
  | .tagged what tag _ => agrees_readTagged what tag room

/-- The readers of fields agree with the acceptors. -/
theorem Schema.fieldsAgree (fields : List (String × Absent × Schema)) (room : Nat) :
    FieldsAgree room (readFields fields room) (acceptFields false fields) :=
  match fields with
  | [] => .nil
  | (_, _, form) :: fields =>
    .cons ⟨rfl, rfl, Schema.agrees form room⟩ (Schema.fieldsAgree fields room)

end

/-- A whole text may have blanks in front of the value and behind it. -/
theorem readWhole_eq {α : Type} {reader : List Char → Reading α} {v : Json} {x : α}
    {bs cs bs' : List Char} (h : Reads reader v x) (hbs : Blanks bs) (hcs : Spells v cs)
    (hbs' : Blanks bs') :
    readWhole reader (String.ofList (bs ++ (cs ++ bs'))) = .ok x := by
  have hends : Ends bs' := by simpa using ends_blanks_append hbs' ends_nil
  have hend : readEnd bs' = .ok () := by
    have hskip : skipBlanks (bs' ++ []) = [] := skipBlanks_append hbs'
    rw [List.append_nil] at hskip
    rw [readEnd, hskip]
  simp only [readWhole, String.toList_ofList, h hbs hcs hends, hend]

/-- **Whatever way an accepted value is written, its normal form is read.** -/
theorem Schema.parse_eq {form : Schema} {v w : Json} {bs cs bs' : List Char}
    (hv : Nests maxDepth v) (hw : form.acceptAt false v = .ok w) (hbs : Blanks bs)
    (hcs : Spells v cs) (hbs' : Blanks bs') :
    form.parse (String.ofList (bs ++ (cs ++ bs'))) = .ok w :=
  readWhole_eq (form.agrees maxDepth v w hv hw) hbs hcs hbs'

/-- What the printer writes without blanks is read. -/
theorem Schema.parse_compact {form : Schema} {v w : Json} (hv : Nests maxDepth v)
    (hnumbers : Numbers Numeral.ReadsBack v) (hw : form.acceptAt false v = .ok w) :
    form.parse v.compact = .ok w := by
  have hread := Schema.parse_eq hv hw blanks_nil (spells_compactChars hnumbers) blanks_nil
  simpa [compact] using hread

/-- What the printer writes on lines of its own is read, also with a line
break behind it. -/
theorem Schema.parse_pretty {form : Schema} {v w : Json} {bs : List Char} (hv : Nests maxDepth v)
    (hnumbers : Numbers Numeral.ReadsBack v) (hw : form.acceptAt false v = .ok w)
    (hbs : Blanks bs) : form.parse (v.pretty ++ String.ofList bs) = .ok w := by
  have hread := Schema.parse_eq hv hw blanks_nil (spells_prettyChars hnumbers 0) hbs
  simpa [pretty] using hread

end ShellPreview.Json
