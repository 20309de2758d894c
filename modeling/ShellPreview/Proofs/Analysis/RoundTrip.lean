import ShellPreview.Proofs.Classify.Orderly
import ShellPreview.Proofs.Json.Given
import ShellPreview.Report
/-!
# An analysis is read back

An analysis is written as an object that leaves out what is absent, and
read with null in its place (`acceptAt_toJson`, `ofNormal_normal`). What
the JSON forms keep is `Kept`: links and parameters in order, and
parameters that nest no deeper than a value may and whose numbers are read
from their own digits. A classification is kept because its parameters are
texts, an analysis that was read because its numbers that are no 64-bit
integers are assumed to be. They need not be: `reencode_not_idempotent`.
-/

namespace ShellPreview

open Json

/-! ## Members that may be absent -/

section Absent

variable {α : Type} {key : String} {f g : α → Json}

theorem lookup_ifPresent (k key : String) (f : α → Json) (o : Option α) :
    (ifPresent key f o).lookup k = if k = key then o.map f else none := by
  cases o with
  | none => simp [ifPresent]
  | some x =>
    by_cases hk : k = key
    · simp [ifPresent, hk]
    · rw [ifPresent, lookup_cons_ne hk, if_neg hk]
      rfl

theorem keys_ifPresent_sublist (key : String) (f : α → Json) (o : Option α) :
    ((ifPresent key f o).map (·.1)).Sublist [key] := by
  cases o with
  | none => exact List.nil_sublist _
  | some x => exact List.Sublist.refl _

theorem text_ne_null (s : String) : Json.text s ≠ .null :=
  nofun

theorem nat_ne_null (n : Nat) : Json.nat n ≠ .null :=
  nofun

theorem forall_mem_ifPresent {o : Option α} {P : Json → Prop} :
    (∀ m ∈ ifPresent key f o, P m.2) ↔ ∀ x, o = some x → P (f x) := by
  cases o <;> simp [ifPresent]

/-- A field that is null when it is absent is filled by the member that may
be absent. -/
theorem fills_ifPresent {aside : Bool} {given : List (String × Json)} {form : Schema} {o : Option α}
    (hlookup : given.lookup key = o.map f) (hnull : ∀ x, f x ≠ .null)
    (h : ∀ x, form.acceptAt aside (f x) = .ok (g x)) :
    Fills given (key, .optional, fun v => (Schema.optional form).acceptAt aside v)
      (key, (o.map g).getD .null) := by
  refine ⟨rfl, ?_⟩
  rw [hlookup]
  cases o with
  | none => rfl
  | some x => exact (acceptAt_optional (hnull x) aside form).trans (h x)

/-- A field is filled by the value that is given for it. -/
theorem fills_of_lookup {absent : Absent} {accept : Json → Except Cause Json}
    {given : List (String × Json)} {v w : Json} (hlookup : given.lookup key = some v)
    (h : accept v = .ok w) : Fills given (key, absent, accept) (key, w) := by
  refine ⟨rfl, ?_⟩
  rw [hlookup]
  exact h

theorem orNull_getD {β : Type} {h : Json → β} (o : Option α) (hg : ∀ x, g x ≠ .null) :
    ((o.map g).getD .null).orNull h = o.map (fun x => h (g x)) := by
  cases o with
  | none => rfl
  | some x =>
    rw [Option.map_some, Option.getD_some, orNull]
    · rfl
    · exact hg x

end Absent

/-! ## Packages and payloads -/

theorem Package.toJson_ne_null (p : Package) : p.toJson ≠ .null :=
  nofun

theorem Payload.toJson_ne_null (p : Payload) : p.toJson ≠ .null :=
  nofun

/-- The normal form of a package: null stands for a URL that is absent. -/
def Package.normal (p : Package) : Json :=
  .object [("packageName", .text p.name), ("packageManager", .text p.manager),
    ("description", .text p.description), ("searchUrl", (p.searchUrl.map .text).getD .null)]

theorem Package.acceptAt_toJson (aside : Bool) (p : Package) :
    Package.form.acceptAt aside p.toJson = .ok p.normal := by
  have hkeys : (["packageName", "packageManager", "description"] ++ ["searchUrl"]).Nodup := by
    decide
  refine acceptAt_record aside (by decide) ?_ ?_
  · rw [List.map_append]
    exact hkeys.sublist ((List.Sublist.refl _).append (keys_ifPresent_sublist _ _ _))
  · refine .cons (fills_of_lookup rfl rfl) (.cons (fills_of_lookup rfl rfl)
      (.cons (fills_of_lookup rfl rfl) (.cons ?_ .nil)))
    refine fills_ifPresent ?_ text_ne_null (acceptAt_text aside)
    simp [List.lookup_cons, lookup_ifPresent]

theorem Package.ofNormal_normal (p : Package) : Package.ofNormal p.normal = p := by
  simp [Package.ofNormal, Package.normal, field_object, List.lookup_cons, orNull_getD]

/-- The normal form of what is known about a download. -/
def Payload.normal (p : Payload) : Json :=
  .object [("isBinary", .flag p.isBinary), ("mimeType", (p.mimeType.map .text).getD .null),
    ("fileExtension", (p.extension.map .text).getD .null),
    ("fileName", (p.fileName.map .text).getD .null), ("size", (p.size.map .nat).getD .null),
    ("warning", (p.warning.map .text).getD .null)]

theorem Payload.acceptAt_toJson (aside : Bool) (p : Payload) :
    Payload.form.acceptAt aside p.toJson = .ok p.normal := by
  have hkeys : (["isBinary"] ++ ["mimeType"] ++ ["fileExtension"] ++ ["fileName"] ++ ["size"] ++
      ["warning"]).Nodup := by decide
  refine acceptAt_record aside (by decide) ?_ ?_
  · simp only [List.map_append]
    exact hkeys.sublist ((((((List.Sublist.refl _).append (keys_ifPresent_sublist _ _ _)).append
      (keys_ifPresent_sublist _ _ _)).append (keys_ifPresent_sublist _ _ _)).append
      (keys_ifPresent_sublist _ _ _)).append (keys_ifPresent_sublist _ _ _))
  · refine .cons (fills_of_lookup rfl rfl)
      (.cons (fills_ifPresent ?_ text_ne_null (acceptAt_text aside))
      (.cons (fills_ifPresent ?_ text_ne_null (acceptAt_text aside))
      (.cons (fills_ifPresent ?_ text_ne_null (acceptAt_text aside))
      (.cons (fills_ifPresent ?_ nat_ne_null (acceptAt_natural aside "u64"))
      (.cons (fills_ifPresent ?_ text_ne_null (acceptAt_text aside)) .nil)))))
    all_goals simp [List.lookup_cons, List.lookup_append, lookup_ifPresent]

theorem Payload.ofNormal_normal (p : Payload) : Payload.ofNormal p.normal = p := by
  simp [Payload.ofNormal, Payload.normal, field_object, List.lookup_cons, orNull_getD, nat_ne_null]

namespace Analysis

/-- The normal form of an analysis. -/
def normal (a : Analysis) : Json :=
  .object [("type", .text a.kind), ("description", .text a.description),
    ("warnings", .list (a.warnings.map .text)), ("extractedCode", (a.code.map .text).getD .null),
    ("codeLanguage", .text a.language.name), ("urls", .list (a.links.map .text)),
    ("parameters", .object a.parameters),
    ("packageInfo", (a.package.map Package.normal).getD .null),
    ("binaryInfo", (a.payload.map Payload.normal).getD .null)]

theorem acceptAt_toJson (aside : Bool) {a : Analysis}
    (h : (Json.object a.parameters).sorted = .object a.parameters) :
    form.acceptAt aside a.toJson = .ok a.normal := by
  have hkeys : (["type", "description", "warnings"] ++ ["extractedCode"] ++
      ["codeLanguage", "urls", "parameters"] ++ ["packageInfo"] ++ ["binaryInfo"]).Nodup := by
    decide
  have hlanguage : a.language.name ∈ Language.all.map Language.name :=
    List.mem_map_of_mem (by cases a.language <;> decide)
  -- the keys are some of those of the form, in its order, and each field is filled in turn
  refine acceptAt_record aside (by decide) ?_ ?_
  · simp only [List.map_append]
    exact hkeys.sublist (((((List.Sublist.refl _).append (keys_ifPresent_sublist _ _ _)).append
      (List.Sublist.refl _)).append (keys_ifPresent_sublist _ _ _)).append
      (keys_ifPresent_sublist _ _ _))
  · refine .cons (fills_of_lookup rfl rfl) (.cons (fills_of_lookup rfl rfl)
      (.cons (fills_of_lookup rfl (acceptAt_texts aside _))
      (.cons (fills_ifPresent ?_ text_ne_null (acceptAt_text aside))
      (.cons (fills_of_lookup ?_ (acceptAt_choice aside hlanguage))
      (.cons (fills_of_lookup ?_ (acceptAt_texts aside _))
      (.cons (fills_of_lookup ?_ (acceptAt_dictionary aside h))
      (.cons (fills_ifPresent ?_ Package.toJson_ne_null (Package.acceptAt_toJson aside))
      (.cons (fills_ifPresent ?_ Payload.toJson_ne_null (Payload.acceptAt_toJson aside))
      .nil))))))))
    all_goals simp [List.lookup_cons, List.lookup_append, lookup_ifPresent]

theorem ofNormal_normal {a : Analysis} (h : Text.Ordered.Increasing a.links) :
    ofNormal a.normal = a := by
  have hpackage : ∀ p : Package, p.normal ≠ .null := fun _ => nofun
  have hpayload : ∀ p : Payload, p.normal ≠ .null := fun _ => nofun
  simp [ofNormal, normal, field_object, List.lookup_cons, orNull_getD, text_ne_null, hpackage,
    hpayload, Package.ofNormal_normal, Payload.ofNormal_normal, Language.ofName?_name,
    Function.comp_def, Text.Ordered.ofList_of_increasing h]

/-- What the JSON form of an analysis keeps: links and parameters are in
order, the parameters are values that can be read back, and a size is of
64 bits. -/
structure Kept (a : Analysis) : Prop where
  links : Text.Ordered.Increasing a.links
  sorted : (Json.object a.parameters).sorted = .object a.parameters
  nests : Nests 126 (.object a.parameters)
  numbers : Numbers Numeral.ReadsBack (.object a.parameters)
  size : ∀ p, a.payload = some p → ∀ n, p.size = some n → n ≤ maxWhole

theorem Kept.nests_toJson {a : Analysis} (h : a.Kept) : Nests maxDepth a.toJson := by
  have hpackage : ∀ p : Package, Nests 126 p.toJson := fun p => by
    simp only [Package.toJson, nests_object, List.forall_mem_append, forall_mem_ifPresent]
    simp
  have hpayload : ∀ p : Payload, Nests 126 p.toJson := fun p => by
    simp only [Payload.toJson, nests_object, List.forall_mem_append, forall_mem_ifPresent]
    simp
  show Nests 127 a.toJson
  simp only [toJson, nests_object, List.forall_mem_append, forall_mem_ifPresent]
  simpa [hpackage, hpayload] using h.nests

theorem Kept.numbers_toJson {a : Analysis} (h : a.Kept) : Numbers Numeral.ReadsBack a.toJson := by
  have hpackage : ∀ p : Package, Numbers Numeral.ReadsBack p.toJson := fun p => by
    simp only [Package.toJson, numbers_object, List.forall_mem_append, forall_mem_ifPresent]
    simp
  have hpayload : ∀ p, a.payload = some p → Numbers Numeral.ReadsBack p.toJson := fun p hp => by
    simp only [Payload.toJson, numbers_object, List.forall_mem_append, forall_mem_ifPresent]
    simpa using fun n hn => Numeral.readsBack_nat (h.size p hp n hn)
  simp only [toJson, numbers_object, List.forall_mem_append, forall_mem_ifPresent]
  simpa [hpackage] using ⟨fun key v => numbers_object.mp h.numbers (key, v), hpayload⟩

/-- The analysis is read back, from one line and from a report for
programs. -/
def ReadsBack (a : Analysis) : Prop :=
  parse a.toJson.compact = .ok a ∧ ∀ color, parse (Report.ofAnalysis ⟨.json, color⟩ a) = .ok a

/-- **What is kept is read back.** -/
theorem Kept.readsBack {a : Analysis} (h : a.Kept) : a.ReadsBack := by
  have haccept := acceptAt_toJson false h.sorted
  refine ⟨?_, fun color => ?_⟩
  · rw [parse, Schema.parse_compact h.nests_toJson h.numbers_toJson haccept, Except.map,
      ofNormal_normal h.links]
  · have hreport : Report.ofAnalysis ⟨.json, color⟩ a =
        a.toJson.pretty ++ String.ofList ['\n'] := by
      simp [Report.ofAnalysis, Report.print, Report.Line.text?, String.join]
    have hblank : Blanks ['\n'] := by simp [Blanks, isBlank]
    rw [parse, hreport, Schema.parse_pretty h.nests_toJson h.numbers_toJson haccept hblank,
      Except.map, ofNormal_normal h.links]

/-! ## What was read -/

/-- What is there in place of null was read by the form of the field. -/
theorem gives_of_orNull {α : Type} {f : Json → α} {x : α} {form : Schema} {room : Nat} {v : Json}
    (h : Gives ((Schema.optional form).read room) v ∨ Absent.optional.Stands v)
    (hx : v.orNull f = some x) : Gives (form.read room) v ∧ f v = x := by
  have hnull : v ≠ .null := by
    rintro rfl
    cases hx
  refine ⟨?_, ?_⟩
  · rcases h with h | h
    · exact (gives_optional h).resolve_left hnull
    · exact absurd h hnull
  · cases v with
    | null => exact absurd rfl hnull
    | _ => exact Option.some.inj hx

/-- A size that is read is of 64 bits. -/
theorem size_le_of_gives {room n : Nat} {w : Json} (h : Gives (Payload.form.read room) w)
    (hn : (Payload.ofNormal w).size = some n) : n ≤ maxWhole := by
  obtain ⟨_, -, hsize⟩ := gives_field (by decide) h (List.mem_of_getElem? (i := 4) rfl)
  obtain ⟨hgives, rfl⟩ := gives_of_orNull hsize hn
  obtain ⟨k, hk, heq⟩ := gives_natural hgives
  rw [heq]
  exact hk

/-- An analysis that was read is kept if its numbers that are no 64-bit
integers are read back. -/
theorem kept_of_parse {text : String} {a : Analysis} (h : parse text = .ok a)
    (hreal : Numbers Numeral.RealReadsBack (.object a.parameters)) : a.Kept := by
  obtain ⟨w, hw, rfl⟩ := exists_of_map_eq_ok h
  have hgives := gives_of_parse hw
  -- the parameters are a dictionary, and may nest one level less than the record
  obtain ⟨_, hroom, hparameters | habsent⟩ := gives_field (by decide) hgives
    (List.mem_of_getElem? (i := 6) rfl)
  · obtain ⟨ms, heq, hfits⟩ := gives_dictionary hparameters
    have hnormal : Json.object (ofNormal w).parameters = (Json.object ms).sorted := by
      rw [ofNormal, heq, sorted_object]
      rfl
    cases hroom
    have hfits := hnormal ▸ hfits.sorted
    refine ⟨Text.Ordered.increasing_ofList _, ?_, hfits.1,
      hfits.2.combine (fun _ => Numeral.readsBack_of_inRange) hreal, fun p hp n hn => ?_⟩
    · rw [hnormal, sorted_sorted]
    · obtain ⟨_, -, hpayload⟩ := gives_field (by decide) hgives
        (List.mem_of_getElem? (i := 8) rfl)
      obtain ⟨hgives, rfl⟩ := gives_of_orNull hpayload hp
      exact size_le_of_gives hgives hn
  · exact absurd habsent id

/-- An analysis whose parameters are texts is kept. -/
theorem Orderly.kept {a : Analysis} (h : a.Orderly)
    (hsize : ∀ p, a.payload = some p → ∀ n, p.size = some n → n ≤ maxWhole) : a.Kept where
  links := h.links
  sorted := by
    refine sorted_object_of_increasing h.parameters fun m hm => ?_
    obtain ⟨s, hs⟩ := h.texts m hm
    rw [hs]
    rfl
  nests := by
    refine .object fun m hm => ?_
    obtain ⟨s, hs⟩ := h.texts m hm
    exact hs ▸ .text s
  numbers := by
    refine .object fun m hm => ?_
    obtain ⟨s, hs⟩ := h.texts m hm
    exact hs ▸ .text s
  size := hsize

/-- What a text becomes when it is read as an analysis and written again. -/
def reencode (text : String) : Except Fault String :=
  (parse text).map fun a => a.toJson.compact

/-- **The JSON forms of an analysis lose nothing.** Every classification
whose size, if it has one, is of 64 bits is read back from them. So is
every analysis that was read, if those of its numbers that are no 64-bit
integers are read back from their digits; and then to read and write a
second time changes nothing. -/
theorem classified_and_parsed_readBack :
    (∀ (c : Classifier) (command : String),
      (∀ p, (c.classify command).value.payload = some p → ∀ n, p.size = some n → n < 2 ^ 64) →
        (c.classify command).value.ReadsBack) ∧
    ∀ (text : String) (a : Analysis), parse text = .ok a →
      Numbers Numeral.RealReadsBack (.object a.parameters) →
        a.ReadsBack ∧ ∃ line, reencode text = .ok line ∧ reencode line = .ok line := by
  refine ⟨fun c command hsize => ?_, fun text a h hreal => ?_⟩
  · exact ((c.orderly_classify command).kept fun p hp n hn =>
      Nat.le_sub_one_of_lt (hsize p hp n hn)).readsBack
  · have hback := (kept_of_parse h hreal).readsBack
    exact ⟨hback, a.toJson.compact, by rw [reencode, h, Except.map],
      by rw [reencode, hback.1, Except.map]⟩

theorem ok_of_toOption {ε α : Type} {e : Except ε α} {x : α} (h : e.toOption = some x) :
    e = .ok x := by
  cases e with
  | error _ => cases h
  | ok _ => exact congrArg _ (Option.some.inj h)

/-- A classifier that knows curl, where every URL gives a binary file. -/
def binaryCurl : Classifier :=
  ⟨⟨[], []⟩, ⟨⟨fun url => ⟨.ok url, some 0⟩,
    fun _ => ⟨.ok "data:application/octet-stream;base64,QUJDREVG", some 0⟩⟩,
    ⟨1, 0, [.direct], []⟩, 1⟩, [.curl]⟩

/-- An analysis with parameters of all sorts. -/
def sample : Analysis :=
  { new "t" "d" .bash with
    links := ["http://a", "http://b"]
    parameters := [("m", .list [.null, .number (.whole (-7))]),
      ("n", .number (.real ⟨false, ⟨4503599627370496, -53⟩⟩))] }

theorem reals_sample : Numbers Numeral.RealReadsBack (.object sample.parameters) := by
  have hhalf : Numeral.RealReadsBack (.real ⟨false, ⟨4503599627370496, -53⟩⟩) :=
    ok_of_toOption (by decide +kernel)
  refine .object (List.forall_mem_cons.mpr
    ⟨.list ?_, List.forall_mem_singleton.mpr (.number hhalf)⟩)
  exact List.forall_mem_cons.mpr ⟨.null, List.forall_mem_singleton.mpr (.number trivial)⟩

theorem kept_sample : sample.Kept where
  links := List.pairwise_pair.mpr (by decide)
  sorted := rfl
  nests := by
    refine .object (List.forall_mem_cons.mpr ⟨.list ?_, List.forall_mem_singleton.mpr (.number _)⟩)
    exact List.forall_mem_cons.mpr ⟨.null, List.forall_mem_singleton.mpr (.number _)⟩
  numbers := by
    refine (Numbers.object ?_ : Numbers Numeral.InRange (.object sample.parameters)).combine
      (fun _ => Numeral.readsBack_of_inRange) reals_sample
    refine List.forall_mem_cons.mpr ⟨.list ?_, List.forall_mem_singleton.mpr (.number trivial)⟩
    exact List.forall_mem_cons.mpr
      ⟨.null, List.forall_mem_singleton.mpr (.number ⟨by decide, by decide⟩)⟩
  size := nofun

theorem classified_and_parsed_readBack_sample :
    (binaryCurl.classify "curl http://a/b.bin").value.payload.bind (·.size) = some 6 ∧
      (binaryCurl.classify "curl http://a/b.bin").value.ReadsBack ∧
      parse sample.toJson.compact = .ok sample ∧
      reencode sample.toJson.compact = .ok sample.toJson.compact := by
  have hsize : (binaryCurl.classify "curl http://a/b.bin").value.payload.bind (·.size) =
    some 6 := by decide
  have hparse := kept_sample.readsBack.1
  refine ⟨hsize, classified_and_parsed_readBack.1 _ _ fun p hp n hn => ?_, hparse, ?_⟩
  · rw [hp, Option.bind_some, hn] at hsize
    cases hsize
    decide
  · obtain ⟨hback, line, hline, -⟩ := classified_and_parsed_readBack.2 _ _ hparse reals_sample
    rw [reencode, hback.1]
    rfl

/-- A text of an analysis with one parameter, a number. -/
def withNumber (number : String) : String :=
  "\x7b\"type\":\"t\",\"description\":\"d\",\"warnings\":[],\"codeLanguage\":\"bash\"," ++
    "\"urls\":[],\"parameters\":\x7b\"n\":" ++ number ++ "\x7d\x7d"

/-- **A number that is no 64-bit integer may change each time**, as digits
are read without care for the last one. -/
theorem reencode_not_idempotent :
    ∃ line again, reencode (withNumber "94719271504320872445") = .ok line ∧
      reencode line = .ok again ∧ again ≠ line :=
  ⟨withNumber "9.471927150432089e+19", withNumber "9.471927150432087e+19",
    ok_of_toOption (by decide +kernel), ok_of_toOption (by decide +kernel), by decide⟩

end Analysis

end ShellPreview
