import ShellPreview.Proofs.Fetch.Attempt
import ShellPreview.Proofs.Json.Grammar
/-!
# Fetching — relays that wrap documents

A relay may answer with a JSON object whose member `contents` is the
document. How the object is written does not matter: the answer comes to
the same as the document itself does from a relay that does not wrap it.
An answer that is no such object is never accepted.
-/

namespace ShellPreview.Fetch

/-- The answer is the text of an object, with no name twice, whose member
`contents` is the document. -/
def Envelope (document answer : String) : Prop :=
  ∃ ms, Json.Writes (.object ms) answer ∧ (ms.map (·.1)).Nodup ∧
    ("contents", .text document) ∈ ms

/-- What a document comes to that is there in time. -/
inductive Fetcher.Weighs (f : Fetcher) (document : String) : Except Error String → Prop
  | blank (hb : ∀ c ∈ document.toList, Text.isBlank c = true) :
      f.Weighs document (.error .empty)
  | short (hb : ∃ c ∈ document.toList, Text.isBlank c = false)
      (hl : document.length ≤ f.settings.leastLength) :
      f.Weighs document (.error (.tooShort document.length f.settings.leastLength))
  | kept (hb : ∃ c ∈ document.toList, Text.isBlank c = false)
      (hl : f.settings.leastLength < document.length) : f.Weighs document (.ok document)

/-! ## What is in an answer -/

section Contents

variable {answer document : String} {v : Json}

/-- What is in an object can be read off the object that is written. -/
theorem contentsOf_of_writes (h : Json.Writes v answer) :
    Route.contentsOf answer =
      match v.get? "contents" with
      | some (.text s) => .ok s
      | _ => .error .missingContents := by
  have hparse : Json.parse answer = .ok v.sorted := Json.parse_eq_ok_iff.mpr ⟨v, h, rfl⟩
  simp only [Route.contentsOf, hparse, Json.get?_sorted]
  -- sorting does not make a text of anything else
  cases v.get? "contents" with
  | none => rfl
  | some w => cases w <;> simp [Json.sorted]

theorem contentsOf_of_text (h : Json.Writes v answer)
    (hs : v.get? "contents" = some (.text document)) : Route.contentsOf answer = .ok document := by
  rw [contentsOf_of_writes h, hs]

theorem contentsOf_of_no_text (h : Json.Writes v answer)
    (hno : ¬∃ s, v.get? "contents" = some (.text s)) :
    Route.contentsOf answer = .error .missingContents := by
  rw [contentsOf_of_writes h]
  split
  · next s hs => exact absurd ⟨s, hs⟩ hno
  · rfl

theorem contentsOf_of_not_writes (h : ∀ v, ¬Json.Writes v answer) :
    ∃ fault, Json.parse answer = .error fault ∧
      Route.contentsOf answer = .error (.invalidJson fault.message) := by
  obtain ⟨fault, hfault⟩ := Json.exists_fault_of_not_writes h
  exact ⟨fault, hfault, by rw [Route.contentsOf, hfault]⟩

/-- **The document is taken out of its envelope**, however that is
written. -/
theorem contentsOf_of_envelope (h : Envelope document answer) :
    Route.contentsOf answer = .ok document := by
  obtain ⟨ms, hwrites, hkeys, hmem⟩ := h
  refine contentsOf_of_text hwrites ?_
  rw [Json.get?, Json.lookup_reverse_of_nodup hkeys]
  exact Json.lookup_of_mem hkeys hmem

end Contents

/-! ## What comes of an answer -/

namespace Fetcher

variable {f : Fetcher} {route : Route} {a : Answer} {content : String} {e : Error}

theorem weighs_accept (f : Fetcher) (document : String) :
    f.Weighs document (f.accept document) := by
  rcases hb : Text.isBlankText document.toList with - | -
  · have hex := isBlankText_eq_false_iff.mp hb
    rcases Nat.lt_or_ge f.settings.leastLength document.length with hl | hl
    · rw [accept_of_long hex hl]
      exact .kept hex hl
    · rw [accept_of_short hex hl]
      exact .short hex hl
  · have hall : ∀ c ∈ document.toList, Text.isBlank c = true := List.all_eq_true.mp hb
    rw [accept_of_blank hall]
    exact .blank hall

/-- Two answers that take the same time come to the same if the same is in
them. -/
theorem judge_congr {route' : Route} {answer answer' : String} {delay : Option Nat}
    (h : route.unwrap answer = route'.unwrap answer') :
    f.judge route ⟨.ok answer, delay⟩ = f.judge route' ⟨.ok answer', delay⟩ := by
  by_cases hin : Answer.ComesWithin ⟨.ok answer, delay⟩ f.timeout
  · -- that an answer comes in time does not depend on what it says
    have hin' : Answer.ComesWithin ⟨.ok answer', delay⟩ f.timeout := hin
    simp only [judge, inTime_eq_reply hin, inTime_eq_reply hin', h]
  · have hin' : ¬Answer.ComesWithin ⟨.ok answer', delay⟩ f.timeout := hin
    simp only [judge, inTime_eq_timeout hin, inTime_eq_timeout hin']

/-- An answer in time that cannot be unwrapped fails for that. -/
theorem judge_of_unwrap_error {answer : String} (hin : a.ComesWithin f.timeout)
    (hreply : a.reply = .ok answer) (h : route.unwrap answer = .error e) :
    f.judge route a = .error e := by
  simp only [judge, inTime_eq_reply hin, hreply, h]

/-- What cannot be unwrapped is not accepted, in time or not. -/
theorem judge_ne_ok_of_unwrap_error {answer : String} (hreply : a.reply = .ok answer)
    (h : route.unwrap answer = .error e) : f.judge route a ≠ .ok content := by
  by_cases hin : a.ComesWithin f.timeout
  · rw [judge_of_unwrap_error hin hreply h]
    intro hjudge
    cases hjudge
  · simp only [judge, inTime_eq_timeout hin]
    intro hjudge
    cases hjudge

end Fetcher

/-- **A relay that wraps documents is transparent.** The text of an object
whose `contents` is a document comes to what the document itself comes to
from a relay that does not wrap it. A text that writes no JSON value is
invalid, one that writes any other value has no document in it, and neither
is ever accepted. -/
theorem relay_transparent (f : Fetcher) (name name' base base' : String)
    (encode encode' : Bool) (answer : String) (delay : Option Nat) :
    (∀ document, Envelope document answer →
      f.judge (.relay name base .jsonContents encode) ⟨.ok answer, delay⟩ =
        f.judge (.relay name' base' .raw encode') ⟨.ok document, delay⟩ ∧
      (Answer.ComesWithin ⟨.ok answer, delay⟩ f.timeout →
        f.Weighs document
          (f.judge (.relay name base .jsonContents encode) ⟨.ok answer, delay⟩))) ∧
    ((∀ v, ¬Json.Writes v answer) →
      (Answer.ComesWithin ⟨.ok answer, delay⟩ f.timeout →
        ∃ fault, Json.parse answer = .error fault ∧
          f.judge (.relay name base .jsonContents encode) ⟨.ok answer, delay⟩ =
            .error (.invalidJson fault.message)) ∧
      ∀ content,
        f.judge (.relay name base .jsonContents encode) ⟨.ok answer, delay⟩ ≠ .ok content) ∧
    (∀ v, Json.Writes v answer → (¬∃ s, v.get? "contents" = some (.text s)) →
      (Answer.ComesWithin ⟨.ok answer, delay⟩ f.timeout →
        f.judge (.relay name base .jsonContents encode) ⟨.ok answer, delay⟩ =
          .error .missingContents) ∧
      ∀ content,
        f.judge (.relay name base .jsonContents encode) ⟨.ok answer, delay⟩ ≠ .ok content) := by
  refine ⟨fun document h => ?_, fun hno => ?_, fun v hv hno => ?_⟩
  · have hcontents := contentsOf_of_envelope h
    refine ⟨Fetcher.judge_congr hcontents, fun hin => ?_⟩
    have hjudge : f.judge (.relay name base .jsonContents encode) ⟨.ok answer, delay⟩ =
        f.accept document := by
      simp only [Fetcher.judge, Fetcher.inTime_eq_reply hin, Route.unwrap, hcontents]
    rw [hjudge]
    exact f.weighs_accept document
  · obtain ⟨fault, hfault, hcontents⟩ := contentsOf_of_not_writes hno
    exact ⟨fun hin => ⟨fault, hfault, Fetcher.judge_of_unwrap_error hin rfl hcontents⟩,
      fun _ => Fetcher.judge_ne_ok_of_unwrap_error rfl hcontents⟩
  · have hcontents := contentsOf_of_no_text hv hno
    exact ⟨fun hin => Fetcher.judge_of_unwrap_error hin rfl hcontents,
      fun _ => Fetcher.judge_ne_ok_of_unwrap_error rfl hcontents⟩

/-- An object on two lines, with another member and with escaped letters in
the name and in the document. -/
theorem envelope_escaped :
    Envelope "hi" "\x7b \"n\": null,\n\"\\u0063ontents\": \"\\u0068i\" \x7d" := by
  have hspace : Json.Blanks [' '] := List.forall_mem_cons.mpr ⟨rfl, nofun⟩
  have hkey : Json.Escapes "contents".toList "\\u0063ontents".toList :=
    .number (show Json.fourHex '0' '0' '6' '3' = some 0x63 from rfl) rfl rfl
      (Json.Escapes.escapes_escape "ontents".toList)
  have hdocument : Json.Escapes "hi".toList "\\u0068i".toList :=
    .number (show Json.fourHex '0' '0' '6' '8' = some 0x68 from rfl) rfl rfl
      (Json.Escapes.escapes_escape "i".toList)
  have hclose : Json.SpellsMembers false [] ([' '] ++ ['\x7d']) := .close hspace
  have hsecond := Json.SpellsMembers.member (.later Json.blanks_nil (Json.blanks_newLine 0)) hkey
    Json.blanks_nil hspace (.text hdocument) hclose
  have hmembers := Json.SpellsMembers.member (.first hspace) (Json.Escapes.escapes_escape ['n'])
    Json.blanks_nil hspace .null hsecond
  refine ⟨_, ⟨?_, [], _, [], Json.blanks_nil, .object hmembers, Json.blanks_nil, ?_⟩, ?_, ?_⟩
  · exact .object (List.forall_mem_cons.mpr ⟨.null, List.forall_mem_cons.mpr ⟨.text _, nofun⟩⟩)
  · decide
  · decide
  · exact List.mem_cons_of_mem _ List.mem_cons_self

/-- That object, the beginning of an object, and a list. -/
theorem relay_transparent_samples :
    Fetcher.judge ⟨.offline, .default, 0⟩ (.relay "a" "" .jsonContents true)
        ⟨.ok "\x7b \"n\": null,\n\"\\u0063ontents\": \"\\u0068i\" \x7d", some 0⟩ =
      .error (.tooShort 2 100) ∧
    (∃ m, Fetcher.judge ⟨.offline, .default, 0⟩ (.relay "a" "" .jsonContents true)
        ⟨.ok "\x7b", some 0⟩ = .error (.invalidJson m)) ∧
    Fetcher.judge ⟨.offline, .default, 0⟩ (.relay "a" "" .jsonContents true)
        ⟨.ok "[]", some 0⟩ = .error .missingContents := by
  have hrelay := relay_transparent ⟨.offline, .default, 0⟩ "a" "b" "" "" true false
  have hin : ∀ answer : String, Answer.ComesWithin ⟨.ok answer, some 0⟩ 0 :=
    fun _ => ⟨0, rfl, Nat.le_refl 0⟩
  refine ⟨?_, ?_, ?_⟩
  · rw [((hrelay _ (some 0)).1 "hi" envelope_escaped).1]
    decide
  · have hno : ∀ v, ¬Json.Writes v "\x7b" := by
      intro v hv
      have hparse := Json.parse_eq_ok_iff.mpr ⟨v, hv, rfl⟩
      cases hparse
    obtain ⟨fault, -, hfault⟩ := ((hrelay _ (some 0)).2.1 hno).1 (hin _)
    exact ⟨_, hfault⟩
  · have hlist : Json.Writes (.list []) "[]" :=
      ⟨.list nofun, [], _, [], Json.blanks_nil, .list (.close Json.blanks_nil), Json.blanks_nil,
        rfl⟩
    exact ((hrelay _ (some 0)).2.2 _ hlist (by simp [Json.get?])).1 (hin _)

end ShellPreview.Fetch
