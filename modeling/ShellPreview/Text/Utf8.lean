/-!
# Texts as bytes

A file or an input stream is a sequence of bytes. `decode` reads it as
UTF-8 and refuses any other sequence; `byteLength` is the length a text
has when written so.
-/

namespace ShellPreview.Text

/-- The number of bytes of the characters in UTF-8. -/
def byteLength : List Char → Nat
  | [] => 0
  | c :: cs => c.utf8Size + byteLength cs

/-- It is the number of bytes of the text. -/
theorem byteLength_toList (s : String) : byteLength s.toList = s.utf8ByteSize := by
  have hlist : ∀ cs, (String.ofList cs).utf8ByteSize = byteLength cs := by
    intro cs
    induction cs with
    | nil => rfl
    | cons c cs ih =>
      have hsplit : String.ofList (c :: cs) = String.singleton c ++ String.ofList cs := by
        rw [String.singleton_eq_ofList, ← String.ofList_append, List.singleton_append]
      rw [hsplit, String.utf8ByteSize_append, String.utf8ByteSize_singleton, ih, byteLength]
  rw [← hlist, String.ofList_toList]

/-- The text that the bytes spell in UTF-8, if they do. -/
def decode (bytes : ByteArray) : Option String :=
  String.fromUTF8? bytes

end ShellPreview.Text
