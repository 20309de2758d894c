import ShellPreview.Caution
import ShellPreview.Number.Binary64
import ShellPreview.Url
/-!
# What kind of data a download is

A download arrives as text, but it may be a binary file all the same. It
is taken for one if it is written as a data URL, if it begins like a file
of a known format, or if it is long and more than three tenths of its
characters are control characters. `Payload.ofContent` gives what is known
about it then.
-/

namespace ShellPreview

/-- What is known about a download. -/
structure Payload where
  isBinary : Bool
  mimeType : Option String
  extension : Option String
  fileName : Option String
  size : Option Nat
  warning : Option String
deriving DecidableEq

/-- How files of the format begin. -/
def FileFormat.signature : FileFormat → String
  | .zip => "PK"
  | .rar => "Rar!"
  | .elf => "\x7fELF"
  | .pdf => "%PDF"

/-- The type that the format is known by. -/
def FileFormat.mimeType : FileFormat → String
  | .zip => "application/zip"
  | .rar => "application/x-rar-compressed"
  | .elf => "application/x-executable"
  | .pdf => "application/pdf"

/-- The formats, in the order in which they are tried. -/
def FileFormat.all : List FileFormat := [.zip, .rar, .elf, .pdf]

/-- The format of a file that begins like the text. -/
def FileFormat.ofContent (content : String) : Option FileFormat :=
  FileFormat.all.find? fun format => Text.begins content format.signature

namespace Payload

/-- A download that is text. -/
def plain : Payload := ⟨false, none, none, none, none, none⟩

/-- How binary data begins that is written as a data URL. -/
def dataMarker : String := "data:application/octet-stream;base64,"

/-- Three tenths, as near as a double-precision number comes to it. -/
def threeTenths : Number.Magnitude := ⟨5404319552844595, -54⟩

/-- A control character that does not belong in text. -/
def isControl (c : Char) : Bool :=
  c.toNat < 32 && c != '\t' && c != '\n' && c != '\r'

/-- Whether one number is more than three tenths of the other. -/
def exceedsRatio (part whole : Nat) : Bool :=
  match Number.Magnitude.ofRatio part whole with
  | none => true
  | some ratio => Number.Magnitude.lt threeTenths ratio

/-- Whether a text is long and has too many control characters. -/
def looksBinary (cs : List Char) : Bool :=
  100 < cs.length && exceedsRatio (cs.countP isControl) cs.length

/-- The caution with which a download is taken for a binary file. -/
def cautionOf (content : String) : Option Caution :=
  if Text.begins content dataMarker then some .encodedBinary
  else if Text.begins content "MZ" then some .windowsProgram
  else
    match FileFormat.ofContent content with
    | some format => some (.fileOf format)
    | none => if looksBinary content.toList then some .looksBinary else none

/-- The size of the data that so many characters of base 64 stand for. -/
def decodedSize (length : Nat) : Nat :=
  3 * length / 4

/-- What is known about a binary file for which there is the caution. -/
def ofCaution (content : String) (source : Option String) (caution : Caution) : Payload :=
  let name := source.bind Url.fileName
  let mimeType :=
    match caution with
    | .fileOf format => format.mimeType
    | .windowsProgram => "application/x-msdownload"
    | _ => "application/octet-stream"
  let extension :=
    match caution with
    | .fileOf format => some format.extension
    | .windowsProgram => some ".exe"
    | _ => source.bind Url.fileExtension
  let size :=
    match caution with
    | .encodedBinary =>
      some (decodedSize (Text.byteLength (content.toList.drop dataMarker.length)))
    | _ => none
  ⟨true, some mimeType, extension, name, size, some caution.text⟩

/-- What is known about a download from a source. -/
def ofContent (content : String) (source : Option String) : Payload :=
  match cautionOf content with
  | none => plain
  | some caution => ofCaution content source caution

end Payload

end ShellPreview
