import ShellPreview.Language
/-!
# Cautions

Everything that the program warns of. A caution is one of a closed list;
its text never depends on a command, on a configuration or on something
that was downloaded.
-/

namespace ShellPreview

/-- A format of files that is known by how its files begin. -/
inductive FileFormat
  | zip
  | rar
  | elf
  | pdf
deriving DecidableEq

/-- The extension of files of the format. -/
def FileFormat.extension : FileFormat → String
  | .zip => ".zip"
  | .rar => ".rar"
  | .elf => ".bin"
  | .pdf => ".pdf"

/-- Something to be warned of. -/
inductive Caution
  /-- The command installs software. -/
  | installs
  /-- The command installs for all users. -/
  | installsGlobally
  /-- The command runs code that is written in it. -/
  | runsInlineCode
  /-- The code in the command uses the network. -/
  | usesNetwork
  /-- The download does not check whom it talks to. -/
  | ignoresCertificates
  /-- What is downloaded goes to a shell. -/
  | runsDownloadedCode
  /-- The file that is downloaded goes to a shell. -/
  | runsDownloadedFile
  /-- What is downloaded is evaluated. -/
  | evaluatesDownloadedCode
  /-- What would be downloaded and run is not known. -/
  | runsRemoteCode
  /-- Nothing could be downloaded. -/
  | notDownloaded
  /-- The download is a shell script. -/
  | holdsBash
  /-- The download has marks of PowerShell. -/
  | holdsPowerShell
  /-- The download has marks of Python. -/
  | holdsPython
  /-- The download is binary data, written as text. -/
  | encodedBinary
  /-- The download is a program for Windows. -/
  | windowsProgram
  /-- The download is a file of a known format. -/
  | fileOf (format : FileFormat)
  /-- The download has too many control characters. -/
  | looksBinary
  /-- The command may destroy data. -/
  | destructive
  /-- The command needs or changes permissions. -/
  | privileged
deriving DecidableEq

/-- The wording of a caution. -/
def Caution.text : Caution → String
  | .installs => "This command will install software on your system"
  | .installsGlobally => "Global package installation"
  | .runsInlineCode => "This command executes inline code"
  | .usesNetwork => "Python code makes network requests"
  | .ignoresCertificates => "Command ignores SSL certificate verification"
  | .runsDownloadedCode => "DANGER: Command will automatically execute the downloaded code!"
  | .runsDownloadedFile => "DANGER: Command will automatically execute the downloaded file!"
  | .evaluatesDownloadedCode =>
    "WARNING: The command will automatically execute the downloaded code!"
  | .runsRemoteCode => "Command would download and execute remote code - exercise extreme caution!"
  | .notDownloaded => "Unable to download content for preview"
  | .holdsBash => "Content is a bash script that would be executed"
  | .holdsPowerShell => "Content contains PowerShell code"
  | .holdsPython => "Content contains Python code"
  | .encodedBinary => "This is a binary file, not a script"
  | .windowsProgram => "This is a Windows executable file"
  | .fileOf format => "This is a " ++ format.extension ++ " file, not a script"
  | .looksBinary => "This appears to be a binary file based on content analysis"
  | .destructive => "DANGER: Command might delete files or format disks!"
  | .privileged => "Command requires elevated permissions or modifies file permissions"

/-- What a downloaded script is warned of for its language. -/
def Caution.ofScript (code : String) : Option Caution :=
  if Text.holds code "#!/bin/bash" || Text.holds code "#!/bin/sh" then some .holdsBash
  else if Text.holds code "function " || Text.holds code "$" || Text.holds code "param(" then
    some .holdsPowerShell
  else if Text.holds code "python" || Text.holds code "import " then some .holdsPython
  else none

end ShellPreview
