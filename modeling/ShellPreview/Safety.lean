import ShellPreview.Caution
/-!
# Cautions for every command

Two cautions are given for any command, whatever family it belongs to:
that it may destroy data and that it is about permissions. Both are read
off fixed pieces of text in the command.
-/

namespace ShellPreview.Safety

/-- Pieces of text of commands that may destroy data. -/
def destructiveMarkers : List String := ["rm -rf", "del /f", "format"]

/-- Pieces of text of commands that need or change permissions. -/
def privilegeMarkers : List String := ["chmod +x", "sudo"]

/-- The cautions for any command, the destructive one first. -/
def cautions (command : String) : List Caution :=
  (if destructiveMarkers.any (Text.holds command) then [.destructive] else []) ++
    (if privilegeMarkers.any (Text.holds command) then [.privileged] else [])

end ShellPreview.Safety
