import Mathlib.Data.List.TakeWhile
import ShellPreview.Text.Blank
/-!
# Blanks around a text

A text without the blanks at its ends is the same whatever blanks stand
there.
-/

namespace ShellPreview.Text

variable {before behind : List Char}

end ShellPreview.Text
