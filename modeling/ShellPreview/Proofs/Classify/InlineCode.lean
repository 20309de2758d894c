import ShellPreview.Proofs.Classify.Family
import ShellPreview.Proofs.Command.Inline
import ShellPreview.Registry.Default
/-!
# Classifying — Python code in a command

Python code in a command is told of by the tool that runs it, or by the
family that catches what is left of Python. The tool is tried first and
keeps the other from its turn; but both go by the same rule, and what the
tool adds is the warning that code is run and, if no code is found, the
command in its place.
-/

namespace ShellPreview

namespace Family

variable {registry : Registry} {fetcher : Fetch.Fetcher} {command : String} {t : Tool}
variable {tool inline : Analysis}

/-- What is told of Python code in a command, by the tool that runs it and
without the tool. -/
structure InlineTwins (command : String) (tool inline : Analysis) : Prop where
  tool_language : tool.language = .python
  inline_language : inline.language = .python
  links : tool.links = inline.links
  warnings : tool.warnings = Caution.runsInlineCode.text :: inline.warnings
  /-- Both show the code that is given, -/
  code : ∀ code, Command.FirstCode code.toList command.toList →
    tool.code = some code ∧ inline.code = some code ∧ tool.links = Link.ofDocument code
  /-- and if none is given the tool shows the command. -/
  no_code : (∀ code : String, ¬Command.FirstCode code.toList command.toList) →
    tool.code = some command ∧ inline.code = none ∧ tool.links = []

/-- A command that a tool for Python serves names Python. -/
theorem holds_python_of_serves (ht : t.serves command = true) (hp : t.isPython = true) :
    Text.holds command "python" = true := by
  have hword : "python".toList <:+: t.token.toList := by
    rcases Bool.or_eq_true_iff.mp hp with htoken | htoken
    · simp [beq_iff_eq.mp htoken]
    · rw [beq_iff_eq.mp htoken]
      decide
  have htoken : t.token.toList <:+: command.toList := by
    rcases Bool.or_eq_true_iff.mp ht with hsame | hfront
    · simp [beq_iff_eq.mp hsame]
    · have hprefix := Text.begins_iff.mp hfront
      rw [String.toList_append] at hprefix
      exact ((List.prefix_append _ _).trans hprefix).isInfix
  exact Text.holds_iff.mpr (hword.trans htoken)

/-- **A tool for Python and the family for Python tell the same of code.** -/
theorem inlineTwins_ofTool (hp : t.isPython = true) (hc : Text.holds command "-c" = true) :
    InlineTwins command (ofTool t command) (ofInlinePython command) := by
  rcases hi : Command.inlineCode command with - | found
  · have hno := Command.inlineCode_eq_none_iff.mp hi
    simp only [ofTool, ofInlinePython, hc, hp, hi, if_true, Bool.true_and]
    exact {
      tool_language := rfl
      inline_language := rfl
      links := rfl
      warnings := rfl
      code := fun code hcode => absurd hcode (hno code)
      no_code := fun _ => ⟨rfl, rfl, rfl⟩ }
  · have hfound := Command.inlineCode_eq_some_iff.mp hi
    simp only [ofTool, ofInlinePython, hc, hp, hi, if_true, Bool.true_and]
    exact {
      tool_language := rfl
      inline_language := rfl
      links := rfl
      warnings := rfl
      code := fun code hcode => by
        have hsame := hi.symm.trans (Command.inlineCode_eq_some_iff.mpr hcode)
        obtain rfl := Option.some.inj hsame
        exact ⟨rfl, rfl, rfl⟩
      no_code := fun hno => absurd hfound (hno found) }

/-- **The two ways to Python code follow one rule.** If the tool of a
command with `-c` is for Python, the family for Python code knows the
command as well and tells what the tool tells, but for the warning that
code is run. The links are those of the code that is given; if there is
none, there are no links, and only the tool shows the command. -/
theorem inline_python_follows_tool (registry : Registry) (fetcher : Fetch.Fetcher)
    (command : String) (t : Tool) (ht : registry.toolFor command = some t)
    (hp : t.token = "python" ∨ t.token = "python3") (hc : "-c".toList <:+: command.toList) :
    ∃ tool inline,
      (programmingTool.recognize registry fetcher command).value = some tool ∧
        (pythonInline.recognize registry fetcher command).value = some inline ∧
        InlineTwins command tool inline := by
  have hpython : t.isPython = true := by
    rw [Tool.isPython, Bool.or_eq_true, beq_iff_eq, beq_iff_eq]
    exact hp
  have hserves : t.serves command = true := by
    have hfind := ht
    rw [Registry.toolFor, List.find?_eq_some_iff_append] at hfind
    exact hfind.1
  have hholds := Text.holds_iff.mpr hc
  have htool : Tells registry fetcher command .programmingTool (pure (ofTool t command)) :=
    .tool ht
  have hinline : Tells registry fetcher command .pythonInline (pure (ofInlinePython command)) :=
    .inline (holds_python_of_serves hserves hpython) hholds
  refine ⟨ofTool t command, ofInlinePython command, ?_, ?_, inlineTwins_ofTool hpython hholds⟩
  · rw [htool.recognize_eq.1, Fetch.Traced.value_pure]
  · rw [hinline.recognize_eq.1, Fetch.Traced.value_pure]

/-- The tools for Python, without a network. -/
def pythonTools : Registry × Fetch.Fetcher :=
  ⟨⟨[], Registry.defaultTools⟩, ⟨.offline, .default, 0⟩⟩

/-- They run code between quotes, and other code. -/
theorem inline_python_follows_tool_samples :
    (∃ tool inline,
        (programmingTool.recognize pythonTools.1 pythonTools.2
            "python3 -c 'import requests'").value = some tool ∧
          (pythonInline.recognize pythonTools.1 pythonTools.2
            "python3 -c 'import requests'").value = some inline ∧
          InlineTwins "python3 -c 'import requests'" tool inline) ∧
      ∃ tool inline,
        (programmingTool.recognize pythonTools.1 pythonTools.2 "python -c 1").value = some tool ∧
          (pythonInline.recognize pythonTools.1 pythonTools.2 "python -c 1").value = some inline ∧
          InlineTwins "python -c 1" tool inline := by
  constructor
  · have hc := Text.holds_iff.mp (by decide : Text.holds "python3 -c 'import requests'" "-c" = true)
    exact inline_python_follows_tool _ _ _ Registry.defaultTools[1] (by decide) (.inr rfl) hc
  · have hc := Text.holds_iff.mp (by decide : Text.holds "python -c 1" "-c" = true)
    exact inline_python_follows_tool _ _ _ Registry.defaultTools[0] (by decide) (.inl rfl) hc

end Family

end ShellPreview
