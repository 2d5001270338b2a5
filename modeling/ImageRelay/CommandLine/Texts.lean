import ImageRelay.CommandLine.Arguments

/-!
# Texts of the command line

The version, and the texts that the parser of command lines writes, which are left to it.
-/

set_option autoImplicit false

namespace ImageRelay.CommandLine

/-- The name of the program. -/
def programName : String := "conformance-images"

/-- The line that tells the version. -/
def versionLine : String := programName ++ " 0.3.2"

/-- What the version command prints. -/
def versionLines : List String := [versionLine, "Kubernetes e2e conformance image manager"]

/-- What the parser of command lines writes itself: the help, what it tells about a malformed
command line, and the completions for a shell. All that is said of them here is how the program is
called. -/
structure ParserTexts where
  help : String := s!"Usage: {programName} [OPTIONS] <COMMAND>\n"
  usage : String := s!"Usage: {programName} [OPTIONS] <COMMAND>\n"
  completion : String → String := fun _ => s!"{programName}\n"

end ImageRelay.CommandLine
