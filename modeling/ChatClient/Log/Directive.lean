/-!
# The filter for log lines

The filter names the parts of the program whose lines are shown, each with the least severity. The
program's own parts are named first, then the binary, whose hyphens become underscores.
-/

namespace ChatClient.Log

/-- The parts of the program that write log lines. -/
def targets : List String := ["roomlink_client", "roomlink_shared"]

/-- The name of a binary as a target of log lines. -/
def targetOfBinary (binary : String) : String :=
  binary.map fun c => if c = '-' then '_' else c

/-- The filter that shows lines of at least the given level. -/
def defaultDirective (binary level : String) : String :=
  String.intercalate "," ((targets ++ [targetOfBinary binary]).map fun target =>
    target ++ "=" ++ level)

end ChatClient.Log
