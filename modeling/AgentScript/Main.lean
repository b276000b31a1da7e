import AgentScript.Command

/-!
Contract: the command line program.

Owns: its arguments, reading the script from its file, and printing what `AgentScript.Command`
decides.
-/

set_option autoImplicit false

namespace AgentScript.Command

/-- Shown when the arguments do not name one script. -/
def usage : String := "usage: agentscript FILE [--tokens] [--quiet|-q]\n"

/-- The options given by command line arguments: one file, and flags in any place. -/
def Options.ofArguments? (arguments : List String) : Option Options :=
  let isFlag := fun argument : String =>
    argument = "--tokens" || argument = "--quiet" || argument = "-q"
  match arguments.filter fun argument => !isFlag argument with
  | [file] =>
      if file.startsWith "-" then none
      else some
        { file
          tokens := arguments.contains "--tokens"
          quiet := arguments.contains "--quiet" || arguments.contains "-q" }
  | _ => none

/-- The bytes of a script, or why there are none. -/
def readScript (file : String) : IO (Except ReadFailure ByteArray) := do
  try
    return .ok (← IO.FS.readBinFile file)
  catch
    | .noFileOrDirectory .. => return .error .missing
    | failure => return .error (.other (toString failure))

end AgentScript.Command

/-- Runs the command. -/
def main (arguments : List String) : IO UInt32 := do
  match AgentScript.Command.Options.ofArguments? arguments with
  | none =>
      IO.eprint AgentScript.Command.usage
      return 2
  | some options =>
      let outcome := AgentScript.Command.run options (← AgentScript.Command.readScript options.file)
      IO.print outcome.stdout
      IO.eprint outcome.stderr
      return outcome.status.toUInt32
