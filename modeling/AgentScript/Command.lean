import AgentScript.Diagnostic.Excerpt
import AgentScript.Grammar.Program
import AgentScript.Tree.Text

/-!
Contract: what the command prints and how it exits.

Owns: what it is asked to do, the reading of a script's bytes as text, the two listings it can
print, its report of diagnostics, and its exit status: 0 for a clean script, 1 for one with
diagnostics, 2 for one that cannot be read, and 101 where it stops because the excerpt of a diagnostic
cannot be drawn.

Does not own: arguments, files and streams, and the message that the runtime leaves where the command
stops.
-/

set_option autoImplicit false

namespace AgentScript.Command

/-- What the command is asked to do. -/
structure Options where
  /-- The script, as the user names it. -/
  file : String
  /-- List the tokens instead of the program. -/
  tokens : Bool
  /-- Report diagnostics only. -/
  quiet : Bool
deriving DecidableEq, Repr

/-- Why a script cannot be read. -/
inductive ReadFailure where
  | missing
  | invalidText
  | other (reason : String)
deriving DecidableEq, Repr

def ReadFailure.text : ReadFailure → String
  | missing => "No such file or directory (os error 2)"
  | invalidText => "stream did not contain valid UTF-8"
  | other reason => reason

/-- What the command printed and how it exited. -/
structure Outcome where
  status : Nat
  stdout : String
  stderr : String
deriving DecidableEq, Repr

/-- The last component of a path, or the whole path if that names no file. -/
def fileName (path : String) : String :=
  match (path.splitOn "/").filter fun component => component ≠ "" && component ≠ "." with
  | [] => path
  | components => match components.getLast? with
    | some last => if last = ".." then path else last
    | none => path

/-- Texts, each on lines of its own. -/
def linesOf (texts : List String) : String := joined "" (texts.map fun text => text ++ "\n")

/-- The excerpts of diagnostics with an empty line after each, up to the first that cannot be drawn;
and whether these are all. -/
def excerpts (source name : String) : List Diagnostic → String × Bool
  | [] => ("", true)
  | diagnostic :: rest =>
      match diagnostic.excerpt? source name with
      | none => ("", false)
      | some excerpt =>
          let (further, complete) := excerpts source name rest
          (excerpt ++ "\n\n" ++ further, complete)

/-- The outcome of reporting a sink: the excerpts of its diagnostics and their number, unless the
command stops at an excerpt. -/
def report (sink : Sink) (listing source name : String) : Outcome :=
  let (shown, complete) := excerpts source name sink.entries
  if complete then ⟨1, listing, shown ++ toString sink.size ++ " error(s) in " ++ name ++ "\n"⟩
  else ⟨101, listing, shown⟩

/-- The outcome for a script that was read: its listing, and a report if anything is wrong. -/
def outcome (sink : Sink) (listing source name : String) : Outcome :=
  if sink.isEmpty then ⟨0, listing, ""⟩ else report sink listing source name

/-- The command on a script's text. The canonical program is listed only if nothing is wrong. -/
def runText (options : Options) (source : String) : Outcome :=
  let name := fileName options.file
  if options.tokens then
    let (tokens, sink) := tokenize source
    outcome sink (if options.quiet then "" else linesOf (tokens.map Token.listing)) source name
  else
    let (program, sink) := parse source
    outcome sink (if options.quiet || !sink.isEmpty then "" else linesOf [program.text]) source name

/-- The command on what was found under the name of the script. -/
def run (options : Options) (script : Except ReadFailure ByteArray) : Outcome :=
  let unreadable := fun failure : ReadFailure =>
    (⟨2, "", "error: cannot read " ++ options.file ++ ": " ++ failure.text ++ "\n"⟩ : Outcome)
  match script with
  | .error failure => unreadable failure
  | .ok bytes => match String.fromUTF8? bytes with
    | none => unreadable .invalidText
    | some source => runText options source

end AgentScript.Command
