import AgentScript.Diagnostic.Fault

/-!
Contract: diagnostics and the ordered collection that gathers them.

Owns: a fault at a place, its full text, and the sink, which keeps diagnostics in the order they
come and keeps each text once.
-/

set_option autoImplicit false

namespace AgentScript

/-- A fault and the place it is reported at. -/
structure Diagnostic where
  fault : Fault
  position : Position
deriving DecidableEq, Repr

namespace Diagnostic

/-- The full text. An unterminated literal already names its place. -/
def text (diagnostic : Diagnostic) : String :=
  if diagnostic.fault.isLexical then diagnostic.fault.message
  else diagnostic.fault.message ++ " at " ++ diagnostic.position.text

end Diagnostic

/-- Diagnostics in the order they were recorded, no two with the same text. -/
structure Sink where
  entries : List Diagnostic
deriving DecidableEq, Repr

namespace Sink

def empty : Sink := ⟨[]⟩

/-- Whether a diagnostic with the same text is recorded already. -/
def holds (sink : Sink) (diagnostic : Diagnostic) : Bool :=
  sink.entries.any fun entry => entry.text = diagnostic.text

/-- Records a diagnostic, unless its text is recorded already. -/
def push (sink : Sink) (diagnostic : Diagnostic) : Sink :=
  if sink.holds diagnostic then sink else ⟨sink.entries ++ [diagnostic]⟩

/-- Records a diagnostic, and tells whether it was recorded. -/
def record (sink : Sink) (diagnostic : Diagnostic) : Bool × Sink :=
  (!sink.holds diagnostic, sink.push diagnostic)

/-- Records a diagnostic if there is one. -/
def pushOption (sink : Sink) : Option Diagnostic → Sink
  | none => sink
  | some diagnostic => sink.push diagnostic

/-- Records diagnostics one after the other. -/
def pushAll (sink : Sink) (diagnostics : List Diagnostic) : Sink :=
  diagnostics.foldl push sink

def isEmpty (sink : Sink) : Bool := sink.entries.isEmpty

def size (sink : Sink) : Nat := sink.entries.length

/-- The texts of the diagnostics, in order. -/
def texts (sink : Sink) : List String := sink.entries.map Diagnostic.text

end Sink

end AgentScript
