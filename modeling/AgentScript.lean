import AgentScript.Main
import AgentScript.Proofs.Reading.Canonical
import AgentScript.Proofs.Reading.Chain
import AgentScript.Proofs.Reading.Preservation
import AgentScript.Proofs.Reading.Concatenation
import AgentScript.Proofs.Reading.Recovery
import AgentScript.Proofs.Reading.Resumption
import AgentScript.Proofs.Scan.Partition
import AgentScript.Scan.Scanner
import AgentScript.Proofs.Reading.Nesting
import AgentScript.Proofs.Reading.Counter
import AgentScript.Proofs.Reading.Layout
import AgentScript.Proofs.Reading.Accepted
import AgentScript.Proofs.Reading.Lexical
import AgentScript.Proofs.Reading.Caret
import AgentScript.Proofs.Tree.Tokens
import AgentScript.Proofs.Reading.SourceOrder
import AgentScript.Proofs.Reading.Separation
import AgentScript.Proofs.Scan.Literal
import AgentScript.Proofs.Reading.NestingLimit
import AgentScript.Proofs.Reading.Chronology
import AgentScript.Proofs.Reading.Consumption
import AgentScript.Proofs.Reading.RepeatedKeys
import AgentScript.Proofs.Text.Dedent
import AgentScript.Proofs.Scan.Pieces
import AgentScript.Proofs.Reading.Names
import AgentScript.Proofs.Reading.Numbers
import AgentScript.Proofs.Reading.Output
import AgentScript.Proofs.Reading.Distinction
import AgentScript.Proofs.Reading.Window
import AgentScript.Proofs.Reading.Restoration
