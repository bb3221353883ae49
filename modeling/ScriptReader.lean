import ScriptReader.Main
import ScriptReader.Command.Folder
import ScriptReader.Session
import ScriptReader.Source.Cursor
import ScriptReader.Trace
import ScriptReader.Proofs.Headway
import ScriptReader.Proofs.Forms
import ScriptReader.Proofs.Language
import ScriptReader.Proofs.Precedence
import ScriptReader.Proofs.Grammar
import ScriptReader.Proofs.Operands
import ScriptReader.Proofs.Soundness
import ScriptReader.Proofs.Completeness
import ScriptReader.Proofs.Acceptance
import ScriptReader.Proofs.Printing
import ScriptReader.Proofs.Rereading
import ScriptReader.Proofs.RoundTrip
import ScriptReader.Proofs.Layout
import ScriptReader.Proofs.Respelling
import ScriptReader.Proofs.Misspelling
import ScriptReader.Proofs.Blame
import ScriptReader.Proofs.LineBreaks
import ScriptReader.Proofs.Lookahead
import ScriptReader.Proofs.Composition
import ScriptReader.Proofs.Parentheses
import ScriptReader.Proofs.Completing
import ScriptReader.Proofs.Keeping
import ScriptReader.Proofs.Invariants
import ScriptReader.Proofs.InfixRules
import ScriptReader.Proofs.Numerals
import ScriptReader.Proofs.Sessions
import ScriptReader.Proofs.Consulting
import ScriptReader.Proofs.StreamEnd
import ScriptReader.Proofs.Carets
import ScriptReader.Proofs.Excerpts
import ScriptReader.Proofs.LineIndex
import ScriptReader.Proofs.LongestMatch
import ScriptReader.Proofs.Tracing
import ScriptReader.Proofs.Chains
import ScriptReader.Proofs.CommaLists
import ScriptReader.Proofs.Returning
import ScriptReader.Proofs.LeastPower
import ScriptReader.Proofs.ListMarks
import ScriptReader.Proofs.Boundaries
