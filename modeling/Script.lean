import Script.Command
import Script.Command.Arguments
import Script.Data
import Script.Dialogue
import Script.Eval
import Script.Fault
import Script.Main
import Script.Number
import Script.Number.Decimal
import Script.Number.Layout
import Script.Number.Numeral
import Script.Parse
import Script.Parse.Expression
import Script.Parse.Statement
import Script.Proofs.Command
import Script.Proofs.Compile.Order
import Script.Proofs.Dialogue
import Script.Proofs.Dialogue.Chunk
import Script.Proofs.Dialogue.Refinement
import Script.Proofs.Eval.Accesses
import Script.Proofs.Eval.Bounds
import Script.Proofs.Eval.Comparison
import Script.Proofs.Eval.Confinement
import Script.Proofs.Eval.Deeds
import Script.Proofs.Eval.Deques
import Script.Proofs.Eval.Footprint
import Script.Proofs.Eval.Iteration
import Script.Proofs.Eval.Licence
import Script.Proofs.Eval.Members
import Script.Proofs.Eval.Mirror
import Script.Proofs.Eval.Purity
import Script.Proofs.Eval.Repetition
import Script.Proofs.Eval.Rewriting
import Script.Proofs.Eval.Scoping
import Script.Proofs.Eval.Signals
import Script.Proofs.Eval.Wholeness
import Script.Proofs.Grammar
import Script.Proofs.Grammar.Ending
import Script.Proofs.Grammar.Reading
import Script.Proofs.Grammar.Shape
import Script.Proofs.Grammar.Statement
import Script.Proofs.Key
import Script.Proofs.Key.Number
import Script.Proofs.Leniency
import Script.Proofs.Number.Display
import Script.Proofs.Number.Rounding
import Script.Proofs.Number.Shortest
import Script.Proofs.Number.Text
import Script.Proofs.Number.Whole
import Script.Proofs.Number.Word
import Script.Proofs.Parse.Agreement
import Script.Proofs.Parse.Agreement.Expression
import Script.Proofs.Parse.Agreement.Statement
import Script.Proofs.Parse.Cursor
import Script.Proofs.Parse.Expression.Completeness
import Script.Proofs.Parse.Expression.Soundness
import Script.Proofs.Parse.Joining
import Script.Proofs.Parse.Lookahead
import Script.Proofs.Parse.OnePass
import Script.Proofs.Parse.Positions
import Script.Proofs.Parse.Program
import Script.Proofs.Parse.Progress
import Script.Proofs.Parse.Statement.Completeness
import Script.Proofs.Parse.Statement.Soundness
import Script.Proofs.Parse.Text
import Script.Proofs.Parse.Window
import Script.Proofs.Print
import Script.Proofs.Print.Compile
import Script.Proofs.Print.Grammar
import Script.Proofs.Print.Legible
import Script.Proofs.Renaming
import Script.Proofs.Renaming.Eval
import Script.Proofs.Renaming.Output
import Script.Proofs.Renaming.Run
import Script.Proofs.Renaming.Store
import Script.Proofs.Renaming.Tree
import Script.Proofs.Scope
import Script.Proofs.Scope.History
import Script.Proofs.Session.Constancy
import Script.Proofs.Session.Faults
import Script.Proofs.Session.Joining
import Script.Proofs.Session.Layout
import Script.Proofs.Session.Limits
import Script.Proofs.Token.Calls
import Script.Proofs.Token.Joining
import Script.Proofs.Token.Layout
import Script.Proofs.Token.Lexing
import Script.Proofs.Token.LineEnds
import Script.Proofs.Token.Scanning
import Script.Proofs.Token.Spelling
import Script.Proofs.Token.Splitting
import Script.Proofs.Tree.Blame
import Script.Proofs.Tree.Outline
import Script.Proofs.Tree.Regular
import Script.Proofs.Tree.Relocation
import Script.Proofs.Tree.Text
import Script.Proofs.Value.Display
import Script.Proofs.Value.Equality
import Script.Proofs.Value.Likeness
import Script.Proofs.Value.Reach
import Script.Proofs.Value.Renumbering
import Script.Run
import Script.Scope
import Script.Session
import Script.Source
import Script.Table
import Script.Text.Character
import Script.Text.Quoted
import Script.Text.Utf8
import Script.Token
import Script.Token.Lexer
import Script.Tree
import Script.Tree.Outline
import Script.Value
import Script.Value.Display
import Script.Value.Equality
import Script.Value.Operation
