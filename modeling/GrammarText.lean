import GrammarText.Main
import GrammarText.Expr.Variable
import GrammarText.Grammar.Operation
import GrammarText.Proofs.Text.Literal
import GrammarText.Proofs.Grammar.Registry
import GrammarText.Proofs.Definition
import GrammarText.Proofs.Expr.Active
import GrammarText.Proofs.Text.Lines
import GrammarText.Proofs.Grammar.Lines
import GrammarText.Proofs.Expr.Pieces
import GrammarText.Proofs.Grammar.Undefined
import GrammarText.Proofs.Manifest.Conversion
import GrammarText.Proofs.Manifest.Faults
import GrammarText.Proofs.Manifest.Build
import GrammarText.Proofs.Grammar.Frame
import GrammarText.Proofs.Grammar.Commutation
import GrammarText.Proofs.Grammar.Questions
import GrammarText.Proofs.Manifest.Rendering
import GrammarText.Proofs.Manifest.Layers
import GrammarText.Proofs.Cli.Arguments
import GrammarText.Proofs.Cli.Accepted
import GrammarText.Proofs.Grammar.Registration
import GrammarText.Proofs.Grammar.FirstReference
import GrammarText.Proofs.Grammar.Failure
import GrammarText.Proofs.Context.Assignment
import GrammarText.Proofs.Expr.Trace
import GrammarText.Proofs.Grammar.Appending
import GrammarText.Proofs.Expr.Picked
import GrammarText.Proofs.Grammar.Spelling
import GrammarText.Proofs.Grammar.Alternatives
import GrammarText.Proofs.Context.Layering
import GrammarText.Proofs.Text.Search
import GrammarText.Proofs.Text.Words
import GrammarText.Proofs.Grammar.Declared
import GrammarText.Proofs.Grammar.DirectiveContent
import GrammarText.Proofs.Manifest.Expression
import GrammarText.Proofs.Manifest.Span
import GrammarText.Proofs.Context.Argument
import GrammarText.Proofs.Context.Shown
import GrammarText.Proofs.Text.Escapes
import GrammarText.Proofs.Grammar.Naming
import GrammarText.Proofs.Grammar.Dump
