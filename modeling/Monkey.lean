import Monkey.Console.Entry
import Monkey.Main
import Monkey.Proofs.Evaluation.Exposure
import Monkey.Proofs.Grammar.Unparsing
import Monkey.Proofs.Scope.Isolation
import Monkey.Proofs.Scope.Repetition
import Monkey.Reader.Bound
import Monkey.Proofs.Reader.Deepening
import Monkey.Proofs.Token.Joining
import Monkey.Proofs.Grammar.Joining
import Monkey.Proofs.Reader.Trees
import Monkey.Proofs.Console.Lines
import Monkey.Proofs.Console.Rejection
import Monkey.Proofs.Grammar.Rendering
import Monkey.Proofs.Evaluation.Deepening
import Monkey.Proofs.Evaluation.Output
import Monkey.Proofs.Console.Agreement
import Monkey.Proofs.Evaluation.Failure
import Monkey.Proofs.Evaluation.Invariant
import Monkey.Proofs.Session.Answer
import Monkey.Proofs.Session.Errors
import Monkey.Proofs.Session.Host
import Monkey.Proofs.Session.Operators
import Monkey.Proofs.Token.Writing
import Monkey.Proofs.Reader.Progress
import Monkey.Proofs.Token.Boundaries
import Monkey.Proofs.Token.Quotes
import Monkey.Proofs.Token.Ending
import Monkey.Proofs.Evaluation.Arithmetic
import Monkey.Proofs.Syntax.Labels
import Monkey.Proofs.Value.Equality
import Monkey.Proofs.Session.Equality
import Monkey.Proofs.Text.Resolution
import Monkey.Proofs.Evaluation.Termination
import Monkey.Proofs.Session.Inspection
import Monkey.Proofs.Session.Mapping
import Monkey.Proofs.Scope.Binding
import Monkey.Proofs.Reader.Spine
import Monkey.Proofs.Text.Form
import Monkey.Proofs.Value.Debug
import Monkey.Proofs.Value.HostFunction
