import BasicLexis.Log.Memory
import BasicLexis.Main
import BasicLexis.Proofs.Classifier.StatementGrammar
import BasicLexis.Proofs.Markup.RoundTrip
import BasicLexis.Proofs.Scanner.Mirror
import BasicLexis.Proofs.Piece.Shape
import BasicLexis.Proofs.Scanner.Parts
import BasicLexis.Proofs.Scanner.Coverage
import BasicLexis.Proofs.Scanner.Trivia
import BasicLexis.Proofs.Scanner.Order
import BasicLexis.Proofs.Number.Alone
import BasicLexis.Proofs.Piece.Alone
import BasicLexis.Proofs.Scanner.Relex
import BasicLexis.Proofs.Classifier.Settling
import BasicLexis.Proofs.Source.Lines
import BasicLexis.Proofs.Scanner.LineEnds
import BasicLexis.Proofs.Scanner.Continuation
import BasicLexis.Proofs.Scanner.Cursor
import BasicLexis.Proofs.Classifier.LoopNest
import BasicLexis.Proofs.Classifier.Unwinding
import BasicLexis.Proofs.Classifier.QueryHeads
import BasicLexis.Proofs.Classifier.EndOfSource
import BasicLexis.Proofs.Classifier.HintOrigin
import BasicLexis.Proofs.Number.IntegerValue
import BasicLexis.Proofs.Number.Rounding
import BasicLexis.Proofs.Number.Exact
import BasicLexis.Proofs.Number.ReadBack
import BasicLexis.Proofs.Scanner.Quotation
import BasicLexis.Proofs.Calendar.ReadBack
import BasicLexis.Proofs.Piece.Comment
import BasicLexis.Proofs.Scanner.Journal
import BasicLexis.Proofs.Analysis.Log
import BasicLexis.Proofs.Source.Operations
import BasicLexis.Proofs.Scanner.Nesting
import BasicLexis.Proofs.Scanner.Overflow
import BasicLexis.Proofs.Log.Report
