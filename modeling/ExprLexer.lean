import ExprLexer.Main
import ExprLexer.Proofs.Cli.FileTree
import ExprLexer.Proofs.ShortLiteral
import ExprLexer.Proofs.Agreement
import ExprLexer.Proofs.FloatText
import ExprLexer.Proofs.Cli.Logging
import ExprLexer.Proofs.Sessions
import ExprLexer.Proofs.Trace.Coverage
import ExprLexer.Proofs.WholeLiteral
import ExprLexer.Proofs.Respacing
import ExprLexer.Proofs.LineCount
import ExprLexer.Proofs.RefusalText
import ExprLexer.Proofs.LiteralReading
import ExprLexer.Proofs.Advance
