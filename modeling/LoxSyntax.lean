import LoxSyntax.Binary64.Shortest
import LoxSyntax.Numeral
import LoxSyntax.Token.Basic
import LoxSyntax.Scan.Tokens
import LoxSyntax.Main
import LoxSyntax.Tree.Outline
import LoxSyntax.Tree.PrefixForm
import LoxSyntax.Text.Quoted
import LoxSyntax.Text.Blank
import LoxSyntax.Text.Letter
import LoxSyntax.Text.Digit
import LoxSyntax.Proofs.Acceptance
import LoxSyntax.Proofs.Spelling
import LoxSyntax.Proofs.Substitution
import LoxSyntax.Proofs.Precedence
import LoxSyntax.Proofs.Complaints
import LoxSyntax.Proofs.Cursor
import LoxSyntax.Proofs.Report
import LoxSyntax.Proofs.Repair
import LoxSyntax.Proofs.Respacing
import LoxSyntax.Proofs.LineEnds
import LoxSyntax.Proofs.Scan.Tiling
import LoxSyntax.Proofs.Scan.LongestMatch
import LoxSyntax.Proofs.Unambiguous
import LoxSyntax.Proofs.Messages
import LoxSyntax.Proofs.Scan.Resumption
import LoxSyntax.Proofs.Lookahead
import LoxSyntax.Proofs.Descent.Depth
import LoxSyntax.Proofs.Nesting
import LoxSyntax.Proofs.DeepGroups
import LoxSyntax.Proofs.Payloads
import LoxSyntax.Proofs.Command.Transcripts
import LoxSyntax.Proofs.Binary64.Rounding
import LoxSyntax.Proofs.Binary64.ShortestDecimals
import LoxSyntax.Proofs.ReadingBack
import LoxSyntax.Proofs.Tree.Sketches
import LoxSyntax.Proofs.LineByLine
import LoxSyntax.Proofs.Descent.Openings
