import Formula.Main
import Formula.Reader.Script
import Formula.Rule.Script
import Formula.Proofs.Lexing.Separators
import Formula.Proofs.Grammar.Lenient
import Formula.Proofs.Grammar.TokenLists
import Formula.Proofs.Grammar.Scripts
import Formula.Proofs.Grammar.Substitution
import Formula.Proofs.Grammar.Longest
import Formula.Proofs.Grammar.Nesting
import Formula.Proofs.Double.Layout
import Formula.Proofs.Reader.Numerals
import Formula.Proofs.Reader.Scripts
import Formula.Proofs.Reader.Progress
import Formula.Proofs.Rendering.Spelling
import Formula.Proofs.Rendering.Unique
import Formula.Proofs.Session.Dumps
import Formula.Proofs.Session.Rereading
import Formula.Proofs.Program.Selection
