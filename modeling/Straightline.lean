import Straightline.Text.WordChar
import Straightline.Text.Position
import Straightline.Text.Quoted
import Straightline.Pattern.Basic
import Straightline.Pattern.Language
import Straightline.Token.Kind
import Straightline.Token.Basic
import Straightline.Token.Lexicon
import Straightline.Error
import Straightline.Token.Scan
import Straightline.Program.Basic
import Straightline.Program.Scope
import Straightline.Program.Parse
import Straightline.Java.Body
import Straightline.Java.ClassFile
import Straightline.Event
import Straightline.Compile
import Straightline.Files.Path
import Straightline.Files.Basic
import Straightline.Files.Tree
import Straightline.Sink
import Straightline.CommandLine.Options
import Straightline.CommandLine.Run
import Straightline.Main
import Straightline.Proofs.Grammar
import Straightline.Proofs.Reading
import Straightline.Proofs.Determinism
import Straightline.Proofs.Lexemes
import Straightline.Proofs.Policies
import Straightline.Proofs.WellFormed
import Straightline.Proofs.Places
import Straightline.Proofs.Layout
import Straightline.Proofs.Emission
import Straightline.Proofs.JavaExpression
import Straightline.Proofs.Grouping
import Straightline.Proofs.Suffix
import Straightline.Proofs.Declarations
import Straightline.Proofs.Viability
import Straightline.Proofs.Spacing
import Straightline.Proofs.SourceText
import Straightline.Proofs.Tiling
import Straightline.Proofs.Maximality
import Straightline.Proofs.LongestWord
import Straightline.Proofs.Unrecognized
import Straightline.Proofs.Appending
import Straightline.Proofs.Lines
import Straightline.Proofs.FileAccess
import Straightline.Proofs.Delivery
import Straightline.Proofs.Options
import Straightline.Proofs.Command
import Straightline.Proofs.JavaLexicon
import Straightline.Proofs.JavaWords
import Straightline.Proofs.Signs
import Straightline.Proofs.Occurrences
import Straightline.Proofs.Parentheses
import Straightline.Proofs.Account
