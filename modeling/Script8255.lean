import Script8255.Main
import Script8255.Proofs.Binary64.Nearest
import Script8255.Proofs.Binary64.Notation
import Script8255.Proofs.Binary64.Reading
import Script8255.Proofs.Binary64.Rounding
import Script8255.Proofs.Binary64.Shortest
import Script8255.Proofs.CommandLine
import Script8255.Proofs.Decimal
import Script8255.Proofs.Display
import Script8255.Proofs.Equality
import Script8255.Proofs.Escape.Piece
import Script8255.Proofs.Escape.Spelling
import Script8255.Proofs.Label
import Script8255.Proofs.Literal
import Script8255.Proofs.Machine.Arena
import Script8255.Proofs.Machine.Conversion
import Script8255.Proofs.Machine.Debug
import Script8255.Proofs.Machine.Flag
import Script8255.Proofs.Machine.Forward
import Script8255.Proofs.Machine.Frame
import Script8255.Proofs.Machine.Input
import Script8255.Proofs.Machine.Jump
import Script8255.Proofs.Machine.Literal
import Script8255.Proofs.Machine.Naming
import Script8255.Proofs.Name
import Script8255.Proofs.Ordering
import Script8255.Proofs.Power
import Script8255.Proofs.Program
import Script8255.Proofs.Program.Layout
import Script8255.Proofs.Repetition
import Script8255.Proofs.Settings
import Script8255.Proofs.Store.Creation
import Script8255.Proofs.Store.History
import Script8255.Proofs.Template
import Script8255.Proofs.Template.Grammar
import Script8255.Proofs.Template.Replacement
import Script8255.Proofs.Text.Encoding
import Script8255.Proofs.Token.Grammar
import Script8255.Proofs.Token.Split
import Script8255.Proofs.Truncation
import Script8255.Proofs.Unclosed
import Script8255.Proofs.Settings.Keys
