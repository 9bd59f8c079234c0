import Reckon.Command.Folder
import Reckon.Main
import Reckon.Token.Cursor
import Reckon.Proofs.Language
import Reckon.Proofs.Shape
import Reckon.Proofs.Before
import Reckon.Proofs.Outcome
import Reckon.Proofs.Descent
import Reckon.Proofs.Recovery
import Reckon.Proofs.Acceptance
import Reckon.Proofs.Diagnosis
import Reckon.Proofs.Building
import Reckon.Proofs.ReadingOrder
import Reckon.Proofs.Spelling
import Reckon.Proofs.Precedence
import Reckon.Proofs.Halt
import Reckon.Proofs.Lexing
import Reckon.Proofs.Reading
import Reckon.Proofs.Wording
import Reckon.Proofs.Concatenation
import Reckon.Proofs.Layout
import Reckon.Proofs.Lossless
import Reckon.Proofs.Rounds
import Reckon.Proofs.Moves
import Reckon.Proofs.Account
import Reckon.Proofs.Munch
import Reckon.Proofs.Lines
import Reckon.Proofs.Bytes
import Reckon.Proofs.Picture
import Reckon.Proofs.Quoting
import Reckon.Proofs.Nearest
import Reckon.Proofs.ReadBack
import Reckon.Proofs.Rows
import Reckon.Proofs.Resolution
import Reckon.Proofs.Launching
import Reckon.Proofs.Status
import Reckon.Proofs.Onward
import Reckon.Proofs.Calls
import Reckon.Proofs.Sameness
import Reckon.Proofs.Chronicle
import Reckon.Proofs.Consumption
