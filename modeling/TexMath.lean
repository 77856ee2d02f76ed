import TexMath.Atom.Data
import TexMath.Canonical
import TexMath.Edit
import TexMath.Main
import TexMath.Proofs.CommandLine.Run
import TexMath.Proofs.Formula.Data
import TexMath.Proofs.Formula.Separation
import TexMath.Proofs.Formula.Text
import TexMath.Proofs.Reading.Aliases
import TexMath.Proofs.Reading.BareArguments
import TexMath.Proofs.Reading.Concatenation
import TexMath.Proofs.Reading.Depth
import TexMath.Proofs.Reading.Discipline
import TexMath.Proofs.Reading.Isolation
import TexMath.Proofs.Reading.Marks
import TexMath.Proofs.Reading.Overhang
import TexMath.Proofs.Reading.Placeholders
import TexMath.Proofs.Reading.Ranges
import TexMath.Proofs.Reading.Spacing
import TexMath.Proofs.Reading.Spans
import TexMath.Proofs.Reading.Tables
import TexMath.Proofs.Reading.Termination
import TexMath.Proofs.Reading.Truncation
import TexMath.Proofs.Token.Pieces
import TexMath.Proofs.Token.Regions
