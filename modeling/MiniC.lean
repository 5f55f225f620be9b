import MiniC.Main
import MiniC.Proofs.Compile
import MiniC.Proofs.Run.Integer
import MiniC.Proofs.Run.Types
import MiniC.Proofs.Layout
import MiniC.Proofs.Token.Readable
import MiniC.Proofs.Token.Rendering
import MiniC.Proofs.Tree.Spelling
import MiniC.Proofs.Run.OneLine
import MiniC.Proofs.Command.Report
import MiniC.Proofs.Token.Border
import MiniC.Proofs.Token.LineBreak
import MiniC.Proofs.Token.Skipped
import MiniC.Proofs.Run.Blame
import MiniC.Proofs.Parse.Blind
import MiniC.Proofs.Parse.End
import MiniC.Proofs.Run.Growth
import MiniC.Proofs.Run.Merged
import MiniC.Proofs.Command.Truncation
import MiniC.Proofs.Tree.Resemblance
import MiniC.Proofs.Store.History
import MiniC.Proofs.Run.Exact
import MiniC.Proofs.Number.Narrowing
import MiniC.Proofs.Progress
