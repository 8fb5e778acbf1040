import Flowchart.Main
import Flowchart.Proofs.Chart.RoundTrip
import Flowchart.Proofs.View.Circle
import Flowchart.Proofs.View.Feedback
import Flowchart.Proofs.Token.Continued
import Flowchart.Proofs.Build.Editing
import Flowchart.Proofs.Exchange.Charts
import Flowchart.Proofs.Files.Kept
import Flowchart.Proofs.Json.RoundTrip
import Flowchart.Proofs.Store.Saved
import Flowchart.Proofs.Exchange.Renaming
import Flowchart.Proofs.Store.LineEnds
import Flowchart.Proofs.Exchange.Input
import Flowchart.Build.Builder
import Flowchart.Build.Traced
import Flowchart.Token.Cursor
import Flowchart.View.Adjacency
import Flowchart.Proofs.Build.Series
import Flowchart.Proofs.View.Answers
import Flowchart.Proofs.View.Renamed
import Flowchart.Proofs.Build.Renamed
import Flowchart.Proofs.Command.Arguments
import Flowchart.Proofs.Command.Effects
import Flowchart.Proofs.Command.Defaults
import Flowchart.Proofs.Token.Fitting
import Flowchart.Proofs.View.LeastOrder
import Flowchart.Proofs.View.LongestPath
import Flowchart.Proofs.Build.Traced
import Flowchart.Proofs.Token.Replacing
import Flowchart.Proofs.Token.Found
import Flowchart.Proofs.Build.Separation
import Flowchart.Proofs.Build.OpenLines
import Flowchart.Proofs.View.Neighbours
import Flowchart.Proofs.Token.Resumed
