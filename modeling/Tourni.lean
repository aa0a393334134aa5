import Tourni.Lib.Transition
import Tourni.Lib.Mirror
import Tourni.Lib.Roster
import Tourni.Lib.Elimination
import Tourni.Model.Phone
import Tourni.Model.Screen
import Tourni.Database.Devices
import Tourni.Database.Fields
import Tourni.Database.Accepted
import Tourni.Phone.ActiveGames
import Tourni.Phone.Join
import Tourni.Phone.HostTab
import Tourni.Round.Decisions
import Tourni.Bracket.Loading
import Tourni.Bracket.Versions
import Tourni.Bracket.Incremental
import Tourni.Bracket.RoundLookup
import Tourni.Bracket.Sources
import Tourni.Bracket.Knockout
import Tourni.Bracket.FirstRound
import Tourni.Bracket.HostRun
import Tourni.Bracket.Champion
import Tourni.Bracket.Prompt
import Tourni.Bracket.ScreenSteps
import Tourni.Bracket.Chronicle
import Tourni.Bracket.Copies
import Tourni.Bracket.Consistent
import Tourni.Bracket.Entrants
import Tourni.Bracket.Finality
import Tourni.Bracket.Undecided
import Tourni.Bracket.Paging
import Tourni.Bracket.Decided
import Tourni.Bracket.Refinement
import Tourni.Bracket.Paths
import Tourni.Bracket.Seeds
import Tourni.Bracket.Simulation
import Tourni.Bracket.Spectators
import Tourni.Bracket.Finishing
import Tourni.Bracket.Counting
import Tourni.Bracket.DeadEnd
import Tourni.Phone.Selection
import Tourni.Database.Phones
import Tourni.Database.Provenance
