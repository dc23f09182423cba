import Gameserver.Lib.Machine
import Gameserver.Lib.Lines
import Gameserver.Lib.IntervalSearch
import Gameserver.Lib.Chain
import Gameserver.Lib.Raising
import Gameserver.Lib.Recomputed
import Gameserver.Lib.Sextets
import Gameserver.Lib.Json
import Gameserver.Lib.FileSystem
import Gameserver.Lib.Latest
import Gameserver.Lib.Replica
import Gameserver.Lib.Spacing
import Gameserver.Lib.Rearrange
import Gameserver.Lib.Strings
import Gameserver.Lib.Rounding
import Gameserver.Lib.OnesComplement
import Gameserver.Lib.Population
import Gameserver.Lib.Commuting
import Gameserver.Timer.Basic
import Gameserver.Timer.Effect
import Gameserver.Timer.Safety
import Gameserver.Timer.Echo
import Gameserver.Timer.Command
import Gameserver.Timer.Wire
import Gameserver.Timer.Replicas
import Gameserver.Timer.LastTick
import Gameserver.Timer.Reconstruct
import Gameserver.Timer.Recorded
import Gameserver.Scoring.Model
import Gameserver.Scoring.Algorithm
import Gameserver.Scoring.Effect
import Gameserver.Scoring.Database
import Gameserver.Scoring.Run
import Gameserver.Scoring.Captures
import Gameserver.Scoring.Offense
import Gameserver.Scoring.Defense
import Gameserver.Scoring.Counters
import Gameserver.Scoring.CatchUp
import Gameserver.Scoring.Past
import Gameserver.Scoring.Ranking
import Gameserver.Scoring.Filtered
import Gameserver.Scoring.FlagOrder
import Gameserver.Scoring.InvalidFlag
import Gameserver.FirstBlood.Basic
import Gameserver.FirstBlood.Default
import Gameserver.FirstBlood.Multi
import Gameserver.FirstBlood.Awards
import Gameserver.FirstBlood.Recompute
import Gameserver.FirstBlood.RecomputeDefault
import Gameserver.FirstBlood.Replay
import Gameserver.Calculation.Basic
import Gameserver.Calculation.Constraints
import Gameserver.Calculation.BadRows
import Gameserver.Calculation.InOrder
import Gameserver.Calculation.Replay
import Gameserver.Calculation.Reset
import Gameserver.Submission.Flag
import Gameserver.Submission.Format
import Gameserver.Submission.RoundTrip
import Gameserver.Submission.Base64
import Gameserver.Submission.Cache
import Gameserver.Submission.Server
import Gameserver.Submission.Refinement
import Gameserver.Submission.Connection
import Gameserver.Submission.Responses
import Gameserver.Submission.Inactivity
import Gameserver.Submission.Grammar
import Gameserver.Submission.Inspector
import Gameserver.Submission.Agreement
import Gameserver.Submission.Progress
import Gameserver.Submission.CacheBounds
import Gameserver.Submission.Redis
import Gameserver.Submission.Statistics
import Gameserver.Game.System
import Gameserver.Game.Counting
import Gameserver.Game.Windows
import Gameserver.Firewall.Manager
import Gameserver.Firewall.Confluence
import Gameserver.Firewall.Daemon
import Gameserver.Firewall.Convergence
import Gameserver.Dispatcher.Collect
import Gameserver.Dispatcher.Batch
import Gameserver.Dispatcher.Delays
import Gameserver.Board.Statistics
import Gameserver.Board.Generator
import Gameserver.Board.Policy
import Gameserver.Board.Daemon
import Gameserver.Board.Freeze
import Gameserver.Board.Reveal
import Gameserver.Board.Leak
import Gameserver.Traffic.Counters
import Gameserver.Traffic.Conservation
import Gameserver.Traffic.Marks
import Gameserver.Traffic.Services
import Gameserver.Traffic.Restart
import Gameserver.Traffic.Anonymize
import Gameserver.Network.IpSpec
import Gameserver.Network.Decode
import Gameserver.Network.Lookup
import Gameserver.Network.Soundness
import Gameserver.Wireguard.KeyStore
import Gameserver.Wireguard.Crash
import Gameserver.Wireguard.KeyAgreement
import Gameserver.Wireguard.Peers
import Gameserver.Packages.Folder
import Gameserver.Packages.Filesystem
import Gameserver.Packages.Listing
import Gameserver.Packages.Consistent
import Gameserver.Packages.Loading
import Gameserver.Packages.RoundTrip
import Gameserver.Packages.Loader
import Gameserver.Packages.Resume
import Gameserver.Packages.Progress
import Gameserver.Packages.Crash
import Gameserver.Packages.Stuck
import Gameserver.Packages.Retry
import Gameserver.Eno.Timeslots
import Gameserver.Eno.Schedule
import Gameserver.Eno.Timeouts
import Gameserver.Eno.Status
import Gameserver.Vpn.Forecast
import Gameserver.Vpn.BanGates
import Gameserver.Game.Timetable
import Gameserver.Vpn.GameNetwork
import Gameserver.Vpn.Bans
import Gameserver.Runner.Subprocess
import Gameserver.Frontend.RateLimiter
