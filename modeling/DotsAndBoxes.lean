import DotsAndBoxes.Library.Slices
import DotsAndBoxes.Library.Enclosure
import DotsAndBoxes.Library.Json
import DotsAndBoxes.Library.Simulation
import DotsAndBoxes.Library.Serial
import DotsAndBoxes.Library.Runs
import DotsAndBoxes.Library.Interference
import DotsAndBoxes.Library.Trimming
import DotsAndBoxes.Library.Outstanding
import DotsAndBoxes.Library.Changes
import DotsAndBoxes.Library.Chains
import DotsAndBoxes.Library.Decimals
import DotsAndBoxes.Library.Sampling
import DotsAndBoxes.Library.Leaders
import DotsAndBoxes.Library.Tombstones
import DotsAndBoxes.Library.Grouping
import DotsAndBoxes.Library.Channels
import DotsAndBoxes.Library.Representation
import DotsAndBoxes.Library.Queries
import DotsAndBoxes.Game.Model
import DotsAndBoxes.Game.Events
import DotsAndBoxes.Game.Board
import DotsAndBoxes.Game.Refinement
import DotsAndBoxes.Game.RuleBook
import DotsAndBoxes.Game.Runs
import DotsAndBoxes.Game.Counting
import DotsAndBoxes.Game.Scores
import DotsAndBoxes.Game.Store
import DotsAndBoxes.Game.Replay
import DotsAndBoxes.Game.Grammar
import DotsAndBoxes.Game.Shape
import DotsAndBoxes.Game.Winner
import DotsAndBoxes.Game.History
import DotsAndBoxes.Bot.Moves
import DotsAndBoxes.Bot.Choice
import DotsAndBoxes.Bot.Lookahead
import DotsAndBoxes.Bot.Chain
import DotsAndBoxes.Bot.Scores
import DotsAndBoxes.Bot.Candidates
import DotsAndBoxes.Service.Requests
import DotsAndBoxes.Service.EventLog
import DotsAndBoxes.Service.Timers
import DotsAndBoxes.Service.TimerStates
import DotsAndBoxes.Service.Server
import DotsAndBoxes.Service.Identity
import DotsAndBoxes.Service.Turns
import DotsAndBoxes.Service.World
import DotsAndBoxes.Service.Failures
import DotsAndBoxes.Service.NilGames
import DotsAndBoxes.Service.Pending
import DotsAndBoxes.Service.Script
import DotsAndBoxes.Service.Calls
import DotsAndBoxes.Service.BotLoops
import DotsAndBoxes.Service.BotTurns
import DotsAndBoxes.Service.Coherence
import DotsAndBoxes.Service.Callers
import DotsAndBoxes.Service.Clocks
import DotsAndBoxes.Service.Announcements
import DotsAndBoxes.Service.Metrics
import DotsAndBoxes.Service.Passes
import DotsAndBoxes.Service.Projections
import DotsAndBoxes.Service.Rosters
import DotsAndBoxes.Web.State
import DotsAndBoxes.Web.Replay
import DotsAndBoxes.Web.ReplayPage
import DotsAndBoxes.Web.TurnClock
import DotsAndBoxes.Web.ChatBox
import DotsAndBoxes.Web.WebSocketContext
import DotsAndBoxes.Web.Cache
import DotsAndBoxes.Web.Edges
import DotsAndBoxes.Hub.Manager
import DotsAndBoxes.Hub.Backpressure
import DotsAndBoxes.Hub.Rooms
import DotsAndBoxes.Hub.Subscriptions
import DotsAndBoxes.Hub.Routing
import DotsAndBoxes.Hub.Session
import DotsAndBoxes.Hub.Registrations
import DotsAndBoxes.Hub.Realtime
import DotsAndBoxes.Hub.Presence
import DotsAndBoxes.Hub.Forgery
import DotsAndBoxes.Hub.Chat
import DotsAndBoxes.Hub.ChatText
import DotsAndBoxes.Hub.ChatHistory
import DotsAndBoxes.Lobby.Model
import DotsAndBoxes.Lobby.Service
import DotsAndBoxes.Lobby.Concurrency
import DotsAndBoxes.Lobby.Operations
import DotsAndBoxes.Lobby.Membership
import DotsAndBoxes.Lobby.Hosts
import DotsAndBoxes.Lobby.Start
import DotsAndBoxes.Lobby.Stored
import DotsAndBoxes.Lobby.Listing
import DotsAndBoxes.Lobby.Repository
import DotsAndBoxes.Lobby.Changes
import DotsAndBoxes.Web.Lobbies
import DotsAndBoxes.Web.LobbyPage
import DotsAndBoxes.Web.LobbyUpdates
import DotsAndBoxes.Web.GameStart
import DotsAndBoxes.Stats.UserStats
import DotsAndBoxes.Stats.Leaderboard
import DotsAndBoxes.Stats.Histories
import DotsAndBoxes.User.Names
import DotsAndBoxes.User.Sessions
import DotsAndBoxes.Web.Tabs
