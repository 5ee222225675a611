import HanabiBot.Lib.Runs
import HanabiBot.Lib.Calls
import HanabiBot.Lib.Simulation
import HanabiBot.Lib.Pairs
import HanabiBot.Lib.Keyed
import HanabiBot.Lib.Tables
import HanabiBot.Lib.Blocks
import HanabiBot.Lib.Lists
import HanabiBot.Lib.Framing
import HanabiBot.HanabiGame.Cards
import HanabiBot.Common.Messages
import HanabiBot.Common.Sockets
import HanabiBot.HanabiGame.State
import HanabiBot.HanabiGame.Play
import HanabiBot.HanabiGame.Walks
import HanabiBot.HanabiGame.Audience
import HanabiBot.HanabiGame.Dialogue
import HanabiBot.HanabiGame.Choice
import HanabiBot.HanabiGame.Actions
import HanabiBot.HanabiGame.Hints
import HanabiBot.HanabiGame.Steps
import HanabiBot.HanabiGame.Display
import HanabiBot.HanabiGame.Secrecy
import HanabiBot.HanabiGame.Bounds
import HanabiBot.HanabiGame.Conservation
import HanabiBot.HanabiGame.Score
import HanabiBot.HanabiGame.Revealed
import HanabiBot.HanabiGame.Wire
import HanabiBot.HanabiGame.Turns
import HanabiBot.HanabiGame.FirstTurn
import HanabiBot.HanabiGame.Finite
import HanabiBot.HanabiGame.Rules
import HanabiBot.HanabiGame.Positions
import HanabiBot.HanabiGame.Refinement
import HanabiBot.HanabiGame.Realisation
import HanabiBot.HanabiGame.Lost
import HanabiBot.HanabiGame.Told
import HanabiBot.HanabiGame.Knowledge
import HanabiBot.HanabiGame.Hidden
import HanabiBot.Lobby.Sessions
import HanabiBot.Lobby.Machine
import HanabiBot.Lobby.Moves
import HanabiBot.Lobby.Sections
import HanabiBot.Lobby.Table
import HanabiBot.Lobby.Seats
import HanabiBot.Lobby.Freshness
import HanabiBot.Lobby.Phantom
import HanabiBot.Lobby.Failures
import HanabiBot.Lobby.Games
import HanabiBot.Lobby.Closing
import HanabiBot.Lobby.Handshake
import HanabiBot.Lobby.Writes
import HanabiBot.Lobby.Broadcasts
import HanabiBot.Lobby.Views
import HanabiBot.Lobby.Acks
import HanabiBot.Lobby.Answers
import HanabiBot.Lobby.Termination
import HanabiBot.Lobby.Confinement
import HanabiBot.Lobby.RandomJoin
import HanabiBot.Lobby.Objects
import HanabiBot.TgClient.Coroutines
import HanabiBot.TgClient.Wakeups
import HanabiBot.TgClient.LeaderLink
import HanabiBot.TgClient.Flight
import HanabiBot.TgClient.StartReply
import HanabiBot.TgClient.Chats
import HanabiBot.TgClient.Tasks
import HanabiBot.TgClient.Delivery
import HanabiBot.TgClient.SessionId
import HanabiBot.TgClient.Direct
import HanabiBot.TgClient.Asks
import HanabiBot.TgClient.Entry
import HanabiBot.TgClient.Paths
import HanabiBot.TgClient.Conversation
import HanabiBot.TgClient.Agreement
import HanabiBot.TgClient.Process
import HanabiBot.TgClient.Progress
import HanabiBot.TgClient.Bot
import HanabiBot.TgClient.Ownership
