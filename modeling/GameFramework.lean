import GameFramework.Client.ClientInstance
import GameFramework.Events.Invocation
import GameFramework.Events.StateEventRegistry
import GameFramework.Game.Accounts
import GameFramework.Game.Archetypes
import GameFramework.Game.CollisionOutcome
import GameFramework.Game.Commute
import GameFramework.Game.Detection
import GameFramework.Game.FrameRate
import GameFramework.Game.Handles
import GameFramework.Game.Isolation
import GameFramework.Game.LifeCycle
import GameFramework.Game.Lifetime
import GameFramework.Game.Selection
import GameFramework.Game.TopSpeed
import GameFramework.Network.Address
import GameFramework.Network.Identity
import GameFramework.Network.Malformed
import GameFramework.Network.NetworkClient
import GameFramework.Network.Ordering
import GameFramework.Network.Rejoin
import GameFramework.Network.RoundTrip
import GameFramework.Network.Shutdown
import GameFramework.Network.StartUp
import GameFramework.Network.TickLoop
import GameFramework.Server.ServerInstance
import GameFramework.Signalling.Delivery
import GameFramework.Signalling.Drain
import GameFramework.Signalling.FaultIsolation
import GameFramework.Signalling.GracefulShutdown
import GameFramework.Signalling.Origin
import GameFramework.Signalling.PeerRegistry
import GameFramework.Signalling.SingleWriter
