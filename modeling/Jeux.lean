import Jeux.Service.Lifecycle
import Jeux.Service.Departure
import Jeux.Service.Failures
import Jeux.Service.Usernames
import Jeux.Service.Gate
import Jeux.Service.PacketIds
import Jeux.Service.Counts
import Jeux.Wire.RoundTrip
import Jeux.Wire.Connection
import Jeux.Concurrent.Capacity
import Jeux.Concurrent.Shutdown
import Jeux.Concurrent.WaitForEmpty
import Jeux.Concurrent.Deadlock
import Jeux.Game.Termination
import Jeux.Game.Text
import Jeux.Rating.Conservation
import Jeux.Service.UsersList
import Jeux.Service.Moves
import Jeux.Concurrent.Persistence
import Jeux.Concurrent.InviteOrder
import Jeux.Service.InvitationLists
import Jeux.Service.LoginAttempts
import Jeux.Service.InFlight
import Jeux.Concurrent.InviteLogout
import Jeux.Service.Responses
import Jeux.Game.State
import Jeux.Service.Independence
import Jeux.Service.Shutdown
import Jeux.Service.Thread
import Jeux.Wire.Stream
import Jeux.Service.Refinement
import Jeux.Concurrent.Lobby
import Jeux.Service.Boards
import Jeux.Wire.Service
import Jeux.Wire.Host
