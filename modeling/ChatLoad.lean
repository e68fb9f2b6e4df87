import ChatLoad.Wire.Outbound
import ChatLoad.Peer.Script
import ChatLoad.Peer.Server
import ChatLoad.Main
import ChatLoad.Proofs.Wire.Reading
import ChatLoad.Proofs.World.Correlation
import ChatLoad.Proofs.World.Listening
import ChatLoad.Proofs.Client.Mooring
import ChatLoad.Proofs.World.Stopping
import ChatLoad.Proofs.World.Takedown
import ChatLoad.Proofs.World.Beating
import ChatLoad.Proofs.Wire.Payload
import ChatLoad.Proofs.Wire.Framing
import ChatLoad.Proofs.Wire.RoundTrip
import ChatLoad.Proofs.World.Sending
import ChatLoad.Proofs.Wire.Decoding
import ChatLoad.Proofs.Wire.LastWins
import ChatLoad.Proofs.Client.Timetable
import ChatLoad.Proofs.Scenario.Schedule
import ChatLoad.Proofs.World.Timetable
import ChatLoad.Proofs.Scenario.Stress
import ChatLoad.Proofs.Stats.Interleaving
import ChatLoad.Proofs.Scenario.Lanes
import ChatLoad.Proofs.Scenario.Population
import ChatLoad.Proofs.Scenario.Offline
import ChatLoad.Proofs.Scenario.Ending
import ChatLoad.Proofs.Wire.Unknown
import ChatLoad.Proofs.Wire.Tearing
import ChatLoad.Proofs.World.Resources
import ChatLoad.Proofs.World.Drawing
import ChatLoad.Proofs.World.Identity
import ChatLoad.Proofs.Wire.CutOff
import ChatLoad.Proofs.Wire.Commands
import ChatLoad.Proofs.Wire.Shortest
import ChatLoad.Proofs.Wire.Writes
import ChatLoad.Proofs.Wire.Progress
import ChatLoad.Proofs.Client.Responses
import ChatLoad.Proofs.World.Refusals
import ChatLoad.Proofs.World.Calls
import ChatLoad.Proofs.Scenario.Chats
import ChatLoad.Proofs.Stats.OrderStatistics
