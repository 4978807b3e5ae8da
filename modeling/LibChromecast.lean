import LibChromecast.AddressOrder
import LibChromecast.AnsweredRequests
import LibChromecast.Broadcasts
import LibChromecast.Closing
import LibChromecast.ConnectionAttempts
import LibChromecast.DeviceAnswers
import LibChromecast.FailedOperations
import LibChromecast.ForeignBroadcasts
import LibChromecast.HeartbeatRate
import LibChromecast.JsonPaths
import LibChromecast.LaunchAnswers
import LibChromecast.LiveReading
import LibChromecast.MediaFailures
import LibChromecast.MediaLoad
import LibChromecast.MediaRoundTrips
import LibChromecast.MediaSession
import LibChromecast.Preconditions
import LibChromecast.Reading
import LibChromecast.ReceiveTimeouts
import LibChromecast.ReceiverLaunches
import LibChromecast.ReceiverStatuses
import LibChromecast.Retries
import LibChromecast.RetryRate
import LibChromecast.StoppedPlayers
import LibChromecast.TextTrackStyles
import LibChromecast.TwoClients
import LibChromecast.UnknownFields
