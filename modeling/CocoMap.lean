import CocoMap.Lib.Transition
import CocoMap.Lib.Request
import CocoMap.Firestore
import CocoMap.UserData
import CocoMap.Handlers
import CocoMap.World
import CocoMap.Matching
import CocoMap.Lib.Pairing
import CocoMap.Refinement
import CocoMap.FieldIndependence
import CocoMap.Privacy
import CocoMap.Dissolution
import CocoMap.Lib.Serialization
import CocoMap.Serializability
import CocoMap.Polling
import CocoMap.PinOrigin
import CocoMap.PinRemoval
import CocoMap.Position
import CocoMap.Session
import CocoMap.WellFormed
import CocoMap.Readable
import CocoMap.Recovery
import CocoMap.Timers
import CocoMap.Withdrawal
import CocoMap.CodeForm
import CocoMap.Authentication
import CocoMap.LateReply
import CocoMap.LevelDBMutationQueue
import CocoMap.MemoryMutationQueue
import CocoMap.LevelDBUsers
import CocoMap.Delivery
import CocoMap.Draining
import CocoMap.DurableDelivery
import CocoMap.LatencyCompensation
import CocoMap.View
import CocoMap.EventManager
import CocoMap.BehindConnection
