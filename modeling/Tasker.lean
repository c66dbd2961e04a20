import Tasker.Firestore
import Tasker.Lib.Counter
import Tasker.Lib.EventSystem
import Tasker.Lib.RunningMean
import Tasker.Screens.RateUser
import Tasker.Rating.Sessions
import Tasker.Lib.WriteQueue
import Tasker.Market.System
import Tasker.Market.RatingRange
import Tasker.Market.Schema
import Tasker.Market.Lifecycle
import Tasker.Market.Accounting
import Tasker.Market.SelfRating
import Tasker.Lib.ArrayUnion
import Tasker.Screens.Messages
import Tasker.Messages.System
import Tasker.Messages.Sends
import Tasker.Messages.Pairs
import Tasker.Messages.History
import Tasker.Lib.Regex
import Tasker.Utilities
import Tasker.Auth
import Tasker.Screens.Registration
import Tasker.Account.Setup
import Tasker.Account.Password
import Tasker.Screens.ThirdParty
import Tasker.Account.ThirdParty
import Tasker.Screens.EditProfile
import Tasker.Account.EditSession
import Tasker.Account.ProfileTexts
import Tasker.Account.Pictures
import Tasker.Rating.RateSession
import Tasker.Rating.StoredMean
import Tasker.Account.ValidForms
import Tasker.Account.ZipCodes
import Tasker.Rating.TwoWrites
import Tasker.Double
import Tasker.Lib.MainQueue
import Tasker.Screens.SubmitTask
import Tasker.Market.Posting
import Tasker.Messages.Inbox
import Tasker.Screens.RecentTaskCell
import Tasker.Account.Age
import Tasker.Market.NearbyTaskers
import Tasker.Market.NearbyTasks
import Tasker.Messages.Keys
import Tasker.Lib.Gregorian
import Tasker.Account.PasswordPolicy
import Tasker.Lib.Decimal
import Tasker.Numerals
import Tasker.Market.Amounts
import Tasker.Market.PriceLabels
import Tasker.Lib.WriteHistory
import Tasker.Market.Authority
import Tasker.Lib.SortedMap
import Tasker.Lib.NestedMap
import Tasker.Lib.ThreeWay
import Tasker.Lib.ArrayTransform
import Tasker.Firestore.Numbers
import Tasker.Firestore.FieldValue
import Tasker.Firestore.Mutation
import Tasker.Firestore.MutationBatch
import Tasker.Firestore.MutationQueue
import Tasker.Firestore.LocalStore
import Tasker.Firestore.SyncEngine
import Tasker.Lib.VersionedCache
import Tasker.Firestore.Coherence
import Tasker.Firestore.Refinement
import Tasker.Firestore.Paths
import Tasker.Lib.Errors
import Tasker.Lib.WriteRefinement
import Tasker.Firestore.UserData
import Tasker.Firestore.DocumentReference
import Tasker.Firestore.Records
import Tasker.Market.Device
import Tasker.Market.OnDevice
import Tasker.Messages.OnDevice
