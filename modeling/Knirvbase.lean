import Knirvbase.Effect
import Knirvbase.Map
import Knirvbase.Clock
import Knirvbase.Json
import Knirvbase.Types
import Knirvbase.Resolver
import Knirvbase.Batch
import Knirvbase.Primitives
import Knirvbase.Crypto
import Knirvbase.PathResolution
import Knirvbase.Storage
import Knirvbase.StorageSpec
import Knirvbase.RoundTrip
import Knirvbase.Paths
import Knirvbase.Listing
import Knirvbase.Network
import Knirvbase.Collection
import Knirvbase.Replication
import Knirvbase.Interleaving
import Knirvbase.Database
import Knirvbase.DatabaseDisk
