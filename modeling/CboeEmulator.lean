import CboeEmulator.OrderEntry.Structures
import CboeEmulator.DataFeed.Messages
import CboeEmulator.OrderEntry.LimitTree
import CboeEmulator.OrderEntry.LimitOrderBook
import CboeEmulator.OrderEntry.Invariant
import CboeEmulator.OrderEntry.Matching
import CboeEmulator.OrderEntry.Reachable
import CboeEmulator.OrderEntry.Uids
import CboeEmulator.OrderEntry.Accounts
import CboeEmulator.OrderEntry.LimitCancel
import CboeEmulator.OrderEntry.Conservation
import CboeEmulator.OrderEntry.Priority
import CboeEmulator.OrderEntry.Messages
import CboeEmulator.OrderEntry.Server
import CboeEmulator.OrderEntry.Sessions
import CboeEmulator.OrderEntry.Authorization
import CboeEmulator.OrderEntry.Responses
import CboeEmulator.OrderEntry.Positions
import CboeEmulator.OrderEntry.Purge
import CboeEmulator.OrderEntry.Client
import CboeEmulator.OrderEntry.ClientMirror
import CboeEmulator.WritePump
import CboeEmulator.DataFeed.LimitOrderBook
import CboeEmulator.DataFeed.Receiver
import CboeEmulator.DataFeed.Mirror
import CboeEmulator.DataFeed.Reduce
import CboeEmulator.DataFeed.Packets
import CboeEmulator.OrderEntry.Packets
import CboeEmulator.OrderEntry.ClientCLI
import CboeEmulator.OrderEntry.WireBounds
import CboeEmulator.OrderEntry.OrderReports
import CboeEmulator.Venue
import CboeEmulator.Quotes
import CboeEmulator.Maths.RateOfChange
import CboeEmulator.Strategies.IcebergLiquidityConsumer
import CboeEmulator.Strategies.MarketArbitrage
