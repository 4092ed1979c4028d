import Pouch.BleGatt.ServerCert
import Pouch.BlockBounds
import Pouch.Device.BufferAccounting
import Pouch.Device.CloseCompleteness
import Pouch.Device.DownlinkBounds
import Pouch.Device.DownlinkPipeline
import Pouch.Device.DownlinkPouches
import Pouch.Device.DownlinkQueues
import Pouch.Device.SessionEvents
import Pouch.Device.StreamGaps
import Pouch.Device.UplinkReads
import Pouch.Device.WriterRefinement
import Pouch.DownlinkDelivery
import Pouch.EntryRoundTrip
import Pouch.Saead.AuthenticatedPrefix
import Pouch.Saead.NonceUniqueness
import Pouch.Saead.PouchReplay
import Pouch.Saead.SessionReplay
import Pouch.Saead.SessionKeys
import Pouch.GoliothSdk.Dispatch
import Pouch.GoliothSdk.Routing
import Pouch.GoliothSdk.Ota
import Pouch.GoliothSdk.OtaOffsets
import Pouch.BleGatt.PacketizerRoundTrip
import Pouch.Header
import Pouch.HeaderRoundTrip
import Pouch.Saead.DownlinkHeaders
import Pouch.FramingPrefix
import Pouch.EntryAcceptance
import Pouch.EntryFields
import Pouch.BleGatt.UplinkCharacteristic
import Pouch.Device.FailedStart
import Pouch.GoliothSdk.Zcbor
import Pouch.GoliothSdk.Manifest
import Pouch.GoliothSdk.Settings
import Pouch.GoliothSdk.ManifestPieces
import Pouch.GoliothSdk.SettingsPieces
import Pouch.GoliothSdk.CborDecoder
import Pouch.GoliothSdk.Fragmentation
import Pouch.GoliothSdk.DecodingFuel
import Pouch.Saead.KeyInfo
import Pouch.Cert
import Pouch.GoliothSdk.ComponentPath
import Pouch.GoliothSdk.CborItems
import Pouch.GoliothSdk.MapRuns
import Pouch.GoliothSdk.MapCompleteness
import Pouch.GoliothSdk.MapConsumption
import Pouch.GoliothSdk.SettingsRuns
import Pouch.GoliothSdk.SettingsKeys
import Pouch.GoliothSdk.SettingsOrder
import Pouch.GoliothSdk.ManifestVersions
import Pouch.GoliothSdk.StatusReport
import Pouch.GoliothSdk.KeyTypes
import Pouch.Device.EventQueue
import Pouch.Device.DownlinkRefinement
import Pouch.Device.DownlinkArrival
import Pouch.BleGatt.DownlinkCharacteristic
import Pouch.BleGatt.DownlinkTransfer
import Pouch.BleGatt.SealedDownlink
import Pouch.BleGatt.TamperedDownlink
import Pouch.Device.UplinkSupply
import Pouch.BleGatt.UplinkTransfer
import Pouch.BleGatt.UplinkRefinement
import Pouch.Device.EntrySupply
import Pouch.Device.PouchShapes
import Pouch.BleGatt.PortRuns
import Pouch.BleGatt.EntryDelivery
import Pouch.Saead.SealChain
import Pouch.Device.SealedSupply
import Pouch.BleGatt.SealedUplink
