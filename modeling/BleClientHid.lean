import BleClientHid.HidParser.Input
import BleClientHid.HidParser.Variables
import BleClientHid.HidParser.ArrayBalance
import BleClientHid.HidParser.Acceptance
import BleClientHid.HidParser.Padding
import BleClientHid.HidParser.Identity
import BleClientHid.HidParser.GlobalOrder
import BleClientHid.HidParser.UsageOrder
import BleClientHid.HidParser.Delimiters
import BleClientHid.HidParser.LocalScope
import BleClientHid.HidParser.Nesting
import BleClientHid.HidParser.Bounds
import BleClientHid.HidParser.SignedDecoders
import BleClientHid.HidParser.DescriptorLog
import BleClientHid.HidParser.Meaning
import BleClientHid.Repeats
import BleClientHid.BootAgreement
import BleClientHid.BootReplay
import BleClientHid.CoalescingLaw
import BleClientHid.CoalescingRate
import BleClientHid.CoalescingBuffer
import BleClientHid.UsageTables
import BleClientHid.Component.Envelopes
import BleClientHid.Component.Runs
import BleClientHid.Component.CccdWrites
import BleClientHid.Component.Decoder
import BleClientHid.Component.ProtocolMode
import BleClientHid.Component.Termination
import BleClientHid.Component.Outcomes
import BleClientHid.Component.FifoLaw
import BleClientHid.Component.Connections
import BleClientHid.Component.Writes
import BleClientHid.Component.Backpressure
import BleClientHid.Component.InventoryLaw
import BleClientHid.Component.Delivery
import BleClientHid.Component.Fingerprint
import BleClientHid.Component.Advertisements
import BleClientHid.Component.Provenance
import BleClientHid.Component.Transparency
import BleClientHid.Component.Conformity
import BleClientHid.Component.Agenda
import BleClientHid.Component.Footprint
import BleClientHid.Component.Parameters
