import Rodos.Api.Barrier
import Rodos.Api.BlockFifo
import Rodos.Api.Fifo
import Rodos.Api.FifoAccess
import Rodos.Api.FifoInterleaving
import Rodos.Api.FifoQueue
import Rodos.Api.MultipleReaderFifo
import Rodos.Api.SyncFifo
import Rodos.Api.SyncFifoBlocking
import Rodos.Api.SyncFifoWakeup
import Rodos.Api.Xmalloc
import Rodos.BareMetal.Ceiling
import Rodos.BareMetal.FindNextToRun
import Rodos.BareMetal.GenericIO
import Rodos.BareMetal.HalCanAcceptance
import Rodos.BareMetal.HalCanFilterLayout
import Rodos.BareMetal.HalCanFilterMatch
import Rodos.BareMetal.HalCanFilters
import Rodos.BareMetal.HalCanIncomingFilter
import Rodos.BareMetal.HalCanReceive
import Rodos.BareMetal.HalCanTransmit
import Rodos.BareMetal.HalGpio
import Rodos.BareMetal.HalUartReceive
import Rodos.BareMetal.HalUartTransmit
import Rodos.BareMetal.RoundRobin
import Rodos.BareMetal.Scheduler
import Rodos.BareMetal.Semaphore
import Rodos.BareMetal.SemaphoreBasePriority
import Rodos.BareMetal.SemaphoreHandOver
import Rodos.BareMetal.SemaphoreInheritance
import Rodos.BareMetal.SemaphoreInvariant
import Rodos.BareMetal.SemaphorePairing
import Rodos.BareMetal.SemaphoreSteps
import Rodos.BareMetal.Thread
import Rodos.BareMetal.TimerInterrupt
import Rodos.Ccsds.CcsdsEnvelop
import Rodos.Ccsds.CheckoutTF
import Rodos.Ccsds.DownlinkEnvelop
import Rodos.Ccsds.DownlinkHeaders
import Rodos.Ccsds.DownlinkRoundTrip
import Rodos.Ccsds.EnvelopRoundTrip
import Rodos.Ccsds.MalformedFrames
import Rodos.Ccsds.NextPacket
import Rodos.Ccsds.UplinkEnvelop
import Rodos.Ccsds.UplinkHeaders
import Rodos.Ccsds.UplinkRoundTrip
import Rodos.Gateway.CarriedMessage
import Rodos.Gateway.DistributedTopicRegister
import Rodos.Gateway.DuplicateFilter
import Rodos.Gateway.ErrorDetection
import Rodos.Gateway.Gateway
import Rodos.Gateway.HandOver
import Rodos.Gateway.HopBound
import Rodos.Gateway.IncompleteMessages
import Rodos.Gateway.InterleavedRoundTrip
import Rodos.Gateway.LinkinterfaceCAN
import Rodos.Gateway.LinkinterfaceSHM
import Rodos.Gateway.LinkinterfaceUART
import Rodos.Gateway.Links
import Rodos.Gateway.MessageHeader
import Rodos.Gateway.MessageProgress
import Rodos.Gateway.Network
import Rodos.Gateway.NetworkMessage
import Rodos.Gateway.Publication
import Rodos.Gateway.PublicationLocks
import Rodos.Gateway.Reassembly
import Rodos.Gateway.ReassemblyBounds
import Rodos.Gateway.Reception
import Rodos.Gateway.Router
import Rodos.Gateway.SeenNodes
import Rodos.Gateway.SeenNodesProtector
import Rodos.Gateway.SubscriberData
import Rodos.Gateway.SubscriberDistribution
import Rodos.Gateway.Telegram
import Rodos.Gateway.TelegramLoss
import Rodos.Gateway.TelegramPool
import Rodos.Gateway.TopicAddressing
import Rodos.Gateway.TopicListReport
import Rodos.Gateway.TopicReports
import Rodos.Gateway.Transmission
import Rodos.Gateway.WaitingTelegrams
import Rodos.Library.AffineCycle
import Rodos.Library.Arena
import Rodos.Library.BeatLog
import Rodos.Library.BigEndian
import Rodos.Library.BitMemory
import Rodos.Library.BoundedQueue
import Rodos.Library.CString
import Rodos.Library.Census
import Rodos.Library.Circle
import Rodos.Library.Cyclic
import Rodos.Library.Digits
import Rodos.Library.DropOldest
import Rodos.Library.GregorianCalendar
import Rodos.Library.Grid
import Rodos.Library.IndexLoop
import Rodos.Library.InjectiveFold
import Rodos.Library.Keyed
import Rodos.Library.LimitedRecord
import Rodos.Library.LinkedList
import Rodos.Library.Logged
import Rodos.Library.Memory
import Rodos.Library.Numeral
import Rodos.Library.OperatorPeriod
import Rodos.Library.Outcome
import Rodos.Library.PackedRecord
import Rodos.Library.PacketStream
import Rodos.Library.Packing
import Rodos.Library.Runs
import Rodos.Library.Segments
import Rodos.Library.Selection
import Rodos.Library.ShiftRegister
import Rodos.Library.Slots
import Rodos.Library.Substring
import Rodos.Library.Truncation
import Rodos.Library.XorLinear
import Rodos.Library.XorOperator
import Rodos.Matlib.Generic
import Rodos.Matlib.MatrixSerialization
import Rodos.Matlib.Quaternion
import Rodos.Middleware.HeaderParsing
import Rodos.Middleware.LinkinterfaceUART
import Rodos.Middleware.NetworkMessage
import Rodos.Print.FormatArguments
import Rodos.Print.FormatScan
import Rodos.Print.NumberOutput
import Rodos.Print.PrintedIntegers
import Rodos.Print.Snprintf
import Rodos.Print.Yprintf
import Rodos.S3p.Asynchronous
import Rodos.S3p.Code
import Rodos.S3p.Frame
import Rodos.S3p.LineNoise
import Rodos.S3p.Receivers
import Rodos.S3p.RoundTrip
import Rodos.S3p.Scan
import Rodos.S3p.SenderAsynchronous
import Rodos.S3p.Synchronous
import Rodos.Support.Activity
import Rodos.Support.AllocableObjects
import Rodos.Support.BitFields
import Rodos.Support.BitFieldsSerializer
import Rodos.Support.ByteStreamRingBuffer
import Rodos.Support.Checksumes
import Rodos.Support.CommBuffer
import Rodos.Support.CommBufferConsistency
import Rodos.Support.CommBufferFreshness
import Rodos.Support.CommBufferRoles
import Rodos.Support.CrcBursts
import Rodos.Support.ItemAddresses
import Rodos.Support.MonitoringContent
import Rodos.Support.MonitoringMsg
import Rodos.Support.Random
import Rodos.Support.ReferenceCounting
import Rodos.Support.RingBuffer
import Rodos.Support.RingBufferCapacity
import Rodos.Support.RingBufferContent
import Rodos.Support.RingBufferHistory
import Rodos.Support.RingBufferObjects
import Rodos.Support.RingBufferReads
import Rodos.Support.SortedList
import Rodos.Support.SortedListCalls
import Rodos.Support.SortedListLinks
import Rodos.Support.SortedListOrder
import Rodos.Support.StdlibPico
import Rodos.Support.StreamBytesex
import Rodos.Support.StringPico
import Rodos.Support.Strstr
import Rodos.Support.SyncCommBuffer
import Rodos.Support.TerminatedStrings
import Rodos.Support.Tokenizer
import Rodos.Time.Calendar
import Rodos.Time.EcssTime
import Rodos.Time.HwTimer
import Rodos.Time.JulianRoundTrip
import Rodos.Time.ModifiedJulianDate
import Rodos.Time.NextBeat
import Rodos.Time.TimeEvent
import Rodos.Time.TimeEventActivation
import Rodos.Time.TimeModel
