import RtlsdrFt8d.TokenSplitting
import RtlsdrFt8d.CNumerals
import RtlsdrFt8d.GetoptPermutation
import RtlsdrFt8d.EventRuns
import RtlsdrFt8d.CountedLoops
import RtlsdrFt8d.ExchangeSort
import RtlsdrFt8d.NetworkBytes
import RtlsdrFt8d.ByteArithmetic
import RtlsdrFt8d.Ipfix
import RtlsdrFt8d.Adif
import RtlsdrFt8d.Dithering
import RtlsdrFt8d.DecimalRounding
import RtlsdrFt8d.CicFilters
import RtlsdrFt8d.LinearProbing
import RtlsdrFt8d.PositionalNumerals
import RtlsdrFt8d.BinaryLinearCodes
import RtlsdrFt8d.PackedBits
import RtlsdrFt8d.BinaryPolynomials
import RtlsdrFt8d.ErasurePeeling
import RtlsdrFt8d.BinaryHeaps
import RtlsdrFt8d.CStrings
import RtlsdrFt8d.StationTypes
import RtlsdrFt8d.QsoState
import RtlsdrFt8d.QsoMachine
import RtlsdrFt8d.QsoMachineSteps
import RtlsdrFt8d.QsoSlotTransmissions
import RtlsdrFt8d.QsoReports
import RtlsdrFt8d.QsoBookkeeping
import RtlsdrFt8d.QsoLifetime
import RtlsdrFt8d.CqPacing
import RtlsdrFt8d.QsoInterference
import RtlsdrFt8d.QsoThread
import RtlsdrFt8d.QsoThreadOrder
import RtlsdrFt8d.QsoThreadTicks
import RtlsdrFt8d.WorkedPeers
import RtlsdrFt8d.PeerRing
import RtlsdrFt8d.Ft8CommandLine
import RtlsdrFt8d.TransmitRequests
import RtlsdrFt8d.RequestLengths
import RtlsdrFt8d.TransmitterDaemon
import RtlsdrFt8d.ReplyProtocol
import RtlsdrFt8d.FrequencySynthesis
import RtlsdrFt8d.ToneDividers
import RtlsdrFt8d.SymbolDithering
import RtlsdrFt8d.DmaRing
import RtlsdrFt8d.WsprDecoding
import RtlsdrFt8d.Calibration
import RtlsdrFt8d.Recalibration
import RtlsdrFt8d.Ft8Text
import RtlsdrFt8d.CallsignTable
import RtlsdrFt8d.MessageUnpacking
import RtlsdrFt8d.CallFieldShapes
import RtlsdrFt8d.FreeText
import RtlsdrFt8d.MessagePacking
import RtlsdrFt8d.FreeWords
import RtlsdrFt8d.FreeTextFallback
import RtlsdrFt8d.PeerHashes
import RtlsdrFt8d.CallsignResolution
import RtlsdrFt8d.SlotDecoding
import RtlsdrFt8d.DuplicateMessages
import RtlsdrFt8d.InBandFrequencies
import RtlsdrFt8d.SlotRouting
import RtlsdrFt8d.CqSpots
import RtlsdrFt8d.OwnCalls
import RtlsdrFt8d.StructuredMessages
import RtlsdrFt8d.PskReporter
import RtlsdrFt8d.PskReporterPackets
import RtlsdrFt8d.SpotBatches
import RtlsdrFt8d.AdifRecords
import RtlsdrFt8d.EconomicMixer
import RtlsdrFt8d.CicDecimator
import RtlsdrFt8d.BasebandStream
import RtlsdrFt8d.DecimationRate
import RtlsdrFt8d.CombSection
import RtlsdrFt8d.CompensationFilter
import RtlsdrFt8d.IntegratorOverflow
import RtlsdrFt8d.WaterfallCells
import RtlsdrFt8d.WaterfallFilling
import RtlsdrFt8d.NoiseFloor
import RtlsdrFt8d.ReceiverThreads
import RtlsdrFt8d.DeviceTexts
import RtlsdrFt8d.DecoderWakeUps
import RtlsdrFt8d.DoubleBuffering
import RtlsdrFt8d.ShutdownOrder
import RtlsdrFt8d.ReceiverLifecycle
import RtlsdrFt8d.LdpcTables
import RtlsdrFt8d.LdpcCode
import RtlsdrFt8d.MessageChecksums
import RtlsdrFt8d.BeliefPropagation
import RtlsdrFt8d.ToneSequences
import RtlsdrFt8d.SymbolLikelihoods
import RtlsdrFt8d.CandidateDecoding
import RtlsdrFt8d.CandidateSearch
import RtlsdrFt8d.SlotReception
import RtlsdrFt8d.StandardCalls
import RtlsdrFt8d.StandardMessages
import RtlsdrFt8d.ContactProtocol
import RtlsdrFt8d.TwoStations
import RtlsdrFt8d.ContactCompletion
import RtlsdrFt8d.MessageDelivery
