import DimmBus.LockFile
import DimmBus.Main
import DimmBus.Platform.Inspect
import DimmBus.Tap
import DimmBus.CommandLine.Program
import DimmBus.Proofs.CleanAtRest
import DimmBus.Proofs.SameBus
import DimmBus.Proofs.SoundReads
import DimmBus.Proofs.Recovery
import DimmBus.Proofs.LockDiscipline
import DimmBus.Proofs.SparingWrites
import DimmBus.Proofs.CleanCompletion
import DimmBus.Proofs.Sharing
import DimmBus.Proofs.Shapes
import DimmBus.Proofs.Waiting
import DimmBus.Proofs.PacketErrors
import DimmBus.Proofs.Temperatures
import DimmBus.Proofs.Refusals
import DimmBus.Proofs.LateRefusals
import DimmBus.Proofs.SlotTable
import DimmBus.Proofs.Pacts
import DimmBus.Proofs.SharedBlock
import DimmBus.Proofs.Racing
import DimmBus.Proofs.WriteProtection
import DimmBus.Proofs.OwnRegisters
import DimmBus.Proofs.Selection
import DimmBus.Proofs.Monitoring
import DimmBus.Proofs.PageTraffic
import DimmBus.Proofs.Dumps
import DimmBus.Proofs.Retries
import DimmBus.Proofs.WindingUp
import DimmBus.Proofs.Brackets
import DimmBus.Proofs.AuxFeatures
import DimmBus.Proofs.WakingUp
import DimmBus.Proofs.MinimalBringUp
import DimmBus.Proofs.WordCodec
import DimmBus.Proofs.Construction
import DimmBus.Proofs.Numerals
