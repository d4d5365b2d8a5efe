import RadioWindows.Bank
import RadioWindows.Chip.Host
import RadioWindows.Scripted.Guard
import RadioWindows.Proofs.Logic
import RadioWindows.Proofs.Agreement
import RadioWindows.Proofs.Scripted.Conversation
import RadioWindows.Proofs.Transmission
import RadioWindows.Proofs.SideBySide
import RadioWindows.Proofs.Scripted.Nesting
import RadioWindows.Proofs.Scripted.Advisory
import RadioWindows.Proofs.Chip.Circumstances
import RadioWindows.Proofs.Stalling
import RadioWindows.Proofs.Independence
import RadioWindows.Proofs.Scripted.Flags
import RadioWindows.Proofs.Boundaries
import RadioWindows.Proofs.Reception
import RadioWindows.Proofs.Interleaving
import RadioWindows.Proofs.Persistence
import RadioWindows.Proofs.Understanding
import RadioWindows.Proofs.Acknowledging
import RadioWindows.Proofs.Ledger
import RadioWindows.Proofs.Scripted.Allocation
import RadioWindows.Proofs.Granting
import RadioWindows.Proofs.Transfers
import RadioWindows.Proofs.Copying
import RadioWindows.Proofs.SettingUp
import RadioWindows.Proofs.WindowMask
import RadioWindows.Proofs.Scripted.Polling
import RadioWindows.Proofs.Accounting
import RadioWindows.Proofs.WordFields
