import Colloquy.Dispatch.Rehearsal
import Colloquy.Main
import Colloquy.Model.Script
import Colloquy.Verbosity
import Colloquy.Proofs.Dispatch.Course
import Colloquy.Proofs.Dispatch.Uses
import Colloquy.Proofs.ResponseCache
import Colloquy.Proofs.Dispatch.Effect
import Colloquy.Proofs.Dispatch.Play
import Colloquy.Proofs.Dispatch.Recall
import Colloquy.Proofs.Dispatch.Provenance
import Colloquy.Proofs.RateLimiter
import Colloquy.Proofs.Dispatch.Confinement
import Colloquy.Proofs.Table.Keys
import Colloquy.Proofs.ResponseCache.Retention
import Colloquy.Proofs.RateLimiter.Windows
import Colloquy.Proofs.Session
import Colloquy.Proofs.Session.Continuity
import Colloquy.Proofs.Sweeping
import Colloquy.Proofs.Cipher.Gcm
import Colloquy.Proofs.Cipher.Base64
import Colloquy.Proofs.Room
import Colloquy.Proofs.Named
import Colloquy.Proofs.Database
import Colloquy.Proofs.Dispatch.Step
import Colloquy.Proofs.Dispatch.Abandonment
import Colloquy.Proofs.Dispatch.Floor
import Colloquy.Proofs.Dispatch.Parts
import Colloquy.Proofs.Dispatch.Accounts
import Colloquy.Proofs.Site.Readability
import Colloquy.Proofs.Site.Removal
import Colloquy.Proofs.Dispatch.Duration
import Colloquy.Proofs.Dispatch.Lockstep
import Colloquy.Proofs.Dispatch.Transparency
import Colloquy.Proofs.Dispatch.Ranges
import Colloquy.Proofs.Service.Failure
import Colloquy.Proofs.RateLimiter.Bursts
import Colloquy.Proofs.Room.Records
import Colloquy.Proofs.Room.Keys
import Colloquy.Proofs.Room.Flaws
import Colloquy.Proofs.Site.Disclosure
import Colloquy.Proofs.Database.Removal
import Colloquy.Proofs.Database.Records
import Colloquy.Proofs.Memory.Loading
import Colloquy.Proofs.Memory.Tail
import Colloquy.Proofs.Number.Rounding
import Colloquy.Proofs.Memory.Budget
import Colloquy.Proofs.Memory.Compaction
import Colloquy.Proofs.Memory.Saving
import Colloquy.Proofs.Metrics
import Colloquy.Proofs.Retry
import Colloquy.Proofs.Sweeper
import Colloquy.Proofs.Command
import Colloquy.Proofs.Catalog.Rendering
import Colloquy.Proofs.Json.Forms
import Colloquy.Proofs.Model.Completion
import Colloquy.Proofs.Dispatch.Wording
import Colloquy.Proofs.Settings.Overrides
import Colloquy.Proofs.Settings.Place
