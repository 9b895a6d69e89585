import ActionChain.Control
import ActionChain.Mod.Scripted
import ActionChain.Platform.Adapter
import ActionChain.Proofs.Variables.Canonical
import ActionChain.Proofs.Variables.RoundTrip
import ActionChain.Proofs.Variables.Import
import ActionChain.Proofs.Variables.Safety
import ActionChain.Proofs.Variables.Rendering
import ActionChain.Proofs.Chain.Blind
import ActionChain.Proofs.Chain.Compaction
import ActionChain.Proofs.Json.Scanning
import ActionChain.Proofs.Json.Spelling
import ActionChain.Proofs.Json.Reread
import ActionChain.Proofs.Variables.Rereading
import ActionChain.Proofs.Dispatch.Reached
import ActionChain.Proofs.Dispatch.Denied
import ActionChain.Proofs.Dispatch.Accounting
import ActionChain.Proofs.Restart
import ActionChain.Proofs.Guarantee
import ActionChain.Proofs.Guild.Protocol
import ActionChain.Proofs.Guild.SingleFlight
import ActionChain.Proofs.Dispatch.Handled
import ActionChain.Proofs.Dispatch.Steady
import ActionChain.Proofs.Guild.Attempt
import ActionChain.Proofs.Guild.Arrival
import ActionChain.Proofs.Guild.Abandoned
import ActionChain.Proofs.Chain.Course
import ActionChain.Proofs.Chain.Aloof
import ActionChain.Proofs.Chain.Limit
import ActionChain.Proofs.Variables.Growing
import ActionChain.Proofs.Variables.Table
import ActionChain.Proofs.Chain.Tabled
import ActionChain.Proofs.Chain.Refinement
import ActionChain.Proofs.Crowd
import ActionChain.Proofs.Narration
import ActionChain.Proofs.Guild.Mindful
import ActionChain.Proofs.Guild.Once
import ActionChain.Proofs.Numeric.Exact
import ActionChain.Proofs.Tracking
import ActionChain.Proofs.Chain.Writes
import ActionChain.Proofs.Chain.Counters
import ActionChain.Proofs.Variables.BreadthFirst
import ActionChain.Proofs.Garbage
import ActionChain.Proofs.Json.Nesting
import ActionChain.Proofs.Registration
import ActionChain.Proofs.Time.Spelled
import ActionChain.Proofs.Profiles
import ActionChain.Proofs.Text.Trimming
import ActionChain.Proofs.Template.Reading
import ActionChain.Proofs.Template.OnePass
import ActionChain.Proofs.Guild.Polling
import ActionChain.Proofs.Guild.Report
import ActionChain.Proofs.Chain.Itinerary
import ActionChain.Proofs.Chain.Loops
import ActionChain.Proofs.Variables.Equality
import ActionChain.Proofs.Chain.Comparing
import ActionChain.Proofs.Variables.Unfolding
import ActionChain.Proofs.Chain.Recognition
import ActionChain.Proofs.Dispatch.Containment
import ActionChain.Proofs.Dispatch.Invoking
import ActionChain.Proofs.Rebinding
import ActionChain.Proofs.Persistence
import ActionChain.Proofs.StopRequest
import ActionChain.Proofs.Guild.Surplus
import ActionChain.Proofs.Text.Lowering
import ActionChain.Proofs.Authorization
import ActionChain.Proofs.Chain.Written
import ActionChain.Proofs.Numeric.Nearest
import ActionChain.Proofs.Variables.Layout
