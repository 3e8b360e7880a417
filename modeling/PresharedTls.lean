import PresharedTls.Proofs.Steps
import PresharedTls.Provider.Rehearsal
import PresharedTls.SecureStream
import PresharedTls.Settings.Description
import PresharedTls.Transport.Loopback
import PresharedTls.Proofs.Endpoint.Fixed
import PresharedTls.Proofs.Endpoint.Queues
import PresharedTls.Proofs.Reachable
import PresharedTls.Proofs.Chunking
import PresharedTls.Proofs.History
import PresharedTls.Proofs.Codec.Capacity
import PresharedTls.Proofs.Codec.Extension
import PresharedTls.Proofs.Codec.Grammar
import PresharedTls.Proofs.Codec.Hello
import PresharedTls.Proofs.Codec.Messages
import PresharedTls.Proofs.Codec.RoundTrip
import PresharedTls.Proofs.Reassembly
import PresharedTls.Proofs.Terms
import PresharedTls.Proofs.Talk
import PresharedTls.Proofs.Endpoint.Rules
import PresharedTls.Proofs.Sound
import PresharedTls.Proofs.Handling
import PresharedTls.Proofs.Observed
import PresharedTls.Proofs.Agreement
import PresharedTls.Proofs.Verified
import PresharedTls.Proofs.Endpoint.Guarded
import PresharedTls.Proofs.Guarded
import PresharedTls.Proofs.Protection.Aes
import PresharedTls.Proofs.Protection.Format
import PresharedTls.Proofs.Protection.Ranges
import PresharedTls.Proofs.Protection.Records
import PresharedTls.Proofs.Protection.Runs
import PresharedTls.Proofs.Endpoint.Flights
import PresharedTls.Proofs.Negotiated
import PresharedTls.Proofs.Network
import PresharedTls.Proofs.Standing
import PresharedTls.Proofs.Exchange
import PresharedTls.Proofs.Flights
import PresharedTls.Proofs.Meeting
import PresharedTls.Proofs.Outcome
import PresharedTls.Proofs.Passage
import PresharedTls.Proofs.Dialogue
import PresharedTls.Proofs.Delivery
import PresharedTls.Proofs.Protection.Lengths
import PresharedTls.Proofs.Protection.Numbers
import PresharedTls.Proofs.Overflow
import PresharedTls.Proofs.Endpoint.Changes
import PresharedTls.Proofs.Ending
import PresharedTls.Proofs.Endpoint.Outline
import PresharedTls.Proofs.Endpoint.Hearing
import PresharedTls.Proofs.Coherence
import PresharedTls.Proofs.Meetings
import PresharedTls.Proofs.Endpoint.Bargain
import PresharedTls.Proofs.Bargain
import PresharedTls.Proofs.Endpoint.Refusals
import PresharedTls.Proofs.Farewell
import PresharedTls.Proofs.Logging
import PresharedTls.Proofs.Streaming
import PresharedTls.Proofs.Fetching
import PresharedTls.Proofs.Telling
import PresharedTls.Proofs.Numbering
import PresharedTls.Proofs.Blame
import PresharedTls.Proofs.Endpoint.Sturdy
import PresharedTls.Proofs.Endpoint.Faults
import PresharedTls.Proofs.Endpoint.Assertions
import PresharedTls.Proofs.Assertions
import PresharedTls.Proofs.Faultless
import PresharedTls.Proofs.Endpoint.Rejections
import PresharedTls.Proofs.Rejections
import PresharedTls.Proofs.Selection
import PresharedTls.Proofs.Endpoint.Keying
import PresharedTls.Proofs.Keying
import PresharedTls.Proofs.Acts
import PresharedTls.Proofs.Gaps
import PresharedTls.Proofs.Adoption
import PresharedTls.Proofs.Protection.Chains
import PresharedTls.Proofs.Protection.KeyBlock
import PresharedTls.Proofs.Protection.PaddingScan
import PresharedTls.Proofs.Expansion
import PresharedTls.Proofs.Buffers
