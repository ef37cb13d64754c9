import Ulpf.Lib.Fifo
import Ulpf.Lib.RunningMax
import Ulpf.Lib.Pending
import Ulpf.Lib.Recency
import Ulpf.Lib.Result
import Ulpf.Lib.Bytes
import Ulpf.Lib.Text
import Ulpf.Lib.Lines
import Ulpf.Lib.Template
import Ulpf.Lib.Grouping
import Ulpf.Lib.Quote
import Ulpf.Lib.Quoted
import Ulpf.Lib.Pattern
import Ulpf.Lib.LastWrite
import Ulpf.Lib.Slice
import Ulpf.Lib.Ascii
import Ulpf.Lib.Crates
import Ulpf.Lib.Replace
import Ulpf.Lib.Hex
import Ulpf.Lib.Address
import Ulpf.Lib.Json
import Ulpf.Lib.JsonValue
import Ulpf.Lib.Sha256
import Ulpf.Lib.MerkleTreeHash
import Ulpf.Integrity.Hash
import Ulpf.Integrity.Merkle.Tree
import Ulpf.Integrity.Merkle.Inclusion
import Ulpf.Integrity.Merkle.Consistency
import Ulpf.Integrity.Storage
import Ulpf.Integrity.Storage.RoundTrip
import Ulpf.Integrity.Ledger
import Ulpf.Integrity.TornLedger
import Ulpf.Integrity.Tamper.Records
import Ulpf.Integrity.Tamper.Block
import Ulpf.Integrity.Tamper.Ledger
import Ulpf.Integrity.Batcher.Flush
import Ulpf.Integrity.Batcher.Run
import Ulpf.Integrity.Batcher.Archive
import Ulpf.Integrity.Batcher.Contents
import Ulpf.Integrity.Batcher.Failure
import Ulpf.Integrity.Batcher.Restart
import Ulpf.Integrity.Batcher.Recovery
import Ulpf.Core.Ingest.Queue
import Ulpf.Core.Ingest.System
import Ulpf.Core.Ingest.Close
import Ulpf.Core.Ingest.Socket
import Ulpf.Core.Schema
import Ulpf.Core.Parser.Kv
import Ulpf.Core.Parser.Csv
import Ulpf.Core.Parser.Boundaries
import Ulpf.Core.Parser.Fortigate
import Ulpf.Core.Parser.Cef
import Ulpf.Core.Parser.PaloAlto
import Ulpf.Core.Parser.PfSense
import Ulpf.Core.Parser.Render
import Ulpf.Core.Parser.Relay
import Ulpf.Core.Parser.Suricata
import Ulpf.Core.Parser.Ports
import Ulpf.Core.Parser.Endpoint
import Ulpf.Core.Parser.Universal
import Ulpf.Core.Parser.Verdict
import Ulpf.Core.Parser.WellFormed
import Ulpf.Core.EventJson
import Ulpf.Ai.Mask
import Ulpf.Ai.Drain
import Ulpf.Ai.Drain.Run
import Ulpf.Ai.Drain.Summary
import Ulpf.Ai.Drain.Bound
import Ulpf.Ai.Drain.Anchors
import Ulpf.Ai.Drain.Wildcards
import Ulpf.Ai.Drain.Similarity
import Ulpf.Ai.Drain.Tree
import Ulpf.Ai.Drain.Repeat
import Ulpf.Ai.Drain.Choice
import Ulpf.Ai.Drain.Reach
import Ulpf.Ai.Drain.Switch
import Ulpf.Ai.Drain.Tags
import Ulpf.Ai.Duel
import Ulpf.Ai.Duel.LastField
import Ulpf.Ai.Evaluator.Address
import Ulpf.Ai.Evaluator.GroundTruth
import Ulpf.Ai.Evaluator.Markers
import Ulpf.Ai.Evaluator.Template
import Ulpf.Ai.Evaluator.Audit
import Ulpf.Ai.Evaluator.Completes
import Ulpf.Ai.Evaluator.Majority
import Ulpf.Ai.Evaluator.Validity
import Ulpf.Ai.Evaluator.Lockstep
import Ulpf.Ai.Registry
import Ulpf.Ai.Registry.Eviction
import Ulpf.Ai.Onboarder
import Ulpf.Ai.Onboarder.Pattern
import Ulpf.Ai.Onboarder.Yaml
import Ulpf.Ai.Onboarder.RoundTrip
import Ulpf.Ai.Onboarder.Groups
import Ulpf.Ai.Onboarder.Register
import Ulpf.Ai.Onboarder.Json
import Ulpf.Ai.Pipeline
import Ulpf.Ai.Pipeline.Caching
import Ulpf.Ai.Pipeline.System
import Ulpf.Ai.Pipeline.Budget
import Ulpf.Ai.Pipeline.Events
import Ulpf.Ai.Pipeline.Routes
import Ulpf.Core.Parser.CiscoAsa
import Ulpf.Core.Parser.Classifier
import Ulpf.Core.Parser.LruCache
import Ulpf.Core.Parser.LruCache.Run
import Ulpf.Core.Parser.LruCache.Eviction
import Ulpf.Cli.Blocks
import Ulpf.Cli.Ingest
import Ulpf.Cli.Shutdown
import Ulpf.Cli.Framing
import Ulpf.Cli.Prove
import Ulpf.Cli.Drill
import Ulpf.Cli.Verify
import Ulpf.Cli.Export
import Ulpf.Cli.Process
import Ulpf.Cli.Provenance
import Ulpf.Cli.Archive
import Ulpf.Cli.Records
import Ulpf.Cli.Evidence
import Ulpf.Cli.Duration
import Ulpf.Cli.Onboard
import Ulpf.Cli.Restart
