import EdgeTunnel.BufferPool.Account
import EdgeTunnel.BufferPool.Loans
import EdgeTunnel.Document.Json.Grammar
import EdgeTunnel.Document.Json.Writer
import EdgeTunnel.Handshake.Responder
import EdgeTunnel.Handshake.Timestamp
import EdgeTunnel.Main
import EdgeTunnel.Net.Catalogue
import EdgeTunnel.Net.Draw
import EdgeTunnel.Orchestrator.Teardown
import EdgeTunnel.Probe.Exchange
import EdgeTunnel.Profile.Layout
import EdgeTunnel.Profile.Meaning
import EdgeTunnel.Profile.Writer
import EdgeTunnel.Proxy.Session
import EdgeTunnel.Proxy.Sizes
import EdgeTunnel.Random.Chosen
import EdgeTunnel.Scan.Series
import EdgeTunnel.Settings.Overlay
import EdgeTunnel.Text.Hex
import EdgeTunnel.Proofs.BufferPool.Account
import EdgeTunnel.Proofs.CommandLine.Overrides
import EdgeTunnel.Proofs.Crypto.Sealing
import EdgeTunnel.Proofs.Document.JsonText
import EdgeTunnel.Proofs.Document.JsonValue
import EdgeTunnel.Proofs.Document.TomlDocument
import EdgeTunnel.Proofs.Document.TomlText
import EdgeTunnel.Proofs.Document.TomlValue
import EdgeTunnel.Proofs.Handshake.Exchange
import EdgeTunnel.Proofs.Handshake.Timestamps
import EdgeTunnel.Proofs.Handshake.Verdict
import EdgeTunnel.Proofs.KeyText
import EdgeTunnel.Proofs.Net.AddressText
import EdgeTunnel.Proofs.Net.AddressSets
import EdgeTunnel.Proofs.Net.Enumeration
import EdgeTunnel.Proofs.Net.Masks
import EdgeTunnel.Proofs.Net.Passes
import EdgeTunnel.Proofs.Net.Pools
import EdgeTunnel.Proofs.Net.PrefixGrammar
import EdgeTunnel.Proofs.Net.PrefixText
import EdgeTunnel.Proofs.Net.Progress
import EdgeTunnel.Proofs.Net.Rounds
import EdgeTunnel.Proofs.Numbered
import EdgeTunnel.Proofs.Orchestrator.Closing
import EdgeTunnel.Proofs.Orchestrator.Endpoints
import EdgeTunnel.Proofs.Orchestrator.History
import EdgeTunnel.Proofs.Orchestrator.Refusals
import EdgeTunnel.Proofs.Orchestrator.Serving
import EdgeTunnel.Proofs.Orchestrator.Wiring
import EdgeTunnel.Proofs.Profile.DeviceAddresses
import EdgeTunnel.Proofs.Profile.Items
import EdgeTunnel.Proofs.Profile.Layout
import EdgeTunnel.Proofs.Profile.LineForms
import EdgeTunnel.Proofs.Profile.Lines
import EdgeTunnel.Proofs.Profile.Meaning
import EdgeTunnel.Proofs.Profile.RoundTrip
import EdgeTunnel.Proofs.Proxy.AcceptLoop
import EdgeTunnel.Proofs.Proxy.Authority
import EdgeTunnel.Proofs.Proxy.DefaultPort
import EdgeTunnel.Proofs.Proxy.HeadLimit
import EdgeTunnel.Proofs.Proxy.Opening
import EdgeTunnel.Proofs.Proxy.Passage
import EdgeTunnel.Proofs.Proxy.RequestLine
import EdgeTunnel.Proofs.Proxy.Segmentation
import EdgeTunnel.Proofs.Proxy.Sizes
import EdgeTunnel.Proofs.Proxy.Slots
import EdgeTunnel.Proofs.Proxy.SocksGrammar
import EdgeTunnel.Proofs.Relay.Delivery
import EdgeTunnel.Proofs.Scan.Contract
import EdgeTunnel.Proofs.Scan.Engine
import EdgeTunnel.Proofs.Scan.Outcome
import EdgeTunnel.Proofs.Scan.Recording
import EdgeTunnel.Proofs.Scan.Replacement
import EdgeTunnel.Proofs.Scan.Selection
import EdgeTunnel.Proofs.Scan.Series
import EdgeTunnel.Proofs.Scan.Slots
import EdgeTunnel.Proofs.Scan.Tally
import EdgeTunnel.Proofs.Scan.Tasks
import EdgeTunnel.Proofs.Scan.Timeline
import EdgeTunnel.Proofs.Settings.Partial
import EdgeTunnel.Proofs.Settings.RoundTrip
import EdgeTunnel.Proofs.Settings.Saving
import EdgeTunnel.Proofs.Settings.Sections
import EdgeTunnel.Proofs.Text.Base64
import EdgeTunnel.Proofs.Text.Blank
import EdgeTunnel.Proofs.Text.Digits
import EdgeTunnel.Proofs.Text.Replacement
import EdgeTunnel.Proofs.Transport.Placeholders
