import Xahc.Data.Bytes
import Xahc.Data.Window
import Xahc.Data.TokenBucket
import Xahc.Data.Expiring
import Xahc.Data.Number
import Xahc.Data.Depth
import Xahc.Data.Utf16
import Xahc.Data.JsString
import Xahc.Data.Except
import Xahc.Data.JsMap
import Xahc.Data.Json
import Xahc.Data.JsonNumber
import Xahc.Data.JsonText
import Xahc.Data.Decimal
import Xahc.Data.Checked
import Xahc.Data.Trapping
import Xahc.Data.Region
import Xahc.Data.Access
import Xahc.Data.Der
import Xahc.Data.Utf8
import Xahc.Data.Scan
import Xahc.Data.Double
import Xahc.Effect.Prog
import Xahc.Effect.Loop
import Xahc.Effect.Lease
import Xahc.Effect.Owner
import Xahc.Guardrail.Host
import Xahc.Guardrail.Hook
import Xahc.Guardrail.FailClosed
import Xahc.Guardrail.Budget
import Xahc.Guardrail.Twins
import Xahc.Guardrail.Refutations
import Xahc.Sim.Sto
import Xahc.Sim.StoFormat
import Xahc.Sim.StoRoundTrip
import Xahc.Sim.Slots
import Xahc.Sim.SlotTable
import Xahc.Sim.StoBounds
import Xahc.Sim.Guard
import Xahc.Sim.Signature
import Xahc.Sim.StoTiling
import Xahc.Sim.Keylet
import Xahc.Sim.KeyletPreimage
import Xahc.Sim.KeyletMemory
import Xahc.Sim.StoWords
import Xahc.Sim.FieldWords
import Xahc.Sim.SlotWords
import Xahc.Sim.HostCalls
import Xahc.Sim.NoPanic
import Xahc.Sim.Effects
import Xahc.Sim.HostRuns
import Xahc.Sim.Journal
import Xahc.Sim.CHook
import Xahc.Sim.CView
import Xahc.Sim.Run
import Xahc.Guardrail.OnSim
import Xahc.Guardrail.StatefulOnSim
import Xahc.Emit.Payment
import Xahc.Facilitator.Amount
import Xahc.Facilitator.TokenText
import Xahc.Facilitator.Policy
import Xahc.Facilitator.GetPolicy
import Xahc.Guardrail.Readout
import Xahc.Guardrail.PolicyView
import Xahc.Facilitator.ClientIp
import Xahc.Facilitator.Verify
import Xahc.Facilitator.Receipt
import Xahc.Facilitator.TokenRender
import Xahc.Facilitator.Node
import Xahc.Facilitator.Settle
import Xahc.Facilitator.Contract
import Xahc.Facilitator.Outage
import Xahc.Facilitator.Calls
import Xahc.Facilitator.Memory
import Xahc.Facilitator.LiveStore
import Xahc.Facilitator.Redis
import Xahc.Facilitator.Ownership
import Xahc.Facilitator.AtMostOnce
import Xahc.Facilitator.Soundness
import Xahc.Facilitator.Accept
import Xahc.Facilitator.Status
import Xahc.Facilitator.Authority
import Xahc.Facilitator.Proof
import Xahc.Facilitator.Multisig
import Xahc.Facilitator.RateLimit
import Xahc.Facilitator.RedisRateLimit
import Xahc.Effect.Front
import Xahc.Facilitator.Http
import Xahc.Facilitator.Service
import Xahc.Facilitator.ServiceRuns
import Xahc.Wasm.Syntax
import Xahc.Wasm.Lint
import Xahc.Wasm.Adjacency
import Xahc.Wasm.Stack
import Xahc.Wasm.Encode
import Xahc.Wasm.Reposition
import Xahc.Wasm.Typing
import Xahc.Wasm.Exec
import Xahc.Wasm.Meter
import Xahc.Wasm.Hoist
import Xahc.Chain.Compose
import Xahc.Cli.ParseHex
import Xahc.Cli.HookOn
import Xahc.Cli.Drops
import Xahc.Emit.NativeAmount
import Xahc.Cli.Fuzz
import Xahc.Cli.FuzzedGuardrail
import Xahc.Cli.InstallTx
import Xahc.Cli.Author
import Xahc.Cli.AuthoredGuardrail
import Xahc.Demo.ResourceServer
import Xahc.Demo.PaidContent
