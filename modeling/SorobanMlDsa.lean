import SorobanMlDsa.KeyEncoding
import SorobanMlDsa.Signing
import SorobanMlDsa.Payload
import SorobanMlDsa.Auth
import SorobanMlDsa.Account
import SorobanMlDsa.KeyCustody
import SorobanMlDsa.Replay
import SorobanMlDsa.Preflight
import SorobanMlDsa.Verifier
import SorobanMlDsa.DomainSeparation
import SorobanMlDsa.Uniformity
import SorobanMlDsa.Throughput
import SorobanMlDsa.Fee
import SorobanMlDsa.Authorize
import SorobanMlDsa.AuthorizeTool
import SorobanMlDsa.Lifecycle
import SorobanMlDsa.BenchTool
import SorobanMlDsa.Posting
import SorobanMlDsa.Conformance
import SorobanMlDsa.DifferentialSigning
import SorobanMlDsa.Networks
import SorobanMlDsa.Prototype
import SorobanMlDsa.Handmade
import SorobanMlDsa.SubmitTool
