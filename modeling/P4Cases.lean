import P4Cases.Wire.OnesComplement
import P4Cases.Wire.Crc
import P4Cases.Wire.CrcPolynomial
import P4Cases.Frames.Crc
import P4Cases.Frames.ChecksumLaws
import P4Cases.Target.Parser
import P4Cases.Target.V1Model
import P4Cases.Frames.Headers
import P4Cases.Frames.Python
import P4Cases.Ipv6Lpm.Switch
import P4Cases.Firewall.Policy
import P4Cases.Ipv6Lpm.Oracle
import P4Cases.Vxlan.Oracle
import P4Cases.Ecmp.Accepted
import P4Cases.Ecmp.Affinity
import P4Cases.Ecmp.Oracle
import P4Cases.FlowCounter.Counts
import P4Cases.FlowCounter.Run
import P4Cases.FlowCounter.Collisions
import P4Cases.FlowCounter.CommandRuns
import P4Cases.BroadcastSwitch.Switch
import P4Cases.Control.Matching
import P4Cases.Control.Prog
import P4Cases.LearningSwitch.Controller
import P4Cases.LearningSwitch.Invariant
import P4Cases.LearningSwitch.Learned
import P4Cases.LearningSwitch.Decoding
import P4Cases.Routing.Walk
import P4Cases.Telemetry.Accepted
import P4Cases.Telemetry.Checksum
import P4Cases.Telemetry.Codec
import P4Cases.Telemetry.Oracle
import P4Cases.Telemetry.Routes
import P4Cases.Ecmp.Machine
import P4Cases.Firewall.Machine
import P4Cases.FlowCounter.Machine
import P4Cases.Parsing.Inverse
import P4Cases.Parsing.Safety
import P4Cases.Telemetry.Agreement
import P4Cases.Telemetry.RoundTrip
import P4Cases.Telemetry.WellFormed
import P4Cases.BroadcastSwitch.Delivery
import P4Cases.CloneToCpu.Copies
import P4Cases.PortCounter.Samples
import P4Cases.PortCounter.Variants
import P4Cases.Control.Raising
import P4Cases.LearningSwitch.Flooding
import P4Cases.Runtime.Cleanup
import P4Cases.Runtime.Reading
import P4Cases.Frames.Build
import P4Cases.Parsing.Generated
import P4Cases.Routing.Delivery
import P4Cases.Ecmp.Captures
import P4Cases.FlowCounter.ReadBack
import P4Cases.Target.Traffic
import P4Cases.Frames.Capture
import P4Cases.Frames.SelfTest
import P4Cases.Frames.Hosts
import P4Cases.BroadcastSwitch.SelfTest
import P4Cases.Ipv6Lpm.SelfTest
import P4Cases.FlowCounter.SelfTest
import P4Cases.Vxlan.SelfTest
import P4Cases.Firewall.SelfTest
