import P4Cases.Ecmp.Machine
import P4Cases.Firewall.Machine
import P4Cases.FlowCounter.Machine
import P4Cases.Telemetry.Machine

/-! The parsers of IPv4 do over the integers what they do on their bits. -/
namespace P4Cases
open Wire P4

/-- Every parser of IPv4 ends, on every packet, as its reading over the integers does,
where no result leaves its width. It stops with an error it declares itself, or with a
packet too short before it has an IPv4 header. -/
theorem parsers_safe :
    (∀ unset lpm intDefault, (Telemetry.router unset lpm intDefault).SafeParser
      Telemetry.parserState .start 13 Telemetry.BeforeIpv4) ∧
    (∀ lpm nhop, (Ecmp.router lpm nhop).SafeParser Ecmp.parserState .start 6 Ecmp.BeforeIpv4) ∧
    (∀ dmac acl unset, (Firewall.firewall dmac acl unset).SafeParser
      Firewall.parserState .start 6 Firewall.BeforeIpv4) ∧
    FlowCounter.counter.SafeParser FlowCounter.parserState .start 5 FlowCounter.BeforeIpv4 :=
  ⟨Telemetry.router_safeParser, Ecmp.router_safeParser, Firewall.firewall_safeParser,
    FlowCounter.counter_safeParser⟩

end P4Cases
