import P4Cases.Target.Deparsing
import P4Cases.Ecmp.Affinity
import P4Cases.Firewall.Switch
import P4Cases.FlowCounter.Switch
import P4Cases.Ipv6Lpm.Switch
import P4Cases.Telemetry.Checksum

/-! Every program that parses headers emits them in the order it reads them, so that
nothing of a parsed packet is lost. -/
namespace P4Cases
open Wire P4

theorem Telemetry.router_reproduces (unset : Telemetry.IntHeader)
    (lpm : Table (BitVec 32) Telemetry.LpmAction) (intDefault : Telemetry.IntAction) :
    (Telemetry.router unset lpm intDefault).Reproduces := by
  intro port packet payload hdr h
  rcases Telemetry.parse_ok.mp h with ⟨eth, hp, -, rfl⟩ | ⟨eth, ip, area, ha, rfl⟩
  · rw [hp]
    show Telemetry.myDeparser _ ++ payload = _
    simp [Telemetry.myDeparser, Telemetry.HeaderStack.empty]
  · rw [ha.bytes]
    show Telemetry.myDeparser _ ++ payload = _
    rw [Telemetry.myDeparser_parsed]
    simp only [List.append_assoc]

theorem Ecmp.router_reproduces (lpm : Table (BitVec 32) Ecmp.LpmAction)
    (nhop : Table (BitVec 14) Ecmp.NhopAction) : (Ecmp.router lpm nhop).Reproduces := by
  intro port packet payload hdr h
  rcases Ecmp.parse_ok.mp h with ⟨eth, hp, -, rfl⟩ | ⟨eth, ip, opts, transport, ha, rfl⟩
  · rw [hp]
    show Ecmp.myDeparser _ ++ payload = _
    simp [Ecmp.myDeparser]
  · rw [ha.bytes, ← transport.deparsed]
    show Ecmp.myDeparser _ ++ payload = _
    simp [Ecmp.myDeparser, Ecmp.parsedHeaders]

theorem Firewall.firewall_reproduces (dmac : Table (BitVec 48) Firewall.DmacAction)
    (acl : Table Firewall.AclKey Firewall.AclAction) (unset : BitVec 16) :
    (Firewall.firewall dmac acl unset).Reproduces := by
  intro port packet payload hdr h
  rcases Firewall.parse_ok.mp h with ⟨eth, hp, -, rfl⟩ | ⟨eth, ip, opts, l4, hp, -, -, -, -, -, rfl⟩
  · rw [hp]
    show Firewall.myDeparser _ ++ payload = _
    simp [Firewall.myDeparser]
  · rw [hp]
    show Firewall.myDeparser _ ++ payload = _
    simp [Firewall.myDeparser]

theorem FlowCounter.counter_reproduces : FlowCounter.counter.Reproduces := by
  intro port packet payload hdr h
  rcases FlowCounter.parse_ok.mp h with ⟨eth, hp, -, rfl⟩ | ⟨eth, ip, opts, udp, hp, rfl⟩
  · rw [hp]
    show FlowCounter.myDeparser _ ++ payload = _
    simp [FlowCounter.myDeparser]
  · rw [hp.bytes]
    show FlowCounter.myDeparser _ ++ payload = _
    simp [FlowCounter.myDeparser, FlowCounter.beforeUdp]

theorem Ipv6Lpm.router_reproduces (lpm : Table (BitVec 128) Ipv6Lpm.Action) :
    (Ipv6Lpm.router lpm).Reproduces := by
  intro port packet payload hdr h
  rcases Ipv6Lpm.parse_ok.mp h with ⟨eth, hp, -, rfl⟩ | ⟨eth, ip, hp, -, rfl⟩
  · rw [hp]
    show Ipv6Lpm.myDeparser _ ++ payload = _
    simp [Ipv6Lpm.myDeparser]
  · rw [hp]
    show Ipv6Lpm.myDeparser _ ++ payload = _
    simp [Ipv6Lpm.myDeparser]

theorem Firewall.firewall_passesHeaders (dmac : Table (BitVec 48) Firewall.DmacAction)
    (acl : Table Firewall.AclKey Firewall.AclAction) (unset : BitVec 16) :
    (Firewall.firewall dmac acl unset).PassesHeaders where
  ingress _ _ _ := rfl
  egress _ _ := rfl
  computeChecksum _ := rfl
  drops _ _ sm h := ⟨sm, if_pos h⟩

theorem FlowCounter.counter_passesHeaders : FlowCounter.counter.PassesHeaders where
  ingress _ _ _ := rfl
  egress _ _ := rfl
  computeChecksum _ := rfl
  drops s hdr sm h := by
    refine ⟨sm, ?_⟩
    show (FlowCounter.myIngress s hdr sm).2 = _
    rw [FlowCounter.myIngress, if_pos (Or.inl h)]

/-- Emitting the extracted headers and the rest gives the packet back, on every path of
every parser; the two programs that rewrite nothing send exactly what they received. -/
theorem parsers_reproduce :
    (∀ unset lpm intDefault, (Telemetry.router unset lpm intDefault).Reproduces) ∧
      (∀ lpm nhop, (Ecmp.router lpm nhop).Reproduces) ∧
      (∀ dmac acl unset, (Firewall.firewall dmac acl unset).Reproduces ∧
        (Firewall.firewall dmac acl unset).SendsUnchanged) ∧
      (FlowCounter.counter.Reproduces ∧ FlowCounter.counter.SendsUnchanged) ∧
      ∀ lpm, (Ipv6Lpm.router lpm).Reproduces := by
  refine ⟨Telemetry.router_reproduces, Ecmp.router_reproduces, ?_, ?_, Ipv6Lpm.router_reproduces⟩
  · intro dmac acl unset
    have hr := Firewall.firewall_reproduces dmac acl unset
    exact ⟨hr, (Firewall.firewall_passesHeaders dmac acl unset).sendsUnchanged hr⟩
  · have hr := FlowCounter.counter_reproduces
    exact ⟨hr, FlowCounter.counter_passesHeaders.sendsUnchanged hr⟩

end P4Cases
