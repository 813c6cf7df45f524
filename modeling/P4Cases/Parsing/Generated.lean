import P4Cases.Ecmp.Packets
import P4Cases.FlowCounter.Packets
import P4Cases.Telemetry.Generated

/-! The test frames of three cases are packets that the programs under test accept. -/
namespace P4Cases
open Wire P4

/-- A generated frame is an IPv4 packet that says of itself what it is, and its sums are right. -/
def Generated (frame options tcpOptions payload : List Byte) (protocol : ℤ) (summed : Prop) :
    Prop :=
  checksum (slice frame 14 (headerEnd frame)) = 0 ∧ ∃ eth ip header padding,
    Built frame options tcpOptions payload protocol summed eth ip header padding

theorem Built.generated {frame options tcpOptions payload header padding : List Byte}
    {protocol : ℤ} {summed : Prop} {eth : Ethernet} {ip : Ipv4}
    (h : Built frame options tcpOptions payload protocol summed eth ip header padding) :
    Generated frame options tcpOptions payload protocol summed :=
  ⟨h.checksum_zero, eth, ip, header, padding, h⟩

/-- Whatever the arguments, a frame that is generated is accepted by the program it is for,
and its lengths and sums are those of the header and the payload in it. -/
theorem makeFrames_valid :
    (∀ (a : FlowCounter.FrameArgs) (frame : List Byte), a.transport = none →
      FlowCounter.makeFrame a = .ok frame →
        (∀ port, ∃ hdr payload, FlowCounter.counter.Accepts port frame hdr payload ∧
          hdr.ipv4.isSome = true) ∧
        a.payload.length = a.payloadSize.toNat ∧
        Generated frame a.options [] a.payload a.protocol (Summed a.protocol a.udpChecksum)) ∧
    (∀ (a : Ecmp.FrameArgs) (frame : List Byte), a.transport = none →
      Ecmp.makeFrame a = .ok frame →
        (∀ lpm nhop port, ∃ hdr payload, (Ecmp.router lpm nhop).Accepts port frame hdr payload ∧
          hdr.ipv4.isSome = true) ∧
        a.payload.length = a.payloadSize.toNat ∧
        Generated frame a.options a.tcpOptions a.payload a.protocol
          (Summed a.protocol a.udpChecksum)) ∧
    ∀ (a : Telemetry.FrameArgs) (frame : List Byte), Telemetry.OptionsOk a.options →
      Telemetry.makeFrame a = .ok frame →
        (∀ unset lpm intDefault port, ∃ hdr payload,
          (Telemetry.router unset lpm intDefault).Accepts port frame hdr payload ∧
            hdr.ipv4.isSome = true) ∧
        a.payload.length = a.payloadSize.toNat ∧
        Generated frame a.options [] a.payload 17 True := by
  refine ⟨?_, ?_, ?_⟩
  · intro a frame ht h
    obtain ⟨hsize, eth, ip, header, padding, hb⟩ := FlowCounter.makeFrame_built ht h
    exact ⟨FlowCounter.makeFrame_accepts ht h, hsize, hb.generated⟩
  · intro a frame ht h
    obtain ⟨hsize, eth, ip, header, padding, hb⟩ := Ecmp.makeFrame_built ht h
    exact ⟨fun lpm nhop => Ecmp.makeFrame_accepts lpm nhop ht h, hsize, hb.generated⟩
  · intro a frame ho h
    obtain ⟨hsize, eth, ip, header, hb⟩ := Telemetry.makeFrame_built h
    exact ⟨fun unset lpm intDefault => Telemetry.makeFrame_accepts unset lpm intDefault ho h, hsize,
      hb.generated⟩

end P4Cases
