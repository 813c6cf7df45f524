import P4Cases.FlowCounter.Run
import P4Cases.Frames.Build

/-! The test frames of the flow counter, and that the switch accepts them. -/
namespace P4Cases.FlowCounter
open Wire P4

def hostMacs (number : ℤ) : List Byte := beBytes 6 number.toNat

/-- The address `10.0.0.<number>`. -/
def hostIp (number : ℤ) : BitVec 32 := BitVec.ofInt 32 (0x0a000000 + number)

/-- The arguments of `make_frame`; addresses are parsed. -/
structure FrameArgs where
  prefixBytes : List Byte
  identification : ℤ
  sender : ℤ := 1
  source : Option (BitVec 32) := none
  destination : Option (BitVec 32) := none
  sport : ℤ := 1111
  dport : ℤ := 2222
  options : List Byte := []
  payloadSize : ℤ := 24
  protocol : ℤ := 17
  ttl : ℤ := 64
  flags : ℤ := 0
  transport : Option (List Byte) := none
  udpChecksum : Bool := true
  datagramId : Option ℤ := none

def makeFrame (a : FrameArgs) : Py (List Byte) := do
  raiseIf (a.prefixBytes.length ≠ 4 ∨ ¬ (a.sender = 1 ∨ a.sender = 2) ∨
    a.options.length % 4 ≠ 0 ∨ a.options.length > 40 ∨
    ¬ (0 ≤ a.payloadSize ∧ a.payloadSize ≤ 1472))
    (.valueError "invalid prefix, sender, options or payload length")
  let sourceIp := beBytes 4 (a.source.getD (hostIp a.sender)).toNat
  let targetIp := beBytes 4 (a.destination.getD (hostIp (3 - a.sender))).toNat
  let label ← packInts [(2, a.identification)]
  let payload := (ascii "register:" ++ label ++ pattern 6).take a.payloadSize.toNat
  let transport ← match a.transport with
    | some transport => .ok transport
    | none =>
        buildTransport a.protocol a.sport a.dport a.identification [] payload sourceIp targetIp
          a.udpChecksum
  let header ← ipv4Header (a.datagramId.getD a.identification) a.flags a.ttl a.protocol sourceIp
    targetIp a.options transport.length
  let frame := hostMacs (3 - a.sender) ++ a.prefixBytes ++ label ++ [0x08, 0x00] ++ header ++
    transport
  return ljust 60 (← recalculateChecksum frame)

/-- The payload of a generated packet. -/
def FrameArgs.payload (a : FrameArgs) : List Byte :=
  (ascii "register:" ++ beBytes 2 a.identification.toNat ++ pattern 6).take a.payloadSize.toNat

variable {a : FrameArgs} {frame : List Byte}

theorem makeFrame_built (ht : a.transport = none) (h : makeFrame a = .ok frame) :
    a.payload.length = a.payloadSize.toNat ∧ ∃ eth ip header padding,
      Built frame a.options [] a.payload a.protocol (Summed a.protocol a.udpChecksum) eth ip header
        padding := by
  obtain ⟨hargs, h⟩ := raiseIf_bind_ok.mp h
  obtain ⟨label, hlabel, h⟩ := py_bind_ok.mp h
  obtain ⟨-, rfl⟩ := packInts_single.mp hlabel
  simp only [not_or, not_not, not_lt] at hargs
  obtain ⟨hfour, -, hopt, hlen, hsize₀, hsize⟩ := hargs
  dsimp only at h
  rw [ht] at h
  obtain ⟨transport, htransport, h⟩ := py_bind_ok.mp h
  obtain ⟨header, hheader, h⟩ := py_bind_ok.mp h
  obtain ⟨result, hresult, h⟩ := py_bind_ok.mp h
  obtain rfl := Except.ok.inj h
  refine ⟨?_, ?_⟩
  · have hascii : (ascii "register:").length = 9 := by decide
    rw [FrameArgs.payload, List.length_take]
    simp [hascii]
    omega
  · apply built_ok _ hopt hlen rfl (beBytes_length 4 _) (beBytes_length 4 _) htransport hheader
      hresult
    simp [hostMacs, hfour]

/-- The switch parses a generated frame without error and its checksum verifies. -/
theorem makeFrame_accepts (ht : a.transport = none) (h : makeFrame a = .ok frame) (port : Port) :
    ∃ hdr payload, counter.Accepts port frame hdr payload ∧ hdr.ipv4.isSome = true := by
  obtain ⟨-, eth, ip, header, padding, hb⟩ := makeFrame_built ht h
  have hl := hb.lengths
  have hihl := hb.ihl
  have htotal := hb.total
  have hproto : ip.protocol = 17 ↔ a.protocol = 17 := by
    rw [← hb.isProtocol, ← BitVec.toNat_inj]
    exact_mod_cast Iff.rfl
  have haccepts : ∀ (udp : Option Udp) {payload : List Byte},
      header ++ (a.payload ++ padding) = udp.elim [] Header.encode ++ payload → UdpOk ip udp →
      ∃ hdr payload, counter.Accepts port frame hdr payload ∧ hdr.ipv4.isSome = true := by
    intro udp payload hbytes hudp
    have hparsed : Parsed frame eth ip a.options udp payload :=
      ⟨by rw [hb.bytes, hbytes], hb.isIpv4, hl, hb.options_length, hudp⟩
    exact ⟨_, payload, accepts_iff.mpr (Or.inr ⟨eth, ip, a.options, udp, hparsed, hb.hdrChecksum,
      rfl⟩), rfl⟩
  by_cases hu : Unfragmented ip ∧ ip.protocol = 17
  · obtain ⟨udp, rfl, hlen⟩ := hb.exists_udp (hproto.mp hu.2)
    rw [Header.encode_length, Udp.size] at htotal
    exact haccepts (some udp) rfl ⟨hu.1, hu.2, by omega, by omega, by omega⟩
  · exact haccepts none rfl hu

end P4Cases.FlowCounter
