import P4Cases.Ecmp.Oracle
import P4Cases.Frames.Build

/-! The test frames of the ECMP router, and that the switch accepts them. -/
namespace P4Cases.Ecmp
open Wire P4

/-- The arguments of `make_frame`; the destination is parsed. -/
structure FrameArgs where
  source : List Byte
  destination : BitVec 32
  sender : Host
  identification : ℤ
  protocol : ℤ := 17
  sport : ℤ := 1000
  dport : ℤ := 5000
  options : List Byte := []
  tcpOptions : List Byte := []
  payloadSize : ℤ := 24
  ttl : ℤ := 64
  flags : ℤ := 0
  transport : Option (List Byte) := none
  udpChecksum : Bool := true

def makeFrame (a : FrameArgs) : Py (List Byte) := do
  raiseIf (a.source.length ≠ 4 ∨ a.options.length % 4 ≠ 0 ∨ a.options.length > 40 ∨
    a.tcpOptions.length % 4 ≠ 0 ∨ a.tcpOptions.length > 40 ∨ a.payloadSize < 0)
    (.valueError "invalid host, source, options or payload length")
  let target := beBytes 4 a.destination.toNat
  let label ← packInts [(2, a.identification)]
  let payload := (ascii "ecmp:" ++ label ++ pattern 6).take a.payloadSize.toNat
  raiseIf (a.payloadSize > payload.length)
    (.valueError "payload exceeds the test frame size limit")
  let transport ← match a.transport with
    | some transport => .ok transport
    | none =>
        buildTransport a.protocol a.sport a.dport a.identification a.tcpOptions payload a.source
          target a.udpChecksum
  let header ← ipv4Header a.identification a.flags a.ttl a.protocol a.source target a.options
    transport.length
  let frame := hostMacs a.sender ++ hostMacs a.sender ++ [0x08, 0x00] ++ header ++ transport
  return ljust 60 (← recalculateChecksum frame)

/-- The payload of a generated packet. -/
def FrameArgs.payload (a : FrameArgs) : List Byte :=
  (ascii "ecmp:" ++ beBytes 2 a.identification.toNat ++ pattern 6).take a.payloadSize.toNat

variable {a : FrameArgs} {frame : List Byte}

/-- The transport part of a frame. -/
def FrameArgs.segment (a : FrameArgs) : Py (List Byte) :=
  match a.transport with
  | some transport => .ok transport
  | none => buildTransport a.protocol a.sport a.dport a.identification a.tcpOptions a.payload
      a.source (beBytes 4 a.destination.toNat) a.udpChecksum

/-- The arguments that are checked before anything is built. -/
structure FrameArgs.Checked (a : FrameArgs) : Prop where
  source : a.source.length = 4
  options : a.options.length % 4 = 0 ∧ a.options.length ≤ 40
  tcpOptions : a.tcpOptions.length % 4 = 0 ∧ a.tcpOptions.length ≤ 40
  identification : 0 ≤ a.identification ∧ a.identification < 65536
  payload : 0 ≤ a.payloadSize ∧ a.payloadSize ≤ a.payload.length

theorem makeFrame_ok : makeFrame a = .ok frame ↔ a.Checked ∧
    ∃ transport header result, a.segment = .ok transport ∧
      ipv4Header a.identification a.flags a.ttl a.protocol a.source
        (beBytes 4 a.destination.toNat) a.options transport.length = .ok header ∧
      recalculateChecksum (hostMacs a.sender ++ hostMacs a.sender ++ [0x08, 0x00] ++ header ++
        transport) = .ok result ∧ frame = ljust 60 result := by
  constructor
  · intro h
    obtain ⟨hargs, h⟩ := raiseIf_bind_ok.mp h
    obtain ⟨label, hlabel, h⟩ := py_bind_ok.mp h
    obtain ⟨hid, rfl⟩ := packInts_single.mp hlabel
    obtain ⟨hsize, h⟩ := raiseIf_bind_ok.mp h
    dsimp only at h
    simp only [not_or, not_not, not_lt] at hargs
    obtain ⟨hsource, hopt, hlen, htcp, htcplen, hnonneg⟩ := hargs
    have hsize : ¬ a.payloadSize > a.payload.length := hsize
    refine ⟨⟨hsource, ⟨hopt, hlen⟩, ⟨htcp, htcplen⟩, hid, hnonneg, not_lt.mp hsize⟩, ?_⟩
    cases ht : a.transport with
    | some bytes =>
      rw [ht] at h
      obtain ⟨transport, htransport, h⟩ := py_bind_ok.mp h
      obtain ⟨header, hheader, h⟩ := py_bind_ok.mp h
      obtain ⟨result, hresult, h⟩ := py_bind_ok.mp h
      exact ⟨transport, header, result, by rw [FrameArgs.segment, ht]; exact htransport, hheader,
        hresult, (Except.ok.inj h).symm⟩
    | none =>
      rw [ht] at h
      obtain ⟨transport, htransport, h⟩ := py_bind_ok.mp h
      obtain ⟨header, hheader, h⟩ := py_bind_ok.mp h
      obtain ⟨result, hresult, h⟩ := py_bind_ok.mp h
      exact ⟨transport, header, result, by rw [FrameArgs.segment, ht]; exact htransport, hheader,
        hresult, (Except.ok.inj h).symm⟩
  · intro h
    obtain ⟨hargs, transport, header, result, htransport, hheader, hresult, rfl⟩ := h
    have hsource := hargs.source
    have hopt := hargs.options
    have htcp := hargs.tcpOptions
    have hnonneg := hargs.payload.1
    have hsize : ¬ a.payloadSize > a.payload.length := not_lt.mpr hargs.payload.2
    refine raiseIf_bind_ok.mpr ⟨by clear hsize; omega, py_bind_ok.mpr ⟨_, packInts_single.mpr
      ⟨hargs.identification, rfl⟩, raiseIf_bind_ok.mpr ⟨hsize, ?_⟩⟩⟩
    dsimp only
    cases ht : a.transport with
    | some bytes =>
      rw [FrameArgs.segment, ht] at htransport
      exact py_bind_ok.mpr ⟨transport, htransport, py_bind_ok.mpr ⟨header, hheader,
        py_bind_ok.mpr ⟨result, hresult, rfl⟩⟩⟩
    | none =>
      rw [FrameArgs.segment, ht] at htransport
      exact py_bind_ok.mpr ⟨transport, htransport, py_bind_ok.mpr ⟨header, hheader,
        py_bind_ok.mpr ⟨result, hresult, rfl⟩⟩⟩

theorem makeFrame_built (ht : a.transport = none) (h : makeFrame a = .ok frame) :
    a.payload.length = a.payloadSize.toNat ∧ ∃ eth ip header padding,
      Built frame a.options a.tcpOptions a.payload a.protocol (Summed a.protocol a.udpChecksum) eth
        ip header padding := by
  obtain ⟨hargs, transport, header, result, htransport, hheader, hresult, rfl⟩ := makeFrame_ok.mp h
  rw [FrameArgs.segment, ht] at htransport
  refine ⟨?_, ?_⟩
  · have hle : a.payload.length ≤ a.payloadSize.toNat := List.length_take_le _ _
    have hpay := hargs.payload
    omega
  · apply built_ok _ hargs.options.1 hargs.options.2 hargs.tcpOptions.1 hargs.source
      (beBytes_length 4 _) htransport hheader hresult
    simp [hostMacs_eq]

theorem Tcp.encode_eq (h : Tcp) :
    Header.encode h = beBytes 2 h.srcPort.toNat ++ (beBytes 2 h.dstPort.toNat ++
      (beBytes 4 h.seqNo.toNat ++ (beBytes 4 h.ackNo.toNat ++
      (beBytes 1 (h.dataOffset.toNat * 16 + h.reserved.toNat) ++ (beBytes 1 h.flags.toNat ++
      (beBytes 2 h.window.toNat ++ (beBytes 2 h.checksum.toNat ++
        beBytes 2 h.urgentPtr.toNat))))))) := by
  change packBits (toBits h.srcPort ++ (toBits h.dstPort ++ (toBits h.seqNo ++ (toBits h.ackNo ++
    (toBits h.dataOffset ++ (toBits h.reserved ++ (toBits h.flags ++ (toBits h.window ++
    (toBits h.checksum ++ (toBits h.urgentPtr ++ [])))))))))) = _
  rw [packBits_toBits h.srcPort _ (by rfl), packBits_toBits h.dstPort _ (by rfl),
    packBits_toBits h.seqNo _ (by rfl), packBits_toBits h.ackNo _ (by rfl),
    packBits_merge h.dataOffset, packBits_toBits (h.dataOffset ++ h.reserved) _ (by rfl),
    append_toNat]
  simp [packBits_toBits]

/-- A generated TCP packet starts with a TCP header that gives its own length. -/
theorem exists_tcp {header payload tcpOptions : List Byte} {protocol : ℤ}
    (h : TransportOk protocol tcpOptions header payload) (hp : protocol = 6) :
    ∃ (tcp : Tcp) (rest : List Byte), header = Header.encode tcp ++ rest ∧
      tcp.dataOffset.toNat = header.length / 4 := by
  obtain ⟨hlen, hfield⟩ := h.tcp hp
  obtain ⟨tcp, rest, rfl⟩ : ∃ (t : Tcp) (r : _), header = Header.encode t ++ r :=
    Header.exists_encode_append (by rw [Tcp.size]; omega)
  refine ⟨tcp, rest, rfl, ?_⟩
  have hoff := tcp.dataOffset.isLt
  have hres := tcp.reserved.isLt
  have hbyte : fieldAt (Header.encode tcp ++ rest) 12 13 =
      tcp.dataOffset.toNat * 16 + tcp.reserved.toNat := by
    simp [fieldAt, Tcp.encode_eq, beNat_beBytes]
    omega
  omega

/-- The switch parses a generated frame without error and its checksum verifies. -/
theorem makeFrame_accepts (lpm : Table (BitVec 32) LpmAction) (nhop : Table (BitVec 14) NhopAction)
    (ht : a.transport = none) (h : makeFrame a = .ok frame) (port : Port) :
    ∃ hdr payload, (router lpm nhop).Accepts port frame hdr payload ∧ hdr.ipv4.isSome = true := by
  obtain ⟨-, eth, ip, header, padding, hb⟩ := makeFrame_built ht h
  have hl := hb.lengths
  have hihl := hb.ihl
  have htotal := hb.total
  have hproto : ∀ n : ℕ, n < 256 → (ip.protocol = BitVec.ofNat 8 n ↔ a.protocol = n) := by
    intro n hn
    rw [← hb.isProtocol, ← BitVec.toNat_inj, BitVec.toNat_ofNat, Nat.mod_eq_of_lt hn]
    exact_mod_cast Iff.rfl
  have haccepts : ∀ (transport : Transport) {payload : List Byte},
      header ++ (a.payload ++ padding) = transport.bytes ++ payload →
      transport.Fits ip (transportLen ip) →
      ∃ hdr payload, (router lpm nhop).Accepts port frame hdr payload ∧
        hdr.ipv4.isSome = true := by
    intro transport payload hbytes hfits
    have hacc : Accepted frame eth ip a.options transport payload :=
      ⟨by rw [hb.bytes, hbytes], hb.isIpv4, hl, hb.options_length, hfits⟩
    exact ⟨_, payload, hacc.accepts lpm nhop port hb.hdrChecksum, rfl⟩
  have hlen : transportLen ip = header.length + a.payload.length := by
    rw [transportLen]
    omega
  by_cases hu : Unfragmented ip ∧ (ip.protocol = 6 ∨ ip.protocol = 17)
  · obtain ⟨hfrag, hp | hp⟩ := hu
    · have h6 : a.protocol = 6 := (hproto 6 (by norm_num)).mp hp
      obtain ⟨hheader, -⟩ := hb.transport.tcp h6
      obtain ⟨tcp, rest, rfl, hoff⟩ := exists_tcp hb.transport h6
      exact haccepts (.tcp tcp) (List.append_assoc _ _ _)
        ⟨hfrag, hp, by omega, by omega, by omega⟩
    · have h17 : a.protocol = 17 := (hproto 17 (by norm_num)).mp hp
      obtain ⟨udp, rfl, hudp⟩ := hb.exists_udp h17
      rw [Header.encode_length, Udp.size] at hlen
      exact haccepts (.udp udp) rfl ⟨hfrag, hp, by omega, by omega, by omega⟩
  · exact haccepts .unparsed rfl hu

end P4Cases.Ecmp
