import P4Cases.Ecmp.Probes

/-! What the frames of the self-test say: their identity, their host, and the frame they are
forwarded as. -/
namespace P4Cases.Ecmp
open Wire P4

/-- Arguments that `make_frame` takes. -/
structure FrameArgs.Fits (a : FrameArgs) : Prop where
  source : a.source.length = 4
  options : a.options.length % 4 = 0 ∧ a.options.length ≤ 40
  tcpOptions : a.tcpOptions.length % 4 = 0 ∧ a.tcpOptions.length ≤ 40
  payload : 0 ≤ a.payloadSize ∧ a.payloadSize ≤ 1500
  identification : 0 ≤ a.identification ∧ a.identification < 65536
  protocol : 0 ≤ a.protocol ∧ a.protocol < 256
  sport : 0 ≤ a.sport ∧ a.sport < 65536
  dport : 0 ≤ a.dport ∧ a.dport < 65536
  ttl : 0 ≤ a.ttl ∧ a.ttl < 256
  flags : 0 ≤ a.flags ∧ a.flags < 65536
  transport : ∀ bytes, a.transport = some bytes → bytes.length ≤ 2000

/-- The headers of a generated frame. -/
structure Framed (a : FrameArgs) (frame : List Byte) (eth : Ethernet) (ip : Ipv4)
    (rest : List Byte) : Prop where
  bytes : frame = Header.encode eth ++ (Header.encode ip ++ (a.options ++ rest))
  ihl : 4 * ip.ihl.toNat = 20 + a.options.length
  identification : ip.identification.toNat = a.identification.toNat
  fragment : ip.flags.toNat * 8192 + ip.fragOffset.toNat = a.flags.toNat
  ttl : ip.ttl.toNat = a.ttl.toNat
  protocol : ip.protocol.toNat = a.protocol.toNat
  source : beBytes 4 ip.srcAddr.toNat = a.source
  destination : ip.dstAddr = a.destination
  ports : a.transport = none → a.protocol = 17 ∨ a.protocol = 6 →
    rest.take 4 = beBytes 2 a.sport.toNat ++ beBytes 2 a.dport.toNat
  long : 60 ≤ frame.length

variable {a : FrameArgs} {frame : List Byte}

theorem makeFrame_total (h : a.Fits) : ∃ frame, makeFrame a = .ok frame := by
  have hpay := h.payload
  have hid := h.identification
  have hlen : a.payload.length = a.payloadSize.toNat := by
    have hascii : (ascii "ecmp:").length = 5 := by decide
    rw [FrameArgs.payload, List.length_take]
    simp [hascii]
    omega
  have hchecked : a.Checked :=
    ⟨h.source, h.options, h.tcpOptions, h.identification, hpay.1, by rw [hlen]; omega⟩
  have hsegment : ∃ transport, a.segment = .ok transport ∧ transport.length ≤ 2000 := by
    cases ht : a.transport with
    | some transport => exact ⟨transport, by rw [FrameArgs.segment, ht], h.transport transport ht⟩
    | none =>
      have hsmall : a.payload.length ≤ 60000 := by
        rw [hlen]
        omega
      obtain ⟨transport, hb, hl⟩ : ∃ transport, buildTransport a.protocol a.sport a.dport
          a.identification a.tcpOptions a.payload a.source (beBytes 4 a.destination.toNat)
          a.udpChecksum = .ok transport ∧ transport.length ≤ a.payload.length + 62 :=
        buildTransport_total h.protocol h.sport h.dport ⟨hid.1, by omega⟩ h.tcpOptions.2 hsmall
          a.udpChecksum
      rw [hlen] at hl
      exact ⟨transport, by rw [FrameArgs.segment, ht]; exact hb, by omega⟩
  obtain ⟨transport, htransport, hl⟩ := hsegment
  obtain ⟨header, hheader⟩ : ∃ header, ipv4Header a.identification a.flags a.ttl a.protocol a.source
      (beBytes 4 a.destination.toNat) a.options transport.length = .ok header :=
    ipv4Header_total h.identification h.flags h.ttl h.protocol h.options.2 (by omega)
  have hlong : 14 < (hostMacs a.sender ++ hostMacs a.sender ++ [0x08, 0x00] ++ header ++
      transport).length := by
    obtain ⟨-, rfl⟩ := ipv4Header_ok h.options.1 h.options.2 h.source (beBytes_length 4 _) hheader
    simp [hostMacs_eq]
    omega
  obtain ⟨result, hresult⟩ := recalculateChecksum_total hlong
  exact ⟨_, makeFrame_ok.mpr ⟨hchecked, transport, header, result, htransport, hheader, hresult,
    rfl⟩⟩

theorem makeFrame_framed (h : makeFrame a = .ok frame) :
    ∃ eth ip rest, Framed a frame eth ip rest := by
  obtain ⟨hargs, transport, header, result, htransport, hheader, hresult, rfl⟩ := makeFrame_ok.mp h
  obtain ⟨ip, rfl, hw⟩ := ipv4Header_writes hargs.options.1 hargs.options.2 hargs.source
    (beBytes_length 4 _) hheader
  obtain ⟨eth, heth, -⟩ := exists_ethernet
    (show (hostMacs a.sender ++ hostMacs a.sender).length = 12 by simp [hostMacs_eq])
  have hopt := hargs.options
  have hihl := hw.ihl
  have htarget : ip.dstAddr = a.destination := by
    rw [← BitVec.toNat_inj, ← beNat_beBytes_toNat 4 ip.dstAddr rfl, hw.target,
      beNat_beBytes_toNat 4 _ rfl]
  rw [heth, List.append_assoc, List.append_assoc (Header.encode _),
    recalculateChecksum_encode eth _ transport (by omega) (by omega)] at hresult
  obtain rfl := Except.ok.inj hresult
  refine ⟨eth, { ip with hdrChecksum := ipv4Checksum ip a.options },
    transport ++ List.replicate (60 - (Header.encode eth ++ (Header.encode
      { ip with hdrChecksum := ipv4Checksum ip a.options } ++ (a.options ++ transport))).length) 0,
    ⟨?_, hihl, hw.identification, hw.fragment, hw.ttl, hw.protocol, hw.source, htarget, ?_,
      by simp⟩⟩
  · rw [ljust]
    simp only [List.append_assoc]
  · intro ht hp
    rw [FrameArgs.segment, ht] at htransport
    have hports := buildTransport_ports hp htransport
    have hlong : 4 ≤ transport.length := by
      have hlen := congrArg List.length hports
      rw [List.length_take, List.length_append, beBytes_length, beBytes_length] at hlen
      omega
    rw [List.take_append_of_le_length hlong, hports]

theorem hashInput_total (h : 24 ≤ frame.length) : ∃ input, hashInput frame = .ok input := by
  have hports : ∃ ports, hashPorts frame = .ok ports := by
    unfold hashPorts
    split_ifs
    · rw [byteAt_eq (show 23 < frame.length by omega), py_ok_bind]
      split_ifs
      · rw [byteAt_eq (show 14 < frame.length by omega), py_ok_bind]
        exact ⟨_, rfl⟩
      · exact ⟨_, rfl⟩
    · exact ⟨_, rfl⟩
  obtain ⟨ports, hports⟩ := hports
  exact ⟨_, py_bind_ok.mpr ⟨ports, hports, rfl⟩⟩

namespace Framed
variable {eth : Ethernet} {ip : Ipv4} {rest : List Byte} (h : Framed a frame eth ip rest)
include h

theorem identityOf_eq : identityOf frame =
    beBytes 2 a.identification.toNat ++ (beBytes 2 a.flags.toNat ++ a.source) := by
  have hsrc := h.source
  rw [identityOf, h.bytes, ← h.identification, ← h.fragment, ← hsrc]
  simp [Ethernet.encode_eq, Ipv4.encode_eq]

theorem target : slice frame 30 34 = beBytes 4 a.destination.toNat := by
  rw [h.bytes, ← h.destination]
  simp [Ethernet.encode_eq, Ipv4.encode_eq]

/-- The hash input of an unfragmented packet with ports. -/
theorem hashInput_eq (ht : a.transport = none) (hp : a.protocol = 17 ∨ a.protocol = 6)
    (hf : a.flags = 0) : hashInput frame = .ok (a.source ++ (beBytes 4 a.destination.toNat ++
      beBytes 1 a.protocol.toNat) ++ (beBytes 2 a.sport.toNat ++ beBytes 2 a.dport.toNat)) := by
  have hihl := h.ihl
  have hlong := h.long
  have hfrag := h.fragment
  have hproto := h.protocol
  have hports : hashPorts frame = .ok (beBytes 2 a.sport.toNat ++ beBytes 2 a.dport.toNat) := by
    have hunfragmented : beNat (slice frame 20 22) &&& 0x3FFF = 0 := by
      rw [h.bytes, fragmentMask_eq_zero, unfragmented_iff]
      omega
    have hprotocol : fieldAt frame 23 24 = 6 ∨ fieldAt frame 23 24 = 17 := by
      have hb : fieldAt frame 23 24 = ip.protocol.toNat := by
        rw [h.bytes]
        exact Raw.protocol_encode eth ip _
      omega
    have hstart : (fieldAt frame 14 15 &&& 15) * 4 = 4 * ip.ihl.toNat := by
      rw [h.bytes, headerLen_encode]
    have hopt : a.options.length = 4 * (ip.ihl.toNat - 5) := by omega
    have hs := slice_transport eth rest (by omega) hopt 0 4
    rw [← h.bytes, Nat.add_zero] at hs
    have htake : slice rest 0 4 = rest.take 4 := rfl
    rw [hashPorts, if_pos hunfragmented, byteAt_eq (show 23 < frame.length by omega), py_ok_bind,
      if_pos hprotocol, byteAt_eq (show 14 < frame.length by omega), py_ok_bind, hstart]
    dsimp only
    rw [hs, htake, h.ports ht hp]
    rfl
  have hfixed : slice frame 26 34 ++ slice frame 23 24 =
      a.source ++ (beBytes 4 a.destination.toNat ++ beBytes 1 a.protocol.toNat) := by
    rw [h.bytes, ← h.source, ← h.destination, ← hproto]
    simp [Ethernet.encode_eq, Ipv4.encode_eq]
  rw [hashInput, hports, py_ok_bind, hfixed]
  rfl

theorem expectedHost_eq {input : List Byte} (hd : a.destination.toNat >>> 8 = 0x0a0000)
    (hinput : hashInput frame = .ok input) :
    expectedHost frame = .ok (if a.destination.toNat = 0x0a000001 then .h1
      else if a.destination.toNat = 0x0a000002 then .h2
      else if a.destination.toNat = 0x0a000003 then .h3
      else if crc16 input % 2 = 0 then .h2 else .h3) := by
  have hlong := h.long
  have hlen : (slice frame 30 34).length = 4 := slice_length (by omega)
  have hnum : beNat (slice frame 30 34) = a.destination.toNat := by
    rw [h.target, beNat_beBytes_toNat 4 _ rfl]
  unfold expectedHost
  rw [if_neg (not_not.mpr hlen)]
  dsimp only
  rw [hnum, hinput, if_pos hd, py_ok_bind]
  split_ifs <;> rfl

/-- A packet to the network has a host, one of the members unless it is for h1. -/
theorem exists_expectedHost (hd : a.destination.toNat >>> 8 = 0x0a0000) :
    ∃ host, expectedHost frame = .ok host ∧
      (a.destination.toNat ≠ 0x0a000001 → host = .h2 ∨ host = .h3) := by
  have hlong := h.long
  obtain ⟨input, hinput⟩ := hashInput_total (show 24 ≤ frame.length by omega)
  refine ⟨_, h.expectedHost_eq hd hinput, fun hne => ?_⟩
  rw [if_neg hne]
  split_ifs <;> simp

/-- A packet that may still travel has an expected frame. -/
theorem exists_expectedFrame (ht : 1 ≤ a.ttl) (host : Host) :
    ∃ f, expectedFrame frame (some host) = .ok f := by
  have hlong := h.long
  have httl := h.ttl
  have hmac : (hostMacs host).length = 6 - 0 := by cases host <;> rfl
  have hold : (slice frame 0 6).length = 12 - 6 := slice_length (by omega)
  have hl₁ := setSlice_length (by omega) (show 6 ≤ frame.length by omega) hmac
  have hl₂ := setSlice_length (by omega) (show 12 ≤ (setSlice frame 0 6 (hostMacs host)).length by
    omega) hold
  have hmacs : setSlice (setSlice frame 0 6 (hostMacs host)) 6 12 (slice frame 0 6) =
      Header.encode { eth with dstAddr := host.mac, srcAddr := eth.dstAddr } ++
        (Header.encode ip ++ (a.options ++ rest)) := by
    rw [h.bytes, hostMacs_eq, setMacs_encode]
  have hbyte : byteAt (setSlice (setSlice frame 0 6 (hostMacs host)) 6 12 (slice frame 0 6)) 22 =
      .ok a.ttl.toNat := by
    rw [byteAt_eq (by omega), hmacs, ← httl]
    exact congrArg Except.ok (Raw.ttl_encode _ ip _)
  have hpure : (pure host : Py Host) = .ok host := rfl
  have hne : a.ttl.toNat ≠ 0 := by omega
  rw [expectedFrame, hpure, py_ok_bind]
  dsimp only
  rw [hbyte, py_ok_bind, if_neg hne]
  apply recalculateChecksum_total
  rw [setSlice_length (by omega) (by omega) (beBytes_length 1 _)]
  omega

end Framed

/-! The changes that the test makes to frames that must not be forwarded. -/

/-- The change keeps the identity. -/
def Keeps (transform : List Byte → Py (List Byte)) : Prop :=
  ∀ frame, 60 ≤ frame.length → ∃ changed, transform frame = .ok changed ∧
    30 ≤ changed.length ∧ identityOf changed = identityOf frame

theorem keeps_replace {offset : ℕ} {data : List Byte} (hdata : 0 < data.length)
    (ho : offset + data.length ≤ 18 ∨ 30 ≤ offset) (hl : offset + data.length ≤ 60) :
    Keeps (replace offset data) := by
  intro frame hframe
  obtain ⟨hlen, hid⟩ := setSlice_identity frame offset (offset + data.length) data
    (by omega) (by omega) (by omega) (by omega)
  obtain ⟨changed, hchanged⟩ :=
    recalculateChecksum_total (show 14 < (setSlice frame offset (offset + data.length) data).length
      by omega)
  obtain ⟨hlen', hid'⟩ := recalculateChecksum_identity (by omega) hchanged
  exact ⟨changed, hchanged, by omega, hid'.trans hid⟩

theorem keeps_setSlice {i j : ℕ} {new : List Byte} (hij : i ≤ j) (hj : j ≤ 18)
    (hnew : new.length = j - i) : Keeps fun frame => .ok (setSlice frame i j new) := by
  intro frame hframe
  obtain ⟨hlen, hid⟩ := setSlice_identity frame i j new hij (by omega) (by omega) hnew
  exact ⟨_, rfl, by omega, hid⟩

theorem keeps_take {n : ℕ} (hn : 30 ≤ n) : Keeps fun frame => .ok (frame.take n) := by
  intro frame hframe
  refine ⟨_, rfl, ?_, ?_⟩
  · rw [List.length_take]
    omega
  · rw [identityOf, slice_take _ (by omega), slice_take _ (by omega)]
    rfl

theorem keeps_flipChecksum : Keeps flipChecksum := by
  intro frame hframe
  obtain ⟨hlen, hid⟩ := setSlice_identity frame 24 25
    (beBytes 1 (fieldAt frame 24 25 ^^^ 1)) (by omega) (by omega) (by omega)
    (beBytes_length 1 _)
  refine ⟨_, ?_, by omega, hid⟩
  rw [flipChecksum, byteAt_eq (show 24 < frame.length by omega), py_ok_bind]
  rfl

end P4Cases.Ecmp
