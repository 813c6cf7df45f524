import P4Cases.Ecmp.Accepted

/-! Packets of one flow take one next hop: what the hash reads, and that the rest
of the packet does not reach it. -/
namespace P4Cases.Ecmp
open Wire P4

/-- The bytes the flow hash is computed over. -/
def hashBytes (ip : Ipv4) (transport : Transport) : List Byte :=
  beBytes 4 ip.srcAddr.toNat ++ (beBytes 4 ip.dstAddr.toNat ++ (beBytes 1 ip.protocol.toNat ++
    (beBytes 2 transport.srcPort.toNat ++ beBytes 2 transport.dstPort.toNat)))

theorem packBits_hashFields (ip : Ipv4) (options : Option (List Byte)) (eth : Ethernet)
    (transport : Transport) :
    packBits (hashFields ip (parsedHeaders eth ip options transport).user) =
      hashBytes ip transport := by
  simp [hashFields, hashBytes, parsedHeaders, packBits_toBits]

/-- The member a group of `count` slots from `base` on gives to a packet. -/
def memberOf (base count : BitVec 14) (ip : Ipv4) (transport : Transport) : ℕ :=
  base.toNat + (crc16Arc (hashBytes ip transport)).toNat % count.toNat

theorem memberOf_lt (base : BitVec 14) {count : BitVec 14} (hc : 0 < count.toNat) (ip : Ipv4)
    (transport : Transport) :
    base.toNat ≤ memberOf base count ip transport ∧
      memberOf base count ip transport < base.toNat + count.toNat := by
  have hm := Nat.mod_lt (crc16Arc (hashBytes ip transport)).toNat hc
  unfold memberOf
  omega

theorem setEcmpSelect_eq (base : BitVec 14) {count : BitVec 14} (hc : 0 < count.toNat)
    (eth : Ethernet) (ip : Ipv4) (options : Option (List Byte)) (transport : Transport) :
    (setEcmpSelect base count ip (parsedHeaders eth ip options transport)).user.ecmpSelect =
      BitVec.ofNat 14 (memberOf base count ip transport) := by
  rw [setEcmpSelect, hashCrc16, if_neg (by omega), packBits_hashFields]
  rfl

variable (lpm : Table (BitVec 32) LpmAction) (nhop : Table (BitVec 14) NhopAction)
  (qdepth : Port → BitVec 19) (port : Port) {packet opts payload : List Byte} {eth : Ethernet}
  {ip : Ipv4} {transport : Transport}

/-- The frame sent to a next hop. -/
def routed (mac : BitVec 48) (eth : Ethernet) (ip : Ipv4) (opts : List Byte)
    (transport : Transport) (payload : List Byte) : List Byte :=
  let aged := { ip with ttl := ip.ttl - 1 }
  Header.encode { eth with dstAddr := mac, srcAddr := eth.dstAddr } ++
    (Header.encode { aged with hdrChecksum := ipv4Checksum aged opts } ++
      (opts ++ (transport.bytes ++ payload)))

theorem Accepted.accepts (h : Accepted packet eth ip opts transport payload)
    (hc : ip.hdrChecksum = ipv4Checksum ip opts) :
    (router lpm nhop).Accepts port packet (parsedHeaders eth ip (optionsOf opts) transport)
      payload := by
  refine ⟨parse_ok.mpr (Or.inr ⟨eth, ip, opts, transport, h, rfl⟩), ?_⟩
  change verifyIpv4 (some ip) (optionsOf opts) = false
  rw [verifyIpv4_eq, hc]
  simp

theorem Transport.deparsed (transport : Transport) :
    transport.udpHeader.elim [] Header.encode ++ transport.tcpHeader.elim [] Header.encode =
      transport.bytes := by
  cases transport <;> simp [udpHeader, tcpHeader, bytes]

/-- Whatever ingress stored in the user metadata, a next hop gets the same frame. -/
theorem forward_setNhop (ha : (router lpm nhop).Accepts port packet
      (parsedHeaders eth ip (optionsOf opts) transport) payload) {mac : BitVec 48} {out : Port}
    (user : UserMetadata)
    (hi : myIngress lpm nhop (parsedHeaders eth ip (optionsOf opts) transport)
        (V1Switch.arrival port packet) =
      setNhop mac out { parsedHeaders eth ip (optionsOf opts) transport with user }
        (V1Switch.arrival port packet)) :
    (router lpm nhop).forward qdepth port packet =
      if out = dropPort then [] else [(out, routed mac eth ip opts transport payload)] := by
  have hr := ha.runIngress (s := ())
  change _ = ((), myIngress lpm nhop _ _) at hr
  rw [hi] at hr
  split_ifs with hp
  · exact V1Switch.forward_dropPort (by rw [hr]; rfl) (by rw [hr]; exact hp)
  · rw [ha.forward_unicast qdepth hr (fun _ _ => rfl) rfl hp]
    have hd := transport.deparsed
    simp only [router, myDeparser, myComputeChecksum, parsedHeaders, Option.map_some,
      updateIpv4_eq, Option.elim_some, optionsOf_getD, hd, routed, List.append_assoc]

theorem myIngress_passed (packet : List Byte) (eth : Ethernet) (opts : List Byte)
    (transport : Transport) (ht : ¬ ip.ttl ≤ 1) :
    myIngress lpm nhop (parsedHeaders eth ip (optionsOf opts) transport)
        (V1Switch.arrival port packet) =
      applyLpm lpm nhop ip (parsedHeaders eth ip (optionsOf opts) transport)
        (V1Switch.arrival port packet) := by
  refine if_neg ?_
  rintro (h | h | h)
  · exact h rfl
  · have hz : (0 : BitVec 1) = 1 := h
    exact absurd hz (by decide)
  · exact ht h

theorem myIngress_expired (eth : Ethernet) (opts : List Byte) (sm : Metadata)
    (ht : ip.ttl ≤ 1) :
    myIngress lpm nhop (parsedHeaders eth ip (optionsOf opts) transport) sm =
      (parsedHeaders eth ip (optionsOf opts) transport, markToDrop sm) :=
  if_pos (Or.inr (Or.inr ht))

theorem myIngress_guarded (hdr : Headers) {sm : Metadata}
    (h : sm.parserError ≠ none ∨ sm.checksumError = 1) :
    (myIngress lpm nhop hdr sm).2 = markToDrop sm := by
  unfold myIngress
  split
  · rfl
  · rw [if_pos (h.imp_right Or.inl)]

/-- The checksum and TTL guards, on what the parser leaves. -/
theorem accepts_cases {hdr : Headers} (ha : (router lpm nhop).Accepts port packet hdr payload) :
    hdr.ipv4 = none ∨ ∃ eth ip opts transport, Accepted packet eth ip opts transport payload ∧
      ip.hdrChecksum = ipv4Checksum ip opts ∧
      hdr = parsedHeaders eth ip (optionsOf opts) transport := by
  rcases parse_ok.mp ha.1 with ⟨eth, -, -, rfl⟩ | ⟨eth, ip, opts, transport, h, rfl⟩
  · exact Or.inl rfl
  · have hv := ha.2
    change verifyIpv4 (some ip) (optionsOf opts) = false at hv
    rw [verifyIpv4_eq, decide_eq_false_iff_not, not_not] at hv
    exact Or.inr ⟨eth, ip, opts, transport, h, hv, rfl⟩

/-- A packet whose route selects the group goes to the selected slot's next hop. -/
theorem forward_ecmp (h : Accepted packet eth ip opts transport payload)
    (hc : ip.hdrChecksum = ipv4Checksum ip opts) (ht : ¬ ip.ttl ≤ 1) {base count : BitVec 14}
    (hcount : 0 < count.toNat)
    (hl : lpm.lookup ip.dstAddr = some (.setEcmpSelect base count)) :
    (router lpm nhop).forward qdepth port packet =
      match nhop.lookup (BitVec.ofNat 14 (memberOf base count ip transport)) with
      | some (.setNhop mac out) =>
          if out = dropPort then [] else [(out, routed mac eth ip opts transport payload)]
      | _ => [] := by
  have ha := h.accepts lpm nhop port hc
  have hr := ha.runIngress (s := ())
  change _ = ((), myIngress lpm nhop _ _) at hr
  have hi := myIngress_passed lpm nhop port packet eth opts transport ht
  have hs := setEcmpSelect_eq base hcount eth ip (optionsOf opts) transport
  simp only [applyLpm, hl, Option.getD_some, applyNhop, hs] at hi
  rcases hn : nhop.lookup (BitVec.ofNat 14 (memberOf base count ip transport)) with
    _ | ⟨mac, out⟩ | _ <;> simp only [hn] at hi
  · rw [hi] at hr
    exact V1Switch.forward_dropped (congrArg (·.2.2) hr)
  · exact forward_setNhop lpm nhop qdepth port ha _ hi
  · rw [hi] at hr
    exact V1Switch.forward_dropped (congrArg (·.2.2) hr)

/-! The flow of a frame, read from its bytes. -/

def HasPorts (frame : List Byte) : Prop :=
  ¬ Raw.Fragment frame ∧ (Raw.protocol frame = 6 ∨ Raw.protocol frame = 17)

/-- Two frames of one flow: the same addresses and protocol, and the same ports
where both have any. -/
structure SameFlow (frame₁ frame₂ : List Byte) : Prop where
  srcAddr : Raw.srcAddr frame₁ = Raw.srcAddr frame₂
  dstAddr : Raw.dstAddr frame₁ = Raw.dstAddr frame₂
  protocol : Raw.protocol frame₁ = Raw.protocol frame₂
  kind : (HasPorts frame₁ ∧ HasPorts frame₂ ∧ Raw.srcPort frame₁ = Raw.srcPort frame₂ ∧
      Raw.dstPort frame₁ = Raw.dstPort frame₂) ∨
    (Raw.Fragment frame₁ ∧ Raw.Fragment frame₂) ∨
    (¬ Raw.Fragment frame₁ ∧ ¬ Raw.Fragment frame₂ ∧
      ¬ (Raw.protocol frame₁ = 6 ∨ Raw.protocol frame₁ = 17))

theorem Transport.bytes_ports {transport : Transport} (h : transport ≠ .unparsed) :
    ∃ tail, transport.bytes =
      beBytes 2 transport.srcPort.toNat ++ (beBytes 2 transport.dstPort.toNat ++ tail) := by
  rcases transport with udp | tcp | _
  · exact ⟨_, Udp.encode_eq udp⟩
  · change ∃ tail, packBits (toBits tcp.srcPort ++ (toBits tcp.dstPort ++ _)) = _
    rw [packBits_toBits tcp.srcPort _ (by rfl), packBits_toBits tcp.dstPort _ (by rfl)]
    exact ⟨_, rfl⟩
  · exact absurd rfl h

/-- A transport header was parsed exactly for the frames that have ports. -/
theorem Accepted.hasPorts_iff (h : Accepted packet eth ip opts transport payload) :
    HasPorts packet ↔ transport ≠ .unparsed := by
  have h6 : ip.protocol.toNat = 6 ↔ ip.protocol = 6 := BitVec.toNat_inj (y := (6 : BitVec 8))
  have h17 : ip.protocol.toNat = 17 ↔ ip.protocol = 17 := BitVec.toNat_inj (y := (17 : BitVec 8))
  have hfit := h.transport
  rw [h.bytes, HasPorts, fragment_encode, Raw.protocol_encode, not_not, h6, h17]
  rcases transport with udp | tcp | _
  · exact iff_of_true ⟨hfit.1, Or.inr hfit.2.1⟩ (by simp)
  · exact iff_of_true ⟨hfit.1, Or.inl hfit.2.1⟩ (by simp)
  · exact iff_of_false hfit (by simp)

theorem Accepted.ports (h : Accepted packet eth ip opts transport payload) (hp : HasPorts packet) :
    transport.srcPort.toNat = Raw.srcPort packet ∧
      transport.dstPort.toNat = Raw.dstPort packet := by
  obtain ⟨tail, ht⟩ := Transport.bytes_ports (h.hasPorts_iff.mp hp)
  have he := ports_encode eth h.lengths.five_le_ihl h.options transport.srcPort transport.dstPort
    (tail ++ payload)
  rw [h.bytes, ht, List.append_assoc, List.append_assoc]
  exact ⟨he.1.symm, he.2.symm⟩

theorem Accepted.no_ports (h : Accepted packet eth ip opts transport payload)
    (hp : ¬ HasPorts packet) : transport = .unparsed := by
  rwa [h.hasPorts_iff, not_not] at hp

/-- The hash is computed over the flow and nothing else. -/
theorem hashBytes_congr {packet₁ packet₂ opts₁ opts₂ payload₁ payload₂ : List Byte}
    {eth₁ eth₂ : Ethernet} {ip₁ ip₂ : Ipv4} {transport₁ transport₂ : Transport}
    (h₁ : Accepted packet₁ eth₁ ip₁ opts₁ transport₁ payload₁)
    (h₂ : Accepted packet₂ eth₂ ip₂ opts₂ transport₂ payload₂) (hf : SameFlow packet₁ packet₂) :
    hashBytes ip₁ transport₁ = hashBytes ip₂ transport₂ := by
  have hs : ip₁.srcAddr.toNat = ip₂.srcAddr.toNat := by
    simpa [h₁.bytes, h₂.bytes] using hf.srcAddr
  have hd : ip₁.dstAddr.toNat = ip₂.dstAddr.toNat := by
    simpa [h₁.bytes, h₂.bytes] using hf.dstAddr
  have hp : ip₁.protocol.toNat = ip₂.protocol.toNat := by
    simpa [h₁.bytes, h₂.bytes] using hf.protocol
  have hports : transport₁.srcPort.toNat = transport₂.srcPort.toNat ∧
      transport₁.dstPort.toNat = transport₂.dstPort.toNat := by
    by_cases hk : HasPorts packet₁
    · rcases hf.kind with ⟨-, hk₂, hsp, hdp⟩ | ⟨hfrag, -⟩ | ⟨-, -, hn⟩
      · obtain ⟨hs₁, hd₁⟩ := h₁.ports hk
        obtain ⟨hs₂, hd₂⟩ := h₂.ports hk₂
        exact ⟨by rw [hs₁, hs₂, hsp], by rw [hd₁, hd₂, hdp]⟩
      · exact absurd hfrag hk.1
      · exact absurd hk.2 hn
    · have hk₂ : ¬ HasPorts packet₂ := by
        rintro ⟨hn₂, hq⟩
        rcases hf.kind with ⟨hk₁, -⟩ | ⟨-, hfrag⟩ | ⟨-, -, hn⟩
        · exact hk hk₁
        · exact hn₂ hfrag
        · exact hn (hf.protocol ▸ hq)
      rw [h₁.no_ports hk, h₂.no_ports hk₂]
      exact ⟨rfl, rfl⟩
  rw [hashBytes, hashBytes, hs, hd, hp, hports.1, hports.2]

/-- The frame passes the parser, checksum and TTL guards, and its route selects a
member of the group of `count` slots from `base` on. -/
def Selects (base count : BitVec 14) (frame : List Byte) : Prop :=
  ∃ hdr payload ip, (router lpm nhop).Accepts port frame hdr payload ∧ hdr.ipv4 = some ip ∧
    ¬ ip.ttl ≤ 1 ∧ lpm.lookup ip.dstAddr = some (.setEcmpSelect base count)

/-- `meta.ecmp_select` after ingress. -/
def ecmpSelect (frame : List Byte) : BitVec 14 :=
  ((router lpm nhop).runIngress () port frame).2.1.user.ecmpSelect

/-- Where a copy goes: its egress port and the next hop's MAC. -/
def nextHop (copy : Port × List Byte) : Port × ℕ := (copy.1, dstMac copy.2)

theorem Selects.accepted {base count : BitVec 14} {frame : List Byte}
    (h : Selects lpm nhop port base count frame) :
    ∃ eth ip opts transport payload, Accepted frame eth ip opts transport payload ∧
      ip.hdrChecksum = ipv4Checksum ip opts ∧ ¬ ip.ttl ≤ 1 ∧
      lpm.lookup ip.dstAddr = some (.setEcmpSelect base count) := by
  obtain ⟨hdr, payload, ip, ha, hip, ht, hl⟩ := h
  rcases accepts_cases lpm nhop port ha with hn | ⟨eth, ip', opts, transport, h, hc, rfl⟩
  · rw [hn] at hip
    cases hip
  · obtain rfl := Option.some.inj hip
    exact ⟨eth, ip', opts, transport, payload, h, hc, ht, hl⟩

theorem ecmpSelect_eq (h : Accepted packet eth ip opts transport payload)
    (hc : ip.hdrChecksum = ipv4Checksum ip opts) (ht : ¬ ip.ttl ≤ 1) {base count : BitVec 14}
    (hcount : 0 < count.toNat) (hl : lpm.lookup ip.dstAddr = some (.setEcmpSelect base count)) :
    ecmpSelect lpm nhop port packet = BitVec.ofNat 14 (memberOf base count ip transport) := by
  have hs := setEcmpSelect_eq base hcount eth ip (optionsOf opts) transport
  rw [ecmpSelect, (h.accepts lpm nhop port hc).runIngress]
  change (myIngress lpm nhop _ _).1.user.ecmpSelect = _
  rw [myIngress_passed lpm nhop port packet eth opts transport ht]
  simp only [applyLpm, hl, Option.getD_some, applyNhop, hs]
  cases (nhop.lookup (BitVec.ofNat 14 (memberOf base count ip transport))).getD .drop <;>
    exact hs

/-- Two frames of one flow select one member, within the group, and leave through
one port to one next hop, whatever else differs between them. -/
theorem flow_affinity (lpm : Table (BitVec 32) LpmAction) (nhop : Table (BitVec 14) NhopAction)
    (base count : BitVec 14) (hcount : 0 < count.toNat)
    (hfit : base.toNat + count.toNat ≤ 2 ^ 14) (qdepth₁ qdepth₂ : Port → BitVec 19)
    (port₁ port₂ : Port) (frame₁ frame₂ : List Byte)
    (h₁ : Selects lpm nhop port₁ base count frame₁) (h₂ : Selects lpm nhop port₂ base count frame₂)
    (hf : SameFlow frame₁ frame₂) :
    (ecmpSelect lpm nhop port₁ frame₁ = ecmpSelect lpm nhop port₂ frame₂ ∧
      base.toNat ≤ (ecmpSelect lpm nhop port₁ frame₁).toNat ∧
      (ecmpSelect lpm nhop port₁ frame₁).toNat < base.toNat + count.toNat) ∧
    ((router lpm nhop).forward qdepth₁ port₁ frame₁).map nextHop =
      ((router lpm nhop).forward qdepth₂ port₂ frame₂).map nextHop := by
  obtain ⟨eth₁, ip₁, opts₁, transport₁, payload₁, ha₁, hc₁, ht₁, hl₁⟩ := h₁.accepted
  obtain ⟨eth₂, ip₂, opts₂, transport₂, payload₂, ha₂, hc₂, ht₂, hl₂⟩ := h₂.accepted
  have hm : memberOf base count ip₁ transport₁ = memberOf base count ip₂ transport₂ := by
    rw [memberOf, memberOf, hashBytes_congr ha₁ ha₂ hf]
  obtain ⟨hge, hlt⟩ := memberOf_lt base hcount ip₁ transport₁
  have hs₁ := ecmpSelect_eq lpm nhop port₁ ha₁ hc₁ ht₁ hcount hl₁
  have hs₂ := ecmpSelect_eq lpm nhop port₂ ha₂ hc₂ ht₂ hcount hl₂
  have hn : (ecmpSelect lpm nhop port₁ frame₁).toNat = memberOf base count ip₁ transport₁ := by
    rw [hs₁, BitVec.toNat_ofNat, Nat.mod_eq_of_lt (by omega)]
  refine ⟨⟨by rw [hs₁, hs₂, hm], by omega, by omega⟩, ?_⟩
  rw [forward_ecmp lpm nhop qdepth₁ port₁ ha₁ hc₁ ht₁ hcount hl₁,
    forward_ecmp lpm nhop qdepth₂ port₂ ha₂ hc₂ ht₂ hcount hl₂, hm]
  rcases nhop.lookup (BitVec.ofNat 14 (memberOf base count ip₂ transport₂)) with
    _ | ⟨mac, out⟩ | _
  · rfl
  · by_cases hp : out = dropPort
    · simp [hp]
    · simp [hp, nextHop, routed]
  · rfl

/-! A UDP packet from 10.0.0.1 port 1000 to 10.0.0.9 port 5000, with padding. -/

def sampleEthernet : Ethernet := { dstAddr := 0x0a01, srcAddr := 1, etherType := typeIpv4 }

def sampleIpv4 (ttl : BitVec 8) : Ipv4 :=
  let h : Ipv4 :=
    { version := 4, ihl := 5, diffserv := 0, totalLen := 28, identification := 7, flags := 0
      fragOffset := 0, ttl, protocol := 17, hdrChecksum := 0, srcAddr := 0x0a000001
      dstAddr := 0x0a000009 }
  { h with hdrChecksum := ipv4Checksum h [] }

def sampleUdp : Udp := { srcPort := 1000, dstPort := 5000, length := 8, checksum := 0 }

def sampleFrame (ttl : BitVec 8) (padding : List Byte) : List Byte :=
  Header.encode sampleEthernet ++ (Header.encode (sampleIpv4 ttl) ++
    ([] ++ (Header.encode sampleUdp ++ padding)))

theorem sampleFrame_accepted (ttl : BitVec 8) (padding : List Byte) :
    Accepted (sampleFrame ttl padding) sampleEthernet (sampleIpv4 ttl) [] (.udp sampleUdp)
      padding where
  bytes := rfl
  etherType := rfl
  lengths :=
    { isVersion4 := rfl
      five_le_ihl := le_refl 5
      header_le := (by decide : 20 ≤ 28)
      total_le := by
        change 28 + 14 ≤ _
        simp [sampleFrame]
        omega }
  options := rfl
  transport := ⟨⟨by rfl, rfl⟩, rfl, le_refl 8, le_refl 8, le_refl 8⟩

theorem sampleFrame_selects (ttl : BitVec 8) (padding : List Byte) (ht : ¬ ttl ≤ 1) :
    Selects lpmEntries nhopEntries port 0 2 (sampleFrame ttl padding) :=
  have hl : lpmEntries.lookup 0x0a000009 = some (.setEcmpSelect 0 2) := by decide
  ⟨_, padding, _, (sampleFrame_accepted ttl padding).accepts _ _ port rfl, rfl, ht, hl⟩

theorem sampleFrame_sameFlow (ttl₁ ttl₂ : BitVec 8) (padding₁ padding₂ : List Byte) :
    SameFlow (sampleFrame ttl₁ padding₁) (sampleFrame ttl₂ padding₂) := by
  have h₁ := sampleFrame_accepted ttl₁ padding₁
  have h₂ := sampleFrame_accepted ttl₂ padding₂
  have hp₁ := h₁.hasPorts_iff.mpr (by simp)
  have hp₂ := h₂.hasPorts_iff.mpr (by simp)
  obtain ⟨hs₁, hd₁⟩ := h₁.ports hp₁
  obtain ⟨hs₂, hd₂⟩ := h₂.ports hp₂
  refine ⟨?_, ?_, ?_, Or.inl ⟨hp₁, hp₂, ?_, ?_⟩⟩
  · simp [sampleFrame, sampleIpv4]
  · simp [sampleFrame, sampleIpv4]
  · simp [sampleFrame, sampleIpv4]
  · rw [← hs₁, ← hs₂]
  · rw [← hd₁, ← hd₂]

theorem flow_affinity_sample :
    (ecmpSelect lpmEntries nhopEntries 1 (sampleFrame 64 []) =
        ecmpSelect lpmEntries nhopEntries 2 (sampleFrame 2 [7]) ∧
      (0 : BitVec 14).toNat ≤ (ecmpSelect lpmEntries nhopEntries 1 (sampleFrame 64 [])).toNat ∧
      (ecmpSelect lpmEntries nhopEntries 1 (sampleFrame 64 [])).toNat <
        (0 : BitVec 14).toNat + (2 : BitVec 14).toNat) ∧
    ((router lpmEntries nhopEntries).forward (fun _ => 0) 1 (sampleFrame 64 [])).map nextHop =
      ((router lpmEntries nhopEntries).forward (fun _ => 5) 2 (sampleFrame 2 [7])).map nextHop :=
  flow_affinity lpmEntries nhopEntries 0 2 (by decide) (by decide) _ _ 1 2 _ _
    (sampleFrame_selects 1 64 [] (by decide)) (sampleFrame_selects 2 2 [7] (by decide))
    (sampleFrame_sameFlow 64 2 [] [7])

end P4Cases.Ecmp
