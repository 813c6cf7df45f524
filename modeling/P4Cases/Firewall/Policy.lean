import P4Cases.Firewall.Switch

/-! What the firewall lets through, in terms of the bytes of a frame. -/
namespace P4Cases.Firewall
open Wire P4

inductive Host where
  | h1
  | h2
  deriving DecidableEq, Repr

def Host.port : Host → Port
  | .h1 => 1
  | .h2 => 2

def Host.mac : Host → BitVec 48
  | .h1 => 0x000000000001
  | .h2 => 0x000000000002

/-- The two denied flows: TCP to 10.0.0.2 port 22, and UDP from 10.0.0.1 to port 5000. -/
def AclKey.Denied (key : AclKey) : Prop :=
  (key.protocol = 6 ∧ key.dstAddr = 0x0a000002 ∧ key.dstPort = 22) ∨
    (key.protocol = 17 ∧ key.srcAddr = 0x0a000001 ∧ key.dstPort = 5000)

instance (key : AclKey) : Decidable key.Denied := inferInstanceAs (Decidable (_ ∨ _))

section
variable (key : AclKey)

theorem ternary_address (v k : BitVec 32) : Entry.ternary v 0xffffffff k = decide (k = v) :=
  Entry.ternary_full v k

theorem ternary_protocol (v k : BitVec 8) : Entry.ternary v 0xff k = decide (k = v) :=
  Entry.ternary_full v k

theorem ternary_port (v k : BitVec 16) : Entry.ternary v 0xffff k = decide (k = v) :=
  Entry.ternary_full v k

theorem rule1_hits : rule1.hits key = true ↔
    key.protocol = 6 ∧ key.dstAddr = 0x0a000002 ∧ key.dstPort = 22 := by
  simp only [rule1, rule, ternary_address, ternary_protocol, ternary_port, Bool.and_eq_true,
    decide_eq_true_eq]
  have h := Entry.ternary_any (0 : BitVec 32) key.srcAddr
  tauto

theorem rule2_hits : rule2.hits key = true ↔ key.protocol = 6 ∧ key.dstAddr = 0x0a000002 := by
  simp only [rule2, rule, ternary_address, ternary_protocol, Bool.and_eq_true, decide_eq_true_eq]
  have h₁ := Entry.ternary_any (0 : BitVec 32) key.srcAddr
  have h₂ := Entry.ternary_any (0 : BitVec 16) key.dstPort
  tauto

theorem rule3_hits : rule3.hits key = true ↔
    key.protocol = 17 ∧ key.srcAddr = 0x0a000001 ∧ key.dstPort = 5000 := by
  simp only [rule3, rule, ternary_address, ternary_protocol, ternary_port, Bool.and_eq_true,
    decide_eq_true_eq]
  have h := Entry.ternary_any (0 : BitVec 32) key.dstAddr
  tauto

end

theorem AclKey.denied_iff (key : AclKey) :
    key.Denied ↔ rule1.hits key = true ∨ rule3.hits key = true := by
  rw [rule1_hits, rule3_hits]
  rfl

/-- The rules deny the two flows and nothing else, in whatever order they were
installed. -/
theorem lookup_acl (acl : Table.Installed aclEntries) (key : AclKey) :
    (acl.table.lookup key).getD .allow = if key.Denied then .deny else .allow := by
  have hd := key.denied_iff
  -- No key hits both the second rule, which is about TCP, and the third.
  have h₂₃ : rule2.hits key = true → rule3.hits key ≠ true := by
    rw [rule2_hits, Ne, rule3_hits]
    rintro ⟨h, -⟩ ⟨h', -⟩
    rw [h] at h'
    exact absurd h' (by decide)
  by_cases c₁ : rule1.hits key = true
  · have hl := acl.lookup_eq_some (e := rule1) (by simp [aclEntries]) c₁
      (by simp [aclEntries, rule1, rule2, rule3, rule])
    rw [hl, if_pos (hd.mpr (Or.inl c₁))]
    rfl
  by_cases c₃ : rule3.hits key = true
  · have c₂ : rule2.hits key ≠ true := fun h => h₂₃ h c₃
    have hl := acl.lookup_eq_some (e := rule3) (by simp [aclEntries]) c₃
      (by simp [aclEntries, c₁, c₂])
    rw [hl, if_pos (hd.mpr (Or.inr c₃))]
    rfl
  rw [if_neg (fun h => (hd.mp h).elim c₁ c₃)]
  by_cases c₂ : rule2.hits key = true
  · have hl := acl.lookup_eq_some (e := rule2) (by simp [aclEntries]) c₂
      (by simp [aclEntries, c₁, c₃])
    rw [hl]
    rfl
  · rw [acl.lookup_eq_none (by simp [aclEntries, c₁, c₂, c₃])]
    rfl

/-- The host a destination MAC belongs to. -/
def hostOf (dst : BitVec 48) : Option Host :=
  if dst = Host.h1.mac then some .h1 else if dst = Host.h2.mac then some .h2 else none

theorem hostOf_eq_some {dst : BitVec 48} {host : Host} :
    hostOf dst = some host ↔ dst = host.mac := by
  have hne : Host.h1.mac ≠ Host.h2.mac := by decide
  unfold hostOf
  cases host <;> split_ifs with h₁ h₂ <;> simp_all

theorem lookup_dmac (dmac : Table.Installed dmacEntries) (dst : BitVec 48) :
    dmac.table.lookup dst = (hostOf dst).map fun host => .forward host.port := by
  cases hh : hostOf dst with
  | none =>
    have hne : ∀ host : Host, dst ≠ host.mac := by
      intro host h
      rw [hostOf_eq_some.mpr h] at hh
      cases hh
    exact dmac.lookup_eq_none (by simpa [dmacEntries] using ⟨hne .h1, hne .h2⟩)
  | some host =>
    obtain rfl := hostOf_eq_some.mp hh
    cases host
    · exact dmac.lookup_eq_some (e := .exact Host.h1.mac (.forward 1))
        (by simp [dmacEntries, Host.mac]) (by simp) (by simp [dmacEntries, Host.mac])
    · exact dmac.lookup_eq_some (e := .exact Host.h2.mac (.forward 2))
        (by simp [dmacEntries, Host.mac]) (by simp) (by simp [dmacEntries, Host.mac])

/-- Where an accepted frame leaves: port 0 stands for an unknown destination. -/
def outPort (dst : BitVec 48) : Port := (hostOf dst).elim 0 Host.port

theorem outPort_ne_drop (dst : BitVec 48) : outPort dst ≠ dropPort := by
  unfold outPort
  rcases hostOf dst with _ | (_ | _) <;> decide

theorem outPort_eq {dst : BitVec 48} {host : Host} : outPort dst = host.port ↔ dst = host.mac := by
  rw [← hostOf_eq_some, outPort]
  rcases hostOf dst with _ | (_ | _) <;> cases host <;> decide

theorem applyDmac_eq (dmac : Table.Installed dmacEntries) (dst : BitVec 48) {sm : Metadata}
    (h : sm.egressSpec = 0) :
    applyDmac dmac.table dst sm = { sm with egressSpec := outPort dst } := by
  rw [applyDmac, lookup_dmac, outPort]
  cases hostOf dst
  · exact h ▸ rfl
  · rfl

variable (dmac : Table.Installed dmacEntries) (acl : Table.Installed aclEntries)
  (unset : BitVec 16) (qdepth : Port → BitVec 19) (port : Port) {packet payload : List Byte}
  {eth : Ethernet} {ip : Ipv4} {opts : List Byte} {l4 : Option L4Ports}

theorem forward_nonIpv4 (hp : packet = Header.encode eth ++ payload)
    (ht : eth.etherType ≠ typeIpv4) :
    (firewall dmac.table acl.table unset).forward qdepth port packet =
      [(outPort eth.dstAddr, packet)] := by
  have ha : (firewall dmac.table acl.table unset).Accepts port packet _ payload :=
    ⟨parse_ok.mpr (Or.inl ⟨eth, hp, ht, rfl⟩), rfl⟩
  have hi := ha.runIngress (s := ())
  change _ = ((), _, applyDmac dmac.table eth.dstAddr (V1Switch.arrival port packet)) at hi
  rw [applyDmac_eq dmac _ rfl] at hi
  rw [ha.forward_unicast qdepth hi (fun _ _ => rfl) rfl (outPort_ne_drop _)]
  simp [firewall, myDeparser, hp]

theorem forward_ipv4 (hp : packet = Header.encode eth ++ (Header.encode ip ++ (opts ++
      (l4.elim [] Header.encode ++ payload)))) (ht : eth.etherType = typeIpv4)
    (hok : LengthsOk ip.version ip.ihl ip.totalLen packet.length)
    (ho : opts.length = 4 * (ip.ihl.toNat - 5)) (hf : Unfragmented ip) (hports : PortsOk ip l4) :
    (firewall dmac.table acl.table unset).forward qdepth port packet =
      if (aclKey unset ip l4).Denied then [] else [(outPort eth.dstAddr, packet)] := by
  have ha : (firewall dmac.table acl.table unset).Accepts port packet _ payload :=
    ⟨parse_ok.mpr (Or.inr ⟨eth, ip, opts, l4, hp, ht, hok, ho, hf, hports, rfl⟩), rfl⟩
  have hi := ha.runIngress (s := ())
  change _ = ((), _, applyAcl acl.table (aclKey unset ip l4)
    (applyDmac dmac.table eth.dstAddr (V1Switch.arrival port packet))) at hi
  rw [applyDmac_eq dmac _ rfl, applyAcl, lookup_acl] at hi
  split_ifs with hd
  · rw [if_pos hd] at hi
    exact V1Switch.forward_dropped (congrArg (·.2.2) hi)
  · rw [if_neg hd] at hi
    rw [ha.forward_unicast qdepth hi (fun _ _ => rfl) rfl (outPort_ne_drop _)]
    simp [firewall, myDeparser, hp]

theorem forward_unparsed {e : ParserError ErrorCode} {c : Cursor Headers}
    (h : (firewall dmac.table acl.table unset).parse port packet = (.error e, c)) :
    (firewall dmac.table acl.table unset).forward qdepth port packet = [] := by
  have hi : ((firewall dmac.table acl.table unset).runIngress () port packet).2.2 =
      markToDrop ((firewall dmac.table acl.table unset).parsedMetadata port packet) := by
    change myIngress dmac.table acl.table unset _ _ = _
    rw [myIngress, V1Switch.parserError_of_parse h, if_pos (by simp)]
  exact V1Switch.forward_dropped hi

/-! The same on the bytes of a frame. -/

/-- A well-formed unfragmented packet, with room for its transport header. -/
structure Acceptable (frame : List Byte) : Prop where
  wellFormed : WellFormedIpv4 frame
  moreFragments : Raw.moreFragments frame = 0
  fragOffset : Raw.fragOffset frame = 0
  tcp : Raw.protocol frame = 6 → 4 * Raw.ihl frame + 20 ≤ Raw.totalLen frame
  udp : Raw.protocol frame = 17 → 4 * Raw.ihl frame + 8 ≤ Raw.totalLen frame

def DeniedFlow (frame : List Byte) : Prop :=
  (Raw.protocol frame = 6 ∧ Raw.dstAddr frame = 0x0a000002 ∧ Raw.dstPort frame = 22) ∨
    (Raw.protocol frame = 17 ∧ Raw.srcAddr frame = 0x0a000001 ∧ Raw.dstPort frame = 5000)

theorem portsOk_iff (ip : Ipv4) (l4 : Option L4Ports) : PortsOk ip l4 ↔
    (ip.protocol.toNat = 6 → 4 * ip.ihl.toNat + 20 ≤ ip.totalLen.toNat) ∧
    (ip.protocol.toNat = 17 → 4 * ip.ihl.toNat + 8 ≤ ip.totalLen.toNat) ∧
    (l4.isSome ↔ ip.protocol.toNat = 6 ∨ ip.protocol.toNat = 17) := by
  have h6 : ip.protocol = 6 ↔ ip.protocol.toNat = 6 :=
    (BitVec.toNat_inj (y := (6 : BitVec 8))).symm
  have h17 : ip.protocol = 17 ↔ ip.protocol.toNat = 17 :=
    (BitVec.toNat_inj (y := (17 : BitVec 8))).symm
  simp only [PortsOk, h6, h17]
  split_ifs with c6 c17
  · simp [c6]
  · simp [c17]
  · simp [c6, c17]

/-- The parser accepts the IPv4 packets that are acceptable as bytes. -/
theorem acceptable_iff : Acceptable packet ↔
    ∃ (eth : Ethernet) (ip : Ipv4) (opts : List Byte) (l4 : Option L4Ports) (payload : List Byte),
      packet = Header.encode eth ++ (Header.encode ip ++ (opts ++
        (l4.elim [] Header.encode ++ payload))) ∧
      LengthsOk ip.version ip.ihl ip.totalLen packet.length ∧
      opts.length = 4 * (ip.ihl.toNat - 5) ∧ Unfragmented ip ∧ PortsOk ip l4 := by
  constructor
  · intro h
    obtain ⟨eth, ip, opts, rest, hp, ho, hok⟩ := h.wellFormed.split
    obtain ⟨hw, hm, hf, ht, hu⟩ := h
    rw [hp] at hm hf ht hu
    simp only [Raw.moreFragments_encode, Raw.fragOffset_encode, Raw.protocol_encode,
      Raw.ihl_encode, Raw.totalLen_encode] at hm hf ht hu
    have hun := (unfragmented_iff ip).mpr ⟨hm, hf⟩
    by_cases hl4 : ip.protocol.toNat = 6 ∨ ip.protocol.toNat = 17
    · have hlen : packet.length = 34 + opts.length + rest.length := by
        simp [hp]
        omega
      have h₁ := hok.total_le
      have h₂ := hok.five_le_ihl
      obtain ⟨l4, payload, hr⟩ : ∃ (l : L4Ports) (p : _), rest = Header.encode l ++ p := by
        apply Header.exists_encode_append
        rw [L4Ports.size]
        omega
      rw [hr] at hp
      exact ⟨eth, ip, opts, some l4, payload, hp, hok, ho, hun,
        (portsOk_iff ip _).mpr ⟨ht, hu, by simpa using hl4⟩⟩
    · exact ⟨eth, ip, opts, none, rest, hp, hok, ho, hun,
        (portsOk_iff ip _).mpr ⟨ht, hu, by simpa using hl4⟩⟩
  · rintro ⟨eth, ip, opts, l4, payload, hp, hok, ho, hun, hports⟩
    obtain ⟨hm, hf⟩ := (unfragmented_iff ip).mp hun
    obtain ⟨ht, hu, -⟩ := (portsOk_iff ip l4).mp hports
    rw [hp] at hok
    have hw := (wellFormedIpv4_encode eth ip _).mpr hok
    rw [hp]
    exact ⟨hw, by simpa using hm, by simpa using hf, by simpa using ht, by simpa using hu⟩

theorem dstPort_encode (eth : Ethernet) (hi : 5 ≤ ip.ihl.toNat)
    (ho : opts.length = 4 * (ip.ihl.toNat - 5)) (l4 : L4Ports) (payload : List Byte) :
    Raw.dstPort (Header.encode eth ++ (Header.encode ip ++ (opts ++
      (Header.encode l4 ++ payload)))) = l4.dstPort.toNat := by
  rw [L4Ports.encode_eq, List.append_assoc]
  exact (ports_encode eth hi ho l4.srcPort l4.dstPort payload).2

theorem deniedFlow_iff (eth : Ethernet) (payload : List Byte) (hi : 5 ≤ ip.ihl.toNat)
    (ho : opts.length = 4 * (ip.ihl.toNat - 5))
    (hports : PortsOk ip l4) :
    DeniedFlow (Header.encode eth ++ (Header.encode ip ++ (opts ++
      (l4.elim [] Header.encode ++ payload)))) ↔ (aclKey unset ip l4).Denied := by
  have h6 : ip.protocol.toNat = 6 ↔ ip.protocol = 6 := BitVec.toNat_inj (y := (6 : BitVec 8))
  have h17 : ip.protocol.toNat = 17 ↔ ip.protocol = 17 := BitVec.toNat_inj (y := (17 : BitVec 8))
  obtain ⟨-, -, hs⟩ := (portsOk_iff ip l4).mp hports
  simp only [DeniedFlow, AclKey.Denied, Raw.protocol_encode, Raw.dstAddr_encode,
    Raw.srcAddr_encode]
  cases l4 with
  | none =>
    -- Neither protocol is TCP or UDP, so the port read plays no part.
    have hn : ¬ (ip.protocol = 6 ∨ ip.protocol = 17) := by simpa [h6, h17] using hs
    simp only [h6, h17]
    exact iff_of_false (fun h => hn (h.imp And.left And.left))
      fun h => hn (h.imp And.left And.left)
  | some l4 =>
    have hp := dstPort_encode eth hi ho l4 payload
    simp only [Option.elim_some, hp, aclKey, h6, h17]
    simp only [← BitVec.toNat_inj]
    rfl

theorem mem_outPort_iff {host : Host} {out : List Byte} :
    (host.port, out) ∈ [(outPort eth.dstAddr, packet)] ↔
      out = packet ∧ eth.dstAddr.toNat = host.mac.toNat := by
  rw [List.mem_singleton, Prod.mk.injEq, BitVec.toNat_inj, ← outPort_eq]
  exact ⟨fun ⟨hp, ho⟩ => ⟨ho, hp.symm⟩, fun ⟨ho, hp⟩ => ⟨hp.symm, ho⟩⟩

/-- The parser takes every complete frame that is no IPv4 and every acceptable one. -/
theorem exists_parse {dmac : Table (BitVec 48) DmacAction} {acl : Table AclKey AclAction}
    {unset : BitVec 16} {port : Port} {frame : List Byte} (hl : 14 ≤ frame.length)
    (h : etherType frame ≠ 0x0800 ∨ Acceptable frame) :
    ∃ payload hdr, (firewall dmac acl unset).parse port frame = (.ok (), ⟨payload, hdr⟩) := by
  rcases h with h | h
  · obtain ⟨eth, payload, hf⟩ : ∃ (e : Ethernet) (p : _), frame = Header.encode e ++ p :=
      Header.exists_encode_append (by simpa using hl)
    have ht : eth.etherType ≠ typeIpv4 := by
      rintro ht
      rw [hf, etherType_encode, ht] at h
      exact h rfl
    exact ⟨payload, _, parse_ok.mpr (Or.inl ⟨eth, hf, ht, rfl⟩)⟩
  · obtain ⟨eth, ip, opts, l4, payload, hf, hok, ho, hun, hports⟩ := acceptable_iff.mp h
    by_cases ht : eth.etherType = typeIpv4
    · exact ⟨payload, _,
        parse_ok.mpr (Or.inr ⟨eth, ip, opts, l4, hf, ht, hok, ho, hun, hports, rfl⟩)⟩
    · exact ⟨_, _, parse_ok.mpr (Or.inl ⟨eth, hf, ht, rfl⟩)⟩

/-- A frame reaches a host port exactly when it is addressed to that host and is
either no IPv4 or an acceptable packet outside the denied flows, and then as it
came; no frame is copied. -/
theorem forward_host_iff (dmac : Table.Installed dmacEntries) (acl : Table.Installed aclEntries)
    (unset : BitVec 16) (qdepth : Port → BitVec 19) (port : Port) (frame : List Byte) :
    (∀ (host : Host) (out : List Byte),
      (host.port, out) ∈ (firewall dmac.table acl.table unset).forward qdepth port frame ↔
        out = frame ∧ 14 ≤ frame.length ∧ dstMac frame = host.mac.toNat ∧
          (etherType frame ≠ 0x0800 ∨ (Acceptable frame ∧ ¬ DeniedFlow frame))) ∧
    ((firewall dmac.table acl.table unset).forward qdepth port frame).length ≤ 1 := by
  rcases hp : (firewall dmac.table acl.table unset).parse port frame with ⟨e | _, payload, hdr⟩
  · rw [forward_unparsed dmac acl unset qdepth port hp]
    refine ⟨fun host out => ?_, by simp⟩
    simp only [List.not_mem_nil, false_iff]
    rintro ⟨rfl, hl, -, h⟩
    obtain ⟨rest, hdr', hok⟩ := exists_parse hl (h.imp_right And.left)
    rw [hp] at hok
    cases hok
  · rcases parse_ok.mp hp with ⟨eth, hf, ht, -⟩ |
      ⟨eth, ip, opts, l4, hf, ht, hok, ho, hun, hports, -⟩
    · rw [forward_nonIpv4 dmac acl unset qdepth port hf ht]
      refine ⟨fun host out => ?_, by simp⟩
      have hne : etherType frame ≠ 0x0800 := by
        rw [hf, etherType_encode]
        exact fun h => ht (BitVec.eq_of_toNat_eq h)
      have hd : dstMac frame = eth.dstAddr.toNat := by rw [hf, dstMac_encode]
      have hl : 14 ≤ frame.length := by simp [hf]
      rw [mem_outPort_iff, hd]
      simp [hne, hl]
    · have hden := deniedFlow_iff unset eth payload hok.five_le_ihl ho hports
      have hacc := acceptable_iff.mpr ⟨eth, ip, opts, l4, payload, hf, hok, ho, hun, hports⟩
      have heq : etherType frame = 0x0800 := by
        rw [hf, etherType_encode, ht]
        rfl
      have hd : dstMac frame = eth.dstAddr.toNat := by rw [hf, dstMac_encode]
      have hl := hacc.wellFormed.length
      rw [← hf] at hden
      rw [forward_ipv4 dmac acl unset qdepth port hf ht hok ho hun hports, heq, hden]
      by_cases hdeny : (aclKey unset ip l4).Denied
      · rw [if_pos hdeny]
        refine ⟨fun host out => ?_, by simp⟩
        simp [hdeny]
      · rw [if_neg hdeny]
        refine ⟨fun host out => ?_, by simp⟩
        rw [mem_outPort_iff, hd]
        simp [hdeny, hacc]
        omega

end P4Cases.Firewall
