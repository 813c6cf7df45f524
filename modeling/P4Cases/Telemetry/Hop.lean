import P4Cases.Telemetry.Checksum

/-! One hop: what a switch sends for an accepted packet is accepted again, with the
TTL decremented and, where there is room, the switch's record in front. -/
namespace P4Cases.Telemetry
open Wire P4

/-- An accepted IPv4 packet that carries its checksum. -/
structure Datagram where
  eth : Ethernet
  ip : Ipv4
  area : Area
  payload : List Byte
  isIpv4 : eth.etherType = typeIpv4
  lengths : LengthsOk ip.version ip.ihl ip.totalLen (14 + 4 * ip.ihl.toNat + payload.length)
  options : area.bytes.length = 4 * (ip.ihl.toNat - 5)
  ok : area.Ok
  checksum : ip.hdrChecksum = headerChecksum ip area

/-- The header with its checksum recomputed. -/
def Ipv4.checksummed (ip : Ipv4) (area : Area) : Ipv4 :=
  { ip with hdrChecksum := headerChecksum ip area }

/-- The fields that grow with a record. -/
def Ipv4.grown (ip : Ipv4) : Ipv4 := { ip with ihl := ip.ihl + 1, totalLen := ip.totalLen + 4 }

/-- Room for another record, in the stack and in the length field. -/
def Area.Room (ip : Ipv4) : Area → Prop
  | .trace _ records => records.valid.length < maxIntHeaders ∧ ip.totalLen ≤ 65531
  | _ => False

instance (ip : Ipv4) (area : Area) : Decidable (area.Room ip) := by
  cases area
  · exact instDecidableFalse
  · exact instDecidableFalse
  · exact inferInstanceAs (Decidable (_ ∧ _))

def Area.push (r : IntHeader) : Area → Area
  | .trace copyFlag records => .trace copyFlag (records.pushFront r)
  | area => area

theorem Area.push_ok (r : IntHeader) {area : Area} (h : area.Ok) : (area.push r).Ok := by
  cases area <;> exact h

theorem HeaderStack.pushFront_valid {α : Type} {size : ℕ} {stack : HeaderStack α size} (a : α)
    (h : stack.valid.length < size) : (stack.pushFront a).valid = a :: stack.valid :=
  List.take_of_length_le h

theorem Area.Room.trace {ip : Ipv4} {area : Area} (h : area.Room ip) :
    ∃ copyFlag records, area = .trace copyFlag records ∧ records.valid.length < maxIntHeaders ∧
      ip.totalLen.toNat ≤ 65531 := by
  cases area with
  | plain => exact absurd h id
  | options data => exact absurd h id
  | trace copyFlag records => exact ⟨copyFlag, records, rfl, h.1, BitVec.le_def.mp h.2⟩

theorem Area.push_length (r : IntHeader) {ip : Ipv4} {area : Area} (h : area.Room ip) :
    (area.push r).bytes.length = area.bytes.length + 4 := by
  obtain ⟨copyFlag, records, rfl, hn, -⟩ := h.trace
  rw [Area.push, Area.trace_length, Area.trace_length, HeaderStack.pushFront_valid r hn,
    List.length_cons]
  omega

namespace Datagram
variable (p : Datagram)

def bytes : List Byte :=
  Header.encode p.eth ++ (Header.encode p.ip ++ (p.area.bytes ++ p.payload))

theorem bytes_length : p.bytes.length = 14 + 4 * p.ip.ihl.toNat + p.payload.length := by
  have hi := p.lengths.five_le_ihl
  have ho := p.options
  simp [bytes]
  omega

theorem accepted : Accepted p.bytes p.eth p.ip p.area p.payload where
  bytes := rfl
  isIpv4 := p.isIpv4
  lengths := by
    rw [bytes_length]
    exact p.lengths
  options := p.options
  ok := p.ok

/-- Addresses rewritten and TTL decremented. -/
def routed (mac : BitVec 48) : Datagram where
  eth := { p.eth with srcAddr := p.eth.dstAddr, dstAddr := mac }
  ip := Ipv4.checksummed { p.ip with ttl := p.ip.ttl - 1 } p.area
  area := p.area
  payload := p.payload
  isIpv4 := p.isIpv4
  lengths := p.lengths
  options := p.options
  ok := p.ok
  checksum := rfl

variable {p}

theorem grown_ihl (h : p.area.Room p.ip) : p.ip.grown.ihl.toNat = p.ip.ihl.toNat + 1 := by
  obtain ⟨copyFlag, records, ha, hn, -⟩ := h.trace
  have ho := p.options
  rw [ha, Area.trace_length] at ho
  unfold maxIntHeaders at hn
  change (p.ip.ihl + 1).toNat = _
  rw [BitVec.toNat_add]
  simp
  omega

theorem grown_totalLen (h : p.area.Room p.ip) :
    p.ip.grown.totalLen.toNat = p.ip.totalLen.toNat + 4 := by
  obtain ⟨copyFlag, records, -, -, ht⟩ := h.trace
  change (p.ip.totalLen + 4).toNat = _
  rw [BitVec.toNat_add]
  simp
  omega

/-- A record pushed in front, in a packet that has room for it. -/
def pushed (r : IntHeader) (h : p.area.Room p.ip) : Datagram where
  eth := p.eth
  ip := p.ip.grown.checksummed (p.area.push r)
  area := p.area.push r
  payload := p.payload
  isIpv4 := p.isIpv4
  lengths := by
    have hi := p.lengths.five_le_ihl
    have hh := p.lengths.header_le
    have ht := p.lengths.total_le
    have hgi := grown_ihl h
    have hgt := grown_totalLen h
    exact ⟨p.lengths.isVersion4, by change 5 ≤ p.ip.grown.ihl.toNat; omega,
      by change 4 * p.ip.grown.ihl.toNat ≤ p.ip.grown.totalLen.toNat; omega,
      by change p.ip.grown.totalLen.toNat + 14 ≤ 14 + 4 * p.ip.grown.ihl.toNat + _; omega⟩
  options := by
    have hi := p.lengths.five_le_ihl
    have hgi := grown_ihl h
    change _ = 4 * (p.ip.grown.ihl.toNat - 5)
    rw [Area.push_length r h, p.options, hgi]
    omega
  ok := Area.push_ok r p.ok
  checksum := rfl

variable (p)

/-- What egress makes of a packet. -/
def recorded (r : IntHeader) : Datagram := if h : p.area.Room p.ip then pushed r h else p

variable {p}

theorem recorded_of_room (r : IntHeader) (h : p.area.Room p.ip) : p.recorded r = pushed r h :=
  dif_pos h

theorem recorded_of_not_room (r : IntHeader) (h : ¬ p.area.Room p.ip) : p.recorded r = p :=
  dif_neg h

theorem recorded_eth (r : IntHeader) : (p.recorded r).eth = p.eth := by
  unfold recorded
  split_ifs <;> rfl

theorem recorded_payload (r : IntHeader) : (p.recorded r).payload = p.payload := by
  unfold recorded
  split_ifs <;> rfl

/-- Recording leaves TTL and addresses alone. -/
theorem recorded_ip (r : IntHeader) :
    (p.recorded r).ip.ttl = p.ip.ttl ∧ (p.recorded r).ip.dstAddr = p.ip.dstAddr := by
  unfold recorded
  split_ifs <;> exact ⟨rfl, rfl⟩

end Datagram

/-- The record a switch adds: its number, the sampled depth and the port. -/
def record (swid : BitVec 13) (depth : BitVec 19) (port : Port) : IntHeader where
  switchId := swid
  queueDepth := depth.setWidth 13
  outputPort := port.setWidth 6

section
variable {unset : IntHeader} {lpm : Table (BitVec 32) LpmAction} {intDefault : IntAction}
  {swid : BitVec 13} {port : Port} {packet payload : List Byte} {hdr : Headers}

theorem Datagram.verified (p : Datagram) :
    myVerifyChecksum unset (parsedHeaders p.eth p.ip p.area) = false := by
  rw [myVerifyChecksum_parsed unset p.eth p.lengths.five_le_ihl p.options p.ok]
  exact decide_eq_false fun h => h p.checksum

theorem Datagram.accepts (p : Datagram) : (router unset lpm intDefault).Accepts port p.bytes
    (parsedHeaders p.eth p.ip p.area) p.payload :=
  ⟨parse_ok.mpr (Or.inr ⟨p.eth, p.ip, p.area, p.accepted, rfl⟩), p.verified⟩

/-- The IPv4 packets a switch accepts are the datagrams. -/
theorem exists_datagram (ha : (router unset lpm intDefault).Accepts port packet hdr payload)
    (h4 : hdr.ipv4 ≠ none) :
    ∃ p : Datagram, packet = p.bytes ∧ hdr = parsedHeaders p.eth p.ip p.area := by
  obtain ⟨hp, hv⟩ := ha
  rcases parse_ok.mp hp with ⟨eth, -, -, rfl⟩ | ⟨eth, ip, area, hacc, rfl⟩
  · exact absurd rfl h4
  · have hi := hacc.lengths.five_le_ihl
    have hc : ip.hdrChecksum = headerChecksum ip area := by
      change myVerifyChecksum unset (parsedHeaders eth ip area) = false at hv
      rw [myVerifyChecksum_parsed unset eth hi hacc.options hacc.ok] at hv
      exact not_not.mp (of_decide_eq_false hv)
    have hl : packet.length = 14 + 4 * ip.ihl.toNat + payload.length := by
      have ho := hacc.options
      rw [hacc.bytes]
      simp
      omega
    exact ⟨⟨eth, ip, area, payload, hacc.isIpv4, hl ▸ hacc.lengths, hacc.options, hacc.ok, hc⟩,
      hacc.bytes, rfl⟩

/-- The headers of a datagram, whatever its checksum field still says. -/
theorem Datagram.compute (p : Datagram) {ip : Ipv4} (h : ip.checksummed p.area = p.ip) :
    myDeparser (myComputeChecksum unset (parsedHeaders p.eth ip p.area)) ++ p.payload =
      p.bytes := by
  have hi : ip.ihl = p.ip.ihl := h ▸ rfl
  have hl := p.lengths.five_le_ihl
  rw [myComputeChecksum_parsed unset p.eth (hi ▸ hl) (hi ▸ p.options) p.ok, myDeparser_parsed]
  change Header.encode p.eth ++ (Header.encode (ip.checksummed p.area) ++ _) ++ _ = _
  rw [h, Datagram.bytes]
  simp only [List.append_assoc]

theorem traceCount_cons (r : IntHeader) (records : List IntHeader) :
    { traceCount records with numSwitches := (traceCount records).numSwitches + 1 } =
      traceCount (r :: records) :=
  congrArg IntCount.mk (BitVec.ofNat_add _ _).symm

theorem traceOption_cons (r : IntHeader) (copyFlag : BitVec 1) (records : List IntHeader) :
    { traceOption copyFlag records with
      optionLength := (traceOption copyFlag records).optionLength + 4 } =
      traceOption copyFlag (r :: records) := by
  have hlen : BitVec.ofNat 8 (4 + 4 * records.length) + 4 =
      BitVec.ofNat 8 (4 + 4 * (records.length + 1)) :=
    (BitVec.ofNat_add _ _).symm
  exact congrArg (Ipv4Option.mk copyFlag 0 31) hlen

theorem parsedHeaders_trace {eth : Ethernet} {ip : Ipv4} {copyFlag : BitVec 1} {stack : IntStack}
    {records : List IntHeader} (h : stack.valid = records) :
    parsedHeaders eth ip (.trace copyFlag stack) =
      { ethernet := some eth, ipv4 := some ip, ipv4Option := some (traceOption copyFlag records)
        intCount := some (traceCount records), intHeaders := stack
        user := { optionType := ipv4OptionInt } } := by
  cases h
  rfl

theorem myEgress_room {eth : Ethernet} {ip : Ipv4} {area : Area} (h : area.Room ip)
    (sm : Metadata) :
    myEgress (.addIntHeader swid) (parsedHeaders eth ip area) sm =
      (parsedHeaders eth ip.grown (area.push (record swid sm.deqQdepth sm.egressPort)), sm) := by
  obtain ⟨copyFlag, records, rfl, hn, -⟩ := h.trace
  have hroom : (traceCount records.valid).numSwitches < BitVec.ofNat 16 maxIntHeaders ∧
      ip.totalLen ≤ 65531 := by
    refine ⟨?_, h.2⟩
    unfold maxIntHeaders at hn
    rw [BitVec.lt_def, traceCount, BitVec.toNat_ofNat, BitVec.toNat_ofNat]
    unfold maxIntHeaders
    omega
  have hv := HeaderStack.pushFront_valid (record swid sm.deqQdepth sm.egressPort) hn
  have hegress : myEgress (.addIntHeader swid)
      (parsedHeaders eth ip (.trace copyFlag records)) sm =
      (addIntHeader swid (parsedHeaders eth ip (.trace copyFlag records)) sm, sm) := if_pos hroom
  rw [hegress, Area.push, parsedHeaders_trace hv, ← traceCount_cons, ← traceOption_cons]
  rfl

theorem myEgress_full {eth : Ethernet} {ip : Ipv4} {area : Area} (h : ¬ area.Room ip)
    (sm : Metadata) :
    myEgress intDefault (parsedHeaders eth ip area) sm = (parsedHeaders eth ip area, sm) := by
  cases area with
  | plain => rfl
  | options data => rfl
  | trace copyFlag records =>
    have hle := records.length_le
    have hfull : ¬ ((traceCount records.valid).numSwitches < BitVec.ofNat 16 maxIntHeaders ∧
        ip.totalLen ≤ 65531) := by
      intro hroom
      refine h ⟨?_, hroom.2⟩
      have hlt := BitVec.lt_def.mp hroom.1
      unfold maxIntHeaders at hle hlt
      rw [traceCount, BitVec.toNat_ofNat, BitVec.toNat_ofNat] at hlt
      unfold maxIntHeaders
      omega
    exact if_neg hfull

theorem myEgress_noAction (hdr : Headers) (sm : Metadata) :
    myEgress .noAction hdr sm = (hdr, sm) := by
  unfold myEgress
  cases hdr.intCount with
  | none => rfl
  | some count =>
    cases hdr.ipv4 with
    | none => rfl
    | some ip => exact ite_self _

theorem myIngress_parsed (p : Datagram) :
    myIngress lpm (parsedHeaders p.eth p.ip p.area) (V1Switch.arrival port packet) =
      if p.ip.ttl.toNat ≤ 1 then
        (parsedHeaders p.eth p.ip p.area, markToDrop (V1Switch.arrival port packet))
      else
        match (lpm.lookup p.ip.dstAddr).getD .drop with
        | .ipv4Forward mac out => ipv4Forward mac out (parsedHeaders p.eth p.ip p.area)
            (V1Switch.arrival port packet)
        | .drop => (parsedHeaders p.eth p.ip p.area, markToDrop (V1Switch.arrival port packet))
        | .noAction => (parsedHeaders p.eth p.ip p.area, V1Switch.arrival port packet) := by
  have hip : (parsedHeaders p.eth p.ip p.area).ipv4 = some p.ip := by cases p.area <;> rfl
  have hguard : ((V1Switch.arrival port packet : Metadata).parserError ≠ none ∨
      (V1Switch.arrival port packet : Metadata).checksumError = 1 ∨ p.ip.ttl ≤ 1) ↔
      p.ip.ttl.toNat ≤ 1 := by
    change (none ≠ none ∨ (0 : BitVec 1) = 1 ∨ p.ip.ttl ≤ 1) ↔ _
    rw [BitVec.le_def]
    simp
  unfold myIngress
  rw [hip]
  exact if_congr hguard rfl rfl

theorem ipv4Forward_parsed (p : Datagram) (mac : BitVec 48) (out : Port) (sm : Metadata) :
    ipv4Forward mac out (parsedHeaders p.eth p.ip p.area) sm =
      (parsedHeaders (p.routed mac).eth { p.ip with ttl := p.ip.ttl - 1 } (p.routed mac).area,
        { sm with egressSpec := out }) := by
  change _ = (parsedHeaders { p.eth with srcAddr := p.eth.dstAddr, dstAddr := mac }
    { p.ip with ttl := p.ip.ttl - 1 } p.area, _)
  cases p.area <;> rfl

/-- The headers on the way through egress become those of the recorded packet. -/
theorem myEgress_parsed (swid : BitVec 13) (q : Datagram) (ip : Ipv4)
    (hq : ip.checksummed q.area = q.ip) (sm : Metadata) : ∃ ip' : Ipv4,
      myEgress (.addIntHeader swid) (parsedHeaders q.eth ip q.area) sm =
        (parsedHeaders (q.recorded (record swid sm.deqQdepth sm.egressPort)).eth ip'
          (q.recorded (record swid sm.deqQdepth sm.egressPort)).area, sm) ∧
      ip'.checksummed (q.recorded (record swid sm.deqQdepth sm.egressPort)).area =
        (q.recorded (record swid sm.deqQdepth sm.egressPort)).ip := by
  have hroom : q.area.Room q.ip ↔ q.area.Room ip := by
    rw [← hq]
    cases q.area <;> rfl
  by_cases h : q.area.Room q.ip
  · rw [Datagram.recorded_of_room _ h]
    refine ⟨ip.grown, myEgress_room (hroom.mp h) sm, ?_⟩
    change _ = q.ip.grown.checksummed _
    rw [← hq]
    rfl
  · rw [Datagram.recorded_of_not_room _ h]
    exact ⟨ip, myEgress_full (fun hr => h (hroom.mpr hr)) sm, hq⟩

/-- A routed packet leaves as what egress makes of it. -/
theorem Datagram.forward_of_egress (p : Datagram) (qdepth : Port → BitVec 19) {mac : BitVec 48}
    {out : Port} (hl : lpm.lookup p.ip.dstAddr = some (.ipv4Forward mac out))
    (ht : 1 < p.ip.ttl.toNat) (hout : out ≠ dropPort) {q : Datagram} {ip' : Ipv4} {sm : Metadata}
    (he : myEgress intDefault (parsedHeaders (p.routed mac).eth { p.ip with ttl := p.ip.ttl - 1 }
        (p.routed mac).area)
      { (V1Switch.arrival port p.bytes : Metadata) with
        egressPort := out, egressSpec := 0, deqQdepth := qdepth out } =
          (parsedHeaders q.eth ip' q.area, sm))
    (hs : sm.egressSpec ≠ dropPort) (hip : ip'.checksummed q.area = q.ip)
    (hpay : q.payload = p.payload) :
    (router unset lpm intDefault).forward qdepth port p.bytes = [(out, q.bytes)] := by
  have ha : (router unset lpm intDefault).Accepts port p.bytes _ _ := p.accepts
  have hi : (router unset lpm intDefault).runIngress () port p.bytes =
      ((), myIngress lpm (parsedHeaders p.eth p.ip p.area) (V1Switch.arrival port p.bytes)) :=
    ha.runIngress
  rw [myIngress_parsed, if_neg (by omega), hl] at hi
  change _ = ((), ipv4Forward mac out _ _) at hi
  rw [ipv4Forward_parsed] at hi
  rw [ha.forward_egress qdepth hi rfl hout he hs]
  have hb : myDeparser (myComputeChecksum unset _) ++ _ = _ := Datagram.compute q hip
  rw [hpay] at hb
  exact congrArg (fun bytes => [(out, bytes)]) hb

/-- One hop. The record holds the depth that was sampled for the port. -/
theorem Datagram.forward (p : Datagram) (qdepth : Port → BitVec 19) {mac : BitVec 48} {out : Port}
    (hl : lpm.lookup p.ip.dstAddr = some (.ipv4Forward mac out)) (ht : 1 < p.ip.ttl.toNat)
    (hout : out ≠ dropPort) :
    (router unset lpm (.addIntHeader swid)).forward qdepth port p.bytes =
      [(out, ((p.routed mac).recorded (record swid (qdepth out) out)).bytes)] := by
  obtain ⟨ip', he, hip⟩ := myEgress_parsed swid (p.routed mac)
    { p.ip with ttl := p.ip.ttl - 1 } rfl
    { (V1Switch.arrival port p.bytes : Metadata) with
      egressPort := out, egressSpec := 0, deqQdepth := qdepth out }
  have hz : (0 : Port) ≠ dropPort := by decide
  have hpay : ((p.routed mac).recorded (record swid (qdepth out) out)).payload = p.payload :=
    recorded_payload _
  exact p.forward_of_egress qdepth hl ht hout he hz hip hpay

/-- One hop over a switch that does not record. -/
theorem Datagram.forward_noAction (p : Datagram) (qdepth : Port → BitVec 19) {mac : BitVec 48}
    {out : Port} (hl : lpm.lookup p.ip.dstAddr = some (.ipv4Forward mac out))
    (ht : 1 < p.ip.ttl.toNat) (hout : out ≠ dropPort) :
    (router unset lpm .noAction).forward qdepth port p.bytes = [(out, (p.routed mac).bytes)] := by
  have hz : (0 : Port) ≠ dropPort := by decide
  exact p.forward_of_egress qdepth hl ht hout (myEgress_noAction _ _) hz rfl rfl

/-- A switch without a route, or reached with the TTL run down, drops. -/
theorem Datagram.forward_nil (p : Datagram) (qdepth : Port → BitVec 19)
    (h : lpm.lookup p.ip.dstAddr = none ∨ p.ip.ttl.toNat ≤ 1) :
    (router unset lpm intDefault).forward qdepth port p.bytes = [] := by
  have ha : (router unset lpm intDefault).Accepts port p.bytes _ _ := p.accepts
  have hi : (router unset lpm intDefault).runIngress () port p.bytes =
      ((), myIngress lpm (parsedHeaders p.eth p.ip p.area) (V1Switch.arrival port p.bytes)) :=
    ha.runIngress
  rw [myIngress_parsed] at hi
  by_cases ht : p.ip.ttl.toNat ≤ 1
  · rw [if_pos ht] at hi
    exact V1Switch.forward_dropped (congrArg (fun out => out.2.2) hi)
  · rw [if_neg ht, h.resolve_right ht] at hi
    exact V1Switch.forward_dropped (congrArg (fun out => out.2.2) hi)

/-- A route to the drop port drops. -/
theorem Datagram.forward_drop (p : Datagram) (qdepth : Port → BitVec 19) {mac : BitVec 48}
    (hl : lpm.lookup p.ip.dstAddr = some (.ipv4Forward mac dropPort)) :
    (router unset lpm intDefault).forward qdepth port p.bytes = [] := by
  by_cases ht : p.ip.ttl.toNat ≤ 1
  · exact p.forward_nil qdepth (Or.inr ht)
  · have ha : (router unset lpm intDefault).Accepts port p.bytes _ _ := p.accepts
    have hi : (router unset lpm intDefault).runIngress () port p.bytes =
        ((), myIngress lpm (parsedHeaders p.eth p.ip p.area) (V1Switch.arrival port p.bytes)) :=
      ha.runIngress
    rw [myIngress_parsed, if_neg ht, hl] at hi
    exact V1Switch.forward_dropPort (congrArg (fun out => out.2.2.mcastGrp) hi)
      (congrArg (fun out => out.2.2.egressSpec) hi)

end
end P4Cases.Telemetry
