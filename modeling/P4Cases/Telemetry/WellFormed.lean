import Mathlib.Logic.Relation
import P4Cases.Telemetry.Hop

/-! Any number of hops, over switches configured in any way: every packet sent is
accepted by the next switch, and the lengths that repeat each other stay in agreement. -/
namespace P4Cases.Telemetry
open Wire P4

/-- Some switch routes the packet with `ipv4_forward` and sends `sent`. -/
inductive Forwards (packet sent : List Byte) : Prop where
  | hop {unset : IntHeader} {lpm : Table (BitVec 32) LpmAction} {intDefault : IntAction}
      {port out out' : Port} {mac : BitVec 48} {qdepth : Port → BitVec 19} {ip : Ipv4}
      (parsed : ((router unset lpm intDefault).parse port packet).2.hdr.ipv4 = some ip)
      (routed : lpm.lookup ip.dstAddr = some (.ipv4Forward mac out))
      (emitted : (out', sent) ∈ (router unset lpm intDefault).forward qdepth port packet)

/-- Every switch accepts the packet, and parses it into these headers. -/
def AcceptedAs (packet : List Byte) (hdr : Headers) (payload : List Byte) : Prop :=
  ∀ (unset : IntHeader) (lpm : Table (BitVec 32) LpmAction) (intDefault : IntAction) (port : Port),
    (router unset lpm intDefault).Accepts port packet hdr payload

/-- A telemetry option with `n` records, in a packet of `size` bytes. -/
def CarriesTrace (hdr : Headers) (size n : ℕ) : Prop :=
  ∃ ip option count, hdr.ipv4 = some ip ∧ hdr.ipv4Option = some option ∧
    hdr.intCount = some count ∧ hdr.intHeaders.valid.length = n ∧ count.numSwitches.toNat = n ∧
    n ≤ maxIntHeaders ∧ option.optionLength.toNat = 4 + 4 * n ∧ ip.ihl.toNat = 6 + n ∧
    ip.totalLen.toNat ≤ size - 14

/-- A hop takes one from the TTL, which does not reach zero. -/
def TtlFalls (before after : Headers) : Prop :=
  ∃ ip ip', before.ipv4 = some ip ∧ after.ipv4 = some ip' ∧ 1 ≤ ip'.ttl.toNat ∧
    ip.ttl.toNat = ip'.ttl.toNat + 1

/-- The total length grows by `k`. -/
def Grows (k : ℕ) (before after : Headers) : Prop :=
  ∃ ip ip', before.ipv4 = some ip ∧ after.ipv4 = some ip' ∧
    ip'.totalLen.toNat = ip.totalLen.toNat + k

/-- What a hop may do to the option: leave it as it is, or put one record in front. -/
def Records (sent : List Byte) (before after : Headers) (n : ℕ) : Prop :=
  (CarriesTrace after sent.length n ∧ after.intHeaders = before.intHeaders ∧
    Grows 0 before after) ∨
  ∃ r, CarriesTrace after sent.length (n + 1) ∧
    after.intHeaders.valid = r :: before.intHeaders.valid ∧ Grows 4 before after

section
variable {p : Datagram} {packet sent payload : List Byte} {hdr : Headers}

theorem Datagram.acceptedAs (p : Datagram) :
    AcceptedAs p.bytes (parsedHeaders p.eth p.ip p.area) p.payload :=
  fun _ _ _ _ => p.accepts

theorem parsedHeaders_ipv4 (eth : Ethernet) (ip : Ipv4) (area : Area) :
    (parsedHeaders eth ip area).ipv4 = some ip := by
  cases area <;> rfl

/-- The lengths of a packet with a telemetry option agree. -/
theorem Datagram.carriesTrace {copyFlag : BitVec 1} {records : IntStack}
    (ha : p.area = .trace copyFlag records) :
    CarriesTrace (parsedHeaders p.eth p.ip p.area) p.bytes.length records.valid.length := by
  have hle := records.length_le
  have hi := p.lengths.five_le_ihl
  have ht := p.lengths.total_le
  have ho := p.options
  have hsize := p.bytes_length
  have hnum : (traceCount records.valid).numSwitches.toNat = records.valid.length := by
    unfold maxIntHeaders at hle
    rw [traceCount, BitVec.toNat_ofNat]
    omega
  have hlen : (traceOption copyFlag records.valid).optionLength.toNat =
      4 + 4 * records.valid.length := by
    unfold maxIntHeaders at hle
    rw [traceOption, BitVec.toNat_ofNat]
    omega
  rw [ha, Area.trace_length] at ho
  rw [ha]
  exact ⟨p.ip, _, _, rfl, rfl, rfl, rfl, hnum, hle, hlen, by omega, by omega⟩

/-- What a switch sends for a packet it routes: the routed packet, recorded or not. -/
theorem Datagram.forwards (h : Forwards p.bytes sent) :
    1 < p.ip.ttl.toNat ∧ ∃ mac, sent = (p.routed mac).bytes ∨
      ∃ r, sent = ((p.routed mac).recorded r).bytes := by
  obtain @⟨unset, lpm, intDefault, port, out, out', mac, qdepth, ip, hparsed, hl, hmem⟩ := h
  have hacc : (router unset lpm intDefault).Accepts port p.bytes _ _ := p.accepts
  rw [hacc.1] at hparsed
  obtain rfl : p.ip = ip := Option.some.inj ((parsedHeaders_ipv4 _ _ _).symm.trans hparsed)
  by_cases ht : p.ip.ttl.toNat ≤ 1
  · rw [p.forward_nil qdepth (Or.inr ht)] at hmem
    cases hmem
  · refine ⟨by omega, mac, ?_⟩
    by_cases hout : out = dropPort
    · rw [p.forward_drop qdepth (hout ▸ hl)] at hmem
      cases hmem
    · cases intDefault with
      | addIntHeader swid =>
        rw [p.forward qdepth hl (by omega) hout, List.mem_singleton] at hmem
        exact Or.inr ⟨_, congrArg Prod.snd hmem⟩
      | noAction =>
        rw [p.forward_noAction qdepth hl (by omega) hout, List.mem_singleton] at hmem
        exact Or.inl (congrArg Prod.snd hmem)

/-- An accepted packet that a switch routes is a datagram. -/
theorem exists_datagram_of_forwards {unset : IntHeader} {lpm : Table (BitVec 32) LpmAction}
    {intDefault : IntAction} {port : Port}
    (ha : (router unset lpm intDefault).Accepts port packet hdr payload)
    (h : Forwards packet sent) : ∃ p : Datagram, packet = p.bytes := by
  obtain @⟨unset', lpm', intDefault', port', -, -, -, -, ip, hparsed, -, -⟩ := h
  have hsame : (router unset' lpm' intDefault').parse port' packet =
      (.ok (), ⟨payload, hdr⟩) := parse_ok.mpr (parse_ok.mp ha.1)
  rw [hsame] at hparsed
  have h4 : hdr.ipv4 ≠ none := by
    rw [hparsed]
    exact Option.some_ne_none ip
  obtain ⟨p, hp, -⟩ := exists_datagram ha h4
  exact ⟨p, hp⟩

theorem ttlFalls (q : Datagram) (hq : q.ip.ttl = p.ip.ttl - 1) (ht : 1 < p.ip.ttl.toNat) :
    TtlFalls (parsedHeaders p.eth p.ip p.area) (parsedHeaders q.eth q.ip q.area) := by
  have hsub : (p.ip.ttl - 1).toNat = p.ip.ttl.toNat - 1 :=
    BitVec.toNat_sub_of_le (BitVec.le_def.mpr (show 1 ≤ _ by omega))
  refine ⟨p.ip, q.ip, parsedHeaders_ipv4 _ _ _, parsedHeaders_ipv4 _ _ _, ?_, ?_⟩
  · rw [hq, hsub]
    omega
  · rw [hq, hsub]
    omega

theorem grows (q : Datagram) {k : ℕ} (h : q.ip.totalLen.toNat = p.ip.totalLen.toNat + k) :
    Grows k (parsedHeaders p.eth p.ip p.area) (parsedHeaders q.eth q.ip q.area) :=
  ⟨p.ip, q.ip, parsedHeaders_ipv4 _ _ _, parsedHeaders_ipv4 _ _ _, h⟩

theorem intHeaders_trace {eth : Ethernet} {ip : Ipv4} {area : Area} {copyFlag : BitVec 1}
    {records : IntStack} (ha : area = .trace copyFlag records) :
    (parsedHeaders eth ip area).intHeaders = records := by
  rw [ha]
  rfl

/-- A packet sent as it was routed keeps its option. -/
theorem records_routed {copyFlag : BitVec 1} {records : IntStack}
    (ha : p.area = .trace copyFlag records) (mac : BitVec 48) :
    Records (p.routed mac).bytes (parsedHeaders p.eth p.ip p.area)
      (parsedHeaders (p.routed mac).eth (p.routed mac).ip (p.routed mac).area)
      records.valid.length := by
  have ha' : (p.routed mac).area = .trace copyFlag records := ha
  refine Or.inl ⟨Datagram.carriesTrace ha', ?_, grows _ rfl⟩
  rw [intHeaders_trace ha', intHeaders_trace ha]

/-- A packet that takes a record has room for it. -/
theorem records_recorded {copyFlag : BitVec 1} {records : IntStack}
    (ha : p.area = .trace copyFlag records) (mac : BitVec 48) (r : IntHeader) :
    Records ((p.routed mac).recorded r).bytes (parsedHeaders p.eth p.ip p.area)
      (parsedHeaders ((p.routed mac).recorded r).eth ((p.routed mac).recorded r).ip
        ((p.routed mac).recorded r).area) records.valid.length := by
  by_cases hroom : (p.routed mac).area.Room (p.routed mac).ip
  · have hn : records.valid.length < maxIntHeaders := by
      have hroom' := hroom
      change p.area.Room _ at hroom'
      rw [ha] at hroom'
      exact hroom'.1
    have hv := HeaderStack.pushFront_valid r hn
    have hpush : (Datagram.pushed r hroom).area = .trace copyFlag (records.pushFront r) := by
      change p.area.push r = _
      rw [ha]
      rfl
    have hgrown : (Datagram.pushed r hroom).ip.totalLen = (p.routed mac).ip.grown.totalLen := rfl
    have hkept : (p.routed mac).ip.totalLen = p.ip.totalLen := rfl
    have hlen : (Datagram.pushed r hroom).ip.totalLen.toNat = p.ip.totalLen.toNat + 4 := by
      rw [hgrown, Datagram.grown_totalLen hroom, hkept]
    have hcarry := Datagram.carriesTrace hpush
    rw [hv, List.length_cons] at hcarry
    rw [Datagram.recorded_of_room r hroom]
    refine Or.inr ⟨r, hcarry, ?_, grows _ hlen⟩
    rw [intHeaders_trace hpush, intHeaders_trace ha, hv]
  · rw [Datagram.recorded_of_not_room r hroom]
    exact records_routed ha mac

theorem exists_trace_of_intCount {eth : Ethernet} {ip : Ipv4} {area : Area}
    (h : (parsedHeaders eth ip area).intCount ≠ none) :
    ∃ copyFlag records, area = .trace copyFlag records := by
  cases area with
  | plain => exact absurd rfl h
  | options data => exact absurd rfl h
  | trace copyFlag records => exact ⟨copyFlag, records, rfl⟩

theorem intCount_none {eth : Ethernet} {ip : Ipv4} {area : Area} :
    (parsedHeaders eth ip area).intCount = none ↔
      ∀ copyFlag records, area ≠ .trace copyFlag records := by
  cases area with
  | plain => exact iff_of_true rfl fun _ _ h => by cases h
  | options data => exact iff_of_true rfl fun _ _ h => by cases h
  | trace copyFlag records =>
    refine iff_of_false (fun h => ?_) fun h => h copyFlag records rfl
    cases h

/-- A packet without the option is not given one. -/
theorem recorded_area (hp : ∀ copyFlag records, p.area ≠ .trace copyFlag records)
    (mac : BitVec 48) (r : IntHeader) : ((p.routed mac).recorded r).area = p.area := by
  have hroom : ¬ (p.routed mac).area.Room (p.routed mac).ip := by
    intro hroom
    obtain ⟨copyFlag, records, ha, -, -⟩ := hroom.trace
    exact hp copyFlag records ha
  rw [Datagram.recorded_of_not_room r hroom]
  rfl

/-- Packets on the way are datagrams. -/
theorem run_datagram {unset : IntHeader} {lpm : Table (BitVec 32) LpmAction}
    {intDefault : IntAction} {port : Port} {first : List Byte}
    (ha : (router unset lpm intDefault).Accepts port first hdr payload)
    (run : Relation.ReflTransGen Forwards first packet) :
    packet = first ∨ ∃ p : Datagram, packet = p.bytes := by
  induction run with
  | refl => exact Or.inl rfl
  | tail _ hop ih =>
    right
    obtain ⟨p, rfl⟩ : ∃ p : Datagram, _ = p.bytes := by
      rcases ih with rfl | hp
      · exact exists_datagram_of_forwards ha hop
      · exact hp
    obtain ⟨-, mac, rfl | ⟨r, rfl⟩⟩ := p.forwards hop
    · exact ⟨_, rfl⟩
    · exact ⟨_, rfl⟩

/-- One hop of a datagram. -/
theorem Datagram.hop_wellFormed (hop : Forwards p.bytes sent) :
    ∃ q : Datagram, sent = q.bytes ∧ q.payload = p.payload ∧
      TtlFalls (parsedHeaders p.eth p.ip p.area) (parsedHeaders q.eth q.ip q.area) ∧
      (((parsedHeaders p.eth p.ip p.area).intCount = none ∧
          (parsedHeaders q.eth q.ip q.area).intCount = none) ∨
        ∃ n, CarriesTrace (parsedHeaders p.eth p.ip p.area) p.bytes.length n ∧
          Records sent (parsedHeaders p.eth p.ip p.area) (parsedHeaders q.eth q.ip q.area) n) := by
  obtain ⟨ht, mac, rfl | ⟨r, rfl⟩⟩ := p.forwards hop
  · refine ⟨_, rfl, rfl, ttlFalls _ rfl ht, ?_⟩
    by_cases hc : (parsedHeaders p.eth p.ip p.area).intCount = none
    · exact Or.inl ⟨hc, intCount_none.mpr (intCount_none.mp hc)⟩
    · obtain ⟨copyFlag, records, harea⟩ := exists_trace_of_intCount hc
      exact Or.inr ⟨_, carriesTrace harea, records_routed harea mac⟩
  · refine ⟨_, rfl, recorded_payload r, ttlFalls _ (recorded_ip r).1 ht, ?_⟩
    by_cases hc : (parsedHeaders p.eth p.ip p.area).intCount = none
    · have harea := intCount_none.mp hc
      refine Or.inl ⟨hc, intCount_none.mpr ?_⟩
      rw [recorded_area harea]
      exact harea
    · obtain ⟨copyFlag, records, harea⟩ := exists_trace_of_intCount hc
      exact Or.inr ⟨_, carriesTrace harea, records_recorded harea mac r⟩

/-- In every run of hops from an accepted packet, whatever the switches are configured
to, each packet sent is accepted by every next switch with a TTL one lower that is not
zero; and a telemetry option keeps its lengths in agreement, gains one record in front
or none, and loses no record. -/
theorem hops_wellFormed {unset : IntHeader} {lpm : Table (BitVec 32) LpmAction}
    {intDefault : IntAction} {port : Port} {first : List Byte}
    (ha : (router unset lpm intDefault).Accepts port first hdr payload)
    (run : Relation.ReflTransGen Forwards first packet) (hop : Forwards packet sent) :
    ∃ before after rest, AcceptedAs packet before rest ∧ AcceptedAs sent after rest ∧
      TtlFalls before after ∧
      ((before.intCount = none ∧ after.intCount = none) ∨
        ∃ n, CarriesTrace before packet.length n ∧ Records sent before after n) := by
  have hdatagram : ∃ p : Datagram, packet = p.bytes := by
    rcases run_datagram ha run with rfl | hp
    · exact exists_datagram_of_forwards ha hop
    · exact hp
  obtain ⟨p, rfl⟩ := hdatagram
  obtain ⟨q, rfl, hpayload, httl, hoption⟩ := Datagram.hop_wellFormed hop
  exact ⟨_, _, q.payload, hpayload ▸ p.acceptedAs, q.acceptedAs, httl, hoption⟩

def probeArea : Area := .trace 0 ⟨[⟨5, 6, 7⟩], by decide⟩

/-- A packet whose option holds one record. -/
def hopProbe : Datagram where
  eth := { dstAddr := 1, srcAddr := 2, etherType := typeIpv4 }
  ip := Ipv4.checksummed
    { version := 4, ihl := 7, dscp := 0, ecn := 0, totalLen := 28, identification := 1
      flags := 0, fragOffset := 0, ttl := 64, protocol := 17, hdrChecksum := 0
      srcAddr := 0xc6120101, dstAddr := 0x0a000304 } probeArea
  area := probeArea
  payload := []
  isIpv4 := rfl
  lengths := ⟨rfl, by decide, Nat.le_refl 28, Nat.le_refl 42⟩
  options := by
    unfold probeArea
    rw [Area.trace_length]
    rfl
  ok := trivial
  checksum := rfl

theorem hops_wellFormed_hopProbe : ∃ sent before after rest,
    Relation.ReflTransGen Forwards hopProbe.bytes sent ∧
      AcceptedAs hopProbe.bytes before rest ∧ AcceptedAs sent after rest ∧
      TtlFalls before after := by
  have hl : Table.lookup [.lpm 0x0a000000 8 (LpmAction.ipv4Forward 0x000000000a01 2)]
      hopProbe.ip.dstAddr = some (.ipv4Forward 0x000000000a01 2) := by decide
  have hsent : (router ⟨0, 0, 0⟩ _ (.addIntHeader 4)).forward (fun _ => 9) 1 hopProbe.bytes = _ :=
    hopProbe.forward (fun _ => 9) hl (by decide) (by decide)
  have hop : Forwards hopProbe.bytes _ :=
    .hop (congrArg (fun out => out.2.hdr.ipv4) (hopProbe.acceptedAs _ _ _ 1).1) hl
      (hsent ▸ List.mem_singleton_self _)
  obtain ⟨before, after, rest, hb, ha, ht, -⟩ :=
    hops_wellFormed (hopProbe.acceptedAs ⟨0, 0, 0⟩ [] .noAction 1) .refl hop
  exact ⟨_, before, after, rest, .single hop, hb, ha, ht⟩

end
end P4Cases.Telemetry
