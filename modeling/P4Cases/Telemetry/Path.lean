import P4Cases.Telemetry.Network

/-! A packet over several hops: what it is at the end, in closed form. -/
namespace P4Cases.Telemetry
open Wire P4 Routing

namespace Datagram

/-- The packet after hops that set the given addresses and offer the given records. -/
def through (p : Datagram) (hops : List (BitVec 48 × IntHeader)) : Datagram :=
  hops.foldl (fun p h => (p.routed h.1).recorded h.2) p

/-- How many more records the packet can take. -/
def headroom (p : Datagram) : ℕ :=
  match p.area with
  | .trace _ records =>
      min (maxIntHeaders - records.valid.length) ((65535 - p.ip.totalLen.toNat) / 4)
  | _ => 0

/-- No bytes behind the length the header states. -/
def Exact (p : Datagram) : Prop := p.ip.totalLen.toNat = 4 * p.ip.ihl.toNat + p.payload.length

end Datagram

def Area.pushAll (area : Area) (rs : List IntHeader) : Area := rs.foldl (fun a r => a.push r) area

section
variable {p : Datagram} {mac : BitVec 48} {r : IntHeader} {hops : List (BitVec 48 × IntHeader)}

theorem Datagram.headroom_pos : 0 < p.headroom ↔ p.area.Room p.ip := by
  have ht := p.ip.totalLen.isLt
  unfold headroom
  cases p.area with
  | plain => exact iff_of_false (Nat.lt_irrefl 0) id
  | options data => exact iff_of_false (Nat.lt_irrefl 0) id
  | trace copyFlag records =>
    change _ ↔ records.valid.length < maxIntHeaders ∧ p.ip.totalLen ≤ 65531
    have hle : p.ip.totalLen ≤ 65531 ↔ p.ip.totalLen.toNat ≤ 65531 := BitVec.le_def
    rw [hle]
    dsimp only
    omega

/-- A record uses up one place. -/
theorem Datagram.headroom_pushed (h : p.area.Room p.ip) :
    p.headroom = (Datagram.pushed r h).headroom + 1 := by
  obtain ⟨copyFlag, records, ha, hn, ht⟩ := h.trace
  have hp : (Datagram.pushed r h).area = .trace copyFlag (records.pushFront r) := by
    change p.area.push r = _
    rw [ha]
    rfl
  have hlen : (Datagram.pushed r h).ip.totalLen.toNat = p.ip.totalLen.toNat + 4 :=
    grown_totalLen h
  unfold headroom
  rw [ha, hp]
  dsimp only
  rw [hlen, HeaderStack.pushFront_valid r hn, List.length_cons]
  omega

/-- The records that fit are pushed one by one; after that the area stays. -/
theorem Datagram.through_area :
    (p.through hops).area = p.area.pushAll ((hops.map Prod.snd).take p.headroom) := by
  induction hops generalizing p with
  | nil =>
    rw [List.map_nil, List.take_nil]
    rfl
  | cons h hops ih =>
    have hroute : (p.routed h.1).headroom = p.headroom := rfl
    change (((p.routed h.1).recorded h.2).through hops).area = _
    rw [ih]
    by_cases hr : (p.routed h.1).area.Room (p.routed h.1).ip
    · rw [recorded_of_room _ hr, ← hroute, headroom_pushed (r := h.2) hr, List.map_cons,
        List.take_succ_cons]
      rfl
    · have hz : p.headroom = 0 := by
        have hn := mt headroom_pos.mp hr
        rw [hroute] at hn
        omega
      rw [recorded_of_not_room _ hr, hroute, hz, List.take_zero, List.take_zero]
      rfl

theorem Datagram.through_payload : (p.through hops).payload = p.payload := by
  induction hops generalizing p with
  | nil => rfl
  | cons h hops ih =>
    change (((p.routed h.1).recorded h.2).through hops).payload = _
    rw [ih, recorded_payload]
    rfl

/-- The fields a hop leaves alone, and the TTL. -/
theorem Datagram.recorded_routed_ip : ((p.routed mac).recorded r).ip =
    { p.ip with
      ihl := ((p.routed mac).recorded r).ip.ihl
      totalLen := ((p.routed mac).recorded r).ip.totalLen
      ttl := p.ip.ttl - 1
      hdrChecksum := ((p.routed mac).recorded r).ip.hdrChecksum } := by
  unfold recorded
  split_ifs <;> rfl

theorem Datagram.through_ip : (p.through hops).ip =
    { p.ip with
      ihl := (p.through hops).ip.ihl
      totalLen := (p.through hops).ip.totalLen
      ttl := p.ip.ttl - BitVec.ofNat 8 hops.length
      hdrChecksum := (p.through hops).ip.hdrChecksum } := by
  induction hops generalizing p with
  | nil => exact (congrArg (fun ttl => { p.ip with ttl }) (BitVec.sub_zero p.ip.ttl)).symm
  | cons h hops ih =>
    have hs : p.ip.ttl - 1 - BitVec.ofNat 8 hops.length =
        p.ip.ttl - BitVec.ofNat 8 (h :: hops).length := by
      rw [List.length_cons, BitVec.ofNat_add]
      bv_omega
    have hi := ih (p := (p.routed h.1).recorded h.2)
    rw [recorded_routed_ip] at hi
    rw [← hs]
    exact hi

theorem Datagram.exact_recorded (h : p.Exact) : ((p.routed mac).recorded r).Exact := by
  unfold recorded
  split_ifs with hr
  · unfold Exact at h
    change (p.routed mac).ip.grown.totalLen.toNat =
      4 * (p.routed mac).ip.grown.ihl.toNat + p.payload.length
    rw [grown_totalLen hr, grown_ihl hr]
    change p.ip.totalLen.toNat + 4 = 4 * (p.ip.ihl.toNat + 1) + _
    omega
  · exact h

theorem Datagram.exact_through (h : p.Exact) : (p.through hops).Exact := by
  induction hops generalizing p with
  | nil => exact h
  | cons h' hops ih => exact ih (exact_recorded h)

/-- The last hop sets the destination address, and the source to what the destination
was before it. -/
theorem Datagram.through_concat_eth : (p.through (hops ++ [(mac, r)])).eth =
    { dstAddr := mac, srcAddr := (p.through hops).eth.dstAddr, etherType := typeIpv4 } := by
  have hc : p.through (hops ++ [(mac, r)]) = ((p.through hops).routed mac).recorded r := by
    rw [through, List.foldl_append]
    rfl
  rw [hc, recorded_eth, ← (p.through hops).isIpv4]
  rfl

end

/-! The path the tables lay out for a destination. -/

/-- A switch on the path, the address it sets and the port it uses. -/
structure Step where
  s : SwitchId
  mac : BitVec 48
  out : Port
  deriving DecidableEq

/-- The path from a switch to the host at its end. -/
def route (dst : BitVec 32) : ℕ → SwitchId → Option (List Step × Host)
  | 0, _ => none
  | fuel + 1, s =>
      match forwardsTo s dst with
      | none => none
      | some (mac, out) =>
          match peer (.inl s) out.toNat with
          | some (.inl s', _) =>
              (route dst fuel s').map fun rest => (⟨s, mac, out⟩ :: rest.1, rest.2)
          | some (.inr h, _) => some ([⟨s, mac, out⟩], h)
          | none => none

/-- The hops of a path, with the queue depths sampled on it. -/
def hopsOf (depths : ℕ → Port → BitVec 19) : List Step → List (BitVec 48 × IntHeader)
  | [] => []
  | step :: steps =>
      (step.mac, record (BitVec.ofNat 13 step.s.number) (depths 0 step.out) step.out) ::
        hopsOf (fun k => depths (k + 1)) steps

theorem route_succ {dst : BitVec 32} {n : ℕ} {s : SwitchId} {steps : List Step} {b : Host}
    (h : route dst (n + 1) s = some (steps, b)) :
    ∃ mac out node port, (configFor s).lpm.lookup dst = some (.ipv4Forward mac out) ∧
      out ≠ dropPort ∧ peer (.inl s) out.toNat = some (node, port) ∧
      ((node = .inr b ∧ steps = [⟨s, mac, out⟩]) ∨
        ∃ s' rest, node = .inl s' ∧ steps = ⟨s, mac, out⟩ :: rest ∧
          route dst n s' = some (rest, b)) := by
  unfold route forwardsTo at h
  rcases lookup_cases s dst with hl | ⟨mac, out, node, port, hl, hout, hp⟩
  · rw [hl] at h
    cases h
  · refine ⟨mac, out, node, port, hl, hout, hp, ?_⟩
    rw [hl] at h
    simp only [hp] at h
    cases node with
    | inr h' =>
      cases h
      exact Or.inl ⟨rfl, rfl⟩
    | inl s' =>
      obtain ⟨⟨rest, b'⟩, hrest, he⟩ := Option.map_eq_some_iff.mp h
      cases he
      exact Or.inr ⟨s', rest, rfl, rfl, hrest⟩

/-- A packet whose TTL exceeds the length of its path is delivered at the end of it. -/
theorem journey_route (unset : IntHeader) (fuel : ℕ) (depths : ℕ → Port → BitVec 19) (port : Port)
    {n : ℕ} {s : SwitchId} {p : Datagram} {steps : List Step} {b : Host}
    (hr : route p.ip.dstAddr n s = some (steps, b)) (ht : steps.length < p.ip.ttl.toNat)
    (hf : steps.length ≤ fuel) :
    visited (journey unset fuel depths (.inl s) port p.bytes) = steps.map Step.s ∧
      deliveries (journey unset fuel depths (.inl s) port p.bytes) =
        [(b, (p.through (hopsOf depths steps)).bytes)] := by
  induction n generalizing fuel depths s port p steps with
  | zero => cases hr
  | succ n ih =>
    obtain ⟨mac, out, node, port', hl, hout, hp, hend⟩ := route_succ hr
    rcases hend with ⟨rfl, rfl⟩ | ⟨s', rest, rfl, rfl, hrest⟩
    · obtain ⟨fuel, rfl⟩ := Nat.exists_eq_add_of_le' hf
      rw [List.length_singleton] at ht
      change visited (journey unset (fuel + 1) _ _ _ _) = _ ∧
        deliveries (journey unset (fuel + 1) _ _ _ _) = _
      rw [journey_hop hl hout hp ht, journey]
      exact ⟨rfl, rfl⟩
    · rw [List.length_cons] at ht hf
      obtain ⟨fuel, rfl⟩ : ∃ m, fuel = m + 1 := ⟨fuel - 1, by omega⟩
      obtain ⟨hd, httl⟩ := hop_ip p s mac out (depths 0 out)
      have hdec : (p.hop s mac out (depths 0 out)).ip.ttl.toNat = p.ip.ttl.toNat - 1 := by
        rw [httl]
        exact BitVec.toNat_sub_of_le (BitVec.le_def.mpr (show 1 ≤ _ by omega))
      rw [← hd] at hrest
      obtain ⟨hv, hdel⟩ := ih fuel (fun k => depths (k + 1)) (BitVec.ofNat 9 port') hrest
        (by omega) (by omega)
      rw [journey_hop hl hout hp (by omega)]
      exact ⟨congrArg (s :: ·) hv, hdel⟩

end P4Cases.Telemetry
