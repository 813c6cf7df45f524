import P4Cases.Telemetry.Network

/-! Where the installed routes lead, for every destination: to the host that owns it,
to a switch without a route, or, for the unassigned addresses of the network of h3 and
h4, back and forth between two switches. -/
namespace P4Cases.Telemetry
open Wire P4 Routing

/-- The destinations the routes tell apart. -/
inductive Zone where
  | host (h : Host)
  | unassigned
  | site
  | outside
  deriving DecidableEq

def zone (dst : BitVec 32) : Zone :=
  if dst = Host.h1.address then .host .h1
  else if dst = Host.h2.address then .host .h2
  else if dst = Host.h3.address then .host .h3
  else if dst = Host.h4.address then .host .h4
  else if dst >>> 8 = 0x0a0003 then .unassigned
  else if dst >>> 16 = 0x0a00 then .site
  else .outside

def nextIn : Zone → SwitchId → Option Node
  | .host .h1, .s1 => some (.inr .h1)
  | .host .h1, _ => some (.inl .s1)
  | .host .h2, .s1 => some (.inl .s2)
  | .host .h2, .s2 => some (.inr .h2)
  | .host .h2, .s3 => some (.inl .s1)
  | .host h, .s3 => some (.inr h)
  | .host _, .s1 => some (.inl .s3)
  | .host _, .s2 => some (.inl .s1)
  | .unassigned, .s1 => some (.inl .s3)
  | .unassigned, _ => some (.inl .s1)
  | .site, .s1 => none
  | .site, _ => some (.inl .s1)
  | .outside, _ => none

/-- An address of 10.0.3.0/24 that no host owns. -/
def Unassigned (dst : BitVec 32) : Prop :=
  dst >>> 8 = 0x0a0003 ∧ ∀ h : Host, dst ≠ h.address

theorem next_s1 (dst : BitVec 32) : next dst .s1 =
    if dst = 0x0a000101 then some (.inr .h1)
    else if dst = 0x0a000202 then some (.inl .s2)
    else if dst >>> 8 = 0x0a0003 then some (.inl .s3) else none := by
  unfold next forwardsTo
  rw [lookup_s1]
  split_ifs <;> rfl

theorem next_s2 (dst : BitVec 32) : next dst .s2 =
    if dst = 0x0a000202 then some (.inr .h2)
    else if dst >>> 16 = 0x0a00 then some (.inl .s1) else none := by
  unfold next forwardsTo
  rw [lookup_s2]
  split_ifs <;> rfl

theorem next_s3 (dst : BitVec 32) : next dst .s3 =
    if dst = 0x0a000303 then some (.inr .h3)
    else if dst = 0x0a000304 then some (.inr .h4)
    else if dst >>> 16 = 0x0a00 then some (.inl .s1) else none := by
  unfold next forwardsTo
  rw [lookup_s3]
  split_ifs <;> rfl

theorem site_of_subnet {dst : BitVec 32} (h : dst >>> 8 = 0x0a0003) : dst >>> 16 = 0x0a00 := by
  have hs : dst >>> 16 = dst >>> 8 >>> 8 := BitVec.shiftRight_add dst 8 8
  rw [hs, h]
  rfl

/-- The three tables together, by zone. -/
theorem next_eq (dst : BitVec 32) (s : SwitchId) : next dst s = nextIn (zone dst) s := by
  unfold zone
  split_ifs with h₁ h₂ h₃ h₄ h₅ h₆
  · subst h₁
    cases s <;> rfl
  · subst h₂
    cases s <;> rfl
  · subst h₃
    cases s <;> rfl
  · subst h₄
    cases s <;> rfl
  · have h₆ := site_of_subnet h₅
    unfold Host.address at h₁ h₂ h₃ h₄
    cases s
    · rw [next_s1, if_neg h₁, if_neg h₂, if_pos h₅]
      rfl
    · rw [next_s2, if_neg h₂, if_pos h₆]
      rfl
    · rw [next_s3, if_neg h₃, if_neg h₄, if_pos h₆]
      rfl
  · unfold Host.address at h₁ h₂ h₃ h₄
    cases s
    · rw [next_s1, if_neg h₁, if_neg h₂, if_neg h₅]
      rfl
    · rw [next_s2, if_neg h₂, if_pos h₆]
      rfl
    · rw [next_s3, if_neg h₃, if_neg h₄, if_pos h₆]
      rfl
  · unfold Host.address at h₁ h₂ h₃ h₄
    cases s
    · rw [next_s1, if_neg h₁, if_neg h₂, if_neg h₅]
      rfl
    · rw [next_s2, if_neg h₂, if_neg h₆]
      rfl
    · rw [next_s3, if_neg h₃, if_neg h₄, if_neg h₆]
      rfl

theorem zone_host {dst : BitVec 32} {h : Host} : zone dst = .host h ↔ dst = h.address := by
  constructor
  · intro hz
    unfold zone at hz
    split_ifs at hz with h₁ h₂ h₃ h₄ <;> cases hz <;> assumption
  · intro hd
    subst hd
    cases h <;> rfl

theorem zone_unassigned {dst : BitVec 32} : zone dst = .unassigned ↔ Unassigned dst := by
  constructor
  · intro hz
    refine ⟨?_, ?_⟩
    · unfold zone at hz
      split_ifs at hz
      assumption
    · intro h hd
      rw [zone_host.mpr hd] at hz
      cases hz
  · intro hu
    unfold zone
    rw [if_neg (hu.2 _), if_neg (hu.2 _), if_neg (hu.2 _), if_neg (hu.2 _), if_pos hu.1]

/-- Hops left to the switch that decides. -/
def rank : Zone → SwitchId → ℕ
  | .host .h1, .s1 => 0
  | .host .h1, _ => 1
  | .host .h2, .s1 => 1
  | .host .h2, .s2 => 0
  | .host .h2, .s3 => 2
  | .host _, .s1 => 1
  | .host _, .s2 => 2
  | .host _, .s3 => 0
  | .site, .s1 => 0
  | .site, _ => 1
  | _, _ => 0

theorem rank_lt {z : Zone} (hz : z ≠ .unassigned) (s s' : SwitchId)
    (hn : nextIn z s = some (.inl s')) : rank z s' < rank z s := by
  revert hn
  cases z with
  | host h => cases h <;> cases s <;> cases s' <;> decide
  | unassigned => exact absurd rfl hz
  | site => cases s <;> cases s' <;> decide
  | outside => cases s <;> cases s' <;> decide

theorem owner_of_exit {dst : BitVec 32} {s : SwitchId} {h : Host}
    (hn : next dst s = some (.inr h)) : dst = h.address := by
  rw [next_eq] at hn
  apply zone_host.mp
  revert hn
  generalize zone dst = z
  cases z with
  | host h' => cases h' <;> cases s <;> cases h <;> decide
  | unassigned => cases s <;> cases h <;> decide
  | site => cases s <;> cases h <;> decide
  | outside => cases s <;> cases h <;> decide

theorem not_owned_of_noRoute {dst : BitVec 32} {s : SwitchId} (hn : next dst s = none) (h : Host) :
    dst ≠ h.address := by
  intro hd
  rw [next_eq, zone_host.mpr hd] at hn
  revert hn
  cases h <;> cases s <;> decide

/-- An unassigned address circulates until the TTL has run down. -/
theorem unassigned_expires {dst : BitVec 32} (hu : Unassigned dst) {ttl : ℕ} {s : SwitchId}
    {path : List SwitchId} {fate : Fate SwitchId Host} (hw : Walk (next dst) ttl s path fate) :
    ∃ t, fate = .expired t := by
  refine hw.expires ?_
  intro s
  rw [next_eq, zone_unassigned.mpr hu]
  cases s
  · exact ⟨.s3, rfl⟩
  · exact ⟨.s1, rfl⟩
  · exact ⟨.s1, rfl⟩

/-- No switch is visited twice, and the frame leaves at a host or is dropped by a switch
that has no route for it. -/
def LoopFree (dst : BitVec 32) (events : List Event) : Prop :=
  (visited events).Nodup ∧
    ((∃ h frame, events.getLast? = some (.delivered h frame)) ∨
      ∃ s frame, events.getLast? = some (.arrives s frame) ∧
        (configFor s).lpm.lookup dst = none)

/-- The smallest packet for a destination. -/
def probe (dst : BitVec 32) (ttl : BitVec 8) : Datagram where
  eth := { dstAddr := 0x00010a000202, srcAddr := 0x00000a000101, etherType := typeIpv4 }
  ip := Ipv4.checksummed
    { version := 4, ihl := 5, dscp := 0, ecn := 0, totalLen := 20, identification := 0
      flags := 0, fragOffset := 0, ttl := ttl, protocol := 17, hdrChecksum := 0
      srcAddr := Host.h1.address, dstAddr := dst } .plain
  area := .plain
  payload := []
  isIpv4 := rfl
  lengths := ⟨rfl, Nat.le_refl 5, Nat.le_refl 20, Nat.le_refl 34⟩
  options := rfl
  ok := trivial
  checksum := rfl

theorem nodup_length {path : List SwitchId} (h : path.Nodup) : path.length ≤ 3 := by
  have hs : path ⊆ [.s1, .s2, .s3] := by
    intro s _
    cases s <;> simp
  exact (h.subperm hs).length_le

/-- 10.0.3.77 with a TTL of 64 circulates; 10.0.2.2 with a TTL of 1 is dropped by a
switch that has a route for it. -/
theorem not_loopFree :
    ¬ LoopFree 0x0a00034d (send ⟨0, 0, 0⟩ 65 (fun _ _ => 0) .h1 (probe 0x0a00034d 64).bytes) ∧
      ¬ LoopFree 0x0a000202
        (send ⟨0, 0, 0⟩ 65 (fun _ _ => 0) .h1 (probe 0x0a000202 1).bytes) := by
  constructor
  · intro h
    obtain ⟨path, fate, hw, hv, -⟩ := journey_walk ⟨0, 0, 0⟩ 65 (fun _ _ => 0) .s1 1
      (probe 0x0a00034d 64) (by decide)
    have hu : Unassigned 0x0a00034d := ⟨by decide, fun h => by cases h <;> decide⟩
    obtain ⟨t, rfl⟩ := unassigned_expires hu hw
    have hn : path.Nodup := hv ▸ h.1
    have hl : 64 ≤ path.length := hw.le_length
    have h3 := nodup_length hn
    omega
  · intro h
    obtain ⟨path, fate, hw, -, he⟩ := journey_walk ⟨0, 0, 0⟩ 65 (fun _ _ => 0) .s1 1
      (probe 0x0a000202 1) (by decide)
    have hroute : (configFor .s1).lpm.lookup 0x0a000202 ≠ none := by decide
    cases hw with
    | expired _ =>
      obtain ⟨frame, hlast, -⟩ := he
      rcases h.2 with ⟨h', f, hd⟩ | ⟨s, f, hs, hl⟩
      · cases hlast.symm.trans hd
      · cases hlast.symm.trans hs
        exact hroute hl
    | noRoute h _ => exact absurd h (by decide)
    | exit h _ => exact absurd h (by decide)
    | hop h _ _ => exact absurd h (by decide)

/-- Every accepted packet for an address that is not unassigned reaches its owner, or a
switch without a route, unless the TTL is no larger than the number of switches on the
way; and it visits none of them twice. -/
theorem routes_end (unset : IntHeader) (fuel : ℕ) (depths : ℕ → Port → BitVec 19) (h : Host)
    (packet payload : List Byte) (hdr : Headers) (ip : Ipv4)
    (ha : (configured unset (gateway h).1).Accepts (gateway h).2 packet hdr payload)
    (hip : hdr.ipv4 = some ip) (hdst : ¬ Unassigned ip.dstAddr) (hf : ip.ttl.toNat < fuel) :
    (visited (send unset fuel depths h packet)).Nodup ∧
      ((∃ h' frame, (send unset fuel depths h packet).getLast? = some (.delivered h' frame) ∧
          ip.dstAddr = h'.address) ∨
        (∃ s frame, (send unset fuel depths h packet).getLast? = some (.arrives s frame) ∧
          1 < Raw.ttl frame ∧ (configFor s).lpm.lookup ip.dstAddr = none ∧
          ∀ h' : Host, ip.dstAddr ≠ h'.address) ∨
        ∃ s frame, (send unset fuel depths h packet).getLast? = some (.arrives s frame) ∧
          Raw.ttl frame ≤ 1 ∧
          ip.ttl.toNat ≤ (visited (send unset fuel depths h packet)).length) := by
  rw [configured_eq] at ha
  obtain ⟨p, rfl, rfl⟩ := exists_datagram ha (by rw [hip]; simp)
  have hp : (parsedHeaders p.eth p.ip p.area).ipv4 = some p.ip := by cases p.area <;> rfl
  obtain rfl : p.ip = ip := Option.some.inj (hp.symm.trans hip)
  obtain ⟨path, fate, hw, hv, he⟩ := journey_walk unset fuel depths (gateway h).1 (gateway h).2 p hf
  have hz : zone p.ip.dstAddr ≠ .unassigned := fun hz => hdst (zone_unassigned.mp hz)
  have hrank : ∀ s s', next p.ip.dstAddr s = some (.inl s') →
      rank (zone p.ip.dstAddr) s' < rank (zone p.ip.dstAddr) s := by
    intro s s' hn
    rw [next_eq] at hn
    exact rank_lt hz s s' hn
  refine ⟨hv.symm ▸ hw.nodup hrank, ?_⟩
  cases fate with
  | delivered h' =>
    obtain ⟨frame, hlast, -⟩ := he
    obtain ⟨s, hn⟩ := hw.next_eq_exit
    exact Or.inl ⟨h', frame, hlast, owner_of_exit hn⟩
  | noRoute s =>
    obtain ⟨frame, hlast, -, ht⟩ := he
    have hn := hw.next_eq_none
    exact Or.inr (Or.inl ⟨s, frame, hlast, ht, next_eq_none.mp hn, not_owned_of_noRoute hn⟩)
  | expired s =>
    obtain ⟨frame, hlast, -, ht⟩ := he
    exact Or.inr (Or.inr ⟨s, frame, hlast, ht, hv.symm ▸ hw.le_length⟩)

theorem routes_end_probe : (visited (send ⟨0, 0, 0⟩ 65 (fun _ _ => 0) .h1
    (probe Host.h2.address 64).bytes)).Nodup := by
  have ha : (configured ⟨0, 0, 0⟩ (gateway .h1).1).Accepts (gateway .h1).2
      (probe Host.h2.address 64).bytes _ _ := (probe Host.h2.address 64).accepts
  exact (routes_end ⟨0, 0, 0⟩ 65 (fun _ _ => 0) .h1 _ _ _ _ ha rfl
    (fun hu => hu.2 .h2 rfl) (by decide)).1

end P4Cases.Telemetry
