import P4Cases.Routing.Walk
import P4Cases.Telemetry.Hop

/-! The three switches and four hosts, and the way of a frame through them. -/
namespace P4Cases.Telemetry
open Wire P4 Routing

inductive Host where
  | h1
  | h2
  | h3
  | h4
  deriving DecidableEq, Repr

namespace Host

/-- `HOSTS`. -/
def address : Host → BitVec 32
  | h1 => 0x0a000101
  | h2 => 0x0a000202
  | h3 => 0x0a000303
  | h4 => 0x0a000304

end Host

abbrev Node := SwitchId ⊕ Host

/-- The `addLink` calls of `INTTopo`, in order. -/
def links : List (Node × Node) :=
  [(.inr .h1, .inl .s1), (.inr .h2, .inl .s2), (.inr .h3, .inl .s3), (.inr .h4, .inl .s3),
    (.inl .s1, .inl .s2), (.inl .s1, .inl .s3)]

/-- Interfaces are numbered in the order of the links, from 0 on a host and from 1 on
a switch. -/
def interface (node : Node) (link : ℕ) : ℕ :=
  (if node.isLeft then 1 else 0) +
    (links.take link).countP fun ends => decide (ends.1 = node ∨ ends.2 = node)

def cables : List ((Node × ℕ) × (Node × ℕ)) :=
  links.zipIdx.map fun (ends, link) =>
    ((ends.1, interface ends.1 link), (ends.2, interface ends.2 link))

/-- The far end of the cable at an interface. -/
def peer (node : Node) (port : ℕ) : Option (Node × ℕ) :=
  cables.findSome? fun (a, b) =>
    if a = (node, port) then some b else if b = (node, port) then some a else none

/-- The switch port a host's cable ends at. -/
def gateway : Host → SwitchId × Port
  | .h1 => (.s1, 1)
  | .h2 => (.s2, 1)
  | .h3 => (.s3, 1)
  | .h4 => (.s3, 2)

theorem peer_host (h : Host) :
    peer (.inr h) 0 = some (.inl (gateway h).1, (gateway h).2.toNat) := by
  cases h <;> decide

/-! The way of a frame. -/

inductive Event where
  | arrives (s : SwitchId) (frame : List Byte)
  | delivered (h : Host) (frame : List Byte)

/-- What happens to a frame that enters a node, copy after copy. `depths k` are the
queue depths sampled at the `k`-th switch from there on. -/
def journey (unset : IntHeader) :
    ℕ → (ℕ → Port → BitVec 19) → Node → Port → List Byte → List Event
  | _, _, .inr h, _, frame => [.delivered h frame]
  | 0, _, .inl _, _, _ => []
  | fuel + 1, depths, .inl s, port, frame =>
      .arrives s frame ::
        ((configured unset s).forward (depths 0) port frame).flatMap fun out =>
          match peer (.inl s) out.1.toNat with
          | some (node, port) =>
              journey unset fuel (fun k => depths (k + 1)) node (BitVec.ofNat 9 port) out.2
          | none => []

/-- A frame that a host sends. -/
def send (unset : IntHeader) (fuel : ℕ) (depths : ℕ → Port → BitVec 19) (h : Host)
    (frame : List Byte) : List Event :=
  journey unset fuel depths (.inl (gateway h).1) (gateway h).2 frame

def visited (events : List Event) : List SwitchId :=
  events.filterMap fun
    | .arrives s _ => some s
    | .delivered _ _ => none

def deliveries (events : List Event) : List (Host × List Byte) :=
  events.filterMap fun
    | .arrives _ _ => none
    | .delivered h frame => some (h, frame)

/-! The tables, entry by entry. -/

def forwardsTo (s : SwitchId) (dst : BitVec 32) : Option (BitVec 48 × Port) :=
  match (configFor s).lpm.lookup dst with
  | some (.ipv4Forward mac port) => some (mac, port)
  | _ => none

/-- The next node for a destination. -/
def next (dst : BitVec 32) (s : SwitchId) : Option Node :=
  (forwardsTo s dst).bind fun out => (peer (.inl s) out.2.toNat).map Prod.fst

theorem lookup_s1 (dst : BitVec 32) : (configFor .s1).lpm.lookup dst =
    if dst = 0x0a000101 then some (.ipv4Forward 0x00000a000101 1)
    else if dst = 0x0a000202 then some (.ipv4Forward 0x00010a000202 2)
    else if dst >>> 8 = 0x0a0003 then some (.ipv4Forward 0x000000030100 3) else none := by
  change Table.lookup [_, _, _] dst = _
  rw [Table.lookup_cons (by decide), Table.lookup_cons (by decide), Table.lookup_cons (by decide)]
  simp
  rfl

theorem lookup_s2 (dst : BitVec 32) : (configFor .s2).lpm.lookup dst =
    if dst = 0x0a000202 then some (.ipv4Forward 0x00000a000202 1)
    else if dst >>> 16 = 0x0a00 then some (.ipv4Forward 0x000000010200 2) else none := by
  change Table.lookup [_, _] dst = _
  rw [Table.lookup_cons (by decide), Table.lookup_cons (by decide)]
  simp
  rfl

theorem lookup_s3 (dst : BitVec 32) : (configFor .s3).lpm.lookup dst =
    if dst = 0x0a000303 then some (.ipv4Forward 0x00000a000303 1)
    else if dst = 0x0a000304 then some (.ipv4Forward 0x00000a000304 2)
    else if dst >>> 16 = 0x0a00 then some (.ipv4Forward 0x000000010300 3) else none := by
  change Table.lookup [_, _, _] dst = _
  rw [Table.lookup_cons (by decide), Table.lookup_cons (by decide), Table.lookup_cons (by decide)]
  simp
  rfl

/-- Every route leads to a cable. -/
theorem lookup_cases (s : SwitchId) (dst : BitVec 32) :
    (configFor s).lpm.lookup dst = none ∨
      ∃ mac out node port, (configFor s).lpm.lookup dst = some (.ipv4Forward mac out) ∧
        out ≠ dropPort ∧ peer (.inl s) out.toNat = some (node, port) := by
  cases s
  · rw [lookup_s1]
    split_ifs
    · exact Or.inr ⟨_, _, .inr .h1, 0, rfl, by decide, by decide⟩
    · exact Or.inr ⟨_, _, .inl .s2, 2, rfl, by decide, by decide⟩
    · exact Or.inr ⟨_, _, .inl .s3, 3, rfl, by decide, by decide⟩
    · exact Or.inl rfl
  · rw [lookup_s2]
    split_ifs
    · exact Or.inr ⟨_, _, .inr .h2, 0, rfl, by decide, by decide⟩
    · exact Or.inr ⟨_, _, .inl .s1, 2, rfl, by decide, by decide⟩
    · exact Or.inl rfl
  · rw [lookup_s3]
    split_ifs
    · exact Or.inr ⟨_, _, .inr .h3, 0, rfl, by decide, by decide⟩
    · exact Or.inr ⟨_, _, .inr .h4, 0, rfl, by decide, by decide⟩
    · exact Or.inr ⟨_, _, .inl .s1, 3, rfl, by decide, by decide⟩
    · exact Or.inl rfl

theorem next_of_lookup {s : SwitchId} {dst : BitVec 32} {mac : BitVec 48} {out : Port} {node : Node}
    {port : ℕ} (hl : (configFor s).lpm.lookup dst = some (.ipv4Forward mac out))
    (hp : peer (.inl s) out.toNat = some (node, port)) : next dst s = some node := by
  unfold next forwardsTo
  rw [hl]
  change (peer (.inl s) out.toNat).map Prod.fst = _
  rw [hp]
  rfl

theorem next_eq_none {s : SwitchId} {dst : BitVec 32} :
    next dst s = none ↔ (configFor s).lpm.lookup dst = none := by
  rcases lookup_cases s dst with hl | ⟨mac, out, node, port, hl, -, hp⟩
  · rw [hl]
    refine iff_of_true ?_ rfl
    unfold next forwardsTo
    rw [hl]
    rfl
  · rw [next_of_lookup hl hp, hl]
    simp

/-! The frames on the way are accepted packets, and the way is a walk. -/

/-- What switch `s` makes of a packet. -/
def Datagram.hop (p : Datagram) (s : SwitchId) (mac : BitVec 48) (out : Port)
    (depth : BitVec 19) : Datagram :=
  (p.routed mac).recorded (record (BitVec.ofNat 13 s.number) depth out)

section
variable {unset : IntHeader} {fuel : ℕ} {depths : ℕ → Port → BitVec 19} {s : SwitchId}
  {port : Port} {p : Datagram}

theorem configured_eq (s : SwitchId) : configured unset s =
    router unset (configFor s).lpm (.addIntHeader (BitVec.ofNat 13 s.number)) := by
  cases s <;> rfl

theorem journey_stop (h : next p.ip.dstAddr s = none ∨ p.ip.ttl.toNat ≤ 1) :
    journey unset (fuel + 1) depths (.inl s) port p.bytes = [.arrives s p.bytes] := by
  rw [journey, configured_eq, p.forward_nil (depths 0) (h.imp_left next_eq_none.mp)]
  rfl

theorem journey_hop {mac : BitVec 48} {out : Port} {node : Node} {port' : ℕ}
    (hl : (configFor s).lpm.lookup p.ip.dstAddr = some (.ipv4Forward mac out))
    (hout : out ≠ dropPort) (hp : peer (.inl s) out.toNat = some (node, port'))
    (ht : 1 < p.ip.ttl.toNat) :
    journey unset (fuel + 1) depths (.inl s) port p.bytes = .arrives s p.bytes ::
      journey unset fuel (fun k => depths (k + 1)) node (BitVec.ofNat 9 port')
        (p.hop s mac out (depths 0 out)).bytes := by
  rw [journey, configured_eq, p.forward (depths 0) hl ht hout, List.flatMap_singleton]
  simp only [hp]
  rfl

/-- How the events of a frame for `dst` end. -/
def Ends (events : List Event) : Fate SwitchId Host → Prop
  | .delivered h => ∃ frame, events.getLast? = some (.delivered h frame) ∧
      deliveries events = [(h, frame)]
  | .noRoute t => ∃ frame, events.getLast? = some (.arrives t frame) ∧ deliveries events = [] ∧
      1 < Raw.ttl frame
  | .expired t => ∃ frame, events.getLast? = some (.arrives t frame) ∧ deliveries events = [] ∧
      Raw.ttl frame ≤ 1

theorem ttl_bytes (p : Datagram) : Raw.ttl p.bytes = p.ip.ttl.toNat := by
  rw [Datagram.bytes, Ipv4.encode_plain, Raw.ttl_encode]
  rfl

theorem Ends.cons {events : List Event} {frame : List Byte} {fate : Fate SwitchId Host}
    (h : Ends events fate) : Ends (.arrives s frame :: events) fate := by
  have hlast : ∀ {e : Event}, events.getLast? = some e →
      (Event.arrives s frame :: events).getLast? = some e := by
    intro e he
    rw [List.getLast?_cons, he]
    rfl
  cases fate with
  | delivered h' =>
    obtain ⟨f, hl, hd⟩ := h
    exact ⟨f, hlast hl, hd⟩
  | noRoute t =>
    obtain ⟨f, hl, hd, ht⟩ := h
    exact ⟨f, hlast hl, hd, ht⟩
  | expired t =>
    obtain ⟨f, hl, hd, ht⟩ := h
    exact ⟨f, hlast hl, hd, ht⟩

theorem hop_ip (p : Datagram) (s : SwitchId) (mac : BitVec 48) (out : Port) (depth : BitVec 19) :
    (p.hop s mac out depth).ip.dstAddr = p.ip.dstAddr ∧
      (p.hop s mac out depth).ip.ttl = p.ip.ttl - 1 := by
  obtain ⟨ht, hd⟩ := Datagram.recorded_ip (p := p.routed mac)
    (record (BitVec.ofNat 13 s.number) depth out)
  exact ⟨hd, ht⟩

/-- The bytes follow the tables: with enough fuel the events of an accepted packet are
those of a walk. -/
theorem journey_walk (unset : IntHeader) (fuel : ℕ) (depths : ℕ → Port → BitVec 19)
    (s : SwitchId) (port : Port) (p : Datagram) (hf : p.ip.ttl.toNat < fuel) : ∃ path fate,
    Walk (next p.ip.dstAddr) p.ip.ttl.toNat s path fate ∧
      visited (journey unset fuel depths (.inl s) port p.bytes) = path ∧
      Ends (journey unset fuel depths (.inl s) port p.bytes) fate := by
  induction fuel generalizing depths s port p with
  | zero => exact absurd hf (Nat.not_lt_zero _)
  | succ fuel ih =>
    by_cases ht : p.ip.ttl.toNat ≤ 1
    · rw [journey_stop (Or.inr ht)]
      exact ⟨[s], .expired s, .expired ht, rfl, p.bytes, rfl, rfl, (ttl_bytes p).trans_le ht⟩
    · push Not at ht
      rcases lookup_cases s p.ip.dstAddr with hl | ⟨mac, out, node, port', hl, hout, hp⟩
      · have hn := next_eq_none.mpr hl
        rw [journey_stop (Or.inl hn)]
        exact ⟨[s], .noRoute s, .noRoute ht hn, rfl, p.bytes, rfl, rfl, (ttl_bytes p).symm ▸ ht⟩
      · have hn := next_of_lookup hl hp
        rw [journey_hop hl hout hp ht]
        cases node with
        | inr h =>
          rw [journey]
          exact ⟨[s], .delivered h, .exit ht hn, rfl, _, rfl, rfl⟩
        | inl s' =>
          obtain ⟨hd, httl⟩ := hop_ip p s mac out (depths 0 out)
          have hdec : (p.hop s mac out (depths 0 out)).ip.ttl.toNat = p.ip.ttl.toNat - 1 := by
            rw [httl]
            exact BitVec.toNat_sub_of_le (BitVec.le_def.mpr ht.le)
          obtain ⟨path, fate, hw, hv, he⟩ := ih (fun k => depths (k + 1)) s'
            (BitVec.ofNat 9 port') (p.hop s mac out (depths 0 out)) (by omega)
          rw [hd, hdec] at hw
          exact ⟨s :: path, fate, .hop ht hn hw, congrArg (s :: ·) hv, he.cons⟩

end
end P4Cases.Telemetry
