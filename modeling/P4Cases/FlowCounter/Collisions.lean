import P4Cases.FlowCounter.Counts
import P4Cases.Frames.Crc

/-! The search for two flows of one slot: every slot has two source ports in the range
that is searched, whatever the addresses. -/
namespace P4Cases.FlowCounter
open Wire

def hashSlot (source destination : BitVec 32) (sport dport : ℕ) : Py ℕ := do
  let ports := (← packWord sport) ++ (← packWord dport)
  return crc16 (beBytes 4 source.toNat ++ beBytes 4 destination.toNat ++ ports) % registerSize

/-- The loop over the ports, with those found so far. -/
def findPorts (source destination : BitVec 32) (target : ℤ) : List ℕ → List ℕ → Py (ℕ × ℕ)
  | [], _ => throw (.runtimeError "could not find two UDP flows for the requested slot")
  | port :: ports, found => do
      if (← hashSlot source destination port 2222) = target then
        match found ++ [port] with
        | [p, q] => return (p, q)
        | found => findPorts source destination target ports found
      else findPorts source destination target ports found

/-- `range(10000, 65536)`. -/
def searchedPorts : List ℕ := List.range' 10000 55536

def portsForSlot (source destination : BitVec 32) (target : ℤ) : Py (ℕ × ℕ) := do
  raiseIf (¬ (0 ≤ target ∧ target < registerSize))
    (.valueError "register index is outside the array")
  findPorts source destination target searchedPorts []

variable (source destination : BitVec 32)

/-- The checksum that a port is selected by. -/
def portCrc (port : BitVec 16) : ℕ :=
  crc16 (beBytes 4 source.toNat ++ beBytes 4 destination.toNat ++
    (beBytes 2 port.toNat ++ beBytes 2 2222))

theorem hashSlot_port {port : ℕ} (h : port < 65536) :
    hashSlot source destination port 2222 =
      .ok (portCrc source destination (BitVec.ofNat 16 port) % registerSize) := by
  have hp : (BitVec.ofNat 16 port).toNat = port := by
    rw [BitVec.toNat_ofNat, Nat.mod_eq_of_lt h]
  rw [hashSlot, packWord, if_pos h, portCrc, hp]
  rfl

/-- Ports that differ by `k` fall into slots that differ by the slot of `k` alone. -/
theorem portCrc_xor (v k : BitVec 16) : portCrc source destination (v ^^^ k) =
    portCrc source destination v ^^^ crc16 (beBytes 2 k.toNat ++ [0, 0]) :=
  crc16_port_xor _ (beBytes 2 2222) v k

/-- A change of the port whose own slot is zero leaves the slot alone. -/
theorem portCrc_change (v : BitVec 16) {k : BitVec 16}
    (hk : crc16 (beBytes 2 k.toNat ++ [0, 0]) % 2 ^ 10 = 0) :
    portCrc source destination (v ^^^ k) % registerSize =
      portCrc source destination v % registerSize := by
  have hx := Nat.xor_mod_two_pow (a := portCrc source destination v)
    (b := crc16 (beBytes 2 k.toNat ++ [0, 0])) (n := 10)
  rw [hk, Nat.xor_zero, ← portCrc_xor] at hx
  exact hx

theorem exists_port {slot : ℕ} (h : slot < 65536) :
    ∃ port : BitVec 16, portCrc source destination port = slot := by
  have hw := crc16_window (beBytes 4 source.toNat ++ beBytes 4 destination.toNat) (beBytes 2 2222)
  obtain ⟨⟨a, b⟩, -, hcrc⟩ := hw.surjOn h
  refine ⟨BitVec.ofNat 16 (beNat [a, b]), ?_⟩
  have hb : beBytes 2 (BitVec.ofNat 16 (beNat [a, b])).toNat = [a, b] := by
    have hlt := beNat_lt [a, b]
    rw [BitVec.toNat_ofNat, Nat.mod_eq_of_lt (by simpa using hlt)]
    exact beBytes_beNat [a, b]
  rw [portCrc, hb]
  exact hcrc

/-- A port of the slot, by its number. -/
def Falls (slot port : ℕ) : Prop :=
  portCrc source destination (BitVec.ofNat 16 port) % registerSize = slot

instance (slot port : ℕ) : Decidable (Falls source destination slot port) :=
  inferInstanceAs (Decidable (_ = _))

/-- Two different ports of the slot in the upper half of the range: complementing a port
keeps its slot, and so does the change of two of its bits. -/
theorem exists_falls {slot : ℕ} (h : slot < registerSize) : ∃ p q : ℕ,
    p ∈ searchedPorts ∧ q ∈ searchedPorts ∧ p ≠ q ∧ Falls source destination slot p ∧
      Falls source destination slot q := by
  have hmem : ∀ v : BitVec 16, v.getLsbD 15 = true → v.toNat ∈ searchedPorts := by
    intro v hv
    have hlt := v.isLt
    rw [BitVec.getLsbD, Nat.testBit_eq_decide_div_mod_eq, decide_eq_true_eq] at hv
    rw [searchedPorts, List.mem_range'_1]
    omega
  have hfalls : ∀ v : BitVec 16, portCrc source destination v % registerSize = slot →
      Falls source destination slot v.toNat := by
    intro v hv
    rwa [Falls, BitVec.ofNat_toNat, BitVec.setWidth_eq]
  have hlt : slot < 65536 := by
    unfold registerSize at h
    omega
  obtain ⟨u, hu⟩ := exists_port source destination hlt
  have hslot : portCrc source destination u % registerSize = slot := by
    rw [hu, Nat.mod_eq_of_lt h]
  obtain ⟨v, htop, hv⟩ : ∃ v : BitVec 16, v.getLsbD 15 = true ∧
      portCrc source destination v % registerSize = slot := by
    by_cases htop : u.getLsbD 15 = true
    · exact ⟨u, htop, hslot⟩
    · refine ⟨u ^^^ 0xFFFF, ?_,
        (portCrc_change source destination u (by decide +kernel)).trans hslot⟩
      rw [BitVec.getLsbD_xor, Bool.eq_false_of_not_eq_true htop]
      rfl
  have hw := (portCrc_change source destination v (k := 0x00C0) (by decide +kernel)).trans hv
  refine ⟨v.toNat, (v ^^^ 0x00C0).toNat, hmem v htop, hmem _ ?_, ?_, hfalls v hv, hfalls _ hw⟩
  · rw [BitVec.getLsbD_xor, htop]
    rfl
  · intro he
    have hz : v ^^^ 0 = v ^^^ 0x00C0 := (BitVec.xor_zero).trans (BitVec.eq_of_toNat_eq he)
    exact absurd ((BitVec.xor_right_inj v).mp hz) (by decide)

/-! The loop returns the first two ports of the slot. -/

theorem findPorts_eq (slot : ℕ) {ports : List ℕ} (hlt : ∀ port ∈ ports, port < 65536) :
    (∀ p, findPorts source destination slot ports [p] =
      match ports.filter fun port => decide (Falls source destination slot port) with
      | q :: _ => .ok (p, q)
      | [] => .error (.runtimeError "could not find two UDP flows for the requested slot")) ∧
    findPorts source destination slot ports [] =
      match ports.filter fun port => decide (Falls source destination slot port) with
      | p :: q :: _ => .ok (p, q)
      | _ => .error (.runtimeError "could not find two UDP flows for the requested slot") := by
  induction ports with
  | nil => exact ⟨fun _ => rfl, rfl⟩
  | cons port ports ih =>
    obtain ⟨ih₁, ih₀⟩ := ih fun q hq => hlt q (List.mem_cons_of_mem _ hq)
    have hslot := hashSlot_port source destination (hlt port List.mem_cons_self)
    have hcast :
        ((portCrc source destination (BitVec.ofNat 16 port) % registerSize : ℕ) : ℤ) = slot ↔
          Falls source destination slot port := Int.natCast_inj
    simp only [findPorts, hslot, py_ok_bind, hcast, List.filter_cons, decide_eq_true_eq]
    by_cases hf : Falls source destination slot port
    · simp only [if_pos hf, List.nil_append]
      refine ⟨fun p => rfl, ?_⟩
      rw [ih₁]
      cases ports.filter fun port => decide (Falls source destination slot port) <;> rfl
    · simp only [if_neg hf]
      exact ⟨ih₁, ih₀⟩

theorem exists_cons_cons {α : Type} {l : List α} {a b : α} (ha : a ∈ l) (hb : b ∈ l) (hne : a ≠ b) :
    ∃ p q rest, l = p :: q :: rest := by
  cases l with
  | nil => cases ha
  | cons p l =>
    cases l with
    | nil => exact absurd ((List.mem_singleton.mp ha).trans (List.mem_singleton.mp hb).symm) hne
    | cons q rest => exact ⟨p, q, rest, rfl⟩

/-- The search succeeds for every pair of addresses and every slot, with the two smallest
ports of the slot that it looks at. -/
theorem portsForSlot_total (source destination : BitVec 32) (target : ℤ)
    (h : 0 ≤ target ∧ target < registerSize) :
    ∃ p q : ℕ, portsForSlot source destination target = .ok (p, q) ∧
      10000 ≤ p ∧ p < q ∧ q ≤ 65535 ∧
      hashSlot source destination p 2222 = .ok target.toNat ∧
      hashSlot source destination q 2222 = .ok target.toNat ∧
      ∀ r, 10000 ≤ r → r ≤ q → hashSlot source destination r 2222 = .ok target.toNat →
        r = p ∨ r = q := by
  obtain ⟨slot, rfl⟩ := Int.eq_ofNat_of_zero_le h.1
  have hs : slot < registerSize := by omega
  have hmem : ∀ {r}, r ∈ searchedPorts ↔ 10000 ≤ r ∧ r < 65536 := by
    intro r
    rw [searchedPorts, List.mem_range'_1]
  have hfalls : ∀ {r}, r < 65536 →
      (hashSlot source destination r 2222 = .ok slot ↔ Falls source destination slot r) := by
    intro r hr
    rw [hashSlot_port source destination hr, Except.ok.injEq, Falls]
  have hfind := (findPorts_eq source destination slot fun port hp => (hmem.mp hp).2).2
  have hsorted : (searchedPorts.filter fun port =>
      decide (Falls source destination slot port)).Pairwise (· < ·) :=
    (List.pairwise_lt_range' (s := 10000) (n := 55536)).filter _
  have hin : ∀ {r}, r ∈ (searchedPorts.filter fun port =>
      decide (Falls source destination slot port)) ↔
        (10000 ≤ r ∧ r < 65536) ∧ Falls source destination slot r := by
    intro r
    rw [List.mem_filter, hmem, decide_eq_true_eq]
  obtain ⟨a, b, ha, hb, hne, hfa, hfb⟩ := exists_falls source destination hs
  have hma := hin.mpr ⟨hmem.mp ha, hfa⟩
  have hmb := hin.mpr ⟨hmem.mp hb, hfb⟩
  generalize (searchedPorts.filter fun port => decide (Falls source destination slot port)) = found
    at hfind hsorted hin hma hmb
  obtain ⟨p, q, rest, rfl⟩ := exists_cons_cons hma hmb hne
  obtain ⟨⟨hp, hp'⟩, hfp⟩ := hin.mp List.mem_cons_self
  obtain ⟨⟨-, hq'⟩, hfq⟩ := hin.mp (List.mem_cons_of_mem p List.mem_cons_self)
  rw [List.pairwise_cons, List.pairwise_cons] at hsorted
  have hpq : p < q := hsorted.1 q List.mem_cons_self
  refine ⟨p, q, ?_, hp, hpq, by omega, (hfalls hp').mpr hfp, (hfalls hq').mpr hfq, ?_⟩
  · rw [portsForSlot, raiseIf_bind_ok]
    exact ⟨not_not.mpr h, hfind⟩
  · intro r hr hrq hf
    have hr' : r < 65536 := by omega
    have hrm := hin.mpr ⟨⟨hr, hr'⟩, (hfalls hr').mp hf⟩
    rcases List.mem_cons.mp hrm with rfl | hrm
    · exact Or.inl rfl
    rcases List.mem_cons.mp hrm with rfl | hrm
    · exact Or.inr rfl
    · exact absurd (hsorted.2.1 r hrm) (by omega)

/-- The search for the last slot of the array, between two hosts. -/
theorem portsForSlot_total_last : ((0 : ℤ) ≤ 1023 ∧ (1023 : ℤ) < registerSize) ∧
    ∃ p q : ℕ, portsForSlot 0x0a000001 0x0a000002 1023 = .ok (p, q) ∧ p < q := by
  have h : (0 : ℤ) ≤ 1023 ∧ (1023 : ℤ) < registerSize := by decide
  obtain ⟨p, q, hr, -, hpq, -⟩ := portsForSlot_total 0x0a000001 0x0a000002 1023 h
  exact ⟨h, p, q, hr, hpq⟩

end P4Cases.FlowCounter
