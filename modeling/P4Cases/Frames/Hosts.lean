import P4Cases.Frames.Layer2
import P4Cases.Frames.SelfTest

/-! Topologies with numbered hosts: host `hN` is attached to port `N`. -/
namespace P4Cases.Layer2
open Wire P4

theorem hostName_inj {m n : ℕ} : hostName m = hostName n ↔ m = n := by
  refine ⟨fun h => ?_, fun h => h ▸ rfl⟩
  have hrepr : Nat.repr m = Nat.repr n := (String.append_right_inj "h").mp h
  have hdigits : Nat.toDigits 10 m = Nat.toDigits 10 n := String.ofList_injective hrepr
  rw [← Nat.ofDigitChars_ten_toDigits (n := m), hdigits, Nat.ofDigitChars_ten_toDigits]

/-- The links of the topology, in the order in which they are added. -/
def wiring (hosts : ℕ) : Wiring String :=
  (List.range' 1 hosts).map fun number => (hostName number, BitVec.ofNat 9 number)

theorem wiring_names (hosts : ℕ) :
    (wiring hosts).map Prod.fst = (List.range' 1 hosts).map hostName := by
  rw [wiring, List.map_map]
  rfl

theorem wiring_nodup (hosts : ℕ) : ((wiring hosts).map Prod.fst).Nodup := by
  rw [wiring_names]
  exact (List.nodup_range').map fun _ _ h => hostName_inj.mp h

theorem mem_wiring {hosts : ℕ} {link : String × Port} :
    link ∈ wiring hosts ↔ ∃ number, 1 ≤ number ∧ number ≤ hosts ∧
      link = (hostName number, BitVec.ofNat 9 number) := by
  simp only [wiring, List.mem_map, List.mem_range'_1]
  constructor
  · rintro ⟨number, hn, rfl⟩
    exact ⟨number, hn.1, by omega, rfl⟩
  · rintro ⟨number, h₁, h₂, rfl⟩
    exact ⟨number, ⟨h₁, by omega⟩, rfl⟩

theorem mem_names {hosts number : ℕ} (h₁ : 1 ≤ number) (h₂ : number ≤ hosts) :
    hostName number ∈ (wiring hosts).map Prod.fst := by
  rw [wiring_names]
  exact List.mem_map_of_mem (List.mem_range'_1.mpr ⟨h₁, by omega⟩)

/-- Of a frame that is copied to several hosts, one copy is seen at each of them. -/
theorem seenAt_copied {keep : List Byte → Bool} {frame : List Byte} {receivers : List ℕ}
    (hn : receivers.Nodup) (hr : ∀ q ∈ receivers, q < 256) {out : ℕ} (ho : out < 256)
    (hk : keep frame = true) :
    seenAt keep (BitVec.ofNat 9 out) (receivers.map fun q => (BitVec.ofNat 9 q, frame)) =
      if hostName out ∈ receivers.map hostName then [frame] else [] := by
  have hmem : hostName out ∈ receivers.map hostName ↔ out ∈ receivers := by
    simp [hostName_inj]
  have hport : ∀ q ∈ receivers,
      decide ((BitVec.ofNat 9 q : Port) = BitVec.ofNat 9 out) = decide (q = out) :=
    fun q hq => decide_eq_decide.mpr (port_inj (hr q hq) ho)
  have hport' : ((receivers.map fun q => ((BitVec.ofNat 9 q : Port), frame)).filter
      fun copy => copy.1 = BitVec.ofNat 9 out) =
        (receivers.filter (· = out)).map fun q => (BitVec.ofNat 9 q, frame) := by
    rw [List.filter_map]
    exact congrArg _ (List.filter_congr hport)
  rw [seenAt, hport', List.map_map, Function.comp_def, List.map_const', List.filter_eq,
    List.length_replicate]
  simp only [hmem]
  by_cases h : out ∈ receivers
  · rw [if_pos h, List.count_eq_one_of_mem hn h]
    simp [hk]
  · rw [if_neg h, List.count_eq_zero_of_not_mem h]
    rfl

end P4Cases.Layer2
