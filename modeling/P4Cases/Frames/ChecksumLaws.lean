import P4Cases.Frames.Ipv4

/-! The checksum of the `packets.py` modules on any byte string, and what rewriting it
does to any frame that has room for an IPv4 header. -/
namespace P4Cases
open Wire P4

/-- One turn of `while total >> 16`. -/
def carryStep (total : ℕ) : ℕ := (total &&& 0xFFFF) + (total >>> 16)

/-- The loop ends: after finitely many turns there is no carry. -/
theorem foldCarries_iterate (total : ℕ) : ∃ turns : ℕ,
    foldCarries total = Nat.iterate carryStep turns total ∧ foldCarries total >>> 16 = 0 := by
  induction total using foldCarries.induct with
  | case1 total h =>
    refine ⟨0, ?_, ?_⟩ <;> rw [foldCarries, if_pos h]
    · rfl
    · exact h
  | case2 total h ih =>
    obtain ⟨turns, hr, hz⟩ := ih
    refine ⟨turns + 1, ?_, ?_⟩ <;> rw [foldCarries, if_neg h]
    · exact hr
    · exact hz

theorem checksum_onesSum (data : List Byte) : checksum data = 0xFFFF - onesSum data := by
  rw [checksum_eq, csum16_toNat, onesSum_eq]

/-! A word stored in a segment. -/

variable {front : List Byte} (back : List Byte)

theorem checksum_stored (hf : front.length % 2 = 0) {c : ℕ} (hc : c < 65536) :
    checksum (front ++ (beBytes 2 c ++ back)) =
      0xFFFF - fold16 ((words (front ++ back)).sum + c) := by
  have hs := words_sum_insert back hf (by simp : (beBytes 2 c).length % 2 = 0)
  rw [words_beBytes_two, List.sum_singleton, Nat.mod_eq_of_lt hc, List.append_assoc] at hs
  rw [checksum_onesSum, onesSum_eq, hs]

/-- The checksum over a zeroed field verifies in its place, and so does its other
representation when it is zero. -/
theorem checksum_verifies (hf : front.length % 2 = 0) {c : ℕ}
    (hc : c = checksum (front ++ ([0, 0] ++ back))) :
    checksum (front ++ (beBytes 2 c ++ back)) = 0 ∧
      (c = 0 → checksum (front ++ (beBytes 2 0xFFFF ++ back)) = 0) := by
  have hz : ([0, 0] : List Byte) = beBytes 2 0 := by decide
  rw [hz, checksum_stored back hf (by omega), Nat.add_zero] at hc
  have hle := fold16_le (words (front ++ back)).sum
  constructor
  · rw [checksum_stored back hf (by omega), hc, fold16_csum]
  · intro h
    have hs : (words (front ++ back)).sum ≠ 0 := by
      intro hs
      rw [hs, fold16_eq_zero.mpr rfl] at hc
      omega
    rw [checksum_stored back hf (by omega), (fold16_add_eq_max hs (by omega)).mpr]
    exact Or.inr ⟨rfl, by omega⟩

/-! Frames with room for an IPv4 header. -/

/-- `end` of `recalculate_checksum`. -/
def headerEnd (frame : List Byte) : ℕ := 14 + max 20 ((fieldAt frame 14 15 &&& 15) * 4)

variable (eth : Ethernet) (ip : Ipv4) (rest : List Byte)

theorem headerEnd_encode : headerEnd (Header.encode eth ++ (Header.encode ip ++ rest)) =
    34 + 4 * (ip.ihl.toNat - 5) := by
  rw [headerEnd, headerLen_encode]
  omega

/-- The header as far as it is there, options included. -/
theorem slice_header (k : ℕ) :
    slice (Header.encode eth ++ (Header.encode ip ++ rest)) 14 (34 + k) =
      Header.encode ip ++ rest.take k := by
  rw [slice_append_right _ _ (by simp)]
  simp only [Header.encode_length, Ethernet.size, Nat.sub_self]
  rw [slice_append_span _ (by simp; omega), Header.encode_length, Ipv4.size, slice, List.drop_zero,
    Nat.sub_zero]
  congr 2
  omega

/-- Recomputing the checksum, whatever the header length says. -/
theorem recalculateChecksum_header :
    recalculateChecksum (Header.encode eth ++ (Header.encode ip ++ rest)) =
      .ok (Header.encode eth ++ (Header.encode { ip with
        hdrChecksum := ipv4Checksum ip (rest.take (4 * (ip.ihl.toNat - 5))) } ++ rest)) := by
  have hz : ([0, 0] : List Byte) = beBytes 2 (0 : BitVec 16).toNat := by decide
  have he :
      14 + max 20 ((fieldAt (Header.encode eth ++ (Header.encode ip ++ rest)) 14 15 &&& 15) * 4) =
        34 + 4 * (ip.ihl.toNat - 5) := headerEnd_encode eth ip rest
  rw [recalculateChecksum, byteAt_eq (by simp)]
  simp only [bind, pure, Except.bind, Except.pure]
  rw [he, hz, setChecksum_encode, slice_header, checksum_eq, ← ipv4Checksum_eq, setChecksum_encode]

theorem checksum_header :
    checksum (slice (Header.encode eth ++ (Header.encode { ip with
      hdrChecksum := ipv4Checksum ip (rest.take (4 * (ip.ihl.toNat - 5))) } ++ rest)) 14
        (34 + 4 * (ip.ihl.toNat - 5))) = 0 := by
  rw [slice_header, checksum_eq, csum16_checksummed]
  rfl

/-- The checksum is the complement of the one's-complement sum; rewriting it touches its
two bytes only, makes the header verify, is done once, and stores what the switch computes
over the other fields of a complete header; and a segment verifies with it. -/
theorem checksum_laws :
    (∀ data : List Byte, checksum data = 0xFFFF - onesSum data) ∧
    (∀ total : ℕ, ∃ turns : ℕ,
      foldCarries total = Nat.iterate carryStep turns total ∧ foldCarries total >>> 16 = 0) ∧
    (∀ frame : List Byte, 34 ≤ frame.length → ∃ result,
      recalculateChecksum frame = .ok result ∧ result.length = frame.length ∧
      (∀ i, i ≠ 24 → i ≠ 25 → result[i]? = frame[i]?) ∧
      headerEnd result = headerEnd frame ∧ checksum (slice result 14 (headerEnd result)) = 0 ∧
      recalculateChecksum result = .ok result ∧
      (headerEnd frame ≤ frame.length → ∃ (eth : Ethernet) (ip : Ipv4) (opts rest : List Byte),
        frame = Header.encode eth ++ (Header.encode ip ++ (opts ++ rest)) ∧
        34 + opts.length = headerEnd frame ∧
        fieldAt result 24 26 = (csum16 (packBits (ipv4Fields ip ++ bytesBits opts))).toNat)) ∧
    ∀ front back : List Byte, front.length % 2 = 0 →
      let sum := checksum (front ++ ([0, 0] ++ back))
      checksum (front ++ (beBytes 2 sum ++ back)) = 0 ∧
        checksum (front ++ (beBytes 2 (if sum = 0 then 0xFFFF else sum) ++ back)) = 0 := by
  refine ⟨checksum_onesSum, foldCarries_iterate, ?_, ?_⟩
  · intro frame hl
    obtain ⟨eth, ip, rest, rfl⟩ := exists_ipv4 hl
    have hr := recalculateChecksum_header eth ip rest
    refine ⟨_, hr, ?_, ?_, ?_, ?_, ?_, ?_⟩
    · simp
    · intro i h₁ h₂
      rw [← setChecksum_encode]
      exact setSlice_getElem? (by omega) (by omega) (by simp) (by omega)
    · rw [headerEnd_encode, headerEnd_encode]
    · rw [headerEnd_encode]
      exact checksum_header eth ip rest
    · exact recalculateChecksum_header eth _ rest
    · intro hcomplete
      rw [headerEnd_encode] at hcomplete ⊢
      have hlen : (Header.encode eth ++ (Header.encode ip ++ rest)).length = 34 + rest.length := by
        simp
        omega
      refine ⟨eth, ip, rest.take (4 * (ip.ihl.toNat - 5)), rest.drop (4 * (ip.ihl.toNat - 5)),
        ?_, ?_, ?_⟩
      · rw [List.take_append_drop]
      · rw [List.length_take]
        omega
      · have hstored := Raw.hdrChecksum_encode eth { ip with
          hdrChecksum := ipv4Checksum ip (rest.take (4 * (ip.ihl.toNat - 5))) } rest
        rw [packBits_ipv4Fields]
        exact hstored
  · intro front back hf
    dsimp only
    obtain ⟨h₁, h₂⟩ := checksum_verifies back hf rfl
    refine ⟨h₁, ?_⟩
    split_ifs with hz
    · exact h₂ hz
    · exact h₁

end P4Cases
