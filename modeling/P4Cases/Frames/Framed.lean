import P4Cases.Frames.Build

/-! What a generated frame with one IPv4 packet says, byte by byte. -/
namespace P4Cases
open Wire P4

/-- A frame with a well-formed packet: a segment behind a header with these options. -/
structure HoldsIpv4 (frame macs options segment source target : List Byte)
    (fragment protocol : ℕ) : Prop where
  length : frame.length = max 60 (34 + options.length + segment.length)
  macs : slice frame 0 12 = macs
  etherType : etherType frame = 0x0800
  wellFormed : WellFormedIpv4 frame
  checksum : recalculateChecksum frame = .ok frame
  ihl : 4 * Raw.ihl frame = 20 + options.length
  totalLen : Raw.totalLen frame = 20 + options.length + segment.length
  fragment : fieldAt frame 20 22 = fragment
  protocol : Raw.protocol frame = protocol
  addresses : slice frame 26 34 = source ++ target
  segment : ∀ i j, j ≤ segment.length →
    slice frame (34 + options.length + i) (34 + options.length + j) = slice segment i j

theorem slice_macs (eth : Ethernet) (rest : List Byte) :
    slice (Header.encode eth ++ rest) 0 12 = (Header.encode eth).take 12 := by
  rw [slice_append_left _ (by simp), slice, List.drop_zero]

theorem slice_addresses (eth : Ethernet) (ip : Ipv4) (rest : List Byte) :
    slice (Header.encode eth ++ (Header.encode ip ++ rest)) 26 34 =
      beBytes 4 ip.srcAddr.toNat ++ beBytes 4 ip.dstAddr.toNat := by
  simp [Ethernet.encode_eq, Ipv4.encode_eq]

/-- Headers with the right lengths and checksum, and the bytes behind them. -/
theorem holdsIpv4_encode {eth : Ethernet} {ip : Ipv4} {options segment padding : List Byte}
    (ht : eth.etherType = typeIpv4) (hv : ip.version = 4)
    (hi : 4 * ip.ihl.toNat = 20 + options.length)
    (hl : ip.totalLen.toNat = 20 + options.length + segment.length)
    (hc : ip.hdrChecksum = ipv4Checksum ip options)
    (hp : padding.length = 60 - (34 + options.length + segment.length)) :
    HoldsIpv4 (Header.encode eth ++ (Header.encode ip ++ (options ++ (segment ++ padding))))
      ((Header.encode eth).take 12) options segment (beBytes 4 ip.srcAddr.toNat)
      (beBytes 4 ip.dstAddr.toNat) (ip.flags.toNat * 8192 + ip.fragOffset.toNat)
      ip.protocol.toNat := by
  have hlen : (Header.encode eth ++ (Header.encode ip ++ (options ++ (segment ++
      padding)))).length = max 60 (34 + options.length + segment.length) := by
    simp [hp]
    omega
  have hopt : options.length = 4 * (ip.ihl.toNat - 5) := by omega
  constructor
  · exact hlen
  · exact slice_macs eth _
  · rw [etherType_encode, ht]
    rfl
  · refine (wellFormedIpv4_encode eth ip _).mpr ⟨hv, by omega, by omega, ?_⟩
    rw [hlen, hl]
    omega
  · exact (recalculateChecksum_fixed eth ip _ (by omega) hopt).mpr hc
  · rw [Raw.ihl_encode, hi]
  · rw [Raw.totalLen_encode, hl]
  · exact fragmentWord_encode eth ip _
  · exact Raw.protocol_encode eth ip _
  · exact slice_addresses eth ip _
  · intro i j hj
    have hslice := slice_transport eth (segment ++ padding) (by omega) hopt i j
    rw [hi, ← Nat.add_assoc] at hslice
    exact hslice.trans (slice_append_left _ hj)

section
variable {identification flags ttl protocol : ℤ} {source target options header : List Byte}

/-- The header of a packet, once its checksum is stored, in a frame that is filled up. -/
theorem holdsIpv4_ok {macs segment frame : List Byte} (hm : macs.length = 12)
    (hopt : options.length % 4 = 0) (hlen : options.length ≤ 40)
    (hs : source.length = 4) (ht : target.length = 4)
    (hheader : ipv4Header identification flags ttl protocol source target options
      segment.length = .ok header)
    (hframe : recalculateChecksum (macs ++ [0x08, 0x00] ++ header ++ segment) = .ok frame) :
    HoldsIpv4 (ljust 60 frame) macs options segment source target flags.toNat
      protocol.toNat := by
  obtain ⟨eth, heth, htype⟩ := exists_ethernet hm
  obtain ⟨hfits, rfl⟩ := ipv4Header_ok hopt hlen hs ht hheader
  have hihl : (builtIpv4 identification flags ttl protocol source target options.length
      segment.length).ihl.toNat = 5 + options.length / 4 := ihl_toNat hlen
  have htotal : (builtIpv4 identification flags ttl protocol source target options.length
      segment.length).totalLen.toNat = 20 + options.length + segment.length :=
    hfits.totalLen_toNat
  have hmacs : (Header.encode eth).take 12 = macs := by
    rw [← heth, List.take_left' hm]
  rw [heth, List.append_assoc, List.append_assoc,
    recalculateChecksum_encode eth _ segment (by omega) (by omega)] at hframe
  obtain rfl := Except.ok.inj hframe
  have hholds := @holdsIpv4_encode eth
    { builtIpv4 identification flags ttl protocol source target options.length segment.length with
      hdrChecksum := ipv4Checksum (builtIpv4 identification flags ttl protocol source target
        options.length segment.length) options } options segment
    (List.replicate (60 - (34 + options.length + segment.length)) 0) htype rfl
    (by dsimp only; omega) htotal rfl (by simp)
  have hsrc : beBytes 4 (builtIpv4 identification flags ttl protocol source target options.length
      segment.length).srcAddr.toNat = source := beBytes_address hs
  have hdst : beBytes 4 (builtIpv4 identification flags ttl protocol source target options.length
      segment.length).dstAddr.toNat = target := beBytes_address ht
  have hfrag := @HeaderFits.fragment_toNat protocol source target identification flags ttl
    segment.length options.length hfits
  have hproto := @HeaderFits.protocol_toNat protocol source target identification flags ttl
    segment.length options.length hfits
  dsimp only at hholds
  rw [hmacs, hsrc, hdst, hfrag, hproto] at hholds
  have hpad : 60 - (14 + (20 + (options.length + segment.length))) =
      60 - (34 + options.length + segment.length) := by omega
  convert hholds using 1
  rw [ljust]
  simp only [List.append_assoc, List.length_append, Header.encode_length, Ethernet.size, Ipv4.size,
    hpad]

end

/-! Changed frames whose checksum is recomputed. -/

/-- Only the checksum changes. -/
theorem recalculateChecksum_slices {frame : List Byte} (h : 26 ≤ frame.length) :
    ∃ out, recalculateChecksum frame = .ok out ∧ out.length = frame.length ∧
      ∀ i j, j ≤ 24 ∨ 26 ≤ i → slice out i j = slice frame i j := by
  rw [recalculateChecksum, byteAt_eq (by omega), py_ok_bind]
  have hz : (setSlice frame 24 26 [0, 0]).length = frame.length :=
    setSlice_length (by omega) h rfl
  refine ⟨_, rfl, ?_, fun i j hij => ?_⟩
  · rw [setSlice_length (by omega) (by omega) (beBytes_length 2 _), hz]
  · rw [slice_setSlice (by omega) (by omega) (beBytes_length 2 _) hij,
      slice_setSlice (by omega) h rfl hij]

/-- The checksum that was stored before does not matter. -/
theorem recalculateChecksum_congr {frame frame' : List Byte} (hl : 24 ≤ frame.length)
    (hl' : 24 ≤ frame'.length) (ht : frame.take 24 = frame'.take 24)
    (hd : frame.drop 26 = frame'.drop 26) :
    recalculateChecksum frame = recalculateChecksum frame' := by
  have hb : fieldAt frame 14 15 = fieldAt frame' 14 15 := by
    have hs := congrArg (fun bytes => fieldAt bytes 14 15) ht
    simp only [fieldAt, slice_take _ (show 15 ≤ 24 by omega)] at hs
    exact hs
  have hzero : setSlice frame 24 26 [0, 0] = setSlice frame' 24 26 [0, 0] := by
    rw [setSlice, setSlice, ht, hd]
  rw [recalculateChecksum, recalculateChecksum, byteAt_eq (by omega), byteAt_eq (by omega),
    py_ok_bind, py_ok_bind]
  simp only [hb, hzero]

end P4Cases
