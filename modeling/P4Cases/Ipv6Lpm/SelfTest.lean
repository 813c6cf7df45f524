import P4Cases.Frames.SelfTest
import P4Cases.Ipv6Lpm.Probes

/-! The end-to-end test of the IPv6 router: the router does with every probe what the test
expects of it, and so the test passes exactly when the hosts have seen what the router has
sent. -/
namespace P4Cases.Ipv6Lpm
open Wire P4 Control Builder

/-- The router forwards the probe to its receiver, or drops it. -/
structure Probe.Correct (marker : List Byte) (item : Probe) : Prop where
  complete : 14 ≤ item.frame.length
  forwarded : item.allowed = true → Forwardable item.frame ∧ slice item.frame 0 4 = marker ∧
    ∃ host, item.receiver = some host ∧ expectedHost (destination item.frame) = some host
  refused : item.allowed = false →
    ¬ (Forwardable item.frame ∧ expectedHost (destination item.frame) ≠ none)

section
variable {marker : List Byte} {call : Call}

/-- One call adds one probe, and none of its checks fails. -/
theorem add_adds (hm : ValidMarker marker) (hf : call.Fits)
    (hr : call.allowed = true → expectedHost call.destination ≠ none)
    (h : ∀ body frame, body.length ≤ 1460 → Framed marker call.toFrameArgs body frame →
      (∃ identification < 65536, call.segment identification = .ok body) →
      Probe.Correct marker
        { sender := call.sender
          receiver := if call.allowed then expectedHost call.destination else none
          allowed := call.allowed, frame := call.transform frame }) :
    Adds (Probe.Correct marker) 65535 1 (add marker call) := by
  refine Adds.count fun n hn => ?_
  obtain ⟨body, frame, hbody, hl, hframe, hframed⟩ :=
    makeFrame_total hm hf (show 1 ≤ n + 1 by omega) (by omega)
  refine Adds.lift hframe (Adds.lift (raiseIf_ok.mpr ?_) (Adds.push ?_))
  · rintro ⟨ha, hnone⟩
    rw [if_pos ha] at hnone
    exact hr ha hnone
  · exact h body frame hl hframed ⟨n + 1, by omega, hbody⟩

theorem Framed.forwardable {a : FrameArgs} {body frame : List Byte} (h : Framed marker a body frame)
    (hh : 2 ≤ a.hopLimit) : Forwardable frame where
  complete := by
    rw [h.length]
    omega
  etherType := h.etherType
  version := h.version
  payloadLen := by
    rw [h.payloadLen, h.length]
    omega
  hopLimit := by
    rw [h.hopLimit]
    omega

/-- A probe that is to be forwarded. -/
theorem add_forwarded (hm : ValidMarker marker) (hf : call.Fits) (ha : call.allowed = true)
    (ht : call.transform = id) (hh : 2 ≤ call.hopLimit)
    (hr : expectedHost call.destination ≠ none) :
    Adds (Probe.Correct marker) 65535 1 (add marker call) := by
  refine add_adds hm hf (fun _ => hr) fun body frame _ hframed _ => ?_
  obtain ⟨host, hhost⟩ := Option.ne_none_iff_exists'.mp hr
  refine ⟨?_, fun _ => ?_, fun hfalse => ?_⟩
  · simp only [ht, id_eq]
    rw [hframed.length]
    omega
  · simp only [ht, id_eq]
    refine ⟨hframed.forwardable hh, hframed.marked, host, ?_, ?_⟩
    · rw [if_pos ha, hhost]
    · rw [hframed.destination, hhost]
  · exact absurd (ha.symm.trans hfalse) (by decide)

/-- A probe that the router has to drop. -/
theorem add_refused (hm : ValidMarker marker) (hf : call.Fits) (ha : call.allowed = false)
    (h : ∀ body frame, body.length ≤ 1460 → Framed marker call.toFrameArgs body frame →
      (∃ identification < 65536, call.segment identification = .ok body) →
      14 ≤ (call.transform frame).length ∧ ¬ (Forwardable (call.transform frame) ∧
        expectedHost (destination (call.transform frame)) ≠ none)) :
    Adds (Probe.Correct marker) 65535 1 (add marker call) := by
  have hallowed : ¬ call.allowed = true := by simp [ha]
  refine add_adds hm hf (fun htrue => absurd htrue hallowed) fun body frame hl hframed hbody => ?_
  obtain ⟨hc, hn⟩ := h body frame hl hframed hbody
  exact ⟨hc, fun htrue => absurd htrue hallowed, fun _ => hn⟩

end

theorem expectedHost_hostAddresses (host : Host) :
    expectedHost (hostAddresses host) = some host := by
  cases host <;> decide

/-! One sender. -/

section
variable {marker : List Byte} (hm : ValidMarker marker) (sender : Host)
include hm

/-- A segment of the usual size, or of another one, to an address with a route. -/
theorem segment_adds {destination : BitVec 128} {protocol payloadSize hopLimit : ℕ}
    (hr : expectedHost destination ≠ none)
    (hs : payloadSize ≤ 1452 ∧ (protocol ≠ 17 → payloadSize ≤ 1440)) (hp : protocol < 256)
    (hh : 2 ≤ hopLimit ∧ hopLimit < 256) :
    Adds (Probe.Correct marker) 65535 1
      (add marker { sender, destination, protocol, payloadSize, hopLimit }) :=
  add_forwarded hm ⟨hs, hp, hh.2, by simp, by simp⟩ rfl rfl hh.1 hr

theorem pairProbes_adds : Adds (Probe.Correct marker) 65535 12 (pairProbes marker sender) := by
  unfold pairProbes
  refine Adds.of_eq (Adds.forM fun receiver _ => Adds.forM fun protocol hp =>
    Adds.forM fun repetition hrep => segment_adds hm sender ?_ ?_ ?_ ?_) ?_
  · simp [expectedHost_hostAddresses]
  · have hsize := List.mem_range.mp hrep
    omega
  · simp only [List.mem_cons, List.not_mem_nil, or_false] at hp
    omega
  · decide
  · cases sender <;> decide

theorem lpmProbes_adds : Adds (Probe.Correct marker) 65535 12 (lpmProbes marker sender) := by
  have hroutes : ∀ destination ∈ ([0x20010db8000300000000000000000041,
      0x20010db8000300000000000000000042, 0x20010db8000300000000000000000043] : List (BitVec 128)),
      expectedHost destination ≠ none := forall_mem_of_all (by decide)
  unfold lpmProbes
  refine Adds.of_eq (Adds.forM fun destination hd => Adds.forM fun protocol hp =>
    segment_adds hm sender (hroutes destination hd) ?_ ?_ ?_) ?_
  · simp
  · simp only [List.mem_cons, List.not_mem_nil, or_false] at hp
    omega
  · decide
  · decide

theorem boundaryProbes_adds :
    Adds (Probe.Correct marker) 65535 6 (boundaryProbes marker sender) := by
  have hroutes : ∀ subnet ∈ subnets,
      ∀ destination ∈ [subnet.2, subnet.2 ||| BitVec.ofNat 128 (2 ^ 64 - 1)],
        expectedHost destination ≠ none := by
    intro subnet hs
    simp only [subnets, List.mem_cons, List.not_mem_nil, or_false] at hs
    rcases hs with rfl | rfl | rfl <;> exact forall_mem_of_all (by decide)
  unfold boundaryProbes
  have hsubnet : ∀ subnet ∈ subnets, Adds (Probe.Correct marker) 65535 2
      ([subnet.2, subnet.2 ||| BitVec.ofNat 128 (2 ^ 64 - 1)].forM fun destination =>
        add marker { sender, destination }) := by
    intro subnet hs
    refine Adds.forM fun destination hd =>
      segment_adds hm sender (hroutes subnet hs destination hd) ?_ ?_ ?_ <;> decide
  exact Adds.forM hsubnet

theorem sizeProbes_adds : Adds (Probe.Correct marker) 65535 4 (sizeProbes marker sender) := by
  unfold sizeProbes
  refine Adds.of_eq (Adds.forM fun size hs => segment_adds hm sender ?_ ?_ ?_ ?_) ?_
  · decide
  · simp only [List.mem_cons, List.not_mem_nil, or_false] at hs
    omega
  · decide
  · decide
  · decide

theorem hopProbes_adds : Adds (Probe.Correct marker) 65535 2 (hopProbes marker sender) := by
  unfold hopProbes
  refine Adds.of_eq (Adds.forM fun hopLimit hh => segment_adds hm sender ?_ ?_ ?_ ?_) ?_
  · decide
  · decide
  · decide
  · simp only [List.mem_cons, List.not_mem_nil, or_false] at hh
    omega
  · decide

/-- A packet with a body of its own. -/
theorem body_adds {destination : BitVec 128} {protocol : ℕ} {body : List Byte}
    {flowLabel : Option ℕ} (hr : expectedHost destination ≠ none) (hp : protocol < 256)
    (hb : body.length ≤ 1460) (hl : ∀ label, flowLabel = some label → label < 2 ^ 20) :
    Adds (Probe.Correct marker) 65535 1
      (add marker { sender, destination, protocol, body := some body, flowLabel }) :=
  add_forwarded hm ⟨by simp, hp, by simp, fun _ h => Option.some.inj h ▸ hb, hl⟩ rfl rfl
    (by simp) hr

theorem nextHeaderProbes_adds :
    Adds (Probe.Correct marker) 65535 3 (nextHeaderProbes marker sender) := by
  have hr : expectedHost 0x20010db8000200000000000000000001 ≠ none := by decide
  unfold nextHeaderProbes
  refine Adds.of_eq (Adds.seq (body_adds hm sender hr ?_ ?_ ?_)
    (Adds.seq (body_adds hm sender hr ?_ ?_ ?_) (segment_adds hm sender hr ?_ ?_ ?_))) ?_
  all_goals decide

theorem extensionProbes_adds {destination : BitVec 128} (hr : expectedHost destination ≠ none) :
    Adds (Probe.Correct marker) 65535 1 (extensionProbes marker sender destination) := by
  refine Adds.count fun n hn => ?_
  obtain ⟨segment, hsegment, -, hl, -⟩ := @transportSegment_total (hostAddresses sender) destination
    17 (n + 1) 33 (by omega) (by decide)
  refine Adds.lift hsegment (body_adds hm sender hr (by decide) ?_ (by simp))
  rw [List.length_append]
  have hchain : extensionChain.length = 16 := rfl
  omega

theorem fragmentProbes_adds {destination : BitVec 128} (hr : expectedHost destination ≠ none)
    {protocol : ℕ} (hp : protocol < 256) :
    Adds (Probe.Correct marker) 65535 3 (fragmentProbes marker sender destination protocol) := by
  refine Adds.count fun n hn => ?_
  obtain ⟨segment, hsegment, -⟩ := @transportSegment_total (hostAddresses sender) destination
    protocol (n + 1) (if protocol = 17 then 40 else 28) (by omega) (by split_ifs <;> decide)
  have hspans : ∀ span ∈ (spans protocol).zipIdx, span.1.1 ≤ 40 ∧ span.1.2 ≤ 48 := by
    unfold spans
    split_ifs <;> decide
  have hcount : (spans protocol).zipIdx.length * 1 = 3 := by
    unfold spans
    split_ifs <;> rfl
  refine Adds.lift hsegment ((Adds.forM fun span hspan => ?_).of_eq hcount)
  obtain ⟨hstart, hend⟩ := hspans span hspan
  have hword : (span.1.1 / 8) <<< 3 ||| (if span.2 < 2 then 1 else 0) < 2 ^ 16 := by
    refine Nat.or_lt_two_pow ?_ (by split_ifs <;> decide)
    rw [Nat.shiftLeft_eq]
    omega
  obtain ⟨fragment, hfragment, hl⟩ : ∃ fragment, packInts [(1, (protocol : ℤ)), (1, 0),
      (2, ((span.1.1 / 8) <<< 3 ||| (if span.2 < 2 then 1 else 0) : ℕ)), (4, (n + 1 : ℕ))] =
        .ok fragment ∧ fragment.length = 8 := by
    refine ⟨_, packInts_ok.mpr ⟨?_, rfl⟩, by simp⟩
    simp only [List.forall_mem_cons, List.not_mem_nil, false_implies, implies_true, and_true]
    omega
  refine Adds.lift hfragment (body_adds hm sender hr (by decide) ?_ fun label hlabel => ?_)
  · have hpiece : (slice segment span.1.1 span.1.2).length ≤ 48 := by
      rw [slice, List.length_take]
      omega
    rw [List.length_append]
    omega
  · obtain rfl := Option.some.inj hlabel
    omega

theorem chainProbes_adds : Adds (Probe.Correct marker) 65535 14 (chainProbes marker sender) := by
  have hroutes : ∀ destination ∈ ([0x20010db8000300000000000000000042,
      0x20010db8000300000000000000000043] : List (BitVec 128)), expectedHost destination ≠ none :=
    forall_mem_of_all (by decide)
  have hprotocols : ∀ protocol ∈ [17, 6], protocol < 256 := by decide
  have hdestination : ∀ destination ∈ ([0x20010db8000300000000000000000042,
      0x20010db8000300000000000000000043] : List (BitVec 128)),
      Adds (Probe.Correct marker) 65535 7 (do
        extensionProbes marker sender destination
        [17, 6].forM fun protocol => fragmentProbes marker sender destination protocol) := by
    intro destination hd
    refine Adds.of_eq (Adds.seq (extensionProbes_adds hm sender (hroutes destination hd))
      (Adds.forM fun protocol hp =>
        fragmentProbes_adds hm sender (hroutes destination hd) (hprotocols protocol hp))) ?_
    decide
  unfold chainProbes
  exact Adds.of_eq (Adds.forM hdestination) (by decide)

/-- A packet whose hop limit has run out, or that has no route. -/
theorem dropped_adds {destination : BitVec 128} {hopLimit : ℕ} (hh : hopLimit < 256)
    (hd : hopLimit ≤ 1 ∨ expectedHost destination = none) :
    Adds (Probe.Correct marker) 65535 1
      (add marker { sender, destination, hopLimit, allowed := false }) := by
  refine add_refused hm ⟨by simp, by simp, hh, by simp, by simp⟩ rfl
    fun body frame _ hframed _ => ?_
  constructor
  · show 14 ≤ frame.length
    rw [hframed.length]
    omega
  · rintro ⟨hforward, hroute⟩
    rcases hd with hd | hd
    · have hlimit : 1 < fieldAt frame 21 22 := hforward.hopLimit
      rw [hframed.hopLimit] at hlimit
      exact absurd hd (not_le.mpr hlimit)
    · exact hroute ((congrArg expectedHost hframed.destination).trans hd)

theorem expiredProbes_adds : Adds (Probe.Correct marker) 65535 8 (expiredProbes marker sender) := by
  unfold expiredProbes
  refine Adds.of_eq (Adds.forM fun destination _ => Adds.forM fun hopLimit hh =>
    dropped_adds hm sender ?_ (Or.inl ?_)) ?_
  · simp only [List.mem_cons, List.not_mem_nil, or_false] at hh
    omega
  · simp only [List.mem_cons, List.not_mem_nil, or_false] at hh
    omega
  · decide

theorem unroutedProbes_adds :
    Adds (Probe.Correct marker) 65535 5 (unroutedProbes marker sender) := by
  have hroutes : ∀ destination ∈ ([0x20010db8000000000000000000000001,
      0x20010db8000400000000000000000001, 0x20010db8000300010000000000000042,
      0x20010db80002ffff0000000000000001, 0xff020000000000000000000000000001] : List (BitVec 128)),
      expectedHost destination = none := forall_mem_of_all (by decide)
  unfold unroutedProbes
  refine Adds.of_eq (Adds.forM fun destination hd =>
    dropped_adds hm sender ?_ (Or.inr (hroutes destination hd))) ?_ <;> decide

/-- A frame that has been changed into something that is not forwarded. -/
theorem malformed_adds {protocol : ℕ} {body : Option (List Byte)}
    {transform : List Byte → List Byte} (hp : protocol < 256)
    (hb : ∀ bytes, body = some bytes → bytes.length ≤ 1460)
    (h : ∀ bytes frame, bytes.length ≤ 1460 → 54 ≤ frame.length →
      Framed marker { sender, protocol, body } bytes frame →
      (body = none → 24 ≤ bytes.length) → (∀ given, body = some given → bytes = given) →
      14 ≤ (transform frame).length ∧ ¬ Forwardable (transform frame)) :
    Adds (Probe.Correct marker) 65535 1
      (add marker { sender, protocol, body, allowed := false, transform }) := by
  have hfits : FrameArgs.Fits { sender, protocol, body } := ⟨by simp, hp, by simp, hb, by simp⟩
  refine add_refused hm hfits rfl fun bytes frame hl hframed hsegment => ?_
  obtain ⟨identification, hi, hsegment⟩ := hsegment
  obtain ⟨bytes', hbytes', -, hsize⟩ := hfits.segment_total hi
  obtain rfl : bytes = bytes' := Except.ok.inj (hsegment.symm.trans hbytes')
  have hlen : 54 ≤ frame.length := by
    rw [hframed.length]
    omega
  have hgiven : ∀ given, body = some given → bytes = given := by
    rintro given rfl
    exact (Except.ok.inj hsegment).symm
  obtain ⟨hc, hn⟩ := h bytes frame hl hlen hframed hsize hgiven
  exact ⟨hc, fun hforward => hn hforward.1⟩

/-- Some bytes of the header replaced, so that the router does not take the frame. -/
theorem replaced_adds {protocol offset : ℕ} {body : Option (List Byte)} {value : List Byte}
    (hp : protocol < 256) (hb : ∀ bytes, body = some bytes → bytes.length ≤ 1460)
    (ho : offset + value.length ≤ 54)
    (h : ∀ bytes frame, bytes.length ≤ 1460 → frame.length = max 60 (54 + bytes.length) →
      (∀ given, body = some given → bytes = given) → Forwardable (replaceAt offset value frame) →
      (replaceAt offset value frame).length = frame.length →
      fieldAt (replaceAt offset value frame) offset (offset + value.length) = beNat value → False) :
    Adds (Probe.Correct marker) 65535 1
      (add marker { sender, protocol, body, allowed := false
                    transform := replaceAt offset value }) := by
  refine malformed_adds hm sender hp hb fun bytes frame hl hlen hframed _ hgiven => ?_
  have hreplace : replaceAt offset value frame =
      setSlice frame offset (offset + value.length) value := rfl
  have hlength : (replaceAt offset value frame).length = frame.length := by
    rw [hreplace, setSlice_length (by omega) (by omega) (by omega)]
  refine ⟨hlength ▸ by omega, fun hforward => ?_⟩
  refine h bytes frame hl hframed.length hgiven hforward hlength ?_
  rw [fieldAt, hreplace, slice_setSlice_self (by omega) (by omega)]

theorem malformedProbes_adds :
    Adds (Probe.Correct marker) 65535 10 (malformedProbes marker sender) := by
  have hversion : ∀ version ∈ [4, 15], Adds (Probe.Correct marker) 65535 1
      (add marker { sender, allowed := false
                    transform := replaceAt 14 (beBytes 1 (version <<< 4 ||| 2)) }) := by
    intro version hv
    refine replaced_adds hm sender (by decide) (by simp) (by simp)
      fun bytes frame _ _ _ hforward _ hfield => ?_
    have hnibble := hforward.version
    rw [beBytes_length] at hfield
    rw [hfield] at hnibble
    have hbad : ∀ version ∈ [4, 15], beNat (beBytes 1 (version <<< 4 ||| 2)) / 16 ≠ 6 := by decide
    exact hbad version hv hnibble
  have hlong : Adds (Probe.Correct marker) 65535 1
      (add marker { sender, allowed := false, transform := replaceAt 18 [0xff, 0xff] }) := by
    refine replaced_adds hm sender (by decide) (by simp) (by simp)
      fun bytes frame hl hlen _ hforward hlength hfield => ?_
    have hpayload := hforward.payloadLen
    have hvalue : beNat [0xff, 0xff] = 65535 := rfl
    rw [show 18 + ([0xff, 0xff] : List Byte).length = 20 from rfl] at hfield
    omega
  have hshort : ∀ length ∈ [22, 53], Adds (Probe.Correct marker) 65535 1
      (add marker { sender, allowed := false, transform := List.take length }) := by
    intro length hlength
    refine malformed_adds hm sender (by decide) (by simp) fun bytes frame _ hlen _ _ _ => ?_
    simp only [List.mem_cons, List.not_mem_nil, or_false] at hlength
    refine ⟨by rw [List.length_take]; omega, fun hforward => ?_⟩
    have hcomplete := hforward.complete
    rw [List.length_take] at hcomplete
    omega
  have hcut : Adds (Probe.Correct marker) 65535 1
      (add marker { sender, allowed := false
                    transform := fun frame => frame.take (frame.length - 12) }) := by
    refine malformed_adds hm sender (by decide) (by simp) fun bytes frame hl _ hframed hsize _ => ?_
    have hfull := hframed.length
    have hbytes := hsize rfl
    refine ⟨by rw [List.length_take]; omega, fun hforward => ?_⟩
    have hpayload := hforward.payloadLen
    rw [fieldAt, slice_take _ (by omega), ← fieldAt, hframed.payloadLen,
      List.length_take] at hpayload
    omega
  have hempty : Adds (Probe.Correct marker) 65535 1
      (add marker { sender, allowed := false, protocol := 59, body := some []
                    transform := replaceAt 18 [0, 0x07] }) := by
    refine replaced_adds hm sender (by decide) (fun bytes h => ?_) (by simp)
      fun bytes frame _ hlen hgiven hforward hlength hfield => ?_
    · simp [← Option.some.inj h]
    · have hpayload := hforward.payloadLen
      have hvalue : beNat [0, 0x07] = 7 := rfl
      have hnil : bytes.length = 0 := by rw [hgiven [] rfl, List.length_nil]
      rw [show 18 + ([0, 0x07] : List Byte).length = 20 from rfl] at hfield
      omega
  have htype : ∀ etherType ∈ ([[0x08, 0x00], [0x88, 0xb5]] : List (List Byte)),
      Adds (Probe.Correct marker) 65535 1
        (add marker { sender, allowed := false, transform := replaceAt 12 etherType }) := by
    intro type ht
    have htypes : ∀ type ∈ ([[0x08, 0x00], [0x88, 0xb5]] : List (List Byte)),
        type.length = 2 ∧ beNat type ≠ 0x86dd := forall_mem_of_all (by decide)
    obtain ⟨hlen, hne⟩ := htypes type ht
    refine replaced_adds hm sender (by decide) (by simp) (by omega)
      fun bytes frame _ _ _ hforward _ hfield => hne ?_
    rw [hlen] at hfield
    exact hfield.symm.trans hforward.etherType
  have harp : Adds (Probe.Correct marker) 65535 1
      (add marker { sender, allowed := false, transform := arp sender }) := by
    refine malformed_adds hm sender (by decide) (by simp) fun bytes frame _ hlen _ _ _ => ?_
    have hs : (slice frame 6 12).length = 6 := slice_length (by omega)
    refine ⟨by rw [arp, ljust_length]; omega, fun hforward => ?_⟩
    have harpType := hforward.etherType
    have hbroadcast : List.replicate 6 (0xff : Byte) = beBytes 6 0xffffffffffff := by decide
    have htypeBytes : ([0x08, 0x06] : List Byte) = beBytes 2 0x0806 := by decide
    rw [etherType, arp, ljust, eq_beBytes hs, hbroadcast, htypeBytes, fieldAt] at harpType
    simp at harpType
  unfold malformedProbes
  refine Adds.of_eq (Adds.seq (Adds.forM hversion) (Adds.seq hlong (Adds.seq (Adds.forM hshort)
    (Adds.seq hcut (Adds.seq hempty (Adds.seq (Adds.forM htype) harp)))))) ?_
  decide

theorem senderProbes_adds :
    Adds (Probe.Correct marker) 65535 76 (senderProbes marker sender) := by
  unfold senderProbes
  refine Adds.of_eq (Adds.seq (pairProbes_adds hm sender) (Adds.seq (lpmProbes_adds hm sender)
    (Adds.seq (boundaryProbes_adds hm sender) (Adds.seq (sizeProbes_adds hm sender)
    (Adds.seq (hopProbes_adds hm sender) (Adds.seq (nextHeaderProbes_adds hm sender)
    (Adds.seq (chainProbes_adds hm sender) (Adds.seq (expiredProbes_adds hm sender)
    (Adds.seq (unroutedProbes_adds hm sender) (malformedProbes_adds hm sender)))))))))) ?_
  decide

omit sender in
/-- The probes are built, and the router treats each of them as expected. -/
theorem makeProbes_total :
    ∃ probes, makeProbes marker = .ok probes ∧ probes.length = 228 ∧
      ∀ item ∈ probes, item.Correct marker := by
  have hall : Adds (Probe.Correct marker) 65535 228 (hosts.forM (senderProbes marker)) :=
    Adds.of_eq (Adds.forM fun sender _ => senderProbes_adds hm sender) (by decide)
  obtain ⟨probes, hrun, hcorrect, hcount⟩ := hall.build (by decide)
  exact ⟨probes, by rw [makeProbes, hrun]; rfl, hcount, hcorrect⟩

end

/-! The capture and the comparison. -/

def wiring : Wiring Host := hosts.map fun host => (host, host.port)

def receiveFrames (marker : List Byte) (messages : List Message) : Py (List (List Byte)) :=
  receivePlain hasMarker 4 "capture needs four MAC bytes and a positive duration" marker messages

/-- The frames a host is to get. -/
def expectedFrames (probes : List Probe) (host : Host) : Py (List (List Byte)) :=
  (probes.filter fun item => item.allowed = true ∧ item.receiver = some host).mapM
    fun item => expectedFrame item.frame host

def hostName : Host → String
  | .h1 => "h1"
  | .h2 => "h2"
  | .h3 => "h3"

def checkDelivery (probes : List Probe) (received : Received Host) : Py Unit :=
  checkHosts (wiring.map Prod.fst) "capture replies must include all three hosts" hostName
    (expectedFrames probes) received

/-- `run_probes`, for the messages that the hosts' sockets bring. -/
def runTest (marker : List Byte) (probes : List Probe) (messages : Host → List Message) : Py Unit :=
  runProbes (wiring.map Prod.fst) (framesFrom Probe.sender Probe.frame probes)
    (fun host => receiveFrames marker (messages host)) (checkDelivery probes)

/-- The frames of one probe that a host is to get. -/
def wantedAt (host : Host) (item : Probe) : List (List Byte) :=
  if item.allowed = true ∧ item.receiver = some host then
    (expectedFrame item.frame host).toOption.toList else []

section
variable {marker : List Byte} (t : Table.Installed lpmEntries) (qdepth : Port → BitVec 19)

/-- The marker of a forwarded frame is the one in its destination address. -/
theorem forward_marker (port : Port) (frame : List Byte) :
    ∀ copy ∈ (router t.table).forward qdepth port frame, slice copy.2 6 10 = slice frame 0 4 := by
  intro copy hcopy
  obtain ⟨hsent, hout⟩ := forward_eq_expected t qdepth port frame
  obtain ⟨hforward, hroute⟩ := hsent.mp (List.ne_nil_of_mem hcopy)
  obtain ⟨host, hhost⟩ := Option.ne_none_iff_exists'.mp hroute
  obtain ⟨out, hexpected, heq, -⟩ := hout host hforward hhost
  rw [heq, List.mem_singleton] at hcopy
  rw [expectedFrame_ok hforward.complete hforward.hopLimit] at hexpected
  have hl := hforward.complete
  have hmac : (hostMacs host).length = 6 - 0 := by cases host <;> rfl
  have hfirst := setSlice_length (Nat.zero_le 6) (show 6 ≤ frame.length by omega) hmac
  have hs : (slice frame 0 6).length = 12 - 6 := slice_length (by omega)
  have hsecond : (setSlice (setSlice frame 0 6 (hostMacs host)) 6 12 (slice frame 0 6)).length =
      frame.length := by rw [setSlice_length (by omega) (by omega) hs, hfirst]
  have hlast : (beBytes 1 (fieldAt frame 21 22 - 1)).length = 22 - 21 := beBytes_length _ _
  rw [hcopy, ← Except.ok.inj hexpected, slice_setSlice (by omega) (by omega) hlast (by omega)]
  have hsub : ∀ bs : List Byte, slice bs 6 10 = slice (slice bs 6 12) 0 4 := fun bs =>
    (@slice_slice bs 6 12 0 4 (by decide)).symm
  rw [hsub, slice_setSlice_self (by omega) hs, @slice_slice frame 0 6 0 4 (by decide)]

theorem port_inj {host host' : Host} : host.port = host'.port ↔ host = host' := by
  cases host <;> cases host' <;> decide

/-- What is seen of the one copy of a probe. -/
theorem Probe.Correct.seen {item : Probe} (h : item.Correct marker) (port : Port) (host : Host) :
    seenAt (hasMarker marker) host.port ((router t.table).forward qdepth port item.frame) =
      wantedAt host item := by
  obtain ⟨hsent, hout⟩ := forward_eq_expected t qdepth port item.frame
  have hmarker := forward_marker t qdepth port item.frame
  cases ha : item.allowed with
  | false =>
    have hnil : (router t.table).forward qdepth port item.frame = [] := by
      by_contra hne
      exact h.refused ha (hsent.mp hne)
    rw [hnil, wantedAt, if_neg (by simp [ha])]
    rfl
  | true =>
    obtain ⟨hforward, hmarked, receiver, hr, hhost⟩ := h.forwarded ha
    obtain ⟨out, hexpected, heq, -⟩ := hout receiver hforward hhost
    have hkeep : hasMarker marker out = true :=
      decide_eq_true
        ((hmarker (receiver.port, out) (heq ▸ List.mem_singleton_self _)).trans hmarked)
    rw [heq, wantedAt, hr]
    by_cases he : receiver = host
    · subst he
      simp [seenAt, hkeep, ha, hexpected, Except.toOption]
    · have hport : ¬ receiver.port = host.port := fun hp => he (port_inj.mp hp)
      simp [seenAt, hport, he]

theorem expectedFrames_eq {probes : List Probe} (h : ∀ item ∈ probes, item.Correct marker)
    (host : Host) : expectedFrames probes host = .ok (probes.flatMap (wantedAt host)) := by
  induction probes with
  | nil => rfl
  | cons item probes ih =>
    have hrest := ih fun item hitem => h item (List.mem_cons_of_mem _ hitem)
    rw [expectedFrames] at hrest ⊢
    rw [List.filter_cons, List.flatMap_cons, wantedAt]
    by_cases hc : item.allowed = true ∧ item.receiver = some host
    · obtain ⟨hforward, -⟩ := (h item List.mem_cons_self).forwarded hc.1
      have hexpected := expectedFrame_ok hforward.complete hforward.hopLimit host
      rw [if_pos (decide_eq_true hc), if_pos hc, List.mapM_cons, hexpected, py_ok_bind, hrest,
        py_ok_bind]
      rfl
    · rw [if_neg (by simpa using hc), if_neg hc, hrest, List.nil_append]

theorem mem_wiring {link : Host × Port} : link ∈ wiring ↔ link = (link.1, link.1.port) := by
  obtain ⟨host, port⟩ := link
  constructor
  · intro h
    obtain ⟨host', -, heq⟩ := List.mem_map.mp h
    obtain ⟨rfl, rfl⟩ := Prod.mk.inj heq
    rfl
  · intro h
    obtain rfl : port = host.port := (Prod.mk.inj h).2
    exact List.mem_map_of_mem (by cases host <;> decide)

theorem agrees {item : Probe} (h : item.Correct marker) :
    Agrees (fun a => (router t.table).forward qdepth a.1 a.2) (hasMarker marker) wiring Probe.sender
      Probe.frame wantedAt item where
  complete := h.complete
  known := by cases item.sender <;> decide
  seen := by
    intro link _ _ out hout
    rw [mem_wiring.mp hout]
    exact h.seen t qdepth link.2 out.1

/-- The test of the IPv6 router passes exactly when each host has seen the marked frames
that the router has sent to it: the 228 probes are built for every marker, each of them is
labelled as the router treats it, and they may arrive in any order and among any frames that
are not for the marked gateway. -/
theorem lpmTest_exact (hm : ValidMarker marker) :
    ∃ probes, makeProbes marker = .ok probes ∧ probes.length = 228 ∧
      (∀ item ∈ probes, item.Correct marker) ∧ ∀ arrivals,
      Among (fun a => slice a.2 0 4 ≠ marker)
        (traffic wiring (framesFrom Probe.sender Probe.frame probes)) arrivals →
      ∀ observations : Observations Host fun message => .ok message.frame,
        runTest marker probes observations.messages = .ok () ↔
          SeenAsSent (hasMarker marker) wiring observations
            ((router t.table).run (fun _ => []) qdepth () arrivals).2 := by
  obtain ⟨probes, hprobes, hcount, hcorrect⟩ := makeProbes_total hm
  refine ⟨probes, hprobes, hcount, hcorrect, fun arrivals hp observations => ?_⟩
  have hquiet : ∀ a : Port × List Byte, slice a.2 0 4 ≠ marker →
      ∀ copy ∈ (router t.table).forward qdepth a.1 a.2, hasMarker marker copy.2 = false := by
    intro a ha copy hcopy
    refine decide_eq_false ?_
    rw [forward_marker t qdepth a.1 a.2 copy hcopy]
    exact ha
  rw [V1Switch.run_stateless]
  exact runProbes_exact (by decide) (fun item hitem => agrees t qdepth (hcorrect item hitem))
    (fun host _ => expectedFrames_eq hcorrect host)
    (fun host _ => receivePlain_ok hm.1 (observations host)) hp hquiet

end

/-- The probes arrive in reverse behind a frame that is not for the gateway, and the hosts see
what is sent to them. -/
theorem lpmTest_exact_marked : ∃ probes, makeProbes [2, 0, 0, 1] = .ok probes ∧
    probes.length = 228 ∧ ∃ observations : Observations Host fun message => .ok message.frame,
      runTest [2, 0, 0, 1] probes observations.messages = .ok () := by
  obtain ⟨probes, hprobes, hcount, -, htest⟩ :=
    @lpmTest_exact [2, 0, 0, 1] ⟨lpmEntries, .refl _⟩ (fun _ => 0) ⟨rfl, rfl⟩
  let arrivals : List (Port × List Byte) := (2, List.replicate 60 0xff) ::
    (traffic wiring (framesFrom Probe.sender Probe.frame probes)).reverse
  let observations : Observations Host fun message => .ok message.frame := fun host =>
    observed (seenAt (hasMarker [2, 0, 0, 1]) host.port
      ((router lpmEntries).run (fun _ => []) (fun _ => 0) () arrivals).2)
  have hquiet : slice (List.replicate 60 (0xff : Byte)) 0 4 ≠ [2, 0, 0, 1] := by decide
  exact ⟨probes, hprobes, hcount, observations,
    (htest arrivals (among_reverse hquiet _) observations).mpr
      (seenAsSent_observed (by decide) _ _)⟩

end P4Cases.Ipv6Lpm
