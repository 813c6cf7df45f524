import P4Cases.Telemetry.Frames

/-! The network against the check its end-to-end test makes of every delivered frame. -/
namespace P4Cases.Telemetry
open Wire P4 Routing

/-- What the test reads out of a packet. -/
def Datagram.parsed (p : Datagram) : ParsedFrame where
  ihl := 4 * p.ip.ihl.toNat
  total := p.ip.totalLen.toNat
  options := p.area.bytes
  traces := p.area.traces
  payload := p.payload
  ttl := p.ip.ttl.toNat

section
variable {p q : Datagram}

theorem Datagram.bytes_plain (p : Datagram) : p.bytes =
    Header.encode p.eth ++ (Header.encode p.ip.plain ++ (p.area.bytes ++ p.payload)) := by
  rw [Datagram.bytes, Ipv4.encode_plain]

theorem Datagram.cut (p : Datagram) : Cut p.bytes p.eth p.ip p.area.bytes p.payload :=
  ⟨rfl, p.lengths.five_le_ihl, p.options⟩

/-- Packets without padding parse, and into what the switch parsed. -/
theorem parseFrame_bytes (hp : p.Exact) : parseFrame p.bytes = .ok p.parsed := by
  have hlen := p.bytes_length
  have hc := p.cut
  have hsum : checksum (Header.encode p.ip ++ p.area.bytes) = 0 :=
    (sum_zero_iff p.lengths.isVersion4 p.area).mpr (Or.inl p.checksum)
  have hexact : p.bytes.length = 14 + p.ip.totalLen.toNat := by
    unfold Datagram.Exact at hp
    omega
  rw [parseFrame_ok]
  refine ⟨hc.headerOk_iff.mpr ⟨p.isIpv4, p.accepted.lengths, hexact, hsum⟩, p.area.traces, ?_, ?_⟩
  · rw [hc.optionsArea_eq]
    exact parseTraces_bytes p.ok
  · rw [hc.headerLen_eq, hc.totalLen_eq, hc.optionsArea_eq, hc.ttl_eq, ← hc.headerLen_eq,
      hc.payload_eq, hc.headerLen_eq]
    rfl

theorem expectedTraceCount_bytes (hp : p.Exact) (path : List (ℕ × ℕ)) :
    expectedTraceCount p.bytes path = .ok (p.area.traces.map fun traces =>
      min maxTraces (min (traces.length + path.length)
        (traces.length + (65535 - p.ip.totalLen.toNat) / 4))) := by
  rw [expectedTraceCount, parseFrame_bytes hp]
  rfl

/-! The header the test expects. -/

theorem setItem_ok {data : List Byte} {i n : ℕ} (hn : n < 256) (hi : i < data.length) :
    setItem data i n = .ok (setSlice data i (i + 1) (beBytes 1 n)) := by
  unfold setItem
  rw [raiseIf_bind_ok, raiseIf_bind_ok]
  refine ⟨by omega, by omega, ?_⟩
  rw [Int.toNat_natCast]
  rfl

theorem packWord_toNat (w : BitVec 16) : packWord w.toNat = .ok (beBytes 2 w.toNat) := if_pos w.isLt

section
variable (h : P4Cases.Ipv4) (rest : List Byte)

theorem setSlice_ihl (ihl : BitVec 4) :
    setSlice (Header.encode h ++ rest) 0 1 (beBytes 1 (64 + ihl.toNat)) =
      Header.encode { h with version := 4, ihl := ihl } ++ rest := by
  simp [Ipv4.encode_eq]

theorem setSlice_totalLen (totalLen : BitVec 16) :
    setSlice (Header.encode h ++ rest) 2 4 (beBytes 2 totalLen.toNat) =
      Header.encode { h with totalLen := totalLen } ++ rest := by
  simp [Ipv4.encode_eq]

theorem setSlice_ttl (ttl : BitVec 8) :
    setSlice (Header.encode h ++ rest) 8 9 (beBytes 1 ttl.toNat) =
      Header.encode { h with ttl := ttl } ++ rest := by
  simp [Ipv4.encode_eq]

theorem setSlice_hdrChecksum (c : BitVec 16) :
    setSlice (Header.encode h ++ rest) 10 12 (beBytes 2 c.toNat) =
      Header.encode { h with hdrChecksum := c } ++ rest := by
  simp [Ipv4.encode_eq]

theorem byteAt_ttl : byteAt (Header.encode h ++ rest) 8 = .ok h.ttl.toNat := by
  rw [byteAt_eq (by simp; omega)]
  simp [fieldAt, Ipv4.encode_eq]

end

/-- The header rebuilt from the sent one, with new lengths and a lower TTL. -/
theorem forwardedHeader_plain {sent opts payload : List Byte} {hops : ℕ} {h : P4Cases.Ipv4}
    {ihl : BitVec 4} {totalLen : BitVec 16} {ttl : BitVec 8}
    (hs : slice sent 14 34 = Header.encode h) (hi : 5 ≤ ihl.toNat)
    (ho : opts.length = 4 * (ihl.toNat - 5))
    (hl : 20 + opts.length + payload.length = totalLen.toNat)
    (ht : hops ≤ h.ttl.toNat) (httl : ttl.toNat = h.ttl.toNat - hops) :
    forwardedHeader sent opts payload hops = .ok (Header.encode { h with
      version := 4, ihl := ihl, totalLen := totalLen, ttl := ttl
      hdrChecksum := ipv4Checksum { h with
        version := 4, ihl := ihl, totalLen := totalLen, ttl := ttl } opts } ++ opts) := by
  have hlt := h.ttl.isLt
  have hib := ihl.isLt
  have hfirst : ((0x45 : ℤ) + (opts.length : ℤ) / 4) = (64 + ihl.toNat : ℕ) := by
    omega
  have hdec : ((h.ttl.toNat : ℤ) - (hops : ℤ)) = (ttl.toNat : ℕ) := by
    omega
  have hz : ([0, 0] : List Byte) = beBytes 2 (0 : BitVec 16).toNat := by decide
  have hc := ipv4Checksum_eq { h with
    version := 4, ihl := ihl, totalLen := totalLen, ttl := ttl } opts
  unfold forwardedHeader
  dsimp only
  rw [hs, hfirst, setItem_ok (by omega) (by simp), py_ok_bind, setSlice_ihl, hl, packWord_toNat,
    py_ok_bind, setSlice_totalLen, byteAt_ttl, py_ok_bind]
  dsimp only
  rw [hdec, setItem_ok (by omega) (by simp; omega), py_ok_bind, setSlice_ttl, hz,
    setSlice_hdrChecksum]
  dsimp only at hc ⊢
  rw [checksum_eq, ← hc, packWord_toNat, py_ok_bind, setSlice_hdrChecksum]
  rfl

theorem plain_rebuilt {a b : Ipv4} {area : Area} {ihl : BitVec 4} {totalLen : BitVec 16}
    {ttl : BitVec 8} {c : BitVec 16}
    (h : b = { a with ihl := ihl, totalLen := totalLen, ttl := ttl, hdrChecksum := c })
    (hv : a.version = 4) (hc : b.hdrChecksum = headerChecksum b area) :
    { a.plain with
      version := 4, ihl := b.ihl, totalLen := b.totalLen, ttl := b.ttl
      hdrChecksum := ipv4Checksum { a.plain with
        version := 4, ihl := b.ihl, totalLen := b.totalLen, ttl := b.ttl } area.bytes } =
      b.plain := by
  subst h
  rw [← hv]
  exact congrArg (fun c => ({ a.plain with
    ihl := ihl, totalLen := totalLen, ttl := ttl, hdrChecksum := c } : P4Cases.Ipv4)) hc.symm

/-- It is the received header when that one differs in the lengths, the TTL and the
checksum only. -/
theorem forwardedHeader_eq {hops : ℕ} {ihl : BitVec 4} {totalLen : BitVec 16} {c : BitVec 16}
    (hpay : q.payload = p.payload) (hq : q.Exact)
    (hip : q.ip = { p.ip with
      ihl := ihl, totalLen := totalLen, ttl := p.ip.ttl - BitVec.ofNat 8 hops, hdrChecksum := c })
    (ht : hops ≤ p.ip.ttl.toNat) :
    forwardedHeader p.bytes q.area.bytes p.payload hops =
      .ok (Header.encode q.ip ++ q.area.bytes) := by
  have hlt := p.ip.ttl.isLt
  have hslice : slice p.bytes 14 34 = Header.encode p.ip.plain := by
    have hl : (Header.encode p.ip.plain).length = 20 := Header.encode_length p.ip.plain
    rw [Datagram.bytes_plain, slice_append_right _ _ (by simp), slice_append_left _ (by simp),
      Header.encode_length, Ethernet.size, slice, Nat.sub_self, List.drop_zero, Nat.sub_zero]
    exact List.take_of_length_le hl.le
  have htotal : 20 + q.area.bytes.length + p.payload.length = q.ip.totalLen.toNat := by
    have hi := q.lengths.five_le_ihl
    have ho := q.options
    unfold Datagram.Exact at hq
    rw [hpay] at hq
    omega
  have httl : q.ip.ttl.toNat = p.ip.plain.ttl.toNat - hops := by
    have h : q.ip.ttl = p.ip.ttl - BitVec.ofNat 8 hops := congrArg Ipv4.ttl hip
    change _ = p.ip.ttl.toNat - hops
    rw [h]
    bv_omega
  rw [forwardedHeader_plain hslice q.lengths.five_le_ihl q.options htotal ht httl,
    plain_rebuilt hip p.lengths.isVersion4 q.checksum, Ipv4.encode_plain q.ip]

/-! The path. -/

/-- The test's name of a step. -/
def Step.hop (step : Step) : ℕ × ℕ := (step.s.number, step.out.toNat)

/-- A step the test knows the next address of. -/
def Step.Listed (step : Step) : Prop :=
  nextHops.lookup step.hop = some (beBytes 6 step.mac.toNat) ∧ step.out.toNat < 64

instance (step : Step) : Decidable step.Listed := inferInstanceAs (Decidable (_ ∧ _))

/-- The tables lay out the paths the test lists. -/
theorem route_paths {a b : Host} {path : List (ℕ × ℕ)} (h : paths a b = some path) :
    ∃ steps : List Step, route (hostIps b) 3 (gateway a).1 = some (steps, b) ∧
      steps.map Step.hop = path ∧ (∀ step ∈ steps, step.Listed) ∧ steps ≠ [] := by
  have hok : ∀ {path : List (ℕ × ℕ)} {r : Option (List Step × Host)} {steps : List Step},
      r = some (steps, b) → steps.map Step.hop = path → (∀ step ∈ steps, step.Listed) →
      steps ≠ [] → ∃ steps : List Step, r = some (steps, b) ∧ steps.map Step.hop = path ∧
        (∀ step ∈ steps, step.Listed) ∧ steps ≠ [] :=
    fun hr hm hs hn => ⟨_, hr, hm, hs, hn⟩
  cases a <;> cases b <;> cases h <;> exact hok rfl rfl (by decide) (by decide)

theorem hopsOf_length (depths : ℕ → Port → BitVec 19) (steps : List Step) :
    (hopsOf depths steps).length = steps.length := by
  induction steps generalizing depths with
  | nil => rfl
  | cons step steps ih => exact congrArg (· + 1) (ih _)

theorem hopsOf_concat (depths : ℕ → Port → BitVec 19) (steps : List Step) (last : Step) :
    ∃ r, hopsOf depths (steps ++ [last]) = hopsOf depths steps ++ [(last.mac, r)] := by
  induction steps generalizing depths with
  | nil => exact ⟨_, rfl⟩
  | cons step steps ih =>
    obtain ⟨r, hr⟩ := ih fun k => depths (k + 1)
    exact ⟨r, congrArg (_ :: ·) hr⟩

theorem nextHop_last {last : Step} (h : last.Listed) (steps : List Step) :
    nextHop ((steps ++ [last]).map Step.hop) 1 = .ok (beBytes 6 last.mac.toNat) := by
  simp [nextHop, h.1]

/-- The address in front of the last hop. -/
theorem sourceMac_eq {steps : List Step} (hl : ∀ step ∈ steps, step.Listed) (last : Step)
    (depths : ℕ → Port → BitVec 19) :
    sourceMac p.bytes ((steps ++ [last]).map Step.hop) =
      .ok (beBytes 6 (p.through (hopsOf depths steps)).eth.dstAddr.toNat) := by
  rcases List.eq_nil_or_concat steps with rfl | ⟨init, prev, rfl⟩
  · have hs : slice p.bytes 0 6 = beBytes 6 p.eth.dstAddr.toNat := by
      rw [Datagram.bytes, Ethernet.encode_eq]
      simp
    rw [sourceMac, if_neg (by simp), hs]
    rfl
  · obtain ⟨r, hr⟩ := hopsOf_concat depths init prev
    rw [List.concat_eq_append] at hl ⊢
    have hprev := (hl prev (by simp)).1
    rw [sourceMac, if_pos (by simp), hr, Datagram.through_concat_eth]
    simp [nextHop, hprev]

theorem forwardedFrame_eq (hp : p.Exact) {steps : List Step} (hne : steps ≠ [])
    (hl : ∀ step ∈ steps, step.Listed) (ht : steps.length ≤ p.ip.ttl.toNat)
    (depths : ℕ → Port → BitVec 19) :
    forwardedFrame p.bytes (p.through (hopsOf depths steps)).area.bytes p.payload
        (steps.map Step.hop) =
      .ok (p.through (hopsOf depths steps)).bytes := by
  have hlen : (steps.map Step.hop).length = (hopsOf depths steps).length := by
    rw [List.length_map, hopsOf_length]
  have hpay : (p.through (hopsOf depths steps)).payload = p.payload := Datagram.through_payload
  have hheader := forwardedHeader_eq hpay (Datagram.exact_through hp) Datagram.through_ip
    (by rwa [hopsOf_length])
  unfold forwardedFrame
  rw [hlen, hheader, py_ok_bind]
  obtain ⟨init, last, rfl⟩ : ∃ init last, steps = init ++ [last] := by
    rcases List.eq_nil_or_concat steps with rfl | ⟨init, last, rfl⟩
    · exact absurd rfl hne
    · exact ⟨init, last, List.concat_eq_append⟩
  have hsource := sourceMac_eq (p := p) (fun step hs => hl step (List.mem_append_left _ hs)) last
    depths
  have htarget := nextHop_last (hl last (by simp)) init
  obtain ⟨r, hr⟩ := hopsOf_concat depths init last
  have heth : (p.through (hopsOf depths (init ++ [last]))).eth =
      { dstAddr := last.mac, srcAddr := (p.through (hopsOf depths init)).eth.dstAddr
        etherType := typeIpv4 } := by
    rw [hr]
    exact Datagram.through_concat_eth
  have htype : beBytes 2 typeIpv4.toNat = [0x08, 0x00] := by decide
  rw [hsource, py_ok_bind, htarget, py_ok_bind, Datagram.bytes, heth, Ethernet.encode_eq, htype,
    Datagram.through_payload]
  simp only [List.append_assoc]
  rfl

/-! The records. -/

theorem IntHeader.trace_injective : Function.Injective IntHeader.trace := by
  intro r r' h
  obtain ⟨a, b, c⟩ := r
  obtain ⟨a', b', c'⟩ := r'
  have h₁ := BitVec.eq_of_toNat_eq (Int.ofNat.inj (congrArg Prod.fst h))
  have h₂ := BitVec.eq_of_toNat_eq (Int.ofNat.inj (congrArg (fun t => t.2.1) h))
  have h₃ := BitVec.eq_of_toNat_eq (Int.ofNat.inj (congrArg (fun t => t.2.2) h))
  cases h₁
  cases h₂
  cases h₃
  rfl

/-- Switch and port of a record. -/
def IntHeader.hop (r : IntHeader) : ℕ × ℕ := (r.switchId.toNat, r.outputPort.toNat)

/-- The test compares switches and ports as integers. -/
theorem map_hop_eq {records : List IntHeader} {hops : List (ℕ × ℕ)} :
    ((records.map IntHeader.trace).map fun trace => (trace.1, trace.2.2)) =
        hops.map (fun hop => ((hop.1 : ℤ), (hop.2 : ℤ))) ↔
      records.map IntHeader.hop = hops := by
  have hinj : Function.Injective fun hop : ℕ × ℕ => ((hop.1 : ℤ), (hop.2 : ℤ)) := by
    intro a b h
    obtain ⟨h₁, h₂⟩ := Prod.ext_iff.mp h
    exact Prod.ext (Int.ofNat.inj h₁) (Int.ofNat.inj h₂)
  have hmap : ((records.map IntHeader.trace).map fun trace => (trace.1, trace.2.2)) =
      (records.map IntHeader.hop).map fun hop => ((hop.1 : ℤ), (hop.2 : ℤ)) := by
    rw [List.map_map, List.map_map]
    rfl
  rw [hmap, (List.map_injective_iff.mpr hinj).eq_iff]

theorem record_hop {step : Step} (h : step.Listed) (depth : BitVec 19) :
    (record (BitVec.ofNat 13 step.s.number) depth step.out).hop = step.hop := by
  have hn : (BitVec.ofNat 13 step.s.number).toNat = step.s.number := by
    cases step.s <;> rfl
  have hp : (step.out.setWidth 6).toNat = step.out.toNat := by
    rw [BitVec.toNat_setWidth, Nat.mod_eq_of_lt h.2]
  exact Prod.ext hn hp

theorem hopsOf_hops {steps : List Step} (hl : ∀ step ∈ steps, step.Listed)
    (depths : ℕ → Port → BitVec 19) :
    ((hopsOf depths steps).map Prod.snd).map IntHeader.hop =
      steps.map Step.hop := by
  induction steps generalizing depths with
  | nil => rfl
  | cons step steps ih =>
    rw [hopsOf, List.map_cons, List.map_cons, List.map_cons, record_hop (hl step (by simp)),
      ih fun s hs => hl s (List.mem_cons_of_mem _ hs)]

/-- Any records that name the first steps of a path are sampled by some depths. -/
theorem exists_depths {steps : List Step} (hl : ∀ step ∈ steps, step.Listed)
    {fresh : List IntHeader}
    (hf : fresh.map IntHeader.hop = (steps.map Step.hop).take fresh.length) :
    ∃ depths, ((hopsOf depths steps).map Prod.snd).take fresh.length = fresh := by
  induction fresh generalizing steps with
  | nil => exact ⟨fun _ _ => 0, rfl⟩
  | cons r fresh ih =>
    cases steps with
    | nil => cases hf
    | cons step steps =>
      rw [List.map_cons, List.length_cons, List.map_cons, List.take_succ_cons] at hf
      obtain ⟨hr, hrest⟩ := List.cons.inj hf
      obtain ⟨depths, hd⟩ := ih (fun s hs => hl s (List.mem_cons_of_mem _ hs)) hrest
      refine ⟨fun k port => if k = 0 then r.queueDepth.setWidth 19 else depths (k - 1) port, ?_⟩
      have hs := record_hop (hl step (by simp)) (r.queueDepth.setWidth 19)
      have hrec : record (BitVec.ofNat 13 step.s.number) (r.queueDepth.setWidth 19) step.out =
          r := by
        apply IntHeader.trace_injective
        have hdepth : ((r.queueDepth.setWidth 19).setWidth 13).toNat = r.queueDepth.toNat := by
          have hlt := r.queueDepth.isLt
          rw [BitVec.toNat_setWidth, BitVec.toNat_setWidth]
          omega
        obtain ⟨hswitch, hport⟩ := Prod.ext_iff.mp (hs.trans hr.symm)
        exact Prod.ext (congrArg Nat.cast hswitch)
          (Prod.ext (congrArg Nat.cast hdepth) (congrArg Nat.cast hport))
      rw [hopsOf, List.map_cons, List.length_cons, List.take_succ_cons]
      simp only [Nat.add_eq_zero_iff, one_ne_zero, and_false, if_false, if_true,
        Nat.add_sub_cancel]
      exact congrArg₂ List.cons hrec hd

theorem pushAll_trace {copyFlag : BitVec 1} {records : IntStack} {rs : List IntHeader}
    (h : rs.length + records.valid.length ≤ maxIntHeaders) :
    ∃ stack : IntStack, (Area.trace copyFlag records).pushAll rs = .trace copyFlag stack ∧
      stack.valid = rs.reverse ++ records.valid := by
  induction rs generalizing records with
  | nil => exact ⟨records, rfl, rfl⟩
  | cons r rs ih =>
    rw [List.length_cons] at h
    have hv := HeaderStack.pushFront_valid r (show records.valid.length < maxIntHeaders by omega)
    have hfit : rs.length + (records.pushFront r).valid.length ≤ maxIntHeaders := by
      rw [hv, List.length_cons]
      omega
    obtain ⟨stack, hs, hval⟩ := ih hfit
    refine ⟨stack, hs, ?_⟩
    rw [hval, hv, List.reverse_cons, List.append_assoc]
    rfl

theorem through_traces {copyFlag : BitVec 1} {records : IntStack}
    (ha : p.area = .trace copyFlag records) (hops : List (BitVec 48 × IntHeader)) :
    ∃ stack : IntStack, (p.through hops).area = .trace copyFlag stack ∧
      stack.valid = ((hops.map Prod.snd).take p.headroom).reverse ++ records.valid := by
  have hle := records.length_le
  have hroom : p.headroom ≤ maxIntHeaders - records.valid.length := by
    unfold Datagram.headroom
    rw [ha]
    exact Nat.min_le_left _ _
  rw [Datagram.through_area, ha]
  apply pushAll_trace
  rw [List.length_take]
  omega

theorem exists_trace {area : Area} {traces : List Trace} (h : area.traces = some traces) :
    ∃ copyFlag records, area = .trace copyFlag records := by
  cases area with
  | plain => cases h
  | options data => cases h
  | trace copyFlag records => exact ⟨copyFlag, records, rfl⟩

theorem through_plain (ha : p.area.traces = none) (hops : List (BitVec 48 × IntHeader)) :
    (p.through hops).area = p.area := by
  have hroom : p.headroom = 0 := by
    unfold Datagram.headroom
    cases h : p.area with
    | plain => rfl
    | options data => rfl
    | trace copyFlag records =>
      rw [h] at ha
      cases ha
  rw [Datagram.through_area, hroom, List.take_zero]
  rfl

/-- The records the test expects are those there is room for. -/
theorem expectedTraceCount_trace (hp : p.Exact) {copyFlag : BitVec 1} {records : IntStack}
    (ha : p.area = .trace copyFlag records) (path : List (ℕ × ℕ)) :
    expectedTraceCount p.bytes path =
      .ok (some (records.valid.length + min path.length p.headroom)) := by
  have hle := records.length_le
  have hcount : min maxTraces (min (records.valid.length + path.length)
      (records.valid.length + (65535 - p.ip.totalLen.toNat) / 4)) =
      records.valid.length + min path.length p.headroom := by
    unfold Datagram.headroom
    rw [ha]
    unfold maxIntHeaders at hle
    unfold maxTraces maxIntHeaders
    dsimp only
    omega
  rw [expectedTraceCount_bytes hp, ha, ← hcount]
  unfold Area.traces
  rw [Option.map_some, List.length_map]

theorem byteAt_copied {copyFlag : BitVec 1} {records : IntStack} :
    ∃ first, byteAt (Area.trace copyFlag records).bytes 0 = .ok first ∧
      copyBit (first &&& 128 ≠ 0) = copyFlag := by
  have hlen := Area.trace_length copyFlag records
  have hfirst : fieldAt (Area.trace copyFlag records).bytes 0 1 = copyFlag.toNat * 128 + 31 := by
    have hc := copyFlag.isLt
    rw [Area.trace_bytes]
    simp [fieldAt, beNat_beBytes]
    omega
  refine ⟨_, byteAt_eq (by omega), ?_⟩
  rw [hfirst]
  rcases BitVec.eq_zero_or_eq_one copyFlag with rfl | rfl <;> decide

/-- The check of the options accepts exactly the records of the path, newest first, on
top of the old ones. -/
theorem forwardedOptions_trace {copyFlag : BitVec 1} {records : IntStack}
    (ha : p.area = .trace copyFlag records) {actual : ParsedFrame} {path : List (ℕ × ℕ)}
    {k : ℕ} {newOptions : List Byte} :
    forwardedOptions p.parsed actual (some (records.valid.length + k)) path = .ok newOptions ↔
      ∃ (fresh : List IntHeader) (stack : IntStack), fresh.length = k ∧
        fresh.map IntHeader.hop = path.take k ∧
        stack.valid = fresh.reverse ++ records.valid ∧
        actual.traces = some (stack.valid.map IntHeader.trace) ∧
        newOptions = (Area.trace copyFlag stack).bytes := by
  obtain ⟨first, hbyte, hcopied⟩ := @byteAt_copied copyFlag records
  have htraces : p.parsed.traces = some (records.valid.map IntHeader.trace) := by
    change p.area.traces = _
    rw [ha]
    rfl
  have hopts : p.parsed.options = (Area.trace copyFlag records).bytes := congrArg Area.bytes ha
  unfold forwardedOptions
  rw [htraces]
  dsimp only
  rw [raiseIf_bind_ok, raiseIf_bind_ok, raiseIf_bind_ok, hopts, hbyte, py_ok_bind, intOption_ok,
    hcopied, List.length_map, Nat.add_sub_cancel_left]
  constructor
  · intro h
    obtain ⟨hfound, hnew, hold, stack, hstack, rfl⟩ := h
    obtain ⟨found, hact⟩ := Option.ne_none_iff_exists'.mp fun h => hfound (Or.inl h)
    rw [hact, Option.getD_some] at hfound hnew hold hstack
    have hlen : found.length = records.valid.length + k := by
      by_contra h
      exact hfound (Or.inr h)
    have hdrop := not_not.mp hold
    have hall : stack.valid.map IntHeader.trace = found := by
      rw [hstack, ← hdrop, List.take_append_drop]
    have hold' : stack.valid.drop k = records.valid := by
      apply List.map_injective_iff.mpr IntHeader.trace_injective
      rw [List.map_drop, hall, hdrop]
    have hnew' : ((stack.valid.take k).map IntHeader.hop) = (path.take k).reverse := by
      rw [← hall, ← List.map_take] at hnew
      exact map_hop_eq.mp (not_not.mp hnew)
    refine ⟨(stack.valid.take k).reverse, stack, ?_, ?_, ?_, hact.trans (congrArg some hall.symm),
      rfl⟩
    · rw [List.length_reverse, List.length_take, ← List.length_map (f := IntHeader.trace), hall,
        hlen]
      omega
    · rw [List.map_reverse, hnew', List.reverse_reverse]
    · rw [List.reverse_reverse, ← hold', List.take_append_drop]
  · intro h
    obtain ⟨fresh, stack, rfl, hhop, hval, hactual, rfl⟩ := h
    have hfound : actual.traces.getD [] =
        fresh.reverse.map IntHeader.trace ++ records.valid.map IntHeader.trace := by
      rw [hactual, hval, List.map_append]
      rfl
    have hl : (fresh.reverse.map IntHeader.trace).length = fresh.length := by
      rw [List.length_map, List.length_reverse]
    rw [hfound, List.take_left' hl, List.drop_left' hl]
    refine ⟨?_, ?_, fun h => h rfl, stack, ?_, rfl⟩
    · rw [hactual, List.length_append, hl, List.length_map]
      simp
      omega
    · rw [not_not, ← hhop]
      exact map_hop_eq.mpr (List.map_reverse)
    · rw [hval, List.map_append]

theorem forwardedOptions_plain {actual : ParsedFrame} {path : List (ℕ × ℕ)}
    {newOptions : List Byte} :
    forwardedOptions p.parsed actual none path = .ok newOptions ↔
      actual.options = p.area.bytes ∧ newOptions = p.area.bytes := by
  unfold forwardedOptions
  dsimp only
  rw [raiseIf_bind_ok, not_not]
  refine and_congr_right fun _ => ?_
  exact ⟨fun h => (Except.ok.inj h).symm, fun h => congrArg Except.ok h.symm⟩

/-- What the option check returns is what some choice of depths leads to. -/
theorem forwardedOptions_sound (hp : p.Exact) {steps : List Step}
    (hl : ∀ step ∈ steps, step.Listed) {actual : ParsedFrame} {count : Option ℕ}
    {newOptions : List Byte}
    (hc : expectedTraceCount p.bytes (steps.map Step.hop) = .ok count)
    (h : forwardedOptions p.parsed actual count (steps.map Step.hop) = .ok newOptions) :
    ∃ depths, newOptions = (p.through (hopsOf depths steps)).area.bytes := by
  rcases ht : p.area.traces with _ | traces
  · rw [expectedTraceCount_bytes hp, ht] at hc
    cases hc
    refine ⟨fun _ _ => 0, ?_⟩
    rw [through_plain ht]
    exact (forwardedOptions_plain.mp h).2
  · obtain ⟨copyFlag, records, ha⟩ := exists_trace ht
    rw [expectedTraceCount_trace hp ha] at hc
    cases hc
    obtain ⟨fresh, stack, hk, hhop, hval, -, rfl⟩ := (forwardedOptions_trace ha).mp h
    rw [← hk] at hhop
    obtain ⟨depths, hd⟩ := exists_depths hl hhop
    obtain ⟨stack', hs, hv⟩ := through_traces ha (hopsOf depths steps)
    have htake : ((hopsOf depths steps).map Prod.snd).take p.headroom = fresh := by
      rw [← hd, List.take_eq_take_iff, hk, List.length_map, List.length_map, hopsOf_length]
      omega
    have hstack : stack' = stack := HeaderStack.ext (by rw [hv, hval, htake])
    exact ⟨depths, by rw [hs, hstack]⟩

theorem forwardedOptions_complete (hp : p.Exact) {steps : List Step}
    (hl : ∀ step ∈ steps, step.Listed) (depths : ℕ → Port → BitVec 19) {count : Option ℕ}
    (hc : expectedTraceCount p.bytes (steps.map Step.hop) = .ok count) :
    forwardedOptions p.parsed (p.through (hopsOf depths steps)).parsed count
        (steps.map Step.hop) =
      .ok (p.through (hopsOf depths steps)).area.bytes := by
  rcases ht : p.area.traces with _ | traces
  · rw [expectedTraceCount_bytes hp, ht] at hc
    cases hc
    have harea := through_plain ht (hopsOf depths steps)
    exact forwardedOptions_plain.mpr ⟨congrArg Area.bytes harea, congrArg Area.bytes harea⟩
  · obtain ⟨copyFlag, records, ha⟩ := exists_trace ht
    rw [expectedTraceCount_trace hp ha] at hc
    cases hc
    obtain ⟨stack, hs, hv⟩ := through_traces ha (hopsOf depths steps)
    refine (forwardedOptions_trace ha).mpr ⟨_, stack, ?_, ?_, hv, congrArg Area.traces hs,
      congrArg Area.bytes hs⟩
    · rw [List.length_take, List.length_map, hopsOf_length, List.length_map, Nat.min_comm]
    · rw [List.map_take, hopsOf_hops hl, List.take_eq_take_iff]
      omega

/-- The test accepts exactly what the hops can make of the packet. -/
theorem checkForwarded_iff (hp : p.Exact) {steps : List Step} (hne : steps ≠ [])
    (hl : ∀ step ∈ steps, step.Listed) (ht : steps.length ≤ p.ip.ttl.toNat)
    {received : List Byte} :
    checkForwarded p.bytes received (steps.map Step.hop) = .ok () ↔
      ∃ depths, received = (p.through (hopsOf depths steps)).bytes := by
  unfold checkForwarded
  rw [parseFrame_bytes hp, py_ok_bind, py_bind_ok]
  constructor
  · intro h
    obtain ⟨actual, -, h⟩ := h
    obtain ⟨count, hc, h⟩ := py_bind_ok.mp h
    obtain ⟨newOptions, ho, h⟩ := py_bind_ok.mp h
    obtain ⟨expected, he, h⟩ := py_bind_ok.mp h
    obtain ⟨depths, rfl⟩ := forwardedOptions_sound hp hl hc ho
    have hframe : p.parsed.payload = p.payload := rfl
    rw [hframe, forwardedFrame_eq hp hne hl ht depths] at he
    cases he
    exact ⟨depths, not_not.mp (raiseIf_ok.mp h)⟩
  · intro h
    obtain ⟨depths, rfl⟩ := h
    have hq : (p.through (hopsOf depths steps)).Exact := Datagram.exact_through hp
    have hcount := expectedTraceCount_bytes hp (steps.map Step.hop)
    refine ⟨_, parseFrame_bytes hq, py_bind_ok.mpr ⟨_, hcount, py_bind_ok.mpr
      ⟨_, forwardedOptions_complete hp hl depths hcount, py_bind_ok.mpr
        ⟨_, forwardedFrame_eq hp hne hl ht depths, ?_⟩⟩⟩⟩
    exact raiseIf_ok.mpr fun h => h rfl

/-- A forwarded packet holds as many records as the test expects. -/
theorem expectedTraceCount_through (hp : p.Exact) (hops : List (BitVec 48 × IntHeader))
    {path : List (ℕ × ℕ)} (hl : hops.length = path.length) :
    expectedTraceCount p.bytes path =
      .ok ((p.through hops).area.traces.map List.length) := by
  rcases ht : p.area.traces with _ | traces
  · rw [through_plain ht, expectedTraceCount_bytes hp, ht]
    rfl
  · obtain ⟨copyFlag, records, ha⟩ := exists_trace ht
    obtain ⟨stack, hs, hv⟩ := through_traces ha hops
    have hn : (stack.valid.map IntHeader.trace).length =
        records.valid.length + min path.length p.headroom := by
      rw [List.length_map, hv, List.length_append, List.length_reverse, List.length_take,
        List.length_map, hl]
      omega
    rw [expectedTraceCount_trace hp ha, hs, ← hn]
    rfl

/-- For every pair of hosts, a frame sent to the other one is delivered there once,
over the switches of the listed path, with the expected number of records, and the
test accepts it; and every frame the test accepts is delivered for some queue depths. -/
theorem delivered_iff_checked (unset : IntHeader) {a b : Host} {path : List (ℕ × ℕ)}
    {sent payload : List Byte} {hdr : Headers} {ip : Ipv4} (hpath : paths a b = some path)
    (ha : (configured unset (gateway a).1).Accepts (gateway a).2 sent hdr payload)
    (hip : hdr.ipv4 = some ip) (hlen : sent.length = 14 + ip.totalLen.toNat)
    (hdst : ip.dstAddr = hostIps b) (httl : path.length < ip.ttl.toNat) :
    (∀ (fuel : ℕ) (depths : ℕ → Port → BitVec 19), path.length ≤ fuel → ∃ received frame,
      (visited (send unset fuel depths a sent)).map SwitchId.number = path.map Prod.fst ∧
        deliveries (send unset fuel depths a sent) = [(b, received)] ∧
        parseFrame received = .ok frame ∧
        expectedTraceCount sent path = .ok (frame.traces.map List.length) ∧
        checkForwarded sent received path = .ok ()) ∧
    ∀ received, checkForwarded sent received path = .ok () →
      ∃ depths : ℕ → Port → BitVec 19, ∀ fuel, path.length ≤ fuel →
        deliveries (send unset fuel depths a sent) = [(b, received)] := by
  rw [configured_eq] at ha
  obtain ⟨p, rfl, rfl⟩ := exists_datagram ha (by rw [hip]; simp)
  have hp4 : (parsedHeaders p.eth p.ip p.area).ipv4 = some p.ip := by cases p.area <;> rfl
  obtain rfl : p.ip = ip := Option.some.inj (hp4.symm.trans hip)
  obtain ⟨steps, hroute, rfl, hl, hne⟩ := route_paths hpath
  rw [List.length_map] at httl
  rw [← hdst] at hroute
  have hp : p.Exact := by
    have hsize := p.bytes_length
    unfold Datagram.Exact
    omega
  have hjourney : ∀ (fuel : ℕ) (depths : ℕ → Port → BitVec 19), steps.length ≤ fuel →
      visited (send unset fuel depths a p.bytes) = steps.map Step.s ∧
        deliveries (send unset fuel depths a p.bytes) =
          [(b, (p.through (hopsOf depths steps)).bytes)] :=
    fun fuel depths hf => journey_route unset fuel depths (gateway a).2 hroute httl hf
  constructor
  · intro fuel depths hf
    rw [List.length_map] at hf
    obtain ⟨hv, hd⟩ := hjourney fuel depths hf
    have hq : (p.through (hopsOf depths steps)).Exact := Datagram.exact_through hp
    refine ⟨_, _, ?_, hd, parseFrame_bytes hq, ?_, ?_⟩
    · rw [hv, List.map_map, List.map_map]
      rfl
    · exact expectedTraceCount_through hp _ (by rw [hopsOf_length, List.length_map])
    · exact (checkForwarded_iff hp hne hl httl.le).mpr ⟨depths, rfl⟩
  · intro received hr
    obtain ⟨depths, rfl⟩ := (checkForwarded_iff hp hne hl httl.le).mp hr
    refine ⟨depths, ?_⟩
    intro fuel hf
    rw [List.length_map] at hf
    exact (hjourney fuel depths hf).2

/-- A packet for h4 with a telemetry option that holds no record yet. -/
def intProbe : Datagram where
  eth := { dstAddr := 0x00000a000304, srcAddr := 0x00000a000202, etherType := typeIpv4 }
  ip := Ipv4.checksummed
    { version := 4, ihl := 6, dscp := 10, ecn := 2, totalLen := 24, identification := 1
      flags := 0, fragOffset := 0, ttl := 64, protocol := 17, hdrChecksum := 0
      srcAddr := 0xc6120101, dstAddr := hostIps .h4 } (.trace 0 .empty)
  area := .trace 0 .empty
  payload := []
  isIpv4 := rfl
  lengths := ⟨rfl, by decide, Nat.le_refl 24, Nat.le_refl 38⟩
  options := Area.trace_length 0 .empty
  ok := trivial
  checksum := rfl

theorem delivered_iff_checked_intProbe : ∃ received frame,
    deliveries (send ⟨0, 0, 0⟩ 3 (fun _ _ => 7) .h2 intProbe.bytes) = [(.h4, received)] ∧
      parseFrame received = .ok frame ∧
      expectedTraceCount intProbe.bytes [(2, 2), (1, 3), (3, 2)] =
        .ok (frame.traces.map List.length) := by
  have ha : (configured ⟨0, 0, 0⟩ (gateway .h2).1).Accepts (gateway .h2).2 intProbe.bytes _ _ :=
    intProbe.accepts
  obtain ⟨received, frame, -, hd, hparse, hcount, -⟩ := (delivered_iff_checked ⟨0, 0, 0⟩
    (a := .h2) (b := .h4) rfl ha rfl intProbe.bytes_length rfl (by decide)).1 3 (fun _ _ => 7)
    (Nat.le_refl 3)
  exact ⟨received, frame, hd, hparse, hcount⟩

end
end P4Cases.Telemetry
