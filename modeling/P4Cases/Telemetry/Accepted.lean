import P4Cases.Telemetry.Switch

/-! The packets the telemetry parser accepts, and the headers it leaves. -/
namespace P4Cases.Telemetry
open Wire P4

@[simp] theorem Ipv4.size : Header.size Ipv4 = 20 := rfl
@[simp] theorem Ipv4Option.size : Header.size Ipv4Option = 2 := rfl
@[simp] theorem IntCount.size : Header.size IntCount = 2 := rfl
@[simp] theorem IntHeader.size : Header.size IntHeader = 4 := rfl

theorem Ipv4Option.encode_eq (h : Ipv4Option) :
    Header.encode h =
      beBytes 1 (h.copyFlag.toNat * 128 + h.optClass.toNat * 32 + h.option.toNat) ++
        beBytes 1 h.optionLength.toNat := by
  have hb : (h.copyFlag ++ h.optClass ++ h.option).toNat =
      h.copyFlag.toNat * 128 + h.optClass.toNat * 32 + h.option.toNat := by
    rw [append_toNat, append_toNat]
    ring
  change packBits (toBits h.copyFlag ++ (toBits h.optClass ++ (toBits h.option ++
    (toBits h.optionLength ++ [])))) = _
  rw [packBits_merge h.copyFlag, packBits_merge (h.copyFlag ++ h.optClass),
    packBits_toBits (h.copyFlag ++ h.optClass ++ h.option) _ (by rfl), hb]
  simp

theorem IntCount.encode_eq (h : IntCount) :
    Header.encode h = beBytes 2 h.numSwitches.toNat := by
  change packBits (toBits h.numSwitches ++ []) = _
  simp

theorem IntHeader.encode_eq (h : IntHeader) :
    Header.encode h =
      beBytes 4 (h.switchId.toNat * 2 ^ 19 + h.queueDepth.toNat * 2 ^ 6 + h.outputPort.toNat) := by
  have hb : (h.switchId ++ h.queueDepth ++ h.outputPort).toNat =
      h.switchId.toNat * 2 ^ 19 + h.queueDepth.toNat * 2 ^ 6 + h.outputPort.toNat := by
    rw [append_toNat, append_toNat]
    ring
  change packBits (toBits h.switchId ++ (toBits h.queueDepth ++ (toBits h.outputPort ++ []))) = _
  rw [packBits_merge h.switchId, packBits_merge (h.switchId ++ h.queueDepth),
    packBits_toBits (h.switchId ++ h.queueDepth ++ h.outputPort) _ (by rfl), hb]
  simp [packBits]

/-! What stands between the fixed header and the payload. -/

def traceOption (copyFlag : BitVec 1) (records : List IntHeader) : Ipv4Option where
  copyFlag := copyFlag
  optClass := 0
  option := 31
  optionLength := BitVec.ofNat 8 (4 + 4 * records.length)

def traceCount (records : List IntHeader) : IntCount where
  numSwitches := BitVec.ofNat 16 records.length

inductive Area where
  | plain
  | options (data : List Byte)
  | trace (copyFlag : BitVec 1) (records : IntStack)

namespace Area

def bytes : Area → List Byte
  | plain => []
  | options data => data
  | trace copyFlag records =>
      Header.encode (traceOption copyFlag records.valid) ++
        (Header.encode (traceCount records.valid) ++ records.valid.flatMap Header.encode)

/-- Options that are kept as they are do not start like the telemetry option. -/
def Ok : Area → Prop
  | options data => data ≠ [] ∧ data.headD 0 &&& 0x7f ≠ ipv4OptionInt
  | _ => True

end Area

@[simp] theorem records_length (records : List IntHeader) :
    (records.flatMap Header.encode).length = 4 * records.length := by
  induction records with
  | nil => rfl
  | cons r records ih =>
    rw [List.flatMap_cons, List.length_append, ih, Header.encode_length, IntHeader.size,
      List.length_cons]
    omega

theorem Area.trace_length (copyFlag : BitVec 1) (records : IntStack) :
    (Area.trace copyFlag records).bytes.length = 4 + 4 * records.valid.length := by
  simp [Area.bytes]
  omega

/-- The headers after an IPv4 packet was parsed. -/
def parsedHeaders (eth : Ethernet) (ip : Ipv4) : Area → Headers
  | .plain => { ethernet := some eth, ipv4 := some ip }
  | .options data =>
      { ethernet := some eth, ipv4 := some ip, options := some data
        user := { optionType := data.headD 0 &&& 0x7f } }
  | .trace copyFlag records =>
      { ethernet := some eth, ipv4 := some ip
        ipv4Option := some (traceOption copyFlag records.valid)
        intCount := some (traceCount records.valid), intHeaders := records
        user := { optionType := ipv4OptionInt } }

/-- The bytes of an accepted IPv4 packet. -/
structure Accepted (packet : List Byte) (eth : Ethernet) (ip : Ipv4) (area : Area)
    (payload : List Byte) : Prop where
  bytes : packet = Header.encode eth ++ (Header.encode ip ++ (area.bytes ++ payload))
  isIpv4 : eth.etherType = typeIpv4
  lengths : LengthsOk ip.version ip.ihl ip.totalLen packet.length
  options : area.bytes.length = 4 * (ip.ihl.toNat - 5)
  ok : area.Ok

/-! The parser. -/

section
variable {base hdr : Headers} {bs payload : List Byte}

/-- The headers inside the loop over the records. -/
def loopHeaders (base : Headers) (stack : IntStack) (remaining : ℕ) : Headers :=
  { base with
    intHeaders := stack
    user := { base.user with remaining := BitVec.ofNat 16 remaining } }

theorem HeaderStack.ext {α : Type} {size : ℕ} {s t : HeaderStack α size} (h : s.valid = t.valid) :
    s = t := by
  cases s
  cases t
  cases h
  rfl

theorem extractNext_ok {stack : IntStack} {n : ℕ} (hroom : stack.valid.length < maxIntHeaders)
    {r : IntHeader} {c : Cursor Headers} :
    extractNext ⟨bs, loopHeaders base stack n⟩ = (.ok r, c) ↔
      ∃ (rest : List Byte) (stack' : IntStack), stack'.valid = stack.valid ++ [r] ∧
        bs = Header.encode r ++ rest ∧ c = ⟨rest, loopHeaders base stack' n⟩ := by
  have hstore : ∀ r : IntHeader, Headers.storeNext r (loopHeaders base stack n) =
      loopHeaders base ⟨stack.valid ++ [r], by simpa using hroom⟩ n := by
    intro r
    unfold Headers.storeNext loopHeaders
    simp [HeaderStack.append, hroom]
  have hx : extractNext ⟨bs, loopHeaders base stack n⟩ =
      Parser.extract Headers.storeNext ⟨bs, loopHeaders base stack n⟩ := if_pos hroom
  rw [hx, Parser.extract_ok]
  constructor
  · intro h
    obtain ⟨rest, hb, rfl⟩ := h
    exact ⟨rest, _, rfl, hb, by rw [hstore]⟩
  · intro h
    obtain ⟨rest, stack', hv, hb, rfl⟩ := h
    refine ⟨rest, hb, ?_⟩
    have hs : stack' = ⟨stack.valid ++ [r], by simpa using hroom⟩ := HeaderStack.ext hv
    rw [hstore, hs]

/-- The loop extracts as many records as remain. -/
theorem parseIntHeaders_ok {n : ℕ} {stack : IntStack}
    (hroom : stack.valid.length + n ≤ maxIntHeaders) :
    parseIntHeaders n ⟨bs, loopHeaders base stack n⟩ = (.ok (), ⟨payload, hdr⟩) ↔
      ∃ (stack' : IntStack) (records : List IntHeader), stack'.valid = stack.valid ++ records ∧
        records.length = n ∧ bs = records.flatMap Header.encode ++ payload ∧
        hdr = loopHeaders base stack' 0 := by
  induction n generalizing stack bs with
  | zero =>
    rw [parseIntHeaders, Parser.accept_ok]
    constructor
    · intro h
      obtain ⟨rfl, rfl⟩ := h
      exact ⟨stack, [], (List.append_nil _).symm, rfl, rfl, rfl⟩
    · intro h
      obtain ⟨stack', records, hv, hl, hb, rfl⟩ := h
      obtain rfl := List.eq_nil_of_length_eq_zero hl
      obtain rfl : stack' = stack := HeaderStack.ext (hv.trans (List.append_nil _))
      exact ⟨hb, rfl⟩
  | succ n ih =>
    have hset : ∀ stack : IntStack, Headers.setRemaining (BitVec.ofNat 16 n)
        (loopHeaders base stack (n + 1)) = loopHeaders base stack n := fun _ => rfl
    rw [parseIntHeaders, Parser.bind_ok]
    constructor
    · intro h
      obtain ⟨r, c, hx, hk⟩ := h
      obtain ⟨rest, stack₁, hv₁, rfl, rfl⟩ := (extractNext_ok (by omega)).mp hx
      have hlen : stack₁.valid.length + n ≤ maxIntHeaders := by
        rw [hv₁, List.length_append, List.length_singleton]
        omega
      rw [Parser.assign_bind_ok, hset, ih hlen] at hk
      obtain ⟨stack₂, records, hv₂, hl, rfl, rfl⟩ := hk
      refine ⟨stack₂, r :: records, ?_, by simp [hl], ?_, rfl⟩
      · rw [hv₂, hv₁, List.append_assoc]
        rfl
      · rw [List.flatMap_cons, List.append_assoc]
    · intro h
      obtain ⟨stack₂, records, hv, hl, rfl, rfl⟩ := h
      obtain ⟨r, records, rfl⟩ := List.exists_cons_of_length_eq_add_one hl
      have hl' : records.length = n := by simpa using hl
      have hfit : (stack.valid ++ [r]).length ≤ maxIntHeaders := by
        rw [List.length_append, List.length_singleton]
        omega
      refine ⟨r, _, (extractNext_ok (by omega)).mpr
        ⟨records.flatMap Header.encode ++ payload, ⟨stack.valid ++ [r], hfit⟩, rfl, ?_, rfl⟩, ?_⟩
      · rw [List.flatMap_cons, List.append_assoc]
      · rw [Parser.assign_bind_ok, hset, ih (by
          rw [List.length_append, List.length_singleton]
          omega)]
        refine ⟨stack₂, records, ?_, hl', rfl, rfl⟩
        rw [hv, List.append_assoc]
        rfl

/-- The first byte tells the telemetry option from others, its copy flag aside. -/
theorem optionByte (o : Ipv4Option) : ∃ b₀ b₁ : Byte, Header.encode o = [b₀, b₁] ∧
    (b₀ &&& 0x7f = ipv4OptionInt ↔ o.optClass = 0 ∧ o.option = 31) := by
  refine ⟨_, _, o.encode_eq, ?_⟩
  have hc := o.copyFlag.isLt
  have hk := o.optClass.isLt
  have ho := o.option.isLt
  have h₁ : o.optClass = 0 ↔ o.optClass.toNat = 0 := (BitVec.toNat_inj (y := (0 : BitVec 2))).symm
  have h₂ : o.option = 31 ↔ o.option.toNat = 31 := (BitVec.toNat_inj (y := (31 : BitVec 5))).symm
  rw [← BitVec.toNat_inj, BitVec.toNat_and, BitVec.toNat_ofNat, h₁, h₂]
  have hm : (0x7f : Byte).toNat = 2 ^ 7 - 1 := rfl
  have hv : ipv4OptionInt.toNat = 31 := rfl
  rw [hm, hv, Nat.and_two_pow_sub_one_eq_mod, pow_zero, Nat.div_one]
  omega

/-- The three checks of the option, as numbers. -/
theorem optionLengths_ok {ihl : BitVec 4} (hi : 5 ≤ ihl.toNat) (o : Ipv4Option) (k : IntCount) :
    (k.numSwitches ≤ BitVec.ofNat 16 maxIntHeaders ∧
      o.optionLength = 4 + k.numSwitches.setWidth 8 * 4 ∧
      o.optionLength.setWidth 16 = (ihl.setWidth 16 - 5) * 4) ↔
    k.numSwitches.toNat ≤ maxIntHeaders ∧
      o.optionLength = BitVec.ofNat 8 (4 + 4 * k.numSwitches.toNat) ∧
      4 + 4 * k.numSwitches.toNat = 4 * (ihl.toNat - 5) := by
  have hlt := ihl.isLt
  have hle : k.numSwitches ≤ BitVec.ofNat 16 maxIntHeaders ↔
      k.numSwitches.toNat ≤ maxIntHeaders := by
    rw [BitVec.le_def]
    rfl
  have hlen : 4 + k.numSwitches.setWidth 8 * 4 = BitVec.ofNat 8 (4 + 4 * k.numSwitches.toNat) := by
    apply BitVec.eq_of_toNat_eq
    rw [BitVec.toNat_add, BitVec.toNat_mul, BitVec.toNat_setWidth, BitVec.toNat_ofNat]
    simp
    omega
  have hihl : ((ihl.setWidth 16 - 5) * 4 : BitVec 16).toNat = 4 * (ihl.toNat - 5) := by
    rw [BitVec.toNat_mul, BitVec.toNat_sub, BitVec.toNat_setWidth]
    simp
    omega
  rw [hle, hlen]
  refine and_congr_right fun h₁ => and_congr_right fun h₂ => ?_
  have hnum : (BitVec.ofNat 8 (4 + 4 * k.numSwitches.toNat)).toNat =
      4 + 4 * k.numSwitches.toNat := by
    rw [BitVec.toNat_ofNat, Nat.mod_eq_of_lt]
    unfold maxIntHeaders at h₁
    omega
  rw [h₂, ← BitVec.toNat_inj, hihl, BitVec.toNat_setWidth, hnum, Nat.mod_eq_of_lt]
  unfold maxIntHeaders at h₁
  omega

theorem verifyOption_bind_ok {ihl : BitVec 4} (hi : 5 ≤ ihl.toNat) {o : Ipv4Option} {k : IntCount}
    {next : Unit → Parser ErrorCode Headers Unit} {c c' : Cursor Headers} {u : Unit} :
    (verifyOption ihl o k >>= next) c = (.ok u, c') ↔
      (k.numSwitches.toNat ≤ maxIntHeaders ∧
        o.optionLength = BitVec.ofNat 8 (4 + 4 * k.numSwitches.toNat) ∧
        4 + 4 * k.numSwitches.toNat = 4 * (ihl.toNat - 5)) ∧ next () c = (.ok u, c') := by
  rw [Parser.bind_ok, ← optionLengths_ok hi]
  simp only [verifyOption, Parser.verify_bind_ok, Parser.verify_ok, decide_eq_true_eq]
  constructor
  · intro h
    obtain ⟨_, c₁, ⟨h₁, h₂, h₃, rfl⟩, hk⟩ := h
    exact ⟨⟨h₁, h₂, h₃⟩, hk⟩
  · intro h
    obtain ⟨⟨h₁, h₂, h₃⟩, hk⟩ := h
    exact ⟨(), c, ⟨h₁, h₂, h₃, rfl⟩, hk⟩

/-- The headers behind a parsed telemetry option. -/
def withTrace (base : Headers) (option : Ipv4Option) (records : IntStack) : Headers :=
  loopHeaders
    { base with ipv4Option := some option, intCount := some (traceCount records.valid) } records 0

theorem parseIntOption_ok {ihl : BitVec 4} (hi : 5 ≤ ihl.toNat)
    (hempty : base.intHeaders = .empty) :
    parseIntOption ihl ⟨bs, base⟩ = (.ok (), ⟨payload, hdr⟩) ↔
      ∃ (option : Ipv4Option) (records : IntStack),
        bs = Header.encode option ++ (Header.encode (traceCount records.valid) ++
          (records.valid.flatMap Header.encode ++ payload)) ∧
        option.optionLength = BitVec.ofNat 8 (4 + 4 * records.valid.length) ∧
        4 + 4 * records.valid.length = 4 * (ihl.toNat - 5) ∧
        hdr = withTrace base option records := by
  have hset : ∀ (o : Ipv4Option) (k : IntCount), Headers.setRemaining k.numSwitches
      { base with ipv4Option := some o, intCount := some k } = loopHeaders
        { base with ipv4Option := some o, intCount := some k } .empty k.numSwitches.toNat := by
    intro o k
    unfold Headers.setRemaining loopHeaders
    rw [BitVec.ofNat_toNat, BitVec.setWidth_eq, ← hempty]
  have hcount : ∀ (records : IntStack), (traceCount records.valid).numSwitches.toNat =
      records.valid.length := by
    intro records
    have hle := records.length_le
    unfold maxIntHeaders at hle
    rw [traceCount, BitVec.toNat_ofNat, Nat.mod_eq_of_lt (by omega)]
  rw [parseIntOption, Parser.extract_bind_ok]
  constructor
  · intro h
    obtain ⟨o, rest, rfl, h⟩ := h
    rw [Parser.extract_bind_ok] at h
    obtain ⟨k, rest, rfl, h⟩ := h
    rw [verifyOption_bind_ok hi] at h
    obtain ⟨⟨hle, hlen, hihl⟩, h⟩ := h
    rw [Parser.assign_bind_ok, hset,
      parseIntHeaders_ok (by simpa [HeaderStack.empty] using hle)] at h
    obtain ⟨records, rs, hv, hn, rfl, rfl⟩ := h
    have hrs : records.valid = rs := hv
    have hk : k = traceCount records.valid := by
      obtain ⟨num⟩ := k
      rw [hrs, traceCount, hn]
      simp
    subst hk
    rw [hcount] at hlen hihl
    exact ⟨o, records, by rw [hrs], hlen, hihl, rfl⟩
  · intro h
    obtain ⟨o, records, rfl, hlen, hihl, rfl⟩ := h
    refine ⟨o, _, rfl, ?_⟩
    rw [Parser.extract_bind_ok]
    refine ⟨traceCount records.valid, _, rfl, ?_⟩
    have hle : (traceCount records.valid).numSwitches.toNat ≤ maxIntHeaders := by
      rw [hcount]
      exact records.length_le
    rw [← hcount] at hlen hihl
    rw [verifyOption_bind_ok hi]
    refine ⟨⟨hle, hlen, hihl⟩, ?_⟩
    rw [Parser.assign_bind_ok, hset, parseIntHeaders_ok (by simpa [HeaderStack.empty] using hle)]
    exact ⟨records, records.valid, rfl, (hcount records).symm, rfl, rfl⟩

theorem eq_traceOption {option : Ipv4Option} {records : List IntHeader}
    (hclass : option.optClass = 0) (hoption : option.option = 31)
    (hlen : option.optionLength = BitVec.ofNat 8 (4 + 4 * records.length)) :
    option = traceOption option.copyFlag records := by
  obtain ⟨a, b, c, d⟩ := option
  cases hclass
  cases hoption
  cases hlen
  rfl

theorem withTrace_eq {eth : Ethernet} {ip : Ipv4} {option : Ipv4Option} {copyFlag : BitVec 1}
    {records : IntStack} (h : option = traceOption copyFlag records.valid) :
    withTrace { ethernet := some eth, ipv4 := some ip, user := { optionType := ipv4OptionInt } }
      option records = parsedHeaders eth ip (.trace copyFlag records) := by
  cases h
  rfl

/-- Only a packet without options has an empty area. -/
theorem Area.eq_plain {area : Area} (hok : area.Ok) (h : area.bytes.length = 0) :
    area = .plain := by
  cases area with
  | plain => rfl
  | options data => exact absurd (List.eq_nil_of_length_eq_zero h) hok.1
  | trace copyFlag records =>
    rw [Area.trace_length] at h
    omega

/-- The parser behind the fixed header, by what it finds there. -/
theorem parseOptionType_ok (eth : Ethernet) (ip : Ipv4) (hi : 5 < ip.ihl.toNat) :
    parseOptionType ip.ihl ⟨bs, parsedHeaders eth ip .plain⟩ = (.ok (), ⟨payload, hdr⟩) ↔
      ∃ area : Area, bs = area.bytes ++ payload ∧ area.bytes.length = 4 * (ip.ihl.toNat - 5) ∧
        area.Ok ∧ hdr = parsedHeaders eth ip area := by
  rw [parseOptionType, Parser.lookahead_bind_ok]
  constructor
  · intro h
    obtain ⟨x, xs, hx, h⟩ := h
    rw [Parser.assign_bind_ok] at h
    split_ifs at h with ht
    · rw [parseIntOption_ok (by omega) rfl] at h
      obtain ⟨o, records, rfl, hlen, hihl, rfl⟩ := h
      obtain ⟨b₀, b₁, ho, hbyte⟩ := optionByte o
      have hhead : x = b₀ := by
        rw [ho] at hx
        exact (List.cons.inj hx).1.symm
      rw [hhead] at ht
      obtain ⟨hclass, hoption⟩ := hbyte.mp ht
      have hopt := eq_traceOption hclass hoption hlen
      refine ⟨.trace o.copyFlag records, ?_, ?_, trivial, ?_⟩
      · rw [Area.bytes, ← hopt]
        simp only [List.append_assoc]
      · rw [Area.trace_length, hihl]
      · rw [hhead, ht]
        exact withTrace_eq hopt
    · obtain ⟨data, rest, hb, hl, h⟩ := (parseOptions_ok (by omega)).mp h
      obtain ⟨rfl, rfl⟩ := Parser.accept_ok.mp h
      have hne : data ≠ [] := List.ne_nil_of_length_pos (by omega)
      obtain rfl : data.headD 0 = x := by
        obtain ⟨y, ys, rfl⟩ := List.exists_cons_of_ne_nil hne
        rw [hb] at hx
        exact (List.cons.inj hx).1
      exact ⟨.options data, hb, hl, ⟨hne, ht⟩, rfl⟩
  · intro h
    obtain ⟨area, rfl, hl, hok, rfl⟩ := h
    cases area with
    | plain =>
      rw [Area.bytes, List.length_nil] at hl
      omega
    | options data =>
      obtain ⟨hne, hnot⟩ := hok
      obtain ⟨y, ys, rfl⟩ := List.exists_cons_of_ne_nil hne
      have hfirst : ¬y &&& 0x7f = ipv4OptionInt := hnot
      refine ⟨y, ys ++ payload, rfl, ?_⟩
      rw [Parser.assign_bind_ok, if_neg hfirst, parseOptions_ok (by omega)]
      exact ⟨y :: ys, payload, rfl, hl, Parser.accept_ok.mpr ⟨rfl, rfl⟩⟩
    | trace copyFlag records =>
      obtain ⟨b₀, b₁, ho, hbyte⟩ := optionByte (traceOption copyFlag records.valid)
      have ht : b₀ &&& 0x7f = ipv4OptionInt := hbyte.mpr ⟨rfl, rfl⟩
      rw [Area.trace_length] at hl
      refine ⟨b₀, _, by rw [Area.bytes, ho]; rfl, ?_⟩
      rw [Parser.assign_bind_ok, if_pos ht, parseIntOption_ok (by omega) rfl]
      refine ⟨traceOption copyFlag records.valid, records, ?_, rfl, hl, ?_⟩
      · rw [Area.bytes]
        simp only [List.append_assoc]
      · rw [ht]
        rfl

end

section
variable {unset : IntHeader} {lpm : Table (BitVec 32) LpmAction} {intDefault : IntAction}
  {port : Port} {packet payload : List Byte} {hdr : Headers}

theorem parse_ok : (router unset lpm intDefault).parse port packet = (.ok (), ⟨payload, hdr⟩) ↔
    (∃ eth : Ethernet, packet = Header.encode eth ++ payload ∧ eth.etherType ≠ typeIpv4 ∧
      hdr = { ethernet := some eth }) ∨
    ∃ eth ip area, Accepted packet eth ip area payload ∧ hdr = parsedHeaders eth ip area := by
  change myParser (V1Switch.arrival port packet) ⟨packet, {}⟩ = _ ↔ _
  rw [myParser, Parser.extract_bind_ok]
  constructor
  · intro h
    obtain ⟨eth, rest, hp, h⟩ := h
    split_ifs at h with ht
    · have hl : 14 ≤ packet.length := by simp [hp]
      rw [parseIpv4, Parser.extract_bind_ok] at h
      obtain ⟨ip, rest', rfl, h⟩ := h
      rw [V1Switch.arrival, verifyLengths_bind_ok hl] at h
      obtain ⟨hok, h⟩ := h
      have hi := hok.five_le_ihl
      by_cases h5 : ip.ihl = 5
      · rw [if_pos h5, Parser.accept_ok] at h
        obtain ⟨rfl, rfl⟩ := h
        exact Or.inr ⟨eth, ip, .plain, ⟨hp, ht, hok, by rw [h5]; rfl, trivial⟩, rfl⟩
      · have hne : ip.ihl.toNat ≠ 5 := fun h => h5 (BitVec.eq_of_toNat_eq h)
        rw [if_neg h5] at h
        obtain ⟨area, rfl, hl, harea, rfl⟩ :=
          (parseOptionType_ok eth ip (by omega)).mp h
        exact Or.inr ⟨eth, ip, area, ⟨hp, ht, hok, hl, harea⟩, rfl⟩
    · obtain ⟨rfl, rfl⟩ := Parser.accept_ok.mp h
      exact Or.inl ⟨eth, hp, ht, rfl⟩
  · intro h
    rcases h with ⟨eth, hp, ht, rfl⟩ | ⟨eth, ip, area, ⟨hp, ht, hok, hl, harea⟩, rfl⟩
    · refine ⟨eth, payload, hp, ?_⟩
      rw [if_neg ht, Parser.accept_ok]
      exact ⟨rfl, rfl⟩
    · have hlen : 14 ≤ packet.length := by simp [hp]
      have hi := hok.five_le_ihl
      refine ⟨eth, _, hp, ?_⟩
      rw [if_pos ht, parseIpv4, Parser.extract_bind_ok]
      refine ⟨ip, _, rfl, ?_⟩
      rw [V1Switch.arrival, verifyLengths_bind_ok hlen]
      refine ⟨hok, ?_⟩
      by_cases h5 : ip.ihl = 5
      · have hnil : area.bytes.length = 0 := by
          rw [hl, h5]
          rfl
        have hplain : area = .plain := Area.eq_plain harea hnil
        subst hplain
        rw [if_pos h5, Parser.accept_ok]
        exact ⟨rfl, rfl⟩
      · have hne : ip.ihl.toNat ≠ 5 := fun h => h5 (BitVec.eq_of_toNat_eq h)
        rw [if_neg h5]
        exact (parseOptionType_ok eth ip (by omega)).mpr
          ⟨area, rfl, hl, harea, rfl⟩

end

end P4Cases.Telemetry
