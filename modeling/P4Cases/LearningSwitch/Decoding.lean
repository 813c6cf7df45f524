import P4Cases.LearningSwitch.Invariant
import P4Cases.Wire.Slice

/-! Digests from the bytes on the wire to the table entry: the decoder with everything
it returns, what the byte strings of an address and a port decode to, and what the
learner writes for them. -/
namespace P4Cases.LearningSwitch
open Wire P4 Control

/-! The decoder, with the accesses that could panic. -/

inductive Panic where
  | indexOutOfRange
  | sliceOutOfRange
  deriving DecidableEq, Repr

abbrev Go := Except Panic

/-- `xs[i]`. -/
def index {α : Type} (xs : List α) (i : ℕ) : Go α :=
  match xs[i]? with
  | some x => .ok x
  | none => .error .indexOutOfRange

/-- `copy(dst[start:], src)`. -/
def copyAt (dst : List Byte) (start : ℤ) (src : List Byte) : Go (List Byte) :=
  if 0 ≤ start ∧ start ≤ dst.length then
    let new := src.take (dst.length - start.toNat)
    .ok (dst.take start.toNat ++ new ++ dst.drop (start.toNat + new.length))
  else .error .sliceOutOfRange

/-- What `decodeLearnStruct` returns: the address, nil before it is made, the port, and
whether they may be used. -/
structure Decoded where
  mac : List Byte := []
  port : BitVec 32 := 0
  ok : Bool := false
  deriving DecidableEq, Repr

/-- `(port << 8) | uint32(value)`. -/
def appendByte (port : BitVec 32) (value : Byte) : BitVec 32 :=
  port <<< 8 ||| value.setWidth 32

/-- The bytes of the two members. -/
def decodeBytes (macBytes portBytes : List Byte) : Go Decoded :=
  if macBytes.length = 0 ∨ macBytes.length > 6 ∨ portBytes.length = 0 ∨ portBytes.length > 2 then
    return {}
  else do
    let mac ← copyAt (List.replicate 6 0) (6 - macBytes.length) macBytes
    let port := portBytes.foldl appendByte 0
    return { mac, port, ok := decide (0#32 < port ∧ port < 512#32) }

def decodeStruct (d : P4Data) : Go Decoded :=
  match d.getStruct with
  | none => return {}
  | some members =>
      if members.length ≠ 2 then return {}
      else do
        let macData ← index members 0
        let portData ← index members 1
        decodeBytes macData.getBitstring portData.getBitstring

/-- The number in one to `size` big-endian bytes: without leading zeros or padded. -/
def Encodes (size n : ℕ) (bytes : List Byte) : Prop :=
  ∃ k, 1 ≤ k ∧ k ≤ size ∧ n < 256 ^ k ∧ bytes = beBytes k n

theorem encodes_iff {size n : ℕ} {bytes : List Byte} :
    Encodes size n bytes ↔ 1 ≤ bytes.length ∧ bytes.length ≤ size ∧ beNat bytes = n := by
  constructor
  · intro h
    obtain ⟨k, h₁, hk, hn, rfl⟩ := h
    rw [beBytes_length]
    exact ⟨h₁, hk, beNat_beBytes_of_lt hn⟩
  · intro h
    obtain ⟨h₁, hk, rfl⟩ := h
    exact ⟨bytes.length, h₁, hk, beNat_lt bytes, (beBytes_beNat bytes).symm⟩

/-- Padding on the left keeps the number. -/
theorem pad_eq {size : ℕ} {bytes : List Byte} (h : bytes.length ≤ size) :
    List.replicate (size - bytes.length) 0 ++ bytes = beBytes size (beNat bytes) := by
  have hz : ∀ k, List.replicate k 0 = beBytes k 0 := by
    intro k
    induction k with
    | zero => rfl
    | succ k ih =>
      rw [List.replicate_succ, ih, beBytes, Nat.zero_div]
      rfl
  have hsplit := beBytes_add (size - bytes.length) bytes.length (beNat bytes)
  rw [Nat.sub_add_cancel h, Nat.div_eq_of_lt (beNat_lt bytes), beBytes_beNat, ← hz] at hsplit
  exact hsplit.symm

theorem copyAt_replicate {bytes : List Byte} (h : bytes.length ≤ 6) :
    copyAt (List.replicate 6 0) (6 - bytes.length) bytes = .ok (beBytes 6 (beNat bytes)) := by
  have hstart : ((6 : ℤ) - bytes.length).toNat = 6 - bytes.length := by omega
  have htake : bytes.take (6 - (6 - bytes.length)) = bytes := List.take_of_length_le (by omega)
  have hdrop : (List.replicate 6 (0 : Byte)).drop (6 - bytes.length + bytes.length) = [] :=
    List.drop_eq_nil_of_le (by simp; omega)
  rw [copyAt, if_pos (by simp; omega), hstart, List.length_replicate, htake, List.take_replicate]
  dsimp only
  rw [hdrop, List.append_nil, min_eq_left (by omega), pad_eq h]

theorem appendByte_toNat {port : BitVec 32} (h : port.toNat < 2 ^ 24) (value : Byte) :
    (appendByte port value).toNat = port.toNat * 256 + value.toNat := by
  have hv := value.isLt
  rw [appendByte, BitVec.toNat_or, BitVec.toNat_shiftLeft, BitVec.toNat_setWidth,
    Nat.shiftLeft_eq, Nat.mod_eq_of_lt (by omega), Nat.mod_eq_of_lt (by omega), Nat.mul_comm,
    ← Nat.two_pow_add_eq_or_of_lt hv]

/-- The shifts accumulate the number, as long as it fits. -/
theorem appendBytes_toNat {port : BitVec 32} {bytes : List Byte}
    (h : (port.toNat + 1) * 256 ^ bytes.length ≤ 2 ^ 24) :
    (bytes.foldl appendByte port).toNat = port.toNat * 256 ^ bytes.length + beNat bytes := by
  induction bytes generalizing port with
  | nil => simp [beNat]
  | cons b bytes ih =>
    have hb := b.isLt
    have hpos : 1 ≤ 256 ^ bytes.length := Nat.one_le_pow _ _ (by norm_num)
    rw [List.length_cons, pow_succ] at h
    have hp : (appendByte port b).toNat = port.toNat * 256 + b.toNat :=
      appendByte_toNat (by nlinarith) b
    rw [List.foldl_cons, ih (by rw [hp]; nlinarith), hp, beNat, List.length_cons, pow_succ]
    ring

theorem port_toNat {bytes : List Byte} (h : bytes.length ≤ 2) :
    (bytes.foldl appendByte 0).toNat = beNat bytes := by
  have hp : 256 ^ bytes.length ≤ 256 ^ 2 := Nat.pow_le_pow_right (by norm_num) h
  rw [appendBytes_toNat (by simp; omega)]
  simp

theorem decodeBytes_eq (macBytes portBytes : List Byte) : decodeBytes macBytes portBytes =
    if macBytes.length = 0 ∨ macBytes.length > 6 ∨ portBytes.length = 0 ∨ portBytes.length > 2 then
      .ok {}
    else .ok ⟨beBytes 6 (beNat macBytes), portBytes.foldl appendByte 0,
      decide (0 < beNat portBytes ∧ beNat portBytes < 512)⟩ := by
  unfold decodeBytes
  split_ifs with hl
  · rfl
  · have hcopy : copyAt (List.replicate 6 0) (6 - macBytes.length) macBytes =
        .ok (beBytes 6 (beNat macBytes)) := copyAt_replicate (by omega)
    have hport : (portBytes.foldl appendByte 0).toNat = beNat portBytes := port_toNat (by omega)
    have hok : (0#32 < portBytes.foldl appendByte 0 ∧ portBytes.foldl appendByte 0 < 512#32) ↔
        0 < beNat portBytes ∧ beNat portBytes < 512 := by
      rw [BitVec.lt_def, BitVec.lt_def, hport]
      rfl
    rw [hcopy]
    simp only [hok]
    rfl

theorem decodeStruct_pair (macData portData : P4Data) :
    decodeStruct (.struct [macData, portData]) =
      decodeBytes macData.getBitstring portData.getBitstring := rfl

/-- A payload of any other shape has no second or no further member. -/
theorem decodeStruct_other {d : P4Data} (h : ∀ macData portData, d ≠ .struct [macData, portData]) :
    decodeStruct d = .ok {} := by
  cases d with
  | struct members =>
    have hl : members.length ≠ 2 := by
      intro hl
      obtain ⟨m, rest, rfl⟩ := List.exists_cons_of_length_eq_add_one hl
      obtain ⟨p, rest, rfl⟩ := List.exists_cons_of_length_eq_add_one (Nat.succ.inj hl)
      obtain rfl := List.eq_nil_of_length_eq_zero (Nat.succ.inj (Nat.succ.inj hl))
      exact h m p rfl
    exact if_pos hl
  | bitstring value => rfl
  | other => rfl

/-- The same shifts on plain numbers. -/
theorem foldl_shift (n : ℕ) (bytes : List Byte) :
    bytes.foldl (fun port value => (port <<< 8) ||| value.toNat) n =
      n * 256 ^ bytes.length + beNat bytes := by
  induction bytes generalizing n with
  | nil => simp [beNat]
  | cons b bytes ih =>
    have hb : (n <<< 8) ||| b.toNat = n * 256 + b.toNat := by
      rw [Nat.shiftLeft_eq, Nat.mul_comm, ← Nat.two_pow_add_eq_or_of_lt b.isLt, Nat.mul_comm]
    rw [List.foldl_cons, hb, ih, beNat, List.length_cons, pow_succ]
    ring

theorem decodeLearnStruct_pair (macData portData : P4Data) :
    decodeLearnStruct (.struct [macData, portData]) =
      if macData.getBitstring.length = 0 ∨ macData.getBitstring.length > 6 ∨
        portData.getBitstring.length = 0 ∨ portData.getBitstring.length > 2 then none
      else if 0 < beNat portData.getBitstring ∧ beNat portData.getBitstring < 512 then
        some (beBytes 6 (beNat macData.getBitstring), beNat portData.getBitstring)
      else none := by
  have hport := foldl_shift 0 portData.getBitstring
  rw [Nat.zero_mul, Nat.zero_add] at hport
  simp only [decodeLearnStruct, P4Data.getStruct, hport]
  split_ifs with hl hp
  · rfl
  · rw [pad_eq (by omega)]
  · rfl

/-- The decoder of the controller keeps what may be used of the result. -/
theorem decodeLearnStruct_eq (d : P4Data) : ∃ out, decodeStruct d = .ok out ∧
    decodeLearnStruct d = if out.ok then some (out.mac, out.port.toNat) else none := by
  by_cases h : ∃ macData portData, d = .struct [macData, portData]
  · obtain ⟨m, p, rfl⟩ := h
    rw [decodeStruct_pair, decodeBytes_eq, decodeLearnStruct_pair]
    split_ifs with hl hp
    · exact ⟨{}, rfl, rfl⟩
    · refine ⟨_, rfl, ?_⟩
      rw [decide_eq_true hp, if_pos rfl, port_toNat (by omega)]
    · refine ⟨_, rfl, ?_⟩
      rw [decide_eq_false hp]
      rfl
  · simp only [not_exists] at h
    refine ⟨{}, decodeStruct_other h, ?_⟩
    cases d with
    | struct members =>
      match members, h with
      | [], _ => rfl
      | [_], _ => rfl
      | [m, p], h => exact absurd rfl (h m p)
      | _ :: _ :: _ :: _, _ => rfl
    | bitstring value => rfl
    | other => rfl

/-! From a digest to the writes of the learner. -/

/-- A write that serving a digest member can lead to, for some answers. -/
def Serves (ports : ℕ) (learned : Learned) (member : P4Data) (write : Write) : Prop :=
  ∃ decoded, decodeLearnStruct member = some decoded ∧
    (learn ports learned decoded.1 decoded.2).Asks write

variable {write : Write}

theorem upsertEntry_asks {entry : TableEntry} (h : (upsertEntry entry).Asks write) :
    write.entry = entry := by
  rcases Prog.asks_bind h with h | ⟨err, h⟩
  · rcases h with rfl | ⟨_, h⟩
    · rfl
    · cases h
  · cases err with
    | none => cases h
    | some e =>
      dsimp only at h
      split_ifs at h
      · rcases h with rfl | ⟨_, h⟩
        · rfl
        · cases h
      · cases h

theorem installLearned_asks {mac : List Byte} {port : ℕ}
    (h : (installLearned mac port).Asks write) :
    write.entry = .dmac (macKey mac) (.forward (BitVec.ofNat 9 port)) ∨
      write.entry = .smac (macKey mac) .noAction := by
  rcases Prog.asks_bind h with h | ⟨err, h⟩
  · exact Or.inl (upsertEntry_asks h)
  · cases err with
    | some e => cases h
    | none =>
      rcases Prog.asks_bind h with h | ⟨err, h⟩
      · exact Or.inr (upsertEntry_asks h)
      · cases err <;> cases h

theorem installLearned_asks_dmac (mac : List Byte) (port : ℕ) : (installLearned mac port).Asks
    ⟨.insert, .dmac (macKey mac) (.forward (BitVec.ofNat 9 port))⟩ := Or.inl rfl

/-- The learner writes for an address that passes its checks and is new to it. -/
theorem learn_asks {ports : ℕ} {learned : Learned} {mac : List Byte} {port : ℕ}
    (h : (learn ports learned mac port).Asks write) :
    ¬ Rejected ports mac port ∧ learned (macKey mac) = none ∧
      (installLearned mac port).Asks write := by
  unfold learn at h
  split_ifs at h with hm hp
  · cases h
  · cases h
  · have hr : ¬ Rejected ports mac port := not_or.2 ⟨hm, hp⟩
    cases hl : learned (macKey mac) with
    | some existing =>
      rw [hl] at h
      dsimp only at h
      split_ifs at h <;> cases h
    | none =>
      rw [hl] at h
      rcases Prog.asks_bind h with h | ⟨err, h⟩
      · exact ⟨hr, rfl, h⟩
      · cases err <;> cases h

theorem learn_asks_dmac {ports : ℕ} {learned : Learned} {mac : List Byte} {port : ℕ}
    (h : ¬ Rejected ports mac port) (hnew : learned (macKey mac) = none) :
    (learn ports learned mac port).Asks
      ⟨.insert, .dmac (macKey mac) (.forward (BitVec.ofNat 9 port))⟩ := by
  rw [learn_eq_install (w := { learned }) h hnew]
  exact Prog.Asks.bind (installLearned_asks_dmac mac port)

theorem macKey_beBytes (mac : BitVec 48) : macKey (beBytes 6 mac.toNat) = mac := by
  have hlt : mac.toNat < 256 ^ 6 := mac.isLt
  rw [macKey, beNat_beBytes_of_lt hlt, BitVec.ofNat_toNat, BitVec.setWidth_eq]

/-- The checks of `learn` on the bytes of an address are those on the address. -/
theorem rejected_beBytes {ports : ℕ} {mac : BitVec 48} {port : ℕ} :
    ¬ Rejected ports (beBytes 6 mac.toNat) port ↔ Unicast mac ∧ 1 ≤ port ∧ port ≤ ports := by
  have hlt : mac.toNat < 256 ^ 6 := mac.isLt
  have hlen : (beBytes 6 mac.toNat).length = 6 := beBytes_length 6 mac.toNat
  constructor
  · intro h
    unfold Rejected at h
    simp only [not_or, not_not] at h
    obtain ⟨⟨-, hgroup, hzero⟩, hp⟩ := h
    have hu := unicast_macKey hlen hgroup hzero
    rw [macKey_beBytes] at hu
    exact ⟨hu, by omega, by omega⟩
  · intro h
    obtain ⟨⟨hne, hgroup⟩, h₁, hp⟩ := h
    rintro ((hl | hodd | hzero) | hport)
    · exact hl hlen
    · apply hodd
      rw [BitVec.getLsbD, Nat.testBit_eq_decide_div_mod_eq] at hgroup
      simp only [decide_eq_false_iff_not] at hgroup
      have hhead : ((beBytes 6 mac.toNat).headD 0).toNat = mac.toNat / 256 ^ 5 % 256 := by
        simp only [beBytes, List.headD_cons, BitVec.toNat_ofNat]
      rw [hhead, Nat.and_one_is_mod]
      omega
    · apply hne
      have hn := congrArg beNat hzero
      rw [beNat_beBytes_of_lt hlt] at hn
      exact BitVec.eq_of_toNat_eq hn
    · omega

/-! Both ways together. -/

/-- The payload of a digest with these two byte strings. -/
def learnData (mac port : List Byte) : P4Data := .struct [.bitstring mac, .bitstring port]

/-- The payload carries the address and the port, in some accepted encoding. -/
def Carries (d : P4Data) (mac : BitVec 48) (port : BitVec 9) : Prop :=
  ∃ macBytes portBytes, Encodes 6 mac.toNat macBytes ∧ Encodes 2 port.toNat portBytes ∧
    d = learnData macBytes portBytes

variable {d : P4Data} {mac : BitVec 48} {port : BitVec 9}

theorem Carries.decode (h : Carries d mac port) :
    decodeStruct d = .ok ⟨beBytes 6 mac.toNat, port.setWidth 32, decide (0 < port.toNat)⟩ := by
  obtain ⟨macBytes, portBytes, hmac, hport, rfl⟩ := h
  obtain ⟨hm₁, hm₂, hm⟩ := encodes_iff.mp hmac
  obtain ⟨hp₁, hp₂, hp⟩ := encodes_iff.mp hport
  have hlt : port.toNat < 512 := port.isLt
  have hvalue : portBytes.foldl appendByte 0 = port.setWidth 32 := by
    apply BitVec.eq_of_toNat_eq
    rw [port_toNat hp₂, hp, BitVec.toNat_setWidth, Nat.mod_eq_of_lt (by omega)]
  have hl : ¬ (macBytes.length = 0 ∨ macBytes.length > 6 ∨ portBytes.length = 0 ∨
      portBytes.length > 2) := by omega
  rw [learnData, decodeStruct_pair, decodeBytes_eq]
  simp only [P4Data.getBitstring, if_neg hl, hm, hvalue, hp, hlt, and_true]

/-- Whatever may be used was carried. -/
theorem carries_of_ok {out : Decoded} (h : decodeStruct d = .ok out) (hok : out.ok = true) :
    ∃ mac port, Carries d mac port := by
  by_cases hd : ∃ macData portData, d = .struct [macData, portData]
  · obtain ⟨m, p, rfl⟩ := hd
    rw [decodeStruct_pair, decodeBytes_eq] at h
    split_ifs at h with hl
    · cases h
      cases hok
    · cases h
      have hp := of_decide_eq_true hok
      have hmlt : beNat m.getBitstring < 2 ^ 48 := (beNat_lt _).trans_le
        (Nat.pow_le_pow_right (by norm_num) (by omega : m.getBitstring.length ≤ 6))
      have bitstring_eq : ∀ d : P4Data, d.getBitstring.length ≠ 0 →
          d = .bitstring d.getBitstring := by
        intro d hd
        cases d with
        | bitstring value => rfl
        | struct members => exact absurd rfl hd
        | other => exact absurd rfl hd
      refine ⟨BitVec.ofNat 48 (beNat m.getBitstring), BitVec.ofNat 9 (beNat p.getBitstring),
        m.getBitstring, p.getBitstring, ?_, ?_, ?_⟩
      · rw [BitVec.toNat_ofNat, Nat.mod_eq_of_lt hmlt]
        exact encodes_iff.mpr ⟨by omega, by omega, rfl⟩
      · rw [BitVec.toNat_ofNat, Nat.mod_eq_of_lt hp.2]
        exact encodes_iff.mpr ⟨by omega, by omega, rfl⟩
      · rw [learnData, ← bitstring_eq m (by omega), ← bitstring_eq p (by omega)]
  · simp only [not_exists] at hd
    rw [decodeStruct_other hd] at h
    cases h
    cases hok

theorem decodeStruct_returns (d : P4Data) : ∃ out, decodeStruct d = .ok out := by
  obtain ⟨out, h, -⟩ := decodeLearnStruct_eq d
  exact ⟨out, h⟩

/-- What the controller goes on with. -/
theorem Carries.decoded (h : Carries d mac port) : decodeLearnStruct d =
    if 0 < port.toNat then some (beBytes 6 mac.toNat, port.toNat) else none := by
  obtain ⟨out, hout, heq⟩ := decodeLearnStruct_eq d
  rw [h.decode] at hout
  cases hout
  have hlt := port.isLt
  rw [heq, BitVec.toNat_setWidth, Nat.mod_eq_of_lt (by omega)]
  simp only [decide_eq_true_eq]

theorem Carries.serves_dmac (h : Carries d mac port) {ports : ℕ} {learned : Learned}
    {kind : UpdateType} {dstAddr : BitVec 48} {action : DmacAction}
    (hw : Serves ports learned d ⟨kind, .dmac dstAddr action⟩) :
    dstAddr = mac ∧ action = .forward port ∧ Unicast mac ∧ 1 ≤ port.toNat ∧ port.toNat ≤ ports ∧
      learned mac = none := by
  obtain ⟨decoded, hd, hw⟩ := hw
  rw [h.decoded] at hd
  split_ifs at hd
  cases hd
  obtain ⟨hr, hnew, hw⟩ := learn_asks hw
  rw [macKey_beBytes] at hnew
  obtain ⟨hu, h₁, hp⟩ := rejected_beBytes.mp hr
  rcases installLearned_asks hw with he | he
  · cases he
    refine ⟨macKey_beBytes mac, ?_, hu, h₁, hp, hnew⟩
    rw [BitVec.ofNat_toNat, BitVec.setWidth_eq]
  · cases he

theorem Carries.serves (h : Carries d mac port) {ports : ℕ} {learned : Learned}
    (hu : Unicast mac) (h₁ : 1 ≤ port.toNat) (hp : port.toNat ≤ ports)
    (hnew : learned mac = none) :
    Serves ports learned d ⟨.insert, .dmac mac (.forward port)⟩ := by
  refine ⟨(beBytes 6 mac.toNat, port.toNat), ?_, ?_⟩
  · exact h.decoded.trans (if_pos h₁)
  · have hr := rejected_beBytes.mpr ⟨hu, h₁, hp⟩
    have hkey : learned (macKey (beBytes 6 mac.toNat)) = none := by rwa [macKey_beBytes]
    have hw := learn_asks_dmac hr hkey
    rwa [macKey_beBytes, BitVec.ofNat_toNat, BitVec.setWidth_eq] at hw

/-- Decoding inverts the encodings and refuses everything else without a panic, and
what the learner writes to `dmac` is the encoded pair: for a pair it may install and
an address it does not know, and never otherwise. -/
theorem decodeStruct_inverts (ports : ℕ) (learned : Learned) (d : P4Data) :
    (∀ mac port, Carries d mac port → decodeStruct d =
      .ok ⟨beBytes 6 mac.toNat, port.setWidth 32, decide (0 < port.toNat)⟩) ∧
    ((¬ ∃ mac port, Carries d mac port) →
      ∃ out, decodeStruct d = .ok out ∧ out.ok = false) ∧
    (∀ mac port, Carries d mac port →
      (∀ kind dstAddr action, Serves ports learned d ⟨kind, .dmac dstAddr action⟩ →
        dstAddr = mac ∧ action = .forward port) ∧
      ((∃ kind dstAddr action, Serves ports learned d ⟨kind, .dmac dstAddr action⟩) ↔
        Unicast mac ∧ 1 ≤ port.toNat ∧ port.toNat ≤ ports ∧ learned mac = none)) := by
  refine ⟨fun mac port h => h.decode, ?_, ?_⟩
  · intro hno
    obtain ⟨out, hout⟩ := decodeStruct_returns d
    refine ⟨out, hout, ?_⟩
    by_contra hok
    exact hno (carries_of_ok hout (Bool.eq_true_of_not_eq_false hok))
  · intro mac port h
    refine ⟨?_, ?_, ?_⟩
    · intro kind dstAddr action hw
      exact ⟨(h.serves_dmac hw).1, (h.serves_dmac hw).2.1⟩
    · rintro ⟨kind, dstAddr, action, hw⟩
      exact (h.serves_dmac hw).2.2
    · rintro ⟨hu, h₁, hp, hnew⟩
      exact ⟨.insert, mac, .forward port, h.serves hu h₁ hp hnew⟩

end P4Cases.LearningSwitch
