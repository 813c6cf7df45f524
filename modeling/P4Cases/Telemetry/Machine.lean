import P4Cases.Telemetry.Accepted
import P4Cases.Parsing.Ipv4

/-! The telemetry parser, state by state, over the integers. -/
namespace P4Cases.Telemetry
open Wire P4

inductive State where
  | start
  | parseIpv4
  | parseOptionType
  | parseOptions
  | parseIntOption
  | parseIntHeaders
  deriving DecidableEq, Repr

def Headers.remaining (hdr : Headers) : BitVec 16 := hdr.user.remaining

/-- `select(meta.remaining)`, at the end of both states of the loop. -/
def selectRemaining : Parser (Fault ErrorCode) Headers (Option State) := do
  let remaining ← Parser.read Headers.remaining
  pure (if remaining.toNat = 0 then none else some .parseIntHeaders)

/-- The three checks of `parse_int_option`. -/
def verifyOptionExact (option : Ipv4Option) (count : IntCount) :
    Parser (Fault ErrorCode) Headers Unit := do
  Parser.verify (count.numSwitches.toNat ≤ maxIntHeaders) (.error .invalidINTLength)
  let switches ← Parser.checked 8 count.numSwitches.toNat
  let records ← Parser.checked 8 (switches * 4)
  let length ← Parser.checked 8 (4 + records)
  Parser.verify (option.optionLength.toNat = length) (.error .invalidINTLength)
  let ipv4 ← Parser.valid Headers.ipv4
  let wide ← Parser.checked 16 option.optionLength.toNat
  let ihl ← Parser.checked 16 ipv4.ihl.toNat
  let words ← Parser.checked 16 (ihl - 5)
  let area ← Parser.checked 16 (words * 4)
  Parser.verify (wide = area) (.error .invalidINTLength)

def parserState (packetLength : BitVec 32) :
    State → Parser (Fault ErrorCode) Headers (Option State)
  | .start => do
      let ethernet : Ethernet ← Parser.extract fun h hdr => { hdr with ethernet := some h }
      pure (if ethernet.etherType = typeIpv4 then some .parseIpv4 else none)
  | .parseIpv4 => do
      let ipv4 : Ipv4 ← Parser.extract fun h hdr => { hdr with ipv4 := some h }
      verifyLengthsExact .invalidIPv4Version .invalidIPv4Length ipv4.version ipv4.ihl
        ipv4.totalLen packetLength
      pure (if ipv4.ihl = 5 then none else some .parseOptionType)
  | .parseOptionType => do
      let first ← Parser.lookahead
      Parser.assign fun hdr => { hdr with user := { hdr.user with optionType := first &&& 0x7f } }
      let optionType ← Parser.read fun hdr => hdr.user.optionType
      pure (if optionType = ipv4OptionInt then some .parseIntOption else some .parseOptions)
  | .parseOptions => do
      let ipv4 ← Parser.valid Headers.ipv4
      extractOptions ipv4.ihl fun data hdr => { hdr with options := some data }
      pure none
  | .parseIntOption => do
      let option : Ipv4Option ← Parser.extract fun h hdr => { hdr with ipv4Option := some h }
      let count : IntCount ← Parser.extract fun h hdr => { hdr with intCount := some h }
      verifyOptionExact option count
      Parser.assign (Headers.setRemaining count.numSwitches)
      selectRemaining
  | .parseIntHeaders => do
      let _ ← extractNext.lift
      let remaining ← Parser.read Headers.remaining
      let left ← Parser.checked 16 (remaining.toNat - 1)
      Parser.assign (Headers.setRemaining (BitVec.ofInt 16 left))
      selectRemaining

/-- No IPv4 header has been extracted yet. -/
def BeforeIpv4 (c : Cursor Headers) : Prop := c.hdr.ipv4 = none

variable {packetLength : BitVec 32} {bs : List Byte} {hdr : Headers} {ip : Ipv4} {fuel : ℕ}

/-- With room in the stack and a record in front, the record is stored. -/
theorem extractNext_run (hroom : hdr.intHeaders.valid.length < maxIntHeaders) {r : IntHeader}
    {rest : List Byte} (hb : bs = Header.encode r ++ rest) :
    extractNext ⟨bs, hdr⟩ = (.ok r, ⟨rest, Headers.storeNext r hdr⟩) := by
  rw [extractNext, if_pos hroom]
  exact Parser.extract_ok.mpr ⟨rest, hb, rfl⟩

theorem storeNext_length (hroom : hdr.intHeaders.valid.length < maxIntHeaders) (r : IntHeader) :
    (Headers.storeNext r hdr).intHeaders.valid.length = hdr.intHeaders.valid.length + 1 := by
  simp [Headers.storeNext, HeaderStack.append, hroom]

/-- Either the loop is over or its next round starts. -/
theorem follows_selectRemaining {k : Option State → Parser (Fault ErrorCode) Headers Unit}
    {q : Parser ErrorCode Headers Unit} {n : ℕ} (hn : hdr.remaining.toNat = n)
    (h : Follows BeforeIpv4 (k (if n = 0 then none else some .parseIntHeaders)) q ⟨bs, hdr⟩) :
    Follows BeforeIpv4 (selectRemaining >>= k) q ⟨bs, hdr⟩ := by
  rw [selectRemaining, Parser.bind_assoc]
  apply Follows.read
  simp only [hn, Parser.pure_bind]
  exact h

/-- The loop, by the number of records left: each round takes one of them, one element
of the stack and one unit of `meta.remaining`. -/
theorem follows_parseIntHeaders (n : ℕ) (hn : hdr.remaining.toNat = n)
    (hroom : hdr.intHeaders.valid.length + n ≤ maxIntHeaders) (hl : 4 * n ≤ bs.length) :
    Follows BeforeIpv4
      ((if n = 0 then none else some State.parseIntHeaders).elim Parser.accept
        (Parser.run (parserState packetLength) (fuel + n)))
      (parseIntHeaders n) ⟨bs, hdr⟩ := by
  induction n generalizing bs hdr with
  | zero => exact .accept
  | succ n ih =>
    have hlt : n + 1 < 2 ^ 16 := hn ▸ hdr.remaining.isLt
    obtain ⟨r, rest, hb⟩ : ∃ (r : IntHeader) (rest : _), bs = Header.encode r ++ rest :=
      Header.exists_encode_append (by rw [IntHeader.size]; omega)
    have hrest : bs.length = 4 + rest.length := by simp [hb]
    have hstored := storeNext_length (show hdr.intHeaders.valid.length < maxIntHeaders by omega) r
    have hleft : BitVec.ofInt 16 (((n + 1 : ℕ) : ℤ) - 1) = BitVec.ofNat 16 n := by
      apply BitVec.eq_of_toNat_eq
      rw [BitVec.toNat_ofInt, BitVec.toNat_ofNat]
      omega
    rw [if_neg (by omega)]
    show Follows _ (Parser.run _ (fuel + n + 1) State.parseIntHeaders) _ _
    rw [Parser.run_succ]
    simp only [parserState, parseIntHeaders, Parser.bind_assoc]
    apply Follows.lift (extractNext_run (by omega) hb)
    apply Follows.read
    show Follows _ (Parser.checked 16 ((hdr.remaining.toNat : ℤ) - 1) >>= _) _ _
    rw [hn]
    apply Follows.checked (by omega) (by omega)
    rw [hleft]
    apply Follows.assign
    have hcount : (Headers.setRemaining (BitVec.ofNat 16 n)
        (Headers.storeNext r hdr)).remaining.toNat = n := by
      show (BitVec.ofNat 16 n).toNat = n
      rw [BitVec.toNat_ofNat]
      omega
    apply follows_selectRemaining hcount
    apply ih hcount
    · show (Headers.storeNext r hdr).intHeaders.valid.length + n ≤ _
      omega
    · omega

/-- The first check bounds the count, without which the second could wrap. -/
theorem follows_verifyOption {option : Ipv4Option} {count : IntCount}
    {k : Unit → Parser (Fault ErrorCode) Headers Unit} {k' : Unit → Parser ErrorCode Headers Unit}
    (hip : hdr.ipv4 = some ip) (hi : 5 ≤ ip.ihl.toNat)
    (h : count.numSwitches.toNat ≤ maxIntHeaders →
      4 + 4 * count.numSwitches.toNat = 4 * (ip.ihl.toNat - 5) →
      Follows BeforeIpv4 (k ()) (k' ()) ⟨bs, hdr⟩) :
    Follows BeforeIpv4 (verifyOptionExact option count >>= k)
      (verifyOption ip.ihl option count >>= k') ⟨bs, hdr⟩ := by
  have hlt := ip.ihl.isLt
  have hoption := option.optionLength.isLt
  have harea : ((ip.ihl.setWidth 16 - 5) * 4 : BitVec 16).toNat = 4 * (ip.ihl.toNat - 5) := by
    rw [BitVec.toNat_mul, BitVec.toNat_sub, BitVec.toNat_setWidth]
    simp
    omega
  simp only [verifyOptionExact, verifyOption, Parser.bind_assoc]
  apply Follows.verify
  · rw [decide_eq_decide, BitVec.le_def]
    rfl
  intro hle
  have h9 : count.numSwitches.toNat ≤ 9 := BitVec.le_def.mp (of_decide_eq_true hle)
  have hlength : (4 + count.numSwitches.setWidth 8 * 4 : BitVec 8).toNat =
      4 + 4 * count.numSwitches.toNat := by
    rw [BitVec.toNat_add, BitVec.toNat_mul, BitVec.toNat_setWidth]
    simp
    omega
  apply Follows.checked (by omega) (by omega)
  apply Follows.checked (by omega) (by omega)
  apply Follows.checked (by omega) (by omega)
  apply Follows.verify
  · rw [decide_eq_decide, ← BitVec.toNat_inj, hlength]
    omega
  intro hlen
  rw [decide_eq_true_eq, ← BitVec.toNat_inj, hlength] at hlen
  apply Follows.valid hip
  apply Follows.checked (by omega) (by omega)
  apply Follows.checked (by omega) (by omega)
  apply Follows.checked (by omega) (by omega)
  apply Follows.checked (by omega) (by omega)
  apply Follows.verify
  · rw [decide_eq_decide, ← BitVec.toNat_inj, harea, BitVec.toNat_setWidth]
    omega
  intro hihl
  rw [decide_eq_true_eq, ← BitVec.toNat_inj, harea, BitVec.toNat_setWidth] at hihl
  exact h h9 (by omega)

theorem follows_parseIntOption (hip : hdr.ipv4 = some ip) (hi : 5 < ip.ihl.toNat)
    (hstack : hdr.intHeaders.valid.length = 0) (hl : 4 * (ip.ihl.toNat - 5) ≤ bs.length) :
    Follows BeforeIpv4 (Parser.run (parserState packetLength) (fuel + 10) .parseIntOption)
      (parseIntOption ip.ihl) ⟨bs, hdr⟩ := by
  rw [Parser.run_succ]
  simp only [parserState, parseIntOption, Parser.bind_assoc]
  apply Follows.extract
  · intro hs
    rw [Ipv4Option.size] at hs
    omega
  intro option rest hb
  have hrest : bs.length = 2 + rest.length := by simp [hb]
  apply Follows.extract
  · intro hs
    rw [IntCount.size] at hs
    omega
  intro count rest' hb'
  have hrest' : rest.length = 2 + rest'.length := by simp [hb']
  refine follows_verifyOption ?_ (by omega) ?_
  · exact hip
  intro hle harea
  unfold maxIntHeaders at hle
  apply Follows.assign
  refine follows_selectRemaining (n := count.numSwitches.toNat) ?_ ?_
  · rfl
  -- the records use as much of the fuel as there are
  obtain ⟨spare, hspare⟩ := Nat.exists_eq_add_of_le hle
  have hfuel : fuel + 9 = fuel + spare + count.numSwitches.toNat := by omega
  rw [hfuel]
  apply follows_parseIntHeaders
  · rfl
  · show hdr.intHeaders.valid.length + _ ≤ 9
    omega
  · omega

theorem follows_parseOptions (hip : hdr.ipv4 = some ip) (hi : 5 ≤ ip.ihl.toNat)
    (hl : 4 * (ip.ihl.toNat - 5) ≤ bs.length) :
    Follows BeforeIpv4 (Parser.run (parserState packetLength) (fuel + 1) .parseOptions)
      (parseOptions ip.ihl (fun data hdr => { hdr with options := some data }) Parser.accept)
      ⟨bs, hdr⟩ := by
  rw [Parser.run_succ]
  simp only [parserState, Parser.bind_assoc, Parser.pure_bind]
  apply Follows.valid hip
  apply follows_extractOptions hi hl
  intro data rest hb hd
  exact .accept

/-- More than five words of header: there is a byte to look at. -/
theorem follows_parseOptionType (hip : hdr.ipv4 = some ip) (hi : 5 < ip.ihl.toNat)
    (hstack : hdr.intHeaders.valid.length = 0) (hl : 4 * (ip.ihl.toNat - 5) ≤ bs.length) :
    Follows BeforeIpv4 (Parser.run (parserState packetLength) (fuel + 11) .parseOptionType)
      (parseOptionType ip.ihl) ⟨bs, hdr⟩ := by
  cases bs with
  | nil =>
    rw [List.length_nil] at hl
    omega
  | cons first bs =>
    rw [Parser.run_succ]
    simp only [parserState, parseOptionType, Parser.bind_assoc, Parser.pure_bind]
    apply Follows.lookahead
    apply Follows.assign
    apply Follows.read
    split_ifs
    · exact follows_parseIntOption hip hi hstack hl
    · exact follows_parseOptions hip (by omega) hl

theorem follows_parseIpv4 (port : Port) {packet : List Byte} (hip : hdr.ipv4 = none)
    (hstack : hdr.intHeaders.valid.length = 0) (hl : packet.length = 14 + bs.length) :
    Follows BeforeIpv4 (Parser.run (parserState (P4.packetLength packet)) (fuel + 12) .parseIpv4)
      (parseIpv4 (V1Switch.arrival port packet)) ⟨bs, hdr⟩ := by
  rw [Parser.run_succ]
  simp only [parserState, parseIpv4, Parser.bind_assoc, Parser.pure_bind]
  apply Follows.extract
  · exact fun _ => hip
  intro ip rest hb
  have hrest : bs.length = 20 + rest.length := by simp [hb]
  apply follows_verifyLengths (by omega)
  intro hok
  have hi := hok.five_le_ihl
  have hheader := hok.header_le
  have htotal := hok.total_le
  split_ifs with h5
  · exact .accept
  · have hne : ip.ihl.toNat ≠ 5 := fun h => h5 (BitVec.eq_of_toNat_eq h)
    exact follows_parseOptionType rfl (by omega) hstack (by omega)

/-- The telemetry length checks make everything behind them safe. -/
theorem router_safeParser (unset : IntHeader) (lpm : Table (BitVec 32) LpmAction)
    (intDefault : IntAction) :
    (router unset lpm intDefault).SafeParser parserState .start 13 BeforeIpv4 := by
  apply V1Switch.SafeParser.of_follows
  intro port packet fuel
  show Follows _ (Parser.run _ (fuel + 13) State.start) (myParser (V1Switch.arrival port packet))
    ⟨packet, {}⟩
  rw [Parser.run_succ]
  simp only [parserState, myParser, Parser.bind_assoc, Parser.pure_bind]
  apply Follows.extract
  · exact fun _ => rfl
  intro eth rest hp
  split_ifs
  · exact follows_parseIpv4 port rfl rfl (by simp [hp])
  · exact .accept

end P4Cases.Telemetry
