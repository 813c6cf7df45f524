import P4Cases.Ecmp.Accepted
import P4Cases.Parsing.Ipv4

/-! The ECMP parser, state by state, over the integers. -/
namespace P4Cases.Ecmp
open Wire P4

inductive State where
  | start
  | parseIpv4
  | parseOptions
  | parseFragment
  | parseProtocol
  | parseUdp
  | parseTcp
  deriving DecidableEq, Repr

def Headers.setTransportLength (transportLength : BitVec 16) (hdr : Headers) : Headers :=
  { hdr with user := { hdr.user with transportLength } }

def Headers.transportLen (hdr : Headers) : BitVec 16 := hdr.user.transportLength

/-- `meta.transport_length`, read. -/
def transportLength : Parser (Fault ErrorCode) Headers ℤ :=
  Parser.read fun hdr => hdr.transportLen.toNat

def parserState (packetLength : BitVec 32) :
    State → Parser (Fault ErrorCode) Headers (Option State)
  | .start => do
      Parser.assign (Headers.setPorts 0 0)
      let ethernet : Ethernet ← Parser.extract fun h hdr => { hdr with ethernet := some h }
      pure (if ethernet.etherType = typeIpv4 then some .parseIpv4 else none)
  | .parseIpv4 => do
      let ipv4 : Ipv4 ← Parser.extract fun h hdr => { hdr with ipv4 := some h }
      verifyLengthsExact .invalidIPv4Version .invalidIPv4Length ipv4.version ipv4.ihl
        ipv4.totalLen packetLength
      let headerLen ← headerLength ipv4.ihl
      let rest ← Parser.checked 16 (ipv4.totalLen.toNat - headerLen)
      Parser.assign (Headers.setTransportLength (BitVec.ofInt 16 rest))
      pure (if ipv4.ihl = 5 then some .parseFragment else some .parseOptions)
  | .parseOptions => do
      let ipv4 ← Parser.valid Headers.ipv4
      extractOptions ipv4.ihl fun data hdr => { hdr with options := some data }
      pure (some .parseFragment)
  | .parseFragment => do
      let ipv4 ← Parser.valid Headers.ipv4
      pure (if ipv4.flags.extractLsb' 0 1 = 0 ∧ ipv4.fragOffset = 0 then some .parseProtocol
        else none)
  | .parseProtocol => do
      let ipv4 ← Parser.valid Headers.ipv4
      pure (if ipv4.protocol = 6 then some .parseTcp
        else if ipv4.protocol = 17 then some .parseUdp
        else none)
  | .parseUdp => do
      let len ← transportLength
      Parser.verify (len ≥ 8) (.error .invalidTransportLength)
      let udp : Udp ← Parser.extract fun h hdr => { hdr with udp := some h }
      let len ← transportLength
      Parser.verify ((udp.length.toNat : ℤ) ≥ 8 ∧ udp.length.toNat ≤ len)
        (.error .invalidTransportLength)
      Parser.assign (Headers.setPorts udp.srcPort udp.dstPort)
      pure none
  | .parseTcp => do
      let len ← transportLength
      Parser.verify (len ≥ 20) (.error .invalidTransportLength)
      let tcp : Tcp ← Parser.extract fun h hdr => { hdr with tcp := some h }
      let wide ← Parser.checked 16 tcp.dataOffset.toNat
      let offset ← Parser.checked 16 (wide * 4)
      let len ← transportLength
      Parser.verify ((tcp.dataOffset.toNat : ℤ) ≥ 5 ∧ offset ≤ len)
        (.error .invalidTransportLength)
      Parser.assign (Headers.setPorts tcp.srcPort tcp.dstPort)
      pure none

/-- No IPv4 header has been extracted yet. -/
def BeforeIpv4 (c : Cursor Headers) : Prop := c.hdr.ipv4 = none

variable {packetLength : BitVec 32} {bs : List Byte} {hdr : Headers} {ip : Ipv4} {fuel : ℕ}
  {len : BitVec 16}

theorem follows_transportLength {k : ℤ → Parser (Fault ErrorCode) Headers Unit}
    {q : Parser ErrorCode Headers Unit} (hlen : hdr.transportLen = len)
    (h : Follows BeforeIpv4 (k len.toNat) q ⟨bs, hdr⟩) :
    Follows BeforeIpv4 (transportLength >>= k) q ⟨bs, hdr⟩ := by
  apply Follows.read
  rw [hlen]
  exact h

theorem follows_parseUdp (hlen : hdr.transportLen = len) (hl : len.toNat ≤ bs.length) :
    Follows BeforeIpv4 (Parser.run (parserState packetLength) (fuel + 1) .parseUdp)
      (parseUdp len) ⟨bs, hdr⟩ := by
  rw [Parser.run_succ]
  simp only [parserState, parseUdp, Parser.bind_assoc, Parser.pure_bind]
  apply follows_transportLength hlen
  apply Follows.verify
  · rw [decide_eq_decide, ge_iff_le, ge_iff_le, BitVec.le_def]
    exact Int.ofNat_le
  intro h8
  have hleast : 8 ≤ len.toNat := BitVec.le_def.mp (of_decide_eq_true h8)
  apply Follows.extract
  · intro hs
    rw [Udp.size] at hs
    omega
  intro udp rest hb
  have hlen' : Headers.transportLen { hdr with udp := some udp } = len := hlen
  apply follows_transportLength hlen'
  apply Follows.verify
  · rw [decide_eq_decide, ge_iff_le, ge_iff_le, BitVec.le_def, BitVec.le_def]
    show _ ↔ 8 ≤ udp.length.toNat ∧ _
    omega
  intro hlength
  exact .assign_accept

theorem follows_parseTcp (hlen : hdr.transportLen = len) (hl : len.toNat ≤ bs.length) :
    Follows BeforeIpv4 (Parser.run (parserState packetLength) (fuel + 1) .parseTcp)
      (parseTcp len) ⟨bs, hdr⟩ := by
  rw [Parser.run_succ]
  simp only [parserState, parseTcp, Parser.bind_assoc, Parser.pure_bind]
  apply follows_transportLength hlen
  apply Follows.verify
  · rw [decide_eq_decide, ge_iff_le, ge_iff_le, BitVec.le_def]
    exact Int.ofNat_le
  intro h20
  have hleast : 20 ≤ len.toNat := BitVec.le_def.mp (of_decide_eq_true h20)
  apply Follows.extract
  · intro hs
    rw [Tcp.size] at hs
    omega
  intro tcp rest hb
  have hlt := tcp.dataOffset.isLt
  have hlen' : Headers.transportLen { hdr with tcp := some tcp } = len := hlen
  apply Follows.checked (by omega) (by omega)
  apply Follows.checked (by omega) (by omega)
  apply follows_transportLength hlen'
  apply Follows.verify
  · rw [decide_eq_decide, ge_iff_le, ge_iff_le, BitVec.le_def, BitVec.le_def, headerLen_toNat]
    show _ ↔ 5 ≤ tcp.dataOffset.toNat ∧ _
    omega
  intro hoffset
  exact .assign_accept

/-- All fragments stop before the transport; other packets hold what it needs. -/
theorem follows_parseFragment (hip : hdr.ipv4 = some ip) (hlen : hdr.transportLen = len)
    (hl : len.toNat ≤ bs.length) :
    Follows BeforeIpv4 (Parser.run (parserState packetLength) (fuel + 3) .parseFragment)
      (parseFragment ip len) ⟨bs, hdr⟩ := by
  rw [Parser.run_succ]
  simp only [parserState, Parser.bind_assoc, Parser.pure_bind]
  apply Follows.valid hip
  unfold parseFragment
  split_ifs
  · show Follows _ (Parser.run _ (fuel + 2) State.parseProtocol) _ _
    rw [Parser.run_succ]
    simp only [parserState, Parser.bind_assoc, Parser.pure_bind]
    apply Follows.valid hip
    unfold parseProtocol
    split_ifs
    · exact follows_parseTcp hlen hl
    · exact follows_parseUdp hlen hl
    · exact .accept
  · exact .accept

theorem follows_parseOptions (hip : hdr.ipv4 = some ip) (hlen : hdr.transportLen = len)
    (hi : 5 ≤ ip.ihl.toNat) (hl : len.toNat + 4 * (ip.ihl.toNat - 5) ≤ bs.length) :
    Follows BeforeIpv4 (Parser.run (parserState packetLength) (fuel + 4) .parseOptions)
      (parseOptions ip.ihl (fun data hdr => { hdr with options := some data })
        (parseFragment ip len)) ⟨bs, hdr⟩ := by
  rw [Parser.run_succ]
  simp only [parserState, Parser.bind_assoc, Parser.pure_bind]
  apply Follows.valid hip
  apply follows_extractOptions hi (by omega)
  intro data rest hb hd
  have hrest : bs.length = data.length + rest.length := by simp [hb]
  exact follows_parseFragment hip hlen (by omega)

theorem follows_parseIpv4 (port : Port) {packet : List Byte} (hip : hdr.ipv4 = none)
    (hl : packet.length = 14 + bs.length) :
    Follows BeforeIpv4 (Parser.run (parserState (P4.packetLength packet)) (fuel + 5) .parseIpv4)
      (parseIpv4 (V1Switch.arrival port packet)) ⟨bs, hdr⟩ := by
  rw [Parser.run_succ]
  simp only [parserState, parseIpv4, Parser.bind_assoc, Parser.pure_bind]
  apply Follows.extract
  · exact fun _ => hip
  intro ip rest hb
  have hrest : bs.length = 20 + rest.length := by simp [hb]
  apply follows_verifyLengths (by omega)
  intro hok
  have hi := hok.five_le_ihl
  have hheader := hok.header_le
  have htotal := hok.total_le
  have hlen := transportLength_toNat hheader
  have hlt := ip.totalLen.isLt
  unfold transportLen at hlen
  have hofInt : BitVec.ofInt 16 ((ip.totalLen.toNat : ℤ) - ip.ihl.toNat * 4) =
      ip.totalLen - ip.ihl.setWidth 16 * 4 := by
    apply BitVec.eq_of_toNat_eq
    rw [hlen, BitVec.toNat_ofInt]
    omega
  apply follows_headerLength
  apply Follows.checked (by omega) (by omega)
  rw [hofInt]
  apply Follows.assign
  split_ifs with h5
  · have hihl : ip.ihl.toNat = 5 := congrArg BitVec.toNat h5
    exact follows_parseFragment rfl rfl (by omega)
  · exact follows_parseOptions rfl rfl hi (by omega)

/-- The ECMP length checks make everything behind them safe. -/
theorem router_safeParser (lpm : Table (BitVec 32) LpmAction)
    (nhop : Table (BitVec 14) NhopAction) :
    (router lpm nhop).SafeParser parserState .start 6 BeforeIpv4 := by
  apply V1Switch.SafeParser.of_follows
  intro port packet fuel
  show Follows _ (Parser.run _ (fuel + 6) State.start) (myParser (V1Switch.arrival port packet))
    ⟨packet, {}⟩
  rw [Parser.run_succ]
  simp only [parserState, myParser, Parser.bind_assoc, Parser.pure_bind]
  apply Follows.assign
  apply Follows.extract
  · exact fun _ => rfl
  intro eth rest hp
  split_ifs
  · exact follows_parseIpv4 port rfl (by simp [hp])
  · exact .accept

end P4Cases.Ecmp
