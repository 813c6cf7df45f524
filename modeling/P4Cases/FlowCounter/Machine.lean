import P4Cases.FlowCounter.Switch
import P4Cases.Parsing.Ipv4

/-! The flow counter's parser, state by state, over the integers. -/
namespace P4Cases.FlowCounter
open Wire P4

inductive State where
  | start
  | parseIpv4
  | parseOptions
  | parseProtocol
  | parseUdp
  deriving DecidableEq, Repr

def parserState (packetLength : BitVec 32) :
    State → Parser (Fault ErrorCode) Headers (Option State)
  | .start => do
      let ethernet : Ethernet ← Parser.extract fun h hdr => { hdr with ethernet := some h }
      pure (if ethernet.etherType = typeIpv4 then some .parseIpv4 else none)
  | .parseIpv4 => do
      let ipv4 : Ipv4 ← Parser.extract fun h hdr => { hdr with ipv4 := some h }
      verifyLengthsExact .invalidIPv4Version .invalidIPv4Length ipv4.version ipv4.ihl
        ipv4.totalLen packetLength
      pure (if ipv4.ihl = 5 then some .parseProtocol else some .parseOptions)
  | .parseOptions => do
      let ipv4 ← Parser.valid Headers.ipv4
      extractOptions ipv4.ihl fun data hdr => { hdr with options := some data }
      pure (some .parseProtocol)
  | .parseProtocol => do
      let ipv4 ← Parser.valid Headers.ipv4
      pure (if ipv4.protocol = 17 ∧ ipv4.flags.extractLsb' 0 1 = 0 ∧ ipv4.fragOffset = 0
        then some .parseUdp else none)
  | .parseUdp => do
      let ipv4 ← Parser.valid Headers.ipv4
      let headerLen ← headerLength ipv4.ihl
      let least ← Parser.checked 16 (headerLen + 8)
      Parser.verify (ipv4.totalLen.toNat ≥ least) (.error .invalidUDPLength)
      let udp : Udp ← Parser.extract fun h hdr => { hdr with udp := some h }
      let headerLen ← headerLength ipv4.ihl
      let room ← Parser.checked 16 (ipv4.totalLen.toNat - headerLen)
      Parser.verify ((udp.length.toNat : ℤ) ≥ 8 ∧ udp.length.toNat ≤ room)
        (.error .invalidUDPLength)
      pure none

/-- No IPv4 header has been extracted yet. -/
def BeforeIpv4 (c : Cursor Headers) : Prop := c.hdr.ipv4 = none

variable {packetLength : BitVec 32} {bs : List Byte} {hdr : Headers} {ip : Ipv4} {fuel : ℕ}

/-- The subtraction in the second check is safe because of the first. -/
theorem follows_parseUdp (hip : hdr.ipv4 = some ip)
    (hl : ip.totalLen.toNat ≤ bs.length + 4 * ip.ihl.toNat) :
    Follows BeforeIpv4 (Parser.run (parserState packetLength) (fuel + 1) .parseUdp) (parseUdp ip)
      ⟨bs, hdr⟩ := by
  have hlt := ip.ihl.isLt
  have htotal := ip.totalLen.isLt
  have hadd : ip.totalLen ≥ ip.ihl.setWidth 16 * 4 + 8 ↔
      4 * ip.ihl.toNat + 8 ≤ ip.totalLen.toNat :=
    headerLen_add_le ip.ihl ip.totalLen (show 8 ≤ 1000 by omega)
  rw [Parser.run_succ]
  simp only [parserState, parseUdp, Parser.bind_assoc, Parser.pure_bind]
  apply Follows.valid hip
  apply follows_headerLength
  apply Follows.checked (by omega) (by omega)
  apply Follows.verify
  · rw [decide_eq_decide, hadd]
    omega
  intro hleast
  have h8 := hadd.mp (of_decide_eq_true hleast)
  have hroom : (ip.totalLen - ip.ihl.setWidth 16 * 4).toNat =
      ip.totalLen.toNat - 4 * ip.ihl.toNat := by
    rw [BitVec.toNat_sub_of_le, headerLen_toNat]
    rw [BitVec.le_def, headerLen_toNat]
    omega
  apply Follows.extract
  · intro hs
    rw [Udp.size] at hs
    omega
  intro udp rest hb
  apply follows_headerLength
  apply Follows.checked (by omega) (by omega)
  apply Follows.verify
  · rw [decide_eq_decide, ge_iff_le, ge_iff_le, BitVec.le_def, BitVec.le_def, hroom]
    show _ ↔ 8 ≤ udp.length.toNat ∧ _
    omega
  intro hlength
  exact .accept

theorem follows_parseProtocol (hip : hdr.ipv4 = some ip)
    (hl : ip.totalLen.toNat ≤ bs.length + 4 * ip.ihl.toNat) :
    Follows BeforeIpv4 (Parser.run (parserState packetLength) (fuel + 2) .parseProtocol)
      (parseProtocol ip) ⟨bs, hdr⟩ := by
  rw [Parser.run_succ]
  simp only [parserState, Parser.bind_assoc, Parser.pure_bind]
  apply Follows.valid hip
  unfold parseProtocol
  split_ifs
  · exact follows_parseUdp hip hl
  · exact .accept

theorem follows_parseOptions (hip : hdr.ipv4 = some ip) (hi : 5 ≤ ip.ihl.toNat)
    (hheader : 4 * ip.ihl.toNat ≤ ip.totalLen.toNat) (hl : ip.totalLen.toNat ≤ bs.length + 20) :
    Follows BeforeIpv4 (Parser.run (parserState packetLength) (fuel + 3) .parseOptions)
      (parseOptions ip.ihl (fun data hdr => { hdr with options := some data }) (parseProtocol ip))
      ⟨bs, hdr⟩ := by
  rw [Parser.run_succ]
  simp only [parserState, Parser.bind_assoc, Parser.pure_bind]
  apply Follows.valid hip
  apply follows_extractOptions hi (by omega)
  intro data rest hb hd
  have hrest : bs.length = data.length + rest.length := by simp [hb]
  exact follows_parseProtocol hip (by omega)

theorem follows_parseIpv4 (port : Port) {packet : List Byte} (hip : hdr.ipv4 = none)
    (hl : packet.length = 14 + bs.length) :
    Follows BeforeIpv4 (Parser.run (parserState (P4.packetLength packet)) (fuel + 4) .parseIpv4)
      (parseIpv4 (V1Switch.arrival port packet)) ⟨bs, hdr⟩ := by
  rw [Parser.run_succ]
  simp only [parserState, parseIpv4, Parser.bind_assoc, Parser.pure_bind]
  apply Follows.extract
  · exact fun _ => hip
  intro ip rest hb
  have hrest : bs.length = 20 + rest.length := by simp [hb]
  apply follows_verifyLengths (by omega)
  intro hok
  have hi := hok.five_le_ihl
  have hheader := hok.header_le
  have htotal := hok.total_le
  split_ifs with h5
  · have hihl : ip.ihl.toNat = 5 := congrArg BitVec.toNat h5
    exact follows_parseProtocol rfl (by omega)
  · exact follows_parseOptions rfl hi hheader (by omega)

/-- The counter's length checks make everything behind them safe. -/
theorem counter_safeParser : counter.SafeParser parserState .start 5 BeforeIpv4 := by
  apply V1Switch.SafeParser.of_follows
  intro port packet fuel
  show Follows _ (Parser.run _ (fuel + 5) State.start) (myParser (V1Switch.arrival port packet))
    ⟨packet, {}⟩
  rw [Parser.run_succ]
  simp only [parserState, myParser, Parser.bind_assoc, Parser.pure_bind]
  apply Follows.extract
  · exact fun _ => rfl
  intro eth rest hp
  split_ifs
  · exact follows_parseIpv4 port rfl (by simp [hp])
  · exact .accept

end P4Cases.FlowCounter
