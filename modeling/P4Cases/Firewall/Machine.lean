import P4Cases.Firewall.Switch
import P4Cases.Parsing.Ipv4

/-! The firewall's parser, state by state, over the integers. -/
namespace P4Cases.Firewall
open Wire P4

inductive State where
  | start
  | parseIpv4
  | parseOptions
  | parseProtocol
  | parseTcp
  | parseUdp
  | parseL4
  deriving DecidableEq, Repr

/-- `hdr.ipv4.totalLen >= (bit<16>)hdr.ipv4.ihl * 4 + least`. -/
def verifyTransport (least : ℕ) : Parser (Fault ErrorCode) Headers Unit := do
  let ipv4 ← Parser.valid Headers.ipv4
  let headerLen ← headerLength ipv4.ihl
  let total ← Parser.checked 16 (headerLen + least)
  Parser.verify (ipv4.totalLen.toNat ≥ total) (.error .invalidIPv4Length)

def parserState (packetLength : BitVec 32) :
    State → Parser (Fault ErrorCode) Headers (Option State)
  | .start => do
      let ethernet : Ethernet ← Parser.extract fun h hdr => { hdr with ethernet := some h }
      pure (if ethernet.etherType = typeIpv4 then some .parseIpv4 else none)
  | .parseIpv4 => do
      let ipv4 : Ipv4 ← Parser.extract fun h hdr => { hdr with ipv4 := some h }
      verifyLengthsExact .invalidIPv4Version .invalidIPv4Length ipv4.version ipv4.ihl
        ipv4.totalLen packetLength
      Parser.verify (ipv4.fragOffset = 0 ∧ ipv4.flags.extractLsb' 0 1 = 0) (.error .ipv4Fragment)
      pure (if ipv4.ihl = 5 then some .parseProtocol else some .parseOptions)
  | .parseOptions => do
      let ipv4 ← Parser.valid Headers.ipv4
      extractOptions ipv4.ihl fun data hdr => { hdr with options := some data }
      pure (some .parseProtocol)
  | .parseProtocol => do
      let ipv4 ← Parser.valid Headers.ipv4
      pure (if ipv4.protocol = 6 then some .parseTcp
        else if ipv4.protocol = 17 then some .parseUdp
        else none)
  | .parseTcp => do
      verifyTransport 20
      pure (some .parseL4)
  | .parseUdp => do
      verifyTransport 8
      pure (some .parseL4)
  | .parseL4 => do
      let _ : L4Ports ← Parser.extract fun h hdr => { hdr with l4 := some h }
      pure none

/-- No IPv4 header has been extracted yet. -/
def BeforeIpv4 (c : Cursor Headers) : Prop := c.hdr.ipv4 = none

variable {packetLength : BitVec 32} {bs : List Byte} {hdr : Headers} {ip : Ipv4} {fuel : ℕ}

theorem follows_parseL4 (hl : 4 ≤ bs.length) :
    Follows BeforeIpv4 (Parser.run (parserState packetLength) (fuel + 1) .parseL4) parseL4
      ⟨bs, hdr⟩ := by
  simp only [Parser.run_succ, parserState, parseL4, Parser.bind_assoc, Parser.pure_bind]
  apply Follows.extract
  · intro hs
    rw [L4Ports.size] at hs
    omega
  intro ports rest hb
  exact .accept

theorem follows_verifyTransport (least : ℕ) (hleast : least ≤ 20) (hip : hdr.ipv4 = some ip)
    {k : Unit → Parser (Fault ErrorCode) Headers Unit} {k' : Unit → Parser ErrorCode Headers Unit}
    (h : 4 * ip.ihl.toNat + least ≤ ip.totalLen.toNat →
      Follows BeforeIpv4 (k ()) (k' ()) ⟨bs, hdr⟩) :
    Follows BeforeIpv4 (verifyTransport least >>= k)
      (Parser.verify (ip.totalLen ≥ ip.ihl.setWidth 16 * 4 + BitVec.ofNat 16 least)
        .invalidIPv4Length >>= k') ⟨bs, hdr⟩ := by
  have hlt := ip.ihl.isLt
  have hadd := headerLen_add_le ip.ihl ip.totalLen (show least ≤ 1000 by omega)
  simp only [verifyTransport, Parser.bind_assoc]
  apply Follows.valid hip
  apply follows_headerLength
  apply Follows.checked (by omega) (by omega)
  apply Follows.verify
  · rw [decide_eq_decide, hadd]
    omega
  intro hv
  exact h (hadd.mp (of_decide_eq_true hv))

theorem follows_parseTcp (hip : hdr.ipv4 = some ip)
    (hl : ip.totalLen.toNat ≤ bs.length + 4 * ip.ihl.toNat) :
    Follows BeforeIpv4 (Parser.run (parserState packetLength) (fuel + 2) .parseTcp) (parseTcp ip)
      ⟨bs, hdr⟩ := by
  rw [Parser.run_succ]
  simp only [parserState, parseTcp, Parser.bind_assoc, Parser.pure_bind]
  apply follows_verifyTransport 20 (by omega) hip
  intro hv
  exact follows_parseL4 (by omega)

theorem follows_parseUdp (hip : hdr.ipv4 = some ip)
    (hl : ip.totalLen.toNat ≤ bs.length + 4 * ip.ihl.toNat) :
    Follows BeforeIpv4 (Parser.run (parserState packetLength) (fuel + 2) .parseUdp) (parseUdp ip)
      ⟨bs, hdr⟩ := by
  rw [Parser.run_succ]
  simp only [parserState, parseUdp, Parser.bind_assoc, Parser.pure_bind]
  apply follows_verifyTransport 8 (by omega) hip
  intro hv
  exact follows_parseL4 (by omega)

theorem follows_parseProtocol (hip : hdr.ipv4 = some ip)
    (hl : ip.totalLen.toNat ≤ bs.length + 4 * ip.ihl.toNat) :
    Follows BeforeIpv4 (Parser.run (parserState packetLength) (fuel + 3) .parseProtocol)
      (parseProtocol ip) ⟨bs, hdr⟩ := by
  rw [Parser.run_succ]
  simp only [parserState, Parser.bind_assoc, Parser.pure_bind]
  apply Follows.valid hip
  unfold parseProtocol
  split_ifs
  · exact follows_parseTcp hip hl
  · exact follows_parseUdp hip hl
  · exact .accept

/-- `parse_options` skips what the header has left before the transport. -/
theorem follows_parseOptions (hip : hdr.ipv4 = some ip) (hi : 5 ≤ ip.ihl.toNat)
    (hheader : 4 * ip.ihl.toNat ≤ ip.totalLen.toNat) (hl : ip.totalLen.toNat ≤ bs.length + 20) :
    Follows BeforeIpv4 (Parser.run (parserState packetLength) (fuel + 4) .parseOptions)
      (parseOptions ip.ihl (fun data hdr => { hdr with options := some data }) (parseProtocol ip))
      ⟨bs, hdr⟩ := by
  rw [Parser.run_succ]
  simp only [parserState, Parser.bind_assoc, Parser.pure_bind]
  apply Follows.valid hip
  apply follows_extractOptions hi (by omega)
  intro data rest hb hd
  have hrest : bs.length = data.length + rest.length := by simp [hb]
  exact follows_parseProtocol hip (by omega)

theorem follows_parseIpv4 (port : Port) {packet : List Byte} (hip : hdr.ipv4 = none)
    (hl : packet.length = 14 + bs.length) :
    Follows BeforeIpv4 (Parser.run (parserState (P4.packetLength packet)) (fuel + 5) .parseIpv4)
      (parseIpv4 (V1Switch.arrival port packet)) ⟨bs, hdr⟩ := by
  rw [Parser.run_succ]
  simp only [parserState, parseIpv4, Parser.bind_assoc, Parser.pure_bind]
  apply Follows.extract
  · exact fun _ => hip
  intro ip rest hb
  have hrest : bs.length = 20 + rest.length := by simp [hb]
  apply follows_verifyLengths (by omega)
  intro hok
  have hi := hok.five_le_ihl
  have hheader := hok.header_le
  have htotal := hok.total_le
  apply Follows.verify rfl
  intro hfragment
  split_ifs with h5
  · have hihl : ip.ihl.toNat = 5 := congrArg BitVec.toNat h5
    exact follows_parseProtocol rfl (by omega)
  · exact follows_parseOptions rfl hi hheader (by omega)

/-- The firewall's length checks make everything behind them safe. -/
theorem firewall_safeParser (dmac : Table (BitVec 48) DmacAction) (acl : Table AclKey AclAction)
    (unset : BitVec 16) : (firewall dmac acl unset).SafeParser parserState .start 6 BeforeIpv4 := by
  apply V1Switch.SafeParser.of_follows
  intro port packet fuel
  show Follows _ (Parser.run _ (fuel + 6) State.start) (myParser (V1Switch.arrival port packet))
    ⟨packet, {}⟩
  rw [Parser.run_succ]
  simp only [parserState, myParser, Parser.bind_assoc, Parser.pure_bind]
  apply Follows.extract
  · exact fun _ => rfl
  intro eth rest hp
  split_ifs
  · exact follows_parseIpv4 port rfl (by simp [hp])
  · exact .accept

end P4Cases.Firewall
