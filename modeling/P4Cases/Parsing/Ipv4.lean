import P4Cases.Target.Machine
import P4Cases.Frames.Ipv4

/-! The states the IPv4 programs have in common, over the integers. -/
namespace P4Cases
open Wire P4

section
variable {ε H : Type}

/-- `(bit<16>)hdr.ipv4.ihl * 4`. -/
def headerLength (ihl : BitVec 4) : Parser (Fault ε) H ℤ := do
  let wide ← Parser.checked 16 ihl.toNat
  Parser.checked 16 (wide * 4)

/-- The four checks every `parse_ipv4` makes. -/
def verifyLengthsExact (badVersion badLength : ε) (version ihl : BitVec 4) (totalLen : BitVec 16)
    (packetLength : BitVec 32) : Parser (Fault ε) H Unit := do
  Parser.verify ((version.toNat : ℤ) = 4) (.error badVersion)
  Parser.verify ((ihl.toNat : ℤ) ≥ 5) (.error badLength)
  let headerLen ← headerLength ihl
  Parser.verify (totalLen.toNat ≥ headerLen) (.error badLength)
  let total ← Parser.checked 32 totalLen.toNat
  let room ← Parser.checked 32 (packetLength.toNat - 14)
  Parser.verify (total ≤ room) (.error badLength)

/-- `packet.extract(hdr.options, ((bit<32>)hdr.ipv4.ihl - 5) * 32)`. -/
def extractOptions (ihl : BitVec 4) (set : List Byte → H → H) : Parser (Fault ε) H Unit := do
  let wide ← Parser.checked 32 ihl.toNat
  let words ← Parser.checked 32 (wide - 5)
  let size ← Parser.checked 32 (words * 32)
  Parser.extractVarbit 320 size.toNat set

end

section
variable {ε H β : Type} {short : Cursor H → Prop} {c : Cursor H} {ihl : BitVec 4}

/-- The header length is four times `ihl`. -/
theorem follows_headerLength {k : ℤ → Parser (Fault ε) H β} {q : Parser ε H β}
    (h : Follows short (k (ihl.toNat * 4)) q c) :
    Follows short (headerLength ihl >>= k) q c := by
  have hlt := ihl.isLt
  rw [headerLength, Parser.bind_assoc]
  apply Follows.checked (by omega) (by omega)
  exact Follows.checked (by omega) (by omega) h

theorem follows_verifyLengths {badVersion badLength : ε} {version : BitVec 4}
    {totalLen : BitVec 16} {packet : List Byte} {k : Unit → Parser (Fault ε) H β}
    {k' : Unit → Parser ε H β} (hp : 14 ≤ packet.length)
    (h : LengthsOk version ihl totalLen packet.length → Follows short (k ()) (k' ()) c) :
    Follows short
      (verifyLengthsExact badVersion badLength version ihl totalLen (packetLength packet) >>= k)
      (verifyLengths badVersion badLength version ihl totalLen (packetLength packet) >>= k') c := by
  have hlt := totalLen.isLt
  have hlen := packetLength_toNat packet
  have hroom := le_packetLength_sub 14 hp (by omega) totalLen
  simp only [verifyLengthsExact, verifyLengths, Parser.bind_assoc]
  apply Follows.verify
  · rw [decide_eq_decide, ← BitVec.toNat_inj]
    exact Int.ofNat_inj
  intro hversion
  apply Follows.verify
  · rw [decide_eq_decide, ge_iff_le, ge_iff_le, BitVec.le_def]
    exact Int.ofNat_le
  intro hihl
  apply follows_headerLength
  apply Follows.verify
  · rw [decide_eq_decide, ge_iff_le, ge_iff_le, BitVec.le_def, headerLen_toNat]
    omega
  intro hheader
  apply Follows.checked (by omega) (by omega)
  apply Follows.checked (by omega) (by omega)
  apply Follows.verify
  · rw [decide_eq_decide]
    refine Iff.trans ?_ hroom.symm
    omega
  intro htotal
  rw [decide_eq_true_eq] at hversion hihl hheader htotal
  rw [ge_iff_le, BitVec.le_def] at hihl hheader
  rw [headerLen_toNat] at hheader
  exact h ⟨hversion, hihl, hheader, hroom.mp htotal⟩

/-- Behind the checks the options are in the packet, and no longer than the header
type allows. -/
theorem follows_extractOptions {set : List Byte → H → H} {k : Unit → Parser (Fault ε) H Unit}
    {next : Parser ε H Unit} {bs : List Byte} {hdr : H} (hi : 5 ≤ ihl.toNat)
    (hl : 4 * (ihl.toNat - 5) ≤ bs.length)
    (h : ∀ data rest, bs = data ++ rest → data.length = 4 * (ihl.toNat - 5) →
      Follows short (k ()) next ⟨rest, set data hdr⟩) :
    Follows short (extractOptions ihl set >>= k) (parseOptions ihl set next) ⟨bs, hdr⟩ := by
  have hlt := ihl.isLt
  have hbits : (((ihl.toNat : ℤ) - 5) * 32).toNat = 32 * (ihl.toNat - 5) := by omega
  simp only [extractOptions, parseOptions, Parser.bind_assoc]
  apply Follows.checked (by omega) (by omega)
  apply Follows.checked (by omega) (by omega)
  apply Follows.checked (by omega) (by omega)
  rw [hbits, optionBits_toNat hi]
  apply Follows.extractVarbit (by omega) (by omega) (by omega)
  intro data rest hb hd
  exact h data rest hb (by omega)

end
end P4Cases
