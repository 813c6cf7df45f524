import P4Cases.Target.V1Model

/-! Programs whose deparser undoes their parser. -/
namespace P4.V1Switch
open Wire
variable {ε H S : Type} (sw : V1Switch ε H S)

/-- The headers of a parsed packet, emitted in front of what was not parsed, are the
packet. -/
def Reproduces : Prop :=
  ∀ port packet payload hdr, sw.parse port packet = (.ok (), ⟨payload, hdr⟩) →
    sw.deparser hdr ++ payload = packet

/-- Every copy sent is the packet that was received. -/
def SendsUnchanged : Prop :=
  ∀ groups qdepth s port packet out frame,
    (out, frame) ∈ (sw.process groups qdepth s port packet).2 → frame = packet

/-- A program that writes no header, and drops what it could not parse. -/
structure PassesHeaders : Prop where
  ingress : ∀ s hdr sm, (sw.ingress s hdr sm).2.1 = hdr
  egress : ∀ hdr sm, (sw.egress hdr sm).1 = hdr
  computeChecksum : ∀ hdr, sw.computeChecksum hdr = hdr
  drops : ∀ s hdr sm, sm.parserError ≠ none →
    ∃ sm', (sw.ingress s hdr sm).2.2 = markToDrop sm'

variable {sw}

theorem PassesHeaders.sendsUnchanged (hp : sw.PassesHeaders) (hr : sw.Reproduces) :
    sw.SendsUnchanged := by
  intro groups qdepth s port packet out frame h
  obtain ⟨copy, hcopy, he⟩ := List.mem_filterMap.mp h
  rcases hparse : sw.parse port packet with ⟨e | u, payload, hdr⟩
  · have hne : (sw.parsedMetadata port packet).parserError ≠ none := by
      rw [parserError_of_parse hparse]
      simp
    obtain ⟨sm', hsm⟩ := hp.drops s (sw.parse port packet).2.hdr _ hne
    rw [runIngress, hsm, copies_markToDrop] at hcopy
    exact absurd hcopy List.not_mem_nil
  · simp only [emit] at he
    split_ifs at he
    have hframe := congrArg Prod.snd (Option.some.inj he)
    rw [hp.egress, hp.computeChecksum, runIngress, hp.ingress, hparse] at hframe
    exact hframe.symm.trans (hr port packet payload hdr hparse)

end P4.V1Switch
