import P4Cases.Ecmp.Delivery
import P4Cases.Telemetry.Delivery

/-! The delivery checks of the two routed networks decide, for any capture, whether it is the
one a correct network leads to. -/
namespace P4Cases
open Wire Matching

theorem Ecmp.Arrived.perm {probes : List Ecmp.Probe} {received received' : Received Ecmp.Host}
    (hp : (captured received).Perm (captured received')) {protocol : ℕ} {host : Ecmp.Host}
    (h : Ecmp.Arrived probes received protocol host) :
    Ecmp.Arrived probes received' protocol host := by
  obtain ⟨item, hitem, hf, frame, hc, hi⟩ := h
  exact ⟨item, hitem, hf, frame, hp.mem_iff.mp hc, hi⟩

theorem Ecmp.balanced_congr {probes : List Ecmp.Probe} {received received' : Received Ecmp.Host}
    (hp : (captured received).Perm (captured received')) :
    Ecmp.Balanced probes received ↔ Ecmp.Balanced probes received' := by
  have hiff : ∀ protocol host, Ecmp.Arrived probes received protocol host ↔
      Ecmp.Arrived probes received' protocol host :=
    fun protocol host => ⟨fun h => h.perm hp, fun h => h.perm hp.symm⟩
  unfold Ecmp.Balanced
  simp only [hiff]

/-- The checks of both networks pass on exactly the captures that match the packets that are
to arrive, in whatever order the frames were captured: no frame is lost, duplicated, at
another host, altered or let through. -/
theorem deliveries_checked :
    (∀ probes : List Telemetry.Probe,
      (probes.map fun item => Telemetry.sourceOf item.frame).Nodup →
      (∀ received, FromAll received → (Telemetry.checkDelivery probes received = .ok () ↔
        Matched Telemetry.Delivers (probes.filter Telemetry.Probe.allowed) (captured received))) ∧
      ∀ received received', FromAll received → FromAll received' →
        (captured received).Perm (captured received') →
        (Telemetry.checkDelivery probes received = .ok () ↔
          Telemetry.checkDelivery probes received' = .ok ())) ∧
    ∀ probes : List Ecmp.Probe, Ecmp.Sendable probes →
      (∀ received, FromAll received → (Ecmp.checkDelivery probes received = .ok () ↔
        ((probes.filter Ecmp.Probe.allowed).map Ecmp.Probe.delivery).Perm
          ((captured received).map fun capture => (some capture.1, .ok capture.2)) ∧
        Ecmp.Balanced probes received)) ∧
      ∀ received received', FromAll received → FromAll received' →
        (captured received).Perm (captured received') →
        (Ecmp.checkDelivery probes received = .ok () ↔
          Ecmp.checkDelivery probes received' = .ok ()) := by
  refine ⟨fun probes hn => ⟨?_, ?_⟩, fun probes h => ⟨?_, ?_⟩⟩
  · intro received hall
    rw [Telemetry.checkDelivery_ok hn]
    exact and_iff_right hall
  · intro received received' hall hall' hp
    rw [Telemetry.checkDelivery_ok hn, Telemetry.checkDelivery_ok hn, matched_congr hp]
    exact and_congr_left fun _ => iff_of_true hall hall'
  · intro received hall
    rw [Ecmp.checkDelivery_ok h, ← matched_map]
    exact and_iff_right hall
  · intro received received' hall hall' hp
    rw [Ecmp.checkDelivery_ok h, Ecmp.checkDelivery_ok h, matched_congr hp, Ecmp.balanced_congr hp]
    exact and_congr_left fun _ => iff_of_true hall hall'

end P4Cases
