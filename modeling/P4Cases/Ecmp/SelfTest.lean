import P4Cases.Ecmp.Framed
import P4Cases.Frames.Crc

/-! The ECMP self-test accepts a correct router: its packets have different identities, and
among its flows are two that the hash sends to different members. -/
namespace P4Cases.Ecmp
open Wire Matching

/-- What `add` needs of its arguments, apart from addresses and changes. -/
def ProbeArgs.InRange (a : ProbeArgs) : Prop :=
  (a.options.length % 4 = 0 ∧ a.options.length ≤ 40) ∧
    (a.tcpOptions.length % 4 = 0 ∧ a.tcpOptions.length ≤ 40) ∧
    (0 ≤ a.payloadSize ∧ a.payloadSize ≤ 1500) ∧ (0 ≤ a.protocol ∧ a.protocol < 256) ∧
    (0 ≤ a.sport ∧ a.sport < 65536) ∧ (0 ≤ a.dport ∧ a.dport < 65536) ∧
    (0 ≤ a.ttl ∧ a.ttl < 256) ∧ (0 ≤ a.flags ∧ a.flags < 65536) ∧
    (∀ bytes ∈ a.transport, bytes.length ≤ 2000) ∧
    (a.allowed = true → a.transform.isNone = true ∧ a.destination.toNat >>> 8 = 0x0a0000 ∧
      1 ≤ a.ttl) ∧
    (a.destination.toNat ≠ 0x0a000001 ∨
      ∀ protocol ∈ protocols, ¬ s!"ecmp-{protocol}-".toList <+: a.name.toList)

instance (a : ProbeArgs) : Decidable a.InRange := inferInstanceAs (Decidable (_ ∧ _))

structure ProbeArgs.Fits (prefixBytes : List Byte) (a : ProbeArgs) : Prop where
  inRange : a.InRange
  source : (a.sourceBytes prefixBytes).length = 4
  identification : ∀ n ∈ a.identification, 0 ≤ n ∧ n < 65536
  keeps : ∀ transform ∈ a.transform, Keeps transform

theorem ProbeArgs.Fits.frameArgs {prefixBytes : List Byte} {a : ProbeArgs} (h : a.Fits prefixBytes)
    {number : ℕ} (hn : number < 65536) : (a.frameArgs prefixBytes number).Fits := by
  obtain ⟨ho, ht, hp, hproto, hs, hd, httl, hf, hb, -⟩ := h.inRange
  refine ⟨h.source, ho, ht, hp, ?_, hproto, hs, hd, httl, hf, fun bytes hbytes => hb bytes hbytes⟩
  unfold ProbeArgs.frameArgs
  dsimp only
  cases hid : a.identification with
  | none =>
    rw [Option.getD_none]
    omega
  | some n => exact h.identification n hid

/-- The member that the hash of a packet with ports selects. -/
def ProbeArgs.member (prefixBytes : List Byte) (a : ProbeArgs) : Host :=
  if crc16 (a.sourceBytes prefixBytes ++ (beBytes 4 a.destination.toNat ++
    beBytes 1 a.protocol.toNat) ++ (beBytes 2 a.sport.toNat ++ beBytes 2 a.dport.toNat)) % 2 = 0
  then .h2 else .h3

/-- A packet whose ports the switch hashes. -/
def ProbeArgs.Hashed (a : ProbeArgs) : Prop :=
  a.allowed = true ∧ a.destination = 0x0a000064 ∧ a.transport = none ∧
    (a.protocol = 17 ∨ a.protocol = 6) ∧ a.flags = 0

/-- Where a packet that is to arrive is expected, and that it is expected as some frame. -/
def Probe.Routed (item : Probe) (host : Host) : Prop :=
  item.receiver = some host ∧ expectedHost item.frame = .ok host ∧
    ∃ frame, expectedFrame item.frame (some host) = .ok frame

/-- What a probe is to the check. -/
structure Probe.Ok (item : Probe) : Prop where
  complete : 30 ≤ item.frame.length
  routed : item.allowed = true → ∃ host, item.Routed host
  member : item.allowed = true → ∀ protocol ∈ protocols, item.Flow protocol →
    item.receiver = some .h2 ∨ item.receiver = some .h3

/-- What `add` appends. -/
structure Added (prefixBytes : List Byte) (number : ℕ) (a : ProbeArgs) (item : Probe) : Prop where
  name : item.name = a.name
  allowed : item.allowed = a.allowed
  ok : item.Ok
  identity : identityOf item.frame = beBytes 2 (a.identification.getD number).toNat ++
    (beBytes 2 a.flags.toNat ++ a.sourceBytes prefixBytes)
  hashed : a.Hashed → item.receiver = some (a.member prefixBytes)

section
variable {prefixBytes : List Byte} {probes : List Probe} {a : ProbeArgs}

theorem add_eq {frame changed : List Byte} {receiver : Option Host}
    (hf : makeFrame (a.frameArgs prefixBytes (probes.length + 1)) = .ok frame)
    (hc : a.change frame = .ok changed) (hr : a.receiver changed = .ok receiver) :
    add prefixBytes probes a =
      .ok (probes ++ [⟨a.name, a.sender, receiver, a.allowed, changed⟩]) := by
  rw [add, hf, py_ok_bind, hc, py_ok_bind, hr]
  rfl

theorem add_total (probes : List Probe) (h : a.Fits prefixBytes) (hn : probes.length + 1 < 65536) :
    ∃ item, add prefixBytes probes a = .ok (probes ++ [item]) ∧
      Added prefixBytes (probes.length + 1) a item := by
  obtain ⟨-, -, -, -, -, -, -, -, -, hroute, hname⟩ := h.inRange
  obtain ⟨frame, hframe⟩ := makeFrame_total (h.frameArgs hn)
  obtain ⟨eth, ip, rest, hf⟩ := makeFrame_framed hframe
  have hlong := hf.long
  by_cases ha : a.allowed = true
  · obtain ⟨hnone, hd, httl⟩ := hroute ha
    obtain ⟨host, hhost, hmember⟩ := hf.exists_expectedHost hd
    have hchange : a.change frame = .ok frame := by
      rw [ProbeArgs.change, Option.isNone_iff_eq_none.mp hnone]
    have hreceiver : a.receiver frame = .ok (some host) := by
      rw [ProbeArgs.receiver, if_pos ha, hhost]
      rfl
    refine ⟨_, add_eq hframe hchange hreceiver, rfl, rfl, ⟨by dsimp only; omega, fun _ =>
      ⟨host, rfl, hhost, hf.exists_expectedFrame httl host⟩, fun _ protocol hp hflow => ?_⟩,
      hf.identityOf_eq, ?_⟩
    · rcases hname with hne | hno
      · exact (hmember hne).imp (congrArg some) (congrArg some)
      · exact absurd hflow (hno protocol hp)
    · intro hhashed
      obtain ⟨-, htarget, htransport, hproto, hflags⟩ := hhashed
      have heq := hf.expectedHost_eq hd (hf.hashInput_eq htransport hproto hflags)
      have hdestination : (a.frameArgs prefixBytes (probes.length + 1)).destination = 0x0a000064 :=
        htarget
      rw [hdestination, if_neg (by decide), if_neg (by decide), if_neg (by decide)] at heq
      rw [Except.ok.inj (hhost.symm.trans heq), ProbeArgs.member, htarget]
      rfl
  · have hallowed : a.allowed = false := eq_false_of_ne_true ha
    obtain ⟨changed, hchange, hcomplete, hid⟩ : ∃ changed, a.change frame = .ok changed ∧
        30 ≤ changed.length ∧ identityOf changed = identityOf frame := by
      cases ht : a.transform with
      | none => exact ⟨frame, by rw [ProbeArgs.change, ht], by omega, rfl⟩
      | some transform =>
        obtain ⟨changed, hc⟩ := h.keeps transform ht frame hlong
        exact ⟨changed, by rw [ProbeArgs.change, ht]; exact hc.1, hc.2⟩
    have hreceiver : a.receiver changed = .ok none := by
      rw [ProbeArgs.receiver, if_neg ha]
    refine ⟨_, add_eq hframe hchange hreceiver, rfl, rfl, ⟨hcomplete, ?_, ?_⟩, ?_, ?_⟩
    · exact fun hallowed => absurd hallowed ha
    · exact fun hallowed => absurd hallowed ha
    · exact hid.trans hf.identityOf_eq
    · exact fun hhashed => absurd hhashed.1 ha

/-! Building the list. -/

/-- The identification in the identity of a probe. -/
def Probe.number (item : Probe) : ℕ := beNat ((identityOf item.frame).take 2)

/-- The packets built so far: each can be checked, and no two have the same identity, since
the identifications count them. -/
structure Good (probes : List Probe) : Prop where
  ok : ∀ item ∈ probes, item.Ok
  numbered : ∀ item ∈ probes, item.number ≤ probes.length
  distinct : (probes.map fun item => identityOf item.frame).Nodup

theorem Good.append {news : List Probe} (h : Good probes) (hok : ∀ item ∈ news, item.Ok)
    (hnum : ∀ item ∈ news, probes.length < item.number ∧
      item.number ≤ probes.length + news.length)
    (hd : (news.map fun item => identityOf item.frame).Nodup) : Good (probes ++ news) where
  ok item hitem := (List.mem_append.mp hitem).elim (h.ok item) (hok item)
  numbered item hitem := by
    rw [List.length_append]
    rcases List.mem_append.mp hitem with hitem | hitem
    · have hle := h.numbered item hitem
      omega
    · exact (hnum item hitem).2
  distinct := by
    rw [List.map_append]
    refine List.Nodup.append h.distinct hd fun key hold hnew => ?_
    obtain ⟨item, hitem, rfl⟩ := List.mem_map.mp hold
    obtain ⟨item', hitem', he⟩ := List.mem_map.mp hnew
    have hle := h.numbered item hitem
    have hlt := (hnum item' hitem').1
    have hsame : item'.number = item.number := by
      unfold Probe.number
      rw [he]
    omega

theorem Added.number {number : ℕ} {item : Probe} (h : Added prefixBytes number a item)
    (hn : (a.identification.getD number).toNat < 65536) :
    item.number = (a.identification.getD number).toNat := by
  rw [Probe.number, h.identity, List.take_left' (beBytes_length 2 _), beNat_beBytes_of_lt hn]

/-- A longer list of packets. -/
structure Extends (n : ℕ) (probes probes' : List Probe) : Prop where
  good : Good probes'
  length : probes'.length = probes.length + n
  kept : ∀ item ∈ probes, item ∈ probes'

theorem Extends.trans {m n : ℕ} {probes₁ probes₂ probes₃ : List Probe}
    (h : Extends m probes₁ probes₂) (h' : Extends n probes₂ probes₃) :
    Extends (m + n) probes₁ probes₃ where
  good := h'.good
  length := by
    rw [h'.length, h.length]
    omega
  kept item hitem := h'.kept item (h.kept item hitem)

/-- A group of packets with identifications of their own. -/
theorem addAll_total {args : List ProbeArgs} (hg : Good probes)
    (hfits : ∀ a ∈ args, a.Fits prefixBytes ∧ a.identification = none)
    (hn : probes.length + args.length < 65536) :
    ∃ probes', args.foldlM (add prefixBytes) probes = .ok probes' ∧
      Extends args.length probes probes' ∧
      ∀ a ∈ args, ∃ item ∈ probes', ∃ number, Added prefixBytes number a item := by
  induction args generalizing probes with
  | nil => exact ⟨probes, rfl, ⟨hg, rfl, fun _ h => h⟩, by simp⟩
  | cons a args ih =>
    rw [List.forall_mem_cons] at hfits
    obtain ⟨⟨hfit, hnone⟩, hfits⟩ := hfits
    rw [List.length_cons] at hn ⊢
    obtain ⟨item, hadd, hitem⟩ := add_total probes hfit (by omega)
    have hnum : item.number = probes.length + 1 := by
      have hnumber := hitem.number (by
        rw [hnone, Option.getD_none]
        omega)
      rw [hnone, Option.getD_none] at hnumber
      omega
    have hgood : Good (probes ++ [item]) := by
      refine hg.append ?_ ?_ (by simp)
      · simpa using hitem.ok
      · simp [hnum]
    have hone : Extends 1 probes (probes ++ [item]) :=
      ⟨hgood, by simp, fun _ h => List.mem_append_left _ h⟩
    obtain ⟨probes', hrun, hext, hall⟩ := ih hgood hfits (by
      rw [hone.length]
      omega)
    refine ⟨probes', ?_, ?_, ?_⟩
    · rw [List.foldlM_cons, hadd, py_ok_bind, hrun]
    · rw [Nat.add_comm]
      exact hone.trans hext
    · rw [List.forall_mem_cons]
      exact ⟨⟨item, hext.kept item (by simp), _, hitem⟩, hall⟩

theorem sourceBytes_length {source : List Byte} (hp : prefixBytes.length = 3)
    (hs : a.source = source) (h : source = [] ∨ source.length = 4) :
    (a.sourceBytes prefixBytes).length = 4 := by
  rw [ProbeArgs.sourceBytes, hs]
  split_ifs with hnil
  · simp [hp]
  · exact h.resolve_left hnil

theorem fragmentProbe_fits (hp : prefixBytes.length = 3) {protocol : ℕ}
    (hproto : protocol ∈ protocols)
    {destination : String × BitVec 32} (hd : destination ∈ destinations) {ident : ℕ}
    (hident : ident < 65536) (datagram : List Byte) {piece : ℕ} (hpiece : piece < 3) :
    (fragmentProbe protocol destination ident datagram piece).Fits prefixBytes := by
  have hroute : ∀ destination ∈ destinations,
      destination.2.toNat >>> 8 = 0x0a0000 ∧ destination.2.toNat ≠ 0x0a000001 := by decide
  have hflags : ∀ piece < 3, fragmentWord piece < 65536 := by decide
  have hf := hflags piece hpiece
  have hl : (slice datagram (16 * piece) (16 * (piece + 1))).length ≤ 2000 := by
    have hle : (slice datagram (16 * piece) (16 * (piece + 1))).length ≤
        16 * (piece + 1) - 16 * piece := List.length_take_le _ _
    omega
  obtain ⟨hnet, hne⟩ := hroute destination hd
  have hrange : protocol < 256 := by
    revert protocol
    decide
  refine ⟨?_, sourceBytes_length hp rfl (Or.inl rfl), ?_, nofun⟩
  · unfold ProbeArgs.InRange fragmentProbe
    simp only [noOps, List.length_replicate, List.length_nil, Option.mem_def, Option.some.injEq,
      forall_eq', hl, true_and]
    norm_num
    omega
  · intro n hn
    obtain rfl := Option.some.inj hn
    omega

/-- The fragments of one datagram, with one identification. -/
theorem addFragments_total (hp : prefixBytes.length = 3) (hg : Good probes)
    (hn : probes.length + 3 < 65536) {datagram : ℕ × String × BitVec 32}
    (hd : datagram ∈ fragmentedDatagrams) :
    ∃ probes', addFragments prefixBytes probes datagram = .ok probes' ∧
      Extends 3 probes probes' := by
  obtain ⟨protocol, destination⟩ := datagram
  obtain ⟨hproto, hdest⟩ : protocol ∈ protocols ∧ destination ∈ destinations := by
    obtain ⟨p, hp, hmem⟩ := List.mem_flatMap.mp hd
    obtain ⟨d, hd, he⟩ := List.mem_map.mp hmem
    cases he
    exact ⟨hp, hd⟩
  have hargs : FrameArgs.Fits
      { source := prefixBytes ++ [0x4d], destination := destination.2, sender := .h1
        identification := (probes.length + 1 : ℕ), protocol
        payloadSize := if protocol = 17 then 40 else 28 } := by
    have hrange : protocol < 256 := by
      clear hd
      revert protocol
      decide
    refine ⟨by simp [hp], by simp, by simp, ?_, ?_, ?_, by simp, by simp, by simp, by simp, nofun⟩
    · dsimp only
      split_ifs <;> decide
    · dsimp only
      omega
    · dsimp only
      omega
  obtain ⟨frame, hframe⟩ := makeFrame_total hargs
  have hfits : ∀ piece < 3, (fragmentProbe protocol destination (probes.length + 1)
      (slice frame 34 82) piece).Fits prefixBytes := fun piece hpiece =>
    fragmentProbe_fits hp hproto hdest (by omega) _ hpiece
  obtain ⟨item₀, hadd₀, h₀⟩ := add_total probes (hfits 0 (by omega)) (by omega)
  obtain ⟨item₁, hadd₁, h₁⟩ := add_total (probes ++ [item₀]) (hfits 1 (by omega))
    (by simp; omega)
  obtain ⟨item₂, hadd₂, h₂⟩ := add_total (probes ++ [item₀] ++ [item₁])
    (hfits 2 (by omega)) (by simp; omega)
  have hlist : (List.range 3).map (fragmentProbe protocol destination (probes.length + 1)
      (slice frame 34 82)) = [_, _, _] := rfl
  have hrun : addFragments prefixBytes probes (protocol, destination) =
      .ok (probes ++ [item₀] ++ [item₁] ++ [item₂]) := by
    rw [addFragments, hframe, py_ok_bind, hlist, List.foldlM_cons, hadd₀, py_ok_bind,
      List.foldlM_cons, hadd₁, py_ok_bind, List.foldlM_cons, hadd₂, py_ok_bind]
    rfl
  have happend : probes ++ [item₀] ++ [item₁] ++ [item₂] = probes ++ [item₀, item₁, item₂] := by
    simp
  have hnum : ∀ {number piece item}, Added prefixBytes number (fragmentProbe protocol destination
      (probes.length + 1) (slice frame 34 82) piece) item → item.number = probes.length + 1 :=
    fun h => h.number (by
      show probes.length + 1 < 65536
      omega)
  have hkeys : [item₀, item₁, item₂].map (fun item => identityOf item.frame) =
      (List.range 3).map fun piece => beBytes 2 (probes.length + 1) ++
        (beBytes 2 (fragmentWord piece) ++ (prefixBytes ++ [0x4d])) := by
    rw [List.map_cons, List.map_cons, List.map_cons, h₀.identity, h₁.identity, h₂.identity]
    rfl
  have hwords : ∀ i ∈ List.range 3, ∀ j ∈ List.range 3,
      beBytes 2 (fragmentWord i) = beBytes 2 (fragmentWord j) → i = j := by decide
  rw [hrun, happend]
  refine ⟨_, rfl, hg.append ?_ ?_ ?_, by simp, fun _ h => List.mem_append_left _ h⟩
  · simp [h₀.ok, h₁.ok, h₂.ok]
  · simp [hnum h₀, hnum h₁, hnum h₂]
  · rw [hkeys]
    refine List.Nodup.map_on (fun i hi j hj he => hwords i hi j hj ?_) List.nodup_range
    exact List.append_inj_left (List.append_cancel_left he) (by simp)

end

/-! The groups. -/

section
variable {prefixBytes : List Byte} (hp : prefixBytes.length = 3)
include hp

theorem plain_fits {args : List ProbeArgs} (h : ∀ a ∈ args, a.InRange ∧ a.source = [] ∧
      a.transform.isNone = true ∧ a.identification = none) :
    ∀ a ∈ args, a.Fits prefixBytes ∧ a.identification = none := by
  intro a ha
  obtain ⟨hr, hs, ht, hi⟩ := h a ha
  refine ⟨⟨hr, sourceBytes_length hp hs (Or.inl rfl), ?_, ?_⟩, hi⟩
  · rw [hi]
    exact nofun
  · rw [Option.isNone_iff_eq_none.mp ht]
    exact nofun

theorem directProbes_fit {protocol : ℕ} (h : protocol ∈ protocols) :
    ∀ a ∈ directProbes protocol, a.Fits prefixBytes ∧ a.identification = none := by
  have hall : ∀ protocol ∈ protocols, ∀ a ∈ directProbes protocol, a.InRange ∧ a.source = [] ∧
      a.transform.isNone = true ∧ a.identification = none := by decide
  exact plain_fits hp (hall protocol h)

theorem flowProbes_fit {protocol nFlows : ℕ} (h : protocol ∈ protocols) (hn : nFlows ≤ 100) :
    ∀ a ∈ flowProbes nFlows protocol, a.Fits prefixBytes ∧ a.identification = none := by
  have hrange : ∀ entry ∈ flowPackets, (entry.2.2.1.length % 4 = 0 ∧ entry.2.2.1.length ≤ 40) ∧
      (0 ≤ entry.2.2.2 ∧ entry.2.2.2 ≤ 1500) ∧ entry.1 < 3 := by decide
  have hproto : protocol < 256 := by
    revert protocol
    decide
  refine plain_fits hp fun a ha => ?_
  obtain ⟨flow, hflow, ha⟩ := List.mem_flatMap.mp ha
  obtain ⟨⟨number, sender, options, payloadSize⟩, hentry, rfl⟩ := List.mem_map.mp ha
  obtain ⟨hopt, hpay, hnumber⟩ := hrange _ hentry
  have hflow := List.mem_range.mp hflow
  refine ⟨⟨hopt, ?_, hpay, ?_, ?_, by simp [flowProbe], ?_, by simp [flowProbe], nofun, fun _ =>
    ⟨rfl, by simp [flowProbe], ?_⟩, Or.inl (by simp [flowProbe])⟩, rfl, rfl, rfl⟩
  · unfold flowProbe
    dsimp only
    split_ifs <;> decide
  all_goals
    unfold flowProbe
    dsimp only
    dsimp only at hnumber
    omega

theorem tupleProbes_fit {protocol : ℕ} (h : protocol ∈ protocols) :
    ∀ a ∈ tupleProbes prefixBytes protocol, a.Fits prefixBytes ∧ a.identification = none := by
  have hproto : protocol < 256 := by
    revert protocol
    decide
  have hroute : ∀ value < 8, (0x0a000000 + BitVec.ofNat 32 (value + 100)).toNat >>> 8 = 0x0a0000 ∧
      (0x0a000000 + BitVec.ofNat 32 (value + 100)).toNat ≠ 0x0a000001 := by decide
  intro a ha
  rw [tupleProbes, List.mem_append, List.mem_append, List.mem_append] at ha
  have hnone : ∀ n ∈ (none : Option ℤ), 0 ≤ n ∧ n < 65536 := nofun
  rcases ha with ((ha | ha) | ha) | ha <;> obtain ⟨value, hvalue, rfl⟩ := List.mem_map.mp ha <;>
    rw [List.mem_range] at hvalue
  · refine ⟨⟨?_, sourceBytes_length hp rfl (Or.inr (by simp [hp])), hnone, nofun⟩, rfl⟩
    simp [ProbeArgs.InRange]
    omega
  · refine ⟨⟨?_, sourceBytes_length hp rfl (Or.inl rfl), hnone, nofun⟩, rfl⟩
    obtain ⟨hnet, hne⟩ := hroute value hvalue
    unfold ProbeArgs.InRange
    simp only [hnet]
    simp
    omega
  · refine ⟨⟨?_, sourceBytes_length hp rfl (Or.inl rfl), hnone, nofun⟩, rfl⟩
    simp [ProbeArgs.InRange]
    omega
  · refine ⟨⟨?_, sourceBytes_length hp rfl (Or.inl rfl), hnone, nofun⟩, rfl⟩
    simp [ProbeArgs.InRange]
    omega

theorem laterProbes_fit : ∀ a ∈ opaqueProbes ++ ttlProbes ++ sizeProbes,
    a.Fits prefixBytes ∧ a.identification = none := by
  have hall : ∀ a ∈ opaqueProbes ++ ttlProbes ++ sizeProbes, a.InRange ∧ a.source = [] ∧
      a.transform.isNone = true ∧ a.identification = none := by decide
  exact plain_fits hp hall

theorem refusedProbes_fit : ∀ a ∈ refusedProbes, a.Fits prefixBytes ∧ a.identification = none := by
  have hall : ∀ a ∈ refusedProbes, a.InRange ∧ a.source = [] ∧ a.identification = none := by decide
  have hkeeps : ∀ a ∈ refusedProbes, ∀ transform ∈ a.transform, Keeps transform := by
    unfold refusedProbes
    simp only [List.forall_mem_map, List.forall_mem_cons, Option.mem_def, Option.some.injEq,
      forall_eq', reduceCtorEq, false_imp_iff, implies_true, List.not_mem_nil, true_and, and_true]
    exact ⟨keeps_setSlice (by omega) (by omega) rfl, keeps_replace (by simp) (by simp) (by simp),
      keeps_replace (by simp) (by simp) (by simp), keeps_replace (by simp) (by simp) (by simp),
      keeps_replace (by simp) (by simp) (by simp), keeps_take (by omega), keeps_take (by omega),
      keeps_flipChecksum, keeps_flipChecksum, keeps_replace (by simp) (by simp) (by simp),
      keeps_replace (by simp) (by simp) (by simp), keeps_replace (by simp) (by simp) (by simp),
      keeps_replace (by simp) (by simp) (by simp)⟩
  intro a ha
  obtain ⟨hr, hs, hi⟩ := hall a ha
  refine ⟨⟨hr, sourceBytes_length hp hs (Or.inl rfl), ?_, hkeeps a ha⟩, hi⟩
  rw [hi]
  exact nofun

end

/-- Flows whose source ports differ in the last bit only go to different members, whatever
the rest of the hash input is. -/
theorem flow_member_ne (prefixBytes : List Byte) (protocol : ℕ) (entry : ℕ × Host × List Byte × ℤ) :
    (flowProbe protocol 0 entry).member prefixBytes ≠
      (flowProbe protocol 1 entry).member prefixBytes := by
  have hodd : crc16 (beBytes 2 (1 : BitVec 16).toNat ++ List.replicate 2 0) % 2 = 1 := by decide
  obtain ⟨number, sender, options, payloadSize⟩ := entry
  have hx := crc16_port_xor ((prefixBytes ++ [0x4d]) ++ (beBytes 4 (0x0a000064 : BitVec 32).toNat ++
    beBytes 1 (protocol : ℤ).toNat)) (beBytes 2 (5000 : ℤ).toNat) 1000 1
  rw [beBytes_length] at hx
  generalize hfirst : crc16 (prefixBytes ++ [0x4d] ++ (beBytes 4 (0x0a000064 : BitVec 32).toNat ++
    beBytes 1 (protocol : ℤ).toNat) ++ (beBytes 2 (1000 : BitVec 16).toNat ++
      beBytes 2 (5000 : ℤ).toNat)) = first at hx
  have hmember₀ : (flowProbe protocol 0 (number, sender, options, payloadSize)).member prefixBytes =
      if first % 2 = 0 then .h2 else .h3 := by
    rw [← hfirst]
    rfl
  have hmember₁ : (flowProbe protocol 1 (number, sender, options, payloadSize)).member prefixBytes =
      if (first ^^^ crc16 (beBytes 2 (1 : BitVec 16).toNat ++ List.replicate 2 0)) % 2 = 0 then .h2
      else .h3 := by
    rw [← hx]
    rfl
  have hflip := Nat.xor_mod_two_eq_one (a := first)
    (b := crc16 (beBytes 2 (1 : BitVec 16).toNat ++ List.replicate 2 0))
  rw [hmember₀, hmember₁]
  split_ifs with h₀ h₁ h₁
  · omega
  · simp
  · simp
  · omega

/-! The whole list. -/

section
variable {prefixBytes : List Byte} {nFlows : ℤ} (hp : prefixBytes.length = 3)
include hp

theorem firstProbes_fit (hn : nFlows.toNat ≤ 100) :
    ∀ a ∈ protocols.flatMap fun protocol => directProbes protocol ++
      flowProbes nFlows.toNat protocol ++ tupleProbes prefixBytes protocol,
      a.Fits prefixBytes ∧ a.identification = none := by
  intro a ha
  obtain ⟨protocol, hproto, ha⟩ := List.mem_flatMap.mp ha
  rw [List.mem_append, List.mem_append] at ha
  rcases ha with (ha | ha) | ha
  · exact directProbes_fit hp hproto a ha
  · exact flowProbes_fit hp hproto hn a ha
  · exact tupleProbes_fit hp hproto a ha

theorem fragmentedDatagrams_total {probes : List Probe} (hg : Good probes)
    {datagrams : List (ℕ × String × BitVec 32)} (hd : ∀ d ∈ datagrams, d ∈ fragmentedDatagrams)
    (hn : probes.length + 3 * datagrams.length < 65536) :
    ∃ probes', datagrams.foldlM (addFragments prefixBytes) probes = .ok probes' ∧
      Extends (3 * datagrams.length) probes probes' := by
  induction datagrams generalizing probes with
  | nil => exact ⟨probes, rfl, hg, rfl, fun _ h => h⟩
  | cons d datagrams ih =>
    rw [List.forall_mem_cons] at hd
    rw [List.length_cons] at hn ⊢
    obtain ⟨probes₁, hrun₁, hext₁⟩ := addFragments_total hp hg (by omega) hd.1
    obtain ⟨probes', hrun, hext⟩ := ih hext₁.good hd.2 (by
      rw [hext₁.length]
      omega)
    refine ⟨probes', ?_, ?_⟩
    · rw [List.foldlM_cons, hrun₁, py_ok_bind, hrun]
    · rw [Nat.mul_succ, Nat.add_comm]
      exact hext₁.trans hext

theorem makeProbes_total (hn : 2 ≤ nFlows ∧ nFlows ≤ 100) :
    ∃ probes, makeProbes prefixBytes nFlows = .ok probes ∧ Good probes ∧
      ∀ protocol ∈ protocols, ∀ a ∈ flowProbes nFlows.toNat protocol,
        ∃ item ∈ probes, ∃ number, Added prefixBytes number a item := by
  have hlast : ∀ a ∈ ttlProbes ++ sizeProbes ++ refusedProbes,
      a.Fits prefixBytes ∧ a.identification = none := by
    intro a ha
    rcases List.mem_append.mp ha with ha | ha
    · exact laterProbes_fit hp a (by
        rw [List.append_assoc]
        exact List.mem_append_right _ ha)
    · exact refusedProbes_fit hp a ha
  have hopaque : ∀ a ∈ opaqueProbes, a.Fits prefixBytes ∧ a.identification = none :=
    fun a ha => laterProbes_fit hp a (by
      rw [List.append_assoc]
      exact List.mem_append_left _ ha)
  have hlen : (protocols.flatMap fun protocol => directProbes protocol ++
      flowProbes nFlows.toNat protocol ++ tupleProbes prefixBytes protocol).length =
        2 * (38 + 3 * nFlows.toNat) := by
    have hdirect : ∀ protocol ∈ protocols, (directProbes protocol).length = 6 := by decide
    have hflow : ∀ protocol, (flowProbes nFlows.toNat protocol).length = 3 * nFlows.toNat := by
      intro protocol
      simp [flowProbes, flowPackets, Nat.mul_comm]
    have htuple : ∀ protocol, (tupleProbes prefixBytes protocol).length = 32 := by
      intro protocol
      simp [tupleProbes]
    simp only [protocols, List.flatMap_cons, List.flatMap_nil, List.length_append, List.length_nil,
      hflow, htuple, hdirect 17 (by decide), hdirect 6 (by decide)]
    omega
  have hempty : Good [] := ⟨by simp, by simp, by simp⟩
  have hfirst := firstProbes_fit hp (show nFlows.toNat ≤ 100 by omega)
  obtain ⟨probes₁, hrun₁, hext₁, hall⟩ := addAll_total hempty hfirst (by
    rw [hlen, List.length_nil]
    omega)
  have hl₁ := hext₁.length
  rw [hlen, List.length_nil] at hl₁
  obtain ⟨probes₂, hrun₂, hext₂, -⟩ := addAll_total hext₁.good hopaque (by
    have hl : opaqueProbes.length = 6 := by decide
    omega)
  have hl₂ := hext₂.length
  have hl : opaqueProbes.length = 6 := by decide
  have hd : fragmentedDatagrams.length = 4 := by decide
  obtain ⟨probes₃, hrun₃, hext₃⟩ := fragmentedDatagrams_total hp hext₂.good
    (fun d hd => hd : ∀ d ∈ fragmentedDatagrams, d ∈ fragmentedDatagrams) (by omega)
  have hl₃ := hext₃.length
  obtain ⟨probes₄, hrun₄, hext₄, -⟩ := addAll_total hext₃.good hlast (by
    have hl : (ttlProbes ++ sizeProbes ++ refusedProbes).length = 29 := by decide
    omega)
  refine ⟨probes₄, ?_, hext₄.good, ?_⟩
  · have hcheck : ¬ (prefixBytes.length ≠ 3 ∨ ¬ (2 ≤ nFlows ∧ nFlows ≤ 100)) := by
      simp [hp, hn]
    exact raiseIf_bind_ok.mpr ⟨hcheck, py_bind_ok.mpr ⟨probes₁, hrun₁, py_bind_ok.mpr
      ⟨probes₂, hrun₂, py_bind_ok.mpr ⟨probes₃, hrun₃, hrun₄⟩⟩⟩⟩
  · intro protocol hproto a ha
    obtain ⟨item, hitem, hadded⟩ := hall a (List.mem_flatMap.mpr ⟨protocol, hproto,
      List.mem_append_left _ (List.mem_append_right _ ha)⟩)
    exact ⟨item, hext₄.kept item (hext₃.kept item (hext₂.kept item hitem)), hadded⟩

end
end P4Cases.Ecmp
