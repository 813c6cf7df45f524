import P4Cases.Control.Counting
import P4Cases.Frames.Build
import P4Cases.Vxlan.Oracle

/-! The inner frames that the test of the tunnel endpoint sends, in scenarios of five. -/
namespace P4Cases.Vxlan
open Wire P4 Control Numbering

def innerDest : List Byte := [0, 0, 0, 0x11, 0x11, 0x11]
def otherDest : List Byte := [0, 0, 0, 0x22, 0x22, 0x22]

inductive Protocol where
  | raw
  | vlan
  | ipv4
  | arp

structure Shape where
  name : String
  size : ℕ
  protocol : Protocol
  allowed : Bool

def shapes : List Shape :=
  ([60, 64, 128, 512, 1500, 1514].map fun size => ⟨s!"raw-{size}", size, .raw, true⟩) ++
    [⟨"vlan", 128, .vlan, true⟩, ⟨"ipv4", 128, .ipv4, true⟩, ⟨"arp", 60, .arp, true⟩] ++
    [⟨"unmatched-60", 60, .raw, false⟩, ⟨"unmatched-1514", 1514, .raw, false⟩]

structure Scenario where
  name : String
  allowed : Bool
  frames : List (List Byte)

/-- What follows the addresses, its EtherType first. -/
def frameBody (shape : Shape) (source payload : List Byte) (sequence : ℕ) : Py (List Byte) :=
  match shape.protocol with
  | .vlan => return [0x81, 0x00] ++ (← packInts [(2, 100), (2, 0x88b5)]) ++ payload
  | .arp => do
      let addresses ← packInts [(2, 1), (2, 0x0800), (1, 6), (1, 4), (2, 1)]
      return [0x08, 0x06] ++ (addresses ++ source ++ [10, 0, 0, 1] ++ List.replicate 6 0 ++
        [10, 0, 0, 2]) ++ payload
  | .ipv4 => do
      -- The one shape of this protocol is longer than the two headers.
      let data := payload.take (shape.size - 14 - 20)
      let fields ← packInts [(1, 0x45), (1, 0), (2, (20 + data.length : ℕ)), (2, sequence), (2, 0),
        (1, 64), (1, 253), (2, 0)]
      let header := fields ++ [10, 0, 0, 1] ++ [10, 0, 0, 2]
      let header := header.take 10 ++ (← packWord (checksum header)) ++ header.drop 12
      return [0x08, 0x00] ++ header ++ data
  | .raw => return [0x88, 0xb5] ++ payload

def makeFrame (prefixBytes : List Byte) (shape : Shape) (sequence : ℕ) : Py (List Byte) := do
  let source := prefixBytes ++ (← toBytes 2 sequence)
  let destination := if shape.allowed then innerDest else otherDest
  let payload := ascii "p4-vxlan:" ++ (← toBytes 4 sequence) ++
    (List.range shape.size).map fun offset => BitVec.ofNat 8 ((sequence + offset) % 256)
  let body ← frameBody shape source payload sequence
  return (destination ++ source ++ body).take shape.size

/-- Five frames of one shape. -/
def scenario (prefixBytes : List Byte) (shape : Shape) : Numbering PyError Scenario := do
  let frames ← (List.range 5).mapM fun _ => do
    let sequence ← next
    (makeFrame prefixBytes shape sequence : Py (List Byte))
  return { name := shape.name, allowed := shape.allowed, frames }

def makeProbes (prefixBytes : List Byte) : Py (List Scenario) := do
  raiseIf (prefixBytes.length ≠ 4) (.valueError "test prefix must contain four MAC bytes")
  let made ← (shapes.mapM (scenario prefixBytes)).run 0
  return made.1

/-! What the frames are like. -/

/-- The number of a frame, which ends its source address. -/
def number (frame : List Byte) : ℕ := fieldAt frame 10 12

/-- A frame that the endpoint can carry; it is for the tunnel when it is allowed. -/
structure Inner (allowed : Bool) (frame : List Byte) : Prop where
  complete : 14 ≤ frame.length
  fits : frame.length ≤ 65499
  tunnelled : dstMac frame = 0x000000111111 ↔ allowed = true

def Scenario.Good (item : Scenario) : Prop :=
  item.frames.length = 5 ∧ ∀ frame ∈ item.frames, Inner item.allowed frame

section
variable {prefixBytes : List Byte} {shape : Shape} {sequence : ℕ}

theorem frameBody_total (hs : shape.size ≤ 1514) (hn : sequence < 65536)
    (source payload : List Byte) :
    ∃ body, frameBody shape source payload sequence = .ok body ∧ 2 ≤ body.length := by
  rw [frameBody]
  cases shape.protocol with
  | raw => exact ⟨_, rfl, by simp⟩
  | vlan =>
    have htag : packInts [(2, 100), (2, 0x88b5)] = .ok [0, 100, 0x88, 0xb5] := by decide
    exact ⟨_, by rw [htag]; rfl, by simp⟩
  | arp =>
    have hfields : packInts [(2, 1), (2, 0x0800), (1, 6), (1, 4), (2, 1)] =
        .ok [0, 1, 0x08, 0, 6, 4, 0, 1] := by decide
    exact ⟨_, by rw [hfields]; rfl, by simp⟩
  | ipv4 =>
    have hdata : (payload.take (shape.size - 14 - 20)).length ≤ 1480 := by
      rw [List.length_take]
      omega
    obtain ⟨fields, hfields⟩ : ∃ fields, packInts [(1, 0x45), (1, 0),
        (2, ((20 + (payload.take (shape.size - 14 - 20)).length : ℕ) : ℤ)), (2, (sequence : ℤ)),
        (2, 0), (1, 64), (1, 253), (2, 0)] = .ok fields := by
      refine ⟨_, packInts_ok.mpr ⟨?_, rfl⟩⟩
      simp only [List.forall_mem_cons, List.not_mem_nil, false_implies, implies_true, and_true]
      omega
    have hword : ∀ header, packWord (checksum header) = .ok (beBytes 2 (checksum header)) :=
      fun header => if_pos (checksum_lt header)
    dsimp only
    rw [hfields, py_ok_bind, hword, py_ok_bind]
    exact ⟨_, rfl, by simp⟩

theorem makeFrame_total (hp : prefixBytes.length = 4) (hs : 60 ≤ shape.size ∧ shape.size ≤ 1514)
    (hn : sequence < 65536) :
    ∃ frame, makeFrame prefixBytes shape sequence = .ok frame ∧ Inner shape.allowed frame ∧
      number frame = sequence := by
  have hsource : toBytes 2 sequence = .ok (beBytes 2 sequence) := toBytes_ok (by omega)
  have hnumber : toBytes 4 sequence = .ok (beBytes 4 sequence) := toBytes_ok (by omega)
  obtain ⟨body, hbody, hl⟩ := frameBody_total hs.2 hn (prefixBytes ++ beBytes 2 sequence)
    (ascii "p4-vxlan:" ++ beBytes 4 sequence ++
      (List.range shape.size).map fun offset => BitVec.ofNat 8 ((sequence + offset) % 256))
  let destination := if shape.allowed then innerDest else otherDest
  have hd : destination.length = 6 := by
    dsimp only [destination]
    split_ifs <;> rfl
  refine ⟨(destination ++ (prefixBytes ++ beBytes 2 sequence) ++ body).take shape.size, ?_, ⟨?_,
    ?_, ?_⟩, ?_⟩
  · rw [makeFrame, hsource, py_ok_bind, hnumber, py_ok_bind]
    dsimp only
    rw [hbody]
    rfl
  · rw [List.length_take, List.length_append, List.length_append, List.length_append,
      beBytes_length, hd, hp]
    omega
  · rw [List.length_take]
    omega
  · rw [dstMac, fieldAt, slice_take _ (by omega), List.append_assoc,
      slice_append_left _ hd.ge]
    dsimp only [destination]
    cases shape.allowed <;> decide
  · rw [number, fieldAt, slice_take _ (by omega), List.append_assoc,
      slice_append_right _ _ (by omega), hd, List.append_assoc,
      slice_append_right _ _ (by omega), hp]
    have hall : slice (beBytes 2 sequence ++ body) 0 2 = beBytes 2 sequence := by simp
    rw [hall, beNat_beBytes_of_lt (by omega)]

/-- One run over a shape takes five numbers. -/
theorem scenario_draws (hp : prefixBytes.length = 4)
    (hs : 60 ≤ shape.size ∧ shape.size ≤ 1514) :
    Draws Scenario.Good (fun item => item.frames.map number) 65535 5
      (scenario prefixBytes shape) := by
  have hone : ∀ n, n + 1 ≤ 65535 → ∃ frame, makeFrame prefixBytes shape (n + 1) = .ok frame ∧
      Inner shape.allowed frame ∧ [number frame] = [n + 1] := by
    intro n hn
    obtain ⟨frame, hframe, hinner, hnumber⟩ :=
      @makeFrame_total prefixBytes shape (n + 1) hp hs (by omega)
    exact ⟨frame, hframe, hinner, by rw [hnumber]⟩
  have hframes := Draws.mapM (l := List.range 5) fun _ _ => Draws.one hone
  refine hframes.map fun frames hgood hlength => ?_
  rw [← List.map_eq_flatMap] at hlength ⊢
  exact ⟨⟨by simpa using hlength, hgood⟩, rfl⟩

end

/-- The frames are made for every prefix, and numbered one after the other. -/
theorem makeProbes_total {prefixBytes : List Byte} (hp : prefixBytes.length = 4) :
    ∃ probes, makeProbes prefixBytes = .ok probes ∧ (∀ item ∈ probes, item.Good) ∧
      (probes.flatMap Scenario.frames).map number = List.range' 1 55 := by
  have hshapes : ∀ shape ∈ shapes, 60 ≤ shape.size ∧ shape.size ≤ 1514 := by decide
  obtain ⟨probes, hrun, hgood, hnumbers⟩ := Draws.mapM (fun shape hshape =>
    scenario_draws hp (hshapes shape hshape)) 0 (by decide)
  refine ⟨probes, ?_, hgood, ?_⟩
  · rw [makeProbes, raiseIf_pass (not_not.mpr hp), hrun]
    rfl
  · rw [List.map_flatMap]
    exact hnumbers

end P4Cases.Vxlan
