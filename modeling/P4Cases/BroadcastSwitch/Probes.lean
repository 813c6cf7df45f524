import P4Cases.Frames.Layer2
import P4Cases.Frames.Python

/-! The frames the end-to-end test of the broadcast switch sends, and the hosts it
expects them at. -/
namespace P4Cases.BroadcastSwitch
open Wire Layer2

def validateHostCount (number : ℕ) : Py Unit :=
  raiseIf (¬ (1 ≤ number ∧ number ≤ 128))
    (.valueError "host count must be between 1 and 128 for the forwarding tables")

/-- `00:00:00:00:00:` and the number as two hexadecimal digits. -/
def macOfHost (number : ℕ) : List Char :=
  (List.replicate 5 ['0', '0', ':']).flatten ++
    [Nat.digitChar (number / 16), Nat.digitChar (number % 16)]

/-- `host_mac`. -/
def hostMacText (number : ℕ) : Py (List Char) := do
  validateHostCount number
  return macOfHost number

def hexValue (c : Char) : Option ℕ :=
  if '0' ≤ c ∧ c ≤ '9' then some (c.toNat - 48)
  else if 'a' ≤ c ∧ c ≤ 'f' then some (c.toNat - 87)
  else if 'A' ≤ c ∧ c ≤ 'F' then some (c.toNat - 55)
  else none

/-- `bytes.fromhex`. -/
def fromHex : List Char → Py (List Byte)
  | [] => .ok []
  | high :: low :: rest =>
      match hexValue high, hexValue low with
      | some h, some l => do return BitVec.ofNat 8 (16 * h + l) :: (← fromHex rest)
      | _, _ => .error (.valueError "non-hexadecimal number found in fromhex() arg")
  | [_] => .error (.valueError "non-hexadecimal number found in fromhex() arg")

/-- `bytes.fromhex(host_mac(number).replace(":", ""))`. -/
def hostTarget (number : ℕ) : Py (List Byte) := do
  fromHex ((← hostMacText number).filter (· ≠ ':'))

/-- An address whose last part is a number: three bytes of IPv4 and a fourth. -/
def ipv4Address (network : List Byte) (number : ℕ) : Py (List Byte) :=
  if number < 256 then .ok (network ++ beBytes 1 number) else .error .addressValueError

/-- A network, `::`, and a number. -/
def ipv6Address (network : List Byte) (number : ℕ) : Py (List Byte) :=
  if number < 65536 then
    .ok (network ++ List.replicate (14 - network.length) 0 ++ beBytes 2 number)
  else .error .addressValueError

def hostIp (number : ℕ) : Py (List Byte) := do
  validateHostCount number
  ipv4Address [10, 0, 0] number

/-- The datagram, with its checksum over the pseudo header. -/
def udpDatagram (pseudo : ℕ → List Byte) (payload : List Byte) : List Byte :=
  let udp := beBytes 2 1111 ++ beBytes 2 2222 ++ beBytes 2 (8 + payload.length) ++ beBytes 2 0 ++
    payload
  let value := checksum (pseudo udp.length ++ udp)
  let value := if value = 0 then 0xFFFF else value
  slice udp 0 6 ++ beBytes 2 value ++ udp.drop 8

def ipv4Udp (sender receiver identification ttl : ℕ) : Py (List Byte) := do
  let source ← ipv4Address [198, 18, 0] sender
  let destination ← hostIp receiver
  let payload := (← toBytes 4 identification) ++ byteRange 29
  let udp :=
    udpDatagram (fun length => source ++ destination ++ [0, 17] ++ beBytes 2 length) payload
  let header := beBytes 1 0x45 ++ beBytes 1 0x2A ++ beBytes 2 (20 + udp.length) ++
    beBytes 2 (identification &&& 0xFFFF) ++ beBytes 2 0x4000 ++ beBytes 1 ttl ++ beBytes 1 17 ++
    beBytes 2 0 ++ source ++ destination
  return slice header 0 10 ++ beBytes 2 (checksum header) ++ header.drop 12 ++ udp

def ipv6Udp (sender receiver identification hopLimit : ℕ) : Py (List Byte) := do
  let source ← ipv6Address [0x20, 0x01, 0x0d, 0xb8, 0xff, 0x00] sender
  let destination ← ipv6Address [0x20, 0x01, 0x0d, 0xb8] receiver
  let payload := (← toBytes 4 identification) ++ byteRange 29
  let udp := udpDatagram
    (fun length => source ++ destination ++ beBytes 4 length ++ [0, 0, 0, 17]) payload
  return beBytes 4 (6 <<< 28 ||| 0x2A <<< 20 ||| (identification &&& 0xFFFFF)) ++
    beBytes 2 udp.length ++ beBytes 1 17 ++ beBytes 1 hopLimit ++ source ++ destination ++ udp

def makeFrame (marker : List Byte) (identification : ℕ) (destination : List Byte)
    (etherType : ℕ) (body : List Byte) : Py (List Byte) := do
  raiseIf (marker.length ≠ 4 ∨ (marker.headD 0).toNat &&& 1 ≠ 0 ∨ destination.length ≠ 6 ∨
      ¬ (0 < identification ∧ identification < 2 ^ 32))
    (.valueError "invalid marker, identity or destination MAC")
  let source := marker ++ beBytes 2 (identification &&& 0xFFFF)
  return ljust 60 (destination ++ source ++ beBytes 2 etherType ++ body) 0xa5

inductive Kind where
  | plain
  | ipv4
  | ttlZero
  | ttlOne
  | badIpv4Checksum
  | ipv6
  | hopZero
  | arp
  | vlan
  | qinq
  | empty
  | mtu
  deriving DecidableEq, Repr

def Kind.label : Kind → String
  | .plain => "opaque"
  | .ipv4 => "ipv4"
  | .ttlZero => "ttl-zero"
  | .ttlOne => "ttl-one"
  | .badIpv4Checksum => "bad-ipv4-checksum"
  | .ipv6 => "ipv6"
  | .hopZero => "hop-zero"
  | .arp => "arp"
  | .vlan => "vlan"
  | .qinq => "qinq"
  | .empty => "empty"
  | .mtu => "mtu"

/-- The arguments of one call of `add`. -/
structure Call where
  name : String
  sender : ℕ
  receiver : ℕ
  kind : Kind := .plain
  destination : Option (List Byte) := none
  flooded : Bool := false

/-- The EtherType of a probe and what follows it. -/
def probeBody (marker target : List Byte) (identification : ℕ) (call : Call) :
    Py (ℕ × List Byte) := do
  let ipv4 ← ipv4Udp call.sender call.receiver identification 64
  let ipv6 ← ipv6Udp call.sender call.receiver identification 64
  let counted := (← toBytes 4 identification)
  match call.kind with
  | .plain => return (0x88B5, counted ++ byteRange 29)
  | .ipv4 => return (0x0800, ipv4)
  | .ttlZero => return (0x0800, ← ipv4Udp call.sender call.receiver identification 0)
  | .ttlOne => return (0x0800, ← ipv4Udp call.sender call.receiver identification 1)
  | .badIpv4Checksum => return (0x0800, slice ipv4 0 10 ++
      beBytes 1 ((← byteAt ipv4 10) ^^^ 1) ++ ipv4.drop 11)
  | .ipv6 => return (0x86DD, ipv6)
  | .hopZero => return (0x86DD, ← ipv6Udp call.sender call.receiver identification 0)
  | .arp => return (0x0806, beBytes 2 1 ++ beBytes 2 0x0800 ++ beBytes 1 6 ++ beBytes 1 4 ++
      beBytes 2 (if call.flooded then 1 else 2) ++
      (marker ++ beBytes 2 (identification &&& 0xFFFF)) ++
      (← ipv4Address [198, 18, 0] call.sender) ++
      (if call.flooded then List.replicate 6 0 else target) ++
      (← ipv4Address [198, 18, 1] call.receiver))
  | .vlan => return (0x8100, beBytes 2 0xA007 ++ beBytes 2 0x0800 ++ ipv4)
  | .qinq => return (0x88A8, beBytes 2 42 ++ beBytes 2 0x8100 ++ beBytes 2 7 ++ beBytes 2 0x86DD ++
      ipv6)
  | .empty => return (0x88B5, [])
  | .mtu => return (0x88B5, counted ++ (pattern 6).take 1496)

structure Probe where
  name : String
  sender : String
  receivers : List String
  flooded : Bool
  frame : List Byte

/-- The hosts a probe is expected at. -/
def expectedReceivers (hosts : ℕ) (call : Call) : List ℕ :=
  if call.flooded then (List.range' 1 hosts).filter (· ≠ call.sender)
  else if call.receiver ≠ call.sender then [call.receiver] else []

def add (marker : List Byte) (hosts : ℕ) (probes : List Probe) (call : Call) :
    Py (List Probe) := do
  let identification := probes.length + 1
  let target ← hostTarget call.receiver
  let destination := call.destination.getD target
  let (etherType, body) ← probeBody marker target identification call
  let frame ← makeFrame marker identification destination etherType body
  return probes ++
    [{ name := call.name, sender := hostName call.sender
       receivers := (expectedReceivers hosts call).map hostName
       flooded := call.flooded, frame }]

def contentKinds : List Kind :=
  [.ipv4, .ttlZero, .ttlOne, .badIpv4Checksum, .ipv6, .hopZero, .arp, .vlan, .qinq, .empty, .mtu]

/-- `unknown`: addresses one byte away from a host's, and zero. -/
def unknownMacs (target : List Byte) : List (List Byte) :=
  [[2] ++ target.drop 1, slice target 0 2 ++ [1] ++ target.drop 3,
    slice target 0 4 ++ [1] ++ target.drop 5, List.replicate 6 0]

def groupMacs : List (List Byte) :=
  [List.replicate 6 0xff, [0x01, 0x00, 0x5e, 0x00, 0x00, 0x01], [0x33, 0x33, 0, 0, 0, 0x01]]

/-- `("unknown", unknown[0])` and the labelled group addresses. -/
def labelledMacs (target : List Byte) : List (String × List Byte) :=
  [("unknown", [2] ++ target.drop 1), ("broadcast", List.replicate 6 0xff),
    ("ipv4-multicast", [0x01, 0x00, 0x5e, 0x00, 0x00, 0x01]),
    ("ipv6-multicast", [0x33, 0x33, 0, 0, 0, 0x01])]

def pairCalls (hosts sender : ℕ) : List Call :=
  ((List.range' 1 hosts).filter (· ≠ sender)).flatMap fun receiver =>
    (List.range (if hosts ≤ 4 then 3 else 1)).map fun repetition =>
      { name := s!"pair-{sender}-{receiver}-{repetition}", sender, receiver }

def contentCalls (sender receiver : ℕ) : List Call :=
  contentKinds.map fun kind =>
    { name := s!"content-{sender}-{kind.label}", sender, receiver, kind }

def samePortCalls (sender : ℕ) : List Call :=
  [Kind.plain, .ipv4, .ipv6, .vlan].map fun kind =>
    { name := s!"same-port-{sender}-{kind.label}", sender, receiver := sender, kind }

def unmatchedCalls (sender receiver : ℕ) (target : List Byte) : List Call :=
  (unknownMacs target ++ groupMacs).zipIdx.map fun mac =>
    { name := s!"unmatched-{sender}-{mac.2}", sender, receiver, destination := some mac.1
      flooded := true }

def floodCalls (sender receiver : ℕ) (target : List Byte) : List Call :=
  (labelledMacs target).flatMap fun mac => contentKinds.map fun kind =>
    { name := s!"flood-{sender}-{mac.1}-{kind.label}", sender, receiver, kind
      destination := some mac.2, flooded := true }

/-- The calls of `add` for one sender, in order. -/
def senderCalls (hosts sender : ℕ) : Py (List Call) := do
  let receiver := sender % hosts + 1
  let target ← hostTarget receiver
  return pairCalls hosts sender ++ contentCalls sender receiver ++ samePortCalls sender ++
    unmatchedCalls sender receiver target ++ floodCalls sender receiver target

def makeProbes (marker : List Byte) (hosts : ℕ) : Py (List Probe) := do
  validateHostCount hosts
  (List.range' 1 hosts).foldlM
    (fun probes sender => do (← senderCalls hosts sender).foldlM (add marker hosts) probes) []

/-! What the calls ask for. -/

/-- The address of a host. -/
def hostBytes (number : ℕ) : List Byte := [0, 0, 0, 0, 0, BitVec.ofNat 8 number]

theorem beNat_hostBytes {number : ℕ} (h : number < 256) : beNat (hostBytes number) = number := by
  simp [hostBytes, beNat]
  omega

theorem hexValue_digitChar {d : ℕ} (h : d < 16) : hexValue (Nat.digitChar d) = some d := by
  interval_cases d <;> rfl

theorem digitChar_ne_colon {d : ℕ} (h : d < 16) : Nat.digitChar d ≠ ':' := by
  interval_cases d <;> decide

/-- The text of an address is read back as its bytes. -/
theorem fromHex_macOfHost {number : ℕ} (h : number < 256) :
    fromHex ((macOfHost number).filter (· ≠ ':')) = .ok (hostBytes number) := by
  have hhigh : number / 16 < 16 := by omega
  have hlow : number % 16 < 16 := by omega
  have hn : 16 * (number / 16) + number % 16 = number := by omega
  have hzero : hexValue '0' = some 0 := rfl
  have hfilter : (macOfHost number).filter (· ≠ ':') = List.replicate 10 '0' ++
      [Nat.digitChar (number / 16), Nat.digitChar (number % 16)] := by
    simp [macOfHost, List.replicate, digitChar_ne_colon hhigh, digitChar_ne_colon hlow]
  rw [hfilter]
  simp only [List.replicate, List.cons_append, List.nil_append, fromHex, hzero,
    hexValue_digitChar hhigh, hexValue_digitChar hlow, hn]
  rfl

theorem hostTarget_ok {number : ℕ} (h₁ : 1 ≤ number) (h₂ : number ≤ 128) :
    hostTarget number = .ok (hostBytes number) := by
  rw [hostTarget, hostMacText, validateHostCount, raiseIf, if_neg (by omega)]
  exact fromHex_macOfHost (by omega)

/-- A call for a host of the topology: the frame goes to that host, or is to be flooded
and carries the address of no host. -/
structure Call.Sound (hosts : ℕ) (call : Call) : Prop where
  sender : 1 ≤ call.sender ∧ call.sender ≤ hosts
  receiver : 1 ≤ call.receiver ∧ call.receiver ≤ hosts
  unicast : call.flooded = false → call.destination = none
  flooded : call.flooded = true → ∃ mac, call.destination = some mac ∧ mac.length = 6 ∧
    (beNat mac = 0 ∨ hosts < beNat mac)

theorem unknownMacs_ne_host {hosts number : ℕ} (hh : hosts ≤ 128) :
    ∀ mac ∈ unknownMacs (hostBytes number) ++ groupMacs,
      mac.length = 6 ∧ (beNat mac = 0 ∨ hosts < beNat mac) := by
  have hlt := (BitVec.ofNat 8 number).isLt
  simp only [unknownMacs, groupMacs, hostBytes, slice, List.cons_append, List.nil_append,
    List.forall_mem_cons]
  simp [beNat, List.replicate]
  omega

theorem labelledMacs_ne_host {hosts number : ℕ} (hh : hosts ≤ 128) :
    ∀ mac ∈ labelledMacs (hostBytes number),
      mac.2.length = 6 ∧ (beNat mac.2 = 0 ∨ hosts < beNat mac.2) := by
  have hlt := (BitVec.ofNat 8 number).isLt
  simp only [labelledMacs, hostBytes, List.cons_append, List.nil_append, List.forall_mem_cons]
  simp [beNat, List.replicate]
  omega

section Calls
variable {hosts sender receiver : ℕ}

theorem pairCalls_sound (hs : 1 ≤ sender ∧ sender ≤ hosts) :
    ∀ call ∈ pairCalls hosts sender, call.Sound hosts := by
  intro call hcall
  obtain ⟨receiver, hr, hcall⟩ := List.mem_flatMap.mp hcall
  obtain ⟨repetition, -, rfl⟩ := List.mem_map.mp hcall
  have hrange := List.mem_range'_1.mp (List.mem_filter.mp hr).1
  exact ⟨hs, ⟨hrange.1, by show receiver ≤ hosts; omega⟩, fun _ => rfl, by simp⟩

theorem contentCalls_sound (hs : 1 ≤ sender ∧ sender ≤ hosts)
    (hr : 1 ≤ receiver ∧ receiver ≤ hosts) :
    ∀ call ∈ contentCalls sender receiver, call.Sound hosts := by
  intro call hcall
  obtain ⟨kind, -, rfl⟩ := List.mem_map.mp hcall
  exact ⟨hs, hr, fun _ => rfl, by simp⟩

theorem samePortCalls_sound (hs : 1 ≤ sender ∧ sender ≤ hosts) :
    ∀ call ∈ samePortCalls sender, call.Sound hosts := by
  intro call hcall
  obtain ⟨kind, -, rfl⟩ := List.mem_map.mp hcall
  exact ⟨hs, hs, fun _ => rfl, by simp⟩

theorem unmatchedCalls_sound (hh : hosts ≤ 128) (hs : 1 ≤ sender ∧ sender ≤ hosts)
    (hr : 1 ≤ receiver ∧ receiver ≤ hosts) :
    ∀ call ∈ unmatchedCalls sender receiver (hostBytes receiver), call.Sound hosts := by
  intro call hcall
  obtain ⟨mac, hmac, rfl⟩ := List.mem_map.mp hcall
  have hne := unknownMacs_ne_host hh mac.1 (List.fst_mem_of_mem_zipIdx hmac)
  exact ⟨hs, hr, by simp, fun _ => ⟨mac.1, rfl, hne⟩⟩

theorem floodCalls_sound (hh : hosts ≤ 128) (hs : 1 ≤ sender ∧ sender ≤ hosts)
    (hr : 1 ≤ receiver ∧ receiver ≤ hosts) :
    ∀ call ∈ floodCalls sender receiver (hostBytes receiver), call.Sound hosts := by
  intro call hcall
  obtain ⟨mac, hmac, hcall⟩ := List.mem_flatMap.mp hcall
  obtain ⟨kind, -, rfl⟩ := List.mem_map.mp hcall
  exact ⟨hs, hr, by simp, fun _ => ⟨mac.2, rfl, labelledMacs_ne_host hh mac hmac⟩⟩

theorem pairCalls_length (hs : 1 ≤ sender ∧ sender ≤ hosts) :
    (pairCalls hosts sender).length = (hosts - 1) * (if hosts ≤ 4 then 3 else 1) := by
  have hmem : sender ∈ List.range' 1 hosts := List.mem_range'_1.mpr ⟨hs.1, by omega⟩
  have hfilter : ((List.range' 1 hosts).filter (· ≠ sender)).length = hosts - 1 := by
    have hnodup : (List.range' 1 hosts).Nodup := List.nodup_range'
    have hlength := List.length_erase_of_mem hmem
    rw [hnodup.erase_eq_filter, List.length_range'] at hlength
    rw [← hlength]
    exact congrArg List.length (List.filter_congr fun _ _ => by simp [bne, beq_eq_decide])
  rw [pairCalls, List.length_flatMap]
  simp only [List.length_map, List.length_range, List.map_const', List.sum_replicate, smul_eq_mul,
    hfilter]

/-- Every call of `add` is sound. -/
theorem senderCalls_ok (hh : hosts ≤ 128) (hs : 1 ≤ sender ∧ sender ≤ hosts) :
    ∃ calls, senderCalls hosts sender = .ok calls ∧ (∀ call ∈ calls, call.Sound hosts) ∧
      calls.length = (hosts - 1) * (if hosts ≤ 4 then 3 else 1) + 66 := by
  have hmod : sender % hosts < hosts := Nat.mod_lt _ (by omega)
  have hr : 1 ≤ sender % hosts + 1 ∧ sender % hosts + 1 ≤ hosts := by omega
  rw [senderCalls, hostTarget_ok hr.1 (by omega), py_ok_bind]
  refine ⟨_, rfl, ?_, ?_⟩
  · simp only [List.forall_mem_append]
    exact ⟨⟨⟨⟨pairCalls_sound hs, contentCalls_sound hs hr⟩, samePortCalls_sound hs⟩,
      unmatchedCalls_sound hh hs hr⟩, floodCalls_sound hh hs hr⟩
  · simp [pairCalls_length hs, contentCalls, contentKinds, samePortCalls, unmatchedCalls,
      unknownMacs, groupMacs, floodCalls, labelledMacs]

end Calls

/-! What the calls build. -/

section
variable {hosts : ℕ} {marker target : List Byte} {call : Call}

/-- The EtherType of a kind of probe. -/
def Kind.etherType : Kind → ℕ
  | .plain | .empty | .mtu => 0x88B5
  | .ipv4 | .ttlZero | .ttlOne | .badIpv4Checksum => 0x0800
  | .ipv6 | .hopZero => 0x86DD
  | .arp => 0x0806
  | .vlan => 0x8100
  | .qinq => 0x88A8

theorem Kind.etherType_lt (kind : Kind) : kind.etherType < 65536 := by
  cases kind <;> decide

theorem probeBody_type {identification etherType : ℕ} {body : List Byte}
    (h : probeBody marker target identification call = .ok (etherType, body)) :
    etherType = call.kind.etherType := by
  obtain ⟨ipv4, -, h⟩ := py_bind_ok.mp h
  obtain ⟨ipv6, -, h⟩ := py_bind_ok.mp h
  obtain ⟨counted, -, h⟩ := py_bind_ok.mp h
  cases hk : call.kind <;> rw [hk] at h <;> dsimp only at h
  case ttlZero | ttlOne | badIpv4Checksum | hopZero =>
    obtain ⟨part, -, h⟩ := py_bind_ok.mp h
    exact (Prod.mk.inj (Except.ok.inj h)).1.symm
  case arp =>
    obtain ⟨sender, -, h⟩ := py_bind_ok.mp h
    obtain ⟨receiver, -, h⟩ := py_bind_ok.mp h
    exact (Prod.mk.inj (Except.ok.inj h)).1.symm
  all_goals exact (Prod.mk.inj (Except.ok.inj h)).1.symm

theorem ipv4Udp_ok {sender receiver identification : ℕ} (hs : sender ≤ 128)
    (hr : 1 ≤ receiver ∧ receiver ≤ 128) (hi : identification < 2 ^ 32) (ttl : ℕ) :
    ∃ packet, ipv4Udp sender receiver identification ttl = .ok packet ∧ 20 ≤ packet.length := by
  have hsource : ipv4Address [198, 18, 0] sender = .ok ([198, 18, 0] ++ beBytes 1 sender) :=
    if_pos (by omega)
  have hdest : hostIp receiver = .ok ([10, 0, 0] ++ beBytes 1 receiver) := by
    rw [hostIp, validateHostCount, raiseIf, if_neg (not_not.mpr hr), py_ok_bind]
    exact if_pos (by omega)
  have hid : toBytes 4 identification = .ok (beBytes 4 identification) := toBytes_ok hi
  rw [ipv4Udp, hsource, py_ok_bind, hdest, py_ok_bind, hid, py_ok_bind]
  refine ⟨_, rfl, ?_⟩
  simp [slice]
  omega

theorem ipv6Udp_ok {sender receiver identification : ℕ} (hs : sender ≤ 128)
    (hr : receiver ≤ 128) (hi : identification < 2 ^ 32) (hopLimit : ℕ) :
    ∃ packet, ipv6Udp sender receiver identification hopLimit = .ok packet := by
  have haddr : ∀ (network : List Byte) {number : ℕ}, number ≤ 128 →
      ipv6Address network number = .ok (network ++ List.replicate (14 - network.length) 0 ++
        beBytes 2 number) := fun network number h => if_pos (by omega)
  have hid : toBytes 4 identification = .ok (beBytes 4 identification) := toBytes_ok hi
  rw [ipv6Udp, haddr _ hs, py_ok_bind, haddr _ hr, py_ok_bind, hid, py_ok_bind]
  exact ⟨_, rfl⟩

theorem probeBody_ok (hh : hosts ≤ 128) (hc : call.Sound hosts) {identification : ℕ}
    (hi : identification < 2 ^ 32) :
    ∃ body, probeBody marker target identification call = .ok body := by
  obtain ⟨⟨-, hs⟩, ⟨hr₁, hr₂⟩, -, -⟩ := hc
  have hid : toBytes 4 identification = .ok (beBytes 4 identification) := toBytes_ok hi
  have h4 := @ipv4Udp_ok call.sender call.receiver identification (by omega) (by omega) hi
  have h6 := @ipv6Udp_ok call.sender call.receiver identification (by omega) (by omega) hi
  have haddr : ∀ network number, number ≤ 128 →
      ipv4Address network number = .ok (network ++ beBytes 1 number) :=
    fun network number h => if_pos (by omega)
  obtain ⟨ipv4, he4, hl4⟩ := h4 64
  obtain ⟨ipv6, he6⟩ := h6 64
  rw [probeBody, he4, py_ok_bind, he6, py_ok_bind, hid, py_ok_bind]
  cases call.kind with
  | ttlZero =>
    obtain ⟨packet, he, -⟩ := h4 0
    exact ⟨_, by simp only [he, py_ok_bind]; rfl⟩
  | ttlOne =>
    obtain ⟨packet, he, -⟩ := h4 1
    exact ⟨_, by simp only [he, py_ok_bind]; rfl⟩
  | hopZero =>
    obtain ⟨packet, he⟩ := h6 0
    exact ⟨_, by simp only [he, py_ok_bind]; rfl⟩
  | badIpv4Checksum =>
    have hbyte := byteAt_eq (show 10 < ipv4.length by omega)
    exact ⟨_, by simp only [hbyte, py_ok_bind]; rfl⟩
  | arp =>
    have hs4 := haddr [198, 18, 0] call.sender (by omega)
    have hr4 := haddr [198, 18, 1] call.receiver (by omega)
    exact ⟨_, by simp only [hs4, hr4, py_ok_bind]; rfl⟩
  | _ => exact ⟨_, rfl⟩

/-- A frame has the minimal length, the destination, the marker and the type. -/
theorem makeFrame_ok {identification etherType : ℕ} {destination body frame : List Byte}
    (ht : etherType < 65536)
    (h : makeFrame marker identification destination etherType body = .ok frame) :
    60 ≤ frame.length ∧ fieldAt frame 0 6 = beNat destination ∧ slice frame 6 10 = marker ∧
      fieldAt frame 12 14 = etherType := by
  rw [makeFrame, raiseIf_bind_ok] at h
  obtain ⟨hvalid, h⟩ := h
  obtain rfl := Except.ok.inj h
  have hm : marker.length = 4 := by tauto
  have hd : destination.length = 6 := by tauto
  refine ⟨by simp, ?_, ?_, ?_⟩
  · simp only [ljust, fieldAt, List.append_assoc]
    rw [slice_append_left _ (by omega)]
    simp [slice, ← hd]
  · simp only [ljust, List.append_assoc]
    rw [slice_append_right _ _ (by omega), hd, slice_append_left _ (by omega)]
    exact List.take_of_length_le hm.le
  · simp only [ljust, fieldAt, List.append_assoc]
    rw [slice_append_right _ _ (by omega), hd, slice_append_right _ _ (by omega), hm,
      slice_append_right _ _ (by simp), beBytes_length, slice_append_left _ (by simp)]
    exact (congrArg beNat (List.take_of_length_le (by simp))).trans (beNat_beBytes_of_lt ht)

/-- Four bytes, the first of them even: what `make_frame` takes as a marker. -/
def ValidMarker (marker : List Byte) : Prop :=
  marker.length = 4 ∧ (marker.headD 0).toNat &&& 1 = 0

/-- A probe of a sound call: a complete Ethernet header with the destination and the type
asked for, the marker in its source, and the receivers that the test expects. -/
structure Probe.Of (marker : List Byte) (hosts : ℕ) (call : Call) (probe : Probe) : Prop where
  sound : call.Sound hosts
  name : probe.name = call.name
  sender : probe.sender = hostName call.sender
  receivers : probe.receivers = (expectedReceivers hosts call).map hostName
  flooded : probe.flooded = call.flooded
  length : 60 ≤ probe.frame.length
  destination : fieldAt probe.frame 0 6 =
    beNat (call.destination.getD (hostBytes call.receiver))
  marked : slice probe.frame 6 10 = marker
  etherType : fieldAt probe.frame 12 14 = call.kind.etherType

/-- A call adds its probe, and nothing else. -/
theorem add_ok (hh : hosts ≤ 128) (hc : call.Sound hosts) {probes probes' : List Probe}
    (h : add marker hosts probes call = .ok probes') :
    ∃ added, probes' = probes ++ added ∧ List.Forall₂ (Probe.Of marker hosts) [call] added := by
  rw [add, hostTarget_ok hc.receiver.1 (hc.receiver.2.trans hh), py_ok_bind] at h
  obtain ⟨⟨etherType, body⟩, hbody, h⟩ := py_bind_ok.mp h
  obtain ⟨frame, hframe, h⟩ := py_bind_ok.mp h
  obtain rfl := Except.ok.inj h
  obtain rfl := probeBody_type hbody
  obtain ⟨hlen, hdest, hmarked, htype⟩ := makeFrame_ok call.kind.etherType_lt hframe
  exact ⟨_, rfl, .cons ⟨hc, rfl, rfl, rfl, rfl, hlen, hdest, hmarked, htype⟩ .nil⟩

theorem add_total (hh : hosts ≤ 128) (hm : ValidMarker marker) (hc : call.Sound hosts)
    {probes : List Probe} (hl : probes.length + 1 < 2 ^ 32) :
    ∃ probes', add marker hosts probes call = .ok probes' ∧
      probes'.length = probes.length + 1 := by
  obtain ⟨⟨etherType, body⟩, hbody⟩ :=
    @probeBody_ok hosts marker (hostBytes call.receiver) call hh hc _ hl
  have hdest : (call.destination.getD (hostBytes call.receiver)).length = 6 := by
    cases hf : call.flooded with
    | false =>
      rw [hc.unicast hf]
      rfl
    | true =>
      obtain ⟨mac, hmac, h6, -⟩ := hc.flooded hf
      rw [hmac]
      exact h6
  have hframe : ∃ frame, makeFrame marker (probes.length + 1)
      (call.destination.getD (hostBytes call.receiver)) etherType body = .ok frame := by
    rw [makeFrame, raiseIf, if_neg]
    · exact ⟨_, rfl⟩
    · rintro (h | h | h | h)
      · exact h hm.1
      · exact h hm.2
      · exact h hdest
      · exact h ⟨by omega, hl⟩
  obtain ⟨frame, hframe⟩ := hframe
  rw [add, hostTarget_ok hc.receiver.1 (hc.receiver.2.trans hh), py_ok_bind, hbody, py_ok_bind]
  dsimp only
  rw [hframe, py_ok_bind]
  exact ⟨_, rfl, by simp⟩

/-- The calls of `add` for all hosts, in order. -/
def allCalls (hosts : ℕ) : Py (List (List Call)) :=
  (List.range' 1 hosts).mapM (senderCalls hosts)

theorem allCalls_length (hh : hosts ≤ 128) {calls : List (List Call)}
    (h : allCalls hosts = .ok calls) :
    calls.flatten.length = hosts * ((hosts - 1) * (if hosts ≤ 4 then 3 else 1) + 66) := by
  have hall := mapM_eq_ok.mp h
  have hlength : ∀ k ∈ calls.map List.length,
      k = (hosts - 1) * (if hosts ≤ 4 then 3 else 1) + 66 := by
    refine List.forall_mem_map.mpr fun built hbuilt => ?_
    obtain ⟨sender, hsender, hrun⟩ := exists_of_mem_right hall hbuilt
    have hrange := List.mem_range'_1.mp hsender
    obtain ⟨calls', hcalls', -, hcount⟩ := senderCalls_ok hh ⟨hrange.1, by omega⟩
    rw [Except.ok.inj (hrun.symm.trans hcalls'), hcount]
  rw [List.length_flatten, List.sum_eq_card_nsmul _ _ hlength, List.length_map, ← hall.length_eq,
    List.length_range', smul_eq_mul]

/-- Each probe is that of its call. -/
theorem makeProbes_calls {probes : List Probe} (h : makeProbes marker hosts = .ok probes) :
    ∃ calls, allCalls hosts = .ok calls ∧
      List.Forall₂ (Probe.Of marker hosts) calls.flatten probes := by
  rw [makeProbes, validateHostCount, raiseIf_bind_ok, not_not] at h
  obtain ⟨⟨-, hh⟩, h⟩ := h
  have hsender : ∀ built, ∀ sender ∈ List.range' 1 hosts, ∀ built',
      (do (← senderCalls hosts sender).foldlM (add marker hosts) built) = .ok built' →
      ∃ added, built' = built ++ added ∧ ∃ calls, senderCalls hosts sender = .ok calls ∧
        List.Forall₂ (Probe.Of marker hosts) calls added := by
    intro built sender hs built' hrun
    have hrange := List.mem_range'_1.mp hs
    obtain ⟨calls, hcalls, hsound, -⟩ := senderCalls_ok hh ⟨hrange.1, by omega⟩
    rw [hcalls, py_ok_bind] at hrun
    obtain ⟨added, hadded, rfl⟩ :=
      foldlM_extends (fun built call hcall built' => add_ok hh (hsound call hcall)) hrun
    refine ⟨_, rfl, calls, hcalls, ?_⟩
    have hflat := List.rel_flatten (R := Probe.Of marker hosts)
      (List.forall₂_map_left_iff.mpr (hadded.imp fun call new hnew => hnew))
    rwa [← List.flatMap_def, List.flatMap_singleton'] at hflat
  obtain ⟨added, hadded, rfl⟩ := foldlM_extends hsender h
  obtain ⟨calls, hcalls, hprobes⟩ := exists_forall₂ hadded
  exact ⟨calls, mapM_eq_ok.mpr hcalls, List.rel_flatten hprobes⟩

theorem makeProbes_sound {probes : List Probe} (h : makeProbes marker hosts = .ok probes) :
    ∀ probe ∈ probes, ∃ call, probe.Of marker hosts call := by
  obtain ⟨calls, -, hall⟩ := makeProbes_calls h
  intro probe hprobe
  obtain ⟨call, -, hof⟩ := exists_of_mem_right hall hprobe
  exact ⟨call, hof⟩

/-- One sender's probes are built, as long as there is room for their numbers. -/
theorem foldlM_add_total (hh : hosts ≤ 128) (hm : ValidMarker marker) {calls : List Call}
    (hc : ∀ call ∈ calls, call.Sound hosts) {probes : List Probe}
    (hl : probes.length + calls.length < 2 ^ 32) :
    ∃ probes', calls.foldlM (add marker hosts) probes = .ok probes' ∧
      probes'.length = probes.length + calls.length := by
  obtain ⟨probes', h, -, hlen⟩ := foldlM_total
    (fun rest built => (∀ call ∈ rest, call.Sound hosts) ∧
      built.length + rest.length = probes.length + calls.length)
    (f := add marker hosts) (by
      rintro built call rest ⟨hrest, hlen⟩
      rw [List.length_cons] at hlen
      obtain ⟨built', h, hbuilt⟩ :=
        add_total hh hm (hrest call List.mem_cons_self) (show built.length + 1 < 2 ^ 32 by omega)
      exact ⟨built', h, fun c hc => hrest c (List.mem_cons_of_mem _ hc), by omega⟩)
    ⟨hc, rfl⟩
  exact ⟨probes', h, hlen⟩

/-- With a valid marker the probes are built, for every topology. -/
theorem makeProbes_total (h₁ : 1 ≤ hosts) (hh : hosts ≤ 128) (hm : ValidMarker marker) :
    ∃ probes, makeProbes marker hosts = .ok probes := by
  rw [makeProbes, validateHostCount, raiseIf, if_neg (not_not.mpr ⟨h₁, hh⟩), py_ok_bind]
  obtain ⟨probes, h, -⟩ := foldlM_total
    (fun senders (built : List Probe) => (∀ s ∈ senders, 1 ≤ s ∧ s ≤ hosts) ∧
      built.length + senders.length * 450 ≤ 128 * 450)
    (f := fun probes sender => do (← senderCalls hosts sender).foldlM (add marker hosts) probes) (by
      rintro built sender senders ⟨hsenders, hlen⟩
      rw [List.length_cons] at hlen
      obtain ⟨calls, hcalls, hsound, hcount⟩ :=
        senderCalls_ok hh (hsenders sender List.mem_cons_self)
      have hcalls' : calls.length ≤ 450 := by
        split_ifs at hcount <;> omega
      obtain ⟨built', h, hbuilt⟩ := foldlM_add_total hh hm hsound
        (show built.length + calls.length < 2 ^ 32 by omega)
      refine ⟨built', ?_, fun s hs => hsenders s (List.mem_cons_of_mem _ hs), by omega⟩
      rw [hcalls, py_ok_bind, h])
    (show (∀ s ∈ List.range' 1 hosts, 1 ≤ s ∧ s ≤ hosts) ∧ _ by
      refine ⟨?_, ?_⟩
      · intro s hs
        have hrange := List.mem_range'_1.mp hs
        omega
      · rw [List.length_range', List.length_nil]
        omega)
  exact ⟨probes, h⟩

end

end P4Cases.BroadcastSwitch
