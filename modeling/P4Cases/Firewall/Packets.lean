import P4Cases.Firewall.Policy
import P4Cases.Frames.Build

/-! The test frames of the firewall, the malformed ones included, and what the bytes of each
say to the parser. -/
namespace P4Cases.Firewall
open Wire P4

inductive Transport where
  | tcp
  | udp
  | icmp
  deriving DecidableEq

def Transport.number : Transport → ℕ
  | .tcp => 6
  | .udp => 17
  | .icmp => 1

inductive Protocol where
  | arp
  | ip (transport : Transport)
  deriving DecidableEq

inductive FrameFault where
  | none
  | badVersion
  | shortIhl
  | shortTotal
  | longTotal
  | truncatedIp
  | truncatedOptions
  | shortTcp
  | shortUdp
  deriving DecidableEq

/-- The arguments of `make_frame`; addresses are packed. -/
structure FrameArgs where
  srcMac : List Byte
  dstMac : List Byte
  srcIp : List Byte
  dstIp : List Byte
  protocol : Protocol
  dport : ℕ
  options : List Byte
  sequence : ℕ
  fault : FrameFault := .none
  flags : ℕ := 0
  offset : ℕ := 0

section
variable (a : FrameArgs) (transport : Transport)

/-- The payload, filled up where the packet claims to be a first fragment. -/
def fragmentPayload (payload : List Byte) : List Byte :=
  if a.flags &&& 1 ≠ 0 then
    let headerSize := if transport = .tcp then 20 else 8
    -- `-(header_size + len(payload)) % 8`
    payload ++ List.replicate ((8 - (headerSize + payload.length) % 8) % 8) 0
  else payload

/-- The fields of the transport header, before a payload of `n` bytes. -/
def transportFields (n : ℕ) : Transport → List (ℕ × ℤ)
  | .tcp => [(2, (4000 + a.sequence % 1000 : ℕ)), (2, a.dport), (4, a.sequence), (4, 0), (1, 0x50),
      (1, 2), (2, 8192), (2, 0), (2, 0)]
  | .udp => [(2, (4000 + a.sequence % 1000 : ℕ)), (2, a.dport), (2, (8 + n : ℕ)), (2, 0)]
  | .icmp => [(1, 8), (1, 0), (2, 0), (2, 1), (2, a.sequence)]

/-- Where the checksum of a segment stands. -/
def Transport.position : Transport → ℕ
  | .tcp => 16
  | .udp => 6
  | .icmp => 2

def segment (payload : List Byte) : Py (List Byte) := do
  let segment := (← packInts (transportFields a payload.length transport)) ++ payload
  let position := transport.position
  let number := transport.number
  let pseudo ← (if number ≠ 1 then do
      return a.srcIp ++ a.dstIp ++ (← packInts [(1, 0), (1, number), (2, segment.length)])
    else return [] : Py (List Byte))
  let value := checksum (pseudo ++ segment)
  let value := if number = 17 ∧ value = 0 then 0xFFFF else value
  return segment.take position ++ (← packWord value) ++ segment.drop (position + 2)

/-- Version, header length in words and total length, as the fault has them. -/
def headerNumbers (fault : FrameFault) (options segment : ℕ) : ℕ × ℕ × ℕ :=
  let ihl := 5 + options / 4
  let total := 20 + options + segment
  match fault with
  | .badVersion => (6, ihl, total)
  | .shortIhl => (4, 4, total)
  | .shortTotal => (4, ihl, 20)
  | .longTotal => (4, ihl, 65535)
  | .shortTcp => (4, ihl, ihl * 4 + 19)
  | .shortUdp => (4, ihl, ihl * 4 + 7)
  | .none | .truncatedIp | .truncatedOptions => (4, ihl, total)

def ipv4Header (numbers : ℕ × ℕ × ℕ) : Py (List Byte) := do
  let (version, ihl, total) := numbers
  let fields ← packInts [(1, (version <<< 4 ||| ihl : ℕ)), (1, 0), (2, total), (2, a.sequence),
    (2, (a.flags <<< 13 ||| a.offset : ℕ)), (1, 64), (1, transport.number), (2, 0)]
  let header := fields ++ a.srcIp ++ a.dstIp ++ a.options
  return header.take 10 ++ (← packWord (checksum header)) ++ header.drop 12

/-- The frame is cut short or filled up. -/
def finish (fault : FrameFault) (frame : List Byte) : List Byte :=
  match fault with
  | .truncatedIp => frame.take 26
  | .truncatedOptions => frame.take 36
  | _ => ljust 60 frame

end

def makeFrame (a : FrameArgs) : Py (List Byte) := do
  raiseIf (a.options.length > 40 ∨ a.options.length % 4 ≠ 0)
    (.valueError "IPv4 options must occupy 0 to 40 bytes in four-byte units")
  let payload := ascii "p4-acl:" ++ (← packInts [(4, a.sequence)])
  let ethernet := a.dstMac ++ a.srcMac
  match a.protocol with
  | .arp => do
      let fields ← packInts [(2, 1), (2, 0x0800), (1, 6), (1, 4), (2, 1)]
      let arp := fields ++ a.srcMac ++ a.srcIp ++ List.replicate 6 0 ++ a.dstIp
      return ljust 60 (ethernet ++ [0x08, 0x06] ++ arp)
  | .ip transport => do
      let transported ← segment a transport (fragmentPayload a transport payload)
      let header ← ipv4Header a transport
        (headerNumbers a.fault a.options.length transported.length)
      return finish a.fault (ethernet ++ [0x08, 0x00] ++ header ++ transported)

/-! What `make_frame` returns. -/

/-- Arguments for which nothing is raised. -/
structure FrameArgs.Fits (a : FrameArgs) : Prop where
  srcMac : a.srcMac.length = 6
  dstMac : a.dstMac.length = 6
  srcIp : a.srcIp.length = 4
  dstIp : a.dstIp.length = 4
  dport : a.dport < 65536
  options : a.options.length ≤ 40 ∧ a.options.length % 4 = 0
  sequence : a.sequence < 65536
  flags : a.flags < 8
  offset : a.offset < 8192

/-- The length of the header of a transport protocol. -/
def Transport.least : Transport → ℕ
  | .tcp => 20
  | .udp => 8
  | .icmp => 8

section
variable {a : FrameArgs} (h : a.Fits) (transport : Transport)

include h

theorem transportFields_fit {n : ℕ} (hn : n ≤ 100) :
    ∀ f ∈ transportFields a n transport, 0 ≤ f.2 ∧ f.2 < 256 ^ f.1 := by
  have hd := h.dport
  have hs := h.sequence
  cases transport <;>
    simp only [transportFields, List.forall_mem_cons, List.not_mem_nil, false_implies, implies_true,
      and_true] <;> omega

omit h in
theorem transportFields_bytes (a : FrameArgs) (n : ℕ) :
    ((transportFields a n transport).flatMap fun f => beBytes f.1 f.2.toNat).length =
        transport.least ∧
      (transport ≠ .icmp → slice ((transportFields a n transport).flatMap fun f =>
        beBytes f.1 f.2.toNat) 2 4 = beBytes 2 a.dport) := by
  cases transport with
  | tcp => simp [transportFields, Transport.least]
  | udp => simp [transportFields, Transport.least]
  | icmp => simp [transportFields, Transport.least]

theorem segment_total {payload : List Byte} (hp : payload.length ≤ 100) :
    ∃ bytes, segment a transport payload = .ok bytes ∧ transport.least ≤ bytes.length ∧
      bytes.length ≤ 200 ∧ (transport ≠ .icmp → slice bytes 2 4 = beBytes 2 a.dport) := by
  have hfields := packInts_ok.mpr ⟨transportFields_fit h transport hp, rfl⟩
  obtain ⟨hlength, hport⟩ := transportFields_bytes transport a payload.length
  generalize (transportFields a payload.length transport).flatMap (fun f =>
    beBytes f.1 f.2.toNat) = fields at hfields hlength hport
  have hleast : transport.position + 2 ≤ transport.least ∧ transport.least ≤ 20 := by
    cases transport <;> decide
  have hnumber : transport.number < 256 := by cases transport <;> decide
  obtain ⟨pseudo, hpseudo⟩ : ∃ pseudo, (if transport.number ≠ 1 then do
      return a.srcIp ++ a.dstIp ++
        (← packInts [(1, 0), (1, transport.number), (2, (fields ++ payload).length)])
    else return [] : Py (List Byte)) = .ok pseudo := by
    have hpacked : ∀ f ∈ ([(1, 0), (1, (transport.number : ℤ)),
        (2, ((fields ++ payload).length : ℤ))] : List (ℕ × ℤ)), 0 ≤ f.2 ∧ f.2 < 256 ^ f.1 := by
      simp only [List.forall_mem_cons, List.not_mem_nil, false_implies, implies_true, and_true,
        List.length_append]
      omega
    rw [packInts_ok.mpr ⟨hpacked, rfl⟩]
    split_ifs
    · exact ⟨_, rfl⟩
    · exact ⟨_, rfl⟩
  have hword : ∀ sum < 65536, packWord sum = .ok (beBytes 2 sum) := fun _ hsum => if_pos hsum
  generalize hvalue : (if transport.number = 17 ∧ checksum (pseudo ++ (fields ++ payload)) = 0
    then 0xFFFF else checksum (pseudo ++ (fields ++ payload))) = value
  have hlt : value < 65536 := by
    have hsum := checksum_lt (pseudo ++ (fields ++ payload))
    rw [← hvalue]
    split_ifs <;> omega
  refine ⟨(fields ++ payload).take transport.position ++ beBytes 2 value ++
    (fields ++ payload).drop (transport.position + 2), ?_, ?_, ?_, fun hne => ?_⟩
  · rw [segment, hfields, py_ok_bind]
    dsimp only
    rw [hpseudo, py_ok_bind, hvalue, hword value hlt]
    rfl
  · simp only [List.length_append, List.length_take, List.length_drop, beBytes_length]
    omega
  · simp only [List.length_append, List.length_take, List.length_drop, beBytes_length]
    omega
  · have hfour : 4 ≤ transport.position := by
      revert hne
      cases transport <;> decide
    have htake : ((fields ++ payload).take transport.position).length = transport.position := by
      rw [List.length_take, List.length_append]
      omega
    rw [List.append_assoc, slice_append_left _ (by omega), slice_take _ hfour,
      slice_append_left _ (by omega), hport hne]

/-- The frame before it is cut or filled up. -/
def ipFrame (a : FrameArgs) (transport : Transport) (numbers : ℕ × ℕ × ℕ) (sum : ℕ)
    (bytes : List Byte) : List Byte :=
  a.dstMac ++ (a.srcMac ++ (beBytes 2 0x0800 ++
    (beBytes 1 (numbers.1 <<< 4 ||| numbers.2.1) ++ (beBytes 1 0 ++ (beBytes 2 numbers.2.2 ++
      (beBytes 2 a.sequence ++ (beBytes 2 (a.flags <<< 13 ||| a.offset) ++ (beBytes 1 64 ++
        (beBytes 1 transport.number ++ (beBytes 2 sum ++ (a.srcIp ++ (a.dstIp ++
          (a.options ++ bytes)))))))))))))

theorem headerNumbers_bounds {n : ℕ} (hn : n ≤ 200) :
    (headerNumbers a.fault a.options.length n).1 ≤ 6 ∧
      (headerNumbers a.fault a.options.length n).2.1 ≤ 15 ∧
      (headerNumbers a.fault a.options.length n).2.2 < 65536 := by
  have ho := h.options
  unfold headerNumbers
  cases a.fault <;> dsimp only <;> omega

theorem ipv4Header_total {numbers : ℕ × ℕ × ℕ} (hv : numbers.1 ≤ 6) (hi : numbers.2.1 ≤ 15)
    (ht : numbers.2.2 < 65536) :
    ∃ sum, ipv4Header a transport numbers = .ok (beBytes 1 (numbers.1 <<< 4 ||| numbers.2.1) ++
      (beBytes 1 0 ++ (beBytes 2 numbers.2.2 ++ (beBytes 2 a.sequence ++
        (beBytes 2 (a.flags <<< 13 ||| a.offset) ++ (beBytes 1 64 ++
          (beBytes 1 transport.number ++ (beBytes 2 sum ++ (a.srcIp ++ (a.dstIp ++
            a.options)))))))))) := by
  have hs := h.sequence
  have hf := h.flags
  have ho := h.offset
  have hnumber : transport.number < 256 := by cases transport <;> decide
  have hfirst : numbers.1 <<< 4 ||| numbers.2.1 < 2 ^ 8 := by
    refine Nat.or_lt_two_pow ?_ (by omega)
    rw [Nat.shiftLeft_eq]
    omega
  have hfragment : a.flags <<< 13 ||| a.offset < 2 ^ 16 := by
    refine Nat.or_lt_two_pow ?_ (by omega)
    rw [Nat.shiftLeft_eq]
    omega
  have hfields : ∀ f ∈ ([(1, ((numbers.1 <<< 4 ||| numbers.2.1 : ℕ) : ℤ)), (1, 0),
      (2, (numbers.2.2 : ℤ)), (2, (a.sequence : ℤ)),
      (2, ((a.flags <<< 13 ||| a.offset : ℕ) : ℤ)), (1, 64), (1, (transport.number : ℤ)), (2, 0)] :
        List (ℕ × ℤ)), 0 ≤ f.2 ∧ f.2 < 256 ^ f.1 := by
    simp only [List.forall_mem_cons, List.not_mem_nil, false_implies, implies_true, and_true]
    omega
  have hword : ∀ header, packWord (checksum header) = .ok (beBytes 2 (checksum header)) :=
    fun header => if_pos (checksum_lt header)
  refine ⟨checksum (([(1, ((numbers.1 <<< 4 ||| numbers.2.1 : ℕ) : ℤ)), (1, 0),
    (2, (numbers.2.2 : ℤ)), (2, (a.sequence : ℤ)), (2, ((a.flags <<< 13 ||| a.offset : ℕ) : ℤ)),
    (1, 64), (1, (transport.number : ℤ)), (2, 0)] : List (ℕ × ℤ)).flatMap (fun f =>
      beBytes f.1 f.2.toNat) ++ a.srcIp ++ a.dstIp ++ a.options), ?_⟩
  rw [ipv4Header]
  dsimp only
  rw [packInts_ok.mpr ⟨hfields, rfl⟩, py_ok_bind, hword, py_ok_bind]
  simp [pure, Except.pure]

theorem makeFrame_ip (hp : a.protocol = .ip transport) :
    ∃ bytes sum, makeFrame a = .ok (finish a.fault
        (ipFrame a transport (headerNumbers a.fault a.options.length bytes.length) sum bytes)) ∧
      transport.least ≤ bytes.length ∧ bytes.length ≤ 200 ∧
      (transport ≠ .icmp → slice bytes 2 4 = beBytes 2 a.dport) := by
  have ho := h.options
  have hs := h.sequence
  have hpayload : packInts [(4, (a.sequence : ℤ))] = .ok (beBytes 4 a.sequence) :=
    packInts_single.mpr ⟨by omega, rfl⟩
  have hfilled : (fragmentPayload a transport
      (ascii "p4-acl:" ++ beBytes 4 a.sequence)).length ≤ 100 := by
    have hascii : (ascii "p4-acl:").length = 7 := by decide
    unfold fragmentPayload
    split_ifs <;> simp [hascii]
  obtain ⟨bytes, hbytes, hleast, hmost, hport⟩ := segment_total h transport hfilled
  obtain ⟨hv, hi, ht⟩ := headerNumbers_bounds h hmost
  obtain ⟨sum, hheader⟩ := ipv4Header_total h transport hv hi ht
  have hgood : ¬ (a.options.length > 40 ∨ a.options.length % 4 ≠ 0) := by omega
  have htype : ([0x08, 0x00] : List Byte) = beBytes 2 0x0800 := by decide
  refine ⟨bytes, sum, ?_, hleast, hmost, hport⟩
  rw [makeFrame, raiseIf_pass hgood, hpayload, py_ok_bind, hp]
  dsimp only
  rw [hbytes, py_ok_bind, hheader, py_ok_bind, htype]
  simp only [ipFrame, List.append_assoc]
  rfl

end
/-! What the frame says. -/

/-- The fields of the Ethernet and the IPv4 header. -/
structure Reads (a : FrameArgs) (transport : Transport) (numbers : ℕ × ℕ × ℕ)
    (frame : List Byte) : Prop where
  macs : slice frame 0 12 = a.dstMac ++ a.srcMac
  etherType : etherType frame = 0x0800
  version : Raw.version frame = numbers.1
  ihl : Raw.ihl frame = numbers.2.1
  totalLen : Raw.totalLen frame = numbers.2.2
  moreFragments : Raw.moreFragments frame = a.flags % 2
  fragOffset : Raw.fragOffset frame = a.offset
  protocol : Raw.protocol frame = transport.number
  srcAddr : Raw.srcAddr frame = beNat a.srcIp
  dstAddr : Raw.dstAddr frame = beNat a.dstIp

section
variable {a : FrameArgs} (h : a.Fits) (transport : Transport) {numbers : ℕ × ℕ × ℕ}
include h

theorem ipFrame_length (sum : ℕ) (bytes : List Byte) :
    (ipFrame a transport numbers sum bytes).length = 34 + a.options.length + bytes.length := by
  simp only [ipFrame, List.length_append, beBytes_length, h.dstMac, h.srcMac, h.srcIp, h.dstIp]
  omega

theorem ipFrame_reads (hv : numbers.1 ≤ 6) (hi : numbers.2.1 ≤ 15) (ht : numbers.2.2 < 65536)
    (sum : ℕ) (bytes rest : List Byte) :
    Reads a transport numbers (ipFrame a transport numbers sum bytes ++ rest) := by
  have hflags := h.flags
  have hoffset := h.offset
  have hnumber : transport.number < 256 := by cases transport <;> decide
  have hfirst : numbers.1 <<< 4 ||| numbers.2.1 = numbers.1 * 16 + numbers.2.1 := by
    rw [← Nat.shiftLeft_add_eq_or_of_lt (by omega), Nat.shiftLeft_eq]
  have hword : a.flags <<< 13 ||| a.offset = a.flags * 8192 + a.offset := by
    rw [← Nat.shiftLeft_add_eq_or_of_lt (by omega), Nat.shiftLeft_eq]
  have hdm := eq_beBytes h.dstMac
  have hsm := eq_beBytes h.srcMac
  have hsi := eq_beBytes h.srcIp
  have hdi := eq_beBytes h.dstIp
  constructor
  · rw [ipFrame, hdm, hsm]
    simp
  · rw [ipFrame, hdm, hsm, P4Cases.etherType, fieldAt]
    simp
  · rw [ipFrame, hdm, hsm, Raw.version, fieldAt, hfirst]
    simp [beNat_beBytes]
    omega
  · rw [ipFrame, hdm, hsm, Raw.ihl, fieldAt, hfirst]
    simp [beNat_beBytes]
    omega
  · rw [ipFrame, hdm, hsm, Raw.totalLen, fieldAt]
    simp [beNat_beBytes]
    omega
  · rw [ipFrame, hdm, hsm, Raw.moreFragments, fieldAt, hword]
    simp [beNat_beBytes]
    omega
  · rw [ipFrame, hdm, hsm, Raw.fragOffset, fieldAt, hword]
    simp [beNat_beBytes]
    omega
  · rw [ipFrame, hdm, hsm, Raw.protocol, fieldAt]
    simp [beNat_beBytes]
    omega
  · rw [ipFrame, hdm, hsm, hsi, Raw.srcAddr, fieldAt]
    simp
  · rw [ipFrame, hdm, hsm, hsi, hdi, Raw.dstAddr, fieldAt]
    simp

theorem ipFrame_dstPort {sum : ℕ} {bytes : List Byte} (hreads : ∀ rest, Reads a transport numbers
      (ipFrame a transport numbers sum bytes ++ rest))
    (hi : numbers.2.1 = 5 + a.options.length / 4) (hl : 4 ≤ bytes.length)
    (hport : slice bytes 2 4 = beBytes 2 a.dport) (rest : List Byte) :
    Raw.dstPort (ipFrame a transport numbers sum bytes ++ rest) = a.dport := by
  have ho := h.options
  have hd := h.dport
  obtain ⟨front, hfront, hlength⟩ : ∃ front, ipFrame a transport numbers sum bytes =
      front ++ (a.options ++ bytes) ∧ front.length = 34 := by
    refine ⟨a.dstMac ++ (a.srcMac ++ (beBytes 2 0x0800 ++
      (beBytes 1 (numbers.1 <<< 4 ||| numbers.2.1) ++ (beBytes 1 0 ++ (beBytes 2 numbers.2.2 ++
        (beBytes 2 a.sequence ++ (beBytes 2 (a.flags <<< 13 ||| a.offset) ++ (beBytes 1 64 ++
          (beBytes 1 transport.number ++ (beBytes 2 sum ++ (a.srcIp ++ a.dstIp))))))))))), ?_, ?_⟩
    · simp only [ipFrame, List.append_assoc]
    · simp only [List.length_append, beBytes_length, h.dstMac, h.srcMac, h.srcIp, h.dstIp]
  have hbehind : slice (ipFrame a transport numbers sum bytes ++ rest)
      (34 + a.options.length + 2) (34 + a.options.length + 4) = slice bytes 2 4 := by
    rw [slice_append_left _ (by rw [ipFrame_length h]; omega), hfront,
      slice_append_right _ _ (by omega), slice_append_right _ _ (by omega)]
    congr 1 <;> omega
  have hihl : 14 + 4 * (5 + a.options.length / 4) = 34 + a.options.length := by omega
  rw [Raw.dstPort, (hreads rest).ihl, hi, hihl, fieldAt, hbehind, hport, beNat_beBytes_of_lt hd]

end
/-! Which frames pass. -/

/-- The parser takes the frame, and no rule denies it. -/
def Passes (frame : List Byte) : Prop :=
  etherType frame ≠ 0x0800 ∨ (Acceptable frame ∧ ¬ DeniedFlow frame)

/-- Each fault goes with the transport protocol it is about. -/
def FrameArgs.Meant (a : FrameArgs) : Prop :=
  match a.protocol with
  | .arp => True
  | .ip transport => a.fault = .none ∨
      (if a.fault = .shortUdp then transport = .udp else transport = .tcp)

/-- What the policy allows, in terms of the arguments. -/
def FrameArgs.Allowed (a : FrameArgs) : Prop :=
  match a.protocol with
  | .arp => True
  | .ip transport => a.fault = .none ∧ a.flags % 2 = 0 ∧ a.offset = 0 ∧
      ¬ (transport = .tcp ∧ beNat a.dstIp = 0x0a000002 ∧ a.dport = 22) ∧
      ¬ (transport = .udp ∧ beNat a.srcIp = 0x0a000001 ∧ a.dport = 5000)

theorem Transport.number_tcp {transport : Transport} : transport.number = 6 ↔ transport = .tcp := by
  cases transport <;> decide

theorem Transport.number_udp {transport : Transport} :
    transport.number = 17 ↔ transport = .udp := by
  cases transport <;> decide

section
variable {a : FrameArgs} (h : a.Fits) {transport : Transport} {n : ℕ} {frame : List Byte}
include h

/-- A frame without a fault. -/
theorem passes_iff (hf : a.fault = .none)
    (hr : Reads a transport (headerNumbers a.fault a.options.length n) frame)
    (hd : transport ≠ .icmp → Raw.dstPort frame = a.dport) (hn : transport.least ≤ n)
    (hl : frame.length = max 60 (34 + a.options.length + n)) :
    Passes frame ↔ a.flags % 2 = 0 ∧ a.offset = 0 ∧
      ¬ (transport = .tcp ∧ beNat a.dstIp = 0x0a000002 ∧ a.dport = 22) ∧
      ¬ (transport = .udp ∧ beNat a.srcIp = 0x0a000001 ∧ a.dport = 5000) := by
  have ho := h.options
  rw [hf, headerNumbers] at hr
  have hihl : Raw.ihl frame = 5 + a.options.length / 4 := hr.ihl
  have htotal : Raw.totalLen frame = 20 + a.options.length + n := hr.totalLen
  have hwell : WellFormedIpv4 frame := ⟨hr.version, by omega, by omega, by omega⟩
  have htcp : Raw.protocol frame = 6 ↔ transport = .tcp := by
    rw [hr.protocol, Transport.number_tcp]
  have hudp : Raw.protocol frame = 17 ↔ transport = .udp := by
    rw [hr.protocol, Transport.number_udp]
  have hacceptable : Acceptable frame ↔ a.flags % 2 = 0 ∧ a.offset = 0 := by
    constructor
    · exact fun hacc => ⟨hr.moreFragments ▸ hacc.moreFragments, hr.fragOffset ▸ hacc.fragOffset⟩
    · rintro ⟨hflags, hoffset⟩
      refine ⟨hwell, hr.moreFragments.trans hflags, hr.fragOffset.trans hoffset, fun hp => ?_,
        fun hp => ?_⟩
      · rw [htcp.mp hp] at hn
        change 20 ≤ n at hn
        omega
      · rw [hudp.mp hp] at hn
        change 8 ≤ n at hn
        omega
  have hdenied : DeniedFlow frame ↔
      (transport = .tcp ∧ beNat a.dstIp = 0x0a000002 ∧ a.dport = 22) ∨
        (transport = .udp ∧ beNat a.srcIp = 0x0a000001 ∧ a.dport = 5000) := by
    rw [DeniedFlow, htcp, hudp, hr.dstAddr, hr.srcAddr]
    refine or_congr (and_congr_right fun ht => ?_) (and_congr_right fun ht => ?_)
    · rw [hd (by simp [ht])]
    · rw [hd (by simp [ht])]
  rw [Passes, hr.etherType, hacceptable, hdenied, not_or, and_assoc]
  simp

/-- A frame with a fault in its header. -/
theorem not_acceptable (hm : if a.fault = .shortUdp then transport = .udp else transport = .tcp)
    (hr : Reads a transport (headerNumbers a.fault a.options.length n) frame) (hn : n ≤ 200)
    (hl : frame.length ≤ max 60 (34 + a.options.length + n)) (hf : a.fault ≠ .none)
    (hip : a.fault ≠ .truncatedIp) (hoptions : a.fault ≠ .truncatedOptions) :
    ¬ Acceptable frame := by
  intro hacc
  have ho := h.options
  obtain ⟨hversion, hfive, -, htotal⟩ := hacc.wellFormed
  have htcp : transport = .tcp → 4 * Raw.ihl frame + 20 ≤ Raw.totalLen frame :=
    fun ht => hacc.tcp (hr.protocol.trans (Transport.number_tcp.mpr ht))
  have hudp : transport = .udp → 4 * Raw.ihl frame + 8 ≤ Raw.totalLen frame :=
    fun ht => hacc.udp (hr.protocol.trans (Transport.number_udp.mpr ht))
  rw [hr.version] at hversion
  rw [hr.ihl] at hfive htcp hudp
  rw [hr.totalLen] at htotal htcp hudp
  unfold headerNumbers at hversion hfive htcp hudp htotal
  cases hfault : a.fault with
  | none => exact hf hfault
  | badVersion =>
    rw [hfault] at hversion
    dsimp only at hversion
    omega
  | shortIhl =>
    rw [hfault] at hfive
    dsimp only at hfive
    omega
  | shortTotal =>
    rw [hfault, if_neg (by decide)] at hm
    have hroom := htcp hm
    rw [hfault] at hroom
    dsimp only at hroom
    omega
  | longTotal =>
    rw [hfault] at htotal
    dsimp only at htotal
    omega
  | truncatedIp => exact hip hfault
  | truncatedOptions => exact hoptions hfault
  | shortTcp =>
    rw [hfault, if_neg (by decide)] at hm
    have hroom := htcp hm
    rw [hfault] at hroom
    dsimp only at hroom
    omega
  | shortUdp =>
    rw [hfault, if_pos rfl] at hm
    have hroom := hudp hm
    rw [hfault] at hroom
    dsimp only at hroom
    omega

end
/-- A frame that was cut off. -/
theorem not_acceptable_cut {a : FrameArgs} {transport : Transport} {n k : ℕ} {frame : List Byte}
    (hr : Reads a transport (headerNumbers a.fault a.options.length n) frame)
    (hf : a.fault = .truncatedIp ∨ a.fault = .truncatedOptions) (hn : 20 ≤ n)
    (hk : 18 ≤ k ∧ k ≤ 36) : ¬ Acceptable (frame.take k) := by
  intro hacc
  have htotal := hacc.wellFormed.total_le
  have hcut : Raw.totalLen (frame.take k) = 20 + a.options.length + n := by
    rw [Raw.totalLen, fieldAt, slice_take _ hk.1]
    refine hr.totalLen.trans ?_
    rcases hf with hf | hf <;> rw [hf] <;> rfl
  rw [hcut, List.length_take] at htotal
  omega

/-- The frames that the firewall passes are those the policy allows. -/
theorem makeFrame_passes {a : FrameArgs} (h : a.Fits) (hm : a.Meant) :
    ∃ frame, makeFrame a = .ok frame ∧ 14 ≤ frame.length ∧
      slice frame 0 12 = a.dstMac ++ a.srcMac ∧ (Passes frame ↔ a.Allowed) := by
  cases hp : a.protocol with
  | arp =>
    have hs := h.sequence
    have ho := h.options
    have hgood : ¬ (a.options.length > 40 ∨ a.options.length % 4 ≠ 0) := by omega
    have hpayload : packInts [(4, (a.sequence : ℤ))] = .ok (beBytes 4 a.sequence) :=
      packInts_single.mpr ⟨by omega, rfl⟩
    have hfields : packInts [(2, 1), (2, 0x0800), (1, 6), (1, 4), (2, 1)] =
        .ok [0, 1, 0x08, 0, 6, 4, 0, 1] := by decide
    have htype : ([0x08, 0x06] : List Byte) = beBytes 2 0x0806 := by decide
    refine ⟨ljust 60 (a.dstMac ++ a.srcMac ++ [0x08, 0x06] ++ ([0, 1, 0x08, 0, 6, 4, 0, 1] ++
      a.srcMac ++ a.srcIp ++ List.replicate 6 0 ++ a.dstIp)), ?_, ?_, ?_, ?_⟩
    · rw [makeFrame, raiseIf_pass hgood, hpayload, py_ok_bind, hp]
      dsimp only
      rw [hfields, py_ok_bind]
      rfl
    · rw [ljust_length]
      omega
    · rw [ljust, eq_beBytes h.dstMac, eq_beBytes h.srcMac]
      simp
    · refine iff_of_true (Or.inl ?_) (by simp [FrameArgs.Allowed, hp])
      rw [ljust, htype, etherType, fieldAt, eq_beBytes h.dstMac, eq_beBytes h.srcMac]
      simp
  | ip transport =>
    obtain ⟨bytes, sum, hframe, hleast, hmost, hport⟩ := makeFrame_ip h transport hp
    obtain ⟨hv, hi, ht⟩ := headerNumbers_bounds h hmost
    have hreads := ipFrame_reads h transport hv hi ht sum bytes
    have hlength := @ipFrame_length a h transport
      (headerNumbers a.fault a.options.length bytes.length) sum bytes
    have hown := hreads []
    rw [List.append_nil] at hown
    have hfour : 4 ≤ bytes.length := by
      refine le_trans ?_ hleast
      cases transport <;> decide
    rw [FrameArgs.Meant, hp] at hm
    dsimp only at hm
    have hallowed : a.Allowed ↔ a.fault = .none ∧ a.flags % 2 = 0 ∧ a.offset = 0 ∧
        ¬ (transport = .tcp ∧ beNat a.dstIp = 0x0a000002 ∧ a.dport = 22) ∧
        ¬ (transport = .udp ∧ beNat a.srcIp = 0x0a000001 ∧ a.dport = 5000) := by
      rw [FrameArgs.Allowed, hp]
    generalize hfull : ipFrame a transport (headerNumbers a.fault a.options.length bytes.length)
      sum bytes = full at hframe hreads hlength hown
    have hpadded : Reads a transport (headerNumbers a.fault a.options.length bytes.length)
        (ljust 60 full) := hreads _
    have hmax : (ljust 60 full).length = max 60 (34 + a.options.length + bytes.length) := by
      rw [ljust_length, hlength]
    refine ⟨finish a.fault full, hframe, ?_, ?_, ?_⟩
    · unfold finish
      split <;> simp <;> omega
    · unfold finish
      split
      · rw [slice_take _ (by decide), hown.macs]
      · rw [slice_take _ (by decide), hown.macs]
      · exact (hreads _).macs
    · by_cases hf : a.fault = .none
      · have hfinish : finish a.fault full = ljust 60 full := by rw [hf]; rfl
        have hdport : transport ≠ .icmp → Raw.dstPort (ljust 60 full) = a.dport := by
          intro hne
          have hihl : (headerNumbers a.fault a.options.length bytes.length).2.1 =
              5 + a.options.length / 4 := by rw [hf]; rfl
          rw [ljust, ← hfull]
          exact ipFrame_dstPort h transport (fun rest => hfull ▸ hreads rest) hihl hfour
            (hport hne) _
        rw [hfinish, hallowed, passes_iff h hf hpadded hdport hleast hmax]
        exact (and_iff_right hf).symm
      · refine iff_of_false ?_ fun hall => hf (hallowed.mp hall).1
        have hmeant := hm.resolve_left hf
        have hcut : a.fault = .truncatedIp ∨ a.fault = .truncatedOptions → 20 ≤ bytes.length := by
          intro hc
          have htcp : transport = .tcp := by
            rcases hc with hc | hc <;> rw [hc, if_neg (by decide)] at hmeant <;> exact hmeant
          rw [htcp] at hleast
          exact hleast
        rintro (hne | ⟨hacc, -⟩)
        · refine hne ?_
          unfold finish
          split
          · rw [etherType, fieldAt, slice_take _ (by decide)]
            exact hown.etherType
          · rw [etherType, fieldAt, slice_take _ (by decide)]
            exact hown.etherType
          · exact hpadded.etherType
        · by_cases hip : a.fault = .truncatedIp
          · rw [hip] at hacc
            exact not_acceptable_cut hown (Or.inl hip) (hcut (Or.inl hip)) (by decide) hacc
          by_cases hoptions : a.fault = .truncatedOptions
          · rw [hoptions] at hacc
            exact not_acceptable_cut hown (Or.inr hoptions) (hcut (Or.inr hoptions)) (by decide)
              hacc
          have hfinish : finish a.fault full = ljust 60 full := by
            unfold finish
            split <;> first | contradiction | rfl
          rw [hfinish] at hacc
          exact not_acceptable h hmeant hpadded hmost hmax.le hf hip hoptions hacc

end P4Cases.Firewall
