import P4Cases.Frames.Ipv4

/-! In-band telemetry: an IPv4 router that adds a record of itself to the packets
that carry the option for it, and what the controller installs on the switches. -/
namespace P4Cases.Telemetry
open Wire P4

def maxIntHeaders : ℕ := 9

def ipv4OptionInt : BitVec 8 := 0x1f

inductive ErrorCode where
  | invalidIPv4Version
  | invalidIPv4Length
  | invalidINTLength
  deriving DecidableEq, Repr

structure Ipv4 where
  version : BitVec 4
  ihl : BitVec 4
  dscp : BitVec 6
  ecn : BitVec 2
  totalLen : BitVec 16
  identification : BitVec 16
  flags : BitVec 3
  fragOffset : BitVec 13
  ttl : BitVec 8
  protocol : BitVec 8
  hdrChecksum : BitVec 16
  srcAddr : BitVec 32
  dstAddr : BitVec 32
  deriving DecidableEq

instance : Header Ipv4 where
  layout := [4, 4, 6, 2, 16, 16, 3, 13, 8, 8, 16, 32, 32]
  size := 20
  sum_layout := rfl
  toFields h := (h.version, h.ihl, h.dscp, h.ecn, h.totalLen, h.identification, h.flags,
    h.fragOffset, h.ttl, h.protocol, h.hdrChecksum, h.srcAddr, h.dstAddr, ())
  ofFields f := match f with
    | (a, b, c, d, e, f, g, h, i, j, k, l, m, ()) => ⟨a, b, c, d, e, f, g, h, i, j, k, l, m⟩
  ofFields_toFields _ := rfl
  toFields_ofFields _ := rfl

structure Ipv4Option where
  copyFlag : BitVec 1
  optClass : BitVec 2
  option : BitVec 5
  optionLength : BitVec 8
  deriving DecidableEq

instance : Header Ipv4Option where
  layout := [1, 2, 5, 8]
  size := 2
  sum_layout := rfl
  toFields h := (h.copyFlag, h.optClass, h.option, h.optionLength, ())
  ofFields f := ⟨f.1, f.2.1, f.2.2.1, f.2.2.2.1⟩
  ofFields_toFields _ := rfl
  toFields_ofFields _ := rfl

structure IntCount where
  numSwitches : BitVec 16
  deriving DecidableEq

instance : Header IntCount where
  layout := [16]
  size := 2
  sum_layout := rfl
  toFields h := (h.numSwitches, ())
  ofFields f := ⟨f.1⟩
  ofFields_toFields _ := rfl
  toFields_ofFields _ := rfl

structure IntHeader where
  switchId : BitVec 13
  queueDepth : BitVec 13
  outputPort : BitVec 6
  deriving DecidableEq

instance : Header IntHeader where
  layout := [13, 13, 6]
  size := 4
  sum_layout := rfl
  toFields h := (h.switchId, h.queueDepth, h.outputPort, ())
  ofFields f := ⟨f.1, f.2.1, f.2.2.1⟩
  ofFields_toFields _ := rfl
  toFields_ofFields _ := rfl

/-- A header stack. The valid elements are the ones in front: the parser fills the
stack from there, and a pushed element is made valid at once. -/
structure HeaderStack (α : Type) (size : ℕ) where
  valid : List α
  length_le : valid.length ≤ size

namespace HeaderStack
variable {α : Type} {size : ℕ}

def empty : HeaderStack α size := ⟨[], Nat.zero_le size⟩

/-- Store into `next`; nothing when the stack is full. -/
def append (stack : HeaderStack α size) (a : α) : Option (HeaderStack α size) :=
  if h : stack.valid.length < size then some ⟨stack.valid ++ [a], by simpa using h⟩ else none

/-- `push_front(1)`, with the new first element set; the last one may fall off. -/
def pushFront (stack : HeaderStack α size) (a : α) : HeaderStack α size :=
  ⟨(a :: stack.valid).take size, by simp⟩

end HeaderStack

abbrev IntStack := HeaderStack IntHeader maxIntHeaders

structure UserMetadata where
  remaining : BitVec 16 := 0
  optionType : BitVec 8 := 0
  deriving DecidableEq

structure Headers where
  ethernet : Option Ethernet := none
  ipv4 : Option Ipv4 := none
  ipv4Option : Option Ipv4Option := none
  intCount : Option IntCount := none
  intHeaders : IntStack := .empty
  options : Option (List Byte) := none
  user : UserMetadata := {}

abbrev Metadata := StandardMetadata ErrorCode

def Headers.storeNext (h : IntHeader) (hdr : Headers) : Headers :=
  { hdr with intHeaders := (hdr.intHeaders.append h).getD hdr.intHeaders }

/-- `packet.extract(hdr.int_headers.next)`. -/
def extractNext : Parser ErrorCode Headers IntHeader := fun c =>
  if c.hdr.intHeaders.valid.length < maxIntHeaders then Parser.extract Headers.storeNext c
  else (.error .stackOutOfBounds, c)

def Headers.setRemaining (remaining : BitVec 16) (hdr : Headers) : Headers :=
  { hdr with user := { hdr.user with remaining } }

/-- The loop, by the value of `meta.remaining`; it accepts at zero. -/
def parseIntHeaders : ℕ → Parser ErrorCode Headers Unit
  | 0 => Parser.accept
  | remaining + 1 => do
      let _ ← extractNext
      Parser.assign (Headers.setRemaining (BitVec.ofNat 16 remaining))
      parseIntHeaders remaining

/-- The record count, the option length and the header length have to agree. -/
def verifyOption (ihl : BitVec 4) (ipv4Option : Ipv4Option) (intCount : IntCount) :
    Parser ErrorCode Headers Unit := do
  Parser.verify (intCount.numSwitches ≤ BitVec.ofNat 16 maxIntHeaders) .invalidINTLength
  Parser.verify (ipv4Option.optionLength = 4 + intCount.numSwitches.setWidth 8 * 4)
    .invalidINTLength
  Parser.verify (ipv4Option.optionLength.setWidth 16 = (ihl.setWidth 16 - 5) * 4)
    .invalidINTLength

def parseIntOption (ihl : BitVec 4) : Parser ErrorCode Headers Unit := do
  let ipv4Option : Ipv4Option ← Parser.extract fun h hdr => { hdr with ipv4Option := some h }
  let intCount : IntCount ← Parser.extract fun h hdr => { hdr with intCount := some h }
  verifyOption ihl ipv4Option intCount
  Parser.assign (Headers.setRemaining intCount.numSwitches)
  parseIntHeaders intCount.numSwitches.toNat

def parseOptionType (ihl : BitVec 4) : Parser ErrorCode Headers Unit := do
  let first ← Parser.lookahead
  Parser.assign fun hdr => { hdr with user := { hdr.user with optionType := first &&& 0x7f } }
  if first &&& 0x7f = ipv4OptionInt then parseIntOption ihl
  else parseOptions ihl (fun data hdr => { hdr with options := some data }) Parser.accept

def parseIpv4 (sm : Metadata) : Parser ErrorCode Headers Unit := do
  let ipv4 : Ipv4 ← Parser.extract fun h hdr => { hdr with ipv4 := some h }
  verifyLengths .invalidIPv4Version .invalidIPv4Length ipv4.version ipv4.ihl ipv4.totalLen
    sm.packetLength
  if ipv4.ihl = 5 then Parser.accept else parseOptionType ipv4.ihl

def myParser (sm : Metadata) : Parser ErrorCode Headers Unit := do
  let ethernet : Ethernet ← Parser.extract fun h hdr => { hdr with ethernet := some h }
  if ethernet.etherType = typeIpv4 then parseIpv4 sm else Parser.accept

/-! The checksum, over the records that are there. -/

/-- `IPV4_FIELDS`. -/
def ipv4Fields (h : Ipv4) : List Bool :=
  toBits h.version ++ (toBits h.ihl ++ (toBits h.dscp ++ (toBits h.ecn ++ (toBits h.totalLen ++
  (toBits h.identification ++ (toBits h.flags ++ (toBits h.fragOffset ++ (toBits h.ttl ++
  (toBits h.protocol ++ (toBits h.srcAddr ++ toBits h.dstAddr))))))))))

/-- `TRACE_FIELDS`. -/
def traceFields (h : IntHeader) : List Bool :=
  toBits h.switchId ++ (toBits h.queueDepth ++ toBits h.outputPort)

/-- `INT_FIELDS_n`. `unset` is what reading an invalid element of the stack gives. -/
def intFields (unset : IntHeader) (option : Ipv4Option) (count : IntCount) (stack : IntStack)
    (n : ℕ) : List Bool :=
  toBits option.copyFlag ++ (toBits option.optClass ++ (toBits option.option ++
    (toBits option.optionLength ++ (toBits count.numSwitches ++
      (List.range n).flatMap fun i => traceFields (stack.valid.getD i unset)))))

/-- The guard of the `n`-th `VERIFY_INT` and `UPDATE_INT`, and the bits behind it. -/
def intData (unset : IntHeader) (hdr : Headers) (n : ℕ) : Bool × List Bool :=
  match hdr.ipv4Option, hdr.intCount with
  | some option, some count =>
      (decide (count.numSwitches = BitVec.ofNat 16 n),
        intFields unset option count hdr.intHeaders n)
  | _, _ => (false, [])

def myVerifyChecksum (unset : IntHeader) (hdr : Headers) : Bool :=
  match hdr.ipv4 with
  | none => false
  | some ipv4 =>
      verifyChecksum (decide (ipv4.ihl = 5)) (ipv4Fields ipv4) ipv4.hdrChecksum ||
        (verifyChecksum hdr.options.isSome
            (ipv4Fields ipv4 ++ bytesBits (hdr.options.getD [])) ipv4.hdrChecksum ||
          (List.range (maxIntHeaders + 1)).any fun n =>
            verifyChecksum (intData unset hdr n).1 (ipv4Fields ipv4 ++ (intData unset hdr n).2)
              ipv4.hdrChecksum)

def updatedChecksum (unset : IntHeader) (hdr : Headers) (ipv4 : Ipv4) : BitVec 16 :=
  let plain := updateChecksum (decide (ipv4.ihl = 5)) (ipv4Fields ipv4) ipv4.hdrChecksum
  let full := updateChecksum hdr.options.isSome
    (ipv4Fields ipv4 ++ bytesBits (hdr.options.getD [])) plain
  (List.range (maxIntHeaders + 1)).foldl
    (fun stored n => updateChecksum (intData unset hdr n).1
      (ipv4Fields ipv4 ++ (intData unset hdr n).2) stored) full

def myComputeChecksum (unset : IntHeader) (hdr : Headers) : Headers :=
  { hdr with ipv4 := hdr.ipv4.map fun h => { h with hdrChecksum := updatedChecksum unset hdr h } }

/-! Routing and recording. -/

inductive LpmAction where
  | ipv4Forward (dstAddr : BitVec 48) (port : Port)
  | drop
  | noAction
  deriving DecidableEq

inductive IntAction where
  | addIntHeader (swid : BitVec 13)
  | noAction
  deriving DecidableEq

def ipv4Forward (dstAddr : BitVec 48) (port : Port) (hdr : Headers) (sm : Metadata) :
    Headers × Metadata :=
  ({ hdr with
      ethernet := hdr.ethernet.map fun e => { e with srcAddr := e.dstAddr, dstAddr }
      ipv4 := hdr.ipv4.map fun h => { h with ttl := h.ttl - 1 } },
    { sm with egressSpec := port })

def myIngress (ipv4Lpm : Table (BitVec 32) LpmAction) (hdr : Headers) (sm : Metadata) :
    Headers × Metadata :=
  match hdr.ipv4 with
  | none => (hdr, markToDrop sm)
  | some ipv4 =>
      if sm.parserError ≠ none ∨ sm.checksumError = 1 ∨ ipv4.ttl ≤ 1 then (hdr, markToDrop sm)
      else
        match (ipv4Lpm.lookup ipv4.dstAddr).getD .drop with
        | .ipv4Forward dstAddr port => ipv4Forward dstAddr port hdr sm
        | .drop => (hdr, markToDrop sm)
        | .noAction => (hdr, sm)

def addIntHeader (swid : BitVec 13) (hdr : Headers) (sm : Metadata) : Headers :=
  { hdr with
    intHeaders := hdr.intHeaders.pushFront
      { switchId := swid, queueDepth := sm.deqQdepth.setWidth 13
        outputPort := sm.egressPort.setWidth 6 }
    intCount := hdr.intCount.map fun c => { c with numSwitches := c.numSwitches + 1 }
    ipv4 := hdr.ipv4.map fun h => { h with ihl := h.ihl + 1, totalLen := h.totalLen + 4 }
    ipv4Option := hdr.ipv4Option.map fun o => { o with optionLength := o.optionLength + 4 } }

/-- `int_table` has no key; `intDefault` is its default action. -/
def myEgress (intDefault : IntAction) (hdr : Headers) (sm : Metadata) : Headers × Metadata :=
  match hdr.intCount, hdr.ipv4 with
  | some count, some ipv4 =>
      if count.numSwitches < BitVec.ofNat 16 maxIntHeaders ∧ ipv4.totalLen ≤ 65531 then
        match intDefault with
        | .addIntHeader swid => (addIntHeader swid hdr sm, sm)
        | .noAction => (hdr, sm)
      else (hdr, sm)
  | _, _ => (hdr, sm)

def myDeparser (hdr : Headers) : List Byte :=
  hdr.ethernet.elim [] Header.encode ++ (hdr.ipv4.elim [] Header.encode ++
    (hdr.ipv4Option.elim [] Header.encode ++ (hdr.intCount.elim [] Header.encode ++
      (hdr.intHeaders.valid.flatMap Header.encode ++ hdr.options.getD []))))

def router (unset : IntHeader) (ipv4Lpm : Table (BitVec 32) LpmAction) (intDefault : IntAction) :
    V1Switch ErrorCode Headers Unit where
  initial := {}
  parser := myParser
  verifyChecksum := myVerifyChecksum unset
  ingress _ hdr sm := ((), myIngress ipv4Lpm hdr sm)
  egress := myEgress intDefault
  computeChecksum := myComputeChecksum unset
  deparser := myDeparser

/-! The controller's configuration. -/

inductive SwitchId where
  | s1
  | s2
  | s3
  deriving DecidableEq, Repr

def SwitchId.number : SwitchId → ℕ
  | .s1 => 1
  | .s2 => 2
  | .s3 => 3

structure SwitchConfig where
  switchId : ℕ
  lpm : Table (BitVec 32) LpmAction

def configFor : SwitchId → SwitchConfig
  | .s1 =>
      { switchId := 1
        lpm := [.lpm 0x0a000101 32 (.ipv4Forward 0x00000a000101 1),
          .lpm 0x0a000202 32 (.ipv4Forward 0x00010a000202 2),
          .lpm 0x0a000300 24 (.ipv4Forward 0x000000030100 3)] }
  | .s2 =>
      { switchId := 2
        lpm := [.lpm 0x0a000202 32 (.ipv4Forward 0x00000a000202 1),
          .lpm 0x0a000000 16 (.ipv4Forward 0x000000010200 2)] }
  | .s3 =>
      { switchId := 3
        lpm := [.lpm 0x0a000303 32 (.ipv4Forward 0x00000a000303 1),
          .lpm 0x0a000304 32 (.ipv4Forward 0x00000a000304 2),
          .lpm 0x0a000000 16 (.ipv4Forward 0x000000010300 3)] }

/-- A switch as its controller leaves it: the entries, and the default action that
records the switch. -/
def configured (unset : IntHeader) (s : SwitchId) : V1Switch ErrorCode Headers Unit :=
  router unset (configFor s).lpm (.addIntHeader (BitVec.ofNat 13 (configFor s).switchId))

end P4Cases.Telemetry
