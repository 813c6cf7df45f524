import P4Cases.Telemetry.Path
import P4Cases.Frames.Python

/-! The helpers of the end-to-end test: the record and option codec, the parser of
captured frames, and the check of a forwarded frame against the one that was sent. -/
namespace P4Cases.Telemetry
open Wire P4

def maxTraces : ℕ := 9

def hostIps : Host → BitVec 32
  | .h1 => 0x0a000101
  | .h2 => 0x0a000202
  | .h3 => 0x0a000303
  | .h4 => 0x0a000304

def hostMacs (host : Host) : List Byte := [0, 0, 0x0a] ++ (beBytes 4 (hostIps host).toNat).drop 1

def nextHops : List ((ℕ × ℕ) × List Byte) :=
  [((1, 1), hostMacs .h1), ((1, 2), [0x00, 0x01, 0x0a, 0x00, 0x02, 0x02]),
    ((1, 3), [0x00, 0x00, 0x00, 0x03, 0x01, 0x00]), ((2, 1), hostMacs .h2),
    ((2, 2), [0x00, 0x00, 0x00, 0x01, 0x02, 0x00]), ((3, 1), hostMacs .h3), ((3, 2), hostMacs .h4),
    ((3, 3), [0x00, 0x00, 0x00, 0x01, 0x03, 0x00])]

/-- `PATHS[sender, receiver]`, where there is one. -/
def paths : Host → Host → Option (List (ℕ × ℕ))
  | .h1, .h2 => some [(1, 2), (2, 1)]
  | .h1, .h3 => some [(1, 3), (3, 1)]
  | .h1, .h4 => some [(1, 3), (3, 2)]
  | .h2, .h1 => some [(2, 2), (1, 1)]
  | .h2, .h3 => some [(2, 2), (1, 3), (3, 1)]
  | .h2, .h4 => some [(2, 2), (1, 3), (3, 2)]
  | .h3, .h1 => some [(3, 3), (1, 1)]
  | .h3, .h2 => some [(3, 3), (1, 2), (2, 1)]
  | .h3, .h4 => some [(3, 2)]
  | .h4, .h1 => some [(3, 3), (1, 1)]
  | .h4, .h2 => some [(3, 3), (1, 2), (2, 1)]
  | .h4, .h3 => some [(3, 1)]
  | _, _ => none

/-- Switch, queue depth and output port of a record, as Python integers. -/
abbrev Trace := ℤ × ℤ × ℤ

def traceBytes (trace : Trace) : Py (List Byte) := do
  let (swid, depth, port) := trace
  raiseIf (¬ ((0 ≤ swid ∧ swid < 8192) ∧ (0 ≤ depth ∧ depth < 8192) ∧ 0 ≤ port ∧ port < 64))
    (.valueError "trace fields exceed their wire widths")
  return beBytes 4 (swid.toNat <<< 19 ||| depth.toNat <<< 6 ||| port.toNat)

def intOption (traces : List Trace) (copied : Bool) : Py (List Byte) := do
  raiseIf (traces.length > maxTraces) (.valueError "INT options support at most nine traces")
  let body := (← traces.mapM traceBytes).flatten
  return beBytes 1 (if copied then 0x9F else 0x1F) ++ beBytes 1 (4 + body.length) ++
    beBytes 2 traces.length ++ body

/-- What `parse_frame` returns. -/
structure ParsedFrame where
  ihl : ℕ
  total : ℕ
  options : List Byte
  traces : Option (List Trace)
  payload : List Byte
  ttl : ℕ
  deriving DecidableEq

def traceOf (value : ℕ) : Trace :=
  ((value >>> 19 : ℕ), (value >>> 6 &&& 8191 : ℕ), (value &&& 63 : ℕ))

/-- The options part of `parse_frame`. -/
def parseTraces (options : List Byte) : Py (Option (List Trace)) :=
  if options ≠ [] ∧ (options.headD 0).toNat &&& 0x7F = 0x1F then do
    raiseIf (options.length < 4) (.runtimeError "incomplete INT option")
    let length ← byteAt options 1
    let count := fieldAt options 2 4
    raiseIf (count > maxTraces ∨ length ≠ 4 + 4 * count ∨ length ≠ options.length)
      (.runtimeError "INT count, option length and IHL disagree")
    return some ((List.range' 4 ((length - 4 + 3) / 4) 4).map fun offset =>
      traceOf (fieldAt options offset (offset + 4)))
  else return none

def parseFrame (frame : List Byte) : Py ParsedFrame := do
  raiseIf (frame.length < 34 ∨ slice frame 12 14 ≠ [0x08, 0x00])
    (.runtimeError "frame does not contain a complete IPv4 header")
  let first ← byteAt frame 14
  raiseIf (first >>> 4 ≠ 4) (.runtimeError "frame does not contain a complete IPv4 header")
  let ihl := (first &&& 15) * 4
  let total := fieldAt frame 16 18
  raiseIf (ihl < 20 ∨ total < ihl ∨ frame.length ≠ 14 + total)
    (.runtimeError "IPv4 lengths do not match the complete frame")
  raiseIf (checksum (slice frame 14 (14 + ihl)) ≠ 0)
    (.runtimeError "invalid IPv4 header checksum")
  let options := slice frame 34 (14 + ihl)
  let traces ← parseTraces options
  let ttl ← byteAt frame 22
  return { ihl, total, options, traces, payload := frame.drop (14 + ihl), ttl }

def expectedTraceCount (sent : List Byte) (path : List (ℕ × ℕ)) : Py (Option ℕ) := do
  let original ← parseFrame sent
  return original.traces.map fun traces =>
    min maxTraces (min (traces.length + path.length)
      (traces.length + (65535 - original.total) / 4))

/-- The options the forwarded frame has to carry, for `count` expected records. -/
def forwardedOptions (original actual : ParsedFrame) (count : Option ℕ) (path : List (ℕ × ℕ)) :
    Py (List Byte) :=
  match count, original.traces with
  | some count, some traces => do
      let found := actual.traces.getD []
      raiseIf (actual.traces = none ∨ found.length ≠ count)
        (.runtimeError "unexpected number of INT traces")
      let inserted := count - traces.length
      let newest := found.take inserted
      raiseIf ((newest.map fun trace => (trace.1, trace.2.2)) ≠
          (path.take inserted).reverse.map fun hop => ((hop.1 : ℤ), (hop.2 : ℤ)))
        (.runtimeError "INT switch order or output port does not match the path")
      raiseIf (found.drop inserted ≠ traces)
        (.runtimeError "existing INT traces were changed or lost")
      let first ← byteAt original.options 0
      intOption (newest ++ traces) (first &&& 128 ≠ 0)
  | _, _ => do
      raiseIf (actual.options ≠ original.options)
        (.runtimeError "ordinary IPv4 options changed during forwarding")
      return original.options

/-- `data[i] = value` on a `bytearray`. -/
def setItem (data : List Byte) (i : ℕ) (value : ℤ) : Py (List Byte) := do
  raiseIf (¬ (0 ≤ value ∧ value < 256)) (.valueError "byte must be in range(0, 256)")
  raiseIf (data.length ≤ i) .indexError
  return setSlice data i (i + 1) (beBytes 1 value.toNat)

def forwardedHeader (sent newOptions payload : List Byte) (hops : ℕ) : Py (List Byte) := do
  let expectedIp := slice sent 14 34 ++ newOptions
  let expectedIp ← setItem expectedIp 0 (0x45 + newOptions.length / 4)
  let expectedIp := setSlice expectedIp 2 4
    (← packWord (20 + newOptions.length + payload.length))
  let expectedIp ← setItem expectedIp 8 ((← byteAt expectedIp 8) - hops)
  let expectedIp := setSlice expectedIp 10 12 [0, 0]
  return setSlice expectedIp 10 12 (← packWord (checksum expectedIp))

/-- `NEXT_HOPS[path[-i]]`. -/
def nextHop (path : List (ℕ × ℕ)) (i : ℕ) : Py (List Byte) :=
  match path.reverse[i - 1]? with
  | none => .error .indexError
  | some hop =>
      match nextHops.lookup hop with
      | none => .error .keyError
      | some mac => .ok mac

/-- `NEXT_HOPS[path[-2]] if len(path) > 1 else sent[:6]`. -/
def sourceMac (sent : List Byte) (path : List (ℕ × ℕ)) : Py (List Byte) :=
  if path.length > 1 then nextHop path 2 else .ok (slice sent 0 6)

def forwardedFrame (sent newOptions payload : List Byte) (path : List (ℕ × ℕ)) :
    Py (List Byte) := do
  let expectedIp ← forwardedHeader sent newOptions payload path.length
  let source ← sourceMac sent path
  let target ← nextHop path 1
  return target ++ source ++ [0x08, 0x00] ++ expectedIp ++ payload

def checkForwarded (sent received : List Byte) (path : List (ℕ × ℕ)) : Py Unit := do
  let original ← parseFrame sent
  let actual ← parseFrame received
  let count ← expectedTraceCount sent path
  let newOptions ← forwardedOptions original actual count path
  let expected ← forwardedFrame sent newOptions original.payload path
  raiseIf (received ≠ expected)
    (.runtimeError "routed frame contents, length, TTL or payload differ")

end P4Cases.Telemetry
