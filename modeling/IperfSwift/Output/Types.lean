import IperfSwift.Lib.Heap
import IperfSwift.Lib.Bytes

/-!
Contract: the limits, states and records of `iperf_bounded_output.h`.

Owns: the constants of the result reader, the state of the optional server
output, the read metrics, and `iperf_clear_server_output`.

Does not own: the socket adapters and their deadline.
-/

set_option autoImplicit false

namespace IperfSwift.Output

open IperfSwift.Lib

/-! ### Limits -/

/-- `IPERF_OUTPUT_MAX_BYTES`. -/
def outputMaxBytes : Nat := 1024 * 1024

/-- `IPERF_RESULT_CORE_MAX_BYTES`. -/
def resultCoreMaxBytes : Nat := 1024 * 1024

/-- `IPERF_RESULT_FRAME_MAX_BYTES`. -/
def resultFrameMaxBytes : Nat := 67108864

/-- `IPERF_RESULT_MAX_DEPTH`. -/
def resultMaxDepth : Nat := 64

/-- `IPERF_RESULT_CORE_MAX_VALUES`. -/
def resultCoreMaxValues : Nat := 16384

/-- `IPERF_RESULT_MAX_VALUES`. -/
def resultMaxValues : Nat := 1048576

/-- `IPERF_RESULT_MAX_NUMBER_LENGTH`. -/
def resultMaxNumberLength : Nat := 63

/-! ### Error numbers -/

/-- A value of `errno`; 0 is no error. -/
abbrev Errno := Int

/-- The numbers of `sys/errno.h` on Apple platforms. -/
def ENOMEM : Errno := 12

def EINVAL : Errno := 22

def EFBIG : Errno := 27

def EPROTO : Errno := 100

/-! ### Server output -/

inductive OutputState where
  | missing
  | complete
  | truncated
  | discarded
  | invalid
deriving DecidableEq, Repr

inductive OutputFormat where
  | none
  | text
  | json
deriving DecidableEq, Repr

inductive OutputReason where
  | none
  | byteLimit
  | nodeLimit
  | depthLimit
  | invalidData
  | allocationFailure
  | readFailure
deriving DecidableEq, Repr

/-- `struct iperf_server_output`. The buffer holds the bytes written so far, so
`length` is the length of `value`; the capacity of the buffer is in the heap. -/
structure ServerOutput where
  value : Option (List Byte) := none
  observedBytes : Nat := 0
  state : OutputState := .missing
  format : OutputFormat := .none
  reason : OutputReason := .none
  observedBytesComplete : Bool := false
deriving DecidableEq, Repr

/-- The bytes held, none if there is no buffer. -/
def ServerOutput.held (output : ServerOutput) : List Byte := output.value.getD []

/-- `struct iperf_result_read_metrics` without `bytes_read`, which belongs to the
input. -/
structure ReadMetrics where
  coreJsonBytes : Nat := 0
  coreValues : Nat := 0
  maximumDepth : Nat := 0
  peakBufferCapacity : Nat := 0
deriving DecidableEq, Repr

end IperfSwift.Output
