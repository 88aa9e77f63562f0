import IperfSwift.Lib.Cut
import IperfSwift.Output.Types

/-!
Contract: `iperf_bounded_log.c`, function by function.

Owns: the status that all logs of a server share, a log with its tail, the file
behind it and the answers of the system; writing, closing, wrapping a sink and
opening a path.

The descriptor is opened for appending and the sink is unbuffered, so `fwrite`
puts a first part of its bytes at the end of the file and says how long that
part is.

Does not own: any bound on what ends up in the file.
-/

set_option autoImplicit false

namespace IperfSwift.Log

open IperfSwift.Lib
open IperfSwift.Output

/-! ### Constants -/

def marker : List Byte := bytesOf "\n[iperf log truncated]\n"

/-- `MARKER_SIZE`. -/
def markerSize : Nat := 23

/-- `TAIL_SIZE`. -/
def tailSize : Nat := markerSize + 3

def EIO : Errno := 5

/-! ### State -/

/-- `struct iperf_log_status`. -/
structure LogStatus where
  limit : Nat
  bytesWritten : Nat := 0
  fileBytes : Nat := 0
  attempted : Bool := false
  fileSizeKnown : Bool := false
  truncated : Bool := false
  openErrno : Errno := 0
  writeErrno : Errno := 0
  closeErrno : Errno := 0
deriving DecidableEq, Repr

/-- `struct bounded_log`. `sink` says whether there is one. -/
structure BoundedLog where
  sink : Bool
  capacity : Nat
  accepted : Nat
  tail : List Byte
deriving DecidableEq, Repr

/-- What one `fwrite` does: how many bytes it appends, if there are as many, whether the sink
has an error then, and `errno`. -/
structure WriteReply where
  written : Nat
  failed : Bool
  errno : Errno
deriving DecidableEq, Repr

/-- The status and the file, the replies of `fwrite` still to come, how often the path was
opened and how often the truncation path has come to its marker. Once there are no more
replies everything is written. -/
structure World where
  status : LogStatus
  file : List Byte
  replies : List WriteReply
  opens : Nat
  markers : Nat
deriving DecidableEq, Repr

/-- `remember_error`. -/
def rememberError (slot error : Errno) : Errno :=
  if slot = 0 then if error ≠ 0 then error else EIO else slot

/-! ### Writing -/

/-- `fwrite` on the sink: the bytes that are appended, and whether all went well. -/
def fwrite (bytes : List Byte) : List WriteReply → List Byte × Option Errno
  | [] => (bytes, none)
  | reply :: _ =>
      let written := bytes.take reply.written
      (written, if written.length ≠ bytes.length ∨ reply.failed then some reply.errno else none)

/-- `write_bytes`. -/
def writeBytes (sink : Bool) (bytes : List Byte) (world : World) : World :=
  if bytes = [] ∨ sink = false ∨ world.status.writeErrno ≠ 0 then world
  else
    let done := fwrite bytes world.replies
    { world with
      file := world.file ++ done.1
      replies := world.replies.tail
      status :=
        { world.status with
          bytesWritten := world.status.bytesWritten + done.1.length
          fileBytes := world.status.fileBytes + done.1.length
          writeErrno :=
            match done.2 with
            | some error => rememberError world.status.writeErrno error
            | none => world.status.writeErrno } }

/-- `retain_prefix`. -/
def retainPrefix (log : BoundedLog) (bytes : List Byte) (world : World) : BoundedLog × World :=
  let flush := log.tail.length + bytes.length - tailSize
  let old := min flush log.tail.length
  let flushed := writeBytes log.sink (log.tail.take old) world
  let written := writeBytes log.sink (bytes.take (flush - old)) flushed
  ({ log with tail := log.tail.drop old ++ bytes.drop (flush - old) }, written)

/-- The loop of `utf8_prefix`: back to a byte that is no continuation. -/
def leadIndex (bytes : List Byte) : Nat → Nat
  | 0 => 0
  | start + 1 =>
      if bytes.getD (start + 1) 0 &&& 0xc0 = 0x80 then leadIndex bytes start else start + 1

/-- The length of a sequence by its lead byte. -/
def leadWidth (lead : Byte) : Nat :=
  if 0xf0 ≤ lead.toNat ∧ lead.toNat ≤ 0xf4 then 4
  else if 0xe0 ≤ lead.toNat ∧ lead.toNat ≤ 0xef then 3
  else if 0xc2 ≤ lead.toNat ∧ lead.toNat ≤ 0xdf then 2
  else 1

/-- `utf8_prefix`. -/
def utf8Prefix (bytes : List Byte) : Nat :=
  if bytes = [] then 0
  else
    let start := leadIndex bytes (bytes.length - 1)
    if bytes.length - start < leadWidth (bytes.getD start 0) then start else bytes.length

/-- What `bounded_write` does when more is written than there is room for. -/
def truncate (log : BoundedLog) (world : World) : BoundedLog × World :=
  let marked := { world with status := { world.status with truncated := true } }
  let count := utf8Prefix (log.tail.take (log.tail.length - markerSize))
  let kept := writeBytes log.sink (log.tail.take count) marked
  let ended := writeBytes log.sink marker { kept with markers := kept.markers + 1 }
  ({ log with tail := [] }, ended)

/-- `bounded_write`. -/
def boundedWrite (log : BoundedLog) (bytes : List Byte) (world : World) : BoundedLog × World :=
  if bytes = [] then (log, world)
  else if world.status.truncated ∨ world.status.openErrno ≠ 0 ∨ world.status.writeErrno ≠ 0 then
    (log, world)
  else if log.capacity < markerSize then
    (log, { world with status := { world.status with truncated := true } })
  else
    let remaining := log.capacity - log.accepted
    let keep := min bytes.length remaining
    let retained := retainPrefix log (bytes.take keep) world
    let accepting := { retained.1 with accepted := retained.1.accepted + keep }
    if remaining < bytes.length then truncate accepting retained.2 else (accepting, retained.2)

/-! ### Closing and opening -/

/-- `bounded_close`. `reply` is the error of `fclose`, if it fails. -/
def boundedClose (log : BoundedLog) (reply : Option Errno) (world : World) : World :=
  let flushed := writeBytes log.sink log.tail world
  match log.sink, reply with
  | true, some error =>
      { flushed with
        status := { flushed.status with
          closeErrno := rememberError flushed.status.closeErrno error } }
  | _, _ => flushed

/-- The errors met on the way to a log, where there are any. `regular` is false for a
descriptor of another kind or with a negative size. -/
structure OpenReplies where
  openPath : Option Errno
  fstat : Option Errno
  regular : Bool
  fdopen : Option Errno
  calloc : Bool
  setvbuf : Option Errno
  funopen : Option Errno
  fclose : Option Errno
deriving DecidableEq, Repr

/-- `remember_error(&status->open_errno, error)`. -/
def World.openError (world : World) (error : Errno) : World :=
  { world with status := { world.status with
      openErrno := rememberError world.status.openErrno error } }

/-- How `iperf_bounded_log_wrap` begins. -/
def World.wrapped (world : World) (sink : Bool) (existing : Nat) : World :=
  { world with status := { world.status with
      attempted := true
      fileBytes := existing
      fileSizeKnown := world.status.fileSizeKnown || sink } }

/-- The check of the limit, with the capacity that is left. -/
def World.limited (world : World) (existing : Nat) : Nat × World :=
  if world.status.limit < markerSize ∨ world.status.limit < existing then
    (0, world.openError (if world.status.limit < existing then EFBIG else EINVAL))
  else (world.status.limit - existing, world)

/-- `setvbuf` on the sink. -/
def World.unbuffered (world : World) (sink : Bool) (reply : Option Errno) : World :=
  match sink, reply with
  | true, some error => world.openError error
  | _, _ => world

/-- `iperf_bounded_log_wrap`. -/
def iperfBoundedLogWrap (sink : Bool) (existing : Nat) (replies : OpenReplies) (world : World) :
    Option BoundedLog × World :=
  let begun := world.wrapped sink existing
  if replies.calloc then
    let limited := begun.limited existing
    let log : BoundedLog := ⟨sink, limited.1, 0, []⟩
    let ready := limited.2.unbuffered sink replies.setvbuf
    match replies.funopen with
    | none => (some log, ready)
    | some error => (none, (boundedClose log replies.fclose ready).openError error)
  else (none, begun.openError ENOMEM)

/-- The status disables every further log. -/
def LogStatus.Disabled (status : LogStatus) : Prop :=
  status.truncated = true ∨ status.openErrno ≠ 0 ∨ status.writeErrno ≠ 0 ∨ status.closeErrno ≠ 0

instance (status : LogStatus) : Decidable status.Disabled := inferInstanceAs (Decidable (_ ∨ _))

/-- `iperf_bounded_log_open` on the path of the file. -/
def iperfBoundedLogOpen (replies : OpenReplies) (world : World) : Option BoundedLog × World :=
  if world.status.attempted = true ∧ world.status.Disabled then
    iperfBoundedLogWrap false world.status.fileBytes replies world
  else
    let opened := { world with opens := world.opens + 1 }
    match replies.openPath with
    | some error => iperfBoundedLogWrap false 0 replies (opened.openError error)
    | none =>
        match replies.fstat with
        | some error => iperfBoundedLogWrap false 0 replies (opened.openError error)
        | none =>
            if replies.regular then
              let known := { opened with status := { opened.status with fileSizeKnown := true } }
              match replies.fdopen with
              | some error =>
                  iperfBoundedLogWrap false world.file.length replies (known.openError error)
              | none => iperfBoundedLogWrap true world.file.length replies known
            else iperfBoundedLogWrap false 0 replies (opened.openError EINVAL)

end IperfSwift.Log
