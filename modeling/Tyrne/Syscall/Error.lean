import Tyrne.Ipc.Ops

/-!
# Syscall errors

The typed failures of a syscall and the status words userspace sees for them.
-/

namespace Tyrne

inductive SyscallError
  | badSyscallNumber
  | badArgument
  | faultAddress
  | cap (err : CapError)
  | ipc (err : IpcError)
  deriving DecidableEq, Repr

def okStatus : BitVec 64 := 0

def capStatusBase : BitVec 64 := 0x100

def ipcStatusBase : BitVec 64 := 0x200

def capErrorCode : CapError → BitVec 64
  | .capsExhausted => 1
  | .invalidHandle => 2
  | .widenedRights => 3
  | .insufficientRights => 4
  | .derivationTooDeep => 5
  | .hasChildren => 6
  | .wrongKind => 7

def ipcErrorCode : IpcError → BitVec 64
  | .staleHandle => 1
  | .wrongObjectKind => 2
  | .missingRight => 3
  | .queueFull => 4
  | .invalidTransferCap => 5
  | .receiverTableFull => 6
  | .pendingAfterResume => 7

def SyscallError.asStatus : SyscallError → BitVec 64
  | .badSyscallNumber => 1
  | .badArgument => 2
  | .faultAddress => 3
  | .cap err => capStatusBase ||| capErrorCode err
  | .ipc err => ipcStatusBase ||| ipcErrorCode err

/-- No error is reported as success. -/
theorem SyscallError.asStatus_ne_ok (err : SyscallError) : err.asStatus ≠ okStatus := by
  cases err with
  | cap err => cases err <;> decide
  | ipc err => cases err <;> decide
  | _ => decide

end Tyrne
