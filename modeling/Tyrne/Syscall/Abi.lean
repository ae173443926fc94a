import Tyrne.Syscall.Error

/-!
# The syscall register ABI

A syscall is invoked with its number in `x8` and its arguments in `x0` to `x5`; it
returns a status in `x0` and a payload in `x1` to `x7`. Capability handles travel as
words: the generation in bits 16 to 48 over the index in bits 0 to 16.
-/

namespace Tyrne

/-- The word for "no capability". -/
def nullCapHandle : BitVec 64 := BitVec.allOnes 64

/-- The v1 syscall set. -/
inductive SyscallNumber
  | send
  | recv
  | taskYield
  | taskExit
  | consoleWrite
  deriving DecidableEq, Repr

namespace SyscallNumber

/-- The syscall of the raw `x8` value; the console exists in a debug build only. -/
def decode [Build] (raw : BitVec 64) : Option SyscallNumber :=
  match raw with
  | 1 => some .send
  | 2 => some .recv
  | 3 => some .taskYield
  | 4 => some .taskExit
  | 5 => if Build.debugAssertions then some .consoleWrite else none
  | _ => none

end SyscallNumber

/-- `x8`, and `x0` to `x5`. -/
structure SyscallArgs where
  number : BitVec 64
  args : Vector (BitVec 64) 6
  deriving DecidableEq, Repr

abbrev x0 (args : Vector (BitVec 64) 6) : BitVec 64 := args[0]
abbrev x1 (args : Vector (BitVec 64) 6) : BitVec 64 := args[1]
abbrev x2 (args : Vector (BitVec 64) 6) : BitVec 64 := args[2]
abbrev x3 (args : Vector (BitVec 64) 6) : BitVec 64 := args[3]
abbrev x4 (args : Vector (BitVec 64) 6) : BitVec 64 := args[4]
abbrev x5 (args : Vector (BitVec 64) 6) : BitVec 64 := args[5]

/-- `x0`, and `x1` to `x7`. -/
structure SyscallReturn where
  status : BitVec 64
  payload : Vector (BitVec 64) 7
  deriving DecidableEq, Repr

namespace SyscallReturn

instance payload_neZero : NeZero 7 := ⟨by decide⟩

def ok : SyscallReturn := ⟨okStatus, Vector.replicate 7 0⟩

def error (e : SyscallError) : SyscallReturn := ⟨e.asStatus, Vector.replicate 7 0⟩

def withPayload (ret : SyscallReturn) (idx : Fin 7) (val : BitVec 64) : SyscallReturn :=
  { ret with payload := ret.payload.set idx val }

abbrev x1 (ret : SyscallReturn) : BitVec 64 := ret.payload[0]

end SyscallReturn

/-- What the trampoline does after a syscall. -/
inductive SyscallEffect
  | resume (ret : SyscallReturn)
  | reschedule
  | terminate (code : BitVec 64)
  deriving DecidableEq, Repr

/-! ## Capability handles -/

def encodeCapHandle : Option CapHandle → BitVec 64
  | none => nullCapHandle
  | some h => (h.generation.setWidth 64 <<< 16) ||| h.index.setWidth 64

/-- A handle that is always there; a garbage word gives one that fails `lookup`. -/
def decodeRequiredCapHandle (word : BitVec 64) : CapHandle :=
  ⟨word.setWidth 16, (word >>> 16).setWidth 32⟩

def decodeCapHandle (word : BitVec 64) : Option CapHandle :=
  if word = nullCapHandle then none else some (decodeRequiredCapHandle word)

/-! ## Outcomes -/

def sendOutcomeDelivered : BitVec 64 := 0
def sendOutcomeEnqueued : BitVec 64 := 1
def recvOutcomeReceived : BitVec 64 := 0
def recvOutcomePending : BitVec 64 := 1

def encodeSendOutcome : SendOutcome → BitVec 64
  | .delivered => sendOutcomeDelivered
  | .enqueued => sendOutcomeEnqueued

def encodeRecvOutcome : RecvOutcome → SyscallReturn
  | .received msg cap =>
    ((((((SyscallReturn.ok.withPayload 0 recvOutcomeReceived).withPayload 1 msg.label).withPayload
      2 msg.params.1).withPayload 3 msg.params.2.1).withPayload 4 msg.params.2.2).withPayload
      5 (encodeCapHandle cap))
  | .pending => SyscallReturn.ok.withPayload 0 recvOutcomePending

def decodeSendMessage (args : Vector (BitVec 64) 6) : Message :=
  ⟨x1 args, x2 args, x3 args, x4 args⟩

end Tyrne
