import Mathlib

/-! Error codes and the PALF layout constants that the modelled components share
(`ob_errno.h`, `log_define.h`, `lsn.h`). A failing call returns its error code;
`OB_SUCCESS` is the `ok` side of the `Except` that each fallible operation returns. -/
namespace OceanBase

inductive ObErr
  | invalidArgument | notInit | notSupported | initTwice | errUnexpected | sizeOverflow
  | eagain | bufNotEnough | deserializeError | stateNotMatch | invalidData
  | errOutOfLowerBound | errOutOfUpperBound | entryNotExist | arrayOutOfRange
  | electionBelowMajority | electionOverMajority | error | allocateMemoryFailed
  | errPrimaryKeyDuplicate | batchedMultiStmtRollback | transactionSetViolation
  | tryLockRowConflict | notMaster | notAllowRemovingLeader | entryExist
  | tryLockConfigChangeConflict | integerPrecisionOverflow | decimalPrecisionOverflow
  deriving DecidableEq, Repr

/-- `MAX_INFO_BLOCK_SIZE`: the info block that precedes the log data of every block. -/
def maxInfoBlockSize : Nat := 4 * 1024

def palfPhyBlockSize : Nat := 2 ^ 26

/-- `PALF_BLOCK_SIZE`: the logical size of a block, `64M - MAX_INFO_BLOCK_SIZE`. -/
def palfBlockSize : Nat := palfPhyBlockSize - maxInfoBlockSize

/-- `CLOG_FILE_TAIL_PADDING_TRIGGER`: a block tail shorter than this is padded. -/
def clogFileTailPaddingTrigger : Nat := 4096

def maxLogBodySize : Nat := 2 * 1024 * 1024 + 16 * 1024

def maxLogHeaderSize : Nat := 4 * 1024

/-- `MAX_LOG_BUFFER_SIZE`: the largest group log, its body, header room and the tail padding
trigger. -/
def maxLogBufferSize : Nat := maxLogBodySize + maxLogHeaderSize + clogFileTailPaddingTrigger

def leaderDefaultGroupBufferSize : Nat := 2 ^ 25

def followerDefaultGroupBufferSize : Nat := leaderDefaultGroupBufferSize + 8 * 1024 * 1024

def paddingLogContentChar : UInt8 := 0

def logInvalidLsnVal : Nat := 2 ^ 64 - 1

def logMaxLsnVal : Nat := logInvalidLsnVal - 1

def lsnIsValid (lsn : Nat) : Bool := lsn != logInvalidLsnVal

def lsn2Block (lsn blockSize : Nat) : Nat := lsn / blockSize

def lsn2Offset (lsn blockSize : Nat) : Nat := lsn % blockSize

def obMaxScnTsNs : Nat := 2 ^ 62 - 1

def obInvalidScnVal : Nat := 2 ^ 64 - 1

def scnIsValid (scn : Nat) : Bool := decide (scn ≤ obMaxScnTsNs)

/-- `LogEntryHeader::HEADER_SER_SIZE`, `sizeof(LogEntryHeader)`: two `int16_t`, an `int32_t`
and three 8-byte fields. -/
def LogEntryHeader.headerSerSize : Nat := 32

/-- `LogGroupEntryHeader::HEADER_SER_SIZE`, `sizeof(LogGroupEntryHeader)`: two `int16_t`, an
`int32_t` and six 8-byte fields. -/
def LogGroupEntryHeader.headerSerSize : Nat := 56

def invalidProposalId : Nat := 2 ^ 63 - 1

def isValidLogId (logId : Int) : Bool := decide (0 < logId)

/-- `sizeof(logservice::ObLogBaseHeader)`: two `int16_t`, an `int32_t` and an `int64_t`. -/
def obLogBaseHeaderSize : Nat := 16

theorem palfBlockSize_eq : palfBlockSize = 67104768 := rfl

theorem lsn2Block_mul_add_lsn2Offset (lsn b : Nat) : lsn2Block lsn b * b + lsn2Offset lsn b = lsn := by
  simp only [lsn2Block,lsn2Offset]
  rw [Nat.mul_comm]
  exact Nat.div_add_mod lsn b

theorem lsn2Offset_mul_add {blockId off b : Nat} (h : off < b) :
    lsn2Offset (blockId * b + off) b = off := by
  simp only [lsn2Offset]
  rw [Nat.mul_comm,Nat.mul_add_mod,Nat.mod_eq_of_lt h]

end OceanBase
