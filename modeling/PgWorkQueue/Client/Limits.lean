import Mathlib.Data.List.Basic

/-!
# Resource limits and error texts

The size constants of `limits.rs` that the modelled functions read, and
`fmt_err_trimmed`, through which every text stored in `last_error` passes.
Lengths of texts count Unicode scalar values on both sides: `chars()` in Rust,
`length(TEXT)` in Postgres, `String.length` here.
-/

namespace PgWorkQueue

/-- `MAX_PAYLOAD_BYTES`. -/
def maxPayloadBytes : Nat := 1024 * 1024

/-- `MAX_BATCH_SIZE`. -/
def maxBatchSize : Nat := 10000

/-- `MAX_QUEUE_LEN`. -/
def maxQueueLen : Nat := 64

/-- `MAX_CONCURRENCY_KEY_LEN`. -/
def maxConcurrencyKeyLen : Nat := 128

/-- `MAX_LAST_ERROR_LEN`. -/
def maxLastErrorLen : Nat := 8 * 1024

/-- `MAX_BATCH_BYTES`. -/
def maxBatchBytes : Nat := 64 * 1024 * 1024

/-- `REAPER_BATCH_SIZE`. -/
def reaperBatchSize : Nat := 1024

/-- `PURGE_CHUNK_SIZE`. -/
def purgeChunkSize : Nat := 10000

/-- `MAX_CONSECUTIVE_CLAIM_ERRORS`. -/
def maxConsecutiveClaimErrors : Nat := 30

/-- `usize::MAX` on the 64-bit targets. -/
def usizeMax : Nat := 18446744073709551615

/-- `u32::MAX`. -/
def u32Max : Nat := 4294967295

/-- `u64::MAX`. -/
def u64Max : Nat := 18446744073709551615

/-- `fmt_err_trimmed`, on the text the error displays as. -/
def fmtErrTrimmed (text : String) : String :=
  if text.toList[maxLastErrorLen]? = none then
    text
  else
    String.ofList (text.toList.take maxLastErrorLen)

/-- Trimming keeps every text within the CHECK on `last_error`. -/
theorem length_fmtErrTrimmed_le (text : String) :
    (fmtErrTrimmed text).length ≤ maxLastErrorLen := by
  unfold fmtErrTrimmed
  split
  · rename_i short
    rw [List.getElem?_eq_none_iff, String.length_toList] at short
    exact short
  · rw [String.length_ofList]
    exact List.length_take_le _ _

end PgWorkQueue
