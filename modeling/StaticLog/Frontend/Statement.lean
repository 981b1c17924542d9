import StaticLog.Backend.Entries
import StaticLog.Decoding.Printed
import StaticLog.Frontend.CallSite

/-! # Log statements

A use of `STATIC_LOG`, from the analysis of its format to the entry that `finishAlloc`
makes visible, when no other thread is at the same statement. -/

namespace StaticLog

open Format Encoding Backend

/-- A use of `STATIC_LOG`, with the addresses of its static variables. -/
structure Statement where
  severity : LogLevel
  format : List UInt8
  functionName : List UInt8
  line : Nat
  staticInfo : Nat
  paramSize : Nat

/-- What ends a call. -/
inductive CallError
  | stored (error : StoreError)
  /-- The assertion in `downCast` fails. -/
  | downCast
  deriving DecidableEq

/-- `downCast` to an unsigned type of so many bits. -/
def downCast (bits large : Nat) : Option Nat :=
  let small := large % 2 ^ bits
  if wrappingSub large small = 0 then some small else none

namespace Statement

/-- `static_info`. A format that is not accepted is not compiled. -/
def info (statement : Statement) : Except ParseError StaticInfo :=
  match countFmtParams statement.format with
  | .error error => .error error
  | .ok nParams =>
      match analyzeFormatString nParams statement.format with
      | .error error => .error error
      | .ok paramTypes =>
          .ok
            { numParams := nParams
              paramTypes := paramTypes
              format := statement.format
              logLevel := statement.severity
              functionName := statement.functionName
              line := statement.line }

/-- `alloc_size`. -/
def allocSize (types : List ParamType) (args : List Arg) : Nat :=
  CallSite.allocSize
    (getArgSizes types initialPrecision (initialSizes types.length) args).1

/-- The record and the arguments as they lie in the reserved space. -/
def store (statement : Statement) (types : List ParamType) (args : List Arg)
    (timestamp : Nat) : Except CallError (LogEntry × List UInt8) :=
  match encoding types args with
  | .error error => .error (.stored error)
  | .ok written =>
      match downCast 32 (allocSize types args) with
      | none => .error .downCast
      | some entrySize =>
          .ok
            ({ timestamp := timestamp
               entrySize := entrySize
               staticInfo := statement.staticInfo
               paramSize := statement.paramSize }, written)

end Statement

/-! ## Calls that are granted their reservation -/

/-- A call of a statement whose arguments the decoder reads back. -/
structure PrintfCall where
  statement : Statement
  pieces : List Piece
  args : List Arg
  spells : Spells pieces statement.format
  starFree : ∀ conversion ∈ conversions pieces, conversion.stars = 0
  short : ∀ conversion ∈ conversions pieces, conversion.text.length < 100
  reads : List.Forall₂ Decoding.ReadsBack (conversions pieces) args

namespace PrintfCall

def types (call : PrintfCall) : List ParamType := paramTypes call.pieces

/-- The static data of the statement. -/
def info (call : PrintfCall) : StaticInfo where
  numParams := call.types.length
  paramTypes := call.types
  format := call.statement.format
  logLevel := call.statement.severity
  functionName := call.statement.functionName
  line := call.statement.line

theorem statement_info (call : PrintfCall) : call.statement.info = .ok call.info := by
  simp only [Statement.info, countFmtParams_spelled call.spells,
    analyzeFormatString_spelled call.spells]
  rfl

/-- The size array after a call that was not disturbed. -/
def sizes (call : PrintfCall) : List Nat :=
  (getArgSizes call.types initialPrecision (initialSizes call.types.length) call.args).2

/-- What a direct call of `printf` prints. -/
def prints (call : PrintfCall) : List Decoding.Print :=
  Decoding.printfPrints (Decoding.visible call.pieces) call.args

/-- The text of a direct call. -/
def text (call : PrintfCall) (libc : Libc) : List UInt8 :=
  Decoding.printfText libc (Decoding.visible call.pieces) call.args

/-- The entry is what the call stores at some time. -/
def Stores (call : PrintfCall) (entry : Entry) : Prop :=
  ∃ timestamp,
    call.statement.store call.types call.args timestamp = .ok (entry.record, entry.params)

theorem Stores.params {call : PrintfCall} {entry : Entry} (stores : call.Stores entry) :
    encoding call.types call.args = .ok entry.params ∧
      entry.record.staticInfo = call.statement.staticInfo ∧
      entry.record.paramSize = call.statement.paramSize := by
  rcases stores with ⟨timestamp, stores⟩
  simp only [Statement.store] at stores
  split at stores
  · cases stores
  · rename_i written stored
    split at stores
    · cases stores
    · rcases Prod.mk.inj (Except.ok.inj stores) with ⟨record, params⟩
      rw [← record, ← params]
      exact ⟨stored, rfl, rfl⟩

end PrintfCall

end StaticLog
