import StaticLog.Decoding.Decode

/-! # Formatting one log message

`process_fmt`: the loop over the format that copies literal characters and hands
each conversion with its parameter to a decoding function. One pass of the loop
is a function on the variables of the loop; the calls it makes are recorded. -/

namespace StaticLog.Decoding

open StaticLog.Format

/-- The data of a log message: what `process_fmt` is given besides the buffer. -/
structure Message where
  numParams : Nat
  paramTypes : List ParamType
  paramSizes : List Nat
  params : Memory UInt8

/-- A call of a decoding function: the conversion as the function sees it, the
parameter it is for, the cursor when the conversion was met, the bytes that are
taken as its value, and the variables passed by reference. -/
structure Call where
  isString : Bool
  fmt : List UInt8
  paramIdx : Nat
  cursor : Nat
  value : List UInt8
  startPos : Nat
  output : Output

/-- The variables of the loop. `rest` is the format from `pos` on. -/
structure FmtState where
  output : Output
  logPos : Nat
  rest : List UInt8
  paramIdx : Nat
  paramList : Nat
  calls : List Call

/-- How a pass of the loop ends. -/
inductive Progress
  | running
  | finished
  /-- The loop was left with `success = false`. -/
  | failed
  /-- A retry loop has used up its passes. -/
  | retrying
  /-- The scan ran past the end of the format, or a failed allocation was
  written to. -/
  | crashed
  deriving DecidableEq, Repr

/-- `*log_pos++ = c; reserved--`. -/
def FmtState.putChar (c : UInt8) (rest : List UInt8) (state : FmtState) : FmtState :=
  { state with
    output :=
      { state.output with
        heap := Memory.overwrite state.output.heap state.logPos [c]
        reserved := wrappingSub state.output.reserved 1 }
    logPos := pointerAdd state.logPos 1
    rest := rest }

/-- `log_pos += log_fmt_len; reserved -= log_fmt_len; param_idx++`, behind a call
that has returned `log_fmt_len`. -/
def FmtState.advance (output : Output) (logFmtLen : Int) (paramList : Nat)
    (call : Call) (rest : List UInt8) (state : FmtState) : FmtState where
  output := { output with reserved := wrappingSub output.reserved (ofInt logFmtLen) }
  logPos := pointerAdd state.logPos (ofInt logFmtLen)
  rest := rest
  paramIdx := state.paramIdx + 1
  paramList := paramList
  calls := state.calls ++ [call]

/-- The part of the loop body that formats a conversion; `fmtSingle` is the
conversion as a C string. -/
def formatConversion (libc : Libc) (passes : Nat) (message : Message)
    (fmtSingle rest : List UInt8) (state : FmtState) : FmtState × Progress :=
  if state.paramIdx < message.numParams then
    let startPos := wrappingSub state.logPos state.output.logBuffer
    let paramType := message.paramTypes.getD state.paramIdx .invalid
    if ParamType.nonString.value < paramType.value then
      let stringSize :=
        LittleEndian.value (Memory.slice message.params state.paramList 4)
      let paramList := state.paramList + 4
      let call : Call :=
        { isString := true, fmt := fmtSingle, paramIdx := state.paramIdx,
          cursor := state.paramList,
          value := Memory.slice message.params paramList stringSize,
          startPos := startPos, output := state.output }
      let decoded := decodeStringFmt libc startPos message.params paramList stringSize
        fmtSingle state.output
      (state.advance decoded.1 decoded.2 (paramList + stringSize) call rest, .running)
    else
      let paramSize := message.paramSizes.getD state.paramIdx 0
      let call : Call :=
        { isString := false, fmt := fmtSingle, paramIdx := state.paramIdx,
          cursor := state.paramList,
          value := Memory.slice message.params state.paramList paramSize,
          startPos := startPos, output := state.output }
      match decodeNonStringFmt libc passes startPos fmtSingle message.params
          state.paramList paramSize state.output with
      | (output, none) =>
          ({ state with output := output, calls := state.calls ++ [call] }, .retrying)
      | (output, some logFmtLen) =>
          if logFmtLen = -1 then
            ({ state with output := output, calls := state.calls ++ [call] }, .failed)
          else
            (state.advance output logFmtLen (state.paramList + paramSize) call rest,
              .running)
  else (state, .failed)

/-- The conversion as a C string: in the cleared cache of 100 characters, or in a
block of just its length. -/
def copyConversion (libc : Libc) (conversion : List UInt8) (output : Output) :
    Output × Option (List UInt8) :=
  if conversion.length < 100 then (output, some conversion)
  else
    ({ output with mallocs := output.mallocs + 1 },
      (libc.malloc output.mallocs conversion.length).map fun _ =>
        conversion ++ libc.heapTail output.mallocs)

/-- One pass of the loop. -/
def fmtPass (libc : Libc) (passes : Nat) (message : Message) (state : FmtState) :
    FmtState × Progress :=
  match state.rest with
  | [] => (state, .finished)
  | c :: rest =>
      if c != '%'.toUInt8 then (state.putChar c rest, .running)
      else if current rest == '%'.toUInt8 then
        (state.putChar '%'.toUInt8 rest.tail, .running)
      else
        match rest.dropWhile (fun c => !isTerminal c) with
        | [] => (state, .crashed)
        | terminal :: behind =>
            let conversion :=
              '%'.toUInt8 :: (rest.takeWhile (fun c => !isTerminal c) ++ [terminal])
            match copyConversion libc conversion state.output with
            | (output, none) => ({ state with output := output }, .crashed)
            | (output, some fmtSingle) =>
                formatConversion libc passes message fmtSingle behind
                  { state with output := output }

/-- The loop of `process_fmt`. Each pass shortens the rest of the format, which
bounds the number of passes. -/
def fmtLoop (libc : Libc) (passes : Nat) (message : Message) :
    Nat → FmtState → FmtState × Progress
  | 0, state => (state, .running)
  | count + 1, state =>
      match fmtPass libc passes message state with
      | (state, .running) => fmtLoop libc passes message count state
      | ended => ended

/-- The variables when the loop is entered. -/
def FmtState.enter (fmt : List UInt8) (paramList startPos : Nat) (output : Output) :
    FmtState where
  output := { output with reserved := wrappingSub output.length startPos }
  logPos := pointerAdd output.logBuffer startPos
  rest := cString fmt
  paramIdx := 0
  paramList := paramList
  calls := []

/-- `process_fmt`: the variables at the end, and how the loop ended. -/
def processFmt (libc : Libc) (passes : Nat) (fmt : List UInt8) (message : Message)
    (paramList : Nat) (output : Output) (startPos : Nat) : FmtState × Progress :=
  fmtLoop libc passes message ((cString fmt).length + 1)
    (FmtState.enter fmt paramList startPos output)

/-- `success ? buflen - reserved : -1`. -/
def returned (state : FmtState) : Progress → Option Int
  | .finished => some (toInt (wrappingSub state.output.length state.output.reserved))
  | .failed => some (-1)
  | _ => none

end StaticLog.Decoding
