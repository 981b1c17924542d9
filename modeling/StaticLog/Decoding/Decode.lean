import StaticLog.Encoding.Arguments

/-! # Decoding one parameter

`decodeNonStringFmt` and `decodeStringFmt` with the growth of the log buffer.
Addresses are numbers in one flat heap: after a growth a pointer into the old
buffer is still an address, just none in the new one. What the C library does is
a parameter. -/

namespace StaticLog

/-- What is passed to `snprintf` for a conversion, after the default argument
promotions. A `float` stands for the `double` it is promoted to. -/
inductive VarArg
  | int (bits : BitVec 32)
  | long (bits : BitVec 64)
  | float (bits : BitVec 32)
  | double (bits : BitVec 64)
  | string (chars : List UInt8)
  deriving DecidableEq

/-- The parts of the C library that the logger relies on. `render` is the text that
`snprintf` makes of a conversion, all of it or as far as it comes before it `fails`;
`malloc` gives the address of the n-th allocation or fails; `heapTail` is what string
functions find behind the n-th allocation, up to the next NUL. -/
structure Libc where
  render : List UInt8 → VarArg → List UInt8
  render_fits : ∀ fmt arg, (render fmt arg).length ≤ Format.intMax
  fails : List UInt8 → VarArg → Bool
  malloc : Nat → Nat → Option Nat
  heapTail : Nat → List UInt8

/-- What `snprintf` returns, in the `size_t` that the callers assign it to. A failure is
reported by a negative number, which becomes the largest value of the type. -/
def Libc.fmtLen (libc : Libc) (fmt : List UInt8) (arg : VarArg) : Nat :=
  if libc.fails fmt arg then 2 ^ 64 - 1 else (libc.render fmt arg).length

/-- A C library for examples. It knows `%s`, `%d` and `%u` and fails for nothing, and its
n-th allocation lies at the address `(n + 1) * 2 ^ 32`. -/
def Libc.sample : Libc where
  render fmt arg :=
    let text :=
      match arg with
      | .string chars => chars
      | .int bits => ascii (if fmt.getLast? = some 'd'.toUInt8 then toString bits.toInt
          else toString bits.toNat)
      | .long bits => ascii (if fmt.getLast? = some 'd'.toUInt8 then toString bits.toInt
          else toString bits.toNat)
      | _ => []
    text.take Format.intMax
  render_fits := fun _ _ => List.length_take_le _ _
  fails _ _ := false
  malloc count _ := some ((count + 1) * 2 ^ 32)
  heapTail _ := []

section FmtLen

variable {libc : Libc} {fmt : List UInt8} {arg : VarArg}

theorem Libc.fmtLen_of_succeeds (succeeds : libc.fails fmt arg = false) :
    libc.fmtLen fmt arg = (libc.render fmt arg).length := by
  rw [fmtLen, succeeds]
  rfl

theorem Libc.fmtLen_of_fails (fails : libc.fails fmt arg = true) :
    libc.fmtLen fmt arg = 2 ^ 64 - 1 := by
  rw [fmtLen, fails]
  rfl

end FmtLen

/-- The bytes of a C string: what stands in front of the first NUL. -/
def cString (bytes : List UInt8) : List UInt8 := bytes.takeWhile (· != 0)

namespace Decoding

/-- The variables that the decoding functions take by reference, with the heap
they point into and the number of calls of `malloc` so far. -/
structure Output where
  heap : Memory UInt8
  logBuffer : Nat
  length : Nat
  reserved : Nat
  mallocs : Nat

/-- `memcpy`. -/
def memcpy (heap : Memory UInt8) (target source count : Nat) : Memory UInt8 :=
  fun address =>
    if target ≤ address ∧ address < target + count then
      heap (source + (address - target))
    else heap address

/-- A pointer moved by a number of bytes. -/
def pointerAdd (pointer count : Nat) : Nat := (pointer + count) % 2 ^ 64

/-- `snprintf(target, size, fmt, arg)`: the heap afterwards and what is returned. Of the
text at most `size - 1` bytes and a NUL are stored. -/
def snprintf (libc : Libc) (heap : Memory UInt8) (target size : Nat)
    (fmt : List UInt8) (arg : VarArg) : Memory UInt8 × Nat :=
  (if size = 0 then heap
    else Memory.overwrite heap target ((libc.render fmt arg).take (size - 1) ++ [0]),
    libc.fmtLen fmt arg)

/-- `resize_log_buffer`: whether the allocation succeeded. -/
def resizeLogBuffer (libc : Libc) (newSize : Nat) (output : Output) : Output × Bool :=
  match libc.malloc output.mallocs newSize with
  | none => ({ output with mallocs := output.mallocs + 1 }, false)
  | some buffer =>
      ({ output with
          heap := memcpy output.heap buffer output.logBuffer output.length
          logBuffer := buffer
          length := newSize
          mallocs := output.mallocs + 1 }, true)

/-! ## Parameters that are no strings -/

def isSignedTerminal (c : UInt8) : Bool := c == 'd'.toUInt8 || c == 'i'.toUInt8

def isUnsignedTerminal (c : UInt8) : Bool :=
  c == 'u'.toUInt8 || c == 'o'.toUInt8 || c == 'x'.toUInt8 || c == 'X'.toUInt8

def isFloatTerminal (c : UInt8) : Bool :=
  c == 'f'.toUInt8 || c == 'F'.toUInt8 || c == 'e'.toUInt8 || c == 'E'.toUInt8 ||
    c == 'g'.toUInt8 || c == 'G'.toUInt8 || c == 'a'.toUInt8 || c == 'A'.toUInt8

/-- Which call of `snprintf` the switch comes to: the argument it passes and
whether its bound is `reserved` or the length of the whole buffer. -/
structure Branch where
  arg : VarArg
  boundIsReserved : Bool

/-- `*(intN_t*)param` for an integer of so many bytes. -/
def readWord (param : List UInt8) (bits : Nat) : BitVec bits :=
  BitVec.ofNat bits (LittleEndian.value param)

/-- The nested switch of `decodeNonStringFmt` on the size of the parameter and
the terminal of the conversion. Where it reports an error to `stderr` there is no
call. -/
def selectBranch (paramSize : Nat) (terminalFlag : UInt8) (param : List UInt8) :
    Option Branch :=
  match paramSize with
  | 1 =>
      if terminalFlag == 'c'.toUInt8 then
        some ⟨.int ((readWord param 8).signExtend 32), true⟩
      else if isSignedTerminal terminalFlag then
        some ⟨.int ((readWord param 8).signExtend 32), false⟩
      else if isUnsignedTerminal terminalFlag then
        some ⟨.int ((readWord param 8).setWidth 32), false⟩
      else none
  | 2 =>
      if isSignedTerminal terminalFlag then
        some ⟨.int ((readWord param 16).signExtend 32), false⟩
      else if isUnsignedTerminal terminalFlag then
        some ⟨.int ((readWord param 16).setWidth 32), false⟩
      else none
  | 4 =>
      if isSignedTerminal terminalFlag then some ⟨.int (readWord param 32), false⟩
      else if isUnsignedTerminal terminalFlag then
        some ⟨.int (readWord param 32), false⟩
      else if isFloatTerminal terminalFlag then
        some ⟨.float (readWord param 32), false⟩
      else none
  | 8 =>
      if isSignedTerminal terminalFlag then some ⟨.long (readWord param 64), false⟩
      else if isUnsignedTerminal terminalFlag then
        some ⟨.long (readWord param 64), false⟩
      else if isFloatTerminal terminalFlag then
        some ⟨.double (readWord param 64), false⟩
      else none
  | _ => none

/-- The body behind the label `retry`, over and over until the text fits. The
result is the returned value; there is none if the body has run the given number
of times and would run again. -/
def retryNonString (libc : Libc) (startPos : Nat) (fmt : List UInt8)
    (branch : Branch) : Nat → Output → Output × Option Int
  | 0, output => (output, none)
  | passes + 1, output =>
      let bound := if branch.boundIsReserved then output.reserved else output.length
      let printed := snprintf libc output.heap
        (pointerAdd output.logBuffer startPos) bound fmt branch.arg
      let output := { output with heap := printed.1 }
      let fmtLen := printed.2
      if output.reserved ≤ fmtLen then
        let newSize :=
          wrappingSub ((2 * fmtLen + output.length) % 2 ^ 64) output.reserved
        match resizeLogBuffer libc newSize output with
        | (output, false) => (output, some (-1))
        | (output, true) =>
            retryNonString libc startPos fmt branch passes
              { output with reserved := wrappingSub output.length startPos }
      else (output, some (toInt fmtLen))

/-- `decodeNonStringFmt`. -/
def decodeNonStringFmt (libc : Libc) (passes startPos : Nat) (fmt : List UInt8)
    (param : Memory UInt8) (paramPos paramSize : Nat) (output : Output) :
    Output × Option Int :=
  let terminalFlag := fmt.getLastD 0
  match selectBranch paramSize terminalFlag (Memory.slice param paramPos paramSize) with
  | none => (output, some 0)
  | some branch => retryNonString libc startPos fmt branch passes output

/-! ## Strings -/

/-- `DEFAULT_PARAM_CACHE_SIZE`. -/
def defaultParamCacheSize : Nat := 1024

/-- What the entry assertion of `decodeStringFmt` compares: the buffer address
minus `start_pos` taken as an address, and `bufferlen - reserved`. -/
def decodeStringAssertion (startPos : Nat) (output : Output) : Bool :=
  wrappingSub output.logBuffer startPos == wrappingSub output.length output.reserved

/-- `decodeStringFmt` behind the copy of the parameter: its text is printed, and once more
into a larger buffer if it is longer than what is left. -/
def printString (libc : Libc) (startPos : Nat) (fmt : List UInt8) (arg : VarArg)
    (output : Output) : Output × Int :=
  let printed := snprintf libc output.heap (pointerAdd output.logBuffer startPos)
    output.reserved fmt arg
  let output := { output with heap := printed.1 }
  let neededFmtLen := printed.2
  if output.reserved < neededFmtLen then
    let newLogBuflen :=
      wrappingSub ((neededFmtLen + 1 + output.length) % 2 ^ 64) output.reserved
    match libc.malloc output.mallocs newLogBuflen with
    | none => ({ output with mallocs := output.mallocs + 1 }, -1)
    | some tmp =>
        let copied := memcpy output.heap tmp output.logBuffer startPos
        let reprinted := snprintf libc copied (pointerAdd tmp startPos)
          ((neededFmtLen + 1) % 2 ^ 64) fmt arg
        ({ heap := reprinted.1
           logBuffer := tmp
           length := newLogBuflen
           reserved :=
             (wrappingSub newLogBuflen output.length + output.reserved) % 2 ^ 64
           mallocs := output.mallocs + 1 }, toInt neededFmtLen)
  else (output, toInt neededFmtLen)

/-- `decodeStringFmt` behind its entry assertion. A parameter that is too long for the
cache on the stack is copied to a block of its own. -/
def decodeStringFmt (libc : Libc) (startPos : Nat) (param : Memory UInt8)
    (paramPos paramSize : Nat) (fmt : List UInt8) (output : Output) : Output × Int :=
  let dynamicAlloc := decide (defaultParamCacheSize ≤ paramSize)
  let paramBuffer := libc.malloc output.mallocs (paramSize + 1)
  if dynamicAlloc && paramBuffer.isNone then
    ({ output with mallocs := output.mallocs + 1 }, -1)
  else
    printString libc startPos fmt (.string (cString (Memory.slice param paramPos paramSize)))
      (if dynamicAlloc then { output with mallocs := output.mallocs + 1 } else output)

end Decoding

end StaticLog
