import StaticLog.Common

/-! # Compile-time analysis of format strings

The `constexpr` functions of `static_log_internal.h`. A format literal is the
list of its characters without the terminating NUL, and a position in it is the
rest of the list from there on. -/

namespace StaticLog

/-- `enum ParamType`; a string with a static precision carries it. -/
inductive ParamType
  | invalid
  | dynamicWidth
  | dynamicPrecision
  | nonString
  | stringWithDynamicPrecision
  | stringWithNoPrecision
  | string (precision : Nat)
  deriving DecidableEq, Repr

/-- The value of the enumerator, by which parameter types are compared. -/
def ParamType.value : ParamType → Int
  | .invalid => -6
  | .dynamicWidth => -5
  | .dynamicPrecision => -4
  | .nonString => -3
  | .stringWithDynamicPrecision => -2
  | .stringWithNoPrecision => -1
  | .string precision => precision

/-- The parameters that are counted as nibbles. -/
def ParamType.needsNibble (type : ParamType) : Bool :=
  type == .nonString || type == .dynamicPrecision || type == .dynamicWidth

namespace Format

/-- Why a format literal is not a constant expression. -/
inductive ParseError
  | unrecognizedSpecifier
  | positionSpecifier
  /-- The precision overflows an `int`. -/
  | precisionOverflow
  deriving DecidableEq, Repr

/-- What the `std::invalid_argument` says. -/
def ParseError.what : ParseError → String
  | .unrecognizedSpecifier => "Unrecognized format specifier after %"
  | .positionSpecifier => "%n specifiers are not support in NanoLog!"
  | .precisionOverflow => "overflow in constant expression"

def isFlag (c : UInt8) : Bool :=
  c == '-'.toUInt8 || c == '+'.toUInt8 || c == ' '.toUInt8 || c == '#'.toUInt8 ||
    c == '0'.toUInt8

def isDigit (c : UInt8) : Bool := '0'.toUInt8 ≤ c && c ≤ '9'.toUInt8

def isLength (c : UInt8) : Bool :=
  c == 'h'.toUInt8 || c == 'l'.toUInt8 || c == 'j'.toUInt8 || c == 'z'.toUInt8 ||
    c == 't'.toUInt8 || c == 'L'.toUInt8

def isTerminal (c : UInt8) : Bool :=
  c == 'd'.toUInt8 || c == 'i'.toUInt8 || c == 'u'.toUInt8 || c == 'o'.toUInt8 ||
    c == 'x'.toUInt8 || c == 'X'.toUInt8 || c == 'f'.toUInt8 || c == 'F'.toUInt8 ||
    c == 'e'.toUInt8 || c == 'E'.toUInt8 || c == 'g'.toUInt8 || c == 'G'.toUInt8 ||
    c == 'a'.toUInt8 || c == 'A'.toUInt8 || c == 'c'.toUInt8 || c == 'p'.toUInt8 ||
    c == '%'.toUInt8 || c == 's'.toUInt8 || c == 'n'.toUInt8

/-- `fmt[pos]`, which is the terminating NUL at the end. -/
def current (rest : List UInt8) : UInt8 := rest.headD 0

/-- `std::numeric_limits<int>::max()`. -/
def intMax : Nat := 2 ^ 31 - 1

/-- `precision = 10*precision + (fmt[pos] - '0')` over the digits. -/
def readPrecision : Nat → List UInt8 → Except ParseError Nat
  | precision, [] => .ok precision
  | precision, digit :: digits =>
      let precision := 10 * precision + (digit.toNat - '0'.toNat)
      if precision ≤ intMax then readPrecision precision digits
      else .error .precisionOverflow

/-- What parsing one conversion comes to: the type that was asked for, or the
place behind the conversion and how many parameters are still to be skipped. -/
inductive Scan
  | found (type : ParamType)
  | next (rest : List UInt8) (paramNum : Nat)
  deriving DecidableEq, Repr

/-- Consume the length and the terminal. A precision of -1 is `none`. -/
def scanTerminal (rest : List UInt8) (paramNum : Nat) (hasDynamicPrecision : Bool)
    (precision : Option Nat) : Except ParseError Scan :=
  let rest := rest.dropWhile isLength
  if !isTerminal (current rest) then .error .unrecognizedSpecifier
  else if current rest == 'n'.toUInt8 then .error .positionSpecifier
  else if paramNum ≠ 0 then .ok (.next rest.tail (paramNum - 1))
  else if current rest != 's'.toUInt8 then .ok (.found .nonString)
  else if hasDynamicPrecision then .ok (.found .stringWithDynamicPrecision)
  else
    match precision with
    | none => .ok (.found .stringWithNoPrecision)
    | some precision => .ok (.found (.string precision))

/-- Consume the precision and what follows it. -/
def scanPrecision (rest : List UInt8) (paramNum : Nat) : Except ParseError Scan :=
  if current rest == '.'.toUInt8 then
    let rest := rest.tail
    if current rest == '*'.toUInt8 then
      if paramNum = 0 then .ok (.found .dynamicPrecision)
      else scanTerminal rest.tail (paramNum - 1) true none
    else
      match readPrecision 0 (rest.takeWhile isDigit) with
      | .error error => .error error
      | .ok precision =>
          scanTerminal (rest.dropWhile isDigit) paramNum false (some precision)
  else scanTerminal rest paramNum false none

/-- Parse the conversion that starts in front of `rest` with a `%`. -/
def scanConversion (rest : List UInt8) (paramNum : Nat) : Except ParseError Scan :=
  let rest := rest.dropWhile isFlag
  if current rest == '*'.toUInt8 then
    if paramNum = 0 then .ok (.found .dynamicWidth)
    else scanPrecision rest.tail (paramNum - 1)
  else scanPrecision (rest.dropWhile isDigit) paramNum

/-- The loop of `getParamInfo`. Each pass advances, so that the number of passes
is bounded by the length of what is left. -/
def getParamInfoFrom : Nat → List UInt8 → Nat → Except ParseError ParamType
  | 0, _, _ => .ok .invalid
  | _ + 1, [], _ => .ok .invalid
  | passes + 1, c :: rest, paramNum =>
      if c != '%'.toUInt8 then getParamInfoFrom passes rest paramNum
      else if current rest == '%'.toUInt8 then
        -- Two `%` in a row are no conversion.
        getParamInfoFrom passes rest.tail paramNum
      else
        match scanConversion rest paramNum with
        | .error error => .error error
        | .ok (.found type) => .ok type
        | .ok (.next rest paramNum) => getParamInfoFrom passes rest paramNum

def getParamInfo (fmt : List UInt8) (paramNum : Nat) : Except ParseError ParamType :=
  getParamInfoFrom (fmt.length + 1) fmt paramNum

/-- The loop of `countFmtParams`, from a count on. -/
def countFmtParamsFrom (fmt : List UInt8) : Nat → Nat → Except ParseError Nat
  | 0, count => .ok count
  | passes + 1, count =>
      match getParamInfo fmt count with
      | .error error => .error error
      | .ok .invalid => .ok count
      | .ok _ => countFmtParamsFrom fmt passes (count + 1)

def countFmtParams (fmt : List UInt8) : Except ParseError Nat :=
  countFmtParamsFrom fmt (fmt.length + 1) 0

/-- A pass of the loop of `getNumNibblesNeeded`. -/
def countNibble (fmt : List UInt8) (numNibbles i : Nat) : Except ParseError Nat :=
  match getParamInfo fmt i with
  | .error error => .error error
  | .ok type => .ok (if type.needsNibble then numNibbles + 1 else numNibbles)

def getNumNibblesNeeded (fmt : List UInt8) : Except ParseError Nat :=
  match countFmtParams fmt with
  | .error error => .error error
  | .ok count => (List.range count).foldlM (countNibble fmt) 0

/-- `analyzeFormatString<NParams>`: the types at the indices below `nParams`. -/
def analyzeFormatString (nParams : Nat) (fmt : List UInt8) :
    Except ParseError (List ParamType) :=
  (List.range nParams).mapM (getParamInfo fmt)

end Format

end StaticLog
