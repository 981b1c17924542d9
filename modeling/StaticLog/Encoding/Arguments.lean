import Mathlib.Data.List.Basic
import StaticLog.Foundation.LittleEndian
import StaticLog.Foundation.Memory
import StaticLog.Format.ParamInfo

/-! # Encoding of log arguments

The overloads of `getArgSize` and `storeArgument` and the recursions over the
argument pack that use them. What the storage pointer is advanced over is the
list of bytes written; the size array is passed along as the list of its
elements from the current argument on. -/

namespace StaticLog

inductive IntWidth
  | w8
  | w16
  | w32
  | w64
  deriving DecidableEq, Repr

def IntWidth.bits : IntWidth → Nat
  | .w8 => 8
  | .w16 => 16
  | .w32 => 32
  | .w64 => 64

def IntWidth.size : IntWidth → Nat
  | .w8 => 1
  | .w16 => 2
  | .w32 => 4
  | .w64 => 8

/-- An argument of a fixed-size type: an integer, a floating-point number given
by its bit pattern, or a pointer to something other than characters. -/
inductive Scalar
  | integer (isSigned : Bool) (width : IntWidth) (bits : BitVec width.bits)
  | float (bits : BitVec 32)
  | double (bits : BitVec 64)
  | longDouble (bits : BitVec 128)
  | pointer (address : BitVec 64)

namespace Scalar

/-- `sizeof(T)`. -/
def size : Scalar → Nat
  | .integer _ width _ => width.size
  | .float _ => 4
  | .double _ => 8
  | .longDouble _ => 16
  | .pointer _ => 8

/-- The bit pattern as a number. -/
def pattern : Scalar → Nat
  | .integer _ _ bits => bits.toNat
  | .float bits => bits.toNat
  | .double bits => bits.toNat
  | .longDouble bits => bits.toNat
  | .pointer address => address.toNat

/-- The bytes of the object. -/
def object (scalar : Scalar) : List UInt8 := LittleEndian.bytes scalar.size scalar.pattern

/-- `as_uint64_t`: 0 for what does not convert to an integer. -/
def asUInt64 : Scalar → Nat
  | .integer isSigned _ bits =>
      if isSigned then (bits.signExtend 64).toNat else bits.toNat
  | _ => 0

@[simp] theorem object_length (scalar : Scalar) : scalar.object.length = scalar.size :=
  LittleEndian.bytes_length _ _

theorem size_pos (scalar : Scalar) : 0 < scalar.size := by
  cases scalar with
  | integer isSigned width bits => cases width <;> exact Nat.succ_pos _
  | float bits => exact Nat.succ_pos _
  | double bits => exact Nat.succ_pos _
  | longDouble bits => exact Nat.succ_pos _
  | pointer address => exact Nat.succ_pos _

theorem pattern_lt (scalar : Scalar) : scalar.pattern < 256 ^ scalar.size := by
  cases scalar with
  | integer isSigned width bits => cases width <;> exact bits.isLt
  | float bits => exact bits.isLt
  | double bits => exact bits.isLt
  | longDouble bits => exact bits.isLt
  | pointer address => exact address.isLt

/-- The bytes of an object determine its bit pattern. -/
theorem value_object (scalar : Scalar) : LittleEndian.value scalar.object = scalar.pattern :=
  LittleEndian.value_bytes_of_lt scalar.pattern_lt

end Scalar

/-- A `char*`: the characters before the terminating NUL, and whatever the
memory holds behind it. -/
structure CString where
  address : BitVec 64
  chars : List UInt8
  noNul : ∀ c ∈ chars, c ≠ 0
  beyond : Memory UInt8

namespace CString

/-- The memory from the address of the string on. -/
def memory (string : CString) : Memory UInt8 :=
  Memory.overwrite string.beyond 0 (string.chars ++ [0])

def strlen (string : CString) : Nat := string.chars.length

end CString

/-- An argument of a log call. -/
inductive Arg
  | scalar (scalar : Scalar)
  | charPtr (string : CString)
  | wcharPtr (address : BitVec 64) (memory : Memory UInt8)

namespace Encoding

/-- The result of `getArgSize` and its two in-out parameters. -/
structure ArgSize where
  size : Nat
  previousPrecision : Nat
  stringSize : Nat

/-- `getArgSize` for everything but character pointers. -/
def getArgSizeNonString (fmtType : ParamType) (previousPrecision sizeofT asUInt64 : Nat) :
    ArgSize where
  size := sizeofT
  previousPrecision :=
    if fmtType = .dynamicPrecision then asUInt64 else previousPrecision
  stringSize := sizeofT

/-- `getArgSize` for `const char*`. -/
def getArgSizeString (fmtType : ParamType) (previousPrecision stringSize : Nat)
    (string : CString) : ArgSize :=
  if fmtType.value ≤ ParamType.nonString.value then
    -- A pointer under `%p`: its entry of the size array is left alone.
    { size := 8, previousPrecision := previousPrecision, stringSize := stringSize }
  else
    let stringSize := string.strlen
    let fmtLength := stringSize % 2 ^ 32
    let stringSize :=
      if (ParamType.string 0).value ≤ fmtType.value ∧ fmtLength < stringSize then
        fmtLength
      else if fmtType = .stringWithDynamicPrecision ∧ previousPrecision < stringSize then
        previousPrecision
      else stringSize
    { size := stringSize + 4
      previousPrecision := previousPrecision
      stringSize := stringSize }

/-- `getArgSize`, by the overload that the type of the argument selects. -/
def getArgSize (fmtType : ParamType) (previousPrecision stringSize : Nat) :
    Arg → ArgSize
  | .scalar scalar =>
      getArgSizeNonString fmtType previousPrecision scalar.size scalar.asUInt64
  | .wcharPtr _ _ => getArgSizeNonString fmtType previousPrecision 8 0
  | .charPtr string => getArgSizeString fmtType previousPrecision stringSize string

/-- `getArgSizes`: the number of bytes needed and the size array afterwards. The
operands of the sum are evaluated from left to right. -/
def getArgSizes : List ParamType → Nat → List Nat → List Arg → Nat × List Nat
  | fmtType :: fmtTypes, previousPrecision, stringSize :: stringSizes, head :: rest =>
      let own := getArgSize fmtType previousPrecision stringSize head
      let others := getArgSizes fmtTypes own.previousPrecision stringSizes rest
      (own.size + others.1, own.stringSize :: others.2)
  | _, _, stringSizes, _ => (0, stringSizes)

/-- `std::invalid_argument` of `storeArgument`. -/
inductive StoreError
  | stringTooLarge
  deriving DecidableEq, Repr

def StoreError.what : StoreError → String
  | .stringTooLarge =>
      "Strings larger than std::numeric_limits<uint32_t>::max() are unsupported"

/-- `storeArgument` for pointers to characters. -/
def storeArgumentString (paramType : ParamType) (stringSize : Nat)
    (address : BitVec 64) (memory : Memory UInt8) : Except StoreError (List UInt8) :=
  if paramType.value ≤ ParamType.nonString.value then
    .ok (Scalar.pointer address).object
  else if stringSize > 2 ^ 32 - 1 then
    .error .stringTooLarge
  else
    .ok (LittleEndian.bytes 4 stringSize ++ Memory.slice memory 0 stringSize)

/-- `storeArgument`: the bytes it writes. -/
def storeArgument (paramType : ParamType) (stringSize : Nat) :
    Arg → Except StoreError (List UInt8)
  | .scalar scalar => .ok scalar.object
  | .charPtr string =>
      storeArgumentString paramType stringSize string.address string.memory
  | .wcharPtr address memory => storeArgumentString paramType stringSize address memory

/-- `storeArguments`: the bytes it writes, one argument behind the other. -/
def storeArguments : List ParamType → List Nat → List Arg →
    Except StoreError (List UInt8)
  | paramType :: paramTypes, stringSize :: stringSizes, head :: rest =>
      match storeArgument paramType stringSize head with
      | .error error => .error error
      | .ok stored =>
          match storeArguments paramTypes stringSizes rest with
          | .error error => .error error
          | .ok others => .ok (stored ++ others)
  | _, _, _ => .ok []

/-- `static size_t param_size[n_params + 1]{}`. -/
def initialSizes (nParams : Nat) : List Nat := List.replicate (nParams + 1) 0

/-- `uint64_t previousPrecision = -1`. -/
def initialPrecision : Nat := 2 ^ 64 - 1

end Encoding

end StaticLog
