import StaticLog.Encoding.Arguments

/-! # What is stored and what is reserved for it

`storeArguments` writes for a string as many bytes as the size array says. With
the array that `getArgSizes` has filled for the same arguments, these are the
bytes that it has counted, except under a wide string, where the length field is
not counted. -/

namespace StaticLog.Encoding

def consString (type : ParamType) (size : Nat) (lengths : List Nat) : List Nat :=
  if type.value ≤ ParamType.nonString.value then lengths else size :: lengths

/-- The entries of the size array that `storeArguments` goes by: those of pointers
to characters under a string conversion. -/
def stagedLengths : List ParamType → List Nat → List Arg → List Nat
  | _ :: types, _ :: sizes, .scalar _ :: rest => stagedLengths types sizes rest
  | type :: types, size :: sizes, _ :: rest =>
      consString type size (stagedLengths types sizes rest)
  | _, _, _ => []

/-- The number of `wchar_t*` arguments under a string conversion. -/
def wideStrings : List ParamType → List Arg → Nat
  | type :: types, .wcharPtr _ _ :: rest =>
      (if type.value ≤ ParamType.nonString.value then 0 else 1) + wideStrings types rest
  | _ :: types, _ :: rest => wideStrings types rest
  | _, _ => 0

/-- The bytes that a thread stores for its arguments when it is alone. -/
def encoding (types : List ParamType) (args : List Arg) : Except StoreError (List UInt8) :=
  storeArguments types
    (getArgSizes types initialPrecision (initialSizes types.length) args).2 args

theorem storeArguments_cons_ok {type : ParamType} {types : List ParamType} {size : Nat}
    {sizes : List Nat} {head : Arg} {rest : List Arg} {written : List UInt8} :
    storeArguments (type :: types) (size :: sizes) (head :: rest) = .ok written ↔
      ∃ stored others, storeArgument type size head = .ok stored ∧
        storeArguments types sizes rest = .ok others ∧ written = stored ++ others := by
  rw [storeArguments]
  cases storeArgument type size head with
  | error error => simp
  | ok stored =>
      cases storeArguments types sizes rest with
      | error error => simp
      | ok others => simp [eq_comm]

theorem storeArgumentString_ok {type : ParamType} {size : Nat} {address : BitVec 64}
    {memory : Memory UInt8} {stored : List UInt8}
    (string : ¬type.value ≤ ParamType.nonString.value) :
    storeArgumentString type size address memory = .ok stored ↔
      size < 2 ^ 32 ∧
        stored = LittleEndian.bytes 4 size ++ Memory.slice memory 0 size := by
  rw [storeArgumentString, if_neg string]
  split
  · simp
    omega
  · simp [eq_comm]
    omega

/-- What is stored for a string tells how long it was taken to be. -/
theorem storedString_append {memory : Memory UInt8} {left right : Nat}
    {leftRest rightRest : List UInt8} (leftFits : left < 2 ^ 32)
    (rightFits : right < 2 ^ 32)
    (equal : LittleEndian.bytes 4 left ++ Memory.slice memory 0 left ++ leftRest =
      LittleEndian.bytes 4 right ++ Memory.slice memory 0 right ++ rightRest) :
    left = right ∧ leftRest = rightRest := by
  rw [List.append_assoc, List.append_assoc] at equal
  have heads := List.append_inj equal (by simp)
  have sizes : left = right := LittleEndian.bytes_injective leftFits rightFits heads.1
  subst sizes
  exact ⟨rfl, List.append_cancel_left heads.2⟩

/-- The same for what is stored behind the string. -/
theorem storedString_iff {type : ParamType} {size ownSize : Nat} {address : BitVec 64}
    {memory : Memory UInt8} {first others : List UInt8}
    {behind : Except StoreError (List UInt8)} {lengths ownLengths : List Nat}
    (stored : storeArgumentString type ownSize address memory = .ok first)
    (tail : behind = .ok others ↔ lengths = ownLengths) :
    (∃ front back, storeArgumentString type size address memory = .ok front ∧
        behind = .ok back ∧ first ++ others = front ++ back) ↔
      consString type size lengths = consString type ownSize ownLengths := by
  simp only [consString]
  by_cases string : type.value ≤ ParamType.nonString.value
  · rw [if_pos string, if_pos string, ← tail]
    rw [storeArgumentString, if_pos string] at stored ⊢
    constructor
    · rintro ⟨front, back, head, rest, equal⟩
      rw [stored] at head
      cases head
      rw [rest, List.append_cancel_left equal]
    · intro rest
      exact ⟨first, others, stored, rest, rfl⟩
  · rw [if_neg string, if_neg string, List.cons.injEq, ← tail]
    rcases (storeArgumentString_ok string).mp stored with ⟨ownFits, rfl⟩
    constructor
    · rintro ⟨front, back, head, rest, equal⟩
      rcases (storeArgumentString_ok string).mp head with ⟨fits, rfl⟩
      rcases storedString_append ownFits fits equal with ⟨sizes, rests⟩
      rw [rest, rests]
      exact ⟨sizes.symm, rfl⟩
    · rintro ⟨rfl, rest⟩
      exact ⟨_, others, stored, rest, rfl⟩

/-- Arguments that were stored with one size array are stored alike with another
one exactly if the arrays agree on the strings. -/
theorem storeArguments_eq_iff {types : List ParamType} {sizes own : List Nat}
    {args : List Arg} {written : List UInt8}
    (stored : storeArguments types own args = .ok written)
    (sameLength : sizes.length = own.length) :
    storeArguments types sizes args = .ok written ↔
      stagedLengths types sizes args = stagedLengths types own args := by
  induction types generalizing sizes own args written with
  | nil => simpa [storeArguments, stagedLengths] using stored
  | cons type types induction =>
      cases args with
      | nil => simpa [storeArguments, stagedLengths] using stored
      | cons head rest =>
          cases own with
          | nil =>
              cases List.eq_nil_of_length_eq_zero sameLength
              exact ⟨fun _ => rfl, fun _ => stored⟩
          | cons ownSize own =>
              cases sizes with
              | nil => cases sameLength
              | cons size sizes =>
                  rcases storeArguments_cons_ok.mp stored with
                    ⟨first, others, head_ok, rest_ok, rfl⟩
                  have tail := induction rest_ok (Nat.succ.inj sameLength)
                  rw [storeArguments_cons_ok]
                  cases head with
                  | scalar scalar =>
                      cases head_ok
                      simp only [stagedLengths, ← tail, storeArgument]
                      simp [eq_comm]
                  | charPtr string => exact storedString_iff head_ok tail
                  | wcharPtr address memory => exact storedString_iff head_ok tail

/-! ## The size array that `getArgSizes` fills -/

@[simp] theorem getArgSizes_length (types : List ParamType) (precision : Nat)
    (sizes : List Nat) (args : List Arg) :
    (getArgSizes types precision sizes args).2.length = sizes.length := by
  induction types generalizing precision sizes args with
  | nil => cases sizes <;> rfl
  | cons type types induction =>
      cases sizes with
      | nil => rfl
      | cons size sizes =>
          cases args with
          | nil => rfl
          | cons head rest => simp [getArgSizes, induction]

theorem getArgSize_stale (type : ParamType) (precision size stale : Nat) (arg : Arg) :
    (getArgSize type precision size arg).size = (getArgSize type precision stale arg).size ∧
    (getArgSize type precision size arg).previousPrecision =
      (getArgSize type precision stale arg).previousPrecision ∧
    (¬type.value ≤ ParamType.nonString.value →
      (getArgSize type precision size arg).stringSize =
        (getArgSize type precision stale arg).stringSize) := by
  cases arg with
  | scalar scalar => exact ⟨rfl, rfl, fun _ => rfl⟩
  | wcharPtr address memory => exact ⟨rfl, rfl, fun _ => rfl⟩
  | charPtr string =>
      simp only [getArgSize, getArgSizeString]
      split
      · rename_i nonString
        exact ⟨rfl, rfl, fun string => absurd nonString string⟩
      · exact ⟨rfl, rfl, fun _ => rfl⟩

theorem consString_congr {type : ParamType} {size stale : Nat}
    {lengths staleLengths : List Nat}
    (string : ¬type.value ≤ ParamType.nonString.value → size = stale)
    (others : lengths = staleLengths) :
    consString type size lengths = consString type stale staleLengths := by
  simp only [consString, others]
  split
  · rfl
  · rename_i isString
    rw [string isString]

/-- What was in the size array before does not matter for the sum and for the
strings. -/
theorem getArgSizes_stale (types : List ParamType) (precision : Nat)
    {sizes stale : List Nat} (args : List Arg) (sameLength : sizes.length = stale.length) :
    (getArgSizes types precision sizes args).1 =
      (getArgSizes types precision stale args).1 ∧
    stagedLengths types (getArgSizes types precision sizes args).2 args =
      stagedLengths types (getArgSizes types precision stale args).2 args := by
  induction types generalizing precision sizes stale args with
  | nil => exact ⟨rfl, rfl⟩
  | cons type types induction =>
      cases args with
      | nil => cases sizes <;> cases stale <;> exact ⟨rfl, rfl⟩
      | cons head rest =>
          cases sizes with
          | nil =>
              cases List.eq_nil_of_length_eq_zero sameLength.symm
              exact ⟨rfl, rfl⟩
          | cons size sizes =>
              cases stale with
              | nil => cases sameLength
              | cons old stale =>
                  have own := getArgSize_stale type precision size old head
                  have others := induction
                    (getArgSize type precision old head).previousPrecision rest
                    (Nat.succ.inj sameLength)
                  simp only [getArgSizes, own.1, own.2.1, others.1, true_and]
                  have string : consString type
                      (getArgSize type precision size head).stringSize _ =
                      consString type (getArgSize type precision old head).stringSize _ :=
                    consString_congr own.2.2 others.2
                  cases head with
                  | scalar scalar => exact others.2
                  | charPtr text => exact string
                  | wcharPtr address memory => exact string

/-! ## Counting the bytes -/

/-- With its own size array an argument takes the bytes that were counted for it,
and a wide string four more. -/
theorem storeArgument_length {type : ParamType} {precision size : Nat} {arg : Arg}
    {stored : List UInt8}
    (head : storeArgument type (getArgSize type precision size arg).stringSize arg =
      .ok stored) :
    stored.length = (getArgSize type precision size arg).size +
      4 * wideStrings [type] [arg] := by
  have stringLength {length : Nat} {address : BitVec 64} {memory : Memory UInt8}
      (string : ¬type.value ≤ ParamType.nonString.value)
      (head : storeArgumentString type length address memory = .ok stored) :
      stored.length = length + 4 := by
    rcases (storeArgumentString_ok string).mp head with ⟨_, rfl⟩
    simp [Nat.add_comm]
  have pointerLength {length : Nat} {address : BitVec 64} {memory : Memory UInt8}
      (pointer : type.value ≤ ParamType.nonString.value)
      (head : storeArgumentString type length address memory = .ok stored) :
      stored.length = 8 := by
    rw [storeArgumentString, if_pos pointer] at head
    cases head
    simp [Scalar.size]
  cases arg with
  | scalar scalar =>
      cases head
      simp [getArgSize, getArgSizeNonString, wideStrings]
  | charPtr string =>
      simp only [storeArgument, wideStrings, getArgSize] at head ⊢
      by_cases pointer : type.value ≤ ParamType.nonString.value
      · simp only [getArgSizeString, if_pos pointer] at head ⊢
        exact pointerLength pointer head
      · simp only [getArgSizeString, if_neg pointer] at head ⊢
        exact stringLength pointer head
  | wcharPtr address memory =>
      simp only [storeArgument, wideStrings, getArgSize, getArgSizeNonString] at head ⊢
      by_cases pointer : type.value ≤ ParamType.nonString.value
      · rw [if_pos pointer]
        exact pointerLength pointer head
      · rw [if_neg pointer]
        exact stringLength pointer head

theorem wideStrings_cons (type : ParamType) (types : List ParamType) (head : Arg)
    (rest : List Arg) :
    wideStrings (type :: types) (head :: rest) =
      wideStrings [type] [head] + wideStrings types rest := by
  cases head <;> simp [wideStrings]

/-- The bytes written, in terms of the bytes counted. -/
theorem storeArguments_length {types : List ParamType} {precision : Nat}
    {sizes : List Nat} {args : List Arg} {written : List UInt8}
    (enough : types.length ≤ sizes.length)
    (stored : storeArguments types (getArgSizes types precision sizes args).2 args =
      .ok written) :
    written.length = (getArgSizes types precision sizes args).1 +
      4 * wideStrings types args := by
  induction types generalizing precision sizes args written with
  | nil =>
      cases stored
      rfl
  | cons type types induction =>
      cases sizes with
      | nil => cases enough
      | cons size sizes =>
          cases args with
          | nil =>
              cases stored
              rfl
          | cons head rest =>
              rcases storeArguments_cons_ok.mp stored with
                ⟨first, others, head_ok, rest_ok, rfl⟩
              have own := storeArgument_length head_ok
              have tail := induction (Nat.le_of_succ_le_succ enough) rest_ok
              have wide := wideStrings_cons type types head rest
              rw [List.length_append, own, tail, wide, getArgSizes]
              omega

theorem storeArgument_total {type : ParamType} {precision size : Nat} {arg : Arg}
    (small : (getArgSize type precision size arg).size < 2 ^ 32) :
    ∃ stored, storeArgument type (getArgSize type precision size arg).stringSize arg =
      .ok stored := by
  have stringStored {length : Nat} {address : BitVec 64} {memory : Memory UInt8}
      (fits : ¬type.value ≤ ParamType.nonString.value → length < 2 ^ 32) :
      ∃ stored, storeArgumentString type length address memory = .ok stored := by
    rw [storeArgumentString]
    split
    · exact ⟨_, rfl⟩
    · rename_i string
      have fits := fits string
      rw [if_neg (by omega)]
      exact ⟨_, rfl⟩
  cases arg with
  | scalar scalar => exact ⟨_, rfl⟩
  | wcharPtr address memory => exact stringStored fun _ => small
  | charPtr string =>
      apply stringStored
      intro isString
      simp only [getArgSize, getArgSizeString, if_neg isString] at small ⊢
      omega

/-- What counts less than 4 GiB is stored without an error. -/
theorem storeArguments_total {types : List ParamType} {precision : Nat}
    {sizes : List Nat} {args : List Arg}
    (small : (getArgSizes types precision sizes args).1 < 2 ^ 32) :
    ∃ written, storeArguments types (getArgSizes types precision sizes args).2 args =
      .ok written := by
  induction types generalizing precision sizes args with
  | nil => exact ⟨[], rfl⟩
  | cons type types induction =>
      cases sizes with
      | nil => exact ⟨[], rfl⟩
      | cons size sizes =>
          cases args with
          | nil => exact ⟨[], rfl⟩
          | cons head rest =>
              rw [getArgSizes] at small ⊢
              simp only at small
              have tailSmall : (getArgSizes types
                  (getArgSize type precision size head).previousPrecision sizes
                  rest).1 < 2 ^ 32 := by omega
              rcases induction tailSmall with ⟨others, tail⟩
              have ownSmall : (getArgSize type precision size head).size < 2 ^ 32 := by
                omega
              rcases storeArgument_total ownSmall with ⟨stored, first⟩
              exact ⟨stored ++ others, storeArguments_cons_ok.mpr
                ⟨stored, others, first, tail, rfl⟩⟩


/-! ## When everything that was counted is written, and nothing else -/

/-- A `char*` whose length, cut to the precision, does not fit the 32-bit length field.
A static precision never leaves that much: the length is cut to 32 bits with it. -/
def Oversized : List ParamType → Nat → List Arg → Prop
  | type :: types, precision, .charPtr string :: rest =>
      2 ^ 32 ≤ string.strlen ∧ (type = .stringWithNoPrecision ∨
          type = .stringWithDynamicPrecision ∧ 2 ^ 32 ≤ precision) ∨
        Oversized types precision rest
  | type :: types, precision, .scalar scalar :: rest =>
      Oversized types (if type = .dynamicPrecision then scalar.asUInt64 else precision) rest
  | type :: types, precision, .wcharPtr _ _ :: rest =>
      Oversized types (if type = .dynamicPrecision then 0 else precision) rest
  | _, _, _ => False

/-- `storeArguments`, behind `getArgSizes` with the same arrays, writes all arguments to
just the bytes that were counted. -/
def WritesReserved (types : List ParamType) (precision : Nat) (sizes : List Nat)
    (args : List Arg) : Prop :=
  ∃ written,
    storeArguments types (getArgSizes types precision sizes args).2 args = .ok written ∧
      written.length = (getArgSizes types precision sizes args).1

theorem Oversized.cons_iff (type : ParamType) (types : List ParamType)
    (precision size : Nat) (head : Arg) (rest : List Arg) :
    Oversized (type :: types) precision (head :: rest) ↔
      Oversized [type] precision [head] ∨
        Oversized types (getArgSize type precision size head).previousPrecision rest := by
  cases head with
  | scalar scalar => simp [Oversized, getArgSize, getArgSizeNonString]
  | wcharPtr address memory => simp [Oversized, getArgSize, getArgSizeNonString]
  | charPtr string =>
      have same : (getArgSize type precision size (.charPtr string)).previousPrecision =
          precision := by
        simp only [getArgSize, getArgSizeString]
        split <;> rfl
      rw [same]
      simp [Oversized]

/-! What `getArgSize` makes of a string, for each kind of precision. -/

theorem getArgSizeString_none (precision size : Nat) (string : CString) :
    getArgSizeString .stringWithNoPrecision precision size string =
      { size := string.strlen + 4
        previousPrecision := precision
        stringSize := string.strlen } := by
  simp [getArgSizeString, ParamType.value]

theorem getArgSizeString_dynamic (precision size : Nat) (string : CString) :
    getArgSizeString .stringWithDynamicPrecision precision size string =
      { size := min string.strlen precision + 4
        previousPrecision := precision
        stringSize := min string.strlen precision } := by
  have cut : (if precision < string.strlen then precision else string.strlen) =
      min string.strlen precision := by
    split <;> omega
  simp [getArgSizeString, ParamType.value, cut]

/-- A static precision plays no part: the length is cut to 32 bits. -/
theorem getArgSizeString_static (staticPrecision precision size : Nat)
    (string : CString) :
    getArgSizeString (.string staticPrecision) precision size string =
      { size := string.strlen % 2 ^ 32 + 4
        previousPrecision := precision
        stringSize := string.strlen % 2 ^ 32 } := by
  have isString : ¬(ParamType.string staticPrecision).value ≤ ParamType.nonString.value := by
    simp only [ParamType.value]
    omega
  have static : (ParamType.string 0).value ≤ (ParamType.string staticPrecision).value := by
    simp [ParamType.value]
  have cut : (if string.strlen % 2 ^ 32 < string.strlen then string.strlen % 2 ^ 32
      else string.strlen) = string.strlen % 2 ^ 32 := by
    split <;> omega
  simp only [getArgSizeString, if_neg isString, static, true_and, reduceCtorEq,
    false_and, if_false, cut]

theorem storeArgumentString_ok_iff {type : ParamType} {size : Nat} {address : BitVec 64}
    {memory : Memory UInt8} :
    (∃ stored, storeArgumentString type size address memory = .ok stored) ↔
      (¬type.value ≤ ParamType.nonString.value → size < 2 ^ 32) := by
  by_cases pointer : type.value ≤ ParamType.nonString.value
  · simp [storeArgumentString, pointer]
  · simp only [storeArgumentString_ok pointer]
    simp [pointer]

/-- An argument is stored unless it is oversized. -/
theorem storeArgument_ok_iff (type : ParamType) (precision size : Nat) (arg : Arg) :
    (∃ stored, storeArgument type (getArgSize type precision size arg).stringSize arg =
      .ok stored) ↔ ¬Oversized [type] precision [arg] := by
  cases arg with
  | scalar scalar => simp [storeArgument, Oversized]
  | wcharPtr address memory =>
      have small : (getArgSize type precision size (.wcharPtr address memory)).stringSize <
          2 ^ 32 := by
        simp [getArgSize, getArgSizeNonString]
      exact iff_of_true (storeArgumentString_ok_iff.mpr fun _ => small) (by simp [Oversized])
  | charPtr string =>
      rw [storeArgument, storeArgumentString_ok_iff]
      cases type with
      | invalid => simp [Oversized, ParamType.value]
      | dynamicWidth => simp [Oversized, ParamType.value]
      | dynamicPrecision => simp [Oversized, ParamType.value]
      | nonString => simp [Oversized, ParamType.value]
      | stringWithDynamicPrecision =>
          rw [getArgSize, getArgSizeString_dynamic]
          simp [Oversized, ParamType.value]
          omega
      | stringWithNoPrecision =>
          rw [getArgSize, getArgSizeString_none]
          simp [Oversized, ParamType.value]
      | string staticPrecision =>
          rw [getArgSize, getArgSizeString_static]
          simp [Oversized, ParamType.value]
          omega

theorem storeArguments_ok_iff {types : List ParamType} {precision : Nat}
    {sizes : List Nat} {args : List Arg} (enough : types.length ≤ sizes.length) :
    (∃ written, storeArguments types (getArgSizes types precision sizes args).2 args =
      .ok written) ↔ ¬Oversized types precision args := by
  induction types generalizing precision sizes args with
  | nil => exact iff_of_true ⟨[], rfl⟩ (by simp [Oversized])
  | cons type types induction =>
      cases sizes with
      | nil => cases enough
      | cons size sizes =>
          cases args with
          | nil => exact iff_of_true ⟨[], rfl⟩ (by simp [Oversized])
          | cons head rest =>
              rw [Oversized.cons_iff type types precision size head rest, not_or,
                ← induction (Nat.le_of_succ_le_succ enough), ← storeArgument_ok_iff]
              simp only [getArgSizes, storeArguments_cons_ok]
              constructor
              · rintro ⟨_, stored, others, own, tail, _⟩
                exact ⟨⟨stored, own⟩, others, tail⟩
              · rintro ⟨⟨stored, own⟩, others, tail⟩
                exact ⟨stored ++ others, stored, others, own, tail, rfl⟩

/-- The reservation is met unless there is a wide string or an oversized one. -/
theorem writesReserved_iff (types : List ParamType) (precision : Nat) (sizes : List Nat)
    (args : List Arg) (enough : types.length ≤ sizes.length) :
    WritesReserved types precision sizes args ↔
      wideStrings types args = 0 ∧ ¬Oversized types precision args := by
  rw [← storeArguments_ok_iff enough]
  constructor
  · rintro ⟨written, stored, counted⟩
    have length := storeArguments_length enough stored
    exact ⟨by omega, written, stored⟩
  · rintro ⟨narrow, written, stored⟩
    have length := storeArguments_length enough stored
    exact ⟨written, stored, by omega⟩

namespace Example

theorem noNul_hi : ∀ c ∈ ascii "hi", c ≠ 0 :=
  List.forall_iff_forall_mem.mp (by decide)

/-- `"hi"`, with zeros behind it. -/
def hi : CString where
  address := 4096
  chars := ascii "hi"
  noNul := noNul_hi
  beyond _ := 0

end Example

theorem writesReserved_hi :
    WritesReserved [.stringWithNoPrecision, .nonString] initialPrecision
        (initialSizes 2) [.charPtr Example.hi, .scalar (.integer true .w32 7)] ↔
      wideStrings [.stringWithNoPrecision, .nonString]
          [.charPtr Example.hi, .scalar (.integer true .w32 7)] = 0 ∧
        ¬Oversized [.stringWithNoPrecision, .nonString] initialPrecision
          [.charPtr Example.hi, .scalar (.integer true .w32 7)] :=
  writesReserved_iff _ _ _ _ (by decide)

/-- A `wchar_t*` under `%ls`: 12 bytes are written where 8 were counted. -/
theorem not_writesReserved_wide :
    ¬WritesReserved [.stringWithNoPrecision] initialPrecision (initialSizes 1)
      [.wcharPtr 4096 (fun _ => 0)] := by
  rintro ⟨written, stored, counted⟩
  have length : written.length = 12 := by
    rw [show written = _ from (Except.ok.inj stored).symm]
    rfl
  rw [length] at counted
  revert counted
  decide

end StaticLog.Encoding
