import Mathlib.Data.List.Forall2
import StaticLog.Decoding.Parameters
import StaticLog.Encoding.Exactness

/-! # Decoding what was encoded

The decoder takes each parameter from where the encoder has put it, unless a
pointer to characters stands under a conversion that is no string conversion: the
encoder stores the pointer, but its entry in the size array stays zero. -/

namespace StaticLog.Decoding

open StaticLog.Format Encoding

/-- An argument with the type that the format gives it and its entry in the size
array. -/
structure Item where
  type : ParamType
  size : Nat
  arg : Arg

def items : List ParamType → List Nat → List Arg → List Item
  | type :: types, size :: sizes, arg :: args =>
      { type := type, size := size, arg := arg } :: items types sizes args
  | _, _, _ => []

/-- A pointer to characters under a conversion for something else. -/
def IsTextPointer (type : ParamType) (arg : Arg) : Prop :=
  type = .nonString ∧ ∃ string, arg = .charPtr string

namespace Item

/-- The bytes that are stored for the argument. -/
def block (item : Item) : List UInt8 :=
  match storeArgument item.type item.size item.arg with
  | .ok stored => stored
  | .error _ => []

/-- The value that was stored: the object itself, or the bytes of a string. -/
def value (item : Item) : List UInt8 :=
  match item.arg with
  | .scalar scalar => scalar.object
  | .charPtr string =>
      if item.type.value ≤ ParamType.nonString.value then
        (Scalar.pointer string.address).object
      else Memory.slice string.memory 0 item.size
  | .wcharPtr address memory =>
      if item.type.value ≤ ParamType.nonString.value then
        (Scalar.pointer address).object
      else Memory.slice memory 0 item.size

/-- The size array has the size of each scalar. -/
def Measured (item : Item) : Prop :=
  ∀ scalar, item.arg = .scalar scalar → item.size = scalar.size

end Item

/-- The argument is of a type that the conversion is for: a scalar, or a `char*`
under `%s` or under a conversion that takes its address. -/
def Matches (type : ParamType) : Arg → Prop
  | .scalar _ => type = .nonString
  | .charPtr _ => type = .nonString ∨ ParamType.nonString.value < type.value
  | .wcharPtr _ _ => False

/-- The cursor and the value that each call is to be made with. -/
def expectedCalls : Nat → List Item → List (Nat × List UInt8)
  | _, [] => []
  | cursor, item :: items =>
      (cursor, item.value) :: expectedCalls (cursor + item.block.length) items

/-! ## One argument -/

/-- An argument that is stored at the cursor is taken from there, and the cursor
advances by what was stored. -/
theorem taken_item {message : Message} {paramIdx cursor : Nat} {item : Item}
    (type : message.paramTypes.getD paramIdx .invalid = item.type)
    (size : message.paramSizes.getD paramIdx 0 = item.size)
    (matched : Matches item.type item.arg) (clean : ¬IsTextPointer item.type item.arg)
    (measured : item.Measured) {stored : List UInt8}
    (stores : storeArgument item.type item.size item.arg = .ok stored)
    (laid : Memory.slice message.params cursor item.block.length = item.block) :
    message.taken paramIdx cursor = item.value ∧
      message.cursorBehind paramIdx cursor = cursor + item.block.length := by
  rcases item with ⟨itemType, itemSize, arg⟩
  have block : Item.block ⟨itemType, itemSize, arg⟩ = stored := by
    simp only [Item.block, stores]
  rw [block] at laid ⊢
  cases arg with
  | scalar scalar =>
      cases matched
      cases stores
      have notString : message.isString paramIdx = false := by
        rw [Message.isString, type]
        rfl
      have length : itemSize = scalar.size := measured scalar rfl
      simp only [Message.taken, Message.cursorBehind, notString, Bool.false_eq_true,
        if_false, size, length, Scalar.object_length] at laid ⊢
      exact ⟨laid, trivial⟩
  | charPtr string =>
      have text : ParamType.nonString.value < itemType.value := by
        rcases matched with pointer | text
        · exact absurd ⟨pointer, string, rfl⟩ clean
        · exact text
      have isString : message.isString paramIdx = true := by
        rw [Message.isString, type]
        exact decide_eq_true text
      rcases (storeArgumentString_ok (Int.not_le.mpr text)).mp stores with ⟨fits, rfl⟩
      rw [List.length_append, LittleEndian.bytes_length, Memory.slice_length,
        Memory.slice_add] at laid
      have parts := List.append_inj laid (by simp)
      have header : message.stringSize cursor = itemSize := by
        rw [Message.stringSize, parts.1]
        exact LittleEndian.value_bytes_of_lt fits
      simp only [Message.taken, Message.cursorBehind, isString, if_true, header, Item.value,
        if_neg (Int.not_le.mpr text), List.length_append, LittleEndian.bytes_length,
        Memory.slice_length]
      exact ⟨parts.2, Nat.add_assoc _ _ _⟩
  | wcharPtr address memory => cases matched

/-! ## All arguments -/

/-- What is known of the arguments of an encoded message. -/
def Item.Encoded (item : Item) : Prop :=
  Matches item.type item.arg ∧ item.Measured ∧
    ∃ stored, storeArgument item.type item.size item.arg = .ok stored

/-- The message has the types and sizes of the items, from a parameter on. -/
def Describes (message : Message) (paramIdx : Nat) : List Item → Prop
  | [] => True
  | item :: items =>
      message.paramTypes.getD paramIdx .invalid = item.type ∧
        message.paramSizes.getD paramIdx 0 = item.size ∧
        Describes message (paramIdx + 1) items

/-- Calls that walk over encoded arguments find each where it was stored. -/
theorem Walked.decodes {message : Message} {paramIdx cursor stop : Nat}
    {calls : List Call} (walked : Walked message paramIdx cursor calls stop)
    {items : List Item} (describes : Describes message paramIdx items)
    (encoded : ∀ item ∈ items, item.Encoded)
    (clean : ∀ item ∈ items.take calls.length, ¬IsTextPointer item.type item.arg) {ends : Nat}
    (laid : Memory.Laid message.params cursor (items.map Item.block) ends)
    (within : calls.length ≤ items.length) :
    calls.map (fun call => (call.cursor, call.value)) <+: expectedCalls cursor items ∧
      Memory.Laid message.params cursor ((items.take calls.length).map Item.block) stop := by
  induction walked generalizing items with
  | nil => exact ⟨List.nil_prefix, rfl⟩
  | cons value rest induction =>
      rename_i call calls stop
      cases items with
      | nil => cases within
      | cons item items =>
          rcases describes with ⟨type, size, describes⟩
          rcases encoded item (List.mem_cons_self) with ⟨matched, measured, stored, stores⟩
          have ownClean := clean item (by simp)
          have taken := taken_item type size matched ownClean measured stores laid.1
          rw [taken.1] at value
          rw [taken.2] at induction
          have others := induction describes
            (fun item member => encoded item (List.mem_cons_of_mem _ member))
            (fun item member => clean item (by simp [member])) laid.2
            (Nat.le_of_succ_le_succ within)
          rw [List.map_cons, value]
          exact ⟨(List.prefix_cons_inj _).mpr others.1, laid.1, others.2⟩

/-! ## What the encoder leaves -/

theorem storeArguments_items {types : List ParamType} {sizes : List Nat}
    {args : List Arg} {written : List UInt8}
    (stored : storeArguments types sizes args = .ok written) :
    (∀ item ∈ items types sizes args,
      ∃ stored, storeArgument item.type item.size item.arg = .ok stored) ∧
    ((items types sizes args).map Item.block).flatten = written := by
  induction types generalizing sizes args written with
  | nil =>
      cases stored
      exact ⟨fun _ member => absurd member List.not_mem_nil, rfl⟩
  | cons type types induction =>
      cases sizes with
      | nil =>
          cases stored
          exact ⟨fun _ member => absurd member List.not_mem_nil, rfl⟩
      | cons size sizes =>
          cases args with
          | nil =>
              cases stored
              exact ⟨fun _ member => absurd member List.not_mem_nil, rfl⟩
          | cons head rest =>
              rcases storeArguments_cons_ok.mp stored with
                ⟨first, others, head_ok, rest_ok, rfl⟩
              have tail := induction rest_ok
              refine ⟨?_, ?_⟩
              · intro item member
                rcases List.mem_cons.mp member with rfl | later
                · exact ⟨first, head_ok⟩
                · exact tail.1 item later
              · simp only [items, List.map_cons, List.flatten_cons, tail.2, Item.block,
                  head_ok]

/-- What `getArgSizes` leaves in the size array for an argument. -/
theorem measured_getArgSize (type : ParamType) (precision size : Nat) (arg : Arg) :
    Item.Measured
        { type := type, size := (getArgSize type precision size arg).stringSize,
          arg := arg } ∧
      (IsTextPointer type arg →
        (getArgSize type precision size arg).stringSize = size) := by
  constructor
  · intro scalar same
    cases arg with
    | scalar other =>
        cases same
        rfl
    | charPtr string => cases same
    | wcharPtr address memory => cases same
  · rintro ⟨rfl, string, rfl⟩
    rfl

/-- In the size array of a message the entry of a pointer to characters under
another conversion is still zero. -/
theorem measured_items (types : List ParamType) (precision : Nat) {sizes : List Nat}
    (args : List Arg) (zeros : ∀ size ∈ sizes, size = 0) :
    ∀ item ∈ items types (getArgSizes types precision sizes args).2 args,
      item.Measured ∧ (IsTextPointer item.type item.arg → item.size = 0) := by
  induction types generalizing precision sizes args with
  | nil => exact fun _ member => absurd member List.not_mem_nil
  | cons type types induction =>
      cases sizes with
      | nil => exact fun _ member => absurd member List.not_mem_nil
      | cons size sizes =>
          cases args with
          | nil => exact fun _ member => absurd member List.not_mem_nil
          | cons head rest =>
              intro item member
              rcases List.mem_cons.mp member with rfl | later
              · have own := measured_getArgSize type precision size head
                refine ⟨own.1, fun pointer => (own.2 pointer).trans ?_⟩
                exact zeros size List.mem_cons_self
              · exact induction _ rest
                  (fun size member => zeros size (List.mem_cons_of_mem _ member)) item later

theorem matches_items {types : List ParamType} {sizes : List Nat} {args : List Arg}
    (matched : List.Forall₂ Matches types args) :
    ∀ item ∈ items types sizes args, Matches item.type item.arg := by
  induction matched generalizing sizes with
  | nil => exact fun _ member => absurd member List.not_mem_nil
  | cons own _ induction =>
      cases sizes with
      | nil => exact fun _ member => absurd member List.not_mem_nil
      | cons size sizes =>
          intro item member
          rcases List.mem_cons.mp member with rfl | later
          · exact own
          · exact induction item later

theorem items_length {types : List ParamType} {sizes : List Nat} {args : List Arg}
    (matched : List.Forall₂ Matches types args) (enough : types.length ≤ sizes.length) :
    (items types sizes args).length = types.length := by
  induction matched generalizing sizes with
  | nil => rfl
  | cons own _ induction =>
      cases sizes with
      | nil => cases enough
      | cons size sizes =>
          rw [items, List.length_cons, induction (Nat.le_of_succ_le_succ enough),
            List.length_cons]

theorem wideStrings_matched {types : List ParamType} {args : List Arg}
    (matched : List.Forall₂ Matches types args) : wideStrings types args = 0 := by
  induction matched with
  | nil => rfl
  | cons own _ induction =>
      rename_i arg _ _ _
      cases arg with
      | scalar scalar => exact induction
      | charPtr string => exact induction
      | wcharPtr address memory => cases own

/-- A message describes its own arguments. -/
theorem describes_items {message : Message} {types : List ParamType} {sizes : List Nat}
    {args : List Arg} {paramIdx : Nat}
    (typesFrom : ∀ later, message.paramTypes.getD (paramIdx + later) .invalid =
      types.getD later .invalid)
    (sizesFrom : ∀ later, message.paramSizes.getD (paramIdx + later) 0 =
      sizes.getD later 0) :
    Describes message paramIdx (items types sizes args) := by
  induction types generalizing sizes args paramIdx with
  | nil => trivial
  | cons type types induction =>
      cases sizes with
      | nil => trivial
      | cons size sizes =>
          cases args with
          | nil => trivial
          | cons head rest =>
              refine ⟨typesFrom 0, sizesFrom 0, induction ?_ ?_⟩
              · intro later
                rw [Nat.add_right_comm]
                exact typesFrom (later + 1)
              · intro later
                rw [Nat.add_right_comm]
                exact sizesFrom (later + 1)

/-- Every argument takes some bytes. -/
theorem Item.Encoded.block_ne_nil {item : Item} (encoded : item.Encoded) :
    item.block ≠ [] := by
  rcases encoded with ⟨matched, measured, stored, stores⟩
  rcases item with ⟨type, size, arg⟩
  have block : Item.block ⟨type, size, arg⟩ = stored := by
    simp only [Item.block, stores]
  rw [block]
  apply List.ne_nil_of_length_pos
  cases arg with
  | scalar scalar =>
      cases stores
      rw [Scalar.object_length]
      exact scalar.size_pos
  | charPtr string =>
      by_cases pointer : type.value ≤ ParamType.nonString.value
      · simp only [storeArgument, storeArgumentString, if_pos pointer] at stores
        cases stores
        rw [Scalar.object_length]
        exact Scalar.size_pos _
      · rcases (storeArgumentString_ok pointer).mp stores with ⟨_, rfl⟩
        rw [List.length_append, LittleEndian.bytes_length]
        omega
  | wcharPtr address memory => cases matched

/-! ## Encoding and decoding -/

/-- The message of an entry whose parameters lie in the given memory. -/
def encodedMessage (types : List ParamType) (args : List Arg) (params : Memory UInt8) :
    Message where
  numParams := types.length
  paramTypes := types
  paramSizes := (getArgSizes types initialPrecision (initialSizes types.length) args).2
  params := params

def encodedItems (types : List ParamType) (args : List Arg) : List Item :=
  items types (getArgSizes types initialPrecision (initialSizes types.length) args).2 args

/-- Wherever the encoded arguments lie and whatever the buffer and the C library are
like, each conversion that is handled finds the cursor at its argument and takes
the value that was stored, and at the end of the format the cursor has advanced by
what `getArgSizes` has returned. -/
def DecodesEncoded (fmt : List UInt8) (types : List ParamType) (args : List Arg)
    (written : List UInt8) : Prop :=
  ∀ (libc : Libc) (passes : Nat) (params : Memory UInt8) (paramList : Nat)
    (output : Output) (startPos : Nat),
    Memory.slice params paramList written.length = written →
    let ended := processFmt libc passes fmt (encodedMessage types args params) paramList
      output startPos
    ended.1.calls.map (fun call => (call.cursor, call.value)) <+:
        expectedCalls paramList (encodedItems types args) ∧
      (ended.2 = .finished →
        ended.1.paramList = paramList +
          (getArgSizes types initialPrecision (initialSizes types.length) args).1)

theorem initialSizes_zero (nParams : Nat) : ∀ size ∈ initialSizes nParams, size = 0 :=
  fun _ member => (List.mem_replicate.mp member).2

section Encoded

variable {types : List ParamType} {args : List Arg} {written : List UInt8}

theorem encodedItems_encoded (matched : List.Forall₂ Matches types args)
    (stored : encoding types args = .ok written) :
    ∀ item ∈ encodedItems types args, item.Encoded := by
  intro item member
  exact ⟨matches_items matched item member,
    (measured_items types initialPrecision args (initialSizes_zero _) item member).1,
    (storeArguments_items stored).1 item member⟩

theorem encodedItems_length (matched : List.Forall₂ Matches types args) :
    (encodedItems types args).length = types.length := by
  apply items_length matched
  rw [getArgSizes_length, initialSizes, List.length_replicate]
  exact Nat.le_succ _

theorem encodedItems_laid (stored : encoding types args = .ok written)
    {params : Memory UInt8} {paramList : Nat}
    (read : Memory.slice params paramList written.length = written) :
    Memory.Laid params paramList ((encodedItems types args).map Item.block)
      (paramList + written.length) := by
  have blocks := (storeArguments_items stored).2
  rw [← blocks] at read ⊢
  exact Memory.Laid.of_slice read

theorem encoding_length (matched : List.Forall₂ Matches types args)
    (stored : encoding types args = .ok written) :
    written.length =
      (getArgSizes types initialPrecision (initialSizes types.length) args).1 := by
  have enough : types.length ≤ (initialSizes types.length).length := by
    rw [initialSizes, List.length_replicate]
    exact Nat.le_succ _
  have length := storeArguments_length enough stored
  rw [wideStrings_matched matched] at length
  exact length

theorem describes_encoded (params : Memory UInt8) :
    Describes (encodedMessage types args params) 0 (encodedItems types args) := by
  apply describes_items
  · intro later
    rw [Nat.zero_add]
    rfl
  · intro later
    rw [Nat.zero_add]
    rfl

theorem encodedItems_zip (types : List ParamType) (args : List Arg) :
    (encodedItems types args).map (fun item => (item.type, item.arg)) =
      types.zip args := by
  have zipped {types : List ParamType} {sizes : List Nat} {args : List Arg}
      (enough : types.length ≤ sizes.length) :
      (items types sizes args).map (fun item => (item.type, item.arg)) =
        types.zip args := by
    induction types generalizing sizes args with
    | nil => rfl
    | cons type types induction =>
        cases sizes with
        | nil => cases enough
        | cons size sizes =>
            cases args with
            | nil => rfl
            | cons head rest =>
                rw [items, List.map_cons, induction (Nat.le_of_succ_le_succ enough),
                  List.zip_cons_cons]
  apply zipped
  rw [getArgSizes_length, initialSizes, List.length_replicate]
  exact Nat.le_succ _

theorem clean_items (types : List ParamType) (args : List Arg) :
    (∀ item ∈ encodedItems types args, ¬IsTextPointer item.type item.arg) ↔
      ∀ pair ∈ types.zip args, ¬IsTextPointer pair.1 pair.2 := by
  rw [← encodedItems_zip, List.forall_mem_map]

/-- Without pointers to text, calls that walk over the encoded arguments find each of
them. -/
theorem Walked.decodes_encoded (matched : List.Forall₂ Matches types args)
    (stored : encoding types args = .ok written) {params : Memory UInt8}
    {paramList stop : Nat}
    (read : Memory.slice params paramList written.length = written) {calls : List Call}
    (walked : Walked (encodedMessage types args params) 0 paramList calls stop)
    (clean : ∀ item ∈ (encodedItems types args).take calls.length,
      ¬IsTextPointer item.type item.arg)
    (within : calls.length ≤ types.length) :
    calls.map (fun call => (call.cursor, call.value)) <+:
        expectedCalls paramList (encodedItems types args) ∧
      Memory.Laid params paramList
        (((encodedItems types args).take calls.length).map Item.block) stop :=
  walked.decodes (describes_encoded params) (encodedItems_encoded matched stored) clean
    (encodedItems_laid stored read) (within.trans (encodedItems_length matched).ge)

end Encoded

/-- If no pointer to text stands under another conversion and the run sees every
conversion, what was encoded is decoded. -/
theorem decodesEncoded {fmt : List UInt8} {pieces : List Piece}
    (spells : Spells pieces fmt)
    (starFree : ∀ conversion ∈ conversions pieces, conversion.stars = 0)
    {args : List Arg} (matched : List.Forall₂ Matches (paramTypes pieces) args)
    {written : List UInt8} (stored : encoding (paramTypes pieces) args = .ok written)
    (clean : ∀ pair ∈ (paramTypes pieces).zip args, ¬IsTextPointer pair.1 pair.2)
    (seen : conversions (visible pieces) = conversions pieces) :
    DecodesEncoded fmt (paramTypes pieces) args written := by
  intro libc passes params paramList output startPos read
  rcases processFmt_passed libc passes spells
    (encodedMessage (paramTypes pieces) args params) paramList output startPos with
    ⟨stop, passed⟩
  intro ended
  have count : (paramTypes pieces).length = (conversions pieces).length :=
    length_paramTypes starFree
  rw [seen, ← count] at passed
  have cleanItems := (clean_items _ _).mpr clean
  have decoded := passed.walked.decodes_encoded matched stored read
    (fun item member => cleanItems item (List.mem_of_mem_take member)) passed.length_le
  refine ⟨decoded.1, ?_⟩
  intro finished
  have every := passed.finished finished
  rw [← every.2.2, every.1, ← encodedItems_length matched, List.take_length] at decoded
  rw [decoded.2.stop_eq, ← (encodedItems_laid stored read).stop_eq,
    encoding_length matched stored]

/-! ## Where decoding goes wrong -/

/-- A C library with which every call returns: every conversion has a text, and neither
`snprintf` nor an allocation fails. -/
def smoothLibc : Libc where
  render _ _ := [' '.toUInt8]
  render_fits := fun _ _ => by decide
  fails _ _ := false
  malloc _ _ := some 0
  heapTail _ := []

theorem goesOn_smoothLibc (message : Message) (state : FmtState) :
    state.GoesOn smoothLibc message where
  copied := by simp [smoothLibc]
  returns := by
    intro call _ _ branch _
    refine ⟨rfl, ?_, ?_⟩
    · rintro ⟨empty, _⟩
      cases empty
    · exact fun _ => ⟨by simp [smoothLibc], by simp [smoothLibc]⟩

/-- A run with this library over the encoded arguments makes a call for each
conversion that it sees. -/
theorem smooth_run {fmt : List UInt8} {pieces : List Piece} (spells : Spells pieces fmt)
    (args : List Arg) (params : Memory UInt8) :
    let ended := processFmt smoothLibc 3 fmt
      (encodedMessage (paramTypes pieces) args params) 0 Example.output 0
    ended.2 = .finished ∧
      Passed (encodedMessage (paramTypes pieces) args params)
        (conversions (visible pieces)).length
        (FmtState.enter fmt 0 0 Example.output) ended ended.1.calls ended.1.paramList := by
  have seen := (conversions_visible_isPrefix pieces).length_le
  have total := length_conversions_le pieces
  have finished := (processFmt_finished_iff smoothLibc (Nat.le_refl 3) spells
    (encodedMessage (paramTypes pieces) args params) (seen.trans total) 0 Example.output 0
    (by decide)).mpr fun state _ => goesOn_smoothLibc _ state
  rcases processFmt_passed smoothLibc 3 spells
    (encodedMessage (paramTypes pieces) args params) 0 Example.output 0 with
    ⟨stop, passed⟩
  rw [← (passed.finished finished).2.2] at passed
  exact ⟨finished, passed⟩

theorem Walked.getElem {message : Message} {paramIdx cursor stop : Nat}
    {calls : List Call} (walked : Walked message paramIdx cursor calls stop) {index : Nat}
    {call : Call} (found : calls[index]? = some call) :
    call.paramIdx = paramIdx + index ∧
      call.value = message.taken call.paramIdx call.cursor := by
  induction walked generalizing index with
  | nil => cases found
  | cons value _ induction =>
      cases index with
      | zero =>
          cases found
          exact ⟨rfl, value⟩
      | succ index =>
          have later := induction found
          exact ⟨later.1.trans (by omega), later.2⟩

theorem Describes.getElem {message : Message} {paramIdx : Nat} {items : List Item}
    (describes : Describes message paramIdx items) {index : Nat} {item : Item}
    (found : items[index]? = some item) :
    message.paramTypes.getD (paramIdx + index) .invalid = item.type ∧
      message.paramSizes.getD (paramIdx + index) 0 = item.size := by
  induction items generalizing paramIdx index with
  | nil => cases found
  | cons first items induction =>
      rcases describes with ⟨type, size, others⟩
      cases index with
      | zero =>
          cases found
          exact ⟨type, size⟩
      | succ index =>
          have later := induction others found
          rw [Nat.add_right_comm] at later
          exact later

theorem expectedCalls_value {cursor index : Nat} {items : List Item} {item : Item}
    (found : items[index]? = some item) :
    (expectedCalls cursor items)[index]?.map Prod.snd = some item.value := by
  induction items generalizing cursor index with
  | nil => cases found
  | cons first items induction =>
      cases index with
      | zero =>
          cases found
          rfl
      | succ index => exact induction found

/-- For a pointer to text under another conversion nothing is taken, although a
pointer was stored. -/
theorem taken_textPointer {message : Message} {paramIdx cursor : Nat} {item : Item}
    (type : message.paramTypes.getD paramIdx .invalid = item.type)
    (size : message.paramSizes.getD paramIdx 0 = item.size) (zero : item.size = 0)
    (pointer : IsTextPointer item.type item.arg) :
    message.taken paramIdx cursor ≠ item.value := by
  rcases pointer with ⟨nonString, string, given⟩
  have notString : message.isString paramIdx = false := by
    rw [Message.isString, type, nonString]
    rfl
  have nothing : message.taken paramIdx cursor = [] := by
    simp only [Message.taken, notString, Bool.false_eq_true, if_false, size, zero,
      Memory.slice_zero]
  have stored : item.value = (Scalar.pointer string.address).object := by
    simp only [Item.value, given, nonString]
    rfl
  rw [nothing, stored]
  intro empty
  have length := congrArg List.length empty
  rw [Scalar.object_length] at length
  cases length

/-- What the decoder needs, seen from a run that goes through. -/
theorem clean_of_decodesEncoded {fmt : List UInt8} {pieces : List Piece}
    (spells : Spells pieces fmt) {args : List Arg}
    (matched : List.Forall₂ Matches (paramTypes pieces) args) {written : List UInt8}
    (stored : encoding (paramTypes pieces) args = .ok written)
    (decodes : DecodesEncoded fmt (paramTypes pieces) args written) :
    (∀ item ∈ (encodedItems (paramTypes pieces) args).take
        (conversions (visible pieces)).length, ¬IsTextPointer item.type item.arg) ∧
      (encodedItems (paramTypes pieces) args).length ≤
        (conversions (visible pieces)).length := by
  let params : Memory UInt8 := Memory.overwrite (fun _ => 0) 0 written
  have read : Memory.slice params 0 written.length = written :=
    Memory.slice_overwrite_self _ _ _
  rcases smooth_run spells args params with ⟨finished, passed⟩
  have every := (passed.finished finished).1
  have decoded := decodes smoothLibc 3 params 0 Example.output 0 read
  have clean : ∀ item ∈ (encodedItems (paramTypes pieces) args).take
      (conversions (visible pieces)).length, ¬IsTextPointer item.type item.arg := by
    intro item member pointer
    rcases List.mem_iff_getElem?.mp member with ⟨index, found⟩
    rw [List.getElem?_take] at found
    split at found
    · rename_i inside
      rw [← every] at inside
      have made := List.getElem?_eq_getElem inside
      have walked := passed.walked.getElem made
      have described := (describes_encoded params).getElem found
      have zero := (measured_items _ initialPrecision args (initialSizes_zero _) item
        (List.mem_of_getElem? found)).2 pointer
      have expected : (expectedCalls 0
          (encodedItems (paramTypes pieces) args))[index]?.map Prod.snd =
            some item.value := expectedCalls_value found
      rcases decoded.1 with ⟨others, calls⟩
      rw [← calls, List.getElem?_append_left (by simpa using inside), List.getElem?_map,
        made] at expected
      have value := (Option.some.inj expected).symm.trans walked.2
      rw [walked.1] at value
      exact taken_textPointer described.1 described.2 zero pointer value.symm
    · cases found
  refine ⟨clean, ?_⟩
  rw [← every] at clean ⊢
  have within : (processFmt smoothLibc 3 fmt
      (encodedMessage (paramTypes pieces) args params) 0 Example.output 0).1.calls.length ≤
      (paramTypes pieces).length :=
    (passed.length_le.trans (conversions_visible_isPrefix pieces).length_le).trans
      (length_conversions_le pieces)
  have front := (passed.walked.decodes_encoded matched stored read clean within).2
  have whole := encodedItems_laid stored read
  rw [← List.take_append_drop _ (encodedItems (paramTypes pieces) args),
    List.map_append] at whole
  rcases whole.split with ⟨middle, first, last⟩
  have total := encoding_length matched stored
  have ends : middle = 0 + written.length := by
    rw [first.stop_eq, ← front.stop_eq, decoded.2 finished, total]
  rw [ends] at last
  have nothing := last.eq_nil_of_start_eq (by
    intro block member
    rcases List.mem_map.mp member with ⟨item, later, rfl⟩
    exact (encodedItems_encoded matched stored item
      (List.mem_of_mem_drop later)).block_ne_nil)
  rw [List.map_eq_nil_iff, List.drop_eq_nil_iff] at nothing
  exact nothing

/-- Decoding undoes encoding if and only if no pointer to text stands under another
conversion and no conversion stands behind an embedded NUL. -/
theorem decodesEncoded_iff {fmt : List UInt8} {pieces : List Piece}
    (spells : Spells pieces fmt)
    (starFree : ∀ conversion ∈ conversions pieces, conversion.stars = 0)
    {args : List Arg} (matched : List.Forall₂ Matches (paramTypes pieces) args)
    {written : List UInt8} (stored : encoding (paramTypes pieces) args = .ok written) :
    DecodesEncoded fmt (paramTypes pieces) args written ↔
      (∀ pair ∈ (paramTypes pieces).zip args, ¬IsTextPointer pair.1 pair.2) ∧
        conversions (visible pieces) = conversions pieces := by
  constructor
  · intro decodes
    have clean := clean_of_decodesEncoded spells matched stored decodes
    have count : (paramTypes pieces).length = (conversions pieces).length :=
      length_paramTypes starFree
    have all := encodedItems_length matched
    have seen := (conversions_visible_isPrefix pieces).length_le
    constructor
    · rw [← clean_items]
      rw [List.take_of_length_le clean.2] at clean
      exact clean.1
    · apply (conversions_visible_isPrefix pieces).eq_of_length
      omega
  · rintro ⟨clean, seen⟩
    exact decodesEncoded spells starFree matched stored clean seen

/-! ## A string, its address and an integer -/

namespace Example

/-- The argument `"hi"`. -/
def hi : Arg :=
  .charPtr ⟨4096, ascii "hi", List.forall_iff_forall_mem.mp (by decide), fun _ => 0⟩

def seven : Arg := .scalar (.integer true .w32 7)

/-- `%s %d`. -/
def stringPieces : List Piece :=
  [.conversion (bare 's'.toUInt8 rfl (by decide)),
    .literal ' '.toUInt8, .conversion decimal]

def stringBytes : List UInt8 :=
  [2, 0, 0, 0, 'h'.toUInt8, 'i'.toUInt8, 7, 0, 0, 0]

/-- `%p %d`. -/
def pointerPieces : List Piece :=
  [.conversion (bare 'p'.toUInt8 rfl (by decide)),
    .literal ' '.toUInt8, .conversion decimal]

def pointerBytes : List UInt8 := [0, 16, 0, 0, 0, 0, 0, 0, 7, 0, 0, 0]

end Example

theorem decodesEncoded_string :
    DecodesEncoded (ascii "%s %d") (paramTypes Example.stringPieces)
      [Example.hi, Example.seven] Example.stringBytes := by
  have spells : Spells Example.stringPieces (ascii "%s %d") := ⟨by decide, by decide⟩
  have matched : List.Forall₂ Matches (paramTypes Example.stringPieces)
      [Example.hi, Example.seven] := .cons (.inr (by decide)) (.cons rfl .nil)
  have stored : encoding (paramTypes Example.stringPieces) [Example.hi, Example.seven] =
      .ok Example.stringBytes := by rfl
  apply (decodesEncoded_iff spells (by decide) matched stored).mpr
  refine ⟨?_, rfl⟩
  have zipped : (paramTypes Example.stringPieces).zip [Example.hi, Example.seven] =
      [(.stringWithNoPrecision, Example.hi), (.nonString, Example.seven)] := rfl
  rw [zipped]
  simp [IsTextPointer, Example.seven]

/-- Under `%p` the pointer to `hi` is stored in eight bytes, of which the decoder
takes none: it then takes the low half of the pointer for the integer. -/
theorem not_decodesEncoded_pointer :
    Spells Example.pointerPieces (ascii "%p %d") ∧
      encoding (paramTypes Example.pointerPieces) [Example.hi, Example.seven] =
        .ok Example.pointerBytes ∧
      ¬DecodesEncoded (ascii "%p %d") (paramTypes Example.pointerPieces)
        [Example.hi, Example.seven] Example.pointerBytes := by
  refine ⟨⟨by decide, by decide⟩, rfl, ?_⟩
  intro decodes
  have calls := (decodes smoothLibc 3
    (Memory.overwrite (fun _ => 0) 0 Example.pointerBytes) 0 Example.output 0 rfl).1
  revert calls
  decide +kernel

end StaticLog.Decoding
