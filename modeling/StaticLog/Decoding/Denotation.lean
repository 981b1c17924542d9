import StaticLog.Decoding.Coverage

/-! # The text of a message

What `process_fmt` makes of a format and its parameters, told without the log buffer:
literal characters, and the text of one conversion after the other. As long as this
text leaves some room in the buffer, the loop appends it to what is there already. -/

namespace StaticLog.Decoding

open StaticLog.Format

/-- What the call for a conversion passes to `snprintf`, for the parameter with this
index at this place of the encoded parameters. -/
def Message.passed (message : Message) (conversion : Conversion) (paramIdx cursor : Nat) :
    Option VarArg :=
  let value := message.taken paramIdx cursor
  if message.isString paramIdx then some (.string (cString value))
  else (selectBranch value.length conversion.terminal value).map Branch.arg

/-- The text of a conversion. There is none if the switch has no case for it. -/
def rendered (libc : Libc) (conversion : Conversion) (arg : Option VarArg) : List UInt8 :=
  arg.elim [] (libc.render conversion.text)

/-- What is printed for a piece of a format: a character, or a conversion of what is passed
to `snprintf` for it. -/
inductive Print
  | character (c : UInt8)
  | formatted (conversion : Conversion) (arg : Option VarArg)

def Print.text (libc : Libc) : Print → List UInt8
  | .character c => [c]
  | .formatted conversion arg => rendered libc conversion arg

/-- `snprintf` does not fail. -/
def Print.Succeeds (libc : Libc) : Print → Prop
  | .character _ => True
  | .formatted conversion arg =>
      ∀ passed ∈ arg, libc.fails conversion.text passed = false

/-- What is printed for the pieces, from a parameter on. -/
def messagePrints (message : Message) : List Piece → Nat → Nat → List Print
  | [], _, _ => []
  | .literal c :: pieces, paramIdx, cursor =>
      .character c :: messagePrints message pieces paramIdx cursor
  | .percent :: pieces, paramIdx, cursor =>
      .character '%'.toUInt8 :: messagePrints message pieces paramIdx cursor
  | .conversion conversion :: pieces, paramIdx, cursor =>
      .formatted conversion (message.passed conversion paramIdx cursor) ::
        messagePrints message pieces (paramIdx + 1) (message.cursorBehind paramIdx cursor)

/-- The text of the pieces, from a parameter on. -/
def messageText (libc : Libc) (message : Message) (pieces : List Piece)
    (paramIdx cursor : Nat) : List UInt8 :=
  (messagePrints message pieces paramIdx cursor).flatMap (Print.text libc)

theorem messageText_conversion (libc : Libc) (message : Message) (conversion : Conversion)
    (pieces : List Piece) (paramIdx cursor : Nat) :
    messageText libc message (.conversion conversion :: pieces) paramIdx cursor =
      rendered libc conversion (message.passed conversion paramIdx cursor) ++
        messageText libc message pieces (paramIdx + 1)
          (message.cursorBehind paramIdx cursor) := rfl

theorem messageText_literal (libc : Libc) (message : Message) (c : UInt8)
    (pieces : List Piece) (paramIdx cursor : Nat) :
    messageText libc message (.literal c :: pieces) paramIdx cursor =
      [c] ++ messageText libc message pieces paramIdx cursor := rfl

theorem messageText_percent (libc : Libc) (message : Message) (pieces : List Piece)
    (paramIdx cursor : Nat) :
    messageText libc message (.percent :: pieces) paramIdx cursor =
      ['%'.toUInt8] ++ messageText libc message pieces paramIdx cursor := rfl

/-- The bytes of the log buffer in front of the cursor. -/
def FmtState.line (state : FmtState) : List UInt8 :=
  Memory.slice state.output.heap state.output.logBuffer
    (state.output.length - state.output.reserved)

/-- Only the stretch of the text has changed, but for the byte behind it, where `snprintf`
may have put a NUL. -/
structure OnlyText (target : Nat) (text : List UInt8) (before after : Memory UInt8) :
    Prop where
  outside : ∀ address, address < target ∨ target + text.length < address →
    after address = before address
  behind : after (target + text.length) = before (target + text.length) ∨
    after (target + text.length) = 0

theorem OnlyText.refl (target : Nat) (heap : Memory UInt8) : OnlyText target [] heap heap :=
  ⟨fun _ _ => rfl, .inl rfl⟩

theorem OnlyText.trans {target : Nat} {first second : List UInt8}
    {before middle after : Memory UInt8} (earlier : OnlyText target first before middle)
    (later : OnlyText (target + first.length) second middle after) :
    OnlyText target (first ++ second) before after := by
  constructor
  · intro address outside
    rw [List.length_append] at outside
    rw [later.outside address (by omega), earlier.outside address (by omega)]
  · rw [List.length_append, ← Nat.add_assoc]
    rcases later.behind with kept | nul
    · cases second with
      | nil =>
          rw [kept]
          exact earlier.behind
      | cons c second =>
          rw [kept]
          exact .inl (earlier.outside _ (.inr (by simp)))
    · exact .inr nul

/-- The text was stored at the cursor, in the same buffer. -/
structure Appends (text : List UInt8) (before after : FmtState) : Prop where
  anchored : Anchored before.output after
  reserved : after.output.reserved + text.length = before.output.reserved
  line : after.line = before.line ++ text
  frame : OnlyText before.logPos text before.output.heap after.output.heap

namespace Appends

variable {first second text : List UInt8} {before middle after : FmtState}

theorem refl (inPlace : before.CursorInPlace) : Appends [] before before where
  anchored := ⟨inPlace, rfl, rfl⟩
  reserved := rfl
  line := (List.append_nil _).symm
  frame := .refl _ _

/-- The cursor has moved over the text. -/
theorem logPos (appends : Appends text before after) (inPlace : before.CursorInPlace) :
    after.logPos = before.logPos + text.length := by
  have below := inPlace.reserved_le
  have reserved := appends.reserved
  rw [appends.anchored.inPlace.logPos, inPlace.logPos, appends.anchored.logBuffer,
    appends.anchored.length]
  omega

theorem trans (inPlace : before.CursorInPlace) (earlier : Appends first before middle)
    (later : Appends second middle after) : Appends (first ++ second) before after where
  anchored :=
    { inPlace := later.anchored.inPlace
      logBuffer := later.anchored.logBuffer.trans earlier.anchored.logBuffer
      length := later.anchored.length.trans earlier.anchored.length }
  reserved := by
    have front := earlier.reserved
    have back := later.reserved
    rw [List.length_append]
    omega
  line := by rw [later.line, earlier.line, List.append_assoc]
  frame := earlier.frame.trans (earlier.logPos inPlace ▸ later.frame)

/-- What was stored in the buffer that the loop was entered with. -/
theorem slice_eq (appends : Appends text before after) (inPlace : before.CursorInPlace) :
    Memory.slice after.output.heap before.output.logBuffer
        (before.output.length - before.output.reserved + text.length) =
      before.line ++ text := by
  have below := inPlace.reserved_le
  have reserved := appends.reserved
  have count : after.output.length - after.output.reserved =
      before.output.length - before.output.reserved + text.length := by
    rw [appends.anchored.length]
    omega
  rw [← appends.line, FmtState.line, appends.anchored.logBuffer, count]

end Appends

/-! ## A character -/

variable {libc : Libc} {passes : Nat} {message : Message} {state : FmtState}

theorem appends_putChar (inPlace : state.CursorInPlace) (placed : state.output.Placed)
    (room : 0 < state.output.reserved) (c : UInt8) (rest : List UInt8) :
    Appends [c] state (state.putChar c rest) := by
  have below := inPlace.reserved_le
  have fewer : wrappingSub state.output.reserved 1 = state.output.reserved - 1 :=
    wrappingSub_of_le room
  have more : state.output.length - (state.output.reserved - 1) =
      state.output.length - state.output.reserved + 1 := by omega
  refine ⟨⟨inPlace.putChar placed room c rest, rfl, rfl⟩, ?_, ?_, ?_⟩
  · simp only [FmtState.putChar, fewer, List.length_singleton]
    omega
  · have front := Memory.slice_overwrite_of_disjoint state.output.heap [c]
      (.inl (Nat.le_refl _) : state.output.logBuffer +
          (state.output.length - state.output.reserved) ≤
        state.output.logBuffer + (state.output.length - state.output.reserved) ∨ _)
    have own := Memory.slice_overwrite_self state.output.heap
      (state.output.logBuffer + (state.output.length - state.output.reserved)) [c]
    simp only [FmtState.line, FmtState.putChar, fewer, more, inPlace.logPos]
    rw [Memory.slice_add, front]
    exact congrArg _ own
  · constructor
    · intro address outside
      rcases outside with below | above
      · exact Memory.overwrite_of_lt _ _ below
      · exact Memory.overwrite_of_ge _ _ (Nat.le_of_lt above)
    · exact .inl (Memory.overwrite_of_ge _ _ (Nat.le_refl _))

/-! ## A conversion -/

/-- A text that leaves room for the NUL is stored behind what is there. -/
theorem slice_snprintf (libc : Libc) (heap : Memory UInt8) (base start : Nat) {bound : Nat}
    {fmt : List UInt8} {arg : VarArg} (room : (libc.render fmt arg).length < bound) :
    Memory.slice (snprintf libc heap (base + start) bound fmt arg).1 base
        (start + (libc.render fmt arg).length) =
      Memory.slice heap base start ++ libc.render fmt arg := by
  rw [Memory.slice_add, slice_snprintf_in_front libc heap fmt arg (Nat.le_refl _),
    slice_snprintf_text libc heap fmt arg room]

theorem onlyText_snprintf (libc : Libc) (heap : Memory UInt8) (target : Nat) {bound : Nat}
    {fmt : List UInt8} {arg : VarArg} (room : (libc.render fmt arg).length < bound) :
    OnlyText target (libc.render fmt arg) heap (snprintf libc heap target bound fmt arg).1 := by
  have whole : (libc.render fmt arg).take (bound - 1) = libc.render fmt arg :=
    List.take_of_length_le (by omega)
  simp only [snprintf, if_neg (Nat.ne_zero_of_lt room), whole, ← Memory.overwrite_append]
  constructor
  · intro address outside
    rcases outside with below | above
    · rw [Memory.overwrite_of_lt _ _ (Nat.lt_add_right _ below),
        Memory.overwrite_of_lt _ _ below]
    · rw [Memory.overwrite_of_ge _ _ above, Memory.overwrite_of_ge _ _ (Nat.le_of_lt above)]
  · exact .inr (Memory.overwrite_inside _ _ [0] 0 (by simp))

/-- The call has stored its text at its position of the buffer. -/
structure Call.Stores (text : List UInt8) (call : Call) (output : Output) : Prop where
  place : call.output.SamePlace output
  frame : OnlyText (call.output.logBuffer + call.startPos) text call.output.heap output.heap
  stored : Memory.slice output.heap output.logBuffer (call.startPos + text.length) =
    Memory.slice call.output.heap call.output.logBuffer call.startPos ++ text

/-- A call whose text leaves room returns the length of the text that it has stored. -/
theorem Call.run_stores (allocates : libc.Allocates) (enough : 0 < passes) {call : Call}
    (succeeds : call.snprintfFails libc = false)
    (free : call.output.FreeFrom call.startPos)
    (room : (call.text libc).length < call.output.reserved) :
    ∃ output, call.run libc passes = (output, some ((call.text libc).length : Int)) ∧
      call.Stores (call.text libc) output := by
  have bounded := call.text_length_le libc
  simp only [Format.intMax] at bounded
  have length : toInt (call.text libc).length = (call.text libc).length :=
    toInt_of_lt (by omega)
  by_cases isString : call.isString = true
  · have text : libc.render call.fmt (.string (cString call.value)) = call.text libc :=
      (text_of_string isString).symm
    have copied := paramBufferFails_of_allocates allocates call.value.length call.output
    have needed := Call.fmtLen_of_succeeds succeeds
    rw [fmtLen_of_string isString] at needed
    have fits : libc.fmtLen call.fmt (.string (cString call.value)) ≤
        (call.output.withParamBuffer call.value.length).reserved := by
      rw [needed, withParamBuffer_reserved]
      exact Nat.le_of_lt room
    rw [Call.run, if_pos isString, copied, if_neg (by simp), printString_fits fits, needed,
      length]
    have same := withParamBuffer_samePlace call.value.length call.output
    refine ⟨_, rfl, ⟨same.logBuffer, same.length, same.reserved⟩, ?_, ?_⟩
    all_goals
      simp only [withParamBuffer_heap, withParamBuffer_logBuffer, withParamBuffer_reserved,
        free.pointer]
      rw [← text] at room ⊢
    · exact onlyText_snprintf libc call.output.heap _ room
    · exact slice_snprintf libc call.output.heap call.output.logBuffer call.startPos room
  · have nonString : call.isString = false := by simpa using isString
    cases selected : selectBranch call.value.length (call.fmt.getLastD 0) call.value with
    | none =>
        have empty : call.text libc = [] := by
          simp only [Call.text, nonString, Bool.false_eq_true, if_false, selected]
        simp only [Call.run, nonString, Bool.false_eq_true, if_false, selected, empty]
        exact ⟨_, rfl, ⟨rfl, rfl, rfl⟩, .refl _ _, (List.append_nil _).symm⟩
    | some branch =>
        have text : libc.render call.fmt branch.arg = call.text libc :=
          (text_of_nonString nonString selected).symm
        have needed := Call.fmtLen_of_succeeds succeeds
        rw [fmtLen_of_nonString nonString selected, ← text] at needed
        obtain ⟨more, rfl⟩ : ∃ more, passes = more + 1 := ⟨passes - 1, by omega⟩
        rw [← text] at room length ⊢
        have sum := free.free
        have bound : (libc.render call.fmt branch.arg).length <
            if branch.boundIsReserved then call.output.reserved else call.output.length := by
          split <;> omega
        simp only [Call.run, nonString, Bool.false_eq_true, if_false, selected]
        rw [retryNonString_prints libc more call.startPos call.fmt branch call.output
          (needed ▸ room), needed, length]
        refine ⟨_, rfl, ⟨rfl, rfl, rfl⟩, ?_, ?_⟩
        all_goals simp only [Output.printed, free.pointer]
        · exact onlyText_snprintf libc call.output.heap _ bound
        · exact slice_snprintf libc call.output.heap call.output.logBuffer call.startPos bound

/-- The text of the call for a conversion does not depend on the buffer. -/
theorem text_call (libc : Libc) (message : Message) (conversion : Conversion)
    (state : FmtState) :
    (state.call message conversion.text).text libc =
      rendered libc conversion
        (message.passed conversion state.paramIdx state.paramList) := by
  have terminal := text_getLastD conversion
  rw [Call.text, rendered, Message.passed]
  simp only [FmtState.call, terminal]
  split
  · rfl
  · generalize selectBranch _ conversion.terminal _ = selected
    cases selected with
    | none => rfl
    | some branch => rfl

/-- Nor does it, whether `snprintf` fails. -/
theorem snprintfFails_call {conversion : Conversion}
    (succeeds : (Print.formatted conversion
      (message.passed conversion state.paramIdx state.paramList)).Succeeds libc) :
    (state.call message conversion.text).snprintfFails libc = false := by
  have terminal := text_getLastD conversion
  rw [Print.Succeeds, Message.passed] at succeeds
  rw [Call.snprintfFails]
  simp only [FmtState.call, terminal]
  split
  · rename_i isString
    simp only [isString, if_true, Option.mem_some_iff, forall_eq'] at succeeds
    exact succeeds
  · rename_i notString
    simp only [notString, Bool.false_eq_true, if_false] at succeeds
    split
    · rfl
    · rename_i branch selected
      simp only [selected, Option.map_some, Option.mem_some_iff, forall_eq'] at succeeds
      exact succeeds

/-- A conversion for which there are a parameter and room is stored, and the loop goes
on behind it. -/
theorem formatConversion_appends (allocates : libc.Allocates) (enough : 0 < passes)
    (inPlace : state.CursorInPlace) (placed : state.output.Placed)
    (hasParam : state.paramIdx < message.numParams) {conversion : Conversion}
    (succeeds : (Print.formatted conversion
      (message.passed conversion state.paramIdx state.paramList)).Succeeds libc)
    (behind : List UInt8) {text : List UInt8}
    (own : rendered libc conversion
      (message.passed conversion state.paramIdx state.paramList) = text)
    (room : text.length < state.output.reserved) :
    ∃ after,
      formatConversion libc passes message conversion.text behind state =
        (after, .running) ∧
      Appends text state after ∧ after.paramIdx = state.paramIdx + 1 ∧
      after.paramList = message.cursorBehind state.paramIdx state.paramList := by
  have below := inPlace.reserved_le
  have small := placed.small
  rw [formatConversion_eq hasParam]
  have callAt : CallAt state (state.call message conversion.text) :=
    ⟨⟨rfl, rfl, rfl⟩, rfl⟩
  have free := callAt.freeFrom inPlace placed
  have startPos : (state.call message conversion.text).startPos =
      state.output.length - state.output.reserved := by
    rw [callAt.startPos, inPlace.logPos, wrappingSub_add_left]
  have spelled := (text_call libc message conversion state).trans own
  have printed := snprintfFails_call succeeds
  have output : (state.call message conversion.text).output = state.output := rfl
  generalize state.call message conversion.text = call at free startPos spelled printed output
  subst own
  rw [← spelled] at room ⊢
  rcases call.run_stores allocates enough printed free (output ▸ room) with ⟨after, run, stores⟩
  have same : state.output.SamePlace after := output ▸ stores.place
  have notFailed : ¬(call.isString = false ∧ ((call.text libc).length : Int) = -1) := by
    omega
  rw [run, FmtState.behindCall, if_neg notFailed]
  have advanced := inPlace.advance placed same (Nat.le_of_lt room)
    (message.cursorBehind state.paramIdx state.paramList) call behind
  have fewer : wrappingSub after.reserved (ofInt ((call.text libc).length : Int)) =
      state.output.reserved - (call.text libc).length := by
    rw [ofInt_natCast (by omega), same.reserved, wrappingSub_of_le (Nat.le_of_lt room)]
  refine ⟨_, rfl, ⟨⟨advanced, same.logBuffer, same.length⟩, ?_, ?_, ?_⟩, rfl, rfl⟩
  · simp only [FmtState.advance, fewer]
    omega
  · have count : state.output.length -
        (state.output.reserved - (call.text libc).length) =
          call.startPos + (call.text libc).length := by
      rw [startPos]
      omega
    simp only [FmtState.line, FmtState.advance, fewer, same.length, count]
    rw [stores.stored, output, startPos]
  · have frame := stores.frame
    rw [output, startPos, ← inPlace.logPos] at frame
    exact frame

/-! ## The loop -/

/-- At a conversion that is copied to the cache the loop appends its text. -/
theorem AtConversion.appends {conversion : Conversion} {behind : List UInt8}
    {after : FmtState × Progress} (allocates : libc.Allocates) (enough : 0 < passes)
    (atConversion : AtConversion libc passes message conversion behind state after)
    (short : conversion.text.length < 100) (inPlace : state.CursorInPlace)
    (placed : state.output.Placed) (hasParam : state.paramIdx < message.numParams)
    (succeeds : (Print.formatted conversion
      (message.passed conversion state.paramIdx state.paramList)).Succeeds libc)
    {text : List UInt8}
    (own : rendered libc conversion
      (message.passed conversion state.paramIdx state.paramList) = text)
    (room : text.length < state.output.reserved) :
    after.2 = .running ∧ Appends text state after.1 ∧
      after.1.paramIdx = state.paramIdx + 1 ∧
      after.1.paramList = message.cursorBehind state.paramIdx state.paramList := by
  have copy : copyConversion libc conversion.text state.output =
      (state.output, some conversion.text) := if_pos short
  cases atConversion.pass with
  | crashed copied =>
      rw [copy] at copied
      cases copied
  | formatted copied =>
      rw [copy] at copied
      cases copied
      rcases formatConversion_appends allocates enough inPlace placed hasParam succeeds
        behind own room with ⟨next, formatted, appends, advanced⟩
      rw [formatted]
      exact ⟨rfl, appends, advanced⟩

/-- The loop comes to the end of the format and has appended its text. -/
theorem fmtLoop_appends (allocates : libc.Allocates) (enough : 0 < passes)
    {pieces : List Piece} (spells : Spells pieces state.rest)
    (short : ∀ conversion ∈ conversions pieces, conversion.text.length < 100)
    (inPlace : state.CursorInPlace) (placed : state.output.Placed)
    (params : state.paramIdx + (conversions pieces).length ≤ message.numParams)
    (succeeds : ∀ print ∈ messagePrints message pieces state.paramIdx state.paramList,
      print.Succeeds libc)
    (room : (messageText libc message pieces state.paramIdx state.paramList).length <
      state.output.reserved) {count : Nat} (long : state.rest.length < count) :
    let ended := fmtLoop libc passes message count state
    ended.2 = .finished ∧
      Appends (messageText libc message pieces state.paramIdx state.paramList) state
        ended.1 := by
  revert short inPlace placed params succeeds room
  refine fmtLoop_pieces (fun pieces state ended =>
    (∀ conversion ∈ conversions pieces, conversion.text.length < 100) →
    state.CursorInPlace → state.output.Placed →
    state.paramIdx + (conversions pieces).length ≤ message.numParams →
    (∀ print ∈ messagePrints message pieces state.paramIdx state.paramList,
      print.Succeeds libc) →
    (messageText libc message pieces state.paramIdx state.paramList).length <
      state.output.reserved →
    ended.2 = .finished ∧
      Appends (messageText libc message pieces state.paramIdx state.paramList) state
        ended.1) ?_ ?_ ?_ ?_ ?_ spells long
  · intro state _ _ inPlace _ _ _ _
    exact ⟨rfl, .refl inPlace⟩
  · intro c pieces state rest ended _ _ later short inPlace placed params succeeds room
    rw [messageText_literal, List.length_append, List.length_singleton] at room
    have own := appends_putChar inPlace placed (by omega) c rest
    have fewer := own.reserved
    rw [List.length_singleton] at fewer
    rcases later short own.anchored.inPlace (own.anchored.placed placed) params
      (fun print member => succeeds print (List.mem_cons_of_mem _ member))
      (by simp only [FmtState.putChar] at fewer ⊢; omega) with ⟨finished, others⟩
    exact ⟨finished, own.trans inPlace others⟩
  · intro pieces state rest ended _ later short inPlace placed params succeeds room
    rw [messageText_percent, List.length_append, List.length_singleton] at room
    have own := appends_putChar inPlace placed (by omega) '%'.toUInt8 rest
    have fewer := own.reserved
    rw [List.length_singleton] at fewer
    rcases later short own.anchored.inPlace (own.anchored.placed placed) params
      (fun print member => succeeds print (List.mem_cons_of_mem _ member))
      (by simp only [FmtState.putChar] at fewer ⊢; omega) with ⟨finished, others⟩
    exact ⟨finished, own.trans inPlace others⟩
  · intro conversion pieces behind state after atConversion left short inPlace placed params
      succeeds room
    rw [messageText_conversion, List.length_append] at room
    simp only [conversions, List.length_cons] at params
    have own := atConversion.appends allocates enough
      (short conversion (by simp [conversions])) inPlace placed (by omega)
      (succeeds _ List.mem_cons_self) rfl (by omega)
    exact absurd own.1 left
  · intro conversion pieces behind state middle ended atConversion later short inPlace placed
      params succeeds room
    rw [messageText_conversion, List.length_append] at room
    simp only [conversions, List.length_cons] at params
    rcases atConversion.appends allocates enough
      (short conversion (by simp [conversions])) inPlace placed (by omega)
      (succeeds _ List.mem_cons_self) rfl (by omega)
      with ⟨_, own, paramIdx, paramList⟩
    have fewer := own.reserved
    simp only at fewer paramIdx paramList
    have succeedsBehind : ∀ print ∈ messagePrints message pieces middle.paramIdx
        middle.paramList, print.Succeeds libc := by
      rw [paramIdx, paramList]
      exact fun print member => succeeds print (List.mem_cons_of_mem _ member)
    rw [messageText_conversion, ← paramIdx, ← paramList]
    rw [← paramIdx, ← paramList] at room
    rcases later (fun conversion member => short conversion (by simp [conversions, member]))
      own.anchored.inPlace (own.anchored.placed placed) (by omega) succeedsBehind (by omega)
      with ⟨finished, others⟩
    exact ⟨finished, own.trans inPlace others⟩

/-- What `process_fmt` is to do with a text: store it behind the first bytes of the
buffer and return where it ends. -/
structure Formats (text : List UInt8) (startPos : Nat) (output : Output)
    (ended : FmtState × Progress) : Prop where
  finished : ended.2 = .finished
  logBuffer : ended.1.output.logBuffer = output.logBuffer
  length : ended.1.output.length = output.length
  line : Memory.slice ended.1.output.heap output.logBuffer (startPos + text.length) =
    Memory.slice output.heap output.logBuffer startPos ++ text
  frame : OnlyText (output.logBuffer + startPos) text output.heap ended.1.output.heap
  returned : returned ended.1 ended.2 = some (toInt (startPos + text.length))

/-- `process_fmt` formats the text of its message, whatever the buffer holds, if `snprintf`
does not fail. -/
theorem processFmt_formats (allocates : libc.Allocates) (enough : 0 < passes)
    {fmt : List UInt8} {pieces : List Piece} (spells : Spells pieces fmt)
    (short : ∀ conversion ∈ conversions pieces, conversion.text.length < 100)
    (message : Message) (params : (conversions (visible pieces)).length ≤ message.numParams)
    (paramList : Nat) {output : Output} (placed : output.Placed) (startPos : Nat)
    (succeeds : ∀ print ∈ messagePrints message (visible pieces) 0 paramList,
      print.Succeeds libc)
    (room : startPos + (messageText libc message (visible pieces) 0 paramList).length <
      output.length) :
    Formats (messageText libc message (visible pieces) 0 paramList) startPos output
      (processFmt libc passes fmt message paramList output startPos) := by
  have start : startPos ≤ output.length := by omega
  let entered := FmtState.enter fmt paramList startPos output
  have visibleSpells : Spells (visible pieces) entered.rest := spells_visible spells
  have visibleShort : ∀ conversion ∈ conversions (visible pieces),
      conversion.text.length < 100 := fun conversion member =>
    short conversion ((conversions_visible_isPrefix pieces).subset member)
  have inPlace : entered.CursorInPlace := .enter placed start fmt paramList
  have reserved : entered.output.reserved = output.length - startPos :=
    wrappingSub_of_le start
  have enteredPlaced : entered.output.Placed := ⟨placed.small, placed.placed⟩
  have enteredParams : entered.paramIdx + (conversions (visible pieces)).length ≤
      message.numParams := (Nat.zero_add _).trans_le params
  have enteredRoom : (messageText libc message (visible pieces) entered.paramIdx
      entered.paramList).length < entered.output.reserved := by
    rw [reserved]
    exact Nat.lt_sub_iff_add_lt'.mpr room
  have looped : (processFmt libc passes fmt message paramList output startPos).2 =
        .finished ∧
      Appends (messageText libc message (visible pieces) 0 paramList) entered
        (processFmt libc passes fmt message paramList output startPos).1 :=
    fmtLoop_appends allocates enough visibleSpells visibleShort inPlace enteredPlaced
      enteredParams succeeds enteredRoom (Nat.lt_succ_self _)
  generalize processFmt libc passes fmt message paramList output startPos = ended at looped ⊢
  generalize messageText libc message (visible pieces) 0 paramList = text at looped room ⊢
  rcases looped with ⟨finished, appends⟩
  have front : entered.output.length - entered.output.reserved = startPos := by
    rw [reserved]
    exact Nat.sub_sub_self start
  have stored := appends.slice_eq inPlace
  rw [FmtState.line, front] at stored
  have frame := appends.frame
  rw [inPlace.logPos, front] at frame
  have left := appends.reserved
  have length : ended.1.output.length = output.length := appends.anchored.length
  have stop : wrappingSub ended.1.output.length ended.1.output.reserved =
      startPos + text.length := by
    rw [length, wrappingSub_of_le (by omega)]
    omega
  exact
    { finished := finished
      logBuffer := appends.anchored.logBuffer
      length := length
      line := stored
      frame := frame
      returned := by rw [finished, returned, stop] }

end StaticLog.Decoding
