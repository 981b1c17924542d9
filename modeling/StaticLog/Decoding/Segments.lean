import StaticLog.Decoding.ProcessFmt
import StaticLog.Format.Parsing

/-! # How the run-time scan cuts a format

On a format that the grammar spells the loop of `process_fmt` takes one pass for
each piece: it stops at the first terminal character, which is where the piece
ends. The calls it makes walk over the parameters one by one. -/

namespace StaticLog.Decoding

open StaticLog.Format

/-! ## The pieces in front of an embedded NUL -/

/-- The pieces that `strlen` lets `process_fmt` see. -/
def visible : List Piece → List Piece
  | [] => []
  | .literal c :: pieces => if c = 0 then [] else .literal c :: visible pieces
  | piece :: pieces => piece :: visible pieces

theorem cString_append {bytes rest : List UInt8} (noNul : ∀ c ∈ bytes, c ≠ 0) :
    cString (bytes ++ rest) = bytes ++ cString rest := by
  apply List.takeWhile_append_of_pos
  intro c member
  simpa using noNul c member

theorem conversion_text_noNul (conversion : Conversion) :
    ∀ c ∈ conversion.text, c ≠ 0 := by
  intro c member
  simp only [Conversion.text, List.mem_cons, List.mem_append] at member
  rcases member with rfl | inInner | rfl | impossible
  · decide
  · exact (conversion.inner_notTerminal c inInner).2
  · exact (terminal_separate conversion.terminal_terminal).2.2.2.2.2
  · cases impossible

theorem visible_cons_literal {c : UInt8} (nonzero : c ≠ 0) (pieces : List Piece) :
    visible (.literal c :: pieces) = .literal c :: visible pieces := if_neg nonzero

/-- The visible pieces spell what stands in front of the first NUL. -/
theorem spells_visible {pieces : List Piece} {fmt : List UInt8}
    (spells : Spells pieces fmt) : Spells (visible pieces) (cString fmt) := by
  induction pieces generalizing fmt with
  | nil =>
      cases spells.text
      exact Spells.nil
  | cons piece pieces induction =>
      rcases spells.uncons with ⟨rest, rfl, plain, spellsRest⟩
      have others := induction spellsRest
      cases piece with
      | literal c =>
          by_cases nul : c = 0
          · subst nul
            exact Spells.nil
          · rw [visible_cons_literal nul, cString_append (by simpa [Piece.text] using nul)]
            exact Spells.cons (.literal c) plain others
      | percent =>
          have noNul : ∀ c ∈ Piece.percent.text, c ≠ 0 :=
            List.forall_iff_forall_mem.mp (by decide)
          rw [cString_append noNul]
          exact Spells.cons .percent trivial others
      | conversion conversion =>
          have noNul := conversion_text_noNul conversion
          rw [show (Piece.conversion conversion).text = conversion.text from rfl,
            cString_append noNul]
          exact Spells.cons (.conversion conversion) plain others

/-! ## One pass for each piece -/

theorem conversion_text_append (conversion : Conversion) (behind : List UInt8) :
    conversion.text ++ behind =
      '%'.toUInt8 :: (conversion.inner ++ conversion.terminal :: behind) := by
  simp [Conversion.text]

/-- The scan stops at the terminal of a conversion. -/
theorem scan_conversion (conversion : Conversion) (behind : List UInt8) :
    (conversion.inner ++ conversion.terminal :: behind).takeWhile
        (fun c => !isTerminal c) = conversion.inner ∧
      (conversion.inner ++ conversion.terminal :: behind).dropWhile
        (fun c => !isTerminal c) = conversion.terminal :: behind := by
  have inner : ∀ c ∈ conversion.inner, (fun c => !isTerminal c) c = true := by
    intro c member
    simp [(conversion.inner_notTerminal c member).1]
  have stop : (fun c => !isTerminal c) conversion.terminal = false := by
    simp [conversion.terminal_terminal]
  constructor
  · rw [List.takeWhile_append_of_pos inner, List.takeWhile_cons_of_neg (by simp [stop]),
      List.append_nil]
  · rw [List.dropWhile_append_of_pos inner, List.dropWhile_cons_of_neg (by simp [stop])]

theorem current_inner (conversion : Conversion)
    (plain : (Piece.conversion conversion).Plain) (behind : List UInt8) :
    (current (conversion.inner ++ conversion.terminal :: behind) == '%'.toUInt8) =
      false := by
  rw [beq_eq_false_iff_ne]
  cases spelled : conversion.inner with
  | nil => simpa [Piece.Plain, spelled] using plain
  | cons c others => simpa [Piece.Plain, spelled] using plain

section Passes

variable (libc : Libc) (passes : Nat) (message : Message) {state : FmtState}
  {rest behind : List UInt8}

theorem fmtPass_literal {c : UInt8} (given : state.rest = c :: rest)
    (plain : c ≠ '%'.toUInt8) :
    fmtPass libc passes message state = (state.putChar c rest, .running) := by
  rw [fmtPass, given]
  exact if_pos (bne_iff_ne.mpr plain)

theorem fmtPass_percent
    (given : state.rest = '%'.toUInt8 :: '%'.toUInt8 :: rest) :
    fmtPass libc passes message state =
      (state.putChar '%'.toUInt8 rest, .running) := by
  rw [fmtPass, given]
  rfl

/-- A pass over a conversion: it is copied and formatted, unless the copy cannot be
allocated. -/
inductive ConversionPass (conversion : Conversion) (behind : List UInt8)
    (state : FmtState) : FmtState × Progress → Prop
  | crashed {output : Output} :
      copyConversion libc conversion.text state.output = (output, none) →
      ConversionPass conversion behind state ({ state with output := output }, .crashed)
  | formatted {output : Output} {fmtSingle : List UInt8} :
      copyConversion libc conversion.text state.output = (output, some fmtSingle) →
      ConversionPass conversion behind state
        (formatConversion libc passes message fmtSingle behind
          { state with output := output })

theorem fmtPass_conversion (conversion : Conversion)
    (plain : (Piece.conversion conversion).Plain)
    (given : state.rest = conversion.text ++ behind) :
    ConversionPass libc passes message conversion behind state
      (fmtPass libc passes message state) := by
  have single := current_inner conversion plain behind
  rcases scan_conversion conversion behind with ⟨taken, dropped⟩
  rw [conversion_text_append] at given
  rcases state with ⟨output, logPos, _, paramIdx, paramList, calls⟩
  subst given
  simp only [fmtPass, bne_self_eq_false, Bool.false_eq_true, if_false, single, dropped,
    taken]
  split
  · rename_i copied
    exact .crashed copied
  · rename_i copied
    exact .formatted copied

end Passes

/-! ## Walking over the parameters -/

namespace Message

/-- Whether the parameter is decoded as a string. -/
def isString (message : Message) (paramIdx : Nat) : Bool :=
  decide (ParamType.nonString.value <
    (message.paramTypes.getD paramIdx .invalid).value)

/-- The length in front of a string. -/
def stringSize (message : Message) (cursor : Nat) : Nat :=
  LittleEndian.value (Memory.slice message.params cursor 4)

/-- The bytes that are taken as the value of a parameter. -/
def taken (message : Message) (paramIdx cursor : Nat) : List UInt8 :=
  if message.isString paramIdx then
    Memory.slice message.params (cursor + 4) (message.stringSize cursor)
  else Memory.slice message.params cursor (message.paramSizes.getD paramIdx 0)

/-- Where the cursor stands behind a parameter. -/
def cursorBehind (message : Message) (paramIdx cursor : Nat) : Nat :=
  if message.isString paramIdx then cursor + 4 + message.stringSize cursor
  else cursor + message.paramSizes.getD paramIdx 0

end Message

/-- The calls take the parameters from an index on, one behind the other, and leave
the cursor where the last one ends. -/
inductive Walked (message : Message) : Nat → Nat → List Call → Nat → Prop
  | nil (paramIdx cursor : Nat) : Walked message paramIdx cursor [] cursor
  | cons {call : Call} {calls : List Call} {stop : Nat} :
      call.value = message.taken call.paramIdx call.cursor →
      Walked message (call.paramIdx + 1)
        (message.cursorBehind call.paramIdx call.cursor) calls stop →
      Walked message call.paramIdx call.cursor (call :: calls) stop

/-- What a pass over a conversion does to the loop variables. -/
structure Took (message : Message) (before : FmtState) (behind : List UInt8)
    (call : Call) (after : FmtState × Progress) : Prop where
  paramIdx : call.paramIdx = before.paramIdx
  cursor : call.cursor = before.paramList
  value : call.value = message.taken before.paramIdx before.paramList
  calls : after.1.calls = before.calls ++ [call]
  notFinished : after.2 ≠ .finished
  running : after.2 = .running →
    after.1.rest = behind ∧ after.1.paramIdx = before.paramIdx + 1 ∧
      after.1.paramList = message.cursorBehind before.paramIdx before.paramList

/-- Formatting a conversion fails for want of a parameter or takes the next one. -/
theorem formatConversion_takes (libc : Libc) (passes : Nat) (message : Message)
    (fmtSingle behind : List UInt8) (state : FmtState) :
    let after := formatConversion libc passes message fmtSingle behind state
    (message.numParams ≤ state.paramIdx ∧ after = (state, .failed)) ∨
      (state.paramIdx < message.numParams ∧
        ∃ call, Took message state behind call after) := by
  simp only [formatConversion]
  split
  · rename_i hasParam
    refine .inr ⟨hasParam, ?_⟩
    split
    · rename_i isString
      have string : message.isString state.paramIdx = true := decide_eq_true isString
      refine ⟨_, rfl, rfl, ?_, rfl, by simp, fun _ => ⟨rfl, rfl, ?_⟩⟩
      · simp only [Message.taken, string, if_true]
        rfl
      · simp only [Message.cursorBehind, string, if_true]
        rfl
    · rename_i nonString
      have notString : message.isString state.paramIdx = false :=
        decide_eq_false nonString
      have value : Memory.slice message.params state.paramList
          (message.paramSizes.getD state.paramIdx 0) =
          message.taken state.paramIdx state.paramList := by
        simp only [Message.taken, notString, Bool.false_eq_true, if_false]
      have behind : state.paramList + message.paramSizes.getD state.paramIdx 0 =
          message.cursorBehind state.paramIdx state.paramList := by
        simp only [Message.cursorBehind, notString, Bool.false_eq_true, if_false]
      split
      · exact ⟨_, rfl, rfl, value, rfl, by simp, fun running => absurd running (by simp)⟩
      · split
        · exact ⟨_, rfl, rfl, value, rfl, by simp,
            fun running => absurd running (by simp)⟩
        · exact ⟨_, rfl, rfl, value, rfl, by simp, fun _ => ⟨rfl, rfl, behind⟩⟩
  · rename_i noParam
    exact .inl ⟨Nat.not_lt.mp noParam, rfl⟩

/-- A pass over a conversion leaves the loop or takes the next parameter. -/
theorem ConversionPass.takes {libc : Libc} {passes : Nat} {message : Message}
    {conversion : Conversion} {behind : List UInt8} {state : FmtState}
    {after : FmtState × Progress}
    (pass : ConversionPass libc passes message conversion behind state after) :
    (after.1.calls = state.calls ∧ (after.2 = .crashed ∨ after.2 = .failed)) ∨
      ∃ call, Took message state behind call after := by
  cases pass with
  | crashed copied => exact .inl ⟨rfl, .inl rfl⟩
  | formatted copied =>
      rename_i output fmtSingle
      rcases formatConversion_takes libc passes message fmtSingle behind
        { state with output := output } with ⟨_, failed⟩ | ⟨_, call, took⟩
      · rw [failed]
        exact .inl ⟨rfl, .inr rfl⟩
      · exact .inr ⟨call, took.paramIdx, took.cursor, took.value, took.calls,
          took.notFinished, took.running⟩

/-! ## The loop over the pieces -/

section Loop

variable {libc : Libc} {passes : Nat} {message : Message}

theorem fmtLoop_running {count : Nat} {state after : FmtState}
    (pass : fmtPass libc passes message state = (after, .running)) :
    fmtLoop libc passes message (count + 1) state =
      fmtLoop libc passes message count after := by
  rw [fmtLoop, pass]

theorem fmtLoop_left {count : Nat} {state : FmtState}
    (left : (fmtPass libc passes message state).2 ≠ .running) :
    fmtLoop libc passes message (count + 1) state = fmtPass libc passes message state := by
  rw [fmtLoop]
  split
  · rename_i running
    rw [running] at left
    exact absurd rfl left
  · rfl

/-- The loop stands at a conversion, and this is what its pass comes to. -/
structure AtConversion (libc : Libc) (passes : Nat) (message : Message)
    (conversion : Conversion) (behind : List UInt8) (state : FmtState)
    (after : FmtState × Progress) : Prop where
  plain : (Piece.conversion conversion).Plain
  rest : state.rest = conversion.text ++ behind
  taken : fmtPass libc passes message state = after
  pass : ConversionPass libc passes message conversion behind state after

/-- The induction over a run of the loop on a format that the grammar spells: at
each conversion the run goes on or the loop is left. -/
theorem fmtLoop_pieces (Holds : List Piece → FmtState → FmtState × Progress → Prop)
    (ends : ∀ state : FmtState, state.rest = [] → Holds [] state (state, .finished))
    (literal : ∀ {c pieces state rest ended},
      c ≠ '%'.toUInt8 → state.rest = c :: rest →
      Holds pieces (FmtState.putChar c rest state) ended →
        Holds (.literal c :: pieces) state ended)
    (percent : ∀ {pieces state rest ended},
      state.rest = '%'.toUInt8 :: '%'.toUInt8 :: rest →
      Holds pieces (FmtState.putChar '%'.toUInt8 rest state) ended →
        Holds (.percent :: pieces) state ended)
    (leaves : ∀ {conversion pieces behind state after},
      AtConversion libc passes message conversion behind state after →
      after.2 ≠ .running → Holds (.conversion conversion :: pieces) state after)
    (passed : ∀ {conversion pieces behind state middle ended},
      AtConversion libc passes message conversion behind state (middle, .running) →
      Holds pieces middle ended → Holds (.conversion conversion :: pieces) state ended)
    {pieces : List Piece} {state : FmtState} (spells : Spells pieces state.rest)
    {count : Nat} (enough : state.rest.length < count) :
    Holds pieces state (fmtLoop libc passes message count state) := by
  induction pieces generalizing state count with
  | nil =>
      have ended : state.rest = [] := spells.text.symm
      cases count with
      | zero => exact absurd enough (Nat.not_lt_zero _)
      | succ count =>
          have pass : fmtPass libc passes message state = (state, .finished) := by
            rw [fmtPass, ended]
          have left : (fmtPass libc passes message state).2 ≠ .running := by
            rw [pass]
            simp
          rw [fmtLoop_left left, pass]
          exact ends state ended
  | cons piece pieces induction =>
      rcases spells.uncons with ⟨rest, given, plain, spellsRest⟩
      have positive : 0 < piece.text.length := List.length_pos_iff.mpr piece.text_ne_nil
      rw [given, List.length_append] at enough
      cases count with
      | zero => exact absurd enough (Nat.not_lt_zero _)
      | succ count =>
          have shorter : rest.length < count := by omega
          cases piece with
          | literal c =>
              rw [fmtLoop_running (fmtPass_literal libc passes message given plain)]
              exact literal plain given (induction spellsRest shorter)
          | percent =>
              rw [fmtLoop_running (fmtPass_percent libc passes message given)]
              exact percent given (induction spellsRest shorter)
          | conversion conversion =>
              have pass := fmtPass_conversion libc passes message conversion plain given
              by_cases running : (fmtPass libc passes message state).2 = .running
              · rcases ran : fmtPass libc passes message state with ⟨middle, progress⟩
                rw [ran] at pass running
                cases running
                have advanced : middle.rest = rest := by
                  rcases pass.takes with ⟨_, crashed | failed⟩ | ⟨call, took⟩
                  · cases crashed
                  · cases failed
                  · exact (took.running rfl).1
                rw [fmtLoop_running ran]
                rw [← advanced] at spellsRest shorter
                exact passed ⟨plain, given, ran, pass⟩ (induction spellsRest shorter)
              · rw [fmtLoop_left running]
                exact leaves ⟨plain, given, rfl, pass⟩ running

end Loop

/-! ## Which parameters a run takes -/

/-- What the loop has done to the loop variables when it ends: the calls that were
made take the parameters in order, one for each conversion at the most, and one for
each if the end of the format was reached. -/
structure Passed (message : Message) (conversions : Nat) (before : FmtState)
    (after : FmtState × Progress) (made : List Call) (stop : Nat) : Prop where
  calls : after.1.calls = before.calls ++ made
  walked : Walked message before.paramIdx before.paramList made stop
  length_le : made.length ≤ conversions
  finished : after.2 = .finished →
    made.length = conversions ∧ after.1.paramIdx = before.paramIdx + conversions ∧
      after.1.paramList = stop

namespace Passed

variable {message : Message} {before : FmtState} {behind : List UInt8} {call : Call}

theorem of_left {after : FmtState × Progress} (conversions : Nat)
    (calls : after.1.calls = before.calls)
    (left : after.2 = .crashed ∨ after.2 = .failed) :
    Passed message conversions before after [] before.paramList where
  calls := by rw [calls, List.append_nil]
  walked := .nil _ _
  length_le := Nat.zero_le _
  finished := by
    intro finished
    rw [finished] at left
    rcases left with crashed | failed
    · cases crashed
    · cases failed

/-- The last call that was made is where the loop was left. -/
theorem of_took {after : FmtState × Progress} (took : Took message before behind call after)
    (conversions : Nat) :
    Passed message (conversions + 1) before after [call]
      (message.cursorBehind before.paramIdx before.paramList) where
  calls := took.calls
  walked := by
    rw [← took.paramIdx, ← took.cursor]
    apply Walked.cons _ (.nil _ _)
    rw [took.paramIdx, took.cursor]
    exact took.value
  length_le := Nat.succ_le_succ (Nat.zero_le _)
  finished := fun finished => absurd finished took.notFinished

/-- A call after which the loop goes on stands in front of the later ones. -/
theorem cons {middle : FmtState} (took : Took message before behind call (middle, .running))
    {conversions stop : Nat} {after : FmtState × Progress} {made : List Call}
    (passed : Passed message conversions middle after made stop) :
    Passed message (conversions + 1) before after (call :: made) stop where
  calls := by
    rw [passed.calls, took.calls, List.append_assoc]
    rfl
  walked := by
    have advanced := took.running rfl
    have walked := passed.walked
    rw [advanced.2.1, advanced.2.2, ← took.paramIdx, ← took.cursor] at walked
    rw [← took.paramIdx, ← took.cursor]
    apply Walked.cons _ walked
    rw [took.paramIdx, took.cursor]
    exact took.value
  length_le := Nat.succ_le_succ passed.length_le
  finished := by
    intro finished
    have ended := passed.finished finished
    have advanced := (took.running rfl).2.1
    refine ⟨by rw [List.length_cons, ended.1], ?_, ended.2.2⟩
    rw [ended.2.1, advanced]
    omega

end Passed

/-- Over the pieces of a format the loop passes its conversions one by one. -/
theorem fmtLoop_passed (libc : Libc) (passes : Nat) (message : Message)
    {pieces : List Piece} {state : FmtState} (spells : Spells pieces state.rest)
    {count : Nat} (enough : state.rest.length < count) :
    ∃ made stop, Passed message (conversions pieces).length state
      (fmtLoop libc passes message count state) made stop := by
  refine fmtLoop_pieces (fun pieces state ended =>
    ∃ made stop, Passed message (conversions pieces).length state ended made stop)
    ?_ ?_ ?_ ?_ ?_ spells enough
  · intro state _
    exact ⟨[], state.paramList, (List.append_nil _).symm, .nil _ _, Nat.le_refl _,
      fun _ => ⟨rfl, rfl, rfl⟩⟩
  · rintro c pieces state rest ended _ _ ⟨made, stop, passed⟩
    exact ⟨made, stop, passed.calls, passed.walked, passed.length_le, passed.finished⟩
  · rintro pieces state rest ended _ ⟨made, stop, passed⟩
    exact ⟨made, stop, passed.calls, passed.walked, passed.length_le, passed.finished⟩
  · intro conversion pieces behind state after atConversion _
    rcases atConversion.pass.takes with ⟨calls, left⟩ | ⟨call, took⟩
    · exact ⟨[], _, .of_left _ calls left⟩
    · exact ⟨[call], _, .of_took took _⟩
  · rintro conversion pieces behind state middle ended atConversion ⟨made, stop, passed⟩
    rcases atConversion.pass.takes with ⟨_, crashed | failed⟩ | ⟨call, took⟩
    · cases crashed
    · cases failed
    · exact ⟨call :: made, stop, .cons took passed⟩

/-- The calls of a run of `process_fmt` walk over the parameters. -/
theorem processFmt_passed (libc : Libc) (passes : Nat) {fmt : List UInt8}
    {pieces : List Piece} (spells : Spells pieces fmt) (message : Message)
    (paramList : Nat) (output : Output) (startPos : Nat) :
    let ended := processFmt libc passes fmt message paramList output startPos
    ∃ stop, Passed message (conversions (visible pieces)).length
      (FmtState.enter fmt paramList startPos output) ended ended.1.calls stop := by
  have entered : Spells (visible pieces)
      (FmtState.enter fmt paramList startPos output).rest := spells_visible spells
  rcases fmtLoop_passed libc passes message entered (Nat.lt_succ_self _) with
    ⟨made, stop, passed⟩
  have all : (processFmt libc passes fmt message paramList output startPos).1.calls =
      made := passed.calls
  intro ended
  rw [all]
  exact ⟨stop, passed⟩

end StaticLog.Decoding
