import StaticLog.Decoding.Parameters

/-! # What the run-time scan hands on

`process_fmt` copies literal characters to the log buffer and hands each conversion
to a decoding function as a C string. A conversion of less than 100 characters lies
in a cleared cache; a longer one is copied to a block of just its length, without
the NUL behind it. -/

namespace StaticLog.Decoding

open StaticLog.Format
open StaticLog.Execution

/-- What a pass of the loop does with the format. -/
inductive Action
  | copies (c : UInt8)
  /-- A decoding function is called with this conversion. -/
  | decodes (fmt : List UInt8)

inductive Does (before : FmtState) : Action → FmtState → Prop
  | copies (c : UInt8) (rest : List UInt8) :
      Does before (.copies c) (before.putChar c rest)
  | decodes {after : FmtState} {call : Call} : after.calls = before.calls ++ [call] →
      Does before (.decodes call.fmt) after

/-- The passes of the loop with what they do. -/
def cutting (libc : Libc) (passes : Nat) (message : Message) : System FmtState Action where
  Initial _ := True
  Step before action after :=
    fmtPass libc passes message before = (after, .running) ∧ Does before action after

/-- What is to be done for a piece of the format. -/
def Action.ofPiece : Piece → Action
  | .literal c => .copies c
  | .percent => .copies '%'.toUInt8
  | .conversion conversion => .decodes conversion.text

/-- A run of the loop to the end of the format which does what is to be done for its
pieces, one after the other. -/
structure CutsFormat (libc : Libc) (passes : Nat) (message : Message)
    (pieces : List Piece) (start : FmtState) (ended : FmtState × Progress) : Prop where
  finished : ended.2 = .finished
  run : (cutting libc passes message).Run start (pieces.map Action.ofPiece) ended.1

/-- A conversion that does not fit into the cache gets a block, and there is a NUL
behind this block. -/
def EndsCopy (libc : Libc) (output : Output) (conversion : List UInt8) : Prop :=
  100 ≤ conversion.length →
    (∃ block, libc.malloc output.mallocs conversion.length = some block) ∧
      libc.heapTail output.mallocs = []

variable {libc : Libc} {passes : Nat} {message : Message} {state : FmtState}
  {behind : List UInt8} {conversion : Conversion}

/-! ## The copy of a conversion -/

theorem copyConversion_eq_iff (libc : Libc) (conversion : List UInt8) (output : Output) :
    (copyConversion libc conversion output).2 = some conversion ↔
      EndsCopy libc output conversion := by
  rw [copyConversion, EndsCopy]
  split
  · rename_i short
    constructor
    · intro _ long
      exact absurd short (Nat.not_lt.mpr long)
    · exact fun _ => rfl
  · rename_i long
    rw [Option.map_eq_some_iff, forall_prop_of_true (Nat.not_lt.mp long)]
    constructor
    · rintro ⟨block, allocated, same⟩
      exact ⟨⟨block, allocated⟩, List.append_right_eq_self.mp same⟩
    · rintro ⟨⟨block, allocated⟩, ended⟩
      exact ⟨block, allocated, by rw [ended, List.append_nil]⟩

/-! ## The call for a conversion -/

/-- A call for whose text there is room returns, and not with -1 if it is for no
string. -/
theorem Call.run_of_fits (enough : 0 < passes) {call : Call}
    (fits : call.grows libc = false) :
    ∃ output logFmtLen, call.run libc passes = (output, some logFmtLen) ∧
      ¬(call.isString = false ∧ logFmtLen = -1) := by
  rw [Call.run]
  split
  · rename_i isString
    have string : ¬call.isString = false := by simp [isString]
    split
    · exact ⟨_, _, rfl, fun failed => string failed.1⟩
    · exact ⟨_, _, rfl, fun failed => string failed.1⟩
  · rename_i notString
    have nonString : call.isString = false := by simpa using notString
    split
    · exact ⟨_, 0, rfl, fun failed => absurd failed.2 (by decide)⟩
    · rename_i branch selected
      have bounded := libc.render_fits call.fmt branch.arg
      simp only [Format.intMax] at bounded
      rcases Call.lt_reserved fits nonString selected with ⟨succeeds, fitsBranch⟩
      have printed := retryNonString_fits libc passes call.startPos call.fmt branch
        call.output fitsBranch
      refine ⟨_, _, Prod.ext rfl (printed.2 (Nat.ne_of_gt enough)), ?_⟩
      rintro ⟨_, failed⟩
      rw [libc.fmtLen_of_succeeds succeeds, toInt_of_lt (by omega)] at failed
      omega

/-- At a conversion the loop goes on unless the copy cannot be allocated, and the
conversion is handed on just if its copy is ended. -/
theorem ConversionPass.cut {after : FmtState × Progress}
    (pass : ConversionPass libc passes message conversion behind state after)
    (enough : 0 < passes) (hasParam : state.paramIdx < message.numParams)
    (room : ∀ call ∈ after.1.calls, call.grows libc = false) :
    (after.2 = .crashed ∧ ¬EndsCopy libc state.output conversion.text) ∨
      ∃ call, after.1.calls = state.calls ++ [call] ∧ after.2 = .running ∧
        (call.fmt = conversion.text ↔ EndsCopy libc state.output conversion.text) := by
  cases pass with
  | crashed copied =>
      refine .inl ⟨rfl, ?_⟩
      rw [← copyConversion_eq_iff, copied]
      simp
  | formatted copied =>
      rename_i output fmtSingle
      have handed : ({ state with output := output } : FmtState).paramIdx <
          message.numParams := hasParam
      have own : (FmtState.call message fmtSingle { state with output := output }).fmt =
          fmtSingle := rfl
      rw [formatConversion_eq handed] at room ⊢
      generalize FmtState.call message fmtSingle { state with output := output } = call
        at own room ⊢
      have fits : call.grows libc = false := room call (by simp)
      rcases call.run_of_fits enough fits with ⟨decoded, logFmtLen, run, success⟩
      refine .inr ⟨call, behindCall_calls _ _ _ _ _, ?_, ?_⟩
      · rw [run, FmtState.behindCall, if_neg success]
      · rw [← copyConversion_eq_iff, copied, own, Option.some.injEq]

/-! ## Over the loop -/

/-- At every loop head the copy of the conversion is ended. -/
def EndsCopies (libc : Libc) (passes : Nat) (message : Message) (start : FmtState) : Prop :=
  ∀ state, (heads libc passes message start).Reachable state →
    ∀ conversion ∈ state.conversion, EndsCopy libc state.output conversion

theorem endsCopies_iff_of_left {after : FmtState × Progress}
    (taken : fmtPass libc passes message state = after) (left : after.2 ≠ .running) :
    EndsCopies libc passes message state ↔
      ∀ conversion ∈ state.conversion, EndsCopy libc state.output conversion :=
  forall_heads_iff_of_left taken left

theorem endsCopies_iff_of_running {after : FmtState}
    (taken : fmtPass libc passes message state = (after, .running)) :
    EndsCopies libc passes message state ↔
      (∀ conversion ∈ state.conversion, EndsCopy libc state.output conversion) ∧
        EndsCopies libc passes message after :=
  forall_heads_iff_of_running taken

/-- A pass that is done for the first piece. -/
theorem cutsFormat_cons {piece : Piece} {pieces : List Piece} {after : FmtState}
    {ended : FmtState × Progress}
    (taken : fmtPass libc passes message state = (after, .running)) :
    CutsFormat libc passes message (piece :: pieces) state ended ↔
      Does state (Action.ofPiece piece) after ∧
        CutsFormat libc passes message pieces after ended := by
  constructor
  · rintro ⟨finished, run⟩
    rcases run.uncons with ⟨middle, ⟨again, does⟩, later⟩
    cases taken.symm.trans again
    exact ⟨does, finished, later⟩
  · rintro ⟨does, finished, run⟩
    have step : (cutting libc passes message).Step state (Action.ofPiece piece) after :=
      ⟨taken, does⟩
    exact ⟨finished, .cons step run⟩

/-- What the rest of a run comes to when there are parameters and there is room. -/
structure Cuts (libc : Libc) (passes : Nat) (message : Message) (pieces : List Piece)
    (state : FmtState) (ended : FmtState × Progress) : Prop where
  calls : state.calls <+: ended.1.calls
  exact_iff : state.paramIdx + (conversions pieces).length ≤ message.numParams →
    (∀ call ∈ ended.1.calls, call.grows libc = false) →
      (CutsFormat libc passes message pieces state ended ↔
        EndsCopies libc passes message state)

namespace Cuts

variable {pieces : List Piece} {ended : FmtState × Progress}

theorem nil (given : state.rest = []) :
    Cuts libc passes message [] state (state, .finished) where
  calls := List.prefix_refl _
  exact_iff := by
    intro _ _
    have taken : fmtPass libc passes message state = (state, .finished) := by
      rw [fmtPass, given]
    have none : state.conversion = none := by rw [FmtState.conversion, given]
    rw [endsCopies_iff_of_left taken (by simp), none]
    exact iff_of_true ⟨rfl, .nil⟩ (by simp)

/-- A piece that is a character is copied. -/
theorem copy {piece : Piece} {c : UInt8} {rest : List UInt8}
    (taken : fmtPass libc passes message state = (state.putChar c rest, .running))
    (noConversion : state.conversion = none) (action : Action.ofPiece piece = .copies c)
    (one : conversions (piece :: pieces) = conversions pieces)
    (later : Cuts libc passes message pieces (state.putChar c rest) ended) :
    Cuts libc passes message (piece :: pieces) state ended where
  calls := later.calls
  exact_iff := by
    intro params room
    rw [one] at params
    have does : Does state (Action.ofPiece piece) (state.putChar c rest) :=
      action ▸ .copies c rest
    rw [cutsFormat_cons taken, later.exact_iff params room,
      endsCopies_iff_of_running taken, noConversion]
    simp [does]

theorem leave {after : FmtState × Progress} (enough : 0 < passes)
    (atConversion : AtConversion libc passes message conversion behind state after)
    (left : after.2 ≠ .running) :
    Cuts libc passes message (.conversion conversion :: pieces) state after where
  calls := by
    rcases atConversion.pass.takes with ⟨same, _⟩ | ⟨call, took⟩
    · exact same ▸ List.prefix_refl _
    · rw [took.calls]
      exact List.prefix_append _ _
  exact_iff := by
    intro params room
    have hasParam : state.paramIdx < message.numParams := by
      simp only [conversions, List.length_cons] at params
      omega
    rw [endsCopies_iff_of_left atConversion.taken left,
      conversion_of_text atConversion.plain atConversion.rest]
    rcases atConversion.pass.cut enough hasParam room with
      ⟨crashed, unended⟩ | ⟨_, _, running, _⟩
    · constructor
      · intro cuts
        rw [cuts.finished] at crashed
        cases crashed
      · intro ends
        exact absurd (ends _ rfl) unended
    · exact absurd running left

theorem pass {middle : FmtState} (enough : 0 < passes)
    (atConversion : AtConversion libc passes message conversion behind state
      (middle, .running))
    (later : Cuts libc passes message pieces middle ended) :
    Cuts libc passes message (.conversion conversion :: pieces) state ended := by
  rcases atConversion.pass.takes with ⟨_, crashed | failed⟩ | ⟨made, took⟩
  · cases crashed
  · cases failed
  have calls : middle.calls = state.calls ++ [made] := took.calls
  constructor
  · apply List.IsPrefix.trans _ later.calls
    rw [calls]
    exact List.prefix_append _ _
  · intro params room
    simp only [conversions, List.length_cons] at params
    have advanced : middle.paramIdx = state.paramIdx + 1 := (took.running rfl).2.1
    have own : ∀ call ∈ middle.calls, call.grows libc = false := fun call member =>
      room call (later.calls.subset member)
    rcases atConversion.pass.cut enough (by omega) own with
      ⟨crashed, _⟩ | ⟨call, again, _, exact_iff⟩
    · cases crashed
    have same : made = call :=
      List.singleton_inj.mp (List.append_cancel_left (calls.symm.trans again))
    have does : Does state (Action.ofPiece (.conversion conversion)) middle ↔
        call.fmt = conversion.text := by
      constructor
      · intro does
        generalize action : Action.ofPiece (.conversion conversion) = wanted at does
        cases does with
        | copies c rest => cases action
        | decodes other =>
            have only := List.singleton_inj.mp (List.append_cancel_left (again.symm.trans other))
            rw [only]
            exact (Action.decodes.inj action).symm
      · intro exact
        rw [Action.ofPiece, ← exact]
        exact .decodes again
    rw [cutsFormat_cons atConversion.taken, later.exact_iff (by omega) room, does, exact_iff,
      endsCopies_iff_of_running atConversion.taken,
      conversion_of_text atConversion.plain atConversion.rest]
    simp

end Cuts

theorem fmtLoop_cuts (enough : 0 < passes) {pieces : List Piece}
    (spells : Spells pieces state.rest) {count : Nat} (long : state.rest.length < count) :
    Cuts libc passes message pieces state (fmtLoop libc passes message count state) := by
  refine fmtLoop_pieces (Cuts libc passes message) ?_ ?_ ?_ ?_ ?_ spells long
  · intro state ended
    exact .nil ended
  · intro c pieces state rest ended plain given later
    exact later.copy (fmtPass_literal libc passes message given plain)
      (conversion_of_plain plain given) rfl rfl
  · intro pieces state rest ended given later
    exact later.copy (fmtPass_percent libc passes message given)
      (conversion_of_percent given) rfl rfl
  · intro conversion pieces behind state after atConversion left
    exact .leave enough atConversion left
  · intro conversion pieces behind state middle ended atConversion later
    exact .pass enough atConversion later

/-- With enough room the loop comes to the end of an accepted format, copies its
literal characters in order and hands each conversion on as it is spelled, if and only
if each copy of a conversion of 100 characters or more has a block and by chance a NUL
behind it. -/
theorem cutsFormat_iff (enough : 0 < passes) {fmt : List UInt8} {pieces : List Piece}
    (spells : Spells pieces fmt) (noNul : ∀ c ∈ fmt, c ≠ 0)
    (accepted : countFmtParams fmt = .ok message.numParams) (paramList startPos : Nat)
    (output : Output)
    (room : ∀ call ∈ (processFmt libc passes fmt message paramList output
      startPos).1.calls, call.grows libc = false) :
    CutsFormat libc passes message pieces (FmtState.enter fmt paramList startPos output)
        (processFmt libc passes fmt message paramList output startPos) ↔
      ∀ state, IsHead libc passes message fmt paramList startPos output state →
        ∀ conversion ∈ state.conversion, EndsCopy libc state.output conversion := by
  have whole : cString fmt = fmt := by
    have appended : cString (fmt ++ []) = fmt ++ cString [] := cString_append noNul
    rw [List.append_nil] at appended
    exact appended.trans (List.append_nil fmt)
  have entered : Spells pieces (FmtState.enter fmt paramList startPos output).rest := by
    rw [FmtState.enter, whole]
    exact spells
  have params : (conversions pieces).length ≤ message.numParams := by
    rw [countFmtParams_spelled spells] at accepted
    rw [← Except.ok.inj accepted]
    exact length_conversions_le pieces
  apply (fmtLoop_cuts enough entered (Nat.lt_succ_self _)).exact_iff _ room
  rw [show (FmtState.enter fmt paramList startPos output).paramIdx = 0 from rfl]
  omega

theorem cutsFormat_plain :
    CutsFormat .sample 1 (Example.message [.nonString] [42, 0, 0, 0]) Example.plainPieces
        (FmtState.enter (ascii "n=%d") 0 47 Example.output)
        (processFmt .sample 1 (ascii "n=%d") (Example.message [.nonString] [42, 0, 0, 0]) 0
          Example.output 47) ↔
      ∀ state, IsHead .sample 1 (Example.message [.nonString] [42, 0, 0, 0])
          (ascii "n=%d") 0 47 Example.output state →
        ∀ conversion ∈ state.conversion, EndsCopy .sample state.output conversion := by
  apply cutsFormat_iff (Nat.le_refl 1)
  · exact ⟨by decide, by decide⟩
  · decide +kernel
  · decide
  · decide +kernel

namespace Example

/-- `%d` with 98 flags. -/
def padded : Conversion :=
  { decimal with
    flags := List.replicate 98 '0'.toUInt8
    flags_flag := by
      intro c member
      rw [List.eq_of_mem_replicate member]
      rfl }

/-- A C library with something behind its blocks. -/
def dirtyLibc : Libc := { Libc.sample with heapTail := fun _ => ascii "!" }

end Example

/-- The conversion of 100 characters is handed on with the character behind its copy. -/
theorem not_cutsFormat_padded :
    Spells [.conversion Example.padded] Example.padded.text ∧
      countFmtParams Example.padded.text = .ok 1 ∧
      (∀ call ∈ (processFmt Example.dirtyLibc 1 Example.padded.text
        (Example.message [.nonString] [42, 0, 0, 0]) 0 Example.output 47).1.calls,
        call.grows Example.dirtyLibc = false) ∧
      ¬CutsFormat Example.dirtyLibc 1 (Example.message [.nonString] [42, 0, 0, 0])
        [.conversion Example.padded]
        (FmtState.enter Example.padded.text 0 47 Example.output)
        (processFmt Example.dirtyLibc 1 Example.padded.text
          (Example.message [.nonString] [42, 0, 0, 0]) 0 Example.output 47) := by
  have spells : Spells [.conversion Example.padded] Example.padded.text :=
    ⟨by decide, by decide⟩
  have room : ∀ call ∈ (processFmt Example.dirtyLibc 1 Example.padded.text
      (Example.message [.nonString] [42, 0, 0, 0]) 0 Example.output 47).1.calls,
      call.grows Example.dirtyLibc = false := by decide +kernel
  refine ⟨spells, by decide +kernel, room, ?_⟩
  have entered : Spells [.conversion Example.padded]
      (FmtState.enter Example.padded.text 0 47 Example.output).rest := spells
  intro cuts
  have ends := ((fmtLoop_cuts (Nat.le_refl 1) entered (Nat.lt_succ_self _)).exact_iff
    (by decide) room).mp cuts
  have copied := ends _ (.initial rfl) Example.padded.text rfl (by decide)
  exact absurd copied.2 (by decide)

end StaticLog.Decoding
