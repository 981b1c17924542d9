import StaticLog.Program.LogFile

/-! # The histories of a run only grow

What was committed and what was written stays recorded, and a step records at most
one call of `write`, which the poll thread makes for the file behind `outfd_`. -/

namespace StaticLog.Program

open Backend Execution

variable {env : Environment} {passes : Nat}

/-- A step of the poll thread hands over one line or none. -/
theorem poll_writes (nanotime : Nat) (state : State) :
    (state.pollStep env passes nanotime).logger.writes = state.logger.writes ∨
      ∃ write, write.file = state.logger.files state.logger.outfd ∧
        (state.pollStep env passes nanotime).logger.writes =
          state.logger.writes ++ [write] := by
  cases state.polled env passes nanotime with
  | unchanged same => exact .inl (by rw [same])
  | deleted _ _ same => exact .inl (by rw [same]; rfl)
  | looked same => exact .inl (by rw [same]; rfl)
  | @finished ring processed _ same =>
      rw [same]
      cases written : processed.written with
      | none =>
          left
          simp only [Logger.finish, written, Option.map_none, Option.toList_none,
            List.append_nil]
      | some line =>
          right
          simp only [Logger.finish, written, Option.map_some, Option.toList_some]
          refine ⟨_, ?_, rfl⟩
          rfl

/-- Only the poll thread writes. -/
theorem step_writes {before after : State} {label : Label}
    (step : Step env passes before label after) :
    after.logger.writes = before.logger.writes ∨
      ∃ nanotime, label = .poll nanotime ∧ after = before.pollStep env passes nanotime := by
  have control := step.control
  cases step with
  | poll nanotime _ => exact .inr ⟨nanotime, rfl, rfl⟩
  | setLogFile _ _ => exact .inl (control id).writes
  | setLogFileAgain _ _ => exact .inl (control id).writes
  | openFile path fd _ _ _ => exact .inl (control id).writes
  | stop _ => exact .inl (control id).writes
  | close _ _ => exact .inl (control id).writes
  | _ => exact .inl rfl

theorem step_writes_isPrefix {before after : State} {label : Label}
    (step : Step env passes before label after) :
    before.logger.writes <+: after.logger.writes := by
  rcases step_writes step with same | ⟨nanotime, _, rfl⟩
  · exact same ▸ List.prefix_refl _
  · rcases poll_writes nanotime before with same | ⟨write, _, same⟩
    · exact same ▸ List.prefix_refl _
    · exact same ▸ List.prefix_append _ _

theorem step_commits_isPrefix {before after : State} {label : Label}
    (step : Step env passes before label after) : before.commits <+: after.commits := by
  have control := step.control
  cases step with
  | commit entry _ _ => exact List.prefix_append _ _
  | setLogFile _ _ => exact (control id).commits ▸ List.prefix_refl _
  | setLogFileAgain _ _ => exact (control id).commits ▸ List.prefix_refl _
  | openFile path fd _ _ _ => exact (control id).commits ▸ List.prefix_refl _
  | stop _ => exact (control id).commits ▸ List.prefix_refl _
  | close _ _ => exact (control id).commits ▸ List.prefix_refl _
  | _ => exact List.prefix_refl _

theorem run_writes_isPrefix {start final : State} {labels : List Label}
    (run : (system env passes).Run start labels final) :
    start.logger.writes <+: final.logger.writes := by
  apply run.invariant (fun state => start.logger.writes <+: state.logger.writes)
  · intro before label after earlier step
    exact earlier.trans (step_writes_isPrefix step)
  · exact List.prefix_refl _

end StaticLog.Program
