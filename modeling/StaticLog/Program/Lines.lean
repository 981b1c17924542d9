import Mathlib.Data.List.Forall2
import StaticLog.Backend.PrintedLine
import StaticLog.Program.LogFile

/-! # What the program writes

A program whose entries all stem from log statements. Whatever the order of the steps
of its threads, the bytes handed to `write` for a staging buffer are the lines of the
calls that were committed to it, in their order. All lines are composed in one log buffer,
so that what stands behind a text is left over from the lines before. -/

namespace StaticLog

open Backend

/-- The entry stems from a call whose line fits into the log buffer. -/
structure PrintfCall.Logs (env : Environment) (length : Nat) (entry : Entry)
    (call : PrintfCall) : Prop where
  stores : call.Stores entry
  known : call.KnownTo env
  fits : call.PrintsIn length env.libc

theorem PrintfCall.Logs.of_body {env : Environment} {length : Nat} {entry other : Entry}
    {call : PrintfCall} (logs : call.Logs env length entry)
    (body : other.body = entry.body) : call.Logs env length other :=
  ⟨logs.stores.of_body body, logs.known, logs.fits⟩

/-- A call of `write`, and what the log buffer held before its line was composed. -/
structure Composed where
  write : Write
  held : Memory UInt8

namespace Composed

/-- The calls of `write` with what the log buffer held, from the first on: each line stays
there until the next one is composed. -/
def all (held : Memory UInt8) : List Write → List Composed
  | [] => []
  | write :: writes => ⟨write, held⟩ :: all (Memory.overwrite held 0 write.line) writes

/-- What the log buffer holds behind the last line. -/
def heldBehind (held : Memory UInt8) (writes : List Write) : Memory UInt8 :=
  writes.foldl (fun held write => Memory.overwrite held 0 write.line) held

theorem all_append (held : Memory UInt8) (writes more : List Write) :
    all held (writes ++ more) = all held writes ++ all (heldBehind held writes) more := by
  induction writes generalizing held with
  | nil => rfl
  | cons write writes induction => exact congrArg (List.cons _) (induction _)

theorem map_write_all (held : Memory UInt8) (writes : List Write) :
    (all held writes).map write = writes := by
  induction writes generalizing held with
  | nil => rfl
  | cons write writes induction => exact congrArg (List.cons _) (induction _)

theorem exists_of_mem (held : Memory UInt8) {writes : List Write} {write : Write}
    (member : write ∈ writes) : ∃ composed ∈ all held writes, composed.write = write := by
  rw [← map_write_all held writes] at member
  exact List.mem_map.mp member

/-- The bytes handed over are the line of every call that the entry can stem from. -/
def Shows (env : Environment) (length : Nat) (composed : Composed) (nanotime : Nat) : Prop :=
  ∀ (entry : Entry) (call : PrintfCall), entry.body = composed.write.entry.drop 8 →
    call.Logs env length entry → call.IsLine env nanotime composed.held composed.write.line

end Composed

namespace Program

open Execution

/-! ## When the poll thread runs -/

/-- What the flags and the phases of the poll thread and of the thread that stops it have
to do with each other. -/
structure Flags (state : State) : Prop where
  file : state.poll ≠ .exited → state.logger.outfd ≠ -1
  exit : state.logger.isExit = true → state.control = .joining ∨ state.poll = .exited
  failed : state.control = .failed → state.poll = .exited
  stopping : state.control = .stopping → state.logger.isStop = true

namespace Flags

variable {env : Environment} {passes : Nat} {before after : State}

theorem initial (files : Int → Option File) {fd : Int} (valid : fd ≠ -1)
    (output : Decoding.Output) : Flags (initial files fd output) := by
  refine ⟨fun _ => valid, ?_, ?_, ?_⟩
  all_goals
    intro holds
    cases holds

/-- A step that changes neither the flags nor the phases. -/
theorem quiet (flags : Flags before) (poll : after.poll = before.poll)
    (control : after.control = before.control)
    (outfd : after.logger.outfd = before.logger.outfd)
    (isExit : after.logger.isExit = before.logger.isExit)
    (isStop : after.logger.isStop = before.logger.isStop) : Flags after := by
  constructor
  all_goals simp only [poll, control, outfd, isExit, isStop]
  · exact flags.file
  · exact flags.exit
  · exact flags.failed
  · exact flags.stopping

theorem pollStep (flags : Flags before) (nanotime : Nat) (running : before.poll ≠ .exited) :
    Flags (before.pollStep env passes nanotime) := by
  have same : SameFile before.logger (before.pollStep env passes nanotime).logger :=
    sameFile_poll nanotime before
  constructor
  · intro _
    rw [same.outfd]
    exact flags.file running
  · intro isExit
    rw [same.isExit] at isExit
    exact .inl ((flags.exit isExit).resolve_right running)
  · intro failed
    exact absurd (flags.failed failed) running
  · intro stopping
    rw [same.isStop]
    exact flags.stopping stopping

theorem openFile (exited : before.poll = .exited) (path : File) (fd : Int) :
    Flags (before.openFile path fd) := by
  rw [State.openFile]
  split
  · refine ⟨?_, ?_, fun _ => exited, ?_⟩
    · intro running
      exact absurd exited running
    · intro isExit
      cases isExit
    · intro stopping
      cases stopping
  · rename_i valid
    refine ⟨fun _ => valid, ?_, ?_, ?_⟩
    · intro isExit
      cases isExit
    · intro failed
      cases failed
    · intro stopping
      cases stopping

theorem step (flags : Flags before) {label : Label}
    (step : Step env passes before label after) : Flags after := by
  cases step with
  | poll nanotime running => exact flags.pollStep nanotime running
  | setLogFile idle _ =>
      refine ⟨flags.file, fun _ => .inl rfl, ?_, ?_⟩
      · intro failed
        cases failed
      · intro stopping
        cases stopping
  | setLogFileAgain failed _ =>
      have exited := flags.failed failed
      refine ⟨flags.file, fun _ => .inr exited, fun _ => exited, ?_⟩
      intro stopping
      cases stopping
  | openFile path fd _ exited _ => exact openFile exited path fd
  | stop idle =>
      refine ⟨flags.file, ?_, ?_, fun _ => rfl⟩
      · intro isExit
        rcases flags.exit isExit with joining | exited
        · rcases idle with idle | idle <;> cases idle.symm.trans joining
        · exact .inr exited
      · intro failed
        cases failed
  | close _ exited =>
      refine ⟨flags.file, fun _ => .inr exited, fun _ => exited, ?_⟩
      intro stopping
      cases stopping
  | _ => exact flags.quiet rfl rfl rfl rfl rfl

end Flags

theorem reachable_flags {env : Environment} {passes : Nat} {state : State}
    (reachable : (system env passes).Reachable state) : Flags state := by
  apply reachable.invariant Flags
  · intro state starts
    rcases starts with ⟨files, fd, output, valid, rfl⟩
    exact Flags.initial files valid output
  · intro before label after flags step
    exact flags.step step

/-! ## Programs that only log -/

section Lines

variable {env : Environment} {passes length : Nat} {before after state : State}

/-- Entries are stored by log statements only. -/
def Label.Prints (env : Environment) (length : Nat) : Label → Prop
  | .commit _ entry => ∃ call : PrintfCall, call.Logs env length entry
  | _ => True

/-- What the clock shows in the step. -/
def Label.times : Label → List Nat
  | .poll nanotime => [nanotime]
  | _ => []

/-- The program while every entry stems from a log statement and the log buffer is so
long. -/
def printing (env : Environment) (passes length : Nat) : System State Label where
  Initial state := ∃ files fd output, fd ≠ -1 ∧ output.Placed ∧ output.length = length ∧
    state = initial files fd output
  Step before label after := label.Prints env length ∧ Step env passes before label after

theorem reachable_of_printing (reachable : (printing env passes length).Reachable state) :
    (system env passes).Reachable state := by
  apply reachable.mono
  · rintro state ⟨files, fd, output, valid, _, _, same⟩
    exact ⟨files, fd, output, valid, same⟩
  · intro before label after taken
    exact taken.2

/-- What holds in every state of a run, given what the log buffer held first and the times
that the clock has shown. -/
structure Shown (env : Environment) (length : Nat) (held : Memory UInt8) (times : List Nat)
    (state : State) : Prop where
  placed : state.logger.output.Placed
  length_eq : state.logger.output.length = length
  commits : ∀ commit ∈ state.commits, ∃ call : PrintfCall,
    call.Logs env length commit.entry
  holds : state.logger.output.held = Composed.heldBehind held state.logger.writes
  writes : List.SublistForall₂ (Composed.Shows env length)
    (Composed.all held state.logger.writes) times

/-- What is left of a buffer was committed to it, at some time. -/
theorem Accounted.mem_commits {ring : Nat} {entry : Entry} {later : List Entry}
    (balance : state.writtenOf ring ++ (entry :: later).map Entry.body =
      state.committedTo ring) :
    ∃ commit ∈ state.commits, commit.entry.body = entry.body := by
  have member : entry.body ∈ state.committedTo ring := by
    rw [← balance]
    simp
  rw [State.committedTo, List.mem_map] at member
  rcases member with ⟨commit, member, body⟩
  exact ⟨commit, List.mem_of_mem_filter member, body⟩

namespace Shown

variable {held : Memory UInt8} {times : List Nat}

/-- A step in which nothing is written and nothing committed. -/
theorem quiet (shown : Shown env length held times before) (now : List Nat)
    (output : after.logger.output = before.logger.output)
    (commits : after.commits = before.commits)
    (writes : after.logger.writes = before.logger.writes) :
    Shown env length held (times ++ now) after := by
  refine ⟨?_, ?_, ?_, ?_, ?_⟩
  · rw [output]
    exact shown.placed
  · rw [output]
    exact shown.length_eq
  · rw [commits]
    exact shown.commits
  · rw [output, writes]
    exact shown.holds
  · rw [writes]
    rcases List.sublistForall₂_iff.mp shown.writes with ⟨stamps, shows, sublist⟩
    exact List.sublistForall₂_iff.mpr
      ⟨stamps, shows, sublist.trans (List.sublist_append_left _ _)⟩

/-- The first entry of a buffer is processed. -/
theorem finish (allocates : env.libc.Allocates) (enough : 0 < passes)
    (shown : Shown env length held times state) (accounted : Accounted state) {nanotime ring : Nat}
    {processed : Processed} (opened : state.logger.outfd ≠ -1)
    (ran : processLogBuffer env passes nanotime state.logger.outfd
      (state.logger.rings ring) state.logger.output = some processed)
    (commits : after.commits = state.commits)
    (finished : after.logger = state.logger.finish ring processed) :
    Shown env length held (times ++ [nanotime]) after := by
  rcases accounted.balanced ring with ⟨remaining, holds, balance⟩
  cases remaining with
  | nil =>
      have nothing := holds.peek_nil.1
      simp only [processLogBuffer, nothing, Nat.lt_irrefl, if_false, Option.some.injEq] at ran
      apply shown.quiet [nanotime] _ commits
      · rw [finished, Logger.finish, ← ran]
        simp
      · rw [finished, Logger.finish, ← ran]
  | cons entry later =>
      rcases Accounted.mem_commits balance with ⟨commit, member, body⟩
      rcases shown.commits commit member with ⟨call, logs⟩
      have shows (call : PrintfCall) (logs : call.Logs env length entry) :=
        processLogBuffer_prints allocates enough nanotime opened logs.known holds logs.stores
          shown.placed (shown.length_eq ▸ logs.fits)
      rcases shows call (logs.of_body body.symm) with
        ⟨_, line, result, logBuffer, sameLength, written, _, left, _⟩
      cases Option.some.inj (result.symm.trans ran)
      have output : after.logger.output = processed.output := by rw [finished]; rfl
      obtain ⟨write, writes, offered, handed⟩ : ∃ write : Write,
          after.logger.writes = state.logger.writes ++ [write] ∧
            write.entry = entry.block ∧ write.line = line := by
        simp only [finished, Logger.finish, written, Option.map_some, Option.toList_some,
          holds.peek_cons.2.slice_eq]
        exact ⟨_, rfl, rfl, rfl⟩
      have composed := Composed.all_append held state.logger.writes [write]
      refine ⟨?_, ?_, ?_, ?_, ?_⟩
      · rw [output]
        exact ⟨sameLength ▸ shown.placed.small, logBuffer ▸ sameLength ▸ shown.placed.placed⟩
      · rw [output, sameLength]
        exact shown.length_eq
      · rw [commits]
        exact shown.commits
      · rw [output, left, shown.holds, writes, Composed.heldBehind, Composed.heldBehind,
          List.foldl_append, ← handed]
        rfl
      · rcases List.sublistForall₂_iff.mp shown.writes with ⟨stamps, earlier, sublist⟩
        apply List.sublistForall₂_iff.mpr
        refine ⟨stamps ++ [nanotime], ?_, sublist.append (List.Sublist.refl _)⟩
        rw [writes, composed]
        refine List.rel_append earlier (.cons ?_ .nil)
        intro other call otherBody logs
        rw [offered] at otherBody
        rcases shows call (logs.of_body otherBody.symm) with
          ⟨_, other, result, _, _, otherWritten, isLine, _⟩
        cases Option.some.inj (result.symm.trans ran)
        cases Option.some.inj (otherWritten.symm.trans written)
        rw [handed, ← shown.holds]
        exact isLine

theorem pollStep (allocates : env.libc.Allocates) (enough : 0 < passes)
    (shown : Shown env length held times state) (accounted : Accounted state) (flags : Flags state)
    (nanotime : Nat) (running : state.poll ≠ .exited) :
    Shown env length held (times ++ [nanotime]) (state.pollStep env passes nanotime) := by
  cases state.polled env passes nanotime with
  | unchanged same => exact shown.quiet _ (by rw [same]) rfl (by rw [same])
  | deleted _ _ same => exact shown.quiet _ (by rw [same]; rfl) rfl (by rw [same]; rfl)
  | looked same => exact shown.quiet _ (by rw [same]; rfl) rfl (by rw [same]; rfl)
  | finished ran same =>
      exact shown.finish allocates enough accounted (flags.file running) ran rfl same

theorem commit (shown : Shown env length held times state) {thread ring : Nat} {entry : Entry}
    (logged : ∃ call : PrintfCall, call.Logs env length entry) :
    Shown env length held (times ++ []) (state.commit thread ring entry) := by
  rw [List.append_nil]
  refine ⟨shown.placed, shown.length_eq, ?_, shown.holds, shown.writes⟩
  intro commit member
  simp only [State.commit, List.mem_append, List.mem_singleton] at member
  rcases member with member | rfl
  · exact shown.commits commit member
  · exact logged

theorem openFile (shown : Shown env length held times state) (path : File) (fd : Int) :
    Shown env length held (times ++ []) (state.openFile path fd) := by
  rw [State.openFile]
  split <;> exact shown.quiet [] rfl rfl rfl

theorem step (allocates : env.libc.Allocates) (enough : 0 < passes)
    (shown : Shown env length held times before) (accounted : Accounted before)
    (flags : Flags before) {label : Label}
    (step : (printing env passes length).Step before label after) :
    Shown env length held (times ++ label.times) after := by
  rcases step with ⟨prints, step⟩
  cases step with
  | poll nanotime running =>
      exact shown.pollStep allocates enough accounted flags nanotime running
  | commit entry _ _ => exact shown.commit prints
  | openFile path fd _ _ _ => exact shown.openFile path fd
  | _ => exact shown.quiet [] rfl rfl rfl

theorem run (allocates : env.libc.Allocates) (enough : 0 < passes) {start final : State}
    {labels : List Label} (starts : (printing env passes length).Initial start)
    (run : (printing env passes length).Run start labels final) :
    Shown env length start.logger.output.held (labels.flatMap Label.times) final := by
  induction run with
  | nil =>
      rcases starts with ⟨files, fd, output, _, placed, sameLength, rfl⟩
      refine ⟨placed, sameLength, ?_, rfl, .nil⟩
      intro commit member
      cases member
  | @snoc labels before after label earlier taken induction =>
      have reachable := reachable_of_printing (System.Reachable.run (.initial starts) earlier)
      rw [List.flatMap_append, List.flatMap_singleton]
      exact induction.step allocates enough (reachable_accounted reachable)
        (reachable_flags reachable) taken

end Shown

/-! ## The lines of a staging buffer -/

/-- The calls of `write` for a staging buffer, if the log buffer held these bytes first. -/
def State.writesOf (state : State) (held : Memory UInt8) (ring : Nat) : List Composed :=
  (Composed.all held state.logger.writes).filter (fun composed => composed.write.ring = ring)

/-- What was committed to a staging buffer. -/
def State.commitsTo (state : State) (ring : Nat) : List Commit :=
  state.commits.filter (fun commit => commit.ring = ring)

/-- The bodies of the entries that were written for a staging buffer. -/
theorem State.map_writesOf (state : State) (held : Memory UInt8) (ring : Nat) :
    (state.writesOf held ring).map (fun composed => composed.write.entry.drop 8) =
      state.writtenOf ring := by
  have writes := Composed.map_write_all held state.logger.writes
  conv_rhs => rw [State.writtenOf, ← writes, List.filter_map, List.map_map]
  rfl

/-- The lines that were written are those of the first calls, each at its time. -/
def LinesOf (env : Environment) (writes : List Composed) (calls : List PrintfCall)
    (stamps : List Nat) : Prop :=
  stamps.length = writes.length ∧
    List.Forall₂ (fun (composed : Composed) (printed : PrintfCall × Nat) =>
      printed.1.IsLine env printed.2 composed.held composed.write.line)
      writes (calls.zip stamps)

theorem exists_calls {commits : List Commit}
    (logged : ∀ commit ∈ commits, ∃ call : PrintfCall, call.Logs env length commit.entry) :
    ∃ calls, List.Forall₂ (fun commit (call : PrintfCall) =>
      call.Logs env length commit.entry) commits calls := by
  induction commits with
  | nil => exact ⟨[], .nil⟩
  | cons commit commits induction =>
      rw [List.forall_mem_cons] at logged
      rcases logged.1 with ⟨call, logs⟩
      rcases induction logged.2 with ⟨calls, others⟩
      exact ⟨call :: calls, .cons logs others⟩

/-- Writes that show their entries, as far as they follow the commits. -/
theorem linesOf_of_shows {writes : List Composed} {stamps : List Nat}
    {commits : List Commit} {calls : List PrintfCall}
    (shows : List.Forall₂ (Composed.Shows env length) writes stamps)
    (logs : List.Forall₂ (fun commit (call : PrintfCall) =>
      call.Logs env length commit.entry) commits calls)
    (follows : writes.map (fun composed => composed.write.entry.drop 8) <+:
      commits.map (fun commit => commit.entry.body)) : LinesOf env writes calls stamps := by
  refine ⟨shows.length_eq.symm, ?_⟩
  induction shows generalizing commits calls with
  | nil =>
      rw [List.zip_nil_right]
      exact .nil
  | @cons composed stamp writes stamps first others induction =>
      cases logs with
      | nil => simp at follows
      | @cons commit call commits calls logged logs =>
          simp only [List.map_cons, List.cons_prefix_cons] at follows
          exact .cons (first commit.entry call follows.1.symm logged)
            (induction logs follows.2)

theorem sublist_shows {R : Composed → Nat → Prop} {writes some : List Composed}
    {stamps : List Nat} (shows : List.Forall₂ R writes stamps)
    (sublist : some.Sublist writes) :
    ∃ stamped, List.Forall₂ R some stamped ∧ stamped.Sublist stamps := by
  induction sublist generalizing stamps with
  | slnil => exact ⟨[], .nil, List.nil_sublist _⟩
  | cons write _ induction =>
      cases shows with
      | cons _ others =>
          rcases induction others with ⟨stamped, shows, within⟩
          exact ⟨stamped, shows, within.cons _⟩
  | cons_cons write _ induction =>
      cases shows with
      | cons first others =>
          rcases induction others with ⟨stamped, shows, within⟩
          exact ⟨_ :: stamped, .cons first shows, within.cons_cons _⟩

theorem Shown.linesOf {held : Memory UInt8} {times : List Nat}
    (shown : Shown env length held times state)
    (reachable : (system env passes).Reachable state) (ring : Nat) :
    ∃ calls stamps,
      List.Forall₂ (fun commit (call : PrintfCall) => call.Logs env length commit.entry)
        (state.commitsTo ring) calls ∧
      stamps.Sublist times ∧ LinesOf env (state.writesOf held ring) calls stamps := by
  have logged : ∀ commit ∈ state.commitsTo ring, ∃ call : PrintfCall,
      call.Logs env length commit.entry := fun commit member =>
    shown.commits commit (List.mem_of_mem_filter member)
  rcases exists_calls logged with ⟨calls, logs⟩
  rcases List.sublistForall₂_iff.mp shown.writes with ⟨all, shows, within⟩
  rcases sublist_shows shows List.filter_sublist with ⟨stamps, shows, sublist⟩
  exact ⟨calls, stamps, logs, sublist.trans within,
    linesOf_of_shows shows logs
      (state.map_writesOf held ring ▸ writtenOf_isPrefix reachable ring)⟩

/-- In every run, whatever the order of the steps, the bytes handed to `write` for a
staging buffer are the lines of the first calls that were committed to it, in their order,
at times that the clock has shown one after another. -/
theorem writes_linesOf (allocates : env.libc.Allocates) (enough : 0 < passes)
    {start final : State} {labels : List Label}
    (starts : (printing env passes length).Initial start)
    (run : (printing env passes length).Run start labels final) (ring : Nat) :
    ∃ calls stamps,
      List.Forall₂ (fun commit (call : PrintfCall) => call.Logs env length commit.entry)
        (final.commitsTo ring) calls ∧
      stamps.Sublist (labels.flatMap Label.times) ∧
      LinesOf env (final.writesOf start.logger.output.held ring) calls stamps := by
  have shown := Shown.run allocates enough starts run
  have reached : (printing env passes length).Reachable final :=
    System.Reachable.run (.initial starts) run
  exact shown.linesOf (reachable_of_printing reached) ring

theorem run_of_printing {start final : State} {labels : List Label}
    (run : (printing env passes length).Run start labels final) :
    (system env passes).Run start labels final := by
  apply run.mono
  intro before label after taken
  exact taken.2

/-- A run whose entries stem from log statements. -/
theorem run_printing {start final : State} {labels : List Label}
    (run : (system env passes).Run start labels final)
    (prints : ∀ label ∈ labels, label.Prints env length) :
    (printing env passes length).Run start labels final := by
  induction run with
  | nil => exact .nil
  | snoc _ taken induction =>
      apply System.Run.snoc
      · exact induction fun label member => prints label (List.mem_append_left _ member)
      · exact ⟨prints _ (by simp), taken⟩

end Lines

/-! ## A log statement to try -/

namespace Example

open Backend.Example

def begun : State :=
  initial (fun fd => if fd = 4 then some (ascii "log.txt") else none) 4
    Backend.Example.output

theorem starts_begun : (printing stringEnv 1 (2 ^ 20)).Initial begun :=
  ⟨_, 4, Backend.Example.output, by decide, ⟨by decide, by decide⟩, rfl, rfl⟩

/-- While the poll thread does not hold the lock, a thread makes its first log call. -/
def stringLogged : State := (begun.polls stringEnv 1 nanotime 2).firstLog 0 stringEntry

/-- The poll thread has written the line. -/
def stringWritten : State := stringLogged.polls stringEnv 1 nanotime 4

def loggedLabels : List Label :=
  List.replicate 2 (.poll nanotime) ++ [.log 0 42] ++
    [.create 0, .register 0, .reserve 0, .commit 0 stringEntry]

def stringLabels : List Label := loggedLabels ++ List.replicate 4 (.poll nanotime)

theorem logs_stringEntry : stringCall.Logs stringEnv (2 ^ 20) stringEntry :=
  ⟨stores_stringEntry, knownTo_stringEnv, by decide +kernel, by decide,
    fun print _ => Decoding.Example.succeeds_sample print⟩

theorem prints_firstLog :
    ∀ label ∈ [Label.create 0, .register 0, .reserve 0, .commit 0 stringEntry],
      label.Prints stringEnv (2 ^ 20) := by
  simp only [List.forall_mem_cons, Label.Prints, true_and]
  exact ⟨⟨stringCall, logs_stringEntry⟩, by simp⟩

theorem prints_polls (nanotime count : Nat) :
    ∀ label ∈ List.replicate count (Label.poll nanotime), label.Prints stringEnv (2 ^ 20) := by
  intro label member
  rw [List.eq_of_mem_replicate member]
  trivial

theorem run_stringLogged :
    (printing stringEnv 1 (2 ^ 20)).Run begun loggedLabels stringLogged := by
  have here : (begun.polls stringEnv 1 nanotime 2).At 0 .idle none := by
    constructor <;> decide +kernel
  have free : (begun.polls stringEnv 1 nanotime 2).lockFree = true := by decide +kernel
  have unlocked : (system stringEnv 1).Run begun _ _ :=
    run_polls nanotime begun 2 (by decide +kernel)
  have numbered := unlocked.snoc (step_firstLog stringEntry here free)
  apply run_printing (numbered.append (run_firstLog stringEntry here free))
  intro label member
  rcases List.mem_append.mp member with member | member
  · rcases List.mem_append.mp member with member | member
    · exact prints_polls nanotime 2 label member
    · rw [List.mem_singleton.mp member]
      trivial
  · exact prints_firstLog label member

theorem run_stringWritten :
    (printing stringEnv 1 (2 ^ 20)).Run begun stringLabels stringWritten :=
  run_stringLogged.append (run_printing (run_polls nanotime stringLogged 4 (by decide +kernel))
    (prints_polls nanotime 4))

/-- What another thread logs later. -/
def laterEntry : Entry := stringEntry.stamp 3000

/-- Both entries have been written. -/
def bothWritten : State := (stringLogged.firstLog 1 laterEntry).polls stringEnv 1 nanotime 11

theorem run_bothWritten :
    ∃ labels, (printing stringEnv 1 (2 ^ 20)).Run stringLogged labels bothWritten := by
  have here : stringLogged.At 1 .idle none := by constructor <;> decide +kernel
  have free : stringLogged.lockFree = true := by decide +kernel
  have numbered : (system stringEnv 1).Run stringLogged _ _ :=
    .snoc .nil (step_firstLog laterEntry here free)
  have committed := numbered.append (run_firstLog laterEntry here free)
  have written := committed.append
    (run_polls nanotime (stringLogged.firstLog 1 laterEntry) 11 (by decide +kernel))
  have logs : stringCall.Logs stringEnv (2 ^ 20) laterEntry :=
    logs_stringEntry.of_body (stringEntry.stamp_body 3000)
  refine ⟨_, run_printing written ?_⟩
  intro label member
  rcases List.mem_append.mp member with member | member
  · have logged : ∀ label ∈ [Label.log 1 42, .create 1, .register 1, .reserve 1,
        .commit 1 laterEntry], label.Prints stringEnv (2 ^ 20) := by
      simp only [List.forall_mem_cons, Label.Prints, true_and]
      exact ⟨⟨stringCall, logs⟩, by simp⟩
    exact logged label member
  · exact prints_polls nanotime 11 label member

end Example

/-- Two threads have logged. What stands behind the text of the second line is left over
from the first one. -/
theorem writes_linesOf_bothWritten :
    ∃ labels : List Label, ∀ ring, ∃ calls stamps,
      List.Forall₂ (fun commit (call : PrintfCall) =>
        call.Logs Backend.Example.stringEnv (2 ^ 20) commit.entry)
        (Example.bothWritten.commitsTo ring) calls ∧
      stamps.Sublist (labels.flatMap Label.times) ∧
      LinesOf Backend.Example.stringEnv
        (Example.bothWritten.writesOf Backend.Example.output.held ring) calls stamps := by
  rcases Example.run_bothWritten with ⟨labels, run⟩
  exact ⟨_, writes_linesOf Decoding.Example.sample_allocates (Nat.le_refl 1)
    Example.starts_begun (Example.run_stringLogged.append run)⟩

end Program

end StaticLog
