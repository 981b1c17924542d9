import StaticLog.Backend.Draining
import StaticLog.Backend.HandedLine

/-! # The order in which entries are written

`ioPoll` is a merge of the staging buffers by the times that the producers have
recorded. -/

namespace StaticLog.Backend

open StagingBuffer

section Merge

variable {env : Environment} {passes : Nat} {clock : Nat → Nat}
  {exits : Nat → Nat → Bool} {start : Logger} {entries : Nat → List Entry}

theorem drainRun_writes {n m : Nat} (later : n ≤ m) :
    (drainRun env passes clock exits start n).logger.writes <+:
      (drainRun env passes clock exits start m).logger.writes := by
  induction later with
  | refl => exact List.prefix_refl _
  | step _ induction => exact induction.trans (Poll.step_writes env passes _ _)

theorem written_prefix {n m : Nat} (later : n ≤ m) :
    written start (drainRun env passes clock exits start n) <+:
      written start (drainRun env passes clock exits start m) := by
  have old : start.writes.length ≤
      (drainRun env passes clock exits start n).logger.writes.length :=
    (drainRun_writes (Nat.zero_le n)).length_le
  have grows : (drainRun env passes clock exits start n).logger.writes <+: _ :=
    drainRun_writes later
  rcases grows with ⟨new, grown⟩
  rw [written, written, ← grown, List.drop_append_of_le_length old]
  exact List.prefix_append _ _

namespace Draining

variable {poll : Poll} {state : Merge.State Nat Entry}

theorem written_sorted (draining : Draining start entries poll state)
    (sorted : ∀ ring, (entries ring).Pairwise
      (fun left right => left.timestamp ≤ right.timestamp)) :
    (written start poll).Pairwise
      (fun left right => left.timestamp ≤ right.timestamp) := by
  have times := (Merge.sorted draining.merged sorted).taken
  rw [← List.pairwise_map, draining.written_timestamps]
  exact List.pairwise_map.mpr times

/-- At rest nothing is pending. -/
theorem pending_nil (draining : Draining start entries poll state)
    (rests : poll.phase = .waiting ∨ poll.phase = .exited) (ring : Nat) :
    state.pending ring = [] := by
  have facts := draining.phase
  rcases rests with waits | exits
  · rw [waits] at facts
    exact facts.1 ring
  · rw [exits] at facts
    apply draining.staged.others
    rw [facts.1]
    exact List.not_mem_nil

end Draining

/-- `ioPoll` writes the staged entries in the order of their times, those of one
buffer in the order in which they were committed, and each of them exactly once,
whichever threads exit meanwhile. -/
theorem ioPoll_merges (staged : Staged start entries)
    (sorted : ∀ ring, (entries ring).Pairwise
      (fun left right => left.timestamp ≤ right.timestamp))
    (bounded : ∀ ring, ∀ entry ∈ entries ring, entry.timestamp < uint64Max)
    (isExit : start.isExit = false) (valid : start.outfd ≠ -1)
    (formats : ∀ n,
      EntryFormats env passes (clock n) (drainRun env passes clock exits start n)) :
    (∀ n,
      (written start (drainRun env passes clock exits start n)).Pairwise
          (fun left right => left.timestamp ≤ right.timestamp) ∧
        ∀ ring, writtenFrom start (drainRun env passes clock exits start n) ring <+:
          (entries ring).map Entry.block) ∧
      ∃ n, ∀ m, n ≤ m → ∀ ring,
        writtenFrom start (drainRun env passes clock exits start m) ring =
          (entries ring).map Entry.block := by
  have drains := drainRun_draining staged bounded isExit valid formats
  have ordered (n ring : Nat) :
      writtenFrom start (drainRun env passes clock exits start n) ring <+:
        (entries ring).map Entry.block := by
    rcases drains n with ⟨state, draining⟩
    exact ⟨_, draining.writtenFrom_append ring⟩
  constructor
  · intro n
    rcases drains n with ⟨state, draining⟩
    exact ⟨draining.written_sorted sorted, ordered n⟩
  · rcases drainRun_rests bounded valid formats 0 (Draining.initial staged isExit) with
      ⟨n, _, rests⟩
    refine ⟨n, ?_⟩
    intro m later ring
    rcases drains n with ⟨state, draining⟩
    have complete := draining.writtenFrom_eq (draining.pending_nil rests ring)
    have grows : writtenFrom start (drainRun env passes clock exits start n) ring <+:
        writtenFrom start (drainRun env passes clock exits start m) ring := by
      apply List.IsPrefix.map
      apply List.IsPrefix.filter
      exact written_prefix later
    rw [complete] at grows
    exact (ordered m ring).eq_of_length_le grows.length_le

end Merge

/-! ## Two exited threads to try -/

namespace Example

def entryAt (timestamp : Nat) (fits : timestamp < 2 ^ 64) : Entry where
  record :=
    { timestamp := timestamp, entrySize := 32, staticInfo := 4096, paramSize := 8192 }
  params := []
  sized := rfl
  small := by simp [stagingBufferSize]
  timestampFits := fits
  pointersFit := by simp

def late : Entry := entryAt 1000 (by decide)

def early : Entry := entryAt 500 (by decide)

/-- The staging buffer of a thread that has logged once and exited. -/
def ringOf (entry : Entry) : StagingBuffer :=
  { ((create 0).store entry.block).finishReservation entry.record.entrySize with
    shouldDeallocate := true }

def twoThreads : Logger where
  rings ring := ringOf (if ring = 0 then late else early)
  threadBuffers := [0, 1]
  deleted := []
  isStop := true
  isExit := false
  outfd := 4
  files _ := some (ascii "log.txt")
  output := output
  writes := []

def entries (ring : Nat) : List Entry :=
  if ring = 0 then [late] else if ring = 1 then [early] else []

def clock (count : Nat) : Nat := nanotime + count

theorem holds_ringOf (entry : Entry) : Holds (ringOf entry) [entry] := by
  have committed := (holds_create 0).commit (FreeSpaceSound.create 0) entry entry.small
  exact committed.congr rfl rfl rfl rfl

theorem staged_twoThreads : Staged twoThreads entries where
  distinct := by decide
  holds := by
    intro ring member
    simp only [twoThreads, List.mem_cons, List.not_mem_nil, or_false] at member
    rcases member with rfl | rfl
    · exact holds_ringOf late
    · exact holds_ringOf early
  others := by
    intro ring unregistered
    simp only [twoThreads, List.mem_cons, List.not_mem_nil, or_false, not_or]
      at unregistered
    simp only [entries, if_neg unregistered.1, if_neg unregistered.2]

theorem run_ends :
    (pollRun (env hi) 3 clock twoThreads 18).phase = .exited := by
  rfl

theorem run_formats (n : Nat) :
    EntryFormats (env hi) 3 (clock n) (pollRun (env hi) 3 clock twoThreads n) := by
  have tested : ∀ n < 18, entryFormatsTest (env hi) 3 (clock n)
      (pollRun (env hi) 3 clock twoThreads n) = true := by
    decide +kernel
  rcases Nat.lt_or_ge n 18 with running | ended
  · exact .of_test (tested n running)
  · intro earliest ring scanned _
    rw [pollRun_exited ended run_ends] at scanned
    cases scanned

theorem entries_bounded (ring : Nat) :
    ∀ entry ∈ entries ring, entry.timestamp < uint64Max := by
  intro entry member
  simp only [entries] at member
  split at member
  · rw [List.mem_singleton.mp member]
    decide
  · split at member
    · rw [List.mem_singleton.mp member]
      decide
    · cases member

theorem entries_sorted (ring : Nat) : (entries ring).Pairwise
    (fun left right => left.timestamp ≤ right.timestamp) := by
  simp only [entries]
  split
  · exact List.pairwise_singleton _ _
  · split
    · exact List.pairwise_singleton _ _
    · exact List.Pairwise.nil

end Example

open Example in
theorem ioPoll_merges_twoThreads :
    (∀ n,
      (written twoThreads (pollRun (env hi) 3 clock twoThreads n)).Pairwise
          (fun left right => left.timestamp ≤ right.timestamp) ∧
        ∀ ring, writtenFrom twoThreads (pollRun (env hi) 3 clock twoThreads n) ring <+:
          (entries ring).map Entry.block) ∧
      ∃ n, ∀ m, n ≤ m → ∀ ring,
        writtenFrom twoThreads (pollRun (env hi) 3 clock twoThreads m) ring =
          (entries ring).map Entry.block :=
  ioPoll_merges staged_twoThreads entries_sorted entries_bounded rfl (by decide)
    run_formats

end StaticLog.Backend
