import Mathlib.Logic.Function.Iterate
import StaticLog.Backend.MergeOrder
import StaticLog.Foundation.Selection

/-! # The scan of the staging buffers

The `for` loop of `ioPoll` as it stands in the code, with its `size_t` index that is
stepped back behind an `erase`. A pass of the poll thread's scan is a pass of this loop,
and a whole loop visits every registered buffer exactly once. -/

namespace StaticLog.Backend

open StagingBuffer

/-- The variables of the loop. The calls of `peek` are recorded. -/
structure Scan where
  i : Nat
  earliest : Earliest
  logger : Logger
  peeked : List Nat

/-- How the body of the loop ends: at its bottom, or by `break`. -/
inductive ScanBody
  | goesOn (scan : Scan)
  | broken (scan : Scan)

namespace Scan

/-- The body of the loop when `thread_buffer` is the buffer `ring`. -/
def body (ring : Nat) (scan : Scan) : ScanBody :=
  let threadBuffer := scan.logger.rings ring
  if !threadBuffer.checkCanDelete then
    let peeked := threadBuffer.peek
    .goesOn
      { scan with
        earliest := scan.earliest.compare ring peeked
        logger := scan.logger.setRing ring peeked.1
        peeked := scan.peeked ++ [ring] }
  else
    let logger := scan.logger.deleteBuffer scan.i ring
    if logger.threadBuffers.isEmpty then .broken { scan with logger := logger }
    else .goesOn { scan with logger := logger, i := wrappingSub scan.i 1 }

/-- `++i`. -/
def increment (scan : Scan) : Scan := { scan with i := (scan.i + 1) % 2 ^ 64 }

/-- The loop, as long as its condition is tested no more than `tests` times. -/
def loop : Nat → Scan → Option Scan
  | 0, _ => none
  | tests + 1, scan =>
      if inside : scan.i < scan.logger.threadBuffers.length then
        match scan.body scan.logger.threadBuffers[scan.i] with
        | .broken scan => some scan
        | .goesOn scan => loop tests scan.increment
      else some scan

/-- Before the loop. -/
def start (logger : Logger) : Scan where
  i := 0
  earliest := { timestamp := uint64Max, ring := none }
  logger := logger
  peeked := []

end Scan

/-! ## What the scan is for -/

namespace Logger

/-- The buffers that are not deleted. -/
def kept (logger : Logger) (rings : List Nat) : List Nat :=
  rings.filter (fun ring => !(logger.rings ring).checkCanDelete)

def deletable (logger : Logger) (rings : List Nat) : List Nat :=
  rings.filter (fun ring => (logger.rings ring).checkCanDelete)

/-- The kept buffers with data. -/
def offering (logger : Logger) (rings : List Nat) : List Nat :=
  (logger.kept rings).filter (fun ring => decide (0 < (logger.rings ring).peek.2))

/-- The timestamp of the entry at the head of a buffer. -/
def headTimestamp (logger : Logger) (ring : Nat) : Nat :=
  (frontEntry (logger.rings ring).peek.1).timestamp

/-- The state behind a scan of the buffers `visited`, with `ahead` still to come. -/
def scanned (logger : Logger) (visited ahead : List Nat) : Logger :=
  { logger with
    rings := fun ring =>
      if ring ∈ logger.kept visited then (logger.rings ring).peek.1
      else logger.rings ring
    threadBuffers := logger.kept visited ++ ahead
    deleted := logger.deleted ++ logger.deletable visited }

end Logger

/-- The first buffer with the least head timestamp is selected, or none when no buffer
offers anything. -/
inductive Selects (logger : Logger) (offering : List Nat) : Earliest → Prop
  | nothing : offering = [] →
      Selects logger offering { timestamp := uint64Max, ring := none }
  | first {ring : Nat} : Selection.FirstLeast logger.headTimestamp offering ring →
      Selects logger offering { timestamp := logger.headTimestamp ring, ring := some ring }

/-- What the registered buffers are like: distinct objects, as many as a vector can
hold, with the timestamps of their heads below `UINT64_MAX`. -/
structure Scannable (logger : Logger) : Prop where
  distinct : logger.threadBuffers.Nodup
  fits : logger.threadBuffers.length < 2 ^ 64
  bounded : ∀ ring ∈ logger.kept logger.threadBuffers, 0 < (logger.rings ring).peek.2 →
    logger.headTimestamp ring < uint64Max

/-- The loop condition is about to be tested, and the buffers `visited` are done with. -/
structure ScanHead (logger : Logger) (visited ahead : List Nat) (scan : Scan) : Prop where
  split : logger.threadBuffers = visited ++ ahead
  index : scan.i = (logger.kept visited).length
  reached : scan.logger = logger.scanned visited ahead
  peeked : scan.peeked = logger.kept visited
  selects : Selects logger (logger.offering visited) scan.earliest

namespace Selects

variable {logger : Logger} {offering : List Nat} {earliest : Earliest} {ring : Nat}

/-- The scan looks into one more buffer. -/
theorem visit {visited : List Nat} (selects : Selects logger (logger.offering visited) earliest)
    (kept : logger.kept (visited ++ [ring]) = logger.kept visited ++ [ring])
    (bounded : 0 < (logger.rings ring).peek.2 → logger.headTimestamp ring < uint64Max) :
    Selects logger (logger.offering (visited ++ [ring]))
      (earliest.compare ring (logger.rings ring).peek) := by
  rw [Logger.offering, kept, List.filter_append, List.filter_singleton,
    ← Logger.offering]
  rcases Nat.eq_zero_or_pos (logger.rings ring).peek.2 with empty | available
  · rw [Earliest.compare, empty]
    simpa using selects
  · have compared : earliest.compare ring (logger.rings ring).peek =
        if logger.headTimestamp ring < earliest.timestamp then
          { timestamp := logger.headTimestamp ring, ring := some ring }
        else earliest := by
      exact if_congr (and_iff_right available) rfl rfl
    rw [compared, decide_eq_true available]
    cases selects with
    | nothing none =>
        rw [if_pos (bounded available), none]
        exact .first (.singleton _ ring)
    | first chosen =>
        split
        · rename_i smaller
          exact .first (chosen.replace smaller)
        · rename_i notSmaller
          exact .first (chosen.keep (Nat.not_lt.mp notSmaller))

theorem mem_offering (selects : Selects logger offering earliest)
    (selected : earliest.ring = some ring) : ring ∈ offering := by
  cases selects with
  | nothing none => cases selected
  | first chosen =>
      cases selected
      exact chosen.mem

end Selects

/-! ## A pass of the loop and a whole loop -/

namespace ScanHead

variable {logger : Logger} {visited ahead : List Nat} {scan : Scan} {ring : Nat}

theorem start (logger : Logger) : ScanHead logger [] logger.threadBuffers (.start logger) where
  split := rfl
  index := rfl
  reached := by simp [Scan.start, Logger.scanned, Logger.kept, Logger.deletable]
  peeked := rfl
  selects := .nothing rfl

/-- A buffer that was not visited yet is as it was before the loop. -/
theorem ring_eq (head : ScanHead logger visited (ring :: ahead) scan)
    (distinct : logger.threadBuffers.Nodup) :
    scan.logger.rings ring = logger.rings ring := by
  have fresh : ring ∉ logger.kept visited := by
    intro member
    rw [head.split, List.nodup_append] at distinct
    exact distinct.2.2 ring (List.mem_of_mem_filter member) ring (by simp) rfl
  rw [head.reached, Logger.scanned]
  exact if_neg fresh

/-- A buffer that is done with leaves the vector; the index stays where it is. -/
theorem delete (head : ScanHead logger visited (ring :: ahead) scan)
    (deletable : (logger.rings ring).checkCanDelete = true) :
    scan.logger.deleteBuffer scan.i ring = logger.scanned (visited ++ [ring]) ahead := by
  have kept : logger.kept (visited ++ [ring]) = logger.kept visited := by
    simp [Logger.kept, deletable]
  have erased : (logger.kept visited ++ ring :: ahead).eraseIdx scan.i =
      logger.kept visited ++ ahead := by
    rw [head.index, List.eraseIdx_append_of_length_le (Nat.le_refl _), Nat.sub_self,
      List.eraseIdx_zero, List.tail_cons]
  rw [head.reached]
  simp only [Logger.deleteBuffer, Logger.scanned, kept, erased]
  simp [Logger.deletable, deletable]

/-- A buffer that is looked into stays in the vector. -/
theorem look (head : ScanHead logger visited (ring :: ahead) scan)
    (keeps : (logger.rings ring).checkCanDelete = false) :
    scan.logger.setRing ring (logger.rings ring).peek.1 =
      logger.scanned (visited ++ [ring]) ahead := by
  have kept : logger.kept (visited ++ [ring]) = logger.kept visited ++ [ring] := by
    simp [Logger.kept, keeps]
  rw [head.reached]
  simp only [Logger.setRing, Logger.scanned, kept, List.append_assoc,
    List.singleton_append, Logger.mk.injEq, and_true, true_and]
  constructor
  · funext other
    by_cases same : other = ring
    · subst same
      simp
    · simp [same]
  · simp [Logger.deletable, keeps]

theorem split_behind (head : ScanHead logger visited (ring :: ahead) scan) :
    logger.threadBuffers = (visited ++ [ring]) ++ ahead := by
  rw [List.append_assoc]
  exact head.split

/-- The index can be stepped without wrapping around. -/
theorem index_lt (head : ScanHead logger visited (ring :: ahead) scan)
    (scannable : Scannable logger) : scan.i + 1 < 2 ^ 64 := by
  have index := head.index
  have fits := scannable.fits
  have kept : (logger.kept visited).length ≤ visited.length := List.length_filter_le _ _
  rw [head.split, List.length_append, List.length_cons] at fits
  omega

/-- A pass that erases its buffer leaves the loop early only when no buffer is ahead. -/
theorem pass_delete (head : ScanHead logger visited (ring :: ahead) scan)
    (scannable : Scannable logger)
    (deletable : (logger.rings ring).checkCanDelete = true) :
    (∃ next, scan.body ring = .goesOn next ∧
        ScanHead logger (visited ++ [ring]) ahead next.increment) ∨
      (∃ next, scan.body ring = .broken next ∧ ahead = [] ∧
        ScanHead logger (visited ++ [ring]) [] next) := by
  have kept : logger.kept (visited ++ [ring]) = logger.kept visited := by
    simp [Logger.kept, deletable]
  have offering : logger.offering (visited ++ [ring]) = logger.offering visited := by
    simp only [Logger.offering, kept]
  have index := head.index
  have split := head.split_behind
  have small := head.index_lt scannable
  have body : scan.body ring =
      if (scan.logger.deleteBuffer scan.i ring).threadBuffers.isEmpty then
        .broken { scan with logger := scan.logger.deleteBuffer scan.i ring }
      else
        .goesOn
          { scan with
            logger := scan.logger.deleteBuffer scan.i ring
            i := wrappingSub scan.i 1 } := by
    rw [Scan.body, head.ring_eq scannable.distinct, deletable]
    rfl
  rw [body, head.delete deletable]
  split
  · rename_i empty
    rw [List.isEmpty_iff, Logger.scanned, List.append_eq_nil_iff] at empty
    refine .inr ⟨_, rfl, empty.2, ?_⟩
    rw [empty.2] at split ⊢
    exact ⟨split, kept ▸ index, rfl, kept ▸ head.peeked, offering ▸ head.selects⟩
  · refine .inl ⟨_, rfl, split, ?_, rfl, kept ▸ head.peeked, offering ▸ head.selects⟩
    -- At index 0 the decrement wraps around, and the increment wraps back.
    have stays : (wrappingSub scan.i 1 + 1) % 2 ^ 64 = scan.i := by
      rcases wrappingSub_spec scan.i 1 with ⟨_, equal⟩ | ⟨_, equal⟩ <;> omega
    rw [kept, ← index]
    exact stays

/-- A pass that looks into its buffer goes on. -/
theorem pass_look (head : ScanHead logger visited (ring :: ahead) scan)
    (scannable : Scannable logger)
    (keeps : (logger.rings ring).checkCanDelete = false) :
    ∃ next, scan.body ring = .goesOn next ∧
      ScanHead logger (visited ++ [ring]) ahead next.increment := by
  have kept : logger.kept (visited ++ [ring]) = logger.kept visited ++ [ring] := by
    simp [Logger.kept, keeps]
  have body : scan.body ring =
      .goesOn
        { scan with
          earliest := scan.earliest.compare ring (logger.rings ring).peek
          logger := scan.logger.setRing ring (logger.rings ring).peek.1
          peeked := scan.peeked ++ [ring] } := by
    rw [Scan.body, head.ring_eq scannable.distinct, keeps]
    rfl
  rw [body, head.look keeps]
  refine ⟨_, rfl, head.split_behind, ?_, rfl, ?_, ?_⟩
  · rw [kept, List.length_append, ← head.index]
    exact Nat.mod_eq_of_lt (head.index_lt scannable)
  · rw [kept, ← head.peeked]
    rfl
  · have registered : ring ∈ logger.kept logger.threadBuffers := by
      rw [Logger.kept, List.mem_filter, keeps]
      exact ⟨by simp [head.split], rfl⟩
    exact head.selects.visit kept (scannable.bounded ring registered)

/-- One pass: behind it one more buffer is done with, whether it was looked into or
erased, and the loop is only left early when no buffer is ahead. -/
theorem pass (head : ScanHead logger visited (ring :: ahead) scan)
    (scannable : Scannable logger) :
    (∃ next, scan.body ring = .goesOn next ∧
        ScanHead logger (visited ++ [ring]) ahead next.increment) ∨
      (∃ next, scan.body ring = .broken next ∧ ahead = [] ∧
        ScanHead logger (visited ++ [ring]) [] next) := by
  cases deletable : (logger.rings ring).checkCanDelete with
  | true => exact head.pass_delete scannable deletable
  | false => exact .inl (head.pass_look scannable deletable)

/-- The loop ends with every buffer done with. -/
theorem loop (head : ScanHead logger visited ahead scan) (scannable : Scannable logger) :
    ∃ final, ScanHead logger logger.threadBuffers [] final ∧
      ∀ tests, ahead.length < tests → scan.loop tests = some final := by
  induction ahead generalizing visited scan with
  | nil =>
      have all : logger.threadBuffers = visited := by simpa using head.split
      have ended : ¬scan.i < scan.logger.threadBuffers.length := by
        simp [head.index, head.reached, Logger.scanned]
      refine ⟨scan, all ▸ head, ?_⟩
      intro tests enough
      cases tests with
      | zero => cases enough
      | succ tests => rw [Scan.loop, dif_neg ended]
  | cons ring ahead induction =>
      have vector : scan.logger.threadBuffers =
          logger.kept visited ++ ring :: ahead := by
        rw [head.reached]
        rfl
      have inside : scan.i < scan.logger.threadBuffers.length := by
        rw [vector, head.index, List.length_append, List.length_cons]
        omega
      have current : scan.logger.threadBuffers[scan.i] = ring := by
        simp [vector, head.index]
      have unfolded (tests : Nat) : scan.loop (tests + 1) =
          match scan.body ring with
          | .broken scan => some scan
          | .goesOn scan => scan.increment.loop tests := by
        rw [Scan.loop, dif_pos inside, current]
      rcases head.pass scannable with ⟨next, body, later⟩ | ⟨next, body, rfl, later⟩
      · rcases induction later with ⟨final, done, ends⟩
        refine ⟨final, done, ?_⟩
        intro tests enough
        cases tests with
        | zero => cases enough
        | succ tests =>
            rw [unfolded, body]
            exact ends tests (Nat.lt_of_succ_lt_succ enough)
      · have all : logger.threadBuffers = visited ++ [ring] := head.split
        refine ⟨next, all ▸ later, ?_⟩
        intro tests enough
        cases tests with
        | zero => cases enough
        | succ tests => rw [unfolded, body]

end ScanHead

/-- What a scan of the registered buffers has to achieve. -/
structure ExactScan (logger : Logger) (final : Scan) : Prop where
  deleted : final.logger.deleted =
    logger.deleted ++ logger.deletable logger.threadBuffers
  deletedOnce : (logger.deletable logger.threadBuffers).Nodup
  kept : final.logger.threadBuffers = logger.kept logger.threadBuffers
  peeked : final.peeked = logger.kept logger.threadBuffers
  peekedOnce : final.peeked.Nodup
  rings : ∀ ring, final.logger.rings ring =
    if ring ∈ logger.kept logger.threadBuffers then (logger.rings ring).peek.1
    else logger.rings ring
  selects : Selects logger (logger.offering logger.threadBuffers) final.earliest
  selectedKept : ∀ ring, final.earliest.ring = some ring →
    ring ∈ final.logger.threadBuffers ∧
      ring ∉ logger.deletable logger.threadBuffers

/-- The scan ends. It deletes the deletable buffers once each, keeps the others in their
order, looks into each of these once and selects the first of them with the least
timestamp. -/
theorem scan_exact (logger : Logger) (scannable : Scannable logger) :
    ∃ final, ExactScan logger final ∧
      ∀ tests, logger.threadBuffers.length < tests →
        (Scan.start logger).loop tests = some final := by
  rcases (ScanHead.start logger).loop scannable with ⟨final, head, ends⟩
  have reached := head.reached
  have kept : final.logger.threadBuffers = logger.kept logger.threadBuffers := by
    simp [reached, Logger.scanned]
  refine ⟨final, ?_, ends⟩
  constructor
  · rw [reached]
    rfl
  · exact scannable.distinct.filter _
  · exact kept
  · exact head.peeked
  · rw [head.peeked]
    exact scannable.distinct.filter _
  · intro ring
    rw [reached]
    rfl
  · exact head.selects
  · intro ring selected
    have offered := head.selects.mem_offering selected
    have member := List.mem_of_mem_filter offered
    refine ⟨kept ▸ member, ?_⟩
    intro deletable
    have keeps := (List.mem_filter.mp member).2
    rw [(List.mem_filter.mp deletable).2] at keeps
    cases keeps

/-! ## Two more threads that have exited -/

namespace Example

/-- In front of the two buffers with entries and behind them there are empty ones. -/
def fourThreads : Logger where
  rings ring :=
    if ring < 2 then twoThreads.rings ring
    else { create ring with shouldDeallocate := true }
  threadBuffers := [2, 0, 1, 3]
  deleted := []
  isStop := false
  isExit := false
  outfd := 4
  files _ := some (ascii "log.txt")
  output := output
  writes := []

end Example

open Example in
theorem scan_fourThreads :
    ∃ final, ExactScan fourThreads final ∧
      ∀ tests, 4 < tests → (Scan.start fourThreads).loop tests = some final :=
  scan_exact fourThreads
    { distinct := by decide
      fits := by decide
      bounded := by decide +kernel }

open Example in
example : ((Scan.start fourThreads).loop 5).map
    (fun final => (final.logger.deleted, final.logger.threadBuffers, final.earliest)) =
    some ([2, 3], [0, 1], { timestamp := 500, ring := some 1 }) := by
  decide +kernel

/-! ## The scan as steps of the poll thread -/

/-- A pass of the loop is a pass of the poll thread. -/
theorem Scan.body_scanPass {scan : Scan} {ring : Nat}
    (found : scan.logger.threadBuffers[scan.i]? = some ring)
    (fits : scan.i + 1 < 2 ^ 64) :
    scanPass scan.i scan.earliest scan.logger =
      match scan.body ring with
      | .goesOn next =>
          { phase := .scanning next.increment.i next.earliest, logger := next.logger }
      | .broken next => { phase := .scanned next.earliest, logger := next.logger } := by
  have increments : (scan.i + 1) % 2 ^ 64 = scan.i + 1 := Nat.mod_eq_of_lt fits
  have stays : (wrappingSub scan.i 1 + 1) % 2 ^ 64 = scan.i := by
    rcases wrappingSub_spec scan.i 1 with ⟨_, equal⟩ | ⟨_, equal⟩ <;> omega
  simp only [scanPass, found, Scan.body, Scan.increment]
  cases (scan.logger.rings ring).checkCanDelete with
  | true =>
      cases (scan.logger.deleteBuffer scan.i ring).threadBuffers.isEmpty with
      | true => rfl
      | false => simpa using stays.symm
  | false => simpa using increments.symm

/-- The body does not make the vector longer. -/
theorem Scan.body_length {scan next : Scan} {ring : Nat}
    (body : scan.body ring = .goesOn next) :
    next.logger.threadBuffers.length ≤ scan.logger.threadBuffers.length := by
  simp only [Scan.body] at body
  split at body
  · cases body
    exact Nat.le_refl _
  · split at body
    · cases body
    · cases body
      exact (List.eraseIdx_sublist _ _).length_le

/-- A whole loop is what the poll thread does from one point of its code to another. -/
theorem Scan.loop_steps (env : Environment) (passes nanotime tests : Nat)
    {scan final : Scan} (fits : scan.logger.threadBuffers.length < 2 ^ 64)
    (ended : scan.loop tests = some final) :
    ∃ count, (Poll.step env passes nanotime)^[count]
        { phase := .scanning scan.i scan.earliest, logger := scan.logger } =
      { phase := .scanned final.earliest, logger := final.logger } := by
  induction tests generalizing scan with
  | zero => cases ended
  | succ tests induction =>
      rw [Scan.loop] at ended
      split at ended
      · rename_i inside
        have found := List.getElem?_eq_getElem inside
        have passes := Scan.body_scanPass found (by omega)
        split at ended
        · rename_i next body
          cases ended
          simp only [body] at passes
          exact ⟨1, passes⟩
        · rename_i next body
          simp only [body] at passes
          have shorter : next.increment.logger.threadBuffers.length < 2 ^ 64 :=
            (Scan.body_length body).trans_lt fits
          rcases induction shorter ended with ⟨count, steps⟩
          refine ⟨count + 1, ?_⟩
          rw [Function.iterate_succ_apply]
          exact (congrArg _ passes).trans steps
      · rename_i outside
        cases ended
        refine ⟨1, ?_⟩
        have none := List.getElem?_eq_none_iff.mpr (Nat.not_lt.mp outside)
        simp [Poll.step, scanPass, none]

end StaticLog.Backend
