import StaticLog.Backend.Poll
import StaticLog.Foundation.Merge

/-! # The poll thread alone with the staged entries

While no thread logs, `ioPoll` merges the entries of the registered staging
buffers: the entry that it writes is least among the oldest entries of all
buffers. One lemma says what a step keeps and that it comes nearer to the point where
nothing is left to write. -/

namespace StaticLog.Backend

open Memory StagingBuffer Decoding Execution

/-- The registered staging buffers are distinct and hold these entries. -/
structure Staged (logger : Logger) (entries : Nat → List Entry) : Prop where
  distinct : logger.threadBuffers.Nodup
  holds : ∀ ring ∈ logger.threadBuffers, Holds (logger.rings ring) (entries ring)
  others : ∀ ring, ring ∉ logger.threadBuffers → entries ring = []

/-- The time that the producer has recorded. -/
def Entry.timestamp (entry : Entry) : Nat := entry.record.timestamp

/-- `earliest` is the least first entry of the buffers that were visited. -/
structure Seen (remaining : Nat → List Entry) (visited : List Nat)
    (earliest : Earliest) : Prop where
  least : ∀ ring ∈ visited, ∀ entry later, remaining ring = entry :: later →
    earliest.timestamp ≤ entry.timestamp
  found : earliest.timestamp ≠ uint64Max →
    ∃ ring ∈ visited, ∃ entry later, earliest.ring = some ring ∧
      remaining ring = entry :: later ∧ entry.timestamp = earliest.timestamp

/-- Buffers without entries in which the consumer stands where the producer does. -/
def Emptied (logger : Logger) (remaining : Nat → List Entry) (visited : List Nat) :
    Prop :=
  ∀ ring ∈ visited, remaining ring = [] →
    (logger.rings ring).consumerPos = (logger.rings ring).producerPos

/-- What the poll thread knows at each point of its code. -/
def PhaseFacts (logger : Logger) (remaining : Nat → List Entry) : PollPhase → Prop
  | .scanning i earliest =>
      Seen remaining (logger.threadBuffers.take i) earliest ∧
        Emptied logger remaining (logger.threadBuffers.take i)
  | .scanned earliest =>
      Seen remaining logger.threadBuffers earliest ∧
        Emptied logger remaining logger.threadBuffers
  | .waiting =>
      (∀ ring, remaining ring = []) ∧
        Emptied logger remaining logger.threadBuffers
  | .exited => logger.threadBuffers = [] ∧ logger.isStop = true
  | _ => True

/-- The poll thread has got from `start`, where the buffers held `entries`, to a state
in which they hold what `state` has pending. -/
structure Draining (start : Logger) (entries : Nat → List Entry) (poll : Poll)
    (state : Merge.State Nat Entry) : Prop where
  staged : Staged poll.logger state.pending
  emptied : ∀ ring ∈ start.threadBuffers, ring ∉ poll.logger.threadBuffers →
    Holds (poll.logger.rings ring) []
  merged : (Merge.system Entry.timestamp entries).Reachable state
  writes : poll.logger.writes.map (fun write => (write.ring, write.entry)) =
    start.writes.map (fun write => (write.ring, write.entry)) ++
      state.taken.map (fun taken => (taken.1, taken.2.block))
  sublist : poll.logger.threadBuffers.Sublist start.threadBuffers
  deletions : (poll.logger.deleted ++ poll.logger.threadBuffers).Perm
    (start.deleted ++ start.threadBuffers)
  dying : ∀ ring, (start.rings ring).shouldDeallocate = true →
    (poll.logger.rings ring).shouldDeallocate = true
  isStop : poll.logger.isStop = start.isStop
  isExit : poll.logger.isExit = false
  outfd : poll.logger.outfd = start.outfd
  phase : PhaseFacts poll.logger state.pending poll.phase

/-- If the poll thread is about to process an entry, then `process_fmt` formats it. -/
def EntryFormats (env : Environment) (passes nanotime : Nat) (poll : Poll) : Prop :=
  ∀ earliest ring, poll.phase = .scanned earliest → earliest.ring = some ring →
    ∃ len, formatted env passes nanotime (poll.logger.rings ring) poll.logger.output =
      some len ∧ len ≠ -1

def entryFormatsTest (env : Environment) (passes nanotime : Nat) (poll : Poll) : Bool :=
  match poll.phase with
  | .scanned earliest =>
      match earliest.ring with
      | some ring =>
          (formatted env passes nanotime (poll.logger.rings ring)
            poll.logger.output).any (· ≠ -1)
      | none => true
  | _ => true

theorem EntryFormats.of_test {env : Environment} {passes nanotime : Nat} {poll : Poll}
    (passed : entryFormatsTest env passes nanotime poll = true) :
    EntryFormats env passes nanotime poll := by
  intro earliest ring scanned isRing
  simp only [entryFormatsTest, scanned, isRing] at passed
  cases formats : formatted env passes nanotime (poll.logger.rings ring)
      poll.logger.output with
  | none =>
      rw [formats] at passed
      cases passed
  | some len =>
      rw [formats] at passed
      exact ⟨len, rfl, of_decide_eq_true passed⟩

/-- How far the poll thread is from the end of an iteration. -/
def PollPhase.rank (buffers : Nat) : PollPhase → Nat
  | .starting => buffers + 5
  | .guard => buffers + 4
  | .unlocked => buffers + 3
  | .scanning i _ => buffers - i + 2
  | .scanned _ => 1
  | .waiting => 0
  | .exited => 0

/-- Entries that are left count more than everything that an iteration does. -/
def distance (start : Logger) (poll : Poll) (state : Merge.State Nat Entry) : Nat :=
  Merge.size start.threadBuffers state.pending * (start.threadBuffers.length + 6) +
    poll.phase.rank poll.logger.threadBuffers.length

/-! ## The scan -/

theorem split_at {Item : Type u} {items : List Item} {i : Nat} {item : Item}
    (found : items[i]? = some item) :
    ∃ before behind, items = before ++ item :: behind ∧
      items.eraseIdx i = before ++ behind ∧ items.take i = before ∧
      items.take (i + 1) = before ++ [item] ∧ before.length = i := by
  rcases List.getElem?_eq_some_iff.mp found with ⟨inside, rfl⟩
  refine ⟨items.take i, items.drop (i + 1), ?_, List.eraseIdx_eq_take_drop_succ _ _, rfl,
    ?_, ?_⟩
  · simp
  · simp
  · simp only [List.length_take]
    omega

theorem Seen.nil (remaining : Nat → List Entry) :
    Seen remaining [] { timestamp := uint64Max, ring := none } where
  least := by simp
  found := fun some => absurd rfl some

/-- A buffer whose first entry is not earlier changes nothing. -/
theorem Seen.keep {remaining : Nat → List Entry} {visited : List Nat}
    {earliest : Earliest} (seen : Seen remaining visited earliest) {ring : Nat}
    (notEarlier : ∀ entry later, remaining ring = entry :: later →
      earliest.timestamp ≤ entry.timestamp) :
    Seen remaining (visited ++ [ring]) earliest := by
  constructor
  · intro other member entry later head
    rw [List.mem_append, List.mem_singleton] at member
    rcases member with member | rfl
    · exact seen.least other member entry later head
    · exact notEarlier entry later head
  · intro some
    rcases seen.found some with ⟨other, member, rest⟩
    exact ⟨other, List.mem_append_left _ member, rest⟩

/-- One more buffer is looked into. -/
theorem Seen.snoc {remaining : Nat → List Entry} {visited : List Nat}
    {earliest : Earliest} (seen : Seen remaining visited earliest) {ring : Nat}
    {stagingBuffer : StagingBuffer} (holds : Holds stagingBuffer (remaining ring)) :
    Seen remaining (visited ++ [ring]) (earliest.compare ring stagingBuffer.peek) := by
  cases shape : remaining ring with
  | nil =>
      rw [shape] at holds
      have unchanged : earliest.compare ring stagingBuffer.peek = earliest := by
        simp [Earliest.compare, holds.peek_nil.1]
      rw [unchanged]
      apply seen.keep
      intro entry later head
      rw [shape] at head
      cases head
  | cons first behind =>
      rw [shape] at holds
      rcases holds.peek_cons with ⟨available, offers⟩
      have isRing : ring ∈ visited ++ [ring] := by simp
      rw [Earliest.compare, offers.frontEntry_eq, ← Entry.timestamp]
      rcases Nat.lt_or_ge first.timestamp earliest.timestamp with earlier | later
      · rw [if_pos ⟨available, earlier⟩]
        constructor
        · intro other member entry later head
          rw [List.mem_append, List.mem_singleton] at member
          rcases member with member | rfl
          · have least := seen.least other member entry later head
            exact earlier.le.trans least
          · rw [shape] at head
            rw [(List.cons.inj head).1]
        · intro _
          exact ⟨ring, isRing, first, behind, rfl, shape, rfl⟩
      · rw [if_neg (fun both => Nat.not_lt.mpr later both.2)]
        apply seen.keep
        intro entry behind head
        rw [shape] at head
        rw [← (List.cons.inj head).1]
        exact later

/-! ## One step of the poll thread -/

namespace Draining

variable {start : Logger} {entries : Nat → List Entry} {logger : Logger}
  {state : Merge.State Nat Entry} {i ring : Nat} {earliest : Earliest}

/-- The poll thread goes on in its code and does nothing else. -/
theorem idle {poll : Poll} (draining : Draining start entries poll state)
    (phase : PollPhase) (facts : PhaseFacts poll.logger state.pending phase) :
    Draining start entries { poll with phase := phase } state :=
  { draining with phase := facts }

/-- A buffer that is deleted has no entries left. -/
theorem delete
    (draining : Draining start entries
      { phase := .scanning i earliest, logger := logger } state)
    (found : logger.threadBuffers[i]? = some ring)
    (deletable : (logger.rings ring).checkCanDelete = true) (phase : PollPhase)
    (goesOn : phase = .scanning i earliest ∨
      phase = .scanned earliest ∧ (logger.deleteBuffer i ring).threadBuffers = []) :
    Draining start entries { phase := phase, logger := logger.deleteBuffer i ring }
      state := by
  rcases split_at found with ⟨before, behind, split, erased, visited, _, _⟩
  have registered : ring ∈ logger.threadBuffers := List.mem_of_getElem? found
  have nothing : state.pending ring = [] :=
    (draining.staged.holds ring registered).eq_nil_of_checkCanDelete deletable
  have still : (logger.deleteBuffer i ring).threadBuffers.Sublist logger.threadBuffers :=
    List.eraseIdx_sublist _ _
  have facts : PhaseFacts logger state.pending (.scanning i earliest) := draining.phase
  rw [PhaseFacts, visited] at facts
  have distinct := draining.staged.distinct
  have further (other : Nat) (unregistered : other ∉ (before ++ behind))
      (different : other ≠ ring) : other ∉ logger.threadBuffers := by
    intro member
    apply unregistered
    rw [split] at member
    simp only [List.mem_append, List.mem_cons, different, false_or] at member ⊢
    exact member
  refine ⟨⟨?_, ?_, ?_⟩, ?_, draining.merged, draining.writes, ?_, ?_, draining.dying,
    draining.isStop, draining.isExit, draining.outfd, ?_⟩
  · exact distinct.sublist still
  · intro other member
    exact draining.staged.holds other (still.subset member)
  · intro other unregistered
    by_cases same : other = ring
    · rw [same]
      exact nothing
    · apply draining.staged.others
      simp only [Logger.deleteBuffer, erased] at unregistered
      exact further other unregistered same
  · intro other started unregistered
    by_cases same : other = ring
    · rw [same, ← nothing]
      exact draining.staged.holds ring registered
    · apply draining.emptied other started
      simp only [Logger.deleteBuffer, erased] at unregistered
      exact further other unregistered same
  · exact still.trans draining.sublist
  · refine List.Perm.trans ?_ draining.deletions
    simp only [Logger.deleteBuffer, erased, List.append_assoc]
    rw [split, List.singleton_append]
    exact List.Perm.append_left _ List.perm_middle.symm
  · rcases goesOn with rfl | ⟨rfl, empty⟩
    · simp only [PhaseFacts, Logger.deleteBuffer]
      rw [List.take_eraseIdx_eq_take_of_le _ _ _ (Nat.le_refl _), visited]
      exact facts
    · have none : before = [] := by
        simp only [Logger.deleteBuffer, erased, List.append_eq_nil_iff] at empty
        exact empty.1
      simp only [PhaseFacts, empty]
      rw [none] at facts
      exact facts

/-- A buffer that is looked into may roll over, and keeps its entries. -/
theorem look
    (draining : Draining start entries
      { phase := .scanning i earliest, logger := logger } state)
    (found : logger.threadBuffers[i]? = some ring) :
    Draining start entries
      { phase := .scanning (i + 1) (earliest.compare ring (logger.rings ring).peek)
        logger := logger.setRing ring (logger.rings ring).peek.1 } state := by
  rcases split_at found with ⟨before, behind, split, _, visited, further, _⟩
  have registered : ring ∈ logger.threadBuffers := List.mem_of_getElem? found
  have holds := draining.staged.holds ring registered
  have facts : PhaseFacts logger state.pending (.scanning i earliest) := draining.phase
  rw [PhaseFacts, visited] at facts
  refine ⟨⟨draining.staged.distinct, ?_, draining.staged.others⟩, ?_, draining.merged,
    draining.writes, draining.sublist, draining.deletions, ?_,
    draining.isStop, draining.isExit, draining.outfd, ?_⟩
  · intro other member
    by_cases same : other = ring
    · subst same
      simp only [Logger.setRing, Function.update_self]
      exact holds.peek
    · simp only [Logger.setRing, Function.update_of_ne same]
      exact draining.staged.holds other member
  · intro other started unregistered
    have different : other ≠ ring := fun same => unregistered (same ▸ registered)
    simp only [Logger.setRing, Function.update_of_ne different]
    exact draining.emptied other started unregistered
  · intro other
    by_cases same : other = ring
    · subst same
      simp only [Logger.setRing, Function.update_self, peek_shouldDeallocate]
      exact draining.dying other
    · simp only [Logger.setRing, Function.update_of_ne same]
      exact draining.dying other
  · simp only [PhaseFacts, Logger.setRing, further]
    refine ⟨facts.1.snoc holds, ?_⟩
    intro other member nothing
    by_cases same : other = ring
    · subst same
      simp only [Function.update_self]
      rw [nothing] at holds
      exact holds.peek_nil.2.2
    · simp only [Function.update_of_ne same]
      simp only [List.mem_append, List.mem_singleton, same, or_false] at member
      exact facts.2 other member nothing

/-- The first entry of a buffer was written and consumed. -/
theorem finish {env : Environment} {passes nanotime : Nat}
    (draining : Draining start entries
      { phase := .scanned earliest, logger := logger } state)
    (registered : ring ∈ logger.threadBuffers) {first : Entry} {later : List Entry}
    (offers : Offers (logger.rings ring).peek.1 first later)
    {processed : Processed} {line : List UInt8}
    (ran : processLogBuffer env passes nanotime logger.outfd (logger.rings ring)
      logger.output = some processed) (written : processed.written = some line)
    (consumed : Holds processed.stagingBuffer later)
    (step : Merge.Step Entry.timestamp state ring
      { pending := Function.update state.pending ring later
        taken := state.taken ++ [(ring, first)] }) :
    Draining start entries { phase := .guard, logger := logger.finish ring processed }
      { pending := Function.update state.pending ring later
        taken := state.taken ++ [(ring, first)] } := by
  have different {other : Nat} (unregistered : other ∉ logger.threadBuffers) :
      other ≠ ring := fun same => unregistered (same ▸ registered)
  refine ⟨⟨draining.staged.distinct, ?_, ?_⟩, ?_, .step draining.merged step, ?_,
    draining.sublist, draining.deletions, ?_, draining.isStop, draining.isExit,
    draining.outfd, trivial⟩
  · intro other member
    by_cases same : other = ring
    · subst same
      simp only [Logger.finish, Function.update_self]
      exact consumed
    · simp only [Logger.finish, Function.update_of_ne same]
      exact draining.staged.holds other member
  · intro other unregistered
    simp only [Function.update_of_ne (different unregistered)]
    exact draining.staged.others other unregistered
  · intro other started unregistered
    simp only [Logger.finish, Function.update_of_ne (different unregistered)]
    exact draining.emptied other started unregistered
  · simp only [Logger.finish, written, Option.map_some, Option.toList_some,
      List.map_append, List.map_cons, List.map_nil, offers.slice_eq, draining.writes,
      List.append_assoc]
  · intro other dying
    have dead := draining.dying other dying
    by_cases same : other = ring
    · subst same
      simp only [Logger.finish, Function.update_self, (processed_frame ran).1]
      exact dead
    · simp only [Logger.finish, Function.update_of_ne same]
      exact dead

/-- The entry that is processed is the least of all first entries. -/
theorem process {env : Environment} {passes nanotime : Nat}
    (draining : Draining start entries
      { phase := .scanned earliest, logger := logger } state)
    (valid : start.outfd ≠ -1) (some : earliest.timestamp ≠ uint64Max)
    (formats : EntryFormats env passes nanotime
      { phase := .scanned earliest, logger := logger }) :
    ∃ ring ∈ logger.threadBuffers, ∃ after processed,
      processEarliest env passes nanotime earliest logger =
        { phase := .guard, logger := logger.finish ring processed } ∧
      Merge.Step Entry.timestamp state ring after ∧
      Draining start entries
        { phase := .guard, logger := logger.finish ring processed } after := by
  have facts : PhaseFacts logger state.pending (.scanned earliest) := draining.phase
  rcases facts.1.found some with ⟨ring, registered, first, later, isRing, head, time⟩
  rcases formats earliest ring rfl isRing with ⟨len, returned, accepted⟩
  have holds := draining.staged.holds ring registered
  rw [head] at holds
  rcases holds.peek_cons with ⟨available, offers⟩
  have outfd : logger.outfd ≠ -1 := draining.outfd.symm ▸ valid
  rcases processLogBuffer_of_formatted available returned accepted outfd with
    ⟨processed, line, ran, written⟩
  have consumed : Holds processed.stagingBuffer later := by
    rcases holds.processed ran with ⟨none, _⟩ | ⟨_, consumed⟩
    · rw [none] at written
      cases written
    · exact consumed
  have step : Merge.Step Entry.timestamp state ring
      { pending := Function.update state.pending ring later
        taken := state.taken ++ [(ring, first)] } := by
    apply Merge.Step.take state ring first later head
    intro other first' rest head'
    rw [time]
    apply facts.1.least other _ first' rest head'
    by_contra unregistered
    rw [draining.staged.others other unregistered] at head'
    cases head'
  refine ⟨ring, registered, _, processed, ?_, step,
    draining.finish registered offers ran written consumed step⟩
  rw [processEarliest, isRing]
  simp only [ran]

/-- What is pending was staged at the start. -/
theorem mem_entries {poll : Poll} (draining : Draining start entries poll state)
    {entry : Entry} (member : entry ∈ state.pending ring) : entry ∈ entries ring := by
  rw [← Merge.conserved draining.merged ring]
  exact List.mem_append_right _ member

/-- If the scan has found no entry, none is left. -/
theorem nothing_left
    (draining : Draining start entries
      { phase := .scanned earliest, logger := logger } state)
    (bounded : ∀ ring, ∀ entry ∈ entries ring, entry.timestamp < uint64Max)
    (none : earliest.timestamp = uint64Max) (ring : Nat) : state.pending ring = [] := by
  have facts : PhaseFacts logger state.pending (.scanned earliest) := draining.phase
  by_cases registered : ring ∈ logger.threadBuffers
  · cases shape : state.pending ring with
    | nil => rfl
    | cons entry later =>
        have least := facts.1.least ring registered entry later shape
        have staged : entry ∈ state.pending ring := by simp [shape]
        have below := bounded ring entry (draining.mem_entries staged)
        omega
  · exact draining.staged.others ring registered

/-- The scan deletes the buffer that it has come to, or looks into it, or ends. -/
theorem scan {i : Nat} {earliest : Earliest} {logger : Logger}
    (draining : Draining start entries
      { phase := .scanning i earliest, logger := logger } state)
    (env : Environment) (passes nanotime : Nat) :
    let poll : Poll := { phase := .scanning i earliest, logger := logger }
    Draining start entries (poll.step env passes nanotime) state ∧
      distance start (poll.step env passes nanotime) state < distance start poll state := by
  simp only [Poll.step]
  rcases scanPass_cases i earliest logger with ⟨ended, pass⟩ | ⟨ring, found, pass⟩
  · rw [pass]
    have facts := draining.phase
    simp only [PhaseFacts, List.take_of_length_le ended] at facts
    refine ⟨draining.idle (.scanned earliest) facts, ?_⟩
    simp [distance, PollPhase.rank]
  · have inside : i < logger.threadBuffers.length :=
      (List.getElem?_eq_some_iff.mp found).1
    rcases pass with ⟨deletable, same, goesOn⟩ | ⟨_, pass⟩
    · generalize scanPass i earliest logger = result at same goesOn ⊢
      rcases result with ⟨phase, changed⟩
      subst same
      refine ⟨draining.delete found deletable phase goesOn, ?_⟩
      have shorter : (logger.deleteBuffer i ring).threadBuffers.length =
          logger.threadBuffers.length - 1 := List.length_eraseIdx_of_lt inside
      rcases goesOn with rfl | ⟨rfl, _⟩
      · simp only [distance, PollPhase.rank, shorter]
        omega
      · simp only [distance, PollPhase.rank]
        omega
    · rw [pass]
      refine ⟨draining.look found, ?_⟩
      simp only [distance, PollPhase.rank, Logger.setRing]
      omega

/-- A step of the poll thread keeps the invariant, and brings the thread nearer to the
point where it waits or exits. -/
theorem step {env : Environment} {passes nanotime : Nat} {poll : Poll}
    (draining : Draining start entries poll state)
    (bounded : ∀ ring, ∀ entry ∈ entries ring, entry.timestamp < uint64Max)
    (valid : start.outfd ≠ -1) (formats : EntryFormats env passes nanotime poll) :
    ∃ after, Draining start entries (poll.step env passes nanotime) after ∧
      (distance start (poll.step env passes nanotime) after < distance start poll state ∨
        poll.phase = .waiting ∨ poll.phase = .exited) := by
  have isExit := draining.isExit
  rcases poll with ⟨phase, logger⟩
  cases phase with
  | starting =>
      refine ⟨state, draining.idle .guard trivial, .inl ?_⟩
      simp [distance, Poll.step, PollPhase.rank]
  | guard =>
      simp only [Poll.step]
      split
      · rw [if_neg (by simp [show logger.isExit = false from isExit])]
        refine ⟨state, draining.idle .unlocked trivial, .inl ?_⟩
        simp [distance, PollPhase.rank]
      · rename_i ended
        simp only [Bool.or_eq_true, Bool.not_eq_true', not_or, Bool.not_eq_false,
          List.isEmpty_iff] at ended
        refine ⟨state, draining.idle .exited ⟨ended.2, ended.1⟩, .inl ?_⟩
        simp [distance, PollPhase.rank]
  | unlocked =>
      refine ⟨state, draining.idle _ ⟨?_, ?_⟩, .inl ?_⟩
      · exact Seen.nil _
      · simp [Emptied]
      · simp [distance, Poll.step, PollPhase.rank]
  | scanning i earliest =>
      rcases draining.scan env passes nanotime with ⟨kept, nearer⟩
      exact ⟨state, kept, .inl nearer⟩
  | scanned earliest =>
      simp only [Poll.step]
      split
      · rename_i some
        rcases draining.process valid some formats with
          ⟨ring, registered, after, processed, pass, step, kept⟩
        rw [pass]
        refine ⟨after, kept, .inl ?_⟩
        have fewer := step.size_lt (draining.sublist.subset registered)
        have shorter : logger.threadBuffers.length ≤ start.threadBuffers.length :=
          draining.sublist.length_le
        have gain := Nat.mul_le_mul_right (start.threadBuffers.length + 6)
          (Nat.succ_le_of_lt fewer)
        rw [Nat.succ_mul] at gain
        simp only [distance, PollPhase.rank, Logger.finish]
        omega
      · rename_i none
        have facts := draining.phase
        refine ⟨state, draining.idle .waiting ⟨?_, facts.2⟩, .inl ?_⟩
        · exact draining.nothing_left bounded (not_not.mp none)
        · simp [distance, PollPhase.rank]
  | waiting => exact ⟨state, draining.idle .guard trivial, .inr (.inl rfl)⟩
  | exited => exact ⟨state, draining, .inr (.inr rfl)⟩

/-- Threads that exit leave their entries in their buffers. -/
theorem exitOwners {poll : Poll} (draining : Draining start entries poll state)
    (exits : Nat → Bool) : Draining start entries (poll.exitOwners exits) state := by
  have cursors (ring : Nat) :
      ((poll.exitOwners exits).logger.rings ring).producerPos =
          (poll.logger.rings ring).producerPos ∧
        ((poll.exitOwners exits).logger.rings ring).consumerPos =
          (poll.logger.rings ring).consumerPos ∧
        ((poll.exitOwners exits).logger.rings ring).endOfRecordedSpace =
          (poll.logger.rings ring).endOfRecordedSpace ∧
        ((poll.exitOwners exits).logger.rings ring).storage =
          (poll.logger.rings ring).storage := by
    simp only [Poll.exitOwners]
    split
    · exact ⟨rfl, rfl, rfl, rfl⟩
    · exact ⟨rfl, rfl, rfl, rfl⟩
  have holds {ring : Nat} {held : List Entry} (before : Holds (poll.logger.rings ring) held) :
      Holds ((poll.exitOwners exits).logger.rings ring) held := by
    rcases cursors ring with ⟨producerPos, consumerPos, endOfRecordedSpace, storage⟩
    exact before.congr producerPos consumerPos endOfRecordedSpace storage
  have emptied {visited : List Nat} (before : Emptied poll.logger state.pending visited) :
      Emptied (poll.exitOwners exits).logger state.pending visited := by
    intro ring member nothing
    rw [(cursors ring).1, (cursors ring).2.1]
    exact before ring member nothing
  refine ⟨⟨draining.staged.distinct, ?_, draining.staged.others⟩, ?_, draining.merged,
    draining.writes, draining.sublist, draining.deletions, ?_, draining.isStop,
    draining.isExit, draining.outfd, ?_⟩
  · intro ring member
    exact holds (draining.staged.holds ring member)
  · intro ring started unregistered
    exact holds (draining.emptied ring started unregistered)
  · intro ring dying
    have already := draining.dying ring dying
    simp only [Poll.exitOwners]
    split
    · rfl
    · exact already
  · have facts := draining.phase
    rcases poll with ⟨phase, logger⟩
    cases phase with
    | scanning i earliest => exact ⟨facts.1, emptied facts.2⟩
    | scanned earliest => exact ⟨facts.1, emptied facts.2⟩
    | waiting => exact ⟨facts.1, emptied facts.2⟩
    | exited => exact facts
    | starting => trivial
    | guard => trivial
    | unlocked => trivial

/-- The poll thread at the head of its loop. -/
theorem initial (staged : Staged start entries) (isExit : start.isExit = false) :
    Draining start entries { phase := .guard, logger := start }
      { pending := entries, taken := [] } where
  staged := staged
  emptied := fun _ registered unregistered => absurd registered unregistered
  merged := .initial rfl
  writes := by simp
  sublist := List.Sublist.refl _
  deletions := List.Perm.refl _
  dying := fun _ dying => dying
  isStop := rfl
  isExit := isExit
  outfd := rfl
  phase := trivial

end Draining

/-! ## Runs of the poll thread -/

section Run

variable {env : Environment} {passes : Nat} {clock : Nat → Nat}
  {exits : Nat → Nat → Bool} {start : Logger} {entries : Nat → List Entry}

/-- The states of `ioPoll`, entered at the head of its loop, with threads that exit. -/
def drainRun (env : Environment) (passes : Nat) (clock : Nat → Nat)
    (exits : Nat → Nat → Bool) (start : Logger) : Nat → Poll :=
  ioPoll env passes clock exits { phase := .guard, logger := start }

theorem drainRun_succ (n : Nat) :
    drainRun env passes clock exits start (n + 1) =
      ((drainRun env passes clock exits start n).step env passes
        (clock n)).exitOwners (exits n) := rfl

/-- The states of `ioPoll` when no other thread takes a step. -/
abbrev pollRun (env : Environment) (passes : Nat) (clock : Nat → Nat) (start : Logger) :
    Nat → Poll :=
  drainRun env passes clock (fun _ _ => false) start

theorem pollRun_succ (n : Nat) :
    pollRun env passes clock start (n + 1) =
      (pollRun env passes clock start n).step env passes (clock n) := rfl

/-- A poll thread that has returned takes no more steps. -/
theorem pollRun_exited {n m : Nat} (later : n ≤ m)
    (exited : (pollRun env passes clock start n).phase = .exited) :
    (pollRun env passes clock start m).phase = .exited := by
  induction later with
  | refl => exact exited
  | step _ induction => rw [pollRun_succ, Poll.step, induction]; exact induction

theorem drainRun_draining (staged : Staged start entries)
    (bounded : ∀ ring, ∀ entry ∈ entries ring, entry.timestamp < uint64Max)
    (isExit : start.isExit = false) (valid : start.outfd ≠ -1)
    (formats : ∀ n,
      EntryFormats env passes (clock n) (drainRun env passes clock exits start n))
    (n : Nat) :
    ∃ state, Draining start entries (drainRun env passes clock exits start n) state := by
  induction n with
  | zero => exact ⟨_, Draining.initial staged isExit⟩
  | succ n induction =>
      rcases induction with ⟨state, draining⟩
      rcases draining.step bounded valid (formats n) with ⟨after, kept, _⟩
      exact ⟨after, kept.exitOwners (exits n)⟩

/-- From every state on, the poll thread comes to a point where it waits or exits. -/
theorem drainRun_rests
    (bounded : ∀ ring, ∀ entry ∈ entries ring, entry.timestamp < uint64Max)
    (valid : start.outfd ≠ -1)
    (formats : ∀ n,
      EntryFormats env passes (clock n) (drainRun env passes clock exits start n))
    (n : Nat) {state : Merge.State Nat Entry}
    (draining : Draining start entries (drainRun env passes clock exits start n) state) :
    ∃ m, n ≤ m ∧ ((drainRun env passes clock exits start m).phase = .waiting ∨
      (drainRun env passes clock exits start m).phase = .exited) := by
  -- The induction is on the distance to the end of the last iteration with an entry.
  induction far : distance start (drainRun env passes clock exits start n) state
      using Nat.strong_induction_on generalizing n state with
  | _ _ induction =>
      rcases draining.step bounded valid (formats n) with ⟨after, kept, nearer | rests⟩
      · have next := kept.exitOwners (exits n)
        rw [← drainRun_succ] at next
        rcases induction _ (far ▸ nearer) (n + 1) next rfl with ⟨m, later, rests⟩
        exact ⟨m, by omega, rests⟩
      · exact ⟨n, Nat.le_refl n, rests⟩

end Run

/-! ## What was written -/

/-- The calls of `write` since a state. -/
def written (start : Logger) (poll : Poll) : List Write :=
  poll.logger.writes.drop start.writes.length

/-- The entries of one buffer that were written since a state. -/
def writtenFrom (start : Logger) (poll : Poll) (ring : Nat) : List Block :=
  ((written start poll).filter (fun write => write.ring = ring)).map Write.entry

/-- The time that the producer had recorded in the entry. -/
def Write.timestamp (write : Write) : Nat := LittleEndian.value (write.entry.take 8)

theorem Entry.value_take_block (entry : Entry) :
    LittleEndian.value (entry.block.take 8) = entry.timestamp := by
  rw [entry.block_eq, List.take_left' (LittleEndian.bytes_length _ _)]
  exact LittleEndian.value_bytes_of_lt entry.timestampFits

namespace Draining

variable {start : Logger} {entries : Nat → List Entry} {poll : Poll}
  {state : Merge.State Nat Entry}

theorem written_origin (draining : Draining start entries poll state) :
    (written start poll).map (fun write => (write.ring, write.entry)) =
      state.taken.map (fun taken => (taken.1, taken.2.block)) := by
  rw [written, List.map_drop, draining.writes]
  exact List.drop_left' (List.length_map _)

/-- What was written of a buffer and what it still holds is what it held. -/
theorem writtenFrom_append (draining : Draining start entries poll state) (ring : Nat) :
    writtenFrom start poll ring ++ (state.pending ring).map Entry.block =
      (entries ring).map Entry.block := by
  have origin := congrArg
    (fun pairs => (pairs.filter (fun pair => pair.1 = ring)).map Prod.snd)
    draining.written_origin
  simp only [List.filter_map, List.map_map, Function.comp_def] at origin
  rw [← Merge.conserved draining.merged ring, List.map_append, Merge.State.takenFrom,
    List.map_map, writtenFrom]
  exact congrArg (· ++ _) origin

/-- Where nothing is pending everything was written. -/
theorem writtenFrom_eq (draining : Draining start entries poll state) {ring : Nat}
    (nothing : state.pending ring = []) :
    writtenFrom start poll ring = (entries ring).map Entry.block := by
  have all := draining.writtenFrom_append ring
  rw [nothing, List.map_nil, List.append_nil] at all
  exact all

theorem written_timestamps (draining : Draining start entries poll state) :
    (written start poll).map Write.timestamp =
      state.taken.map (fun taken => taken.2.timestamp) := by
  have origin := congrArg
    (List.map fun pair : Nat × Block => LittleEndian.value (pair.2.take 8))
    draining.written_origin
  simp only [List.map_map, Function.comp_def, Entry.value_take_block] at origin
  exact origin

end Draining

end StaticLog.Backend
