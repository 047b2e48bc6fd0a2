import BdevUbi.ReadAccounting

/-!
Entries of the ring that are prepared and not yet submitted. A successful
`io_uring_submit` takes all of them; a failing one leaves them, and the two places that call
it count their entries differently. An image read that is prepared is still an active READ,
while a stripe fetch that could not be submitted has given its slot back.
-/

namespace BdevUbi
open Counting

variable {dev : UbiBdev} {s₀ s t : State} {l : Label} {c : ChId}

/-- The READ that an entry reads image bytes for, if it is no stripe fetch. -/
def Sqe.reader (sqe : Sqe) : Option ReqId :=
  match sqe.userData with
  | .bdevIo id => some id
  | .stripeFetch _ => none

def State.readers (s : State) (c : ChId) : List ReqId := (s.channel c).sqes.filterMap Sqe.reader

/-- The stripe fetches that are prepared. -/
def State.stuckFetches (s : State) (c : ChId) : Nat :=
  (s.channel c).sqes.countP fun sqe => sqe.reader = none

@[simp, grind =] theorem reader_stripeSqe (k x : Nat) : (stripeSqe dev k x).reader = none := rfl

@[simp, grind =] theorem reader_imageReadSqe (id : ReqId) (r : Request) :
    (imageReadSqe dev id r).reader = some id := rfl

@[grind =] theorem reader_eq_some {sqe : Sqe} {id : ReqId} :
    sqe.reader = some id ↔ sqe.userData = .bdevIo id := by
  unfold Sqe.reader
  cases sqe.userData <;> simp

theorem sqes_length (s : State) (c : ChId) :
    (s.channel c).sqes.length = (s.readers c).length + s.stuckFetches c := by
  rw [State.readers, List.length_filterMap_eq_countP, State.stuckFetches,
    List.length_eq_countP_add_countP fun sqe => (Sqe.reader sqe).isSome]
  simp

/-- The entries of a ring belong to READs of its own channel. -/
def RingRouted (s : State) : Prop :=
  ∀ c sqe id, sqe ∈ s.ringEntries c → sqe.userData = .bdevIo id → (s.bdevIo id).ubiCh = c

theorem ringRouted_act (inv : RequestsPlaced s) (routed : RingRouted s) (act : Act dev s l t) :
    RingRouted t := by
  intro c e id here mine
  have listed : ∀ c d rest, (s.channel d).io = id :: rest → e ∉ s.ringEntries c :=
    fun c d rest first entry =>
      inv.not_due_of_listed (c := d) (by simp [first]) (.inr (.inl ⟨c, e, entry, mine⟩))
  specialize routed c e id
  specialize listed c
  cases act
  case uringFetch d i k sqe res entry tag bound | uringRead d i k sqe res entry tag bound =>
    have := List.mem_of_getElem? entry
    grind -linarith [State.ringEntries, List.mem_of_mem_eraseIdx]
  all_goals grind -linarith [State.ringEntries, imageReadSqe, stripeSqe]

/-- The failing submissions of stripe fetches on a channel since the last one that succeeded. -/
def failedSubmits (c : ChId) : List Obs → Nat
  | [] => 0
  | .fetchSubmit d _ _ ok :: log =>
    if d = c then if ok then 0 else failedSubmits c log + 1 else failedSubmits c log
  | _ :: log => failedSubmits c log

/-- Only a failing submission leaves the entry of a stripe fetch behind. -/
theorem stuckFetches_act (bound : s.stuckFetches c ≤ failedSubmits c s.log)
    (act : Act dev s l t) : t.stuckFetches c ≤ failedSubmits c t.log := by
  simp only [State.stuckFetches] at *
  cases act <;> grind -linarith [failedSubmits]

theorem RequestsPlaced.readers_nodup (inv : RequestsPlaced s) (c : ChId) : (s.readers c).Nodup := by
  refine List.nodup_iff_count_le_one.mpr fun id => ?_
  obtain ⟨loc, placed⟩ := inv.placed id
  have once : s.occurrences id (.ring c) ≤ 1 := by
    rw [placed.counts]
    split <;> omega
  refine le_trans ?_ once
  rw [State.readers, List.count_filterMap, State.occurrences, State.ringEntries,
    List.append_assoc, List.countP_append]
  refine (List.countP_mono_left fun sqe _ tag => ?_).trans (Nat.le_add_right _ _)
  simpa [reader_eq_some] using tag

theorem ReadsCounted.readers_le (inv : ReadsCounted s) (routed : RingRouted s) (c : ChId) :
    (s.readers c).length ≤ (s.channel c).activeReads := by
  refine (inv.counted c).length_le (inv.placed.readers_nodup c) fun id here => ?_
  obtain ⟨sqe, prepared, reader⟩ := List.mem_filterMap.mp here
  have tag := reader_eq_some.mp reader
  have entry : sqe ∈ s.ringEntries c := by simp [State.ringEntries, prepared]
  have flight := inv.routed id (.inr (.inl ⟨c, sqe, entry, tag⟩))
  rwa [routed c sqe id entry tag] at flight

/-- What holds of the prepared entries wherever a run passes. -/
structure EntriesCounted (s : State) : Prop where
  reads : ReadsCounted s
  routed : RingRouted s
  stuck : ∀ c, s.stuckFetches c ≤ failedSubmits c s.log

theorem entriesCounted_act (inv : EntriesCounted s) (act : Act dev s l t) : EntriesCounted t :=
  ⟨readsCounted_act inv.reads act, ringRouted_act inv.reads.placed inv.routed act,
    fun c => stuckFetches_act (inv.stuck c) act⟩

theorem entriesCounted_passes {base : Bytes} (created : Created dev base s₀)
    (run : Passes dev s₀ s) : EntriesCounted s := by
  refine run.invariant entriesCounted_act ⟨readsCounted_created created, ?_, ?_⟩
  all_goals obtain ⟨table, _, rfl⟩ := created
  · intro c sqe id entry
    simp [State.ringEntries, newState, newChannel] at entry
  · intro c
    exact Nat.le_refl 0

/-- The ring has an entry for every READ that may be active and for seven stripe fetches. -/
theorem EntriesCounted.room (inv : EntriesCounted s)
    (few : failedSubmits c s.log < ubiMaxActiveStripeFetches) :
    (s.channel c).sqes.length < ubiUringQueueSize := by
  have readers := (inv.reads.readers_le inv.routed c).trans (inv.reads.limited c)
  have stuck := inv.stuck c
  rw [sqes_length]
  simp only [ubiMaxActiveStripeFetches, ubiMaxConcurrentReads, ubiUringQueueSize] at *
  omega

theorem startFetch_ok (dev : UbiBdev) (k : Nat) (ret : Int)
    (room : (s.channel c).sqes.length < ubiUringQueueSize) :
    ∃ t, ubiStartFetchStripe dev (assignSlot s c k) c k ret = .ok t := by
  have same : ((assignSlot s c k).channel c).sqes = (s.channel c).sqes := by
    rw [assignSlot_eq]
    simp
  rw [ubiStartFetchStripe, same, if_neg (Nat.not_le.mpr room)]
  split <;> exact ⟨_, rfl⟩

/-- If the ring runs out of entries, it does so after eight failing submissions in a row. -/
theorem startStripeFetches_stuck {env : PollEnv} {free : List Nat} {stop : Halt}
    (inv : EntriesCounted s) (nodup : free.Nodup)
    (idle : ∀ k ∈ free, (s.slot c k).active = false)
    (slots : ∀ k ∈ free, k < ubiMaxActiveStripeFetches)
    (h : startStripeFetches dev c env free s = .error stop) :
    ∃ u, Passes dev s u ∧ ubiMaxActiveStripeFetches ≤ failedSubmits c u.log := by
  induction free generalizing s with
  | nil => cases h
  | cons k free ih =>
      rw [startStripeFetches] at h
      split at h
      · cases h
      next nonempty =>
      by_cases few : failedSubmits c s.log < ubiMaxActiveStripeFetches
      · obtain ⟨next, start⟩ := startFetch_ok dev k (env.fetchSubmitRet k) (inv.room few)
        rw [start] at h
        obtain ⟨fresh, nodup⟩ := List.nodup_cons.mp nodup
        have act := startFetch_act (by simpa [stripeQueueEmpty] using nonempty)
          (idle k List.mem_cons_self) (slots k List.mem_cons_self) start
        have still : ∀ j ∈ free, (next.slot c j).active = false := by
          intro j hj
          rw [startFetch_other (by rintro rfl; exact fresh hj) start]
          exact idle j (List.mem_cons_of_mem _ hj)
        obtain ⟨u, later, many⟩ := ih (entriesCounted_act inv act) nodup still
          (fun j hj => slots j (List.mem_cons_of_mem _ hj)) h
        exact ⟨u, .head ⟨_, act⟩ later, many⟩
      · exact ⟨s, .refl, Nat.not_lt.mp few⟩

/-- While fewer than eight submissions of stripe fetches in a row have failed on a channel, its
ring has an entry left for each one that asks, and no poll finds it without one before. -/
theorem fetch_finds_entry {base : Bytes} (created : Created dev base s₀) (run : Passes dev s₀ s)
    (c : ChId) :
    (failedSubmits c s.log < ubiMaxActiveStripeFetches →
      (s.channel c).sqes.length < ubiUringQueueSize ∧
      ∀ k ret, ∃ t, ubiStartFetchStripe dev (assignSlot s c k) c k ret = .ok t) ∧
    ∀ env stop,
      startStripeFetches dev c env (freeStripeFetches (s.channel c)) s = .error stop →
      ∃ u, Passes dev s u ∧ ubiMaxActiveStripeFetches ≤ failedSubmits c u.log := by
  have inv := entriesCounted_passes created run
  obtain ⟨nodup, free⟩ := freeStripeFetches_spec (s.channel c)
  exact ⟨fun few => ⟨inv.room few, fun k ret => startFetch_ok dev k ret (inv.room few)⟩,
    fun env stop h => startStripeFetches_stuck inv nodup (fun k hk => (free k hk).1)
      (fun k hk => (free k hk).2) h⟩

def PollEnv.noSubmit : PollEnv :=
  { PollEnv.success with fetchSubmitRet := fun _ => -1, submitRet := -1 }

/-- The first fetch fails to be submitted, and another stripe is queued. -/
def failThenQueue : List Event :=
  [.submit 0 0 ⟨.write, 0, 1, fun _ => 0⟩, .poll 0 .noSubmit,
    .submit 0 1 ⟨.write, 1, 1, fun _ => 0⟩]

theorem fetch_finds_entry_failThenQueue :
    ∃ s, Reach (threeBlockBdev false) anyStep (blankState (threeBlockBdev false)) s ∧
      s.stuckFetches 0 = 1 ∧ (s.queue 0).contents ubiFetchQueueSize = [1] ∧
      ∃ t, ubiStartFetchStripe (threeBlockBdev false) (assignSlot s 0 0) 0 0 0 = .ok t := by
  have ran : (Runs.exec (step (threeBlockBdev false)) (fun _ _ => true)
      (blankState (threeBlockBdev false)) failThenQueue).any (fun s =>
        decide (s.stuckFetches 0 = 1 ∧ failedSubmits 0 s.log = 1 ∧
          (s.queue 0).contents ubiFetchQueueSize = [1])) = true := by decide +kernel
  obtain ⟨s, run, test⟩ := Runs.exists_reach_of_exec (fun _ _ _ _ => trivial) ran
  simp only [decide_eq_true_eq] at test
  obtain ⟨stuck, one, queued⟩ := test
  have found := fetch_finds_entry (created_blankState _) (reach_passes run) 0
  exact ⟨s, run, stuck, queued, (found.1 (by simp [one, ubiMaxActiveStripeFetches])).2 0 0⟩

/-- A bdev of eleven blocks over an image of ten, with stripes of one block. -/
def elevenBlockBdev : UbiBdev where
  blocklen := 65536
  blockcnt := 139
  imageSize := 655360
  image := fun _ => 7
  stripeSizeKb := 64
  noSync := false
  copyOnRead := false
  layout := ⟨1, 0, 128, 10⟩
  imageSize_lt := by decide
  blockcnt_lt := by decide
  init := by decide

/-- READs of an image block take 24 entries, the fetches for eight WRITEs take the rest, and a
ninth WRITE needs one. -/
def fillRing : List Event :=
  (List.range 24).map (fun id => .submit 0 id ⟨.read, 0, 1, fun _ => 0⟩) ++
    [.poll 0 .noSubmit] ++
  (List.range 8).map (fun i => .submit 0 (24 + i) ⟨.write, 1 + i, 1, fun _ => 0⟩) ++
    [.poll 0 .noSubmit, .submit 0 32 ⟨.write, 9, 1, fun _ => 0⟩]

/-- Eight failing submissions are enough for `ubi_start_fetch_stripe` to use a null entry. -/
theorem failed_submits_fill_ring :
    ∃ s, Reach elevenBlockBdev anyStep (blankState elevenBlockBdev) s ∧
      failedSubmits 0 s.log = ubiMaxActiveStripeFetches ∧
      (s.channel 0).sqes.length = ubiUringQueueSize ∧
      step elevenBlockBdev s (.poll 0 .success) = .error .undefinedBehaviour := by
  have ran : (Runs.exec (step elevenBlockBdev) (fun _ _ => true) (blankState elevenBlockBdev)
      fillRing).any (fun s => decide (failedSubmits 0 s.log = ubiMaxActiveStripeFetches ∧
          (s.channel 0).sqes.length = ubiUringQueueSize) &&
        match step elevenBlockBdev s (.poll 0 .success) with
        | .error .undefinedBehaviour => true
        | _ => false) = true := by decide +kernel
  obtain ⟨s, run, test⟩ := Runs.exists_reach_of_exec (fun _ _ _ _ => trivial) ran
  simp only [Bool.and_eq_true, decide_eq_true_eq] at test
  obtain ⟨⟨eight, full⟩, stops⟩ := test
  refine ⟨s, run, eight, full, ?_⟩
  split at stops
  · assumption
  · cases stops

theorem hasReads_act (counted : s.readers c ≠ [] → (s.channel c).hasReads ≠ 0)
    (act : Act dev s l t) : t.readers c ≠ [] → (t.channel c).hasReads ≠ 0 := by
  simp only [State.readers] at *
  cases act <;> grind -linarith

theorem hasReads_reach {base : Bytes} {allowed : State → Event → Prop}
    (created : Created dev base s₀) (run : Reach dev allowed s₀ s) :
    s.readers c ≠ [] → (s.channel c).hasReads ≠ 0 := by
  obtain ⟨table, _, rfl⟩ := created
  exact reach_invariant hasReads_act run fun some => absurd rfl some

theorem completeCqe_ring (dev : UbiBdev) (s : State) (c : ChId) (cqe : Cqe) (rest : List Cqe)
    (ret : Int) :
    ((completeCqe dev s c cqe rest ret).2.channel c).sqes = (s.channel c).sqes ∧
      ((completeCqe dev s c cqe rest ret).2.channel c).hasReads = (s.channel c).hasReads := by
  unfold completeCqe
  split
  · simp only [ubiCompleteFetchStripe]
    repeat' split
    all_goals simp [ubiFailStripeFetch, ubiSetStripeStatus, cqeSeen, State.setFetch,
      State.setChannel, State.emit, State.startWrite]
  · simp only [ubiCompleteReadFromImage]
    split <;> simp [ubiCompleteIo_eq, cqeSeen, State.setChannel, State.emit]

theorem completeBatch_ring (dev : UbiBdev) (c : ChId) (ret : Nat → Int) (batch i : Nat) (last : Int)
    (s : State) :
    ((completeBatch dev c ret batch i last s).2.channel c).sqes = (s.channel c).sqes ∧
      ((completeBatch dev c ret batch i last s).2.channel c).hasReads =
        (s.channel c).hasReads := by
  induction batch generalizing i last s with
  | zero => exact ⟨rfl, rfl⟩
  | succ batch ih =>
      rw [completeBatch]
      split
      · exact ⟨rfl, rfl⟩
      · next cqe rest first =>
        obtain ⟨sqes, hasReads⟩ := completeCqe_ring dev s c cqe rest (ret i)
        obtain ⟨sqes', hasReads'⟩ := ih (i + 1) _ (completeCqe dev s c cqe rest (ret i)).2
        exact ⟨sqes'.trans sqes, hasReads'.trans hasReads⟩

theorem submitReads_hasReads {ret : Int} (submits : 0 ≤ ret) :
    ((submitReads s c ret).channel c).hasReads = 0 := by
  unfold submitReads
  split
  · simp [Int.not_lt.mpr submits, State.setChannel]
  · next none => simpa using none

/-- A poll whose `io_uring_submit` does not fail leaves no image read prepared, unless it finds
both queues empty: then it returns before the submission, and what a buffer callback has
prepared since the last poll stays in the ring. -/
theorem poll_submits_reads_iff {base : Bytes} (created : Created dev base s₀)
    (run : Reach dev anyStep s₀ s) {env : PollEnv} {status : PollerStatus}
    (submits : 0 ≤ env.submitRet) (h : ubiIoPoll dev s c env = .ok (status, t)) :
    (t.readers c = [] ∧ (t.channel c).hasReads = 0) ↔
      (s.channel c).hasReads = 0 ∨ (s.channel c).io ≠ [] ∨
        stripeQueueEmpty (s.channel c) = false := by
  have polled : step dev s (.poll c env) = .ok t := by
    rw [step, h]
    rfl
  have after : Reach dev anyStep s₀ t := run.tail trivial polled
  have shown : (t.channel c).hasReads = 0 → t.readers c = [] := by
    contrapose!
    exact hasReads_reach created after
  have kept := (completeBatch_ring dev c env.stripeWriteRet
    (min 64 (s.channel c).cqes.length) 0 0 s).2
  rw [and_iff_right_of_imp shown]
  unfold ubiIoPoll at h
  dsimp only at h
  by_cases empty : (s.channel c).io = [] ∧ stripeQueueEmpty (s.channel c) = true
  · have early : t = (ubiCompleteImageIo dev s c env).2 := by
      simp only [empty.1, empty.2, List.isEmpty_nil, Bool.and_self, Bool.true_and, if_true] at h
      split at h <;> cases h <;> rfl
    rw [early, ubiCompleteImageIo, kept]
    simp [empty]
  · have busy : ((s.channel c).io.isEmpty && stripeQueueEmpty (s.channel c)) = false := by
      simpa [List.isEmpty_iff] using empty
    simp only [busy, Bool.false_and, Bool.false_eq_true, if_false] at h
    split at h
    · cases h
    split at h
    · cases h
    cases h
    have queued : (s.channel c).io ≠ [] ∨ stripeQueueEmpty (s.channel c) = false := by
      by_contra none
      push Not at none
      exact empty ⟨none.1, by simpa using none.2⟩
    simp [submitReads_hasReads submits, queued]

theorem poll_submits_reads_inline :
    ∃ s status t, Reach (threeBlockBdev false) anyStep (blankState (threeBlockBdev false)) s ∧
      ubiIoPoll (threeBlockBdev false) s 0 .success = .ok (status, t) ∧
      (t.channel 0).submitted.length = 1 ∧ t.readers 0 = [] ∧ (t.channel 0).hasReads = 0 := by
  have ran : (Runs.exec (step (threeBlockBdev false)) (fun _ _ => true)
      (blankState (threeBlockBdev false)) [.submit 0 0 ⟨.read, 0, 1, fun _ => 0⟩]).any (fun s =>
        decide ((s.channel 0).io ≠ []) &&
        match ubiIoPoll (threeBlockBdev false) s 0 .success with
        | .ok (_, t) => decide ((t.channel 0).submitted.length = 1)
        | .error _ => false) = true := by decide +kernel
  obtain ⟨s, run, test⟩ := Runs.exists_reach_of_exec (fun _ _ _ _ => trivial) ran
  simp only [Bool.and_eq_true, decide_eq_true_eq] at test
  obtain ⟨queued, test⟩ := test
  split at test
  · next status t polled =>
    have left := (poll_submits_reads_iff (created_blankState _) run (by decide) polled).mpr
      (.inr (.inl queued))
    exact ⟨s, status, t, run, polled, by simpa using test, left⟩
  · cases test

/-- A READ of an image block gets its buffer after the poll that dispatched it. -/
def lateBuffer : List Event :=
  [.submit 0 0 ⟨.read, 0, 1, fun _ => 0⟩,
    .poll 0 { PollEnv.success with getBuf := fun _ => .later }, .getBuf 0 true 0]

/-- The read is prepared, and as long as nothing else arrives on the channel every poll returns
without submitting it. -/
theorem late_read_never_submitted :
    ∃ s, Reach (threeBlockBdev false) anyStep (blankState (threeBlockBdev false)) s ∧
      s.readers 0 = [0] ∧ (s.channel 0).hasReads = 1 ∧ (s.channel 0).submitted = [] ∧
      ∀ env, ubiIoPoll (threeBlockBdev false) s 0 env = .ok (.idle, s) := by
  have ran : (Runs.exec (step (threeBlockBdev false)) (fun _ _ => true)
      (blankState (threeBlockBdev false)) lateBuffer).any (fun s =>
        decide (s.readers 0 = [0] ∧ (s.channel 0).hasReads = 1 ∧ (s.channel 0).submitted = [] ∧
          (s.channel 0).cqes = [] ∧ (s.channel 0).io = [] ∧
          stripeQueueEmpty (s.channel 0) = true)) = true := by decide +kernel
  obtain ⟨s, run, test⟩ := Runs.exists_reach_of_exec (fun _ _ _ _ => trivial) ran
  simp only [decide_eq_true_eq] at test
  obtain ⟨reader, hasReads, submitted, cqes, io, queue⟩ := test
  refine ⟨s, run, reader, hasReads, submitted, fun env => ?_⟩
  simp [ubiIoPoll, ubiCompleteImageIo, cqes, io, queue, completeBatch]

end BdevUbi
