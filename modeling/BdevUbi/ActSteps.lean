import BdevUbi.Acts
import Mathlib.Logic.Relation
import Mathlib.Tactic.Ring

/-!
Every event is a sequence of acts. The loops of the poller are taken apart here,
so that no later proof unfolds a function of the module.
-/

namespace BdevUbi
open Relation

variable {dev : UbiBdev} {s t : State}

/-- A finite sequence of acts that no condition on events speaks about. -/
abbrev Quietly (dev : UbiBdev) : State → State → Prop :=
  ReflTransGen fun s t => Act dev s .quiet t

theorem and_mask_eq_mod (n : Nat) : n &&& (ubiFetchQueueSize - 1) = n % ubiFetchQueueSize :=
  Nat.and_two_pow_sub_one_eq_mod n 15

theorem stripeStart_bytes (dev : UbiBdev) (x : Nat) :
    dev.stripeStart x * dev.blocklen = ubiMetadataSize + dev.stripeBytes * x := by
  rw [UbiBdev.stripeStart, Nat.add_mul, dev.dataOffset_bytes, dev.stripeBytes_eq]
  ring

theorem stripe_write_range (dev : UbiBdev) (x : Nat) :
    (dev.stripeBytes * x + ubiMetadataSize) / dev.blocklen = dev.stripeStart x ∧
      dev.stripeBytes / dev.blocklen = dev.stripeBlockCount := by
  have pos := dev.blocklen_pos
  constructor
  · rw [Nat.add_comm, ← stripeStart_bytes, Nat.mul_div_cancel _ pos]
  · rw [dev.stripeBytes_eq, Nat.mul_div_cancel _ pos]

theorem metadata_blocks (dev : UbiBdev) :
    ubiMetadataSize / dev.blocklen = dev.dataOffsetBlocks := by
  rw [← dev.dataOffset_bytes, Nat.mul_div_cancel _ dev.blocklen_pos]

theorem baseAccepts_fits {startBlock numBlocks : Nat} {ret : Int}
    (h : baseAccepts dev startBlock numBlocks ret = true) :
    startBlock + numBlocks ≤ dev.blockcnt := by
  simp only [baseAccepts, Bool.and_eq_true, decide_eq_true_eq] at h
  exact h.1

theorem completeCqe_act {c : ChId} {cqe : Cqe} {rest : List Cqe} (ret : Int)
    (first : (s.channel c).cqes = cqe :: rest) :
    Act dev s .quiet (completeCqe dev s c cqe rest ret).2 := by
  obtain ⟨sqe, res⟩ := cqe
  cases tag : sqe.userData with
  | stripeFetch k =>
      simp only [completeCqe, tag, ubiCompleteFetchStripe, cqeSeen, State.setChannel,
        Function.update_self, State.emit]
      by_cases bad : res < 0
      · convert (Act.fetchReadFailed first tag bad : Act dev _ .quiet _) using 1
        simp [bad, ubiFailStripeFetch, ubiSetStripeStatus, State.setFetch, State.setChannel]
      · obtain ⟨start, blocks⟩ := stripe_write_range dev (s.slot c k).stripeIdx
        cases ok : baseAcceptsBytes dev (dev.stripeBytes * (s.slot c k).stripeIdx + ubiMetadataSize)
            dev.stripeBytes ret with
        | false =>
            convert (Act.fetchWriteRefused first tag (Int.not_lt.mp bad) : Act dev _ .quiet _)
              using 1
            simp [bad, ubiFailStripeFetch, ubiSetStripeStatus, State.setFetch, State.setChannel]
        | true =>
            have accepted := ok
            simp only [baseAcceptsBytes, start, blocks, Bool.and_eq_true] at accepted
            convert (Act.fetchWriteStarted first tag (Int.not_lt.mp bad)
              (baseAccepts_fits accepted.2) : Act dev _ .quiet _) using 1
            simp [bad, State.startWrite, start, blocks]
  | bdevIo id =>
      convert (Act.imageReadDone first tag : Act dev _ .quiet _) using 1
      simp only [completeCqe, tag, ubiCompleteReadFromImage, ubiCompleteIo_eq,
        ← State.released_cqeSeen]
      by_cases bad : res < 0
      · simp [bad, State.emit, cqeSeen, State.setChannel, State.released]
      · simp [bad, Int.not_lt.mp bad, State.emit, cqeSeen, State.setChannel, State.released]

theorem completeBatch_acts (c : ChId) (ret : Nat → Int) (batch i : Nat) (last : Int) (s : State) :
    Quietly dev s (completeBatch dev c ret batch i last s).2 := by
  induction batch generalizing i last s with
  | zero => exact .refl
  | succ batch ih =>
      rw [completeBatch]
      split
      · exact .refl
      · next cqe rest first => exact .head (completeCqe_act (ret i) first) (ih _ _ _)

theorem assignSlot_eq (s : State) (c : ChId) (k : Nat) :
    assignSlot s c k = { s with
      channel := Function.update s.channel c { s.channel c with
        stripeFetchQueue := (s.queue c).pop ubiFetchQueueSize
        stripeFetches := Function.update (s.channel c).stripeFetches k
          { s.slot c k with active := true, stripeIdx := (s.queue c).entries (s.queue c).head } }
      log := .assigned c k ((s.queue c).entries (s.queue c).head) (slotBusy s c k) ::
        .dequeued c ((s.queue c).entries (s.queue c).head) :: s.log } := by
  simp [assignSlot, dequeueStripe, State.setFetch, State.setChannel, State.emit, slotBusy,
    State.ringEntries, CircularQueue.pop, and_mask_eq_mod]

theorem startFetch_act {c : ChId} {k : Nat} {ret : Int}
    (nonempty : (s.queue c).head ≠ (s.queue c).tail) (free : (s.slot c k).active = false)
    (slot : k < ubiMaxActiveStripeFetches)
    (h : ubiStartFetchStripe dev (assignSlot s c k) c k ret = .ok t) : Act dev s .quiet t := by
  rw [assignSlot_eq, ubiStartFetchStripe] at h
  simp only [Function.update_self] at h
  split at h
  · cases h
  next room =>
  split at h
  · cases h
    convert (Act.fetchSubmitFailed nonempty free slot (Nat.not_le.mp room) : Act dev _ .quiet _)
      using 1
    simp [ubiFailStripeFetch, prepareFetch, ubiSetStripeStatus, State.setFetch, State.setChannel,
      State.emit]
  · cases h
    convert (Act.fetchStarted nonempty free slot (Nat.not_le.mp room) : Act dev _ .quiet _) using 1
    simp [ioUringSubmit, prepareFetch, State.setChannel, State.emit]

theorem startFetch_other {c : ChId} {k j : Nat} {ret : Int} (other : j ≠ k)
    (h : ubiStartFetchStripe dev (assignSlot s c k) c k ret = .ok t) :
    (t.slot c j).active = (s.slot c j).active := by
  rw [assignSlot_eq, ubiStartFetchStripe] at h
  simp only [Function.update_self] at h
  split at h
  · cases h
  split at h
  · cases h
    simp [ubiFailStripeFetch, prepareFetch, ubiSetStripeStatus, State.setFetch, State.setChannel,
      State.emit, State.slot, other]
  · cases h
    simp [ioUringSubmit, prepareFetch, State.setChannel, State.emit, State.slot, other]

theorem startStripeFetches_acts {c : ChId} {env : PollEnv} {free : List Nat}
    (nodup : free.Nodup) (idle : ∀ k ∈ free, (s.slot c k).active = false)
    (slots : ∀ k ∈ free, k < ubiMaxActiveStripeFetches)
    (h : startStripeFetches dev c env free s = .ok t) : Quietly dev s t := by
  induction free generalizing s with
  | nil =>
      cases h
      exact .refl
  | cons k free ih =>
      rw [startStripeFetches] at h
      split at h
      · cases h
        exact .refl
      next nonempty =>
      split at h
      · cases h
      next next start =>
      obtain ⟨fresh, nodup⟩ := List.nodup_cons.mp nodup
      have act := startFetch_act (by simpa [stripeQueueEmpty] using nonempty)
        (idle k List.mem_cons_self) (slots k List.mem_cons_self) start
      refine .head act (ih nodup ?_ ?_ h)
      · intro j hj
        rw [startFetch_other (by rintro rfl; exact fresh hj) start]
        exact idle j (List.mem_cons_of_mem _ hj)
      · exact fun j hj => slots j (List.mem_cons_of_mem _ hj)

theorem getBufForReadCb_act {id : ReqId} {success : Bool} {ret : Int}
    (wait : s.waiting id = true) (h : getBufForReadCb dev s id success ret = .ok t) :
    Act dev s .quiet t ∧ ∀ c, (t.channel c).io = (s.channel c).io := by
  unfold getBufForReadCb at h
  split at h
  · cases h
  next r req =>
  dsimp only at h
  have refused : Act dev s .quiet (ubiCompleteIo (grantBuffer s id) id false) ∧
      ∀ c, ((ubiCompleteIo (grantBuffer s id) id false).channel c).io = (s.channel c).io := by
    rw [ubiCompleteIo_eq]
    exact ⟨Act.bufferRefused wait req, fun c => (grantBuffer s id).released_io id c⟩
  split at h
  · cases h
    exact refused
  split at h
  · next gate =>
    unfold ubiSubmitReadRequest at h
    split at h
    · next next start =>
      cases h
      dsimp only at start
      split at start
      · next ok =>
        cases start
        exact ⟨Act.baseReadStarted wait req gate (baseAccepts_fits ok), fun _ => rfl⟩
      · cases start
    · cases h
      exact refused
  next gate =>
  split at h
  · cases h
  next known =>
  obtain ⟨unfetched, image⟩ := not_or.mp gate
  obtain ⟨status, status_eq⟩ := Option.ne_none_iff_exists'.mp known
  split at h
  · cases h
    exact refused
  next room =>
  cases h
  constructor
  · refine Act.imageReadPrepared wait req status_eq ?_ (Nat.not_le.mp image) (Nat.not_le.mp room)
    rintro rfl
    exact unfetched status_eq
  · intro c
    simp only [prepareImageRead, State.setChannel, grantBuffer, Function.update_apply]
    split
    · next same => rw [same]
    · rfl

theorem dispatch_acts {c : ChId} {id : ReqId} {rest : List ReqId} {r : Request} {env : PollEnv}
    (first : (s.channel c).io = id :: rest) (req : s.request id = some r)
    (limit : r.type = .read → (s.channel c).activeReads < ubiMaxConcurrentReads)
    (gate : r.type ≠ .flush → Served dev s r) (h : dispatch dev s c id rest r env = .ok t) :
    Quietly dev s t ∧ (t.channel c).io = rest := by
  have taken : takeFirst s c id rest r = { s with
      channel := Function.update s.channel c { s.channel c with io := rest }
      bdevIo := Function.update s.bdevIo id { s.bdevIo id with
        ubiCh := c, blockOffset := r.offsetBlocks, blockCount := r.numBlocks }
      log := .unqueued c id :: s.log } := rfl
  unfold dispatch at h
  split at h
  · next type =>
    have act : Act dev s .quiet (awaitBuffer (takeFirst s c id rest r) c id) := by
      convert (Act.readDispatched first req type (limit type)
        (gate (by simp [type])) : Act dev _ .quiet _) using 1
      simp [taken, awaitBuffer, State.setChannel]
    have io : ((awaitBuffer (takeFirst s c id rest r) c id).channel c).io = rest := by
      simp [taken, awaitBuffer, State.setChannel]
    split at h
    · obtain ⟨called, same⟩ := getBufForReadCb_act (by simp [awaitBuffer]) h
      exact ⟨.head act (.single called), (same c).trans io⟩
    · cases h
      exact ⟨.single act, io⟩
  · next type =>
    cases h
    unfold ubiSubmitWriteRequest
    simp only [taken]
    cases ok : baseAccepts dev (r.offsetBlocks + dev.dataOffsetBlocks) r.numBlocks
        (env.baseRet id) with
    | true =>
        refine ⟨.single (Act.writeDispatched first req type (gate (by simp [type]))
          (baseAccepts_fits ok)), ?_⟩
        simp [State.startWrite, State.emit]
    | false =>
        refine ⟨.single (Act.writeRefused first req type (gate (by simp [type]))), ?_⟩
        simp [State.emit]
  · next type =>
    cases h
    unfold ubiSubmitFlushRequest
    simp only [taken, Function.update_self]
    have data : r.type ≠ .read ∧ r.type ≠ .write := by simp [type]
    split
    · next sync =>
      refine ⟨.single (Act.ioAnswered true first req data fun _ => sync), ?_⟩
      simp [State.complete, State.emit]
    next sync =>
    split
    · refine ⟨.single (Act.flushDispatched first req type (Bool.not_eq_true _ ▸ sync)), ?_⟩
      simp [State.startFlush]
    · refine ⟨.single (Act.ioAnswered false first req data (by simp)), ?_⟩
      simp [State.complete, State.emit]
  all_goals
    next type =>
    cases h
    refine ⟨.single (Act.ioAnswered false first req (by simp [type]) (by simp)), ?_⟩
    simp [taken, State.complete, State.emit]

theorem map_ok {b : Bool} {x : Except Halt State}
    (h : (x.map fun next => (true, next)) = .ok (b, t)) : x = .ok t := by
  cases x with
  | error _ => cases h
  | ok _ =>
      cases h
      rfl

theorem processFirst_acts {c : ChId} {id : ReqId} {rest : List ReqId} {env : PollEnv} {b : Bool}
    (first : (s.channel c).io = id :: rest)
    (h : processFirst dev s c id rest env = .ok (b, t)) :
    Quietly dev s t ∧ (b = true → (t.channel c).io = rest) := by
  unfold processFirst at h
  split at h
  · cases h
  next r req =>
  split at h
  · cases h
    exact ⟨.refl, by simp⟩
  next limit =>
  have limit : r.type = .read → (s.channel c).activeReads < ubiMaxConcurrentReads :=
    fun type => Nat.not_le.mp fun full => limit ⟨type, full⟩
  have served (gate : r.type ≠ .flush → Served dev s r)
      (h : ((dispatch dev s c id rest r env).map fun next => (true, next)) = .ok (b, t)) :
      Quietly dev s t ∧ (b = true → (t.channel c).io = rest) :=
    have ⟨acts, io⟩ := dispatch_acts first req limit gate (map_ok h)
    ⟨acts, fun _ => io⟩
  split at h
  · next image =>
    split at h
    · cases h
    · next gate =>
      cases h
      refine ⟨.single (Act.requestFailed first req image.1 image.2 gate), fun _ => ?_⟩
      simp [removeFirst, State.setChannel, State.complete, State.emit]
    · cases h
      exact ⟨.refl, by simp⟩
    · next gate =>
      split at h
      · next fetch =>
        cases h
        refine ⟨.single (Act.bugTaken first req image.1 image.2 gate fetch), fun _ => ?_⟩
        simp [removeFirst, State.setChannel, State.complete, State.emit]
      · next fetch =>
        obtain ⟨read, copy⟩ := not_or.mp fetch
        exact served (fun _ _ => .inr ⟨gate, not_not.mp read, Bool.not_eq_true _ ▸ copy⟩) h
    · next gate => exact served (fun _ _ => .inl gate) h
  · next past => exact served (fun data below => absurd ⟨data, below⟩ past) h

theorem processIo_acts {c : ChId} {env : PollEnv} {ids : List ReqId}
    (io : (s.channel c).io = ids) (h : processIo dev c env ids s = .ok t) : Quietly dev s t := by
  induction ids generalizing s with
  | nil =>
      cases h
      exact .refl
  | cons id rest ih =>
      rw [processIo] at h
      split at h
      · cases h
      · next next first =>
        cases h
        exact (processFirst_acts io first).1
      · next next first =>
        obtain ⟨acts, left⟩ := processFirst_acts io first
        exact acts.trans (ih (left rfl) h)

theorem submitReads_acts (s : State) (c : ChId) (ret : Int) :
    Quietly dev s (submitReads s c ret) := by
  unfold submitReads
  split
  · next prepared =>
    split
    · exact .refl
    · refine .single ?_
      convert (Act.readsSubmitted prepared : Act dev _ .quiet _) using 1
      simp [ioUringSubmit, State.setChannel]
  · exact .refl

theorem freeStripeFetches_spec (ch : UbiIoChannel) :
    (freeStripeFetches ch).Nodup ∧ ∀ k ∈ freeStripeFetches ch,
      (ch.stripeFetches k).active = false ∧ k < ubiMaxActiveStripeFetches := by
  refine ⟨List.nodup_range.filter _, fun k hk => ?_⟩
  simp only [freeStripeFetches, List.mem_filter, List.mem_range, Bool.not_eq_true'] at hk
  exact ⟨hk.2, hk.1⟩

theorem ubiIoPoll_acts {c : ChId} {env : PollEnv} {status : PollerStatus}
    (h : ubiIoPoll dev s c env = .ok (status, t)) : Quietly dev s t := by
  unfold ubiIoPoll at h
  dsimp only at h
  have completed : Quietly dev s (ubiCompleteImageIo dev s c env).2 :=
    completeBatch_acts c _ _ _ _ s
  split at h
  · cases h
    exact completed
  split at h
  · cases h
    exact completed
  split at h
  · cases h
  next fetching start =>
  split at h
  · cases h
  next processed process =>
  cases h
  obtain ⟨nodup, free⟩ := freeStripeFetches_spec ((ubiCompleteImageIo dev s c env).2.channel c)
  exact ((completed.trans (startStripeFetches_acts nodup (fun k hk => (free k hk).1)
    (fun k hk => (free k hk).2) start)).trans (processIo_acts rfl process)).trans
      (submitReads_acts _ _ _)

theorem uringComplete_act {c : ChId} {i : Nat} {res : Int}
    (h : uringComplete dev s c i res = .ok t) : Act dev s .quiet t := by
  unfold uringComplete at h
  split at h
  · cases h
  next sqe entry =>
  split at h
  · next bound =>
    cases h
    cases tag : sqe.userData with
    | stripeFetch k =>
        convert Act.uringFetch entry tag bound using 1
        simp [postCqe, fillBuffer, tag, State.setFetch, State.setChannel]
    | bdevIo id =>
        convert Act.uringRead entry tag bound using 1
        simp [postCqe, fillBuffer, tag, State.setChannel]
  · cases h

theorem inRange_iff {startBlock numBlocks b : Nat} :
    inRange startBlock numBlocks b = true ↔ startBlock ≤ b ∧ b < startBlock + numBlocks := by
  simp [inRange]

theorem allBlocks_iff {startBlock numBlocks : Nat} {p : Nat → Bool} :
    allBlocks startBlock numBlocks p = true ↔
      ∀ b, startBlock ≤ b → b < startBlock + numBlocks → p b = true := by
  simp only [allBlocks, List.all_eq_true, List.mem_range]
  constructor
  · intro h b low high
    have := h (b - startBlock) (by omega)
    rwa [Nat.add_sub_cancel' low] at this
  · intro h i hi
    exact h _ (by omega) (by omega)

theorem sampleBlock_act {o b : Nat} (h : sampleBlock dev o s b = .ok t) : Act dev s .quiet t := by
  unfold sampleBlock at h
  split at h
  · cases h
  next op write =>
  split at h
  · next guard =>
    cases h
    exact Act.sampled write (inRange_iff.mp guard.1) guard.2
  · cases h

theorem landBlock_act {o b : Nat} (h : landBlock o s b = .ok t) : Act dev s .quiet t := by
  unfold landBlock at h
  split at h
  · cases h
  next op write =>
  split at h
  · cases h
  next data sample =>
  split at h
  · next new =>
    cases h
    exact Act.landed write sample new
  · cases h

theorem transferBlock_act {o b : Nat} (h : transferBlock dev o s b = .ok t) :
    Act dev s .quiet t := by
  unfold transferBlock at h
  split at h
  · cases h
  next op read =>
  split at h
  · next guard =>
    cases h
    exact Act.transferred read (inRange_iff.mp guard.1) guard.2
  · cases h

theorem eachBlock_acts {move : State → Nat → Except Halt State}
    (act : ∀ {s t b}, move s b = .ok t → Act dev s .quiet t) {blocks : List Nat}
    (h : eachBlock move blocks s = .ok t) : Quietly dev s t := by
  induction blocks generalizing s with
  | nil =>
      cases h
      exact .refl
  | cons b blocks ih =>
      rw [eachBlock] at h
      split at h
      · cases h
      · next next moved => exact .head (act moved) (ih h)

theorem baseReadDone_act {o : Nat} {success : Bool} (h : baseReadDone s o success = .ok t) :
    Act dev s .quiet t := by
  unfold baseReadDone at h
  split at h
  · cases h
  next op read =>
  split at h
  · cases h
  next all =>
  cases h
  rw [ubiIoCompletionCb, ubiCompleteIo_eq]
  refine Act.readDone success read fun ok => ?_
  rw [← allBlocks_iff]
  exact not_not.mp fun missing => all ⟨ok, missing⟩

theorem landed_all {startBlock numBlocks : Nat} {made : Nat → Option Nat} {success : Bool}
    (h : ¬ (success = true ∧
      ¬ allBlocks startBlock numBlocks (fun b => (made b).isSome) = true)) :
    success = true → ∀ b, startBlock ≤ b → b < startBlock + numBlocks → made b ≠ none := by
  intro ok b low high
  have all := allBlocks_iff.mp (not_not.mp fun missing => h ⟨ok, missing⟩) b low high
  exact Option.isSome_iff_ne_none.mp all

theorem baseWriteDone_act {o : Nat} {success : Bool} {ret : Int}
    (h : baseWriteDone dev s o success ret = .ok t) : Act dev s (.writeDone o success) t := by
  unfold baseWriteDone at h
  split at h
  · cases h
  next op write =>
  split at h
  · cases h
  next all =>
  have all := landed_all all
  dsimp only at h
  split at h
  · next id cb =>
    cases h
    rw [ubiIoCompletionCb, ubiCompleteIo_eq]
    exact Act.ioWriteDone success write cb all
  · next c k cb =>
    cases h
    convert Act.stripeWriteDone success write cb all using 1
    simp [writeStripeIoCompletion, ubiSetStripeStatus, State.emit, State.setFetch,
      State.setChannel]
  · next id cb =>
    cases h
    cases success with
    | false => exact Act.metadataWriteFailed false write cb all
    | true =>
        simp only [ubiMetadataWriteCompletion, metadata_blocks]
        cases baseAccepts dev 0 dev.dataOffsetBlocks ret with
        | false => exact Act.metadataWriteFailed true write cb all
        | true =>
            convert Act.metadataWriteDone write cb (all rfl) using 1
            simp [State.startFlush]

theorem baseFlushDone_act {o : Nat} {success : Bool} {ret : Int}
    (h : baseFlushDone dev s o success ret = .ok t) : Act dev s (.flushDone o success) t := by
  unfold baseFlushDone at h
  split at h
  · cases h
  next op flush =>
  dsimp only at h
  split at h
  · next id cb =>
    cases h
    cases success with
    | false => exact Act.dataFlushFailed flush cb
    | true =>
        simp only [ubiDataFlushCompletion, metadata_blocks, State.emit]
        by_cases clean : s.stripesFetched = s.stripesFlushed
        · simpa [clean, State.complete, State.emit] using Act.dataFlushOnly flush cb clean
        · cases baseAccepts dev 0 dev.dataOffsetBlocks ret with
          | false =>
              simpa [clean, State.complete, State.emit] using
                Act.metadataWriteRefused flush cb clean
          | true => simpa [clean, State.startWrite] using Act.metadataWriteStarted flush cb clean
  · next id cb =>
    cases h
    cases success with
    | false => exact Act.metadataFlushFailed flush cb
    | true =>
        convert Act.metadataFlushDone flush cb using 1
        simp only [ubiMetadataFlushCompletion, State.complete, State.emit]
        simp only [Bool.not_true, Bool.false_eq_true, if_false, if_true, gt_iff_lt]
        congr 1
        rw [Nat.max_def]
        split <;> split <;> omega

theorem ubiGetStripeStatus_eq_some {index : Int} {status : StripeStatus} :
    ubiGetStripeStatus s index = some status ↔
      ∃ x : Nat, index = x ∧ x < ubiMaxStripes ∧ s.stripeStatus x = status := by
  unfold ubiGetStripeStatus
  constructor
  · intro h
    split at h
    · next range =>
      cases h
      exact ⟨index.toNat, by omega, by omega, rfl⟩
    · cases h
  · rintro ⟨x, rfl, bound, rfl⟩
    simp [bound]

theorem ubiSubmitRequest_act {c : ChId} {id : ReqId} {r : Request}
    (ok : admissible dev s id r = true) (h : ubiSubmitRequest dev s c id r = .ok t) :
    Act dev s (.submit c id r) t := by
  simp only [admissible, Bool.and_eq_true, Option.isNone_iff_eq_none, decide_eq_true_eq] at ok
  obtain ⟨⟨new, type⟩, range⟩ := ok
  have queued (within : r.fetches dev → r.startStripe dev = r.endStripe dev)
      (gate : r.fetches dev → r.offsetBlocks < dev.imageBlockCount →
        ∃ status, ubiGetStripeStatus s (toCInt (r.startStripe dev)) = some status ∧
          status ≠ .notFetched) := Act.submitQueued (c := c) new type range within gate
  unfold ubiSubmitRequest at h
  dsimp only at h
  split at h
  · next fetch =>
    split at h
    · next span =>
      cases h
      exact Act.submitSpanning new type range fetch span
    next within =>
    have within := not_not.mp within
    split at h
    · next image =>
      split at h
      · cases h
      · next gate =>
        obtain ⟨x, index, bound, status⟩ := ubiGetStripeStatus_eq_some.mp gate
        cases h
        convert Act.submitFetching (c := c) new type range fetch within image index bound status
          using 1
        simp [insertTail, ubiSetStripeStatus, enqueueStripe, State.setChannel, State.emit, index,
          CircularQueue.push, and_mask_eq_mod]
      · next status other gate =>
        cases h
        exact queued (fun _ => within) fun _ _ => ⟨status, gate, other⟩
    · next past =>
      cases h
      exact queued (fun _ => within) fun _ below => absurd below past
  · next plain =>
    cases h
    exact queued (fun fetch => absurd fetch plain) fun fetch => absurd fetch plain

/-- The label of an event. Submissions and the completions of base writes and
flushes are told apart, so that a condition on a run can speak about them. -/
def Event.label : Event → Label
  | .submit c id r => .submit c id r
  | .writeDone o success _ => .writeDone o success
  | .flushDone o success _ => .flushDone o success
  | _ => .quiet

/-- A labelled event is a single act; the others are sequences of quiet acts. -/
theorem step_acts {e : Event} (h : step dev s e = .ok t) :
    Act dev s e.label t ∨ (e.label = .quiet ∧ Quietly dev s t) := by
  cases e with
  | submit c id r =>
      simp only [step] at h
      split at h
      · next ok => exact .inl (ubiSubmitRequest_act ok h)
      · cases h
  | poll c env =>
      simp only [step] at h
      cases polled : ubiIoPoll dev s c env with
      | error _ => rw [polled] at h; cases h
      | ok result =>
          rw [polled] at h
          cases h
          exact .inr ⟨rfl, ubiIoPoll_acts polled⟩
  | getBuf id success ret =>
      simp only [step] at h
      split at h
      · next wait => exact .inl (getBufForReadCb_act wait h).1
      · cases h
  | uring c i res => exact .inl (uringComplete_act h)
  | transfer o blocks => exact .inr ⟨rfl, eachBlock_acts transferBlock_act h⟩
  | sample o blocks => exact .inr ⟨rfl, eachBlock_acts sampleBlock_act h⟩
  | land o blocks => exact .inr ⟨rfl, eachBlock_acts landBlock_act h⟩
  | readDone o success => exact .inl (baseReadDone_act h)
  | writeDone o success ret => exact .inl (baseWriteDone_act h)
  | flushDone o success ret => exact .inl (baseFlushDone_act h)

theorem act_log {l : Label} (act : Act dev s l t) : s.log <:+ t.log := by
  cases act <;> first
    | exact List.suffix_rfl
    | exact List.suffix_cons _ _
    | exact (List.suffix_cons _ _).trans (List.suffix_cons _ _)
    | exact (List.suffix_append [_, _, _] _)
    | exact (List.suffix_append [_, _, _, _] _)

theorem act_request {l : Label} {id : ReqId} {r : Request} (act : Act dev s l t)
    (h : s.request id = some r) : t.request id = some r := by
  cases act <;> first
    | exact h
    | exact (Function.update_of_ne (by rintro rfl; simp_all) _ _).trans h

theorem Quietly.invariant {P : State → Prop} (keep : ∀ {s t}, P s → Act dev s .quiet t → P t)
    (acts : Quietly dev s t) (hs : P s) : P t := by
  induction acts with
  | refl => exact hs
  | tail _ act ih => exact keep ih act

/-- The acts of an event may use a condition that is met after it and is met before an act
whenever it is met after it. -/
theorem Quietly.invariant_back {A P Q : State → Prop}
    (side : ∀ {s t}, A s → Act dev s .quiet t → A t)
    (back : ∀ {s t}, A s → Act dev s .quiet t → Q t → Q s)
    (keep : ∀ {s t}, P s → Q t → Act dev s .quiet t → P t) (acts : Quietly dev s t)
    (ha : A s) (hs : P s) (met : Q t) : P t := by
  have held : A t ∧ (Q t → P t) := by
    clear met
    induction acts with
    | refl => exact ⟨ha, fun _ => hs⟩
    | tail _ act ih =>
        exact ⟨side ih.1 act, fun met => keep (ih.2 (back ih.1 act met)) met act⟩
  exact held.2 met

/-- The steps of a run that all meet a condition on their labels. -/
abbrev Permitted (permits : State → Label → Prop) : State → Event → Prop :=
  fun s e => permits s e.label

section Invariants

variable {P : State → Prop} {Q : List Obs → Prop} {permits : State → Label → Prop}

/-- A property that every permitted act keeps is kept by every permitted step. -/
theorem step_invariant {e : Event} (keep : ∀ {s t l}, P s → permits s l → Act dev s l t → P t)
    (quiet : ∀ s, permits s .quiet) (ok : permits s e.label) (h : step dev s e = .ok t)
    (hs : P s) : P t := by
  obtain act | ⟨_, acts⟩ := step_acts h
  · exact keep hs ok act
  · exact Quietly.invariant (fun before act => keep before (quiet _) act) acts hs

/-- A run keeps what every permitted act keeps. The acts may use a condition on the
history, as long as it was met earlier whenever it is met now. -/
theorem reach_invariant_permitted (quiet : ∀ s, permits s .quiet)
    (earlier : ∀ {past log}, past <:+ log → Q log → Q past)
    (keep : ∀ {s t l}, P s → permits s l → Q t.log → Act dev s l t → P t)
    (run : Reach dev (Permitted permits) s t) (hs : P s) (met : Q t.log) : P t := by
  have held : Q t.log → P t :=
    run.invariant (P := fun s => Q s.log → P s) (fun _ => hs) fun _ before ok move =>
      step_invariant (P := fun s => Q s.log → P s)
        (fun before ok act met => keep (before (earlier (act_log act) met)) ok met act)
        quiet ok move before
  exact held met

theorem reach_invariant_log {allowed : State → Event → Prop}
    (earlier : ∀ {past log}, past <:+ log → Q log → Q past)
    (keep : ∀ {s t l}, P s → Q t.log → Act dev s l t → P t) (run : Reach dev allowed s t)
    (hs : P s) (met : Q t.log) : P t := by
  have run : Reach dev (Permitted fun _ _ => True) s t := run.mono fun _ _ _ => trivial
  exact reach_invariant_permitted (fun _ => trivial) earlier
    (fun before _ met act => keep before met act) run hs met

theorem reach_invariant {allowed : State → Event → Prop}
    (keep : ∀ {s t l}, P s → Act dev s l t → P t) (run : Reach dev allowed s t) (hs : P s) :
    P t :=
  reach_invariant_log (Q := fun _ => True) (fun _ _ => trivial)
    (fun before _ act => keep before act) run hs trivial

end Invariants

abbrev Acting (dev : UbiBdev) (s t : State) : Prop := ∃ l, Act dev s l t

/-- The states a run passes through, those inside an event included. -/
abbrev Passes (dev : UbiBdev) : State → State → Prop := Relation.ReflTransGen (Acting dev)

theorem reach_passes {allowed : State → Event → Prop} (run : Reach dev allowed s t) :
    Passes dev s t :=
  reach_invariant (P := Passes dev s) (fun before act => before.tail ⟨_, act⟩) run .refl

theorem trace_passes {allowed : State → Event → Prop} {past : List (State × Event)}
    (run : Runs.Trace (step dev) allowed s past t) : ∀ e ∈ past, Passes dev e.1 t := by
  induction run with
  | refl => simp
  | @tail past u v e _ ok move ih =>
      have last : Passes dev u v := reach_passes (.tail .refl ok move)
      intro e' mem
      rcases List.mem_cons.mp mem with rfl | older
      · exact last
      · exact (ih e' older).trans last

theorem Passes.invariant {P : State → Prop} (keep : ∀ {s t l}, P s → Act dev s l t → P t)
    (run : Passes dev s t) (hs : P s) : P t := by
  induction run with
  | refl => exact hs
  | tail _ act ih =>
      obtain ⟨_, act⟩ := act
      exact keep ih act

end BdevUbi
