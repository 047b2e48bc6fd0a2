import BdevUbi.Addressing
import BdevUbi.StripePlaces
import BdevUbi.RequestPlaces

/-!
The indices handed to `ubi_get_stripe_status` and `ubi_set_stripe_status`. The functions
here follow the module's own and list the indices each event passes on, before the array
is touched. `stripe_status` has `UBI_MAX_STRIPES` cells, and nothing but the size of the
bdev keeps the indices below that.
-/

namespace BdevUbi

/-- The stripe number of a request, converted to `int`. -/
def Request.index (dev : UbiBdev) (r : Request) : Int := toCInt (r.startStripe dev)

/-- The status is read, and set if the stripe has not been fetched. -/
def submitIndices (dev : UbiBdev) (s : State) (r : Request) : List Int :=
  if r.fetches dev ∧ r.startStripe dev = r.endStripe dev ∧ r.offsetBlocks < dev.imageBlockCount then
    if ubiGetStripeStatus s (r.index dev) = some .notFetched then [r.index dev, r.index dev]
    else [r.index dev]
  else []

def getBufIndices (dev : UbiBdev) (s : State) (id : ReqId) (success : Bool) : List Int :=
  match s.request id with
  | none => []
  | some r => if success then [r.index dev] else []

/-- A failed image read and a refused base write set the status of the slot's stripe. -/
def cqeIndices (dev : UbiBdev) (s : State) (c : ChId) (cqe : Cqe) (ret : Int) : List Int :=
  match cqe.sqe.userData with
  | .stripeFetch k =>
    let stripeIdx := (s.slot c k).stripeIdx
    if cqe.res < 0 ∨
        ¬ baseAcceptsBytes dev (dev.stripeBytes * stripeIdx + ubiMetadataSize) dev.stripeBytes ret
    then [(stripeIdx : Int)] else []
  | .bdevIo _ => []

def batchIndices (dev : UbiBdev) (c : ChId) (ret : Nat → Int) : Nat → Nat → State → List Int
  | 0, _, _ => []
  | batch + 1, i, s => match (s.channel c).cqes with
    | [] => []
    | cqe :: rest => cqeIndices dev s c cqe (ret i) ++
        batchIndices dev c ret batch (i + 1) (completeCqe dev s c cqe rest (ret i)).2

/-- A failing `io_uring_submit` sets the status of the stripe just dequeued. -/
def startIndices (dev : UbiBdev) (c : ChId) (env : PollEnv) : List Nat → State → List Int
  | [], _ => []
  | k :: free, s =>
    if stripeQueueEmpty (s.channel c) then []
    else match ubiStartFetchStripe dev (assignSlot s c k) c k (env.fetchSubmitRet k) with
      | .error _ => []
      | .ok next =>
        (if env.fetchSubmitRet k < 0 then [((next.slot c k).stripeIdx : Int)] else []) ++
          startIndices dev c env free next

/-- The request at the head of the list is handed on and not held back or failed. -/
def dispatched (dev : UbiBdev) (s : State) (r : Request) : Bool :=
  if r.type ≠ .flush ∧ r.offsetBlocks < dev.imageBlockCount then
    match ubiGetStripeStatus s (r.index dev) with
    | some .fetched => true
    | some .notFetched => decide (r.type = .read ∧ dev.copyOnRead = false)
    | _ => false
  else true

/-- The poller reads the status of an image block's stripe, and the buffer callback reads it
again, for any block. -/
def firstIndices (dev : UbiBdev) (s : State) (c : ChId) (id : ReqId) (env : PollEnv) : List Int :=
  match s.request id with
  | none => []
  | some r =>
    if r.type = .read ∧ ubiMaxConcurrentReads ≤ (s.channel c).activeReads then []
    else
      (if r.type ≠ .flush ∧ r.offsetBlocks < dev.imageBlockCount then [r.index dev] else []) ++
        if r.type = .read ∧ dispatched dev s r ∧ env.getBuf id = .inline true then [r.index dev]
        else []

def ioIndices (dev : UbiBdev) (c : ChId) (env : PollEnv) : List ReqId → State → List Int
  | [], _ => []
  | id :: rest, s => firstIndices dev s c id env ++
      match processFirst dev s c id rest env with
      | .ok (true, next) => ioIndices dev c env rest next
      | _ => []

def pollIndices (dev : UbiBdev) (s : State) (c : ChId) (env : PollEnv) : List Int :=
  let queuesEmpty := (s.channel c).io.isEmpty && stripeQueueEmpty (s.channel c)
  let completed := (ubiCompleteImageIo dev s c env).2
  let free := freeStripeFetches (completed.channel c)
  batchIndices dev c env.stripeWriteRet (min 64 (s.channel c).cqes.length) 0 s ++
    if queuesEmpty then []
    else startIndices dev c env free completed ++
      match startStripeFetches dev c env free completed with
      | .error _ => []
      | .ok fetching => ioIndices dev c env (fetching.channel c).io fetching

/-- The indices an event passes to the two functions, in order. -/
def stripeIndices (dev : UbiBdev) (s : State) : Event → List Int
  | .submit _ id r => if admissible dev s id r then submitIndices dev s r else []
  | .poll c env => pollIndices dev s c env
  | .getBuf id success _ => if s.waiting id then getBufIndices dev s id success else []
  | .writeDone o _ _ => match (s.writes o).map BaseWrite.cb with
    | some (.stripe c k) => [((s.slot c k).stripeIdx : Int)]
    | _ => []
  | _ => []

/-- READs and WRITEs start inside the bdev. -/
def InDevice (dev : UbiBdev) (_ : State) (l : Label) : Prop :=
  ∀ c id r, l = .submit c id r → r.type ≠ .flush → r.offsetBlocks < dev.ubiBlockcnt

variable {dev : UbiBdev} {s₀ s t : State} {l : Label}

/-- A request that had the stripe of a fetch enqueued. -/
def Fetches (dev : UbiBdev) (s : State) (x : Nat) : Prop :=
  ∃ id r, s.request id = some r ∧ r.fetches dev ∧ r.index dev = x

/-- A completion is still to come for slot `k` of channel `c`. -/
def Held (s : State) (c : ChId) (k : Nat) : Prop :=
  (∃ sqe ∈ s.ringEntries c, sqe.userData = .stripeFetch k) ∨
    ∃ o op, s.writes o = some op ∧ op.cb = .stripe c k

/-- Where the indices come from. -/
structure Indexed (dev : UbiBdev) (s : State) : Prop where
  known : ∀ id r, s.request id = some r → r.type ≠ .flush →
    (r.type = .read ∨ r.type = .write) ∧ r.offsetBlocks < dev.ubiBlockcnt
  bounded : ∀ c, (s.queue c).Bounded ubiFetchQueueSize
  queued : ∀ c, ∀ x ∈ (s.queue c).contents ubiFetchQueueSize, Fetches dev s x
  held : ∀ c k, Held s c k → Fetches dev s (s.slot c k).stripeIdx

theorem fetches_act {x : Nat} (act : Act dev s l t) (h : Fetches dev s x) : Fetches dev t x := by
  obtain ⟨id, r, known, rest⟩ := h
  exact ⟨id, r, act_request act known, rest⟩

theorem contents_act (bounded : ∀ c, (s.queue c).Bounded ubiFetchQueueSize) (act : Act dev s l t)
    {c : ChId} {x : Nat} (h : x ∈ (t.queue c).contents ubiFetchQueueSize) :
    x ∈ (s.queue c).contents ubiFetchQueueSize ∨ Fetches dev t x := by
  cases act
  case fetchStarted d k nonempty _ _ _ | fetchSubmitFailed d k nonempty _ _ _ =>
    have pop := CircularQueue.contents_pop (bounded d) nonempty
    by_cases same : c = d
    · subst same
      simp only [State.queue, Function.update_self] at h
      exact .inl (by rw [pop]; exact List.mem_cons_of_mem _ h)
    · exact .inl (by simpa [State.queue, same] using h)
  case submitFetching d id r y _ _ _ fetch _ _ index _ _ =>
    by_cases same : c = d
    · subst same
      simp only [State.queue, Function.update_self] at h
      by_cases room : ((s.queue c).tail + 1) % ubiFetchQueueSize = (s.queue c).head
      · rw [CircularQueue.contents_push_full (bounded c) y room] at h
        cases h
      · rw [CircularQueue.contents_push (bounded c) y room, List.mem_append,
          List.mem_singleton] at h
        rcases h with old | rfl
        · exact .inl old
        · exact .inr ⟨id, r, by simp, fetch, index⟩
    · exact .inl (by simpa [State.queue, same] using h)
  all_goals left; first | exact h | grind -linarith

section Held

attribute [local grind =] State.ringEntries stripeFetches_update

theorem held_act (bounded : ∀ c, (s.queue c).Bounded ubiFetchQueueSize) (act : Act dev s l t)
    {c : ChId} {k : Nat} (h : Held t c k) :
    (Held s c k ∧ (t.slot c k).stripeIdx = (s.slot c k).stripeIdx) ∨
      (t.slot c k).stripeIdx ∈ (s.queue c).contents ubiFetchQueueSize := by
  unfold Held at h ⊢
  cases act
  case fetchStarted d j nonempty _ _ _ | fetchSubmitFailed d j nonempty _ _ _ =>
    have pop := CircularQueue.contents_pop (bounded d) nonempty
    by_cases same : c = d ∧ k = j
    · obtain ⟨rfl, rfl⟩ := same
      rw [pop]
      exact .inr (by simp [State.slot])
    · left
      grind -linarith [stripeSqe]
  case uringFetch d i j sqe res entry _ _ | uringRead d i j sqe res entry _ _ =>
    have old := List.mem_of_getElem? entry
    have rest {sqe' : Sqe} :
        sqe' ∈ (s.channel d).submitted.eraseIdx i → sqe' ∈ (s.channel d).submitted :=
      List.mem_of_mem_eraseIdx
    grind -linarith
  all_goals left; grind -linarith [imageReadSqe]

end Held

theorem startFetch_held {c : ChId} {k : Nat} {ret : Int}
    (h : ubiStartFetchStripe dev (assignSlot s c k) c k ret = .ok t) : Held t c k := by
  unfold ubiStartFetchStripe at h
  split at h
  · cases h
  split at h
  · cases h
    refine .inl ⟨stripeSqe dev k ((assignSlot s c k).slot c k).stripeIdx, ?_, rfl⟩
    simp [State.ringEntries, ubiFailStripeFetch, ubiSetStripeStatus, prepareFetch, State.setFetch,
      State.setChannel, State.emit, State.slot]
  · cases h
    refine .inl ⟨stripeSqe dev k ((assignSlot s c k).slot c k).stripeIdx, ?_, rfl⟩
    simp [State.ringEntries, ioUringSubmit, prepareFetch, State.setChannel, State.emit, State.slot]

theorem known_act (before : Indexed dev s) (inside : InDevice dev s l) (act : Act dev s l t)
    {id : ReqId} {r : Request} (h : t.request id = some r) (data : r.type ≠ .flush) :
    (r.type = .read ∨ r.type = .write) ∧ r.offsetBlocks < dev.ubiBlockcnt := by
  have submitted {c : ChId} {j : ReqId} {r' : Request} (label : l = .submit c j r')
      (type : ubiIoTypeSupported r'.type = true)
      (h : Function.update s.request j (some r') id = some r) :
      (r.type = .read ∨ r.type = .write) ∧ r.offsetBlocks < dev.ubiBlockcnt := by
    by_cases same : id = j
    · simp only [same, Function.update_self, Option.some.injEq] at h
      subst h
      refine ⟨?_, inside c j r' label data⟩
      cases kind : r'.type <;> simp_all [ubiIoTypeSupported]
    · exact before.known id r (by simpa [same] using h) data
  cases act with
  | submitSpanning _ type | submitFetching _ type | submitQueued _ type =>
      exact submitted rfl type h
  | _ => exact before.known id r h data

theorem indexed_act (inside : InDevice dev s l) (before : Indexed dev s) (act : Act dev s l t) :
    Indexed dev t where
  known _ _ := known_act before inside act
  bounded := bounded_act before.bounded act
  queued c x here := by
    rcases contents_act before.bounded act here with old | new
    · exact fetches_act act (before.queued c x old)
    · exact new
  held c k here := by
    rcases held_act before.bounded act here with ⟨old, same⟩ | left
    · rw [same]
      exact fetches_act act (before.held c k old)
    · exact fetches_act act (before.queued c _ left)

theorem inDevice_quiet (dev : UbiBdev) (s : State) : InDevice dev s .quiet := by
  rintro _ _ _ ⟨⟩

theorem indexed_quietly (acts : Quietly dev s t) (inv : Indexed dev s) : Indexed dev t :=
  acts.invariant (indexed_act (inDevice_quiet dev _)) inv

theorem request_quietly (acts : Quietly dev s t) : t.request = s.request :=
  acts.invariant (P := fun t => t.request = s.request) (fun same act => by cases act <;> exact same)
    rfl

theorem indexed_created {base : Bytes} (created : Created dev base s) : Indexed dev s := by
  obtain ⟨table, _, rfl⟩ := created
  have bounded : newChannel.stripeFetchQueue.Bounded ubiFetchQueueSize := by decide
  refine ⟨by simp [newState], fun _ => bounded, fun c x here => ?_, fun c k here => ?_⟩
  · have empty : newChannel.stripeFetchQueue.contents ubiFetchQueueSize = [] :=
      (CircularQueue.contents_eq_nil bounded).mpr rfl
    change x ∈ newChannel.stripeFetchQueue.contents ubiFetchQueueSize at here
    simp [empty] at here
  · rcases here with ⟨_, here, _⟩ | ⟨_, _, here, _⟩
    · simp [State.ringEntries, newState, newChannel] at here
    · cases here

/-- The index is the number of a stripe that holds the first block of a known request. -/
def IndexOf (dev : UbiBdev) (s : State) (i : Int) : Prop :=
  ∃ id r, s.request id = some r ∧ (r.type = .read ∨ r.type = .write) ∧
    i = (r.offsetBlocks >>> dev.stripeShift : Nat) ∧ 0 ≤ i ∧ i < ubiMaxStripes

section Small

variable (small : dev.ubiBlockcnt ≤ ubiMaxStripes * dev.stripeBlockCount)

include small

theorem index_eq {r : Request} (inside : r.offsetBlocks < dev.ubiBlockcnt) :
    r.index dev = (r.offsetBlocks >>> dev.stripeShift : Nat) ∧ 0 ≤ r.index dev ∧
      r.index dev < ubiMaxStripes := by
  have bound : r.startStripe dev < ubiMaxStripes := by
    rw [Request.startStripe, dev.shift_eq_div, Nat.div_lt_iff_lt_mul dev.stripeBlockCount_pos]
    omega
  rw [Request.index, toCInt_of_lt bound]
  exact ⟨rfl, by omega, by exact_mod_cast bound⟩

theorem indexOf_known (inv : Indexed dev s) {id : ReqId} {r : Request}
    (known : s.request id = some r) (data : r.type ≠ .flush) : IndexOf dev s (r.index dev) := by
  obtain ⟨type, inside⟩ := inv.known id r known data
  exact ⟨id, r, known, type, index_eq small inside⟩

theorem indexOf_fetches (inv : Indexed dev s) {x : Nat} (h : Fetches dev s x) :
    IndexOf dev s x := by
  obtain ⟨id, r, known, fetch, index⟩ := h
  rw [← index]
  refine indexOf_known small inv known ?_
  rcases fetch with write | ⟨read, _⟩
  · simp [write]
  · simp [read]

theorem batchIndices_indexOf {c : ChId} {ret : Nat → Int} {batch n : Nat} {i : Int}
    (inv : Indexed dev s) (here : i ∈ batchIndices dev c ret batch n s) : IndexOf dev s i := by
  induction batch generalizing n s with
  | zero => cases here
  | succ batch ih =>
      rw [batchIndices] at here
      split at here
      · cases here
      next cqe rest first =>
      have act : Act dev s .quiet (completeCqe dev s c cqe rest (ret n)).2 :=
        completeCqe_act (ret n) first
      rcases List.mem_append.mp here with now | later
      · simp only [cqeIndices] at now
        split at now
        · next k tag =>
          split at now
          · rw [List.mem_singleton] at now
            subst now
            exact indexOf_fetches small inv (inv.held c k
              (.inl ⟨cqe.sqe, by simp [State.ringEntries, first], tag⟩))
          · cases now
        · cases now
      · have found := ih (indexed_quietly (.single act) inv) later
        rwa [IndexOf, request_quietly (.single act)] at found

theorem startIndices_indexOf {c : ChId} {env : PollEnv} {free : List Nat} {i : Int}
    (nodup : free.Nodup) (idle : ∀ k ∈ free, (s.slot c k).active = false)
    (slots : ∀ k ∈ free, k < ubiMaxActiveStripeFetches) (inv : Indexed dev s)
    (here : i ∈ startIndices dev c env free s) : IndexOf dev s i := by
  induction free generalizing s with
  | nil => cases here
  | cons k free ih =>
      rw [startIndices] at here
      split at here
      · cases here
      next nonempty =>
      split at here
      · cases here
      next next started =>
      have act := startFetch_act (by simpa [stripeQueueEmpty] using nonempty)
        (idle k List.mem_cons_self) (slots k List.mem_cons_self) started
      have inv' := indexed_quietly (.single act) inv
      have found : IndexOf dev next i := by
        rcases List.mem_append.mp here with now | later
        · split at now
          · rw [List.mem_singleton] at now
            subst now
            exact indexOf_fetches small inv' (inv'.held c k (startFetch_held started))
          · cases now
        · refine ih (List.nodup_cons.mp nodup).2 (fun j hj => ?_)
            (fun j hj => slots j (List.mem_cons_of_mem _ hj)) inv' later
          rw [startFetch_other _ started]
          · exact idle j (List.mem_cons_of_mem _ hj)
          · rintro rfl
            exact (List.nodup_cons.mp nodup).1 hj
      rwa [IndexOf, request_quietly (.single act)] at found

theorem ioIndices_indexOf {c : ChId} {env : PollEnv} {ids : List ReqId} {i : Int}
    (io : (s.channel c).io = ids) (inv : Indexed dev s) (here : i ∈ ioIndices dev c env ids s) :
    IndexOf dev s i := by
  induction ids generalizing s with
  | nil => cases here
  | cons id rest ih =>
      rw [ioIndices] at here
      rcases List.mem_append.mp here with now | later
      · simp only [firstIndices] at now
        split at now
        · cases now
        next r known =>
        split at now
        · cases now
        rcases List.mem_append.mp now with gate | buffer
        · split at gate
          · next image =>
            rw [List.mem_singleton] at gate
            rw [gate]
            exact indexOf_known small inv known image.1
          · cases gate
        · split at buffer
          · next read =>
            rw [List.mem_singleton] at buffer
            rw [buffer]
            exact indexOf_known small inv known (by simp [read.1])
          · cases buffer
      · split at later
        · next next first =>
          obtain ⟨acts, io'⟩ := processFirst_acts io first
          have found := ih (io' rfl) (indexed_quietly acts inv) later
          rwa [IndexOf, request_quietly acts] at found
        · cases later

theorem pollIndices_indexOf {c : ChId} {env : PollEnv} {i : Int} (inv : Indexed dev s)
    (here : i ∈ pollIndices dev s c env) : IndexOf dev s i := by
  have acts : Quietly dev s (ubiCompleteImageIo dev s c env).2 := completeBatch_acts c _ _ _ _ s
  have inv' := indexed_quietly acts inv
  obtain ⟨nodup, free⟩ := freeStripeFetches_spec ((ubiCompleteImageIo dev s c env).2.channel c)
  simp only [pollIndices, List.mem_append] at here
  rcases here with batch | rest
  · exact batchIndices_indexOf small inv batch
  split at rest
  · cases rest
  rcases List.mem_append.mp rest with start | later
  · have found := startIndices_indexOf small nodup (fun k hk => (free k hk).1)
      (fun k hk => (free k hk).2) inv' start
    rwa [IndexOf, request_quietly acts] at found
  · split at later
    · cases later
    next fetching started =>
    have acts' := acts.trans (startStripeFetches_acts nodup (fun k hk => (free k hk).1)
      (fun k hk => (free k hk).2) started)
    have found := ioIndices_indexOf small rfl (indexed_quietly acts' inv) later
    rwa [IndexOf, request_quietly acts'] at found

end Small

/-- The index passed on for a request, of a READ or a WRITE: its first block shifted by
`stripe_shift`, and inside the array. -/
def IndexInRange (dev : UbiBdev) (s : State) (e : Event) (i : Int) : Prop :=
  ∃ id r, (s.request id = some r ∨ ∃ c, e = .submit c id r) ∧ (r.type = .read ∨ r.type = .write) ∧
    i = (r.offsetBlocks >>> dev.stripeShift : Nat) ∧ 0 ≤ i ∧ i < ubiMaxStripes

theorem IndexOf.inRange {e : Event} {i : Int} (h : IndexOf dev s i) : IndexInRange dev s e i := by
  obtain ⟨id, r, known, rest⟩ := h
  exact ⟨id, r, .inl known, rest⟩

theorem stripeIndices_inRange (small : dev.ubiBlockcnt ≤ ubiMaxStripes * dev.stripeBlockCount)
    (inv : Indexed dev s) (placed : RequestsPlaced s) {e : Event}
    (inside : Permitted (InDevice dev) s e) {i : Int} (here : i ∈ stripeIndices dev s e) :
    IndexInRange dev s e i := by
  cases e with
  | submit c id r =>
      simp only [stripeIndices] at here
      split at here
      · simp only [submitIndices] at here
        split at here
        · next fetch =>
          have data : r.type = .read ∨ r.type = .write := fetch.1.symm.imp_left And.left
          have same : i = r.index dev := by
            split at here <;> simpa using here
          have bound := inside c id r rfl (by rcases data with type | type <;> simp [type])
          rw [same]
          exact ⟨id, r, .inr ⟨c, rfl⟩, data, index_eq small bound⟩
        · cases here
      · cases here
  | poll c env => exact (pollIndices_indexOf small inv here).inRange
  | getBuf id success ret =>
      simp only [stripeIndices] at here
      split at here
      · next waiting =>
        have occurs : s.occurrences id .buffer ≠ 0 := by simp [State.occurrences, waiting]
        obtain ⟨r, known, read⟩ := placed.suits_of_occurs occurs
        simp only [getBufIndices, known] at here
        split at here
        · rw [List.mem_singleton] at here
          rw [here]
          change r.type = .read at read
          exact (indexOf_known small inv known (by simp [read])).inRange
        · cases here
      · cases here
  | writeDone o success ret =>
      simp only [stripeIndices] at here
      split at here
      · next c k cb =>
        obtain ⟨op, op_eq, owner⟩ := Option.map_eq_some_iff.mp cb
        rw [List.mem_singleton] at here
        rw [here]
        exact (indexOf_fetches small inv (inv.held c k (.inr ⟨o, op, op_eq, owner⟩))).inRange
      · cases here
  | _ => cases here

/-- The first block past the last stripe the array has a cell for. -/
def UbiBdev.firstUnindexed (dev : UbiBdev) : Nat := ubiMaxStripes * dev.stripeBlockCount

def unindexedRequest (dev : UbiBdev) (type : IoType) : Request :=
  ⟨type, dev.firstUnindexed, 1, fun _ => 0⟩

theorem unindexedRequest_index (dev : UbiBdev) (type : IoType) :
    (unindexedRequest dev type).index dev = ubiMaxStripes := by
  have stripe : (unindexedRequest dev type).startStripe dev = ubiMaxStripes := by
    rw [Request.startStripe, dev.shift_eq_div]
    exact Nat.mul_div_cancel _ dev.stripeBlockCount_pos
  rw [Request.index, stripe]
  decide

theorem unindexedRequest_endStripe (wide : dev.firstUnindexed < dev.ubiBlockcnt) (type : IoType) :
    (unindexedRequest dev type).startStripe dev = (unindexedRequest dev type).endStripe dev := by
  have bound : dev.firstUnindexed < 2 ^ 64 := by
    have := dev.blockcnt_lt
    have : dev.ubiBlockcnt ≤ dev.blockcnt := Nat.sub_le _ _
    omega
  have last : (unindexedRequest dev type).endBlock = dev.firstUnindexed := by
    simp only [Request.endBlock, unindexedRequest]
    omega
  rw [Request.startStripe, Request.endStripe, last]
  rfl

theorem unindexedRequest_admissible (wide : dev.firstUnindexed < dev.ubiBlockcnt) (type : IoType)
    (supported : ubiIoTypeSupported type = true) :
    admissible dev (blankState dev) 0 (unindexedRequest dev type) = true := by
  have range : dev.firstUnindexed + 1 ≤ dev.ubiBlockcnt := wide
  simp [admissible, blankState, newState, unindexedRequest, supported, range]

/-- An image that reaches past the array has a block whose WRITE passes on the index of the
cell behind it. -/
theorem image_write_unindexed (wide : dev.firstUnindexed < dev.ubiBlockcnt)
    (image : dev.firstUnindexed < dev.imageBlockCount) :
    (ubiMaxStripes : Int) ∈
      stripeIndices dev (blankState dev) (.submit 0 0 (unindexedRequest dev .write)) := by
  have path : (unindexedRequest dev .write).fetches dev ∧
      (unindexedRequest dev .write).startStripe dev = (unindexedRequest dev .write).endStripe dev ∧
      (unindexedRequest dev .write).offsetBlocks < dev.imageBlockCount :=
    ⟨.inl rfl, unindexedRequest_endStripe wide _, image⟩
  simp only [stripeIndices, unindexedRequest_admissible wide .write rfl, if_true, submitIndices,
    if_pos path, unindexedRequest_index]
  split <;> simp

/-- The state in which the poller finds a READ of a block past the array and the image. -/
def unindexedRead (dev : UbiBdev) : State :=
  insertTail (({ blankState dev with
    request := Function.update (blankState dev).request 0 (some (unindexedRequest dev .read))
    buffer := Function.update (blankState dev).buffer 0 fun _ => 0 }).emit (.submitted 0)) 0 0

theorem unindexedRead_submitted (wide : dev.firstUnindexed < dev.ubiBlockcnt)
    (past : ¬ dev.firstUnindexed < dev.imageBlockCount) :
    step dev (blankState dev) (.submit 0 0 (unindexedRequest dev .read)) =
      .ok (unindexedRead dev) := by
  have past : ¬ (unindexedRequest dev .read).offsetBlocks < dev.imageBlockCount := past
  simp only [step, unindexedRequest_admissible wide .read rfl, if_true, ubiSubmitRequest,
    if_neg past, ne_eq, unindexedRequest_endStripe wide, not_true_eq_false, if_false, ite_self]
  rfl

/-- The buffer callback looks at the status before it looks at the image size. -/
theorem unindexedRead_poll (past : ¬ dev.firstUnindexed < dev.imageBlockCount) :
    (ubiMaxStripes : Int) ∈ stripeIndices dev (unindexedRead dev) (.poll 0 .success) := by
  have past : ¬ (unindexedRequest dev .read).offsetBlocks < dev.imageBlockCount := past
  have known : (unindexedRead dev).request 0 = some (unindexedRequest dev .read) := rfl
  have first : (ubiMaxStripes : Int) ∈ firstIndices dev (unindexedRead dev) 0 0 .success := by
    have idle : ¬ ubiMaxConcurrentReads ≤ ((unindexedRead dev).channel 0).activeReads :=
      Nat.not_le.mpr (by decide : 0 < ubiMaxConcurrentReads)
    have handed : dispatched dev (unindexedRead dev) (unindexedRequest dev .read) = true := by
      simp only [dispatched, past, and_false, if_false]
    simp only [firstIndices, known, idle, and_false, if_false, past, List.nil_append, handed]
    simp [unindexedRequest, PollEnv.success, ← unindexedRequest_index dev .read]
  have none_free : startStripeFetches dev 0 .success
      (freeStripeFetches ((unindexedRead dev).channel 0)) (unindexedRead dev) =
        .ok (unindexedRead dev) := rfl
  refine List.mem_append_right _ ?_
  change _ ∈ startIndices dev 0 .success _ (unindexedRead dev) ++ _
  refine List.mem_append_right _ ?_
  change _ ∈ match startStripeFetches dev 0 .success
      (freeStripeFetches ((unindexedRead dev).channel 0)) (unindexedRead dev) with
    | .error _ => []
    | .ok fetching => ioIndices dev 0 .success (fetching.channel 0).io fetching
  rw [none_free]
  exact List.mem_append_left _ first

theorem indices_in_range_iff (dev : UbiBdev) :
    (∀ base s₀ s e i, Created dev base s₀ → Reach dev (Permitted (InDevice dev)) s₀ s →
      Permitted (InDevice dev) s e → i ∈ stripeIndices dev s e → IndexInRange dev s e i) ↔
    dev.ubiBlockcnt ≤ ubiMaxStripes * dev.stripeBlockCount := by
  constructor
  · intro inRange
    by_contra large
    have wide : dev.firstUnindexed < dev.ubiBlockcnt := Nat.lt_of_not_le large
    have inside (type : IoType) :
        Permitted (InDevice dev) (blankState dev) (.submit 0 0 (unindexedRequest dev type)) := by
      rintro _ _ _ ⟨⟩ _
      exact wide
    have blank := created_blankState dev
    by_cases image : dev.firstUnindexed < dev.imageBlockCount
    · obtain ⟨_, _, _, _, _, _, bound⟩ := inRange _ _ _ _ _ blank .refl (inside .write)
        (image_write_unindexed wide image)
      omega
    · have run : Reach dev (Permitted (InDevice dev)) (blankState dev) (unindexedRead dev) :=
        .tail .refl (inside .read) (unindexedRead_submitted wide image)
      obtain ⟨_, _, _, _, _, _, bound⟩ := inRange _ _ _ _ _ blank run (inDevice_quiet dev _)
        (unindexedRead_poll image)
      omega
  · intro small base s₀ s e i created run inside here
    have inv : Indexed dev s := reach_invariant_permitted (Q := fun _ => True) (inDevice_quiet dev)
      (fun _ _ => trivial) (fun before ok _ act => indexed_act ok before act) run
      (indexed_created created) trivial
    exact stripeIndices_inRange small inv (requestsPlaced_reach created run) inside here

/-- A bdev with one block more than the array has cells, and stripes of one block. -/
def wideBdev : UbiBdev where
  blocklen := 65536
  blockcnt := 2097281
  imageSize := 131072
  image := fun _ => 7
  stripeSizeKb := 64
  noSync := false
  copyOnRead := false
  layout := ⟨1, 0, 128, 2⟩
  imageSize_lt := twoBlockImage_lt
  blockcnt_lt := by decide
  init := by decide

/-- A READ of its last block has the cell behind the array read. -/
theorem wide_index_out_of_range :
    Reach wideBdev (Permitted (InDevice wideBdev)) (blankState wideBdev) (unindexedRead wideBdev) ∧
      (2097152 : Int) ∈ stripeIndices wideBdev (unindexedRead wideBdev) (.poll 0 .success) ∧
      ¬ (2097152 : Int) < ubiMaxStripes := by
  have past : ¬ wideBdev.firstUnindexed < wideBdev.imageBlockCount := by decide
  have wide : wideBdev.firstUnindexed < wideBdev.ubiBlockcnt := by decide
  refine ⟨.tail .refl ?_ (unindexedRead_submitted wide past), unindexedRead_poll past, by decide⟩
  rintro _ _ _ ⟨⟩ _
  exact wide

end BdevUbi
