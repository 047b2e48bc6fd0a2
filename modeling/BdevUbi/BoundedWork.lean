import Mathlib.Order.Interval.Finset.Nat
import BdevUbi.PreparedEntries
import BdevUbi.Library.Potential

/-!
Bounded work. Between two submissions the bdev, the rings and the base bdev can take
only so many steps: what is still to be done for the requests, the stripes in the fetch
queues, the ring entries and the outstanding base operations is a potential that
every act lowers, whether the calls of the lower layers succeed or fail.
-/

namespace BdevUbi
open Potential

variable {dev : UbiBdev} {s₀ s t : State} {l : Label} {C : Finset ChId} {K : Finset ReqId}

section Work

variable (dev : UbiBdev) (request : ReqId → Option Request)

def requestBlocks (id : ReqId) : Nat := ((request id).map Request.numBlocks).getD 0

/-- A request in a list may still become any chain of operations: a WRITE moves every block
twice, and a FLUSH may write and flush the metadata. -/
def listedWork (id : ReqId) : Nat := 2 * requestBlocks request id + 2 * dev.dataOffsetBlocks + 10

def waitingWork (id : ReqId) : Bool → Nat
  | true => requestBlocks request id + 6
  | false => 0

/-- What the completion of a ring entry may lead to: the base write of a stripe. -/
def Sqe.work (sqe : Sqe) : Nat :=
  match sqe.userData with
  | .stripeFetch _ => 2 * dev.stripeBlockCount + 1
  | .bdevIo _ => 0

@[simp] theorem work_stripeSqe (k x : Nat) :
    (stripeSqe dev k x).work dev = 2 * dev.stripeBlockCount + 1 := rfl

@[simp] theorem work_imageReadSqe (id : ReqId) (r : Request) :
    (imageReadSqe dev id r).work dev = 0 := rfl

def channelWork (_ : ChId) (ch : UbiIoChannel) : Nat :=
  (ch.io.map (listedWork dev request)).sum +
  (2 * dev.stripeBlockCount + 5) * (ch.stripeFetchQueue.contents ubiFetchQueueSize).length +
  (ch.sqes.map fun sqe => sqe.work dev + 3).sum +
  (ch.submitted.map fun sqe => sqe.work dev + 2).sum +
  (ch.cqes.map fun cqe => cqe.sqe.work dev + 1).sum +
  if ch.hasReads = 0 then 0 else 1

def unmoved {α : Type} (startBlock numBlocks : Nat) (moved : Nat → Option α) : Nat :=
  total (Finset.Ico startBlock (startBlock + numBlocks))
    (fun _ m => if m.isNone then 1 else 0) moved

def BaseRead.work (op : BaseRead) : Nat :=
  total (Finset.Ico op.startBlock (op.startBlock + op.numBlocks))
    (fun _ done => if done then 0 else 1) op.done + 1

/-- A metadata write is followed by a flush. -/
def BaseWrite.work (op : BaseWrite) : Nat :=
  unmoved op.startBlock op.numBlocks op.sampled + unmoved op.startBlock op.numBlocks op.landed +
    match op.cb with
    | .metadata _ => 3
    | _ => 1

/-- A data flush may be followed by a metadata write. -/
def BaseFlush.work (op : BaseFlush) : Nat :=
  match op.cb with
  | .data _ => 2 * dev.dataOffsetBlocks + 5
  | .metadata _ => 1

/-- What is still to be done for the requests in `K` and on the channels in `C`. -/
def State.work (C : Finset ChId) (K : Finset ReqId) (s : State) : Nat :=
  total C (channelWork dev s.request) s.channel + total K (waitingWork s.request) s.waiting +
  outstanding s.nextRead BaseRead.work s.reads + outstanding s.nextWrite BaseWrite.work s.writes +
  outstanding s.nextFlush (BaseFlush.work dev) s.flushes

end Work

/-- The channels outside `C` are idle and the requests outside `K` unknown. -/
structure Confined (C : Finset ChId) (K : Finset ReqId) (s : State) : Prop where
  channels : ∀ c, c ∉ C → (s.channel c).io = [] ∧ (s.queue c).head = (s.queue c).tail ∧
    (s.channel c).sqes = [] ∧ (s.channel c).submitted = [] ∧ (s.channel c).cqes = [] ∧
    (s.channel c).hasReads = 0
  requests : ∀ id, id ∉ K → s.request id = none
  waiting : ∀ id, s.waiting id = true → (s.bdevIo id).ubiCh ∈ C

theorem Confined.mono {C' : Finset ChId} {K' : Finset ReqId} (inv : Confined C K s) (hC : C ⊆ C')
    (hK : K ⊆ K') : Confined C' K' s where
  channels c out := inv.channels c fun inside => out (hC inside)
  requests id out := inv.requests id fun inside => out (hK inside)
  waiting id wait := hC (inv.waiting id wait)

/-- The acts of the code and of the lower layers, without new requests. -/
def Label.isSubmit : Label → Bool
  | .submit .. => true
  | _ => false

section Confined

attribute [local grind →] List.mem_of_getElem?

theorem idle_act {c : ChId} (idle : (s.channel c).io = [] ∧ (s.queue c).head = (s.queue c).tail ∧
      (s.channel c).sqes = [] ∧ (s.channel c).submitted = [] ∧ (s.channel c).cqes = [] ∧
      (s.channel c).hasReads = 0)
    (unused : ∀ id, s.waiting id = true → (s.bdevIo id).ubiCh ≠ c) (act : Act dev s l t)
    (old : l.isSubmit = false) :
    (t.channel c).io = [] ∧ (t.queue c).head = (t.queue c).tail ∧ (t.channel c).sqes = [] ∧
      (t.channel c).submitted = [] ∧ (t.channel c).cqes = [] ∧ (t.channel c).hasReads = 0 := by
  cases act <;> grind -linarith [Label.isSubmit]

theorem unknown_act {id : ReqId} (unknown : s.request id = none) (act : Act dev s l t)
    (old : l.isSubmit = false) : t.request id = none := by
  cases act <;> grind -linarith [Label.isSubmit]

theorem waiting_act {id : ReqId} (act : Act dev s l t) (wait : t.waiting id = true) :
    (s.waiting id = true ∧ (t.bdevIo id).ubiCh = (s.bdevIo id).ubiCh) ∨
      (s.channel (t.bdevIo id).ubiCh).io ≠ [] := by
  cases act <;> grind -linarith

theorem confined_act (inv : Confined C K s) (act : Act dev s l t) (old : l.isSubmit = false) :
    Confined C K t where
  channels c out := by
    refine idle_act (inv.channels c out) (fun id wait same => out ?_) act old
    rw [← same]
    exact inv.waiting id wait
  requests id out := unknown_act (inv.requests id out) act old
  waiting id wait := by
    rcases waiting_act act wait with ⟨before, same⟩ | busy
    · rw [same]
      exact inv.waiting id before
    · by_contra out
      exact busy (inv.channels _ out).1

end Confined

section Sums

theorem sum_eraseIdx {α : Type} {xs : List α} {i : Nat} {x : α} (w : α → Nat)
    (entry : xs[i]? = some x) : ((xs.eraseIdx i).map w).sum + w x = (xs.map w).sum := by
  obtain ⟨bound, rfl⟩ := List.getElem?_eq_some_iff.mp entry
  have perm := (List.getElem_cons_eraseIdx_perm bound).map w
  rw [← perm.sum_eq, List.map_cons, List.sum_cons, Nat.add_comm]

theorem sum_issued (w : Sqe → Nat) (sqes : List Sqe) :
    (sqes.map fun sqe => w sqe + 3).sum = (sqes.map fun sqe => w sqe + 2).sum + sqes.length := by
  induction sqes with
  | nil => rfl
  | cons sqe sqes ih => simp only [List.map_cons, List.sum_cons, List.length_cons, ih]; omega

variable {α : Type} {startBlock numBlocks b : Nat} {moved : Nat → Option α}

theorem unmoved_none : unmoved (α := α) startBlock numBlocks (fun _ => none) = numBlocks := by
  simp [unmoved, total]

theorem unmoved_update (range : startBlock ≤ b ∧ b < startBlock + numBlocks)
    (new : moved b = none) (a : α) :
    unmoved startBlock numBlocks (Function.update moved b (some a)) + 1 =
      unmoved startBlock numBlocks moved := by
  have here : b ∈ Finset.Ico startBlock (startBlock + numBlocks) := Finset.mem_Ico.mpr range
  rw [unmoved, unmoved, total_update here, total_eq (f := moved) here, new]
  simp

end Sums

theorem released_work (id : ReqId) :
    total C (channelWork dev s.request) (s.released id) =
      total C (channelWork dev s.request) s.channel := by
  apply total_congr
  intro c _
  simp [channelWork]

section Lower

variable (inv : RequestsPlaced s) (writes : WritesMatch dev s)
  (bounded : ∀ c, (s.queue c).Bounded ubiFetchQueueSize) (confined : Confined C K s)

include inv writes bounded confined

theorem work_lt (act : Act dev s l t) (old : l.isSubmit = false) :
    t.work dev C K < s.work dev C K := by
  have used (c : ChId) (busy : (s.channel c).io ≠ [] ∨ (s.queue c).head ≠ (s.queue c).tail ∨
      (s.channel c).sqes ≠ [] ∨ (s.channel c).submitted ≠ [] ∨ (s.channel c).cqes ≠ [] ∨
      (s.channel c).hasReads ≠ 0) : c ∈ C := by
    by_contra out
    have := confined.channels c out
    grind -linarith
  have known (id : ReqId) {r : Request} (req : s.request id = some r) : id ∈ K := by
    by_contra out
    rw [confined.requests id out] at req
    cases req
  cases act
  case fetchReadFailed c k sqe res rest first tag bad |
      fetchWriteRefused c k sqe res rest first tag good =>
    have here := used c (by simp [first])
    simp only [State.work]
    rw [total_update here, total_eq (f := s.channel) here]
    simp only [channelWork, first, List.map_cons, List.sum_cons]
    omega
  case fetchWriteStarted c k sqe res rest first tag good fits =>
    have here := used c (by simp [first])
    simp only [State.work, outstanding_start]
    rw [total_update here, total_eq (f := s.channel) here]
    simp only [channelWork, first, List.map_cons, List.sum_cons, BaseWrite.work, unmoved_none,
      Sqe.work, tag]
    omega
  case imageReadDone c id sqe res rest first tag =>
    have here := used c (by simp [first])
    simp only [State.work]
    rw [total_update here, ← released_work id, total_eq (f := s.released id) here]
    simp only [channelWork, State.released_cqes, first, List.map_cons, List.sum_cons]
    omega
  case fetchStarted c k nonempty free slot room | fetchSubmitFailed c k nonempty free slot room =>
    have here := used c (.inr (.inl nonempty))
    have popped := CircularQueue.contents_pop (bounded c) nonempty
    simp only [State.work]
    rw [total_update here, total_eq (f := s.channel) here]
    simp only [channelWork, popped, List.length_cons, List.map_append, List.sum_append,
      List.map_cons, List.sum_cons, List.map_nil, List.sum_nil, sum_issued, Nat.mul_add,
      work_stripeSqe]
    omega
  case requestFailed c id rest r first req data image gate |
      bugTaken c id rest r first req data image gate fetch |
      writeRefused c id rest r first req type gate |
      ioAnswered c id rest r ok first req type skip =>
    have here := used c (by simp [first])
    simp only [State.work]
    rw [total_update here, total_eq (f := s.channel) here]
    simp only [channelWork, first, List.map_cons, List.sum_cons, listedWork]
    omega
  case writeDispatched c id rest r first req type gate fits =>
    have here := used c (by simp [first])
    simp only [State.work, outstanding_start]
    rw [total_update here, total_eq (f := s.channel) here]
    simp only [channelWork, first, List.map_cons, List.sum_cons, listedWork, requestBlocks, req,
      Option.map_some, Option.getD_some, BaseWrite.work, unmoved_none]
    omega
  case flushDispatched c id rest r first req type sync =>
    have here := used c (by simp [first])
    simp only [State.work, outstanding_start]
    rw [total_update here, total_eq (f := s.channel) here]
    simp only [channelWork, first, List.map_cons, List.sum_cons, listedWork, BaseFlush.work]
    omega
  case readDispatched c id rest r first req type limit gate =>
    have here := used c (by simp [first])
    have idle : s.waiting id = false := inv.idle_of_listed (c := c) (by simp [first])
    simp only [State.work]
    rw [total_update here, total_eq (f := s.channel) here, total_update (known id req),
      total_eq (f := s.waiting) (known id req)]
    simp only [channelWork, first, List.map_cons, List.sum_cons, listedWork, waitingWork, idle]
    omega
  case bufferRefused id r wait req =>
    simp only [State.work]
    rw [released_work, total_update (known id req), total_eq (f := s.waiting) (known id req)]
    simp only [waitingWork, wait]
    omega
  case baseReadStarted id r wait req gate fits =>
    simp only [State.work, outstanding_start]
    rw [total_update (known id req), total_eq (f := s.waiting) (known id req)]
    simp [waitingWork, wait, BaseRead.work, total, requestBlocks, req]
    omega
  case imageReadPrepared id r status wait req gate unfetched image room =>
    have here := confined.waiting id wait
    simp only [State.work]
    rw [total_update here, total_eq (f := s.channel) here, total_update (known id req),
      total_eq (f := s.waiting) (known id req)]
    simp only [channelWork, waitingWork, wait, List.map_append, List.sum_append, List.map_cons,
      List.sum_cons, List.map_nil, List.sum_nil, work_imageReadSqe]
    split <;> omega
  case readsSubmitted c prepared =>
    have here := used c (by simp [prepared])
    simp only [State.work]
    rw [total_update here, total_eq (f := s.channel) here]
    simp only [channelWork, List.map_append, List.sum_append, List.map_nil, List.sum_nil,
      sum_issued, if_neg prepared, if_true]
    omega
  case uringFetch c i k sqe res entry tag bound | uringRead c i id sqe res entry tag bound =>
    have running := List.ne_nil_of_mem (List.mem_of_getElem? entry)
    have here := used c (.inr (.inr (.inr (.inl running))))
    have erased := sum_eraseIdx (fun sqe => sqe.work dev + 2) entry
    simp only [State.work]
    rw [total_update here, total_eq (f := s.channel) here]
    simp only [channelWork, List.map_append, List.sum_append, List.map_cons, List.sum_cons,
      List.map_nil, List.sum_nil]
    omega
  case sampled o op b write range new =>
    have moved := unmoved_update range new
      (fun a => writeBuffer s op.cb (a - op.startBlock * dev.blocklen))
    simp only [State.work]
    rw [outstanding_update inv.fresh.writes write, outstanding_eq inv.fresh.writes write]
    simp only [Option.elim_some, BaseWrite.work]
    omega
  case landed o op b data write sample new =>
    have range := (writes o op write).sampled b (by simp [sample])
    have moved := unmoved_update range new (s.disk.latest b + 1)
    simp only [State.work]
    rw [outstanding_update inv.fresh.writes write, outstanding_eq inv.fresh.writes write]
    simp only [Option.elim_some, BaseWrite.work]
    omega
  case transferred o op b read range new =>
    have here : b ∈ Finset.Ico op.startBlock (op.startBlock + op.numBlocks) :=
      Finset.mem_Ico.mpr range
    simp only [State.work]
    rw [outstanding_update inv.fresh.reads read, outstanding_eq inv.fresh.reads read]
    simp only [Option.elim_some, BaseRead.work]
    rw [total_update here, total_eq (f := op.done) here, new]
    simp
  case readDone o op success read all =>
    simp only [State.work]
    rw [released_work, outstanding_update inv.fresh.reads read,
      outstanding_eq inv.fresh.reads read]
    simp only [Option.elim_none, BaseRead.work]
    omega
  case ioWriteDone o op id success write cb all =>
    simp only [State.work]
    rw [released_work, outstanding_update inv.fresh.writes write,
      outstanding_eq inv.fresh.writes write]
    simp only [Option.elim_none, BaseWrite.work, cb]
    omega
  case stripeWriteDone o op c k success write cb all =>
    simp only [State.work]
    rw [total_update_same (by rfl), outstanding_update inv.fresh.writes write,
      outstanding_eq inv.fresh.writes write]
    simp only [Option.elim_none, BaseWrite.work, cb]
    omega
  case metadataWriteFailed o op id success write cb all =>
    simp only [State.work]
    rw [outstanding_update inv.fresh.writes write, outstanding_eq inv.fresh.writes write]
    simp only [Option.elim_none, BaseWrite.work, cb]
    omega
  case metadataWriteDone o op id write cb all =>
    simp only [State.work, outstanding_start]
    rw [outstanding_update inv.fresh.writes write, outstanding_eq inv.fresh.writes write]
    simp only [Option.elim_none, BaseWrite.work, BaseFlush.work, cb]
    omega
  case dataFlushFailed o op id flush cb | dataFlushOnly o op id flush cb clean |
      metadataWriteRefused o op id flush cb dirty | metadataFlushFailed o op id flush cb |
      metadataFlushDone o op id flush cb =>
    simp only [State.work]
    rw [outstanding_update inv.fresh.flushes flush, outstanding_eq inv.fresh.flushes flush]
    simp only [Option.elim_none, BaseFlush.work, cb]
    omega
  case metadataWriteStarted o op id flush cb dirty =>
    simp only [State.work, outstanding_start]
    rw [outstanding_update inv.fresh.flushes flush, outstanding_eq inv.fresh.flushes flush]
    simp only [Option.elim_none, BaseFlush.work, BaseWrite.work, unmoved_none, cb]
    omega
  all_goals simp [Label.isSubmit] at old

end Lower

/-- What the work is lowered under. -/
structure Workable (dev : UbiBdev) (C : Finset ChId) (K : Finset ReqId) (s : State) : Prop where
  requests : RequestsPlaced s
  writes : WritesMatch dev s
  bounded : ∀ c, (s.queue c).Bounded ubiFetchQueueSize
  confined : Confined C K s

def Toiling (dev : UbiBdev) (s t : State) : Prop := ∃ l, Act dev s l t ∧ l.isSubmit = false

theorem workable_toiling (inv : Workable dev C K s) (act : Toiling dev s t) :
    Workable dev C K t := by
  obtain ⟨l, act, old⟩ := act
  exact ⟨requestsPlaced_act inv.requests act, writesMatch_act inv.writes act,
    bounded_act inv.bounded act, confined_act inv.confined act old⟩

theorem Workable.lower (inv : Workable dev C K s) (act : Toiling dev s t) :
    t.work dev C K < s.work dev C K := by
  obtain ⟨l, act, old⟩ := act
  exact work_lt inv.requests inv.writes inv.bounded inv.confined act old

theorem confined_submit {c : ChId} {id : ReqId} {r : Request} (inv : Confined C K s)
    (act : Act dev s (.submit c id r) t) : Confined (insert c C) (insert id K) t := by
  obtain ⟨channels, requests, waiting⟩ := inv
  refine ⟨fun d out => ?_, fun j out => ?_, fun j wait => ?_⟩
  · have idle := channels d fun inside => out (Finset.mem_insert_of_mem inside)
    have other : d ≠ c := fun same => out (same ▸ Finset.mem_insert_self c C)
    cases act <;> grind -linarith
  · have unknown := requests j fun inside => out (Finset.mem_insert_of_mem inside)
    have other : j ≠ id := fun same => out (same ▸ Finset.mem_insert_self id K)
    cases act <;> grind -linarith
  · cases act <;> exact Finset.mem_insert_of_mem (waiting j wait)

theorem exists_workable_act (inv : ∃ C K, Workable dev C K s) (act : Act dev s l t) :
    ∃ C K, Workable dev C K t := by
  obtain ⟨C, K, inv⟩ := inv
  cases l with
  | submit c id r =>
      exact ⟨_, _, requestsPlaced_act inv.requests act, writesMatch_act inv.writes act,
        bounded_act inv.bounded act, confined_submit inv.confined act⟩
  | _ => exact ⟨C, K, workable_toiling inv ⟨_, act, rfl⟩⟩

theorem exists_workable_reach {base : Bytes} {allowed : State → Event → Prop}
    (created : Created dev base s₀) (run : Reach dev allowed s₀ s) :
    ∃ C K, Workable dev C K s := by
  refine reach_invariant (P := fun s => ∃ C K, Workable dev C K s)
    (fun inv act => exists_workable_act inv act) run ⟨∅, ∅, ?_⟩
  have matching := writesMatch_created created
  obtain ⟨table, _, rfl⟩ := created
  refine ⟨requestsPlaced_newState base table, matching, fun c => ?_, ?_⟩
  · show newChannel.stripeFetchQueue.Bounded ubiFetchQueueSize
    decide
  · constructor <;> simp [newState, newChannel]

/-- The event is no submission, and something happens in it. -/
def Productive (dev : UbiBdev) (s : State) (e : Event) : Prop :=
  e.label.isSubmit = false ∧ step dev s e ≠ .ok s

/-- An event in which something happens is one act at least. -/
theorem step_toils {e : Event} (old : e.label.isSubmit = false) (h : step dev s e = .ok t)
    (changed : t ≠ s) : Relation.TransGen (Toiling dev) s t := by
  obtain act | ⟨quiet, acts⟩ := step_acts h
  · exact .single ⟨_, act, old⟩
  · have toils : Relation.ReflTransGen (Toiling dev) s t :=
      Relation.ReflTransGen.mono (fun _ _ act => ⟨_, act, rfl⟩) _ _ acts
    exact (Relation.reflTransGen_iff_eq_or_transGen.mp toils).resolve_left changed

theorem Workable.toils (inv : Workable dev C K s) (acts : Relation.TransGen (Toiling dev) s t) :
    Workable dev C K t ∧ t.work dev C K < s.work dev C K := by
  induction acts with
  | single act => exact ⟨workable_toiling inv act, inv.lower act⟩
  | tail _ act ih => exact ⟨workable_toiling ih.1 act, (ih.1.lower act).trans ih.2⟩

/-- From every state of every run, however its calls fail, there is a bound on the acts that
can follow before the next submission, and on the events in which anything happens. -/
theorem work_bounded_between_submissions {base : Bytes} {allowed : State → Event → Prop}
    (created : Created dev base s₀) (run : Reach dev allowed s₀ s) :
    ∃ n, (∀ past t, Runs.Path (Toiling dev) s past t → past.length ≤ n) ∧
      ∀ past t, Runs.Trace (step dev) (Productive dev) s past t → past.length ≤ n := by
  obtain ⟨C, K, inv⟩ := exists_workable_reach created run
  refine ⟨s.work dev C K, fun past t path => ?_, fun past t trace => ?_⟩
  · have bound := path_length_le (P := Workable dev C K) (State.work dev C K)
      workable_toiling Workable.lower inv path
    omega
  · have toils {s t : State} {e : Event} (inv : Workable dev C K s)
        (productive : Productive dev s e) (h : step dev s e = .ok t) :
        Workable dev C K t ∧ t.work dev C K < s.work dev C K := by
      have changed : t ≠ s := fun same => productive.2 (same ▸ h)
      exact inv.toils (step_toils productive.1 h changed)
    have bound := trace_length_le (State.work dev C K)
      (fun inv productive h => (toils inv productive h).1)
      (fun inv productive h => (toils inv productive h).2) inv trace
    omega

/-- A READ served from the image and a WRITE that waits for its stripe. -/
def readAndWrite : List Event :=
  [.submit 0 0 ⟨.read, 0, 1, fun _ => 0⟩, .poll 0 .success,
    .submit 1 1 ⟨.write, 1, 1, fun _ => 5⟩]

theorem work_bounded_readAndWrite :
    ∃ s, Reach (threeBlockBdev false) anyStep (blankState (threeBlockBdev false)) s ∧
      (s.channel 0).submitted ≠ [] ∧ (s.channel 1).io = [1] ∧
      ∃ n, (∀ past t, Runs.Path (Toiling (threeBlockBdev false)) s past t → past.length ≤ n) ∧
        ∀ past t, Runs.Trace (step (threeBlockBdev false)) (Productive (threeBlockBdev false))
          s past t → past.length ≤ n := by
  have ran : (Runs.exec (step (threeBlockBdev false)) (fun _ _ => true)
      (blankState (threeBlockBdev false)) readAndWrite).any (fun s =>
        decide ((s.channel 0).submitted ≠ [] ∧ (s.channel 1).io = [1])) = true := by
    decide +kernel
  obtain ⟨s, run, test⟩ := Runs.exists_reach_of_exec (fun _ _ _ _ => trivial) ran
  simp only [decide_eq_true_eq] at test
  exact ⟨s, run, test.1, test.2, work_bounded_between_submissions (created_blankState _) run⟩

end BdevUbi
