import BdevUbi.MetadataWrites

/-!
The chain of operations of a FLUSH: a data flush, a metadata write and a metadata flush,
each submitted when the one before it has succeeded. Every exit of the chain completes
the FLUSH with a verdict, but for one: a data flush that completes with failure.
-/

namespace BdevUbi
open Placement

variable {dev : UbiBdev} {s₀ s t : State} {l : Label} {id : ReqId}

inductive ChainOp where
  | dataFlush | metadataWrite | metadataFlush
  deriving DecidableEq, Repr

/-- The operation of FLUSH `id` that completes, with its outcome. -/
def State.outcome (s : State) (id : ReqId) : Label → Option (ChainOp × Bool)
  | .writeDone o success =>
    if (s.writes o).map BaseWrite.cb = some (.metadata id) then some (.metadataWrite, success)
    else none
  | .flushDone o success =>
    if (s.flushes o).map BaseFlush.cb = some (.data id) then some (.dataFlush, success)
    else if (s.flushes o).map BaseFlush.cb = some (.metadata id) then some (.metadataFlush, success)
    else none
  | _ => none

/-- The operations of FLUSH `id` that have completed in a run, newest first. -/
def chain (id : ReqId) (past : List (State × Event)) : List (ChainOp × Bool) :=
  past.filterMap fun done => done.1.outcome id done.2.label

theorem chain_cons (id : ReqId) (s : State) (e : Event) (past : List (State × Event)) :
    chain id ((s, e) :: past) = (s.outcome id e.label).toList ++ chain id past := by
  cases h : s.outcome id e.label <;> simp [chain, h]

/-- Every operation of a chain has succeeded, and none is missing. -/
def Succeeded (ops : List (ChainOp × Bool)) : Prop :=
  ops = [(.dataFlush, true)] ∨
    ops = [(.metadataFlush, true), (.metadataWrite, true), (.dataFlush, true)]

/-- The operations of a FLUSH that have completed tell at which stage it is. -/
structure ChainMatches (dev : UbiBdev) (id : ReqId) (ops : List (ChainOp × Bool)) (s : State) :
    Prop where
  new : s.request id = none → ops = []
  listed : ∀ c, id ∈ (s.channel c).io → ops = []
  dataFlush : ∀ o op, s.flushes o = some op → op.cb = .data id → ops = []
  metadataWrite : ∀ o op, s.writes o = some op → op.cb = .metadata id → ops = [(.dataFlush, true)]
  metadataFlush : ∀ o op, s.flushes o = some op → op.cb = .metadata id →
    ops = [(.metadataWrite, true), (.dataFlush, true)]
  completed : ∀ r, s.request id = some r → r.type = .flush → .completed id true ∈ s.log →
    dev.noSync = true ∨ Succeeded ops
  failed : .dataFlushDone id false ∈ s.log ↔ (.dataFlush, false) ∈ ops

theorem listed_origin (act : Act dev s l t) {c : ChId} (h : id ∈ (t.channel c).io) :
    id ∈ (s.channel c).io ∨ s.request id = none := by
  cases act <;> first | exact .inl h | grind

/-- An operation that completes is the one its FLUSH was waiting for. -/
theorem outcome_place {done : ChainOp × Bool} (h : s.outcome id l = some done) :
    (∃ o, l = .flushDone o done.2 ∧ done.1 = .dataFlush ∧ s.occurrences id (.dataFlush o) ≠ 0) ∨
    (∃ o, l = .writeDone o done.2 ∧ done.1 = .metadataWrite ∧
      s.occurrences id (.metadataWrite o) ≠ 0) ∨
    ∃ o, l = .flushDone o done.2 ∧ done.1 = .metadataFlush ∧
      s.occurrences id (.metadataFlush o) ≠ 0 := by
  cases l with
  | quiet | submit c j r => simp [State.outcome] at h
  | writeDone o success =>
      simp only [State.outcome] at h
      split at h
      · next cb =>
        cases h
        exact .inr (.inl ⟨o, rfl, rfl, by simp [State.occurrences, cb]⟩)
      · cases h
  | flushDone o success =>
      simp only [State.outcome] at h
      split at h
      · next cb =>
        cases h
        exact .inl ⟨o, rfl, rfl, by simp [State.occurrences, cb]⟩
      split at h
      · next cb =>
        cases h
        exact .inr (.inr ⟨o, rfl, rfl, by simp [State.occurrences, cb]⟩)
      · cases h

theorem outcome_none (inv : RequestsPlaced s) {p : Place} (here : s.occurrences id p ≠ 0)
    (data : ∀ o ok, p = .dataFlush o → l ≠ .flushDone o ok)
    (write : ∀ o ok, p = .metadataWrite o → l ≠ .writeDone o ok)
    (flush : ∀ o ok, p = .metadataFlush o → l ≠ .flushDone o ok) : s.outcome id l = none := by
  cases h : s.outcome id l with
  | none => rfl
  | some done =>
      rcases outcome_place h with ⟨o, label, _, there⟩ | ⟨o, label, _, there⟩ | ⟨o, label, _, there⟩
      · exact absurd label (data o _ (inv.place_unique here there))
      · exact absurd label (write o _ (inv.place_unique here there))
      · exact absurd label (flush o _ (inv.place_unique here there))

theorem outcome_none_of_new (inv : RequestsPlaced s) (new : s.request id = none) :
    s.outcome id l = none := by
  cases h : s.outcome id l with
  | none => rfl
  | some done =>
      rcases outcome_place h with ⟨o, _, _, there⟩ | ⟨o, _, _, there⟩ | ⟨o, _, _, there⟩ <;>
        simpa [new] using inv.suits_of_occurs there

theorem outcome_none_of_listed (inv : RequestsPlaced s) {c : ChId}
    (listed : id ∈ (s.channel c).io) :
    s.outcome id l = none :=
  outcome_none inv (p := .listed c) (List.count_pos_iff.mpr listed).ne' (by simp) (by simp)
    (by simp)

theorem flush_ended {o : Nat} {ok : Bool} (act : Act dev s (.flushDone o ok) t) :
    t.flushes o = none := by
  cases act <;> exact Function.update_self ..

theorem write_ended {o : Nat} {ok : Bool} (act : Act dev s (.writeDone o ok) t) :
    t.writes o = none := by
  cases act <;> exact Function.update_self ..

theorem dataFlush_failed_act (act : Act dev s l t) :
    .dataFlushDone id false ∈ t.log ↔
      .dataFlushDone id false ∈ s.log ∨ s.outcome id l = some (.dataFlush, false) := by
  cases act with
  | dataFlushFailed flush cb | dataFlushOnly flush cb | metadataWriteRefused flush cb
  | metadataWriteStarted flush cb | metadataFlushFailed flush cb | metadataFlushDone flush cb =>
      simp only [State.outcome, flush, cb, Option.map_some]
      grind
  | ioWriteDone success write cb | stripeWriteDone success write cb
  | metadataWriteFailed success write cb =>
      simp only [State.outcome, write, cb, Option.map_some]
      grind
  | metadataWriteDone write cb =>
      simp only [State.outcome, write, cb, Option.map_some]
      grind
  | _ => simp [State.outcome]

theorem chainMatches_act {ops : List (ChainOp × Bool)} (inv : RequestsPlaced s)
    (before : ChainMatches dev id ops s) (act : Act dev s l t) :
    ChainMatches dev id ((s.outcome id l).toList ++ ops) t := by
  have listed {c : ChId} (h : id ∈ (s.channel c).io) : (s.outcome id l).toList ++ ops = [] := by
    rw [outcome_none_of_listed inv h, before.listed c h]
    rfl
  have new (h : s.request id = none) : (s.outcome id l).toList ++ ops = [] := by
    rw [outcome_none_of_new inv h, before.new h]
    rfl
  have flushing {o : Nat} {op : BaseFlush} (after : t.flushes o = some op)
      (flush : s.flushes o = some op) : s.outcome id l = none ∨
        (op.cb ≠ .data id ∧ op.cb ≠ .metadata id) := by
    have other (ok : Bool) : l ≠ .flushDone o ok := by
      rintro rfl
      simp [flush_ended act] at after
    by_cases data : op.cb = .data id
    · refine .inl (outcome_none inv (p := .dataFlush o) ?_ ?_ (by simp) (by simp))
      · simp [State.occurrences, flush, data]
      · rintro _ ok ⟨⟩
        exact other ok
    by_cases metadata : op.cb = .metadata id
    · refine .inl (outcome_none inv (p := .metadataFlush o) ?_ (by simp) (by simp) ?_)
      · simp [State.occurrences, flush, metadata]
      · rintro _ ok ⟨⟩
        exact other ok
    exact .inr ⟨data, metadata⟩
  refine ⟨fun fresh => new ?_, fun c here => ?_, fun o op flush' cb => ?_,
    fun o op' write' cb' => ?_, fun o op flush' cb => ?_, fun r known' type done => ?_, ?_⟩
  · cases h : s.request id with
    | none => rfl
    | some r => simp [act_request act h] at fresh
  · rcases listed_origin act here with old | fresh
    · exact listed old
    · exact new fresh
  · rcases flush_origin act flush' with flush | ⟨_, issued⟩
    · have unheard := (flushing flush' flush).resolve_right (by simp [cb])
      rw [unheard, before.dataFlush o op flush cb]
      rfl
    · simp only [FlushIssued, cb] at issued
      obtain ⟨c, rest, _, first, _⟩ := issued
      exact listed (c := c) (by simp [first])
  · rcases metadataWrite_origin act write' cb' with ⟨op, write, cb⟩ | ⟨o', op, rfl, flush, cb, _⟩
    · have unheard : s.outcome id l = none := by
        refine outcome_none inv (p := .metadataWrite o) ?_ (by simp) ?_ (by simp)
        · simp [State.occurrences, write, cb]
        · rintro _ ok ⟨⟩ rfl
          simp [write_ended act] at write'
      rw [unheard, before.metadataWrite o op write cb]
      rfl
    · rw [before.dataFlush o' op flush cb]
      simp [State.outcome, flush, cb]
  · rcases flush_origin act flush' with flush | ⟨_, issued⟩
    · have unheard := (flushing flush' flush).resolve_right (by simp [cb])
      rw [unheard, before.metadataFlush o op flush cb]
      rfl
    · simp only [FlushIssued, cb] at issued
      obtain ⟨o', wop, rfl, write, cb', _⟩ := issued
      rw [before.metadataWrite o' wop write cb']
      simp [State.outcome, write, cb']
  · have known := known_of_completed inv act done known'
    by_cases already : .completed id true ∈ s.log
    · have unheard : s.outcome id l = none :=
        outcome_none inv (p := .completed) (by simp [(inv.at_completed already).eq_one])
          (by simp) (by simp) (by simp)
      rw [unheard]
      exact before.completed r known type already
    · rcases flush_completed_act inv act known type done already with skip |
        ⟨o, op, rfl, flush, ⟨cb, _⟩ | ⟨cb, _⟩⟩
      · exact .inl skip
      · rw [before.dataFlush o op flush cb]
        exact .inr (.inl (by simp [State.outcome, flush, cb]))
      · rw [before.metadataFlush o op flush cb]
        exact .inr (.inr (by simp [State.outcome, flush, cb]))
  · rw [dataFlush_failed_act act, before.failed, List.mem_append, Option.mem_toList, or_comm]

abbrev Trace (dev : UbiBdev) (s₀ : State) : List (State × Event) → State → Prop :=
  Runs.Trace (step dev) anyStep s₀

variable {base : Bytes} {past : List (State × Event)}

theorem chainMatches_step {ops : List (ChainOp × Bool)} {e : Event} (inv : RequestsPlaced s)
    (before : ChainMatches dev id ops s) (move : step dev s e = .ok t) :
    ChainMatches dev id ((s.outcome id e.label).toList ++ ops) t := by
  rcases step_acts move with act | ⟨quiet, acts⟩
  · exact chainMatches_act inv before act
  · rw [quiet]
    exact (acts.invariant (P := fun s => RequestsPlaced s ∧ ChainMatches dev id ops s)
      (fun inv act => ⟨requestsPlaced_act inv.1 act, chainMatches_act inv.1 inv.2 act⟩)
      ⟨inv, before⟩).2

theorem chainMatches_trace (created : Created dev base s₀) (run : Trace dev s₀ past s)
    (id : ReqId) : ChainMatches dev id (chain id past) s := by
  induction run with
  | refl =>
      obtain ⟨table, _, rfl⟩ := created
      constructor <;> simp [chain, newState, newChannel]
  | @tail past s t e before ok move ih =>
      rw [chain_cons]
      exact chainMatches_step (requestsPlaced_reach created before.reach) ih move

/-- Only the success of a whole chain changes the number of flushed stripes. -/
theorem flushed_by_chain {e : Event} (created : Created dev base s₀) (run : Trace dev s₀ past s)
    (move : step dev s e = .ok t) (changed : t.stripesFlushed ≠ s.stripesFlushed) :
    ∃ id, t.log = .completed id true :: s.log ∧ Succeeded (chain id ((s, e) :: past)) := by
  rcases step_acts move with act | ⟨_, acts⟩
  · rcases flushed_act act with same | ⟨o, op, id, label, flush, cb, _⟩
    · exact absurd same changed
    · have stage := (chainMatches_trace created run id).metadataFlush o op flush cb
      refine ⟨id, ?_, .inr ?_⟩
      · rw [label] at act
        cases act <;> grind
      · rw [chain_cons, stage]
        simp [label, State.outcome, flush, cb]
  · refine absurd ?_ changed
    refine acts.invariant (P := fun t => t.stripesFlushed = s.stripesFlushed) ?_ rfl
    intro t u same act
    rcases flushed_act act with kept | ⟨_, _, _, label, _⟩
    · rw [kept, same]
    · cases label

/-- A FLUSH is at exactly one place, once, unless its data flush completed with failure:
it waits in a list, or one operation is outstanding for it, or it has been completed.
It is completed with success only if its whole chain has succeeded, and no other chain
changes the number of flushed stripes. -/
theorem flush_ends_once (created : Created dev base s₀) (run : Trace dev s₀ past s) :
    (∀ id r, s.request id = some r → r.type = .flush →
      ((∃ p, At (s.occurrences id) (some p) ∧ p.suits .flush) ↔
        (.dataFlush, false) ∉ chain id past) ∧
      (.completed id true ∈ s.log → dev.noSync = true ∨ Succeeded (chain id past))) ∧
    ∀ e t, step dev s e = .ok t → t.stripesFlushed ≠ s.stripesFlushed →
      ∃ id, t.log = .completed id true :: s.log ∧ Succeeded (chain id ((s, e) :: past)) := by
  have inv := requestsPlaced_reach created run.reach
  have kinds := loggedKinds_reach created run.reach
  refine ⟨fun id r known type => ⟨?_, (chainMatches_trace created run id).completed r known type⟩,
    fun e t => flushed_by_chain created run⟩
  rw [← (chainMatches_trace created run id).failed]
  constructor
  · rintro ⟨p, there, _⟩ failed
    exact lost_nowhere inv (.inr failed) ⟨p, there⟩
  · intro kept
    rcases inv.placed_or_lost known with ⟨p, there, suits⟩ | refused | failed
    · exact ⟨p, there, type ▸ suits⟩
    · obtain ⟨r', known', write⟩ := kinds.write id false refused
      obtain rfl : r = r' := Option.some.inj (known.symm.trans known')
      cases type.symm.trans write
    · exact absurd failed kept

def oneFlush (success : Bool) : List Event :=
  [.submit 0 0 ⟨.flush, 0, 1, fun _ => 0⟩, .poll 0 .success, .flushDone 0 success 0]

theorem flush_ends_once_oneFlush :
    ∃ past s, Trace (threeBlockBdev false) (blankState (threeBlockBdev false)) past s ∧
      .completed 0 true ∈ s.log ∧ Succeeded (chain 0 past) := by
  have ran : (Runs.exec (step (threeBlockBdev false)) (fun _ _ => true)
      (blankState (threeBlockBdev false)) (oneFlush true)).any (fun s =>
        (s.request 0).any (fun r => r.type = .flush) && decide (.completed 0 true ∈ s.log)) =
      true := by decide +kernel
  obtain ⟨s, run, test⟩ := Runs.exists_reach_of_exec (fun _ _ _ _ => trivial) ran
  simp only [Bool.and_eq_true, Option.any_eq_true, decide_eq_true_eq] at test
  obtain ⟨⟨r, known, type⟩, done⟩ := test
  obtain ⟨past, trace⟩ := run.exists_trace
  have verdict := ((flush_ends_once (created_blankState _) trace).1 0 r known type).2 done
  exact ⟨past, s, trace, done, verdict.resolve_left (by decide)⟩

/-- `ubi_data_flush_completion` returns on failure without completing the FLUSH, which no
operation owns any more. -/
theorem failed_flush_nowhere :
    ∃ s, Reach (threeBlockBdev false) anyStep (blankState (threeBlockBdev false)) s ∧
      (∃ r, s.request 0 = some r ∧ r.type = .flush) ∧
      ¬ ∃ p, At (s.occurrences 0) (some p) := by
  have ran : (Runs.exec (step (threeBlockBdev false)) (fun _ _ => true)
      (blankState (threeBlockBdev false)) (oneFlush false)).any (fun s =>
        (s.request 0).any (fun r => r.type = .flush) && decide (.dataFlushDone 0 false ∈ s.log)) =
      true := by decide +kernel
  obtain ⟨s, run, test⟩ := Runs.exists_reach_of_exec (fun _ _ _ _ => trivial) ran
  simp only [Bool.and_eq_true, Option.any_eq_true, decide_eq_true_eq] at test
  obtain ⟨known, failed⟩ := test
  exact ⟨s, run, known,
    lost_nowhere (requestsPlaced_reach (created_blankState _) run) (.inr failed)⟩

end BdevUbi
