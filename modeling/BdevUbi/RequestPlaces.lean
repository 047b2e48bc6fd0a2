import BdevUbi.RequestMoves

/-!
Where a request is. In every reachable state a submitted request is at exactly one
place, once, unless one of the two outcomes that lose it has happened.
-/

namespace BdevUbi
open Placement

variable {dev : UbiBdev} {s t : State} {l : Label}

/-- A request is at `loc`: at one place that suits it, or at none because it has not
been submitted or is lost. -/
structure Placed (s : State) (id : ReqId) (loc : Option Place) : Prop where
  counts : At (s.occurrences id) loc
  owned : ∀ p, loc = some p → ∃ r, s.request id = some r ∧ p.suits r.type
  lost : loc = none → s.request id = none ∨ Lost id s.log
  submitted : Lost id s.log → loc = none ∧ s.request id ≠ none

structure RequestsPlaced (s : State) : Prop where
  fresh : OpsFresh s
  placed : ∀ id, ∃ loc, Placed s id loc

namespace RequestsPlaced

theorem place_unique (inv : RequestsPlaced s) {id : ReqId} {p q : Place}
    (hp : s.occurrences id p ≠ 0) (hq : s.occurrences id q ≠ 0) : p = q := by
  obtain ⟨loc, at_loc⟩ := inv.placed id
  exact Option.some.inj ((at_loc.counts.eq_some hp).symm.trans (at_loc.counts.eq_some hq))

theorem suits_of_occurs (inv : RequestsPlaced s) {id : ReqId} {p : Place}
    (hp : s.occurrences id p ≠ 0) : ∃ r, s.request id = some r ∧ p.suits r.type := by
  obtain ⟨loc, at_loc⟩ := inv.placed id
  exact at_loc.owned p (at_loc.counts.eq_some hp)

theorem idle_of_listed (inv : RequestsPlaced s) {c : ChId} {id : ReqId}
    (listed : id ∈ (s.channel c).io) : s.waiting id = false := by
  by_contra waiting
  have first : s.occurrences id (.listed c) ≠ 0 := (List.count_pos_iff.mpr listed).ne'
  have second : s.occurrences id .buffer ≠ 0 := by simp [State.occurrences, waiting]
  cases inv.place_unique first second

theorem placed_or_lost (inv : RequestsPlaced s) {id : ReqId} {r : Request}
    (known : s.request id = some r) :
    (∃ p, At (s.occurrences id) (some p) ∧ p.suits r.type) ∨ Lost id s.log := by
  obtain ⟨loc, placed⟩ := inv.placed id
  cases loc with
  | some p =>
      obtain ⟨r', known', suits⟩ := placed.owned p rfl
      obtain rfl : r = r' := Option.some.inj (known.symm.trans known')
      exact .inl ⟨p, placed.counts, suits⟩
  | none => exact .inr ((placed.lost rfl).resolve_left (by simp [known]))

end RequestsPlaced

theorem placed_of_effect (before : ∀ id, ∃ loc, Placed s id loc) (effect : RequestEffect s t)
    (id : ReqId) : ∃ loc, Placed t id loc := by
  obtain ⟨loc, counts, owned, lost, submitted⟩ := before id
  cases effect with
  | stay req kept same =>
      exact ⟨loc, by rwa [same], by rwa [req], by rwa [req, kept], by rwa [req, kept]⟩
  | submit j r q new req kept suits move =>
      by_cases same : id = j
      · subst same
        have nowhere : loc = none := by
          cases loc with
          | none => rfl
          | some p =>
              obtain ⟨r, known, _⟩ := owned p rfl
              simp [new] at known
        subst nowhere
        refine ⟨some q, counts.move move.counts, ?_, by simp, ?_⟩
        · rintro p ⟨⟩
          exact ⟨r, by simp [req], suits⟩
        · intro gone
          exact absurd new (submitted ((kept id).mp gone)).2
      · have frame : t.request id = s.request id := by rw [req, Function.update_of_ne same]
        exact ⟨loc, by rwa [move.others id same], by rwa [frame], by rwa [frame, kept],
          by rwa [frame, kept]⟩
  | move j p q req kept source suits move =>
      by_cases same : id = j
      · subst same
        obtain rfl : loc = some p := counts.eq_some source
        refine ⟨some q, counts.move move.counts, ?_, by simp, ?_⟩
        · rintro p' ⟨⟩
          obtain ⟨r, known, suit⟩ := owned p rfl
          exact ⟨r, by rwa [req], suits r known suit⟩
        · intro gone
          cases (submitted ((kept id).mp gone)).1
      · exact ⟨loc, by rwa [move.others id same], by rwa [req], by rwa [req, kept],
          by rwa [req, kept]⟩
  | lose j p req kept source move =>
      by_cases same : id = j
      · subst same
        obtain rfl : loc = some p := counts.eq_some source
        obtain ⟨r, known, _⟩ := owned p rfl
        exact ⟨none, counts.move move.counts, by simp, fun _ => .inr ((kept id).mpr (.inr rfl)),
          fun _ => ⟨rfl, by simp [req, known]⟩⟩
      · have kept : Lost id t.log ↔ Lost id s.log := by simp [kept, same]
        exact ⟨loc, by rwa [move.others id same], by rwa [req], by rwa [req, kept],
          by rwa [req, kept]⟩

theorem requestsPlaced_act (inv : RequestsPlaced s) (act : Act dev s l t) : RequestsPlaced t :=
  ⟨opsFresh_act inv.fresh act,
    placed_of_effect inv.placed
      (act_requestEffect inv.fresh (fun _ _ listed => inv.idle_of_listed listed) act)⟩

theorem requestsPlaced_newState (base : Bytes) (table : StripeTable) :
    RequestsPlaced (newState base table) := by
  refine ⟨⟨fun _ _ => rfl, fun _ _ => rfl, fun _ _ => rfl⟩, fun id => ⟨none, ?_⟩⟩
  refine ⟨at_none.mpr fun p => ?_, by simp, fun _ => .inl rfl, ?_⟩
  · cases p <;> rfl
  · rintro (gone | gone) <;> cases gone

theorem lost_nowhere {id : ReqId} (inv : RequestsPlaced s) (lost : Lost id s.log) :
    ¬ ∃ p, At (s.occurrences id) (some p) := by
  rintro ⟨p, there⟩
  obtain ⟨loc, placed⟩ := inv.placed id
  have := (placed.submitted lost).1.symm.trans (placed.counts.unique there)
  cases this

theorem requestsPlaced_reach {base : Bytes} {s₀ : State} {allowed : State → Event → Prop}
    (created : Created dev base s₀) (run : Reach dev allowed s₀ s) : RequestsPlaced s := by
  obtain ⟨table, _, rfl⟩ := created
  exact reach_invariant requestsPlaced_act run (requestsPlaced_newState base table)

/-- What is logged about base writes and data flushes is about WRITEs and FLUSHes. -/
structure LoggedKinds (s : State) : Prop where
  write : ∀ id ok, .userWrite id ok ∈ s.log → ∃ r, s.request id = some r ∧ r.type = .write
  flush : ∀ id ok, .dataFlushDone id ok ∈ s.log → ∃ r, s.request id = some r ∧ r.type = .flush

theorem loggedKinds_act (inv : RequestsPlaced s) (kinds : LoggedKinds s) (act : Act dev s l t) :
    LoggedKinds t := by
  have flushing {o op id} (flush : s.flushes o = some op) (cb : op.cb = .data id) :
      ∃ r, s.request id = some r ∧ r.type = .flush :=
    inv.suits_of_occurs (p := .dataFlush o) (by simp [State.occurrences, flush, cb])
  obtain ⟨write, flush⟩ := kinds
  constructor
  · intro id ok logged
    cases act <;> first
      | exact write id ok logged
      | grind -linarith
  · intro id ok logged
    cases act <;> first
      | exact flush id ok logged
      | grind -linarith

/-- A request that entered, and one that left, the list of a channel. -/
def Obs.queuedOn (c : ChId) : Obs → Option ReqId
  | .queued d id => if d = c then some id else none
  | _ => none

def Obs.unqueuedOn (c : ChId) : Obs → Option ReqId
  | .unqueued d id => if d = c then some id else none
  | _ => none

/-- The list of a channel holds the requests that entered it and have not left, and
they leave in the order in which they entered. -/
def InOrder (s : State) : Prop :=
  ∀ c, s.log.filterMap (Obs.queuedOn c) =
    (s.channel c).io.reverse ++ s.log.filterMap (Obs.unqueuedOn c)

theorem inOrder_act (order : InOrder s) (act : Act dev s l t) : InOrder t := by
  intro c
  have before := order c
  cases act <;> simp only [List.filterMap_cons, Obs.queuedOn, Obs.unqueuedOn] <;> grind -linarith

theorem loggedKinds_reach {base : Bytes} {s₀ : State} {allowed : State → Event → Prop}
    (created : Created dev base s₀) (run : Reach dev allowed s₀ s) : LoggedKinds s := by
  obtain ⟨table, _, rfl⟩ := created
  exact (reach_invariant (P := fun s => RequestsPlaced s ∧ LoggedKinds s)
    (fun inv act => ⟨requestsPlaced_act inv.1 act, loggedKinds_act inv.1 inv.2 act⟩) run
    ⟨requestsPlaced_newState base table, by simp [newState], by simp [newState]⟩).2

theorem inOrder_reach {base : Bytes} {s₀ : State} {allowed : State → Event → Prop}
    (created : Created dev base s₀) (run : Reach dev allowed s₀ s) : InOrder s := by
  obtain ⟨table, _, rfl⟩ := created
  exact reach_invariant inOrder_act run fun _ => rfl

/-- The operations that can own a READ or a WRITE complete it when they complete. -/
def CompletesOwner (dev : UbiBdev) (s : State) (id : ReqId) : Place → Prop
  | .ring c => ∀ cqe rest ret, (s.channel c).cqes = cqe :: rest →
      cqe.sqe.userData = .bdevIo id →
      .completed id (decide (0 ≤ cqe.res)) ∈ (completeCqe dev s c cqe rest ret).2.log
  | .baseRead o => ∀ success t, step dev s (.readDone o success) = .ok t →
      .completed id success ∈ t.log
  | .baseWrite o => ∀ success ret t, step dev s (.writeDone o success ret) = .ok t →
      .completed id success ∈ t.log
  | _ => True

theorem completesOwner_of_occurs {id : ReqId} {p : Place} (there : s.occurrences id p ≠ 0) :
    CompletesOwner dev s id p := by
  cases p with
  | ring c =>
      intro cqe rest ret first tag
      simp only [completeCqe, tag, ubiCompleteReadFromImage, ubiCompleteIo_eq]
      by_cases bad : cqe.res < 0
      · simp [bad]
      · simp [bad, Int.not_lt.mp bad]
  | baseRead o =>
      intro success t done
      obtain ⟨op, read, rfl⟩ : ∃ op, s.reads o = some op ∧ op.req = id := by
        simpa [State.occurrences] using there
      simp only [step, baseReadDone, read] at done
      split at done
      · cases done
      · cases done
        simp [ubiIoCompletionCb, ubiCompleteIo_eq]
  | baseWrite o =>
      intro success ret t done
      obtain ⟨op, write, cb⟩ : ∃ op, s.writes o = some op ∧ op.cb = .io id := by
        simpa [State.occurrences] using there
      simp only [step, baseWriteDone, write, cb] at done
      split at done
      · cases done
      · cases done
        simp [ubiIoCompletionCb, ubiCompleteIo_eq]
  | _ => trivial

/-- A READ or WRITE is at exactly one place, once, as long as its base write is not
refused; a refused WRITE is nowhere. Requests leave a channel's list in order. -/
theorem request_at_one_place {base : Bytes} {s₀ : State} (created : Created dev base s₀)
    (run : Reach dev anyStep s₀ s) :
    (∀ id r, s.request id = some r → r.type = .read ∨ r.type = .write →
      ((∃ p, At (s.occurrences id) (some p) ∧ p.suits r.type ∧ CompletesOwner dev s id p) ↔
        .userWrite id false ∉ s.log)) ∧
    ∀ c, s.log.reverse.filterMap (Obs.queuedOn c) =
      s.log.reverse.filterMap (Obs.unqueuedOn c) ++ (s.channel c).io := by
  have inv := requestsPlaced_reach created run
  have kinds := loggedKinds_reach created run
  constructor
  · intro id r known kind
    constructor
    · rintro ⟨p, there, _⟩ refused
      exact lost_nowhere inv (.inl refused) ⟨p, there⟩
    · intro kept
      rcases inv.placed_or_lost known with ⟨p, there, suits⟩ | refused | failed
      · exact ⟨p, there, suits, completesOwner_of_occurs (by simp [there.eq_one])⟩
      · exact absurd refused kept
      · obtain ⟨r', known', flush⟩ := kinds.flush id false failed
        obtain rfl : r = r' := Option.some.inj (known.symm.trans known')
        simp [flush] at kind
  · intro c
    have order := congrArg List.reverse (inOrder_reach created run c)
    simpa [List.filterMap_reverse] using order

def oneWrite (baseRet : Int) : List Event :=
  [.submit 0 0 ⟨.write, 2, 1, fun _ => 5⟩,
    .poll 0 { PollEnv.success with baseRet := fun _ => baseRet }]

theorem request_at_one_place_oneWrite :
    ∃ s, Reach (threeBlockBdev false) anyStep (blankState (threeBlockBdev false)) s ∧
      ∃ p, At (s.occurrences 0) (some p) := by
  have ran : (Runs.exec (step (threeBlockBdev false)) (fun _ _ => true)
      (blankState (threeBlockBdev false)) (oneWrite 0)).any (fun s =>
        (s.request 0).any (fun r => r.type = .write) && decide (.userWrite 0 false ∉ s.log)) =
      true := by decide +kernel
  obtain ⟨s, run, test⟩ := Runs.exists_reach_of_exec (fun _ _ _ _ => trivial) ran
  simp only [Bool.and_eq_true, Option.any_eq_true, decide_eq_true_eq] at test
  obtain ⟨⟨r, known, type⟩, kept⟩ := test
  obtain ⟨p, there, _⟩ :=
    ((request_at_one_place (created_blankState _) run).1 0 r known (.inr type)).mpr kept
  exact ⟨s, run, p, there⟩

/-- `ubi_io_poll` ignores the error of `ubi_submit_write_request`: the WRITE has left
the list, no operation owns it, and it is never completed. -/
theorem refused_write_nowhere :
    ∃ s, Reach (threeBlockBdev false) anyStep (blankState (threeBlockBdev false)) s ∧
      (∃ r, s.request 0 = some r ∧ r.type = .write) ∧
      ¬ ∃ p, At (s.occurrences 0) (some p) := by
  have ran : (Runs.exec (step (threeBlockBdev false)) (fun _ _ => true)
      (blankState (threeBlockBdev false)) (oneWrite (-5))).any (fun s =>
        (s.request 0).any (fun r => r.type = .write) && decide (.userWrite 0 false ∈ s.log)) =
      true := by decide +kernel
  obtain ⟨s, run, test⟩ := Runs.exists_reach_of_exec (fun _ _ _ _ => trivial) ran
  simp only [Bool.and_eq_true, Option.any_eq_true, decide_eq_true_eq] at test
  obtain ⟨known, refused⟩ := test
  exact ⟨s, run, known,
    lost_nowhere (requestsPlaced_reach (created_blankState _) run) (.inl refused)⟩

end BdevUbi
