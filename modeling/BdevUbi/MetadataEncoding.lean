import BdevUbi.StripeLifecycle

/-!
What the in-memory metadata says about the stripes. Headers are set when stripes
are fetched and never otherwise, so the metadata encodes the fetched stripes as
long as it did so at creation.
-/

namespace BdevUbi

def Obs.marksFetched : Obs → Bool
  | .setStatus _ r => r == .fetched
  | _ => false

/-- The record of the stripes as the history determines it. -/
structure Recorded (s₀ s : State) : Prop where
  header : ∀ x, stripeHeader s.metadata x =
    if .fetched ∈ (tally x s.trail).statuses then 1 else stripeHeader s₀.metadata x
  front : ∀ a, a < 14 → s.metadata a = s₀.metadata a
  fetched : s.stripesFetched = s₀.stripesFetched + s.trail.countP Obs.marksFetched

variable {dev : UbiBdev} {s₀ s t : State} {l : Label}

theorem Recorded.of_kept (before : Recorded s₀ s) (metadata : t.metadata = s.metadata)
    (fetched : t.stripesFetched = s.stripesFetched)
    (statuses : ∀ x, .fetched ∈ (tally x t.trail).statuses ↔ .fetched ∈ (tally x s.trail).statuses)
    (marks : t.trail.countP Obs.marksFetched = s.trail.countP Obs.marksFetched) :
    Recorded s₀ t where
  header x := by simp only [metadata, before.header, statuses]
  front a h := by rw [metadata, before.front a h]
  fetched := by rw [fetched, marks, before.fetched]

attribute [local simp] tally Tally.record Obs.marksFetched in
theorem recorded_effect (before : Recorded s₀ s) (effect : FetchEffect dev s l t) :
    Recorded s₀ t := by
  cases effect with
  | stay record slots places trail =>
      exact before.of_kept record.metadata record.fetched (by simp [trail]) (by simp [trail])
  | enqueue c x cause entered places =>
      refine before.of_kept entered.metadata entered.fetched (fun y => ?_) (by simp [entered.trail])
      by_cases same : x = y <;> simp [entered.trail, same]
  | overflow c x cause entered full places =>
      refine before.of_kept entered.metadata entered.fetched (fun y => ?_) (by simp [entered.trail])
      by_cases same : x = y <;> simp [entered.trail, same]
  | start c k x record active stripe source free places ops trail =>
      refine before.of_kept record.metadata record.fetched (fun y => ?_) (by simp [trail])
      by_cases same : x = y <;> simp [trail, same]
  | writing c k o sqe res record active stripe entry tag good source places ops trail =>
      refine before.of_kept record.metadata record.fetched (fun y => ?_) (by simp [trail])
      by_cases same : (s.slot c k).stripeIdx = y <;> simp [trail, same]
  | readFailed c k sqe res metadata fetched entry tag bad finished trail =>
      refine before.of_kept metadata fetched (fun y => ?_) (by simp [trail])
      by_cases same : (s.slot c k).stripeIdx = y <;> simp [trail, same]
  | writeRefused c k sqe res metadata fetched entry tag good finished trail =>
      refine before.of_kept metadata fetched (fun y => ?_) (by simp [trail])
      by_cases same : (s.slot c k).stripeIdx = y <;> simp [trail, same]
  | written c k o success metadata fetched finished trail =>
      refine ⟨fun x => ?_, fun a front => ?_, by simp [trail, fetched, before.fetched]; omega⟩
      · rw [metadata, stripeHeader_update, before.header]
        by_cases same : x = (s.slot c k).stripeIdx
        · simp [trail, same]
        · simp [trail, same, Ne.symm same]
      · rw [metadata, update_header_of_lt 1 front, before.front a front]

theorem recorded_act (placed : FetchesPlaced dev s) (before : Recorded s₀ s)
    (issued : FetchesIssued t.log) (act : Act dev s l t) : Recorded s₀ t :=
  recorded_effect before (act_fetchEffect placed.fresh placed.bounded
    (fun _ _ _ => placed.active_of_op) issued act)

theorem recorded_created {base : Bytes} (created : Created dev base s₀) : Recorded s₀ s₀ := by
  obtain ⟨table, decoded, rfl⟩ := created
  exact ⟨fun x => rfl, fun _ _ => rfl, rfl⟩

theorem recorded_reach {base : Bytes} {allowed : State → Event → Prop}
    (created : Created dev base s₀) (run : Reach dev allowed s₀ s)
    (issued : FetchesIssued s.log) : Recorded s₀ s :=
  (reach_invariant_log (P := fun s => FetchesPlaced dev s ∧ Recorded s₀ s)
    fetchesIssued_earlier (fun before met act => ⟨fetchesPlaced_act before.1 met act,
      recorded_act before.1 before.2 met act⟩) run
    ⟨(lifecycle_created created).placed, recorded_created created⟩ issued).2

def Encodes (s : State) : Prop :=
  ∀ i, i < ubiMaxStripes → (stripeHeader s.metadata i ≠ 0 ↔ s.stripeStatus i = .fetched)

theorem encodes_of_stages (stages : ∀ x, Stage s₀.stripeStatus s x) (recorded : Recorded s₀ s)
    (start : Encodes s₀) : Encodes s := by
  intro i bound
  have header := recorded.header i
  have before := start i bound
  cases stages i with
  | untouched status counted => simpa [counted, header, status] using before
  | queued new status _ counted | reading _ _ new status _ _ counted
  | writing _ _ _ _ new status _ _ _ counted | readFailed _ new status _ counted
  | writeRefused _ new status _ counted =>
      simpa [counted, header, status, new] using before
  | written _ _ new status _ counted => simp [counted, header, status]

def fetchedCount (s : State) : Nat :=
  (List.range ubiMaxStripes).countP fun i => s.stripeStatus i == .fetched

theorem countP_range_succ {p q : Nat → Bool} {n x : Nat} (bound : x < n) (hp : p x = false)
    (hq : q x = true) (others : ∀ i, i ≠ x → q i = p i) :
    (List.range n).countP q = (List.range n).countP p + 1 := by
  induction n with
  | zero => omega
  | succ n ih =>
      simp only [List.range_succ, List.countP_append, List.countP_singleton]
      by_cases last : x = n
      · subst last
        have below : (List.range x).countP q = (List.range x).countP p :=
          List.countP_congr fun i mem => by rw [others i (by simp at mem; omega)]
        simp [hp, hq, below]
      · rw [ih (by omega), others n (Ne.symm last)]
        omega

/-- Stripes outside the array are never touched, and the counter is exact. -/
structure Counted (s : State) : Prop where
  range : ∀ x, s.stripeStatus x ≠ .notFetched → x < ubiMaxStripes
  exact : s.stripesFetched = fetchedCount s

theorem Counted.of_status (before : Counted s) (fetched : t.stripesFetched = s.stripesFetched)
    {x : Nat} {r : StripeStatus} (status : t.stripeStatus = Function.update s.stripeStatus x r)
    (bound : x < ubiMaxStripes) (old : s.stripeStatus x ≠ .fetched) (new : r ≠ .fetched) :
    Counted t := by
  constructor
  · intro y h
    by_cases same : y = x
    · exact same ▸ bound
    · exact before.range y (by simpa [status, same] using h)
  · rw [fetched, before.exact]
    refine List.countP_congr fun i _ => ?_
    by_cases same : i = x
    · simp [status, same, old, new]
    · simp [status, same]

theorem counted_effect (inv : FetchesPlaced dev s) (before : Counted s)
    (effect : FetchEffect dev s l t) : Counted t := by
  have kept (record : RecordKept s t) : Counted t :=
    ⟨fun y h => before.range y (by rwa [record.status] at h),
      by rw [record.fetched, before.exact, fetchedCount, fetchedCount, record.status]⟩
  have entered {c x} (cause : Enqueues dev s l c x) (entered : Entered s t c x) : Counted t := by
    obtain ⟨_, _, _, _, _, _, _, bound, gate⟩ := cause
    exact before.of_status entered.fetched entered.status bound (by simp [gate]) (by decide)
  have failed {c k} (finished : Finished s t c k .ring .failed)
      (fetched : t.stripesFetched = s.stripesFetched) : Counted t := by
    have inflight := inv.inflight_of_active finished.busy
    exact before.of_status fetched finished.status (before.range _ (by simp [inflight]))
      (by simp [inflight]) (by decide)
  cases effect with
  | stay record slots places trail => exact kept record
  | enqueue c x cause step places => exact entered cause step
  | overflow c x cause step full places => exact entered cause step
  | start c k x record active stripe source free places ops trail => exact kept record
  | writing c k o sqe res record active stripe entry tag good source places ops trail =>
      exact kept record
  | readFailed c k sqe res metadata fetched entry tag bad finished trail =>
      exact failed finished fetched
  | writeRefused c k sqe res metadata fetched entry tag good finished trail =>
      exact failed finished fetched
  | written c k o success metadata fetched finished trail =>
      have inflight := inv.inflight_of_active finished.busy
      have bound := before.range (s.slot c k).stripeIdx (by simp [inflight])
      constructor
      · intro y h
        by_cases same : y = (s.slot c k).stripeIdx
        · exact same ▸ bound
        · exact before.range y (by simpa [finished.status, same] using h)
      · rw [fetched, before.exact]
        refine (countP_range_succ bound (by simp [inflight]) (by simp [finished.status])
          fun i other => ?_).symm
        simp [finished.status, other]

theorem counted_created {base : Bytes} (created : Created dev base s) : Counted s := by
  obtain ⟨table, decoded, rfl⟩ := created
  constructor
  · intro x h
    rcases ubiFinishReadMetadata_status decoded x with new | ⟨bound, _⟩
    · exact absurd new h
    · exact bound
  · show table.stripesFetched =
      (List.range ubiMaxStripes).countP fun i => table.stripeStatus i == .fetched
    rcases ubiFinishReadMetadata_ok decoded with ⟨_, status, _, zero, _⟩ |
      ⟨_, _, _, status, _, count, _⟩
    · rw [zero, eq_comm, List.countP_eq_zero]
      simp [status]
    · rw [count]
      refine List.countP_congr fun i mem => ?_
      rw [List.mem_range] at mem
      simp [status, mem]

theorem counted_reach {base : Bytes} {allowed : State → Event → Prop}
    (created : Created dev base s₀) (run : Reach dev allowed s₀ s)
    (issued : FetchesIssued s.log) : Counted s :=
  (reach_invariant_log (P := fun s => FetchesPlaced dev s ∧ Counted s) fetchesIssued_earlier
    (fun before met act => ⟨fetchesPlaced_act before.1 met act,
      counted_effect before.1 before.2 (act_fetchEffect before.1.fresh before.1.bounded
        (fun _ _ _ => before.1.active_of_op) met act)⟩) run
    ⟨(lifecycle_created created).placed, counted_created created⟩ issued).2

/-- The magic and the version are those of this module. -/
def Stamped (metadata : Bytes) : Prop :=
  magicMatches metadata = true ∧ ubiGetVersion metadata = (ubiVersionMajor, ubiVersionMinor)

theorem stamped_congr {m n : Bytes} (front : ∀ a, a < 14 → m a = n a) (h : Stamped n) :
    Stamped m := by
  obtain ⟨magic, version⟩ := h
  constructor
  · simp only [magicMatches, List.all_eq_true, List.mem_range, ubiMagicSize] at magic ⊢
    intro i bound
    rw [front i (by omega)]
    exact magic i bound
  · rw [← version]
    simp only [ubiGetVersion, loadLittleendianShortint, versionMajorOffset, versionMinorOffset]
    rw [front 9, front 10, front 11, front 12] <;> omega

theorem stamped_ubiInitMetadata (stripeSizeKb : Nat) (found : Bytes) :
    Stamped (ubiInitMetadata stripeSizeKb found) := by
  constructor <;> rfl

/-- A stamped metadata area is decoded, and never taken for that of a new disk. -/
theorem ubiFinishReadMetadata_stamped {metadata : Bytes} (stripeSizeKb : Nat)
    (h : Stamped metadata) :
    ∃ table, ubiFinishReadMetadata stripeSizeKb true metadata = .ok table ∧
      (∀ i, table.stripeStatus i =
        if i < ubiMaxStripes ∧ stripeHeader metadata i ≠ 0 then .fetched else .notFetched) ∧
      table.stripesFetched =
        (List.range ubiMaxStripes).countP (fun i => stripeHeader metadata i != 0) := by
  obtain ⟨magic, version⟩ := h
  have first : metadata 0 = 0x42 := by
    simp only [magicMatches, List.all_eq_true, List.mem_range] at magic
    simpa [ubiMagic] using magic 0 (by decide)
  have old : ubiNewDisk metadata = false := by
    rw [ubiNewDisk, List.all_eq_false]
    exact ⟨0, by decide, by simp [first]⟩
  refine ⟨_, by simp only [ubiFinishReadMetadata, old, magic, version]; rfl, fun _ => rfl, ?_⟩
  dsimp only

theorem stamped_created {base : Bytes} (created : Created dev base s) : Stamped s.metadata := by
  obtain ⟨table, decoded, rfl⟩ := created
  rcases ubiFinishReadMetadata_ok decoded with
    ⟨_, _, metadata, _⟩ | ⟨_, magic, version, _, metadata, _⟩
  · show Stamped table.metadata
    rw [metadata]
    exact stamped_ubiInitMetadata _ _
  · show Stamped table.metadata
    rw [metadata]
    exact ⟨magic, version⟩

/-- Decoding the metadata gives back the fetched stripes and their number, which is
also what the counter says. -/
def Reproduces (dev : UbiBdev) (s : State) : Prop :=
  s.stripesFetched = fetchedCount s ∧
    ∃ table, ubiFinishReadMetadata dev.stripeSizeKb true s.metadata = .ok table ∧
      (∀ i, i < ubiMaxStripes → (table.stripeStatus i = .fetched ↔ s.stripeStatus i = .fetched)) ∧
      table.stripesFetched = fetchedCount s

theorem reproduces_of_encodes (encodes : Encodes s) (stamped : Stamped s.metadata)
    (counted : Counted s) : Reproduces dev s := by
  obtain ⟨table, decoded, status, count⟩ :=
    ubiFinishReadMetadata_stamped dev.stripeSizeKb stamped
  refine ⟨counted.exact, table, decoded, fun i bound => ?_, ?_⟩
  · rw [← encodes i bound, status]
    simp [bound]
  · rw [count, fetchedCount]
    refine List.countP_congr fun i mem => ?_
    simpa using encodes i (List.mem_range.mp mem)

theorem encodes_created {base : Bytes} (created : Created dev base s)
    (clean : ubiNewDisk base = true → ∀ i, i < ubiMaxStripes → stripeHeader base i = 0) :
    Encodes s := by
  obtain ⟨table, decoded, rfl⟩ := created
  intro i bound
  show stripeHeader table.metadata i ≠ 0 ↔ table.stripeStatus i = .fetched
  obtain ⟨new, status, metadata, _⟩ | ⟨_, _, _, status, metadata, _⟩ :=
    ubiFinishReadMetadata_ok decoded
  · simp [status, metadata, stripeHeader_ubiInitMetadata, clean new i bound]
  · simp [status, metadata, bound]

/-- The metadata encodes the fetched stripes in every reachable state if and only if
the area of a new disk, known by its zeroed magic, has no header set. -/
theorem metadata_encodes_fetched_iff {base : Bytes} (created : Created dev base s₀) :
    (∀ s, Reach dev anyStep s₀ s → FetchesIssued s.log → Encodes s ∧ Reproduces dev s) ↔
      (ubiNewDisk base = true → ∀ i, i < ubiMaxStripes → stripeHeader base i = 0) := by
  have found := created
  obtain ⟨table, decoded, rfl⟩ := found
  constructor
  · intro every new i bound
    obtain ⟨_, status, metadata, _⟩ | ⟨old, _⟩ := ubiFinishReadMetadata_ok decoded
    · have encodes := (every _ .refl (by simp [FetchesIssued, newState])).1 i bound
      by_contra set
      rw [← stripeHeader_ubiInitMetadata dev.stripeSizeKb, ← metadata] at set
      have : table.stripeStatus i = .fetched := encodes.mp set
      simp [status] at this
    · simp [new] at old
  · intro clean s run issued
    have recorded := recorded_reach created run issued
    have encodes := encodes_of_stages (lifecycle_reach created run issued).stages recorded
      (encodes_created created clean)
    exact ⟨encodes, reproduces_of_encodes encodes
      (stamped_congr recorded.front (stamped_created created)) (counted_reach created run issued)⟩

theorem metadata_encodes_fetched_fetchFirst :
    ∃ s, Reach (threeBlockBdev false) anyStep (blankState (threeBlockBdev false)) s ∧
      s.stripeStatus 0 = .fetched ∧ Encodes s ∧ Reproduces (threeBlockBdev false) s := by
  have ran : (Runs.exec (step (threeBlockBdev false)) (fun _ _ => true)
      (blankState (threeBlockBdev false)) (fetchFirst 65536 true)).any (fun s =>
        decide (FetchesIssued s.log) && decide (s.stripeStatus 0 = .fetched)) = true := by
    decide +kernel
  obtain ⟨s, run, test⟩ := Runs.exists_reach_of_exec (fun _ _ _ _ => trivial) ran
  simp only [Bool.and_eq_true, decide_eq_true_eq] at test
  exact ⟨s, run, test.2,
    (metadata_encodes_fetched_iff (created_blankState _)).mpr (fun _ _ _ => rfl) s run test.1⟩

/-- A zeroed magic in front of a header that is set: the header stays, the stripe is
not fetched. -/
theorem torn_metadata_not_encoded :
    ∃ s, Created (threeBlockBdev false) (fun a => if a = stripeHeaderOffset 0 then 1 else 0) s ∧
      stripeHeader s.metadata 0 ≠ 0 ∧ s.stripeStatus 0 = .notFetched :=
  ⟨_, ⟨_, rfl, rfl⟩, by decide, rfl⟩

end BdevUbi
