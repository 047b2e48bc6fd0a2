import BdevUbi.CreationLedger

/-!
Removal of a base bdev. The handler of the REMOVE event looks for the ubi bdev among the
registered ones, and a ubi bdev joins them only when its creation ends. A removal that is
handled between the two is not noticed again: the descriptor has had its event.
-/

namespace BdevUbi
open Function (update)

variable {bases : BaseId → BaseBdev} {h : Host}

/-- Whoever holds a base bdev whose removal has been handled is on its way out. The removal
began before it was handled, so nobody opens the base bdev again. -/
structure Noticed (l : Lives bases) : Prop where
  removing : ∀ base, l.handled base = true → l.removing base = true
  leaving : ∀ base, l.handled base = true → ∀ id, (l.phase id).base = some base →
    ∃ m, l.phase id = .registered m true

/-- A step that changes one phase, to one without this base bdev or to a leaving one. -/
theorem Noticed.move {l : Lives bases} {id : UbiId} {p : Phase bases} (inv : Noticed l)
    (here : ∀ base, l.handled base = true → p.base = some base →
      ∃ m, p = .registered m true) : Noticed (l.move id p) where
  removing := inv.removing
  leaving base handled j holds := by
    by_cases same : j = id
    · rw [same, Lives.move_here] at holds ⊢
      exact here base handled holds
    · rw [Lives.move_there same] at holds ⊢
      exact inv.leaving base handled j holds

theorem Noticed.handle {l : Lives bases} {base : BaseId} (inv : Noticed l)
    (removing : l.removing base = true)
    (leaving : ∀ id, (l.phase id).base = some base → ∃ m, l.phase id = .registered m true) :
    Noticed (l.handle base) where
  removing other handled := by
    by_cases same : other = base
    · exact same ▸ removing
    · exact inv.removing other ((Function.update_of_ne same ..).symm.trans handled)
  leaving other handled := by
    by_cases same : other = base
    · exact same ▸ leaving
    · exact inv.leaving other ((Function.update_of_ne same ..).symm.trans handled)

theorem Noticed.remove {l : Lives bases} {base : BaseId} (inv : Noticed l) :
    Noticed { l with removing := update l.removing base true } where
  removing other handled := by
    by_cases same : other = base
    · rw [same]
      exact Function.update_self ..
    · exact (Function.update_of_ne same ..).trans (inv.removing other handled)
  leaving := inv.leaving

theorem Noticed.step {l l' : Lives bases} {label : Option BaseId} (inv : Noticed l)
    (unique : ∀ {i j base}, (l.phase i).base = some base → (l.phase j).base = some base → i = j)
    (apart : ∀ base, label = some base → ∀ id o, l.phase id = .reading o → o.base ≠ base)
    (moves : l.Step label l') : Noticed l' := by
  cases moves with
  | stutter => exact inv
  | remove base => exact inv.remove
  | fail _ _ _ | abandon _ _ | destruct _ _ | close _ =>
      exact inv.move fun _ _ holds => nomatch holds
  | unregister _ => exact inv.move fun _ _ _ => ⟨_, rfl⟩
  | start start ready =>
      refine inv.move fun base handled holds => ?_
      obtain rfl := Option.some.inj holds
      rw [inv.removing _ handled] at ready
      cases ready
  | @register id o m start same =>
      -- the creation was among the holders of the base bdev
      refine inv.move fun base handled holds => ?_
      obtain ⟨m', leaving⟩ := inv.leaving base handled id
        (by rw [start, Phase.base, ← same]; exact holds)
      rw [start] at leaving
      cases leaving
  | @handle id m u start removing =>
      have moved : Noticed (l.move id (.registered m true)) := inv.move fun _ _ _ => ⟨_, rfl⟩
      refine moved.handle removing fun j holds => ?_
      by_cases mine : j = id
      · rw [mine]
        exact ⟨m, l.move_here _⟩
      · rw [Lives.move_there mine] at holds
        exact absurd (unique holds (by rw [start]; rfl)) mine
  | @miss base removing none =>
      -- the only holders the handler does not see are creations
      refine inv.handle removing fun j holds => ?_
      cases phase : l.phase j with
      | reading o =>
          rw [phase] at holds
          exact absurd (Option.some.inj holds) (apart base rfl j o phase)
      | registered m u =>
          rw [phase] at holds
          exact absurd (Option.some.inj holds) (none j m u phase)
      | idle | failed _ _ _ | deleted _ =>
          rw [phase] at holds
          cases holds

/-- No REMOVE event of a base bdev is handled while a creation on it waits for its metadata. -/
def RemovesApart (h : Host) (e : HostEvent) : Prop :=
  ∀ base, e.handles = some base → ∀ id, ¬ Creating h id base

theorem Simulates.creating_iff {l : Lives bases} {id : UbiId} {base : BaseId}
    (inv : Simulates h l) :
    Creating h id base ↔ ∃ o, l.phase id = .reading o ∧ o.base = base := by
  have reading : h.reading id = (l.phase id).entry.reading := by rw [← inv.entry]; rfl
  rw [Creating, reading, inv.record]
  cases l.phase id with
  | reading o => simp [Phase.entry, o.opened]
  | idle | failed _ _ _ | registered _ _ | deleted _ => simp [Phase.entry]

theorem Simulates.registeredOn {l : Lives bases} {id : UbiId} {base : BaseId}
    (inv : Simulates h l) (on : h.registeredOn id = some base) :
    ∃ m u, l.phase id = .registered m u ∧ m.base = base ∧ h.unregistering id = u := by
  have entry := inv.entry id
  cases phase : l.phase id <;> rw [phase] at entry <;>
    simp only [Host.entry, Phase.entry, Entry.mk.injEq] at entry <;>
    simp [Host.registeredOn, entry] at on
  next m u => exact ⟨m, u, rfl, by simpa [m.opened] using on, entry.2.2.2.2.2.2.1⟩

theorem reach_noticed (run : HostReach bases RemovesApart h) :
    ∃ l : Lives bases, Simulates h l ∧ Noticed l := by
  refine run.invariant (P := fun h => ∃ l : Lives bases, Simulates h l ∧ Noticed l)
    ⟨Lives.none bases, emptyHost_simulated, nofun, nofun⟩ ?_
  rintro h g e - ⟨l, inv, noticed⟩ apart moves
  obtain ⟨l', step, inv'⟩ := host_simulated inv moves
  refine ⟨l', inv', noticed.step inv.claims.unique (fun base handles id o phase same => ?_) step⟩
  exact apart base handles id (inv.creating_iff.mpr ⟨o, phase, same⟩)

theorem removal_never_missed (run : HostReach bases RemovesApart h) (base : BaseId)
    (handled : h.handled base = true) (id : UbiId) :
    ¬ Creating h id base ∧ (h.registeredOn id = some base → h.unregistering id = true) := by
  obtain ⟨l, inv, noticed⟩ := reach_noticed run
  rw [inv.handled] at handled
  refine ⟨fun creating => ?_, fun on => ?_⟩
  · obtain ⟨o, phase, same⟩ := inv.creating_iff.mp creating
    obtain ⟨m, leaving⟩ := noticed.leaving base handled id (by rw [phase, ← same]; rfl)
    rw [phase] at leaving
    cases leaving
  · obtain ⟨m, u, phase, same, unregistering⟩ := inv.registeredOn on
    obtain ⟨m', leaving⟩ := noticed.leaving base handled id (by rw [phase, ← same]; rfl)
    rw [phase] at leaving
    rw [unregistering]
    cases leaving
    rfl

/-- The base bdev is removed once the ubi bdev on it is registered. -/
theorem removal_unregisters :
    ∃ h, HostReach (fun _ => plainBase) RemovesApart h ∧ h.handled 0 = true ∧
      h.registeredOn 0 = some 0 ∧ h.unregistering 0 = true := by
  let removing := { plainHost with removing := update plainHost.removing 0 true }
  have created : HostReach (fun _ => plainBase) RemovesApart plainHost :=
    .tail (e := .metadataRead 0 true (fun _ => 0) 0)
      (.tail (e := .create 0 (some plainOpts) .success) .refl nofun rfl) nofun rfl
  have idle (id : UbiId) : removing.reading id = false := by cases id <;> rfl
  have run : HostReach (fun _ => plainBase) RemovesApart
      (ubiHandleBaseBdevEvent removing .remove 0) := by
    refine .tail (e := .baseEvent 0 .remove 0) (.tail (e := .removeBase 0) created nofun rfl) ?_ rfl
    intro base _ id creating
    rw [Creating, idle] at creating
    cases creating.1
  have on : (ubiHandleBaseBdevEvent removing .remove 0).registeredOn 0 = some 0 := by
    decide +kernel
  exact ⟨_, run, rfl, on, (removal_never_missed run 0 rfl 0).2 on⟩

/-- The removal is handled between the opening of the base bdev and the registration: the ubi
bdev is registered afterwards, and keeps its descriptor and its claim. -/
theorem early_removal_missed :
    ∃ h, HostReach (fun _ => plainBase) (fun _ _ => True) h ∧ h.handled 0 = true ∧
      (∀ id, ¬ Creating h id 0) ∧ h.registeredOn 0 = some 0 ∧ h.unregistering 0 = false ∧
      h.descs 0 = [0] ∧ h.claimed 0 = true := by
  let creating := bdevUbiCreate (fun _ => plainBase) emptyHost 0 (some plainOpts) .success
  let removing := { creating with removing := update creating.removing 0 true }
  let handled := ubiHandleBaseBdevEvent removing .remove 0
  have run : HostReach (fun _ => plainBase) (fun _ _ => True)
      (finishReadMetadata handled 0 true (fun _ => 0) 0) :=
    .tail (e := .metadataRead 0 true (fun _ => 0) 0)
      (.tail (e := .baseEvent 0 .remove 0)
        (.tail (e := .removeBase 0)
          (.tail (e := .create 0 (some plainOpts) .success) .refl trivial rfl)
          trivial rfl)
        trivial rfl)
      trivial rfl
  have idle (id : UbiId) :
      (finishReadMetadata handled 0 true (fun _ => 0) 0).reading id = false := by
    cases id <;> rfl
  refine ⟨_, run, rfl, fun id waits => ?_, by decide +kernel, rfl, by decide +kernel,
    by decide +kernel⟩
  rw [Creating, idle] at waits
  cases waits.1

end BdevUbi
