import BdevUbi.Creation
import BdevUbi.Library.Claims

/-!
The ledger of creations and deletions. A ubi bdev goes through the phases of one life, and
its phase says what it holds: one descriptor and one claim of its base bdev and one io_device
while it is being created or registered, and none of these otherwise. The temporary channel
of a refused metadata read is the exception. `host_simulated` is the simulation: every step
of the module is a step of these lives.
-/

namespace BdevUbi
open Function (update)

variable {bases : BaseId → BaseBdev} {h g : Host} {id : UbiId}

/-- A ubi bdev whose base bdev is open and claimed and whose layout is known. -/
structure OpenBdev (bases : BaseId → BaseBdev) where
  record : UbiBdevRecord
  base : BaseId
  device : UbiBdev
  opened : record.baseBdev = some base
  io : record.registeredIoDevice = true
  layout : ∃ opts : UbiBdevOpts, opts.baseBdev = base ∧ initDevice opts (bases base) = .ok device
  known : record.device = some device
  writeCache : record.writeCache = (bases base).writeCache

structure LoadedBdev (bases : BaseId → BaseBdev) extends OpenBdev bases where
  found : Bytes
  table : StripeTable
  read : ubiFinishReadMetadata device.stripeSizeKb true found = .ok table
  stored : record.table = some table

def OpenBdev.load {found : Bytes} {table : StripeTable} (o : OpenBdev bases)
    (read : ubiFinishReadMetadata o.device.stripeSizeKb true found = .ok table) :
    LoadedBdev bases where
  record := { o.record with table := some table }
  base := o.base
  device := o.device
  opened := o.opened
  io := o.io
  layout := o.layout
  known := o.known
  writeCache := o.writeCache
  found := found
  table := table
  read := read
  stored := rfl

theorem hostStep_disabled {e : HostEvent} {stop : Halt} (stuck : hostStep bases h e = .error stop) :
    stop = .disabled := by
  cases e with
  | delete _ | removeBase _ => cases stuck
  | create _ _ _ | metadataRead _ _ _ _ | destruct _ _ | closeBase _ _ | baseEvent _ _ _ =>
      simp only [hostStep] at stuck
      split at stuck <;> cases stuck
      rfl

/-- What `bdev_ubi_create` can do: fail and give back what it took, but for the temporary
channel of a refused metadata read, or wait for the metadata. -/
inductive CreateOutcome (bases : BaseId → BaseBdev) (h : Host) (id : UbiId) : Host → Prop
  | failed (status : Int) (refused : Bool) (bad : status ≠ 0) :
      CreateOutcome bases h id { h with
        started := update h.started id true
        record := update h.record id none
        tempChannels := update h.tempChannels id (h.tempChannels id + refused.toNat)
        refused := update h.refused id (h.refused id || refused)
        answers := (id, status) :: h.answers }
  | pending (o : OpenBdev bases) (unclaimed : h.claimed o.base = false)
      (ready : h.removing o.base = false) :
      CreateOutcome bases h id { h with
        started := update h.started id true
        record := update h.record id (some o.record)
        descs := update h.descs id (o.base :: h.descs id)
        claimed := update h.claimed o.base true
        ioDevices := update h.ioDevices id (h.ioDevices id + 1)
        tempChannels := update h.tempChannels id (h.tempChannels id + 1)
        reading := update h.reading id true }

theorem ubiFinishCreate_fails {status : Int} (bad : status ≠ 0) (ret : Int) :
    ubiFinishCreate h id status ret = match h.record id with
      | some r => { freeUbiBdev h id r with answers := (id, status) :: h.answers }
      | none => { h with answers := (id, status) :: h.answers } := by
  simp only [ubiFinishCreate, if_neg bad]
  cases h.record id with
  | none => rfl
  | some r =>
      simp only [freeUbiBdev]
      split <;> split <;> rfl

theorem exists_of_map_ok {α β ε : Type} {x : Except ε α} {f : α → β} {b : β} (h : x.map f = .ok b) :
    ∃ a, x = .ok a ∧ f a = b := by
  cases x with
  | error e => cases h
  | ok a => exact ⟨a, rfl, Except.ok.inj h⟩

theorem error_of_map_error {α β ε : Type} {x : Except ε α} {f : α → β} {e : ε}
    (h : x.map f = .error e) : x = .error e := by
  cases x with
  | error _ => rw [Except.error.inj h]
  | ok _ => cases h

theorem returned_map_error {ε α β : Type} {x : Except ε α} {f : { a // x = .ok a } → β} {e : ε}
    (h : (returned x).map f = .error e) : x = .error e := by
  cases x with
  | error _ => rw [Except.error.inj h]
  | ok _ => cases h

theorem initDevice_error {opts : UbiBdevOpts} {base : BaseBdev} {rc : Int}
    (h : initDevice opts base = .error rc) : rc = EINVAL := by
  unfold initDevice at h
  split at h
  · exact (Except.error.inj h).symm
  · exact ubiInitLayoutParams_error (returned_map_error h)

theorem configureBaseBdev_outcome (h : Host) (id : UbiId) (base : BaseId) (openRet claimRet : Int) :
    (∃ rc, rc ≠ 0 ∧ configureBaseBdev h id base openRet claimRet = (rc, h)) ∨
    (h.removing base = false ∧ h.claimed base = false ∧
      configureBaseBdev h id base openRet claimRet = (0, { h with
        descs := update h.descs id (base :: h.descs id)
        claimed := update h.claimed base true })) := by
  have closed : (h.openBase id base).closeBase id base = h := by
    simp [Host.openBase, Host.closeBase]
  unfold configureBaseBdev
  by_cases removing : h.removing base = true
  · exact .inl ⟨ENODEV, by decide, by rw [if_pos removing]⟩
  by_cases openBad : openRet ≠ 0
  · exact .inl ⟨openRet, openBad, by rw [if_neg removing, if_pos openBad]⟩
  rw [if_neg removing, if_neg openBad]
  dsimp only
  by_cases claimed : h.claimed base = true
  · refine .inl ⟨EPERM, by decide, ?_⟩
    rw [if_pos claimed, if_pos (by decide), closed]
  rw [if_neg claimed]
  by_cases claimBad : claimRet ≠ 0
  · exact .inl ⟨claimRet, claimBad, by rw [if_pos claimBad, closed]⟩
  · exact .inr ⟨by simpa using removing, by simpa using claimed, by rw [if_neg claimBad]; rfl⟩

theorem update_release {claimed : BaseId → Bool} {base : BaseId} (free : claimed base = false) :
    update (update claimed base true) base false = claimed := by
  rw [Function.update_idem, ← free, Function.update_eq_self]

theorem bdevUbiCreate_outcome (opts : Option UbiBdevOpts) (env : CreateEnv) :
    CreateOutcome bases h id (bdevUbiCreate bases h id opts env) := by
  have failed {t : Host} (status : Int) (bad : status ≠ 0) (refused : Bool)
      (same : t = { h with
        started := update h.started id true
        record := update h.record id none
        tempChannels := update h.tempChannels id (h.tempChannels id + refused.toNat)
        refused := update h.refused id (h.refused id || refused)
        answers := (id, status) :: h.answers }) : CreateOutcome bases h id t :=
    same ▸ .failed status refused bad
  unfold bdevUbiCreate
  split
  · exact failed EINVAL (by decide) false (by simp [ubiFinishCreate_fails])
  next opts =>
  dsimp only
  split
  · exact failed ENOMEM (by decide) false (by simp [ubiFinishCreate_fails])
  split
  · exact failed ENOMEM (by decide) false
      (by simp [ubiFinishCreate_fails, Host.setRecord, freeUbiBdev, UbiBdevRecord.zeroed])
  rcases configureBaseBdev_outcome ((Host.setRecord { h with
      started := update h.started id true
      record := update h.record id none } id
      { UbiBdevRecord.zeroed with name := opts.name.filter fun _ => env.strdup }).setRecord id
      { UbiBdevRecord.zeroed with
        name := opts.name.filter fun _ => env.strdup
        thread := env.thread })
      id opts.baseBdev env.openRet env.claimRet with ⟨rc, bad, same⟩ | ⟨ready, unclaimed, same⟩
  · rw [same]
    simp only [ne_eq, bad, not_false_eq_true, if_true]
    exact failed rc bad false
      (by simp [ubiFinishCreate_fails bad, Host.setRecord, freeUbiBdev, UbiBdevRecord.zeroed])
  rw [same]
  simp only [ne_eq, not_true_eq_false, if_false]
  have unclaimed : h.claimed opts.baseBdev = false := unclaimed
  split
  · next rc refused =>
    have bad : rc ≠ 0 := by
      rw [initDevice_error refused]
      decide
    exact failed rc bad false (by simp [ubiFinishCreate_fails bad, Host.setRecord, freeUbiBdev,
      Host.release, Host.closeBase, update_release unclaimed, UbiBdevRecord.zeroed])
  next device layout =>
  unfold ubiStartReadMetadata
  split
  · exact failed ENOMEM (by decide) false (by simp [ubiFinishCreate_fails, Host.setRecord,
      freeUbiBdev, Host.release, Host.closeBase, update_release unclaimed])
  dsimp only
  split
  · next bad =>
    exact failed env.readRet bad true (by simp [ubiFinishCreate_fails bad, Host.setRecord,
      freeUbiBdev, Host.release, Host.closeBase, update_release unclaimed])
  · have pending := @CreateOutcome.pending bases h id
      { record := { UbiBdevRecord.zeroed with
          name := opts.name.filter fun _ => env.strdup
          thread := env.thread
          baseBdev := some opts.baseBdev
          imagePath := storedPath opts.imagePath
          directio := opts.directio
          device := some device
          writeCache := (bases opts.baseBdev).writeCache
          registeredIoDevice := true }
        base := opts.baseBdev
        device := device
        opened := rfl
        io := rfl
        layout := ⟨opts, rfl, layout⟩
        known := rfl
        writeCache := rfl } unclaimed ready
    simpa [Host.setRecord] using pending

/-- What the callback of the metadata read can do: give everything back, or register. -/
inductive ReadOutcome (h : Host) (id : UbiId) (o : OpenBdev bases) : Host → Prop
  | abandoned (status : Int) (bad : status ≠ 0) :
      ReadOutcome h id o { h with
        reading := update h.reading id false
        tempChannels := update h.tempChannels id (h.tempChannels id - 1)
        record := update h.record id none
        descs := update h.descs id ((h.descs id).erase o.base)
        claimed := update h.claimed o.base false
        ioDevices := update h.ioDevices id (h.ioDevices id - 1)
        answers := (id, status) :: h.answers }
  | registered (m : LoadedBdev bases) (same : m.base = o.base) :
      ReadOutcome h id o { h with
        reading := update h.reading id false
        tempChannels := update h.tempChannels id (h.tempChannels id - 1)
        record := update h.record id (some m.record)
        registered := update h.registered id true
        head := h.head ++ [id]
        answers := (id, 0) :: h.answers }

theorem ubiFinishReadMetadata_error {stripeSizeKb : Nat} {success : Bool} {found : Bytes} {rc : Int}
    (h : ubiFinishReadMetadata stripeSizeKb success found = .error rc) : rc ≠ 0 := by
  unfold ubiFinishReadMetadata at h
  split at h
  · rw [← Except.error.inj h]
    decide
  split at h
  · cases h
  split at h
  · rw [← Except.error.inj h]
    decide
  split at h
  · rw [← Except.error.inj h]
    decide
  · cases h

theorem ubiFinishReadMetadata_success {stripeSizeKb : Nat} {success : Bool} {found : Bytes}
    {table : StripeTable} (h : ubiFinishReadMetadata stripeSizeKb success found = .ok table) :
    success = true := by
  cases success with
  | true => rfl
  | false => cases h

theorem finishReadMetadata_outcome {o : OpenBdev bases} (known : h.record id = some o.record)
    (success : Bool) (found : Bytes) (registerRet : Int) :
    ReadOutcome h id o (finishReadMetadata h id success found registerRet) := by
  have abandoned {t : Host} (status : Int) (bad : status ≠ 0)
      (same : t = { h with
        reading := update h.reading id false
        tempChannels := update h.tempChannels id (h.tempChannels id - 1)
        record := update h.record id none
        descs := update h.descs id ((h.descs id).erase o.base)
        claimed := update h.claimed o.base false
        ioDevices := update h.ioDevices id (h.ioDevices id - 1)
        answers := (id, status) :: h.answers }) : ReadOutcome h id o t :=
    same ▸ .abandoned status bad
  have size : (o.record.device.map UbiBdev.stripeSizeKb).getD 0 = o.device.stripeSizeKb := by
    rw [o.known]
    rfl
  simp only [finishReadMetadata, known, size]
  split
  · next rc refused =>
    have bad := ubiFinishReadMetadata_error refused
    exact abandoned rc bad (by simp [ubiFinishCreate_fails bad, known, freeUbiBdev, o.opened, o.io,
      Host.release, Host.closeBase])
  · next table read =>
    obtain rfl := ubiFinishReadMetadata_success read
    simp only [ubiFinishCreate, if_true]
    split
    · next final =>
      rw [final]
      exact @ReadOutcome.registered bases h id o (o.load read) rfl
    · next bad =>
      refine abandoned _ bad ?_
      simp [Host.setRecord, freeUbiBdev, o.opened, o.io, Host.release, Host.closeBase]

structure Entry where
  record : Option UbiBdevRecord
  descs : List BaseId
  tempChannels : Nat
  ioDevices : Nat
  listed : Nat
  registered : Bool
  unregistering : Bool
  started : Bool
  reading : Bool
  closing : List BaseId
  answers : List Int
  refused : Bool

def Host.entry (h : Host) (id : UbiId) : Entry where
  record := h.record id
  descs := h.descs id
  tempChannels := h.tempChannels id
  ioDevices := h.ioDevices id
  listed := h.head.count id
  registered := h.registered id
  unregistering := h.unregistering id
  started := h.started id
  reading := h.reading id
  closing := h.closing id
  answers := (h.answers.filter (·.1 = id)).map (·.2)
  refused := h.refused id

/-- The life of a ubi bdev. `closing` is the base bdev whose descriptor a message will close. -/
inductive Phase (bases : BaseId → BaseBdev) where
  | idle
  | failed (status : Int) (bad : status ≠ 0) (refused : Bool)
  | reading (o : OpenBdev bases)
  | registered (m : LoadedBdev bases) (unregistering : Bool)
  | deleted (closing : Option BaseId)

namespace Phase

def entry : Phase bases → Entry
  | idle => ⟨none, [], 0, 0, 0, false, false, false, false, [], [], false⟩
  | failed status _ refused =>
    ⟨none, [], refused.toNat, 0, 0, false, false, true, false, [], [status], refused⟩
  | reading o => ⟨some o.record, [o.base], 1, 1, 0, false, false, true, true, [], [], false⟩
  | registered m unregistering =>
    ⟨some m.record, [m.base], 0, 1, 1, true, unregistering, true, false, [], [0], false⟩
  | deleted closing =>
    ⟨none, closing.toList, 0, 0, 0, false, false, true, false, closing.toList, [0], false⟩

def base : Phase bases → Option BaseId
  | reading o => some o.base
  | registered m _ => some m.base
  | idle | failed .. | deleted _ => none

end Phase

/-- The lives of all ubi bdevs, with the base bdevs that are being removed and those whose
removal has been handled. -/
structure Lives (bases : BaseId → BaseBdev) where
  phase : UbiId → Phase bases
  removing : BaseId → Bool
  handled : BaseId → Bool

def Lives.move (l : Lives bases) (id : UbiId) (p : Phase bases) : Lives bases :=
  { l with phase := update l.phase id p }

theorem Lives.move_here (l : Lives bases) (p : Phase bases) : (l.move id p).phase id = p :=
  Function.update_self ..

theorem Lives.move_there {l : Lives bases} {p : Phase bases} {j : UbiId} (other : j ≠ id) :
    (l.move id p).phase j = l.phase j :=
  Function.update_of_ne other ..

def Lives.handle (l : Lives bases) (base : BaseId) : Lives bases :=
  { l with handled := update l.handled base true }

/-- The label is the base bdev whose REMOVE event the step handles. -/
inductive Lives.Step : Lives bases → Option BaseId → Lives bases → Prop
  | stutter {l : Lives bases} : Step l none l
  | fail {l : Lives bases} {id status} (refused : Bool) (start : l.phase id = .idle)
      (bad : status ≠ 0) :
      Step l none (l.move id (.failed status bad refused))
  | start {l : Lives bases} {id o} (start : l.phase id = .idle)
      (ready : l.removing o.base = false) : Step l none (l.move id (.reading o))
  | abandon {l : Lives bases} {id o status} (start : l.phase id = .reading o) (bad : status ≠ 0) :
      Step l none (l.move id (.failed status bad false))
  | register {l : Lives bases} {id o m} (start : l.phase id = .reading o)
      (same : m.base = o.base) : Step l none (l.move id (.registered m false))
  | unregister {l : Lives bases} {id m u} (start : l.phase id = .registered m u) :
      Step l none (l.move id (.registered m true))
  | destruct {l : Lives bases} {id m} (closing : Option BaseId)
      (start : l.phase id = .registered m true) : Step l none (l.move id (.deleted closing))
  | close {l : Lives bases} {id base} (start : l.phase id = .deleted (some base)) :
      Step l none (l.move id (.deleted none))
  | remove {l : Lives bases} (base : BaseId) :
      Step l none { l with removing := update l.removing base true }
  | handle {l : Lives bases} {id m u} (start : l.phase id = .registered m u)
      (removing : l.removing m.base = true) :
      Step l (some m.base) ((l.move id (.registered m true)).handle m.base)
  | miss {l : Lives bases} {base : BaseId} (removing : l.removing base = true)
      (none : ∀ id m u, l.phase id = .registered m u → m.base ≠ base) :
      Step l (some base) (l.handle base)

/-- The lives behind what the host holds. -/
structure Simulates (h : Host) (l : Lives bases) : Prop where
  entry : ∀ id, h.entry id = (l.phase id).entry
  claims : Claims.Exclusive h.claimed fun id => (l.phase id).base
  removing : h.removing = l.removing
  handled : h.handled = l.handled

theorem Simulates.move {l : Lives bases} {p : Phase bases} (inv : Simulates h l)
    (others : ∀ j ≠ id, g.entry j = h.entry j) (here : g.entry id = p.entry)
    (claims : Claims.Exclusive g.claimed (update (fun j => (l.phase j).base) id p.base))
    (removing : g.removing = h.removing) (handled : g.handled = h.handled) :
    Simulates g (l.move id p) where
  entry j := by
    by_cases same : j = id
    · rw [same, here, Lives.move_here]
    · rw [others j same, inv.entry, Lives.move_there same]
  claims := by
    have bases_eq : (fun j => ((l.move id p).phase j).base) =
        update (fun j => (l.phase j).base) id p.base := by
      funext j
      exact Function.apply_update (fun _ => Phase.base) l.phase id p j
    rw [bases_eq]
    exact claims
  removing := removing.trans inv.removing
  handled := handled.trans inv.handled

theorem Simulates.stay {l : Lives bases} {p : Phase bases} (inv : Simulates h l)
    (others : ∀ j ≠ id, g.entry j = h.entry j) (here : g.entry id = p.entry)
    (base : p.base = (l.phase id).base) (claimed : g.claimed = h.claimed)
    (removing : g.removing = h.removing) (handled : g.handled = h.handled) :
    Simulates g (l.move id p) := by
  refine inv.move others here ?_ removing handled
  rw [claimed, base, Function.update_eq_self id (fun j => (l.phase j).base)]
  exact inv.claims

theorem create_simulated {l : Lives bases} (inv : Simulates h l) (new : h.started id = false)
    (outcome : CreateOutcome bases h id g) : ∃ l', l.Step none l' ∧ Simulates g l' := by
  have entry := inv.entry id
  have start : l.phase id = .idle := by
    cases phase : l.phase id <;> simp_all [Host.entry, Phase.entry]
  rw [start] at entry
  simp only [Host.entry, Phase.entry, Entry.mk.injEq] at entry
  obtain ⟨_, descs, temp, io, listed, registered, unregistering, _, reading, closing, answers,
    refused⟩ := entry
  cases outcome with
  | failed status refused bad =>
      refine ⟨_, .fail refused start bad, inv.stay ?_ ?_ (by rw [start]; rfl) rfl rfl rfl⟩
      · intro j other
        simp [Host.entry, other, Ne.symm other]
      · simp [Host.entry, Phase.entry, *]
  | pending o unclaimed ready =>
      refine ⟨_, .start start (by rwa [← inv.removing]), inv.move ?_ ?_ ?_ rfl rfl⟩
      · intro j other
        simp [Host.entry, other]
      · simp [Host.entry, Phase.entry, *]
      · exact inv.claims.take unclaimed (by rw [start]; rfl)

theorem read_simulated {l : Lives bases} (inv : Simulates h l) (waits : h.reading id = true)
    (success : Bool) (found : Bytes) (registerRet : Int) :
    ∃ l', l.Step none l' ∧ Simulates (finishReadMetadata h id success found registerRet) l' := by
  have entry := inv.entry id
  obtain ⟨o, start⟩ : ∃ o, l.phase id = .reading o := by
    cases phase : l.phase id <;> simp_all [Host.entry, Phase.entry]
  rw [start] at entry
  simp only [Host.entry, Phase.entry, Entry.mk.injEq] at entry
  obtain ⟨record, descs, temp, io, listed, registered, unregistering, started, reading, closing,
    answers, refused⟩ := entry
  have outcome := finishReadMetadata_outcome record success found registerRet
  generalize finishReadMetadata h id success found registerRet = g at outcome ⊢
  cases outcome with
  | abandoned status bad =>
      refine ⟨_, .abandon start bad, inv.move ?_ ?_ ?_ rfl rfl⟩
      · intro j other
        simp [Host.entry, other, Ne.symm other]
      · simp [Host.entry, Phase.entry, *]
      · exact inv.claims.give (by rw [start]; rfl)
  | registered m same =>
      refine ⟨_, .register start same, inv.stay ?_ ?_ ?_ rfl rfl rfl⟩
      · intro j other
        simp [Host.entry, other, Ne.symm other]
      · simp [Host.entry, Phase.entry, *]
      · rw [start, Phase.base, Phase.base, same]

theorem unregister_simulated {l : Lives bases} {m : LoadedBdev bases} {u : Bool}
    (inv : Simulates h l) (start : l.phase id = .registered m u) :
    Simulates (spdkBdevUnregister h id) (l.move id (.registered m true)) := by
  have entry := inv.entry id
  rw [start] at entry
  simp only [Host.entry, Phase.entry, Entry.mk.injEq] at entry
  refine inv.stay ?_ ?_ (by rw [start]; rfl) rfl rfl rfl
  · intro j other
    simp [Host.entry, spdkBdevUnregister, other]
  · simp [Host.entry, Phase.entry, spdkBdevUnregister, entry]

theorem destruct_simulated {l : Lives bases} (inv : Simulates h l)
    (asked : h.unregistering id = true) (thread : ThreadId) :
    ∃ l', l.Step none l' ∧ Simulates (ubiDestruct h id thread) l' := by
  have entry := inv.entry id
  obtain ⟨m, start⟩ : ∃ m, l.phase id = .registered m true := by
    cases phase : l.phase id <;> simp_all [Host.entry, Phase.entry]
  rw [start] at entry
  simp only [Host.entry, Phase.entry, Entry.mk.injEq] at entry
  obtain ⟨record, descs, temp, io, listed, registered, unregistering, started, reading, closing,
    answers, refused⟩ := entry
  simp only [ubiDestruct, record, m.opened]
  refine ⟨_, .destruct
    (if m.record.thread ≠ 0 ∧ m.record.thread ≠ thread then some m.base else none) start, ?_⟩
  split
  · refine inv.move ?_ ?_ ?_ rfl rfl
    · intro j other
      simp [Host.entry, Host.release, other, List.count_erase_of_ne other]
    · simp [Host.entry, Phase.entry, Host.release, *]
    · exact inv.claims.give (by rw [start]; rfl)
  · refine inv.move ?_ ?_ ?_ rfl rfl
    · intro j other
      simp [Host.entry, ubiCloseBaseBdev, Host.closeBase, Host.release, other,
        List.count_erase_of_ne other]
    · simp [Host.entry, Phase.entry, ubiCloseBaseBdev, Host.closeBase, Host.release, *]
    · exact inv.claims.give (by rw [start]; rfl)

theorem close_simulated {l : Lives bases} {base : BaseId} (inv : Simulates h l)
    (sent : base ∈ h.closing id) :
    ∃ l', l.Step none l' ∧ Simulates (ubiCloseBaseBdev { h with
      closing := update h.closing id ((h.closing id).erase base) } id base) l' := by
  have entry := inv.entry id
  obtain ⟨c, start⟩ : ∃ c, l.phase id = .deleted c := by
    cases phase : l.phase id <;> simp_all [Host.entry, Phase.entry]
  rw [start] at entry
  simp only [Host.entry, Phase.entry, Entry.mk.injEq] at entry
  obtain ⟨record, descs, temp, io, listed, registered, unregistering, started, reading, closing,
    answers, refused⟩ := entry
  obtain rfl : c = some base := by
    rw [closing] at sent
    exact Option.mem_toList.mp sent
  refine ⟨_, .close start, inv.stay ?_ ?_ (by rw [start]; rfl) rfl rfl rfl⟩
  · intro j other
    simp [Host.entry, ubiCloseBaseBdev, Host.closeBase, other]
  · simp [Host.entry, Phase.entry, ubiCloseBaseBdev, Host.closeBase, *]

theorem Simulates.mem_head {l : Lives bases} (inv : Simulates h l) :
    id ∈ h.head ↔ ∃ m u, l.phase id = .registered m u := by
  have listed : h.head.count id = (l.phase id).entry.listed := by rw [← inv.entry]; rfl
  rw [← List.count_pos_iff, listed]
  cases l.phase id <;> simp [Phase.entry]

theorem Simulates.record {l : Lives bases} (inv : Simulates h l) :
    h.record id = (l.phase id).entry.record := by
  rw [← inv.entry]
  rfl

theorem delete_simulated {l : Lives bases} (inv : Simulates h l) (name : String) :
    ∃ l', l.Step none l' ∧ Simulates (bdevUbiDelete h name).2 l' := by
  unfold bdevUbiDelete
  split
  · exact ⟨l, .stutter, inv⟩
  · next id found =>
    obtain ⟨m, u, start⟩ := inv.mem_head.mp (List.mem_of_find?_eq_some found)
    exact ⟨_, .unregister start, unregister_simulated inv start⟩

/-- The handler finds the registered ubi bdev of the base bdev, if there is one. -/
theorem removeEvent_simulated {l : Lives bases} {base : BaseId} (inv : Simulates h l)
    (removing : h.removing base = true) :
    ∃ l', l.Step (some base) l' ∧ Simulates (ubiHandleBaseBdevEvent h .remove base) l' := by
  rw [inv.removing] at removing
  simp only [ubiHandleBaseBdevEvent, ubiHandleBaseBdevRemoveEvent]
  split
  · next none =>
    refine ⟨_, .miss removing fun id m u start same => ?_, ?_⟩
    · have here := List.find?_eq_none.mp none id (inv.mem_head.mpr ⟨m, u, start⟩)
      rw [inv.record, start] at here
      exact here (by simp [Phase.entry, m.opened, same])
    · exact { inv with handled := by rw [inv.handled]; rfl }
  · next id found =>
    obtain ⟨m, u, start⟩ := inv.mem_head.mp (List.mem_of_find?_eq_some found)
    have same := List.find?_some found
    rw [inv.record, start] at same
    obtain rfl : m.base = base := by simpa [Phase.entry, m.opened] using same
    have moved := unregister_simulated inv start
    exact ⟨_, .handle start removing, { moved with handled := by rw [moved.handled]; rfl }⟩

def HostEvent.handles : HostEvent → Option BaseId
  | .baseEvent _ .remove base => some base
  | _ => none

theorem host_simulated {l : Lives bases} {e : HostEvent} (inv : Simulates h l)
    (moves : hostStep bases h e = .ok g) : ∃ l', l.Step e.handles l' ∧ Simulates g l' := by
  cases e with
  | create id opts env =>
      simp only [hostStep] at moves
      split at moves
      · cases moves
      · next new =>
        cases moves
        exact create_simulated inv (by simpa using new) (bdevUbiCreate_outcome opts env)
  | metadataRead id success found registerRet =>
      simp only [hostStep] at moves
      split at moves
      · next waits =>
        cases moves
        exact read_simulated inv waits success found registerRet
      · cases moves
  | delete name =>
      cases moves
      exact delete_simulated inv name
  | destruct id thread =>
      simp only [hostStep] at moves
      split at moves
      · next asked =>
        cases moves
        exact destruct_simulated inv asked thread
      · cases moves
  | closeBase id base =>
      simp only [hostStep] at moves
      split at moves
      · next sent =>
        cases moves
        exact close_simulated inv sent
      · cases moves
  | removeBase base =>
      cases moves
      exact ⟨_, .remove base, { inv with removing := by rw [← inv.removing] }⟩
  | baseEvent id type base =>
      simp only [hostStep] at moves
      split at moves
      · next allowed =>
        cases moves
        cases type with
        | remove => exact removeEvent_simulated inv (allowed.2 rfl)
        | resize | mediaManagement => exact ⟨l, .stutter, inv⟩
      · cases moves

def Lives.none (bases : BaseId → BaseBdev) : Lives bases :=
  ⟨fun _ => .idle, fun _ => false, fun _ => false⟩

theorem emptyHost_simulated : Simulates emptyHost (Lives.none bases) where
  entry _ := rfl
  claims := Claims.exclusive_empty
  removing := rfl
  handled := rfl

theorem reach_simulated {allowed : Host → HostEvent → Prop} (run : HostReach bases allowed h) :
    ∃ l : Lives bases, Simulates h l := by
  refine run.invariant (P := fun h => ∃ l : Lives bases, Simulates h l)
    ⟨Lives.none bases, emptyHost_simulated⟩ ?_
  rintro h g e - ⟨l, inv⟩ - moves
  obtain ⟨l', -, inv'⟩ := host_simulated inv moves
  exact ⟨l', inv'⟩

theorem Simulates.registered_phase {l : Lives bases} (sim : Simulates h l)
    (registered : h.registered id = true) : ∃ o u, l.phase id = .registered o u := by
  have entry := congrArg Entry.registered (sim.entry id)
  cases phase : l.phase id with
  | registered o u => exact ⟨o, u, rfl⟩
  | idle | failed _ _ _ | reading _ | deleted _ =>
      rw [phase] at entry
      cases registered.symm.trans entry

theorem Simulates.reading_phase {l : Lives bases} (sim : Simulates h l)
    (reading : h.reading id = true) :
    ∃ o, l.phase id = .reading o ∧ h.record id = some o.record := by
  have entry := sim.entry id
  have waits := congrArg Entry.reading entry
  cases phase : l.phase id with
  | reading o =>
      rw [phase] at entry
      exact ⟨o, rfl, congrArg Entry.record entry⟩
  | idle | failed _ _ _ | registered _ _ | deleted _ =>
      rw [phase] at waits
      cases reading.symm.trans waits

/-- A registered ubi bdev is in the state from which its requests are served, and advertises
the write cache of its base bdev. -/
theorem registered_created {allowed : Host → HostEvent → Prop} (run : HostReach bases allowed h)
    (registered : h.registered id = true) :
    ∃ r base dev table found, h.record id = some r ∧ r.baseBdev = some base ∧
      r.device = some dev ∧ r.table = some table ∧ r.writeCache = (bases base).writeCache ∧
      Created dev found (newState found table) := by
  obtain ⟨l, inv⟩ := reach_simulated run
  have entry := inv.entry id
  cases phase : l.phase id with
  | registered m u =>
      rw [phase] at entry
      exact ⟨m.record, m.base, m.device, m.table, m.found, congrArg Entry.record entry, m.opened,
        m.known, m.stored, m.writeCache, m.table, m.read, rfl⟩
  | idle | failed _ _ _ | reading _ | deleted _ =>
      rw [phase] at entry
      have unregistered : h.registered id = false := congrArg Entry.registered entry
      rw [registered] at unregistered
      cases unregistered

/-- No metadata read is outstanding and no message is on its way to close a base bdev. -/
def Settled (h : Host) : Prop := ∀ id, h.reading id = false ∧ h.closing id = []

def Host.registeredOn (h : Host) (id : UbiId) : Option BaseId :=
  if h.registered id then (h.record id).bind UbiBdevRecord.baseBdev else none

/-- One descriptor, one claim, one io_device and one list entry per registered ubi bdev, and
no temporary channel. -/
structure Balanced (h : Host) : Prop where
  registered : ∀ id, (h.registeredOn id).isSome = h.registered id
  descs : ∀ id, h.descs id = (h.registeredOn id).toList
  claims : Claims.Exclusive h.claimed h.registeredOn
  ioDevices : ∀ id, h.ioDevices id = (h.registered id).toNat
  listed : ∀ id, h.head.count id = (h.registered id).toNat
  tempChannels : ∀ id, h.tempChannels id = 0

/-- Nothing is held for this ubi bdev: what is claimed is another's. -/
structure HoldsNothing (h : Host) (id : UbiId) : Prop where
  descs : h.descs id = []
  claims : ∀ base, h.claimed base = true → ∃ j ≠ id, base ∈ h.descs j
  ioDevices : h.ioDevices id = 0
  listed : id ∉ h.head
  tempChannels : h.tempChannels id = 0

theorem Simulates.balanced_iff {l : Lives bases} (inv : Simulates h l) (settled : Settled h) :
    Balanced h ↔ ∀ id, h.refused id = false := by
  have entries (id : UbiId) : (h.registeredOn id).isSome = h.registered id ∧
      h.descs id = (h.registeredOn id).toList ∧ h.registeredOn id = (l.phase id).base ∧
      h.ioDevices id = (h.registered id).toNat ∧ h.head.count id = (h.registered id).toNat ∧
      h.tempChannels id = (h.refused id).toNat := by
    have entry := inv.entry id
    obtain ⟨read, closed⟩ := settled id
    cases phase : l.phase id with
    | idle | failed _ _ _ =>
        rw [phase] at entry
        simp_all [Host.entry, Phase.entry, Host.registeredOn, Phase.base]
    | reading o =>
        rw [phase] at entry
        simp_all [Host.entry, Phase.entry]
    | registered m u =>
        rw [phase] at entry
        simp_all [Host.entry, Phase.entry, Host.registeredOn, Phase.base, m.opened]
    | deleted c =>
        rw [phase] at entry
        simp_all [Host.entry, Phase.entry, Host.registeredOn, Phase.base]
  constructor
  · intro balanced id
    have temp := (entries id).2.2.2.2.2
    rw [balanced.tempChannels] at temp
    simpa using temp.symm
  · intro none
    exact {
      registered := fun id => (entries id).1
      descs := fun id => (entries id).2.1
      claims := by
        rw [funext fun id => (entries id).2.2.1]
        exact inv.claims
      ioDevices := fun id => (entries id).2.2.2.1
      listed := fun id => (entries id).2.2.2.2.1
      tempChannels := fun id => by rw [(entries id).2.2.2.2.2, none]; rfl }

theorem Simulates.answered {l : Lives bases} (inv : Simulates h l) (id : UbiId) :
    (h.answers.filter (·.1 = id)).length = (h.started id && !h.reading id).toNat := by
  have entry := inv.entry id
  cases phase : l.phase id <;> rw [phase] at entry <;>
    simp only [Host.entry, Phase.entry, Entry.mk.injEq] at entry <;>
    rw [← List.length_map, entry.2.2.2.2.2.2.2.2.2.2.1] <;> simp [entry]

theorem Simulates.failed_of_answer {l : Lives bases} {status : Int} (inv : Simulates h l)
    (answered : (id, status) ∈ h.answers) (bad : status ≠ 0) :
    ∃ refused, l.phase id = .failed status bad refused := by
  have mine : status ∈ (l.phase id).entry.answers := by
    rw [← inv.entry]
    exact List.mem_map.mpr ⟨(id, status), List.mem_filter.mpr ⟨answered, by simp⟩, rfl⟩
  cases phase : l.phase id with
  | idle | reading _ =>
      rw [phase] at mine
      cases mine
  | registered _ _ | deleted _ =>
      rw [phase] at mine
      exact absurd (List.mem_singleton.mp mine) bad
  | failed other _ refused =>
      rw [phase] at mine
      obtain rfl := List.mem_singleton.mp mine
      exact ⟨refused, rfl⟩

theorem Simulates.holdsNothing_iff {l : Lives bases} {status : Int} {bad : status ≠ 0}
    {refused : Bool} (inv : Simulates h l) (phase : l.phase id = .failed status bad refused) :
    HoldsNothing h id ↔ h.refused id = false := by
  have entry := inv.entry id
  rw [phase] at entry
  simp only [Host.entry, Phase.entry, Entry.mk.injEq] at entry
  obtain ⟨-, descs, temp, io, listed, -, -, -, -, -, -, refusal⟩ := entry
  constructor
  · intro nothing
    rw [nothing.tempChannels] at temp
    rw [refusal]
    simpa using temp.symm
  · intro none
    refine ⟨descs, fun base claimed => ?_, io, List.count_eq_zero.mp listed, ?_⟩
    · -- the holder is in another phase than this one
      obtain ⟨j, holds⟩ := (inv.claims.claimed_iff base).mp claimed
      have other : j ≠ id := by
        rintro rfl
        rw [phase] at holds
        cases holds
      refine ⟨j, other, ?_⟩
      have here : h.descs j = (l.phase j).entry.descs := by rw [← inv.entry]; rfl
      rw [here]
      cases there : l.phase j <;> rw [there] at holds <;> simp_all [Phase.base, Phase.entry]
    · rw [temp, ← refusal, none]
      rfl

/-- A step that answers a create with an error changes the entry of that ubi bdev only. -/
theorem Simulates.failure_frame {l l' : Lives bases} {base : Option BaseId} {status : Int}
    (inv : Simulates h l) (inv' : Simulates g l') (moves : l.Step base l')
    (answered : g.answers = (id, status) :: h.answers) (bad : status ≠ 0) {j : UbiId}
    (other : j ≠ id) : g.entry j = h.entry j := by
  obtain ⟨refused, failed⟩ :=
    inv'.failed_of_answer (by rw [answered]; exact List.mem_cons_self) bad
  have fresh : (l.phase id).entry.answers = [] := by
    have after : (g.entry id).answers = status :: (h.entry id).answers := by
      simp [Host.entry, answered]
    rw [inv'.entry, inv.entry, failed] at after
    exact (List.cons.inj after).2.symm
  -- another ubi bdev's move leaves this one where it was, and there it had no answer
  have mine {k : UbiId} {p : Phase bases}
      (moved : (l.move k p).phase id = .failed status bad refused) : k = id := by
    by_contra away
    rw [Lives.move_there (Ne.symm away)] at moved
    rw [moved] at fresh
    cases fresh
  rw [inv.entry, inv'.entry]
  cases moves with
  | stutter | remove _ | miss _ _ => rfl
  | fail _ _ _ | start _ _ | abandon _ _ | register _ _ | unregister _ | destruct _ _ | close _ =>
      obtain rfl := mine failed
      rw [Lives.move_there other]
  | handle _ _ =>
      obtain rfl := mine failed
      rw [Lives.handle, Lives.move_there other]

/-- The answers, the settled ledger and the failed creates of every run. Only a metadata read
whose submission is refused leaves something behind. -/
theorem create_delete_ledger_iff (run : HostReach bases (fun _ _ => True) h) :
    (∀ id, (h.answers.filter (·.1 = id)).length = (h.started id && !h.reading id).toNat) ∧
    (Settled h → (Balanced h ↔ ∀ id, h.refused id = false)) ∧
    (∀ id status, (id, status) ∈ h.answers → status ≠ 0 →
      (HoldsNothing h id ↔ h.refused id = false)) ∧
    ∀ e g id status, hostStep bases h e = .ok g → g.answers = (id, status) :: h.answers →
      status ≠ 0 → ∀ j ≠ id, g.entry j = h.entry j := by
  obtain ⟨l, inv⟩ := reach_simulated run
  refine ⟨inv.answered, inv.balanced_iff, fun id status answered bad => ?_, ?_⟩
  · obtain ⟨refused, failed⟩ := inv.failed_of_answer answered bad
    exact inv.holdsNothing_iff failed
  · intro e g id status moves answered bad j other
    obtain ⟨l', step, inv'⟩ := host_simulated inv moves
    exact inv.failure_frame inv' step answered bad other

def plainBase : BaseBdev := ⟨65536, 131, false, threeBlockBase_lt⟩

def plainOpts : UbiBdevOpts where
  name := some "ubi0"
  imagePath := "image"
  image := some ⟨131072, fun _ => 7, twoBlockImage_lt⟩
  baseBdev := 0
  stripeSizeKb := 64
  noSync := false
  copyOnRead := false
  directio := true

def CreateEnv.success : CreateEnv := ⟨1, true, true, 0, 0, true, 0⟩

def plainHost : Host :=
  finishReadMetadata (bdevUbiCreate (fun _ => plainBase) emptyHost 0 (some plainOpts) .success) 0
    true (fun _ => 0) 0

theorem plainHost_reach : HostReach (fun _ => plainBase) (fun _ _ => True) plainHost :=
  .tail (e := .metadataRead 0 true (fun _ => 0) 0)
    (.tail (e := .create 0 (some plainOpts) .success) .refl trivial rfl) trivial rfl

theorem plainHost_balanced : plainHost.registered 0 = true ∧ Balanced plainHost :=
  ⟨by decide +kernel, ((create_delete_ledger_iff plainHost_reach).2.1 fun id => by
    refine ⟨?_, rfl⟩
    cases id <;> rfl).mpr fun _ => rfl⟩

/-- The submission of the metadata read fails: the create is answered, and its temporary
channel stays. -/
theorem refused_read_keeps_channel :
    ∃ h, HostReach (fun _ => plainBase) (fun _ _ => True) h ∧ Settled h ∧
      h.answers = [(0, ENOMEM)] ∧ h.tempChannels 0 = 1 ∧ ¬ Balanced h ∧ ¬ HoldsNothing h 0 := by
  let env := { CreateEnv.success with readRet := ENOMEM }
  let h := bdevUbiCreate (fun _ => plainBase) emptyHost 0 (some plainOpts) env
  have created : hostStep (fun _ => plainBase) emptyHost (.create 0 (some plainOpts) env) = .ok h :=
    rfl
  have run : HostReach (fun _ => plainBase) (fun _ _ => True) h := .tail .refl trivial created
  have channel : h.tempChannels 0 = 1 := by decide +kernel
  refine ⟨h, run, fun id => ⟨rfl, rfl⟩, by decide +kernel, channel, fun balanced => ?_,
    fun nothing => ?_⟩
  · rw [balanced.tempChannels] at channel
    cases channel
  · rw [nothing.tempChannels] at channel
    cases channel

end BdevUbi
