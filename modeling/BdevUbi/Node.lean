import BdevUbi.CreationLedger
import BdevUbi.Quiescence

/-!
A process with all of its ubi bdevs. Creation and deletion go on while requests are served, and
the base bdevs are shared: whatever a ubi bdev writes is found there by the next one that is
created on the same base bdev, and would be found by any other that used it meanwhile. The
claim on the base bdev is what keeps them apart. So every ubi bdev runs as if it were alone,
and what is known of the system holds of each of them.
-/

namespace BdevUbi
open Function (update)
open VolatileDisk

/-- `device` is the state of a ubi bdev that is registered. The contents of a base bdev are in
`disk`, not in the states of its users. -/
structure Node where
  host : Host
  disk : BaseId → Disk Bytes
  device : UbiId → Option State

inductive NodeEvent where
  | metadataRead (id : UbiId) (success : Bool) (registerRet : Int)
  /-- any other event of the host -/
  | host (e : HostEvent)
  | io (id : UbiId) (e : Event)

namespace Node

def baseOf (n : Node) (id : UbiId) : Option BaseId :=
  (n.host.record id).bind UbiBdevRecord.baseBdev

def found (bases : BaseId → BaseBdev) (n : Node) (id : UbiId) : Bytes :=
  match n.baseOf id with
  | some base => fun a => (n.disk base).current (a / (bases base).blocklen) a
  | none => fun _ => 0

/-- A ubi bdev that has just been registered begins to serve requests. There are no crashes
here, so that of the history of its base bdev only the content matters. -/
def serve (n : Node) (h : Host) (id : UbiId) (found : Bytes) : Node :=
  match h.registered id, (h.record id).bind UbiBdevRecord.table, n.baseOf id with
  | true, some table, some base =>
    { host := h
      disk := update n.disk base (Disk.init fun _ => found)
      device := update n.device id (some (newState found table)) }
  | _, _, _ => { n with host := h }

def opsOutstanding (s : State) : Bool :=
  (List.range s.nextRead).any (fun o => (s.reads o).isSome) ||
    (List.range s.nextWrite).any (fun o => (s.writes o).isSome) ||
    (List.range s.nextFlush).any (fun o => (s.flushes o).isSome)

end Node

def HostEvent.destructs : HostEvent → Option UbiId
  | .destruct id _ => some id
  | _ => none

def HostEvent.readsMetadata : HostEvent → Bool
  | .metadataRead _ _ _ _ => true
  | _ => false

/-- A base bdev must not be closed under operations that are still outstanding. -/
def nodeStep (bases : BaseId → BaseBdev) (n : Node) : NodeEvent → Except Halt Node
  | .metadataRead id success registerRet => do
    let h ← hostStep bases n.host (.metadataRead id success (n.found bases id) registerRet)
    return n.serve h id (n.found bases id)
  | .host e =>
    if e.readsMetadata then .error .disabled
    else do
      let h ← hostStep bases n.host e
      match e.destructs with
      | none => return { n with host := h }
      | some id =>
        if (n.device id).any Node.opsOutstanding then .error .undefinedBehaviour
        else return { n with host := h, device := update n.device id none }
  | .io id e => match n.device id, (n.host.record id).bind UbiBdevRecord.device, n.baseOf id with
    | some s, some dev, some base => do
      let t ← step dev { s with disk := n.disk base } e
      return { n with
        disk := update n.disk base t.disk
        device := update n.device id (some t) }
    | _, _, _ => .error .disabled

/-- SPDK destroys a ubi bdev when all of its requests have been completed. -/
def NodeRules (n : Node) : NodeEvent → Prop
  | .host (.destruct id _) => ∀ s c, n.device id = some s → NoneOutstanding s c
  | _ => True

/-- The process has started; the base bdevs have any content. -/
def emptyNode (disk : BaseId → Disk Bytes) : Node := ⟨emptyHost, disk, fun _ => none⟩

abbrev NodeReach (bases : BaseId → BaseBdev) (disk : BaseId → Disk Bytes) (n : Node) : Prop :=
  Runs.Reach (nodeStep bases) NodeRules (emptyNode disk) n

variable {bases : BaseId → BaseBdev} {disk : BaseId → Disk Bytes} {n m : Node} {h g : Host}
  {id : UbiId} {s t : State}

section Host

variable {l : Lives bases}

theorem CreateOutcome.frame (outcome : CreateOutcome bases h id g) {j : UbiId} (other : j ≠ id) :
    g.registered j = h.registered j ∧ g.record j = h.record j := by
  cases outcome <;> exact ⟨rfl, Function.update_of_ne other ..⟩

theorem ReadOutcome.frame {o : OpenBdev bases} (outcome : ReadOutcome h id o g) {j : UbiId}
    (other : j ≠ id) : g.registered j = h.registered j ∧ g.record j = h.record j := by
  cases outcome with
  | abandoned => exact ⟨rfl, Function.update_of_ne other ..⟩
  | registered => exact ⟨Function.update_of_ne other .., Function.update_of_ne other ..⟩

theorem ubiDestruct_frame (h : Host) (thread : ThreadId) {j : UbiId} (other : j ≠ id) :
    (ubiDestruct h id thread).registered j = h.registered j ∧
      (ubiDestruct h id thread).record j = h.record j := by
  unfold ubiDestruct
  split
  · exact ⟨rfl, rfl⟩
  split
  · exact ⟨rfl, rfl⟩
  dsimp only
  split <;> exact ⟨Function.update_of_ne other .., Function.update_of_ne other ..⟩

/-- The ubi bdev that an event is about. Those that delete or remove something only mark a ubi bdev
for its destruction. -/
def HostEvent.about : HostEvent → Option UbiId
  | .create id _ _ | .metadataRead id _ _ _ | .destruct id _ => some id
  | _ => none

theorem hostStep_frame {e : HostEvent} (sim : Simulates h l) (moves : hostStep bases h e = .ok g)
    (other : e.about ≠ some id) :
    g.registered id = h.registered id ∧ g.record id = h.record id := by
  cases e with
  | create j opts env =>
      simp only [hostStep] at moves
      split at moves
      · cases moves
      · cases moves
        exact (bdevUbiCreate_outcome opts env).frame (by rintro rfl; exact other rfl)
  | metadataRead j success found ret =>
      simp only [hostStep] at moves
      split at moves
      · next reading =>
        cases moves
        obtain ⟨o, _, known⟩ := sim.reading_phase reading
        exact (finishReadMetadata_outcome known success found ret).frame
          (by rintro rfl; exact other rfl)
      · cases moves
  | delete name =>
      cases moves
      unfold bdevUbiDelete
      split <;> exact ⟨rfl, rfl⟩
  | destruct j thread =>
      simp only [hostStep] at moves
      split at moves
      · cases moves
        exact ubiDestruct_frame h thread (by rintro rfl; exact other rfl)
      · cases moves
  | closeBase j base =>
      simp only [hostStep] at moves
      split at moves
      · cases moves
        exact ⟨rfl, rfl⟩
      · cases moves
  | removeBase base =>
      cases moves
      exact ⟨rfl, rfl⟩
  | baseEvent j type base =>
      simp only [hostStep] at moves
      split at moves
      · cases moves
        cases type with
        | remove =>
            unfold ubiHandleBaseBdevEvent ubiHandleBaseBdevRemoveEvent
            dsimp only
            split <;> exact ⟨rfl, rfl⟩
        | resize | mediaManagement => exact ⟨rfl, rfl⟩
      · cases moves

/-- A registered ubi bdev stays registered until it is destroyed, and keeps its record. -/
theorem hostStep_keeps {e : HostEvent} (sim : Simulates h l) (registered : h.registered id = true)
    (moves : hostStep bases h e = .ok g) (other : e.destructs ≠ some id) :
    g.registered id = true ∧ g.record id = h.record id := by
  obtain ⟨o, u, phase⟩ := sim.registered_phase registered
  have entry := sim.entry id
  rw [phase] at entry
  have started : h.started id = true := congrArg Entry.started entry
  have idle : h.reading id = false := congrArg Entry.reading entry
  rw [← registered]
  refine hostStep_frame sim moves fun about => ?_
  cases e with
  | create j opts env =>
      cases about
      simp [hostStep, started] at moves
  | metadataRead j success found ret =>
      cases about
      simp [hostStep, idle] at moves
  | destruct j thread => exact other about
  | _ => cases about

theorem freeUbiBdev_registered (h : Host) (id : UbiId) (r : UbiBdevRecord) :
    (freeUbiBdev h id r).registered = h.registered := by
  unfold freeUbiBdev
  split <;> split <;> rfl

theorem ubiFinishCreate_registers {status ret : Int} (new : h.registered id = false)
    (registered : (ubiFinishCreate h id status ret).registered id = true) :
    status = 0 ∧ (ubiFinishCreate h id status ret).record = h.record := by
  unfold ubiFinishCreate at registered ⊢
  dsimp only at registered ⊢
  by_cases done : (if status = 0 then spdkBdevRegister h id ret else status) = 0
  · rw [if_pos done]
    refine ⟨?_, rfl⟩
    by_contra bad
    rw [if_neg bad] at done
    exact bad done
  · rw [if_neg done] at registered
    have same : h.registered id = true := by
      cases known : h.record id with
      | none => simpa [known] using registered
      | some r => simpa [known, freeUbiBdev_registered] using registered
    cases new.symm.trans same

theorem metadataRead_registers {success : Bool} {found : Bytes} {ret : Int} (sim : Simulates h l)
    (moves : hostStep bases h (.metadataRead id success found ret) = .ok g)
    (registered : g.registered id = true) :
    ∃ (o : OpenBdev bases) (table : StripeTable), h.record id = some o.record ∧
      g.record id = some { o.record with table := some table } ∧
      Created o.device found (newState found table) := by
  simp only [hostStep] at moves
  split at moves
  · next reading =>
    cases moves
    obtain ⟨o, phase, known⟩ := sim.reading_phase reading
    have new : h.registered id = false := by
      have entry := sim.entry id
      rw [phase] at entry
      exact congrArg Entry.registered entry
    have size : (o.record.device.map UbiBdev.stripeSizeKb).getD 0 = o.device.stripeSizeKb := by
      rw [o.known]
      rfl
    refine ⟨o, ?_⟩
    simp only [finishReadMetadata, known, size] at registered ⊢
    split at registered
    · next rc refused =>
      exact absurd (ubiFinishCreate_registers (by exact new) registered).1
        (ubiFinishReadMetadata_error refused)
    · next table read =>
      obtain rfl := ubiFinishReadMetadata_success read
      obtain ⟨_, same⟩ := ubiFinishCreate_registers (by exact new) registered
      refine ⟨table, trivial, ?_, table, read, rfl⟩
      rw [same]
      exact Function.update_self ..
  · cases moves

theorem destruct_unregisters {thread : ThreadId} (sim : Simulates h l)
    (moves : hostStep bases h (.destruct id thread) = .ok g) : g.registered id = false := by
  simp only [hostStep] at moves
  split at moves
  · next leaving =>
    cases moves
    have entry := sim.entry id
    cases phase : l.phase id with
    | registered m u =>
        rw [phase] at entry
        have known : h.record id = some m.record := congrArg Entry.record entry
        simp only [ubiDestruct, known, m.opened]
        split <;> exact Function.update_self ..
    | _ =>
        rw [phase] at entry
        cases leaving.symm.trans (congrArg Entry.unregistering entry)
  · cases moves

theorem hostStep_registers {e : HostEvent} (sim : Simulates h l)
    (moves : hostStep bases h e = .ok g) (registered : g.registered id = true) :
    h.registered id = true ∨ ∃ success found ret, e = .metadataRead id success found ret := by
  by_cases about : e.about = some id
  · cases e with
    | create j opts env =>
        simp only [hostStep] at moves
        split at moves
        · cases moves
        · obtain rfl := Except.ok.inj moves
          have outcome := @bdevUbiCreate_outcome bases h j opts env
          generalize bdevUbiCreate bases h j opts env = g at outcome registered
          cases outcome <;> exact .inl registered
    | metadataRead j success found ret =>
        cases about
        exact .inr ⟨success, found, ret, rfl⟩
    | destruct j thread =>
        cases about
        cases (destruct_unregisters sim moves).symm.trans registered
    | _ => cases about
  · rw [(hostStep_frame sim moves about).1] at registered
    exact .inl registered

end Host

/-- The ubi bdev has run on its own since it was registered, and its base bdev holds what it has
written. -/
def RunsAlone (n : Node) (id : UbiId) (s : State) : Prop :=
  ∃ r dev base found s₀, n.host.record id = some r ∧ r.device = some dev ∧
    r.baseBdev = some base ∧ Created dev found s₀ ∧ Reach dev anyStep s₀ s ∧ s.disk = n.disk base

structure NodeInv (bases : BaseId → BaseBdev) (n : Node) : Prop where
  simulated : ∃ l : Lives bases, Simulates n.host l
  registered : ∀ id s, n.device id = some s → n.host.registered id = true
  alone : ∀ id s, n.device id = some s → RunsAlone n id s

theorem baseOf_eq {r : UbiBdevRecord} {base : BaseId} (known : n.host.record id = some r)
    (opened : r.baseBdev = some base) : n.baseOf id = some base := by
  rw [Node.baseOf, known]
  exact opened

theorem Simulates.base_unique {l : Lives bases} {j : UbiId} {r r' : UbiBdevRecord} {base : BaseId}
    (sim : Simulates h l) (here : h.registered id = true) (there : h.registered j = true)
    (known : h.record id = some r) (known' : h.record j = some r')
    (opened : r.baseBdev = some base) (opened' : r'.baseBdev = some base) : id = j := by
  have claimed {k : UbiId} {r : UbiBdevRecord} (registered : h.registered k = true)
      (known : h.record k = some r) (opened : r.baseBdev = some base) :
      (l.phase k).base = some base := by
    obtain ⟨o, u, phase⟩ := sim.registered_phase registered
    have entry := sim.entry k
    rw [phase] at entry ⊢
    have record : h.record k = some o.record := congrArg Entry.record entry
    obtain rfl : o.record = r := Option.some.inj (record.symm.trans known)
    exact o.opened.symm.trans opened
  exact sim.claims.unique (claimed here known opened) (claimed there known' opened')

namespace NodeInv

variable (inv : NodeInv bases n)

include inv

/-- A step of a ubi bdev is a step of its own state, over the content of its base bdev. -/
theorem step_io (here : n.device id = some s) :
    ∃ dev base found s₀, (n.host.record id).bind UbiBdevRecord.device = some dev ∧
      n.baseOf id = some base ∧ Created dev found s₀ ∧ Reach dev anyStep s₀ s ∧
      ∀ e, nodeStep bases n (.io id e) = (step dev s e).map fun t => { n with
        disk := update n.disk base t.disk
        device := update n.device id (some t) } := by
  obtain ⟨r, dev, base, found, s₀, known, device, opened, created, run, content⟩ :=
    inv.alone id s here
  have own : (n.host.record id).bind UbiBdevRecord.device = some dev := by
    rw [known]
    exact device
  have mine := baseOf_eq known opened
  refine ⟨dev, base, found, s₀, own, mine, created, run, fun e => ?_⟩
  have same : { s with disk := n.disk base } = s := by rw [← content]
  simp only [nodeStep, here, own, mine, same]
  cases step dev s e <;> rfl

theorem io {e : Event} (moves : nodeStep bases n (.io id e) = .ok m) : NodeInv bases m := by
  cases here : n.device id with
  | none => simp [nodeStep, here] at moves
  | some s =>
      obtain ⟨r, dev, base, found, s₀, known, device, opened, created, run, content⟩ :=
        inv.alone id s here
      obtain ⟨dev', base', _, _, own, mine, _, _, eq⟩ := inv.step_io here
      obtain rfl : dev = dev' := by
        rw [known] at own
        exact Option.some.inj (device.symm.trans own)
      obtain rfl : base = base' := Option.some.inj ((baseOf_eq known opened).symm.trans mine)
      rw [eq] at moves
      cases stepped : step dev s e with
      | error _ => rw [stepped] at moves; cases moves
      | ok t =>
          rw [stepped] at moves
          cases moves
          refine ⟨inv.simulated, fun j u there => ?_, fun j u there => ?_⟩
          · by_cases other : j = id
            · exact other ▸ inv.registered id s here
            · exact inv.registered j u (by simpa [other] using there)
          · by_cases other : j = id
            · subst other
              obtain rfl : t = u := by simpa using there
              exact ⟨r, dev, base, found, s₀, known, device, opened, created,
                run.tail trivial stepped, by simp⟩
            · have before : n.device j = some u := by simpa [other] using there
              obtain ⟨r', dev', base', found', s₀', known', device', opened', created', run',
                content'⟩ := inv.alone j u before
              refine ⟨r', dev', base', found', s₀', known', device', opened', created', run', ?_⟩
              have away : base' ≠ base := by
                intro same
                obtain ⟨l, sim⟩ := inv.simulated
                exact other (sim.base_unique (inv.registered j u before) (inv.registered id s here)
                  known' known opened' (same ▸ opened))
              simpa [away] using content'

theorem keeps {e : HostEvent} (moves : hostStep bases n.host e = .ok g)
    (other : e.destructs ≠ some id) (here : n.device id = some s) :
    g.registered id = true ∧ RunsAlone { n with host := g } id s := by
  obtain ⟨l, sim⟩ := inv.simulated
  obtain ⟨registered, record⟩ := hostStep_keeps sim (inv.registered id s here) moves other
  obtain ⟨r, dev, base, found, s₀, known, rest⟩ := inv.alone id s here
  exact ⟨registered, r, dev, base, found, s₀, record.trans known, rest⟩

theorem host {e : HostEvent} (moves : nodeStep bases n (.host e) = .ok m) : NodeInv bases m := by
  rw [nodeStep] at moves
  split at moves
  · cases moves
  cases stepped : hostStep bases n.host e with
  | error _ => rw [stepped] at moves; cases moves
  | ok g =>
      obtain ⟨l, sim⟩ := inv.simulated
      obtain ⟨l', -, sim'⟩ := host_simulated sim stepped
      rw [stepped] at moves
      cases gone : e.destructs with
      | none =>
          simp only [gone, bind, Except.bind] at moves
          cases moves
          have other (id : UbiId) : e.destructs ≠ some id := by simp [gone]
          exact ⟨⟨l', sim'⟩, fun id s here => (inv.keeps stepped (other id) here).1,
            fun id s here => (inv.keeps stepped (other id) here).2⟩
      | some dead =>
          simp only [gone, bind, Except.bind] at moves
          split at moves
          · cases moves
          cases moves
          have left {id : UbiId} {s : State} (here : update n.device dead none id = some s) :
              e.destructs ≠ some id ∧ n.device id = some s := by
            by_cases same : id = dead
            · simp [same] at here
            · exact ⟨by simp [gone, Ne.symm same], by simpa [same] using here⟩
          exact ⟨⟨l', sim'⟩, fun id s here => (inv.keeps stepped (left here).1 (left here).2).1,
            fun id s here => (inv.keeps stepped (left here).1 (left here).2).2⟩

theorem metadataRead {success : Bool} {ret : Int}
    (moves : nodeStep bases n (.metadataRead id success ret) = .ok m) : NodeInv bases m := by
  rw [nodeStep] at moves
  cases stepped : hostStep bases n.host (.metadataRead id success (n.found bases id) ret) with
  | error _ => rw [stepped] at moves; cases moves
  | ok g =>
      obtain ⟨l, sim⟩ := inv.simulated
      obtain ⟨l', -, sim'⟩ := host_simulated sim stepped
      have kept {j : UbiId} {u : State} (there : n.device j = some u) :
          g.registered j = true ∧ RunsAlone { n with host := g } j u :=
        inv.keeps stepped (by simp [HostEvent.destructs]) there
      rw [stepped] at moves
      cases moves
      by_cases registered : g.registered id = true
      · obtain ⟨o, table, known, record, created⟩ :=
          metadataRead_registers sim stepped registered
        have mine : n.baseOf id = some o.base := baseOf_eq known o.opened
        have serves : n.serve g id (n.found bases id) = ⟨g,
            update n.disk o.base (VolatileDisk.Disk.init fun _ => n.found bases id),
            update n.device id (some (newState (n.found bases id) table))⟩ := by
          simp [Node.serve, registered, record, mine]
        rw [serves]
        refine ⟨⟨l', sim'⟩, fun j u there => ?_, fun j u there => ?_⟩
        · by_cases other : j = id
          · exact other ▸ registered
          · exact (kept (by simpa [other] using there)).1
        · by_cases other : j = id
          · subst other
            obtain rfl : newState (n.found bases j) table = u := by simpa using there
            exact ⟨_, o.device, o.base, n.found bases j, _, record, o.known, o.opened, created,
              .refl, by simp [newState]⟩
          · have before : n.device j = some u := by simpa [other] using there
            obtain ⟨_, r, dev, base, found, s₀, known', device, opened, created', run, content⟩ :=
              kept before
            refine ⟨r, dev, base, found, s₀, known', device, opened, created', run, ?_⟩
            have away : base ≠ o.base := by
              intro same
              exact other (sim'.base_unique (kept before).1 registered known' record opened
                (same ▸ o.opened))
            simpa [away] using content
      · have serves : n.serve g id (n.found bases id) = { n with host := g } := by
          simp [Node.serve, registered]
        rw [serves]
        exact ⟨⟨l', sim'⟩, fun j u there => (kept there).1, fun j u there => (kept there).2⟩

end NodeInv

theorem nodeInv_step {e : NodeEvent} (inv : NodeInv bases n) (moves : nodeStep bases n e = .ok m) :
    NodeInv bases m := by
  cases e with
  | metadataRead id success ret => exact inv.metadataRead moves
  | host e => exact inv.host moves
  | io id e => exact inv.io moves

theorem nodeInv_reach (run : NodeReach bases disk n) : NodeInv bases n := by
  refine run.invariant (P := NodeInv bases) ?_ fun _ inv _ moves => nodeInv_step inv moves
  exact ⟨⟨Lives.none bases, emptyHost_simulated⟩, nofun, nofun⟩

def Node.Serves (n : Node) : Prop := ∀ id, n.host.registered id = true → ∃ s, n.device id = some s

theorem Node.serve_host (n : Node) (h : Host) (id : UbiId) (found : Bytes) :
    (n.serve h id found).host = h := by
  unfold Node.serve
  split <;> rfl

theorem Node.serve_keeps {found : Bytes} {j : UbiId} (here : n.device id = some s) :
    ∃ t, (n.serve h j found).device id = some t := by
  unfold Node.serve
  split
  · by_cases same : id = j
    · exact ⟨_, by rw [same]; exact Function.update_self ..⟩
    · exact ⟨s, (Function.update_of_ne same ..).trans here⟩
  · exact ⟨s, here⟩

theorem serves_metadataRead {success : Bool} {ret : Int} {j : UbiId} (inv : NodeInv bases n)
    (before : n.Serves) (moves : nodeStep bases n (.metadataRead j success ret) = .ok m) :
    m.Serves := by
  obtain ⟨l, sim⟩ := inv.simulated
  rw [nodeStep] at moves
  cases stepped : hostStep bases n.host (.metadataRead j success (n.found bases j) ret) with
  | error _ => rw [stepped] at moves; cases moves
  | ok g =>
      rw [stepped] at moves
      cases moves
      intro id registered
      rw [Node.serve_host] at registered
      rcases hostStep_registers sim stepped registered with old | ⟨_, _, _, same⟩
      · obtain ⟨s, here⟩ := before id old
        exact Node.serve_keeps here
      · cases same
        obtain ⟨o, table, known, record, _⟩ := metadataRead_registers sim stepped registered
        refine ⟨newState (n.found bases j) table, ?_⟩
        simp [Node.serve, registered, record, baseOf_eq known o.opened]

theorem serves_host {e : HostEvent} (inv : NodeInv bases n) (before : n.Serves)
    (moves : nodeStep bases n (.host e) = .ok m) : m.Serves := by
  obtain ⟨l, sim⟩ := inv.simulated
  rw [nodeStep] at moves
  split at moves
  · cases moves
  next other =>
  cases stepped : hostStep bases n.host e with
  | error _ => rw [stepped] at moves; cases moves
  | ok g =>
      have old {id : UbiId} (registered : g.registered id = true) : ∃ s, n.device id = some s := by
        rcases hostStep_registers sim stepped registered with old | ⟨_, _, _, rfl⟩
        · exact before id old
        · exact absurd rfl other
      rw [stepped] at moves
      cases gone : e.destructs with
      | none =>
          simp only [gone, bind, Except.bind] at moves
          cases moves
          exact fun id registered => old registered
      | some dead =>
          simp only [gone, bind, Except.bind] at moves
          split at moves
          · cases moves
          cases moves
          intro id registered
          obtain ⟨s, here⟩ := old registered
          have alive : id ≠ dead := by
            rintro rfl
            cases e with
            | destruct j thread =>
                cases gone
                cases (destruct_unregisters sim stepped).symm.trans registered
            | _ => cases gone
          exact ⟨s, (Function.update_of_ne alive ..).trans here⟩

theorem serves_step {e : NodeEvent} (inv : NodeInv bases n) (before : n.Serves)
    (moves : nodeStep bases n e = .ok m) : m.Serves := by
  cases e with
  | metadataRead j success ret => exact serves_metadataRead inv before moves
  | host e => exact serves_host inv before moves
  | io j e =>
      cases here : n.device j with
      | none => simp [nodeStep, here] at moves
      | some s =>
          obtain ⟨dev, base, _, _, _, _, _, _, eq⟩ := inv.step_io here
          rw [eq] at moves
          obtain ⟨t, _, rfl⟩ := exists_of_map_ok moves
          intro id registered
          by_cases same : id = j
          · exact ⟨t, by rw [same]; exact Function.update_self ..⟩
          · obtain ⟨s', there⟩ := before id registered
            exact ⟨s', (Function.update_of_ne same ..).trans there⟩

theorem serves_reach (run : NodeReach bases disk n) : n.Serves :=
  (run.invariant (P := fun n => NodeInv bases n ∧ n.Serves)
    ⟨nodeInv_reach .refl, fun _ registered => by cases registered⟩
    fun _ inv _ moves => ⟨nodeInv_step inv.1 moves, serves_step inv.1 inv.2 moves⟩).2

theorem opsOutstanding_of_quiescent {dev : UbiBdev} (quiet : ∀ c, Quiescent dev s c) :
    Node.opsOutstanding s = false := by
  have idle (id : ReqId) : ¬ CallbackDue s id := fun due => (quiet _).callbacks id due rfl
  simp only [Node.opsOutstanding, Bool.or_eq_false_iff, List.any_eq_false, Bool.not_eq_true,
    Option.isSome_eq_false_iff, Option.isNone_iff_eq_none]
  refine ⟨⟨fun o _ => ?_, fun o _ => ?_⟩, fun o _ => ?_⟩
  · cases read : s.reads o with
    | none => rfl
    | some op => exact absurd (.inr (.inl ⟨o, op, read, rfl⟩)) (idle op.req)
  · cases write : s.writes o with
    | none => rfl
    | some op =>
        cases cb : op.cb with
        | stripe c k => exact absurd cb ((quiet c).writes o op k write)
        | io id | metadata id =>
            exact absurd (.inr (.inr (.inl ⟨o, op, write, by simp [cb]⟩))) (idle id)
  · cases flush : s.flushes o with
    | none => rfl
    | some op =>
        cases cb : op.cb with
        | data id | metadata id =>
            exact absurd (.inr (.inr (.inr ⟨o, op, flush, by simp [cb]⟩))) (idle id)

theorem nodeStep_metadataRead_defined {success : Bool} {ret : Int} :
    nodeStep bases n (.metadataRead id success ret) ≠ .error .undefinedBehaviour := by
  intro stuck
  rw [nodeStep] at stuck
  cases stepped : hostStep bases n.host (.metadataRead id success (n.found bases id) ret) with
  | error stop =>
      rw [stepped, hostStep_disabled stepped] at stuck
      cases stuck
  | ok g => rw [stepped] at stuck; cases stuck

namespace NodeInv

theorem base_unique {j : UbiId} {s t : State} {base : BaseId} (inv : NodeInv bases n)
    (here : n.device id = some s) (there : n.device j = some t) (mine : n.baseOf id = some base)
    (theirs : n.baseOf j = some base) : id = j := by
  obtain ⟨l, sim⟩ := inv.simulated
  obtain ⟨r, known, opened⟩ := Option.bind_eq_some_iff.mp mine
  obtain ⟨r', known', opened'⟩ := Option.bind_eq_some_iff.mp theirs
  exact sim.base_unique (inv.registered id s here) (inv.registered j t there) known known' opened
    opened'

theorem idle_of_completed (inv : NodeInv bases n)
    (issued : ∀ s, n.device id = some s → FetchesIssued s.log)
    (completed : ∀ s c, n.device id = some s → NoneOutstanding s c) :
    (n.device id).any Node.opsOutstanding = false := by
  cases here : n.device id with
  | none => rfl
  | some s =>
      obtain ⟨_, dev, _, _, _, _, _, _, created, alone, _⟩ := inv.alone id s here
      have quiet (c : ChId) : Quiescent dev s c := quiescent_of_idle
        (fetchesAwaited_reach created alone (issued s here)) (requestsPlaced_reach created alone)
        (channelsKnown_reach created alone) (completed s c here)
      exact opsOutstanding_of_quiescent quiet

theorem host_defined {e : HostEvent} (inv : NodeInv bases n)
    (issued : ∀ id s, n.device id = some s → FetchesIssued s.log) (rule : NodeRules n (.host e)) :
    nodeStep bases n (.host e) ≠ .error .undefinedBehaviour := by
  intro stuck
  rw [nodeStep] at stuck
  split at stuck
  · cases stuck
  cases stepped : hostStep bases n.host e with
  | error stop =>
      rw [stepped, hostStep_disabled stepped] at stuck
      cases stuck
  | ok g =>
      cases e with
      | destruct id thread =>
          -- the descriptor is closed when nothing is outstanding on the base bdev
          have idle := inv.idle_of_completed (issued id) rule
          simp [stepped, HostEvent.destructs, idle, bind, Except.bind, pure, Except.pure] at stuck
      | _ => rw [stepped] at stuck; cases stuck

theorem io_undefined {e : Event} (inv : NodeInv bases n)
    (stuck : nodeStep bases n (.io id e) = .error .undefinedBehaviour) :
    ∃ s dev, n.device id = some s ∧
      (n.host.record id).bind UbiBdevRecord.device = some dev ∧
      step dev s e = .error .undefinedBehaviour := by
  cases here : n.device id with
  | none => simp [nodeStep, here] at stuck
  | some s =>
      obtain ⟨dev, _, _, _, own, _, _, _, eq⟩ := inv.step_io here
      rw [eq] at stuck
      exact ⟨s, dev, rfl, own, error_of_map_error stuck⟩

end NodeInv

/-- In every run of a process the ubi bdevs that are registered are those that serve requests, and
each of them runs as if it were alone, over a base bdev of its own. When one is destroyed nothing is
outstanding on the base bdev that is closed, as long as the fetches of every ubi bdev could be
issued. -/
theorem devices_run_alone (run : NodeReach bases disk n) :
    (∀ id, n.host.registered id = true ↔ ∃ s, n.device id = some s) ∧
    (∀ id s, n.device id = some s → RunsAlone n id s) ∧
    (∀ id j s t base, n.device id = some s → n.device j = some t → n.baseOf id = some base →
      n.baseOf j = some base → id = j) ∧
    ((∀ id s, n.device id = some s → FetchesIssued s.log) → ∀ e, NodeRules n e →
      nodeStep bases n e = .error .undefinedBehaviour →
      ∃ id io s dev, e = .io id io ∧ n.device id = some s ∧
        (n.host.record id).bind UbiBdevRecord.device = some dev ∧
        step dev s io = .error .undefinedBehaviour) := by
  have inv := nodeInv_reach run
  refine ⟨fun id => ⟨serves_reach run id, fun ⟨s, here⟩ => inv.registered id s here⟩, inv.alone,
    fun _ _ _ _ _ => inv.base_unique, fun issued e rule stuck => ?_⟩
  cases e with
  | metadataRead id success ret => exact absurd stuck nodeStep_metadataRead_defined
  | host e => exact absurd stuck (inv.host_defined issued rule)
  | io id io =>
      obtain ⟨s, dev, here, own, stops⟩ := inv.io_undefined stuck
      exact ⟨id, io, s, dev, rfl, here, own, stops⟩

def NodeEvent.keepsAll : NodeEvent → Bool
  | .host e => e.destructs.isNone
  | .metadataRead _ _ _ | .io _ _ => true

theorem nodeRules_of_keepsAll {e : NodeEvent} (ok : e.keepsAll = true) : NodeRules n e := by
  cases e with
  | host e =>
      cases e with
      | destruct _ _ => cases ok
      | _ => trivial
  | metadataRead _ _ _ | io _ _ => trivial

/-- Two ubi bdevs over two base bdevs, and a third that finds the first base bdev claimed. -/
def twoBdevs : List NodeEvent :=
  [.host (.create 0 (some plainOpts) .success), .metadataRead 0 true 0,
    .host (.create 1 (some { plainOpts with name := some "ubi1", baseBdev := 1 }) .success),
    .metadataRead 1 true 0,
    .host (.create 2 (some { plainOpts with name := some "ubi2" }) .success),
    .io 1 (.submit 0 0 ⟨.write, 2, 1, fun _ => 5⟩), .io 1 (.poll 0 .success)]

theorem devices_run_alone_twoBdevs :
    ∃ n s t, NodeReach (fun _ => plainBase) (fun _ => .init fun _ _ => 0) n ∧
      n.device 0 = some s ∧ n.device 1 = some t ∧ n.device 2 = none ∧
      RunsAlone n 0 s ∧ RunsAlone n 1 t ∧ n.baseOf 0 ≠ n.baseOf 1 := by
  have ran : (Runs.exec (nodeStep fun _ => plainBase) (fun _ e => e.keepsAll)
      (emptyNode fun _ => .init fun _ _ => 0) twoBdevs).any (fun n => (n.device 0).isSome &&
        (n.device 1).isSome && (n.device 2).isNone && (n.baseOf 0).isSome) = true := by
    decide +kernel
  obtain ⟨n, run, test⟩ := Runs.exists_reach_of_exec (fun _ _ _ ok => nodeRules_of_keepsAll ok) ran
  simp only [Bool.and_eq_true] at test
  obtain ⟨⟨⟨first, second⟩, third⟩, based⟩ := test
  obtain ⟨s, here⟩ := Option.isSome_iff_exists.mp first
  obtain ⟨t, there⟩ := Option.isSome_iff_exists.mp second
  obtain ⟨base, mine⟩ := Option.isSome_iff_exists.mp based
  obtain ⟨_, alone, apart, _⟩ := devices_run_alone run
  refine ⟨n, s, t, run, here, there, by simpa using third, alone 0 s here, alone 1 t there, ?_⟩
  intro same
  cases apart 0 1 s t base here there mine (same ▸ mine)

end BdevUbi
