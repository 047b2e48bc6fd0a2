import BdevUbi.Rpc

/-!
What the RPC methods keep over every run: each request is answered exactly once, as soon as
what it waits for has happened, and the strings that stay allocated are those of refused delete
requests.
-/

namespace BdevUbi
open Function (update)

variable {J : Type} {world : RpcWorld J} {bases : BaseId → BaseBdev} {s t : RpcState J}
  {h g : Host} {id : UbiId}

/-- What a step of the module leaves alone, but for a creation that begins. `gone` is the ubi bdev
that it destroys. -/
structure Lower (gone : Option UbiId) (h g : Host) : Prop where
  answers : ∃ new, g.answers = new ++ h.answers
  started : g.started = h.started
  unregistering : ∀ j, some j ≠ gone → h.unregistering j = true → g.unregistering j = true
  record : ∀ j r, g.record j = some r →
    ∃ r', h.record j = some r' ∧ r = { r' with table := r.table }

theorem Lower.refl (h : Host) : Lower none h h :=
  ⟨⟨[], rfl⟩, rfl, fun _ _ before => before, fun _ r known => ⟨r, known, rfl⟩⟩

theorem unregister_lower (h : Host) (id : UbiId) : Lower none h (spdkBdevUnregister h id) := by
  refine ⟨⟨[], rfl⟩, rfl, fun j _ before => ?_, fun _ r known => ⟨r, known, rfl⟩⟩
  by_cases same : j = id
  · simp [spdkBdevUnregister, same]
  · simpa [spdkBdevUnregister, same] using before

theorem delete_lower (h : Host) (name : String) : Lower none h (bdevUbiDelete h name).2 := by
  unfold bdevUbiDelete
  split
  · exact .refl h
  · exact unregister_lower h _

theorem baseEvent_lower (h : Host) (type : BdevEventType) (base : BaseId) :
    Lower none h (ubiHandleBaseBdevEvent h type base) := by
  cases type with
  | remove =>
      have inner : Lower none h (ubiHandleBaseBdevRemoveEvent h base) := by
        unfold ubiHandleBaseBdevRemoveEvent
        split
        · exact .refl h
        · exact unregister_lower h _
      exact ⟨inner.answers, inner.started, inner.unregistering, inner.record⟩
  | resize | mediaManagement => exact .refl h

theorem destruct_lower (h : Host) (id : UbiId) (thread : ThreadId) :
    Lower (some id) h (ubiDestruct h id thread) := by
  have others {g : Host} (answers : g.answers = h.answers) (started : g.started = h.started)
      (unregistering : g.unregistering = update h.unregistering id false)
      (record : g.record = update h.record id none) : Lower (some id) h g := by
    refine ⟨⟨[], answers⟩, started, fun j other before => ?_, fun j r known => ?_⟩
    · rw [unregistering, Function.update_of_ne (by simpa using other)]
      exact before
    · rw [record] at known
      by_cases same : j = id
      · simp [same] at known
      · rw [Function.update_of_ne same] at known
        exact ⟨r, known, rfl⟩
  have kept : Lower (some id) h h :=
    ⟨(Lower.refl h).answers, rfl, fun _ _ before => before, (Lower.refl h).record⟩
  unfold ubiDestruct
  split
  · exact kept
  split
  · exact kept
  · dsimp only
    split <;> exact others rfl rfl rfl rfl

theorem freeUbiBdev_frame (h : Host) (id : UbiId) (r : UbiBdevRecord) :
    (freeUbiBdev h id r).answers = h.answers ∧ (freeUbiBdev h id r).started = h.started ∧
      (freeUbiBdev h id r).unregistering = h.unregistering ∧
      (freeUbiBdev h id r).record = update h.record id none := by
  unfold freeUbiBdev
  cases r.baseBdev <;> cases r.registeredIoDevice <;> exact ⟨rfl, rfl, rfl, rfl⟩

theorem ubiFinishCreate_lower (h : Host) (id : UbiId) (status registerRet : Int) :
    Lower none h (ubiFinishCreate h id status registerRet) := by
  unfold ubiFinishCreate
  generalize (if status = 0 then spdkBdevRegister h id registerRet else status) = final
  have kept := (Lower.refl h).record
  by_cases good : final = 0
  · simp only [good, if_true]
    exact ⟨⟨[(id, 0)], rfl⟩, rfl, fun _ _ before => before, kept⟩
  · simp only [good, if_false]
    cases known : h.record id with
    | none => exact ⟨⟨[(id, final)], rfl⟩, rfl, fun _ _ before => before, kept⟩
    | some r =>
        obtain ⟨answers, started, unregistering, record⟩ := freeUbiBdev_frame h id r
        refine ⟨⟨[(id, final)], by simp [answers]⟩, started, fun _ _ before => ?_,
          fun j r' h' => ?_⟩
        · simpa [unregistering] using before
        · have gone : update h.record id none j = some r' := by rw [← record]; exact h'
          by_cases same : j = id
          · simp [same] at gone
          · rw [Function.update_of_ne same] at gone
            exact kept j r' gone

theorem Lower.trans {f : Host} (first : Lower none h g) (second : Lower none g f) :
    Lower none h f := by
  obtain ⟨new, answers⟩ := first.answers
  obtain ⟨new', answers'⟩ := second.answers
  refine ⟨⟨new' ++ new, by rw [answers', answers, List.append_assoc]⟩,
    second.started.trans first.started,
    fun j other before => second.unregistering j other (first.unregistering j other before),
    fun j r known => ?_⟩
  obtain ⟨r', known', same⟩ := second.record j r known
  obtain ⟨r'', known'', same'⟩ := first.record j r' known'
  exact ⟨r'', known'', by rw [same, same']⟩

theorem metadataRead_lower (h : Host) (id : UbiId) (success : Bool) (found : Bytes)
    (registerRet : Int) : Lower none h (finishReadMetadata h id success found registerRet) := by
  have put : Lower none h { h with
      reading := update h.reading id false
      tempChannels := update h.tempChannels id (h.tempChannels id - 1) } :=
    ⟨⟨[], rfl⟩, rfl, fun _ _ before => before, (Lower.refl h).record⟩
  unfold finishReadMetadata
  dsimp only
  split
  · exact put
  next r known =>
  split
  · exact put.trans (ubiFinishCreate_lower _ _ _ _)
  · -- only the table of the record is new
    refine Lower.trans ?_ (ubiFinishCreate_lower _ _ _ _)
    refine ⟨⟨[], rfl⟩, rfl, fun _ _ before => before, fun j r' known' => ?_⟩
    by_cases same : j = id
    · subst same
      simp only [Host.setRecord, Function.update_self, Option.some.injEq] at known'
      subst known'
      exact ⟨r, known, rfl⟩
    · simp only [Host.setRecord, Function.update_of_ne same] at known'
      exact ⟨r', known', rfl⟩

def HostEvent.gone : HostEvent → Option UbiId
  | .destruct id _ => some id
  | _ => none

theorem hostStep_lower {e : HostEvent} (old : ∀ id opts env, e ≠ .create id opts env)
    (moves : hostStep bases h e = .ok g) : Lower e.gone h g := by
  have quiet {f : Host} (answers : f.answers = h.answers) (started : f.started = h.started)
      (unregistering : f.unregistering = h.unregistering) (record : f.record = h.record) :
      Lower none h f :=
    ⟨⟨[], answers⟩, started, fun _ _ before => unregistering ▸ before,
      fun _ r known => ⟨r, record ▸ known, rfl⟩⟩
  cases e with
  | create id opts env => exact absurd rfl (old id opts env)
  | metadataRead id success found registerRet =>
      rw [hostStep] at moves
      split at moves
      · cases moves
        exact metadataRead_lower h id success found registerRet
      · cases moves
  | delete name =>
      cases moves
      exact delete_lower h name
  | destruct id thread =>
      rw [hostStep] at moves
      split at moves
      · cases moves
        exact destruct_lower h id thread
      · cases moves
  | closeBase id base =>
      rw [hostStep] at moves
      split at moves
      · cases moves
        exact quiet rfl rfl rfl rfl
      · cases moves
  | removeBase base =>
      cases moves
      exact quiet rfl rfl rfl rfl
  | baseEvent id type base =>
      rw [hostStep] at moves
      split at moves
      · cases moves
        exact baseEvent_lower h type base
      · cases moves

namespace RpcState

def count (s : RpcState J) (x : RpcId) : Nat := (s.responses.filter (·.1 = x)).length

@[simp] theorem count_respond (s : RpcState J) (x y : RpcId) (response : RpcResponse) :
    (s.respond x response).count y = s.count y + (decide (x = y)).toNat := by
  by_cases same : x = y <;> simp [count, respond, same]

theorem ran_responses {new : List (UbiId × Int)} (answers : g.answers = new ++ s.host.answers) :
    (s.ran g).responses = new.map (fun a =>
      (.create a.1, bdevUbiCreateDone (g.nameOf a.1) a.2)) ++ s.responses := by
  simp [ran, answers]

theorem count_ran_create {new : List (UbiId × Int)} (answers : g.answers = new ++ s.host.answers)
    (id : UbiId) :
    (s.ran g).count (.create id) = (new.filter (·.1 = id)).length + s.count (.create id) := by
  rw [count, ran_responses answers, List.filter_append, List.length_append]
  simp [count, List.filter_map, Function.comp_def]

theorem count_ran_delete {new : List (UbiId × Int)} (answers : g.answers = new ++ s.host.answers)
    (n : Nat) : (s.ran g).count (.delete n) = s.count (.delete n) := by
  rw [count, ran_responses answers, List.filter_append, List.length_append]
  simp [count, List.filter_map, Function.comp_def]

theorem count_destroyed_create (s : RpcState J) (id j : UbiId) :
    (destroyed s j).count (.create id) = s.count (.create id) := by
  simp [count, destroyed, List.filter_append, List.filter_map, Function.comp_def]

theorem count_destroyed_delete (s : RpcState J) (j : UbiId) (n : Nat) :
    (destroyed s j).count (.delete n) + ((destroyed s j).waiting.filter (·.2 = n)).length =
      s.count (.delete n) + (s.waiting.filter (·.2 = n)).length := by
  have split := List.length_eq_length_filter_add (l := s.waiting.filter (·.2 = n)) (·.1 = j)
  simp only [count, destroyed, List.filter_append, List.filter_map, List.length_append,
    List.length_map, List.filter_filter, Function.comp_def, RpcId.delete.injEq, ne_eq,
    decide_not, Bool.and_comm] at split ⊢
  omega

end RpcState

/-- Where the answers of the requests are. -/
structure Answered (bases : BaseId → BaseBdev) (s : RpcState J) : Prop where
  simulated : ∃ l : Lives bases, Simulates s.host l
  started : ∀ id, s.host.started id = true → .create id ∈ s.received
  creates : ∀ id, s.count (.create id) = (s.host.answers.filter (·.1 = id)).length +
    (decide (.create id ∈ s.received) && !s.host.started id).toNat
  deletes : ∀ n, s.count (.delete n) + (s.waiting.filter (·.2 = n)).length =
    (decide (.delete n ∈ s.received)).toNat
  waits : ∀ w ∈ s.waiting, s.host.unregistering w.1 = true

namespace Answered

theorem creates_ran {gone : Option UbiId} (inv : Answered bases s) (lower : Lower gone s.host g)
    (j : UbiId) : (s.ran g).count (.create j) = (g.answers.filter (·.1 = j)).length +
      (decide (.create j ∈ s.received) && !g.started j).toNat := by
  obtain ⟨new, answers⟩ := lower.answers
  have before := inv.creates j
  rw [RpcState.count_ran_create answers, answers, lower.started, List.filter_append,
    List.length_append]
  omega

theorem deletes_ran {gone : Option UbiId} (lower : Lower gone s.host g) (n : Nat) :
    (s.ran g).count (.delete n) = s.count (.delete n) := by
  obtain ⟨new, answers⟩ := lower.answers
  exact RpcState.count_ran_delete answers n

theorem ran (inv : Answered bases s) (lower : Lower none s.host g)
    (simulated : ∃ l : Lives bases, Simulates g l) : Answered bases (s.ran g) where
  simulated := simulated
  started j began := inv.started j (by rwa [← lower.started])
  creates := inv.creates_ran lower
  deletes n := by
    rw [deletes_ran lower]
    exact inv.deletes n
  waits w there := lower.unregistering w.1 (by simp) (inv.waits w there)

theorem destroyed (inv : Answered bases s) (lower : Lower (some id) s.host g)
    (simulated : ∃ l : Lives bases, Simulates g l) :
    Answered bases (destroyed (s.ran g) id) where
  simulated := simulated
  started j began := inv.started j (by rwa [← lower.started])
  creates j := by
    rw [RpcState.count_destroyed_create]
    exact inv.creates_ran lower j
  deletes n := by
    rw [RpcState.count_destroyed_delete, deletes_ran lower]
    exact inv.deletes n
  waits w there := by
    obtain ⟨there, other⟩ := List.mem_filter.mp there
    exact lower.unregistering w.1 (by simpa using other) (inv.waits w there)

theorem respond {x : RpcId} (inv : Answered bases s) (new : x ∉ s.received)
    (response : RpcResponse) :
    Answered bases ({ s with received := x :: s.received }.respond x response) where
  simulated := inv.simulated
  started j began := List.mem_cons_of_mem _ (inv.started j began)
  creates j := by
    have before := inv.creates j
    have idle : x = .create j → s.host.started j = false := by
      rintro rfl
      by_contra began
      exact new (inv.started j (by simpa using began))
    rw [RpcState.count_respond]
    show s.count _ + _ = _ + (decide (.create j ∈ x :: s.received) && !s.host.started j).toNat
    by_cases same : x = .create j
    · subst same
      simp [before, new, idle rfl, RpcState.respond]
    · simp [before, same, Ne.symm same, RpcState.respond]
  deletes n := by
    have before := inv.deletes n
    rw [RpcState.count_respond]
    show s.count _ + _ + (s.waiting.filter _).length = (decide (.delete n ∈ x :: s.received)).toNat
    by_cases same : x = .delete n
    · subst same
      simp only [new, decide_false, Bool.toNat_false] at before
      simp
      omega
    · simp only [same, decide_false, Bool.toNat_false, List.mem_cons, Ne.symm same, false_or]
      omega
  waits := inv.waits

theorem create (inv : Answered bases s) (new : .create id ∉ s.received)
    (outcome : CreateOutcome bases s.host id g) :
    Answered bases ({ s with received := .create id :: s.received }.ran g) := by
  obtain ⟨l, sim⟩ := inv.simulated
  have idle : s.host.started id = false := by
    by_contra began
    exact new (inv.started id (by simpa using began))
  obtain ⟨l', _, sim'⟩ := create_simulated sim idle outcome
  have began : g.started = update s.host.started id true ∧
      g.unregistering = s.host.unregistering := by
    cases outcome <;> exact ⟨rfl, rfl⟩
  obtain ⟨fresh, answers⟩ : ∃ fresh : List (UbiId × Int), g.answers = fresh ++ s.host.answers := by
    cases outcome with
    | failed status refused bad => exact ⟨[(id, status)], rfl⟩
    | pending o unclaimed ready => exact ⟨[], rfl⟩
  refine ⟨⟨l', sim'⟩, fun j started => ?_, fun j => ?_, fun n => ?_, fun w there => ?_⟩
  · by_cases same : j = id
    · exact same ▸ List.mem_cons_self
    · refine List.mem_cons_of_mem _ (inv.started j ?_)
      have started : g.started j = true := started
      rwa [began.1, Function.update_of_ne same] at started
  · have before := inv.creates j
    show (s.ran g).count _ = (g.answers.filter _).length +
      (decide (.create j ∈ .create id :: s.received) && !g.started j).toNat
    rw [RpcState.count_ran_create answers, answers, began.1, List.filter_append,
      List.length_append]
    by_cases same : j = id
    · subst same
      simp only [new, decide_false, Bool.false_and, Bool.toNat_false] at before
      simp only [Function.update_self, Bool.not_true, Bool.and_false, Bool.toNat_false]
      omega
    · simp only [Function.update_of_ne same, List.mem_cons, RpcId.create.injEq, same, false_or]
      omega
  · show (s.ran g).count _ + (s.waiting.filter _).length =
      (decide (.delete n ∈ .create id :: s.received)).toNat
    rw [RpcState.count_ran_delete answers, inv.deletes n]
    simp
  · show g.unregistering w.1 = true
    rw [began.2]
    exact inv.waits w there

end Answered

theorem Answered.withStrings (inv : Answered bases s) (held : List CString) :
    Answered bases { s with strings := held } :=
  ⟨inv.simulated, inv.started, inv.creates, inv.deletes, inv.waits⟩

theorem Answered.rpcCreate (inv : Answered world.bases s) (new : .create id ∉ s.received)
    {params : J} {env : RpcEnv}
    (h : rpcBdevUbiCreate world { s with received := .create id :: s.received } id params env =
      .ok t) : Answered world.bases t := by
  unfold rpcBdevUbiCreate at h
  generalize decodeRequest world.json (.create id) rpcConstructUbiDecoders env.strdup params
    .defaults = d at h
  dsimp only at h
  split at h
  · obtain ⟨held, _, rfl⟩ := exists_of_map_ok h
    exact (inv.respond new decodeFailed).withStrings held
  split at h
  · cases h
  · obtain ⟨held, _, rfl⟩ := exists_of_map_ok h
    have answered := inv.create new (bdevUbiCreate_outcome (some (d.out.opts world)) env.create)
    exact ⟨answered.simulated, answered.started, answered.creates, answered.deletes, answered.waits⟩

theorem bdevUbiDelete_eq (h : Host) (name : String) :
    bdevUbiDelete h name = match deleteTarget h name with
      | none => (ENODEV, h)
      | some id => (0, spdkBdevUnregister h id) := rfl

/-- A delete request is refused at once, or waits for a ubi bdev that is being unregistered. -/
theorem Answered.delete {n : Nat} (inv : Answered world.bases s) (new : .delete n ∉ s.received)
    {params : J} {strdup : String → Bool}
    (h : rpcBdevUbiDelete world { s with
      received := .delete n :: s.received
      deletes := (n, params, strdup) :: s.deletes } n params strdup = .ok t) :
    Answered world.bases t := by
  obtain ⟨l, sim⟩ := inv.simulated
  unfold rpcBdevUbiDelete at h
  generalize decodeRequest world.json (.delete n) rpcDeleteUbiDecoders strdup params none = d at h
  dsimp only at h
  split at h
  · cases h
    have answered := inv.respond new decodeFailed
    exact ⟨answered.simulated, answered.started, answered.creates, answered.deletes, answered.waits⟩
  obtain ⟨held, _, rfl⟩ := exists_of_map_ok h
  refine Answered.withStrings ?_ held
  rw [bdevUbiDelete_eq]
  cases target : deleteTarget s.host (textOf d.out) with
  | none =>
      have answered :=
        (inv.ran (.refl s.host) inv.simulated).respond new (rpcBdevUbiDeleteCb ENODEV)
      exact ⟨answered.simulated, answered.started, answered.creates, answered.deletes,
        answered.waits⟩
  | some id =>
      have lower := unregister_lower s.host id
      have moves : hostStep world.bases s.host (.delete (textOf d.out)) =
          .ok (spdkBdevUnregister s.host id) := by
        rw [hostStep, bdevUbiDelete_eq, target]
      obtain ⟨l', _, sim'⟩ := host_simulated sim moves
      have before := inv.ran lower ⟨l', sim'⟩
      refine ⟨before.simulated, fun j began => List.mem_cons_of_mem _ (before.started j began),
        fun j => ?_, fun m => ?_, fun w there => ?_⟩
      · show (s.ran (spdkBdevUnregister s.host id)).count _ = (s.host.answers.filter _).length +
          (decide (.create j ∈ .delete n :: s.received) && !s.host.started j).toNat
        rw [show decide (.create j ∈ .delete n :: s.received) = decide (.create j ∈ s.received) by
          simp]
        exact before.creates j
      · have counted : (s.ran (spdkBdevUnregister s.host id)).count (.delete m) +
            (s.waiting.filter (·.2 = m)).length = (decide (.delete m ∈ s.received)).toNat :=
          before.deletes m
        show (s.ran (spdkBdevUnregister s.host id)).count _ +
          (((id, n) :: s.waiting).filter (·.2 = m)).length =
            (decide (.delete m ∈ .delete n :: s.received)).toNat
        by_cases same : n = m
        · subst same
          simp only [new, decide_false, Bool.toNat_false] at counted
          simp
          omega
        · simpa [same, Ne.symm same] using counted
      · rcases List.mem_cons.mp there with rfl | there
        · simp [spdkBdevUnregister, RpcState.ran]
        · exact before.waits w there

theorem answered_step {e : RpcEvent J} (inv : Answered world.bases s)
    (h : rpcStep world s e = .ok t) : Answered world.bases t := by
  have simulated {e : HostEvent} {g : Host} (moves : hostStep world.bases s.host e = .ok g) :
      ∃ l : Lives world.bases, Simulates g l := by
    obtain ⟨l, sim⟩ := inv.simulated
    obtain ⟨l', _, sim'⟩ := host_simulated sim moves
    exact ⟨l', sim'⟩
  cases e with
  | create id params env =>
      rw [rpcStep] at h
      split at h
      · cases h
      · next new => exact inv.rpcCreate new h
  | delete n params strdup =>
      rw [rpcStep] at h
      split at h
      · cases h
      · next new => exact inv.delete new h
  | destruct id thread =>
      rw [rpcStep] at h
      obtain ⟨g, moves, rfl⟩ := exists_of_map_ok h
      exact inv.destroyed (hostStep_lower (by simp) moves) (simulated moves)
  | metadataRead _ _ _ _ | closeBase _ _ | removeBase _ | baseEvent _ _ _ =>
      rw [rpcStep] at h
      obtain ⟨g, moves, rfl⟩ := exists_of_map_ok h
      exact inv.ran (hostStep_lower (by simp) moves) (simulated moves)

theorem answered_reach {allowed : RpcState J → RpcEvent J → Prop} (run : RpcReach world allowed s) :
    Answered world.bases s := by
  refine run.invariant (P := Answered world.bases) ?_ fun _ inv _ moves => answered_step inv moves
  refine ⟨⟨Lives.none _, emptyHost_simulated⟩, ?_, ?_, ?_, ?_⟩ <;>
    simp [emptyRpc, emptyHost, RpcState.count]

/-- What the answer to a request waits for: the metadata of the ubi bdev that is created, or the
end of the one that is deleted. -/
def Pending (s : RpcState J) : RpcId → Prop
  | .create id => s.host.reading id = true
  | .delete n => ∃ id, (id, n) ∈ s.waiting ∧ s.host.unregistering id = true

/-- Every request is answered exactly once, and nothing else is: a request that has been received
has one answer, or none as long as SPDK still has to finish what it waits for. -/
theorem rpc_answered_once {allowed : RpcState J → RpcEvent J → Prop}
    (run : RpcReach world allowed s) (x : RpcId) :
    (x ∉ s.received → ¬ Pending s x ∧ s.count x = 0) ∧
      (x ∈ s.received → (Pending s x ∧ s.count x = 0) ∨ (¬ Pending s x ∧ s.count x = 1)) := by
  have inv := answered_reach run
  obtain ⟨l, sim⟩ := inv.simulated
  cases x with
  | create id =>
      have counted := inv.creates id
      rw [sim.answered] at counted
      have began := inv.started id
      have reading : s.host.reading id = true → s.host.started id = true := by
        intro reading
        have entry := sim.entry id
        cases phase : l.phase id <;> rw [phase] at entry <;>
          simp only [Host.entry, Phase.entry, Entry.mk.injEq] at entry <;> simp_all
      simp only [Pending]
      cases read : s.host.reading id <;> cases start : s.host.started id <;> simp_all
  | delete n =>
      have counted := inv.deletes n
      have waits : Pending s (.delete n) ↔ 0 < (s.waiting.filter (·.2 = n)).length := by
        rw [List.length_pos_iff_exists_mem]
        constructor
        · rintro ⟨id, there, _⟩
          exact ⟨(id, n), by simp [there]⟩
        · rintro ⟨⟨id, m⟩, there⟩
          obtain ⟨here, same⟩ := List.mem_filter.mp there
          obtain rfl : m = n := by simpa using same
          exact ⟨id, here, inv.waits _ here⟩
      rw [waits]
      constructor
      · intro unknown
        simp only [unknown, decide_false, Bool.toNat_false] at counted
        omega
      · intro known
        simp only [known, decide_true, Bool.toNat_true] at counted
        omega

section Plain

/-! A library that keeps objects as they are written, and a world around it. -/

def textOfBytes (bytes : List UInt8) : Option String := String.fromUTF8? ⟨bytes.toArray⟩

namespace JsonValue

def text? : JsonValue → Option String
  | .string bytes => (textOfBytes bytes).filter (!hasNul ·)
  | .uint32 _ | .bool _ => none

def uint32? : JsonValue → Option Nat
  | .uint32 n => some n
  | .string _ | .bool _ => none

def bool? : JsonValue → Option Bool
  | .bool b => some b
  | .string _ | .uint32 _ => none

/-- No string that is not text. -/
def readable (v : JsonValue) : Bool := v.kind != .string || v.text?.isSome

end JsonValue

def JsonMembers.get (members : JsonMembers) (name : String) : Option JsonValue :=
  (members.find? (·.1 = name)).map Prod.snd

def plainJson : SpdkJson JsonMembers where
  decodeObject keys strdup members :=
    { string := fun name => if strdup name then (members.get name).bind JsonValue.text? else none
      uint32 := fun name => (members.get name).bind JsonValue.uint32?
      bool := fun name => (members.get name).bind JsonValue.bool?
      ok := decide (Takes keys members) &&
        members.all fun m => m.2.readable && (m.2.kind != .string || strdup m.1) }
  writeObject members := if members.all (·.2.readable) then some members else none

theorem utf8_replicate (n : Nat) :
    utf8 (String.ofList (List.replicate n 'a')) = List.replicate n 97 := by
  induction n with
  | zero => rfl
  | succ n ih =>
      simp only [utf8, List.replicate_succ, String.toByteArray_ofList] at ih ⊢
      rw [List.utf8Encode_cons, ByteArray.data_append, Array.toList_append, ih]
      rfl

def plainWorld : RpcWorld JsonMembers where
  json := plainJson
  bases _ := plainBase
  registry :=
    { find := fun name => (utf8 name).length
      name := fun base => String.ofList (List.replicate base 'a')
      find_name := fun base => by rw [utf8_replicate, List.length_replicate]
      name_text := fun base => by simp [hasNul, utf8_replicate, List.mem_replicate] }
  files _ := plainOpts.image

def plainParams : JsonMembers :=
  [("name", .string (utf8 "ubi0")), ("base_bdev", .string []),
    ("image_path", .string (utf8 "image")), ("stripe_size_kb", .uint32 64),
    ("copy_on_read", .bool false)]

/-- A ubi bdev is created and deleted; before that, a delete request has a key too many. -/
def createThenDelete : List (RpcEvent JsonMembers) :=
  [.create 0 plainParams ⟨fun _ => true, true, .success⟩,
    .metadataRead 0 true (fun _ => 0) 0,
    .delete 0 [("name", .string (utf8 "ubi0")), ("force", .bool true)] (fun _ => true),
    .delete 1 [("name", .string (utf8 "ubi0"))] (fun _ => true),
    .destruct 0 1]

end Plain

theorem rpc_answered_once_createThenDelete :
    ∃ s, RpcReach plainWorld (fun _ _ => True) s ∧ RpcId.delete 1 ∈ s.received ∧
      ¬ Pending s (.delete 1) ∧ s.count (.delete 1) = 1 := by
  have ran : (Runs.exec (rpcStep plainWorld) (fun _ _ => true) emptyRpc createThenDelete).any
      (fun s => decide (RpcId.delete 1 ∈ s.received ∧ s.waiting = [])) = true := by
    decide +kernel
  obtain ⟨s, run, test⟩ := Runs.exists_reach_of_exec (fun _ _ _ _ => trivial) ran
  obtain ⟨received, none⟩ := of_decide_eq_true test
  have done : ¬ Pending s (.delete 1) := by simp [Pending, none]
  exact ⟨s, run, received, ((rpc_answered_once run (.delete 1)).2 received).resolve_left
    fun pending => done pending.1⟩

section Strings

/-- The request that a call of the decoder leaves, field by field. -/
def RpcConstructUbi.ofDecoded (x : RpcId) (decoded : JsonDecoded) : RpcConstructUbi where
  name := (decoded.string "name").map (⟨x, "name", ·⟩)
  imagePath := (decoded.string "image_path").map (⟨x, "image_path", ·⟩)
  baseBdevName := (decoded.string "base_bdev").map (⟨x, "base_bdev", ·⟩)
  stripeSizeKb := (decoded.uint32 "stripe_size_kb").getD 0
  noSync := (decoded.bool "no_sync").getD false
  copyOnRead := (decoded.bool "copy_on_read").getD true
  directio := (decoded.bool "directio").getD true

theorem decodeRequest_construct (json : SpdkJson J) (x : RpcId) (strdup : String → Bool)
    (params : J) :
    (decodeRequest json x rpcConstructUbiDecoders strdup params .defaults).out = .ofDecoded x
      (json.decodeObject (rpcConstructUbiDecoders.map JsonDecoder.key) strdup params) := by
  unfold decodeRequest
  generalize json.decodeObject _ _ _ = decoded
  simp only [rpcConstructUbiDecoders, List.foldl_cons, List.foldl_nil, JsonDecoder.store,
    RpcConstructUbi.defaults, RpcConstructUbi.ofDecoded, Option.or_none]

theorem decodeRequest_construct_strings (json : SpdkJson J) (x : RpcId) (strdup : String → Bool)
    (params : J) {d : Decoding RpcConstructUbi}
    (same : decodeRequest json x rpcConstructUbiDecoders strdup params .defaults = d) :
    d.strings = d.out.name.toList ++ (d.out.imagePath.toList ++ d.out.baseBdevName.toList) := by
  rw [← same, decodeRequest_construct]
  unfold decodeRequest
  generalize json.decodeObject _ _ _ = decoded
  simp [rpcConstructUbiDecoders, RpcConstructUbi.ofDecoded, List.filterMap_eq_flatMap_toList,
    JsonDecoder.allocated]

theorem free_allocated (string : Option CString) (held : List CString) :
    free string (string.toList ++ held) = .ok held := by
  cases string with
  | none => rfl
  | some string => simp [free]

theorem freeRpcConstructUbi_decoded (json : SpdkJson J) (x : RpcId) (strdup : String → Bool)
    (params : J) (held : List CString) :
    freeRpcConstructUbi (decodeRequest json x rpcConstructUbiDecoders strdup params .defaults).out
      ((decodeRequest json x rpcConstructUbiDecoders strdup params .defaults).strings ++ held) =
      .ok held := by
  rw [decodeRequest_construct_strings json x strdup params rfl, List.append_assoc,
    List.append_assoc, freeRpcConstructUbi, free_allocated]
  show (free _ _ >>= fun held => free _ held) = _
  rw [free_allocated]
  exact free_allocated _ held

/-- The string of a delete request that is refused although its name was decoded. -/
def leakedName (world : RpcWorld J) (d : Nat × J × (String → Bool)) : Option CString :=
  let decoded := world.json.decodeObject [⟨"name", .string, false⟩] d.2.2 d.2.1
  if decoded.ok then none else (decoded.string "name").map (⟨.delete d.1, "name", ·⟩)

theorem rpcCreate_strings {params : J} {env : RpcEnv}
    (h : rpcBdevUbiCreate world s id params env = .ok t) :
    t.strings = s.strings ∧ t.deletes = s.deletes := by
  unfold rpcBdevUbiCreate at h
  dsimp only at h
  split at h
  · rw [RpcState.respond, freeRpcConstructUbi_decoded] at h
    cases h
    exact ⟨rfl, rfl⟩
  split at h
  · cases h
  · rw [RpcState.ran, freeRpcConstructUbi_decoded] at h
    cases h
    exact ⟨rfl, rfl⟩

theorem rpcCreate_defined {params : J} {env : RpcEnv}
    (h : rpcBdevUbiCreate world s id params env = .error .undefinedBehaviour) :
    env.context = false := by
  unfold rpcBdevUbiCreate at h
  dsimp only at h
  split at h
  · rw [RpcState.respond, freeRpcConstructUbi_decoded] at h
    cases h
  split at h
  · next missing => simpa using missing
  · rw [RpcState.ran, freeRpcConstructUbi_decoded] at h
    cases h

theorem decodeRequest_delete (json : SpdkJson J) (n : Nat) (strdup : String → Bool) (params : J)
    {decoded : JsonDecoded}
    (same : json.decodeObject [⟨"name", .string, false⟩] strdup params = decoded) :
    decodeRequest json (.delete n) rpcDeleteUbiDecoders strdup params none =
      ⟨(decoded.string "name").map (⟨.delete n, "name", ·⟩),
        ((decoded.string "name").map (CString.mk (.delete n) "name")).toList, decoded.ok⟩ := by
  simp only [decodeRequest, rpcDeleteUbiDecoders, List.map_cons, List.map_nil, JsonDecoder.key,
    JsonTarget.kind, same, List.foldl_cons, List.foldl_nil, JsonDecoder.store, Option.or_none]
  cases text : decoded.string "name" <;> simp [JsonDecoder.allocated, text]

theorem rpcDelete_strings (world : RpcWorld J) (s : RpcState J) (n : Nat) (params : J)
    (strdup : String → Bool) :
    ∃ t, rpcBdevUbiDelete world s n params strdup = .ok t ∧ t.deletes = s.deletes ∧
      t.strings = (leakedName world (n, params, strdup)).toList ++ s.strings := by
  simp only [rpcBdevUbiDelete, decodeRequest_delete world.json n strdup params rfl, leakedName]
  generalize world.json.decodeObject _ strdup params = decoded
  cases decoded.ok with
  | false => exact ⟨_, rfl, rfl, rfl⟩
  | true =>
      simp only [Bool.not_true, Bool.false_eq_true, if_false, if_true]
      rw [bdevUbiDelete_eq]
      cases deleteTarget s.host _ <;>
        exact ⟨_, congrArg (Except.map _) (free_allocated _ s.strings), rfl, rfl⟩

theorem strings_step {e : RpcEvent J} (before : s.strings = s.deletes.filterMap (leakedName world))
    (h : rpcStep world s e = .ok t) : t.strings = t.deletes.filterMap (leakedName world) := by
  cases e with
  | create id params env =>
      rw [rpcStep] at h
      split at h
      · cases h
      · obtain ⟨strings, deletes⟩ := rpcCreate_strings h
        rw [strings, deletes]
        exact before
  | delete n params strdup =>
      rw [rpcStep] at h
      split at h
      · cases h
      · obtain ⟨t', done, deletes, strings⟩ := rpcDelete_strings world { s with
          received := .delete n :: s.received
          deletes := (n, params, strdup) :: s.deletes } n params strdup
        obtain rfl : t' = t := Except.ok.inj (done.symm.trans h)
        rw [strings, deletes, before, List.filterMap_cons]
        cases leakedName world (n, params, strdup) <;> rfl
  | destruct _ _ | metadataRead _ _ _ _ | closeBase _ _ | removeBase _ | baseEvent _ _ _ =>
      rw [rpcStep] at h
      obtain ⟨g, moves, rfl⟩ := exists_of_map_ok h
      exact before

end Strings

end BdevUbi
