import BdevUbi.BlockLedger
import BdevUbi.Library.Counting

/-!
The count of active READs. `ubi_io_poll` increments `active_reads` when it dispatches a READ,
and `ubi_complete_io`, which five exits of three callbacks call, decrements it. Every READ
between the two is known to one of these callbacks and to no other, so the counter is exact.
-/

namespace BdevUbi
open Counting

variable {dev : UbiBdev} {s₀ s t : State} {l : Label}

/-- `ubi_io_poll` has taken the READ off the list of channel `c`, and it is not completed. -/
def ReadInFlight (s : State) (c : ChId) (id : ReqId) : Prop :=
  .unqueued c id ∈ s.log ∧ (∃ r, s.request id = some r ∧ r.type = .read) ∧
    ∀ ok, .completed id ok ∉ s.log

/-- One of the callbacks that may complete a READ is still to come: that of its buffer, of its
entry in a ring, or of its base read. -/
def ReadDue (s : State) (id : ReqId) : Prop :=
  s.waiting id = true ∨ (∃ c, ∃ sqe ∈ s.ringEntries c, sqe.userData = .bdevIo id) ∨
    ∃ o op, s.reads o = some op ∧ op.req = id

theorem ReadDue.occurs {id : ReqId} (due : ReadDue s id) :
    ∃ p, s.occurrences id p ≠ 0 ∧ p ≠ .completed ∧ (∀ c, p ≠ .listed c) ∧
      ∀ type, p.suits type → type = .read := by
  rcases due with wait | ⟨c, sqe, entry, tag⟩ | ⟨o, op, read, rfl⟩
  · exact ⟨.buffer, by simp [State.occurrences, wait], nofun, nofun, fun _ read => read⟩
  · exact ⟨.ring c, (List.countP_pos_iff.mpr ⟨sqe, entry, by simp [tag]⟩).ne', nofun, nofun,
      fun _ read => read⟩
  · exact ⟨.baseRead o, by simp [State.occurrences, read], nofun, nofun, fun _ read => read⟩

namespace RequestsPlaced

theorem read_of_due (inv : RequestsPlaced s) {id : ReqId} (due : ReadDue s id) :
    ∃ r, s.request id = some r ∧ r.type = .read := by
  obtain ⟨p, there, _, _, suits⟩ := due.occurs
  obtain ⟨r, known, suit⟩ := inv.suits_of_occurs there
  exact ⟨r, known, suits _ suit⟩

theorem not_due_of_type (inv : RequestsPlaced s) {id : ReqId} {r : Request}
    (known : s.request id = some r) (other : r.type ≠ .read) : ¬ ReadDue s id := by
  intro due
  obtain ⟨r', known', read⟩ := inv.read_of_due due
  obtain rfl : r = r' := Option.some.inj (known.symm.trans known')
  exact other read

theorem uncompleted_of_due (inv : RequestsPlaced s) {id : ReqId} (due : ReadDue s id) (ok : Bool) :
    .completed id ok ∉ s.log := by
  obtain ⟨p, there, other, _⟩ := due.occurs
  exact inv.uncompleted_of_occurs there other ok

theorem uncompleted_of_listed (inv : RequestsPlaced s) {id : ReqId} {c : ChId}
    (listed : id ∈ (s.channel c).io) (ok : Bool) : .completed id ok ∉ s.log :=
  inv.uncompleted_of_occurs (p := .listed c) (List.count_pos_iff.mpr listed).ne' nofun ok

theorem not_due_of_listed (inv : RequestsPlaced s) {id : ReqId} {c : ChId}
    (listed : id ∈ (s.channel c).io) : ¬ ReadDue s id := by
  intro due
  obtain ⟨p, there, _, other, _⟩ := due.occurs
  exact other c (inv.place_unique there (q := .listed c) (List.count_pos_iff.mpr listed).ne')

end RequestsPlaced

theorem State.released_of_read {id : ReqId} {r : Request} (known : s.request id = some r)
    (read : r.type = .read) (c : ChId) :
    (s.released id c).activeReads = if c = (s.bdevIo id).ubiCh then
      decrement (s.channel c).activeReads else (s.channel c).activeReads := by
  simp only [State.released, known, read, if_true]
  by_cases here : c = (s.bdevIo id).ubiCh
  · subst here
    simp
  · simp [here]

theorem State.released_of_other {id : ReqId} {r : Request} (known : s.request id = some r)
    (other : r.type ≠ .read) : s.released id = s.channel := by
  simp [State.released, known, other]

/-- What an act does to the READs in flight and to the counters. -/
inductive ReadEffect (s t : State) : Prop
  | stay (counted : ∀ c, (t.channel c).activeReads = (s.channel c).activeReads)
      (flight : ∀ c id, ReadInFlight t c id ↔ ReadInFlight s c id)
      (due : ∀ id, ReadDue t id → ReadDue s id)
      (routed : ∀ id, ReadDue s id → (t.bdevIo id).ubiCh = (s.bdevIo id).ubiCh)
  | dispatch (c : ChId) (id : ReqId) (listed : id ∈ (s.channel c).io)
      (limit : (s.channel c).activeReads < ubiMaxConcurrentReads)
      (counted : ∀ d, (t.channel d).activeReads =
        if d = c then (s.channel d).activeReads + 1 else (s.channel d).activeReads)
      (flight : ∀ d j, ReadInFlight t d j ↔ ReadInFlight s d j ∨ (d = c ∧ j = id))
      (due : ∀ j, ReadDue t j → ReadDue s j ∨ j = id)
      (routed : ∀ j, (t.bdevIo j).ubiCh = if j = id then c else (s.bdevIo j).ubiCh)
  | answer (id : ReqId) (old : ReadDue s id)
      (counted : ∀ d, (t.channel d).activeReads = if d = (s.bdevIo id).ubiCh then
        decrement (s.channel d).activeReads else (s.channel d).activeReads)
      (flight : ∀ d j, ReadInFlight t d j ↔ ReadInFlight s d j ∧ j ≠ id)
      (due : ∀ j, ReadDue t j → ReadDue s j ∧ j ≠ id)
      (routed : ∀ j, (t.bdevIo j).ubiCh = (s.bdevIo j).ubiCh)

/-- What `ubi_io_poll` takes off a list was submitted, and it is not on a list again. -/
structure TakenOnce (s : State) : Prop where
  known : ∀ c id, .unqueued c id ∈ s.log → s.request id ≠ none
  unlisted : ∀ c d id, .unqueued c id ∈ s.log → id ∉ (s.channel d).io

theorem RequestsPlaced.first_once (inv : RequestsPlaced s) {c : ChId} {id : ReqId}
    {rest : List ReqId} (first : (s.channel c).io = id :: rest) :
    id ∉ rest ∧ ∀ d, d ≠ c → id ∉ (s.channel d).io := by
  have here : s.occurrences id (.listed c) ≠ 0 := by simp [State.occurrences, first]
  obtain ⟨loc, placed⟩ := inv.placed id
  obtain rfl := placed.counts.eq_some here
  constructor
  · intro again
    have once := placed.counts.eq_one
    have := List.count_pos_iff.mpr again
    simp only [State.occurrences, first, List.count_cons_self] at once
    omega
  · intro d other there
    cases inv.place_unique here (q := .listed d) (List.count_pos_iff.mpr there).ne'
    exact other rfl

theorem takenOnce_act (inv : RequestsPlaced s) (once : TakenOnce s) (act : Act dev s l t) :
    TakenOnce t := by
  obtain ⟨known, unlisted⟩ := once
  have listed : ∀ c id, id ∈ (s.channel c).io → s.request id ≠ none := by
    intro c id here
    obtain ⟨r, req, _⟩ := inv.suits_of_occurs (p := .listed c) (List.count_pos_iff.mpr here).ne'
    simp [req]
  have first := @inv.first_once
  constructor
  · intro c id taken
    specialize known c id
    cases act <;> grind
  · intro c d id taken
    specialize known c id
    specialize unlisted c d id
    cases act <;> grind

theorem readInFlight_congr {c : ChId} {id : ReqId} (req : t.request id = s.request id)
    (taken : .unqueued c id ∈ t.log ↔ .unqueued c id ∈ s.log)
    (done : ∀ ok, .completed id ok ∈ t.log ↔ .completed id ok ∈ s.log) :
    ReadInFlight t c id ↔ ReadInFlight s c id := by
  simp only [ReadInFlight, req, taken, done]

theorem not_readInFlight_of_done {c : ChId} {id : ReqId} {ok : Bool}
    (done : .completed id ok ∈ s.log) : ¬ ReadInFlight s c id := fun flight => flight.2.2 ok done

theorem not_readInFlight_of_type {c : ChId} {id : ReqId} {r : Request}
    (known : s.request id = some r) (other : r.type ≠ .read) : ¬ ReadInFlight s c id := by
  rintro ⟨_, ⟨r', known', read⟩, _⟩
  obtain rfl : r = r' := Option.some.inj (known.symm.trans known')
  exact other read

theorem ReadDue.back {id : ReqId} (due : ReadDue t id)
    (wait : t.waiting id = true → s.waiting id = true)
    (ring : ∀ c sqe, sqe ∈ t.ringEntries c → sqe.userData = .bdevIo id → sqe ∈ s.ringEntries c)
    (reads : ∀ o op, t.reads o = some op → op.req = id →
      ∃ op', s.reads o = some op' ∧ op'.req = id) :
    ReadDue s id := by
  rcases due with here | ⟨c, sqe, entry, tag⟩ | ⟨o, op, read, req⟩
  · exact .inl (wait here)
  · exact .inr (.inl ⟨c, sqe, ring c sqe entry tag, tag⟩)
  · obtain ⟨op', old, same⟩ := reads o op read req
    exact .inr (.inr ⟨o, op', old, same⟩)

section Effect

attribute [local grind =] State.ringEntries stripeSqe imageReadSqe

theorem ReadEffect.answered {id : ReqId} (ok : Bool) (inv : RequestsPlaced s)
    (placed : RequestsPlaced t) (old : ReadDue s id)
    (counted : ∀ d, (t.channel d).activeReads = (s.released id d).activeReads)
    (req : t.request = s.request) (routed : t.bdevIo = s.bdevIo)
    (taken : ∀ c j, .unqueued c j ∈ t.log ↔ .unqueued c j ∈ s.log)
    (done : ∀ j ok', .completed j ok' ∈ t.log ↔ (j = id ∧ ok' = ok) ∨ .completed j ok' ∈ s.log)
    (due : ∀ j, j ≠ id → ReadDue t j → ReadDue s j) : ReadEffect s t := by
  obtain ⟨r, known, read⟩ := inv.read_of_due old
  have answered : .completed id ok ∈ t.log := (done id ok).mpr (.inl ⟨rfl, rfl⟩)
  refine .answer id old (fun d => ?_) (fun d j => ?_) (fun j later => ?_) fun j => by rw [routed]
  · rw [counted, State.released_of_read known read]
  · by_cases same : j = id
    · subst same
      simp [not_readInFlight_of_done answered]
    · simp only [same, ne_eq, not_false_eq_true, and_true]
      exact readInFlight_congr (by rw [req]) (taken d j) (by simp [done, same])
  · have other : j ≠ id := fun same => placed.uncompleted_of_due later ok (same ▸ answered)
    exact ⟨due j other later, other⟩

theorem ReadEffect.aside (id : ReqId) (undue : ¬ ReadDue s id)
    (idle : ∀ d, ¬ ReadInFlight s d id) (still : ∀ d, ¬ ReadInFlight t d id)
    (counted : ∀ d, (t.channel d).activeReads = (s.channel d).activeReads)
    (req : ∀ j, j ≠ id → t.request j = s.request j)
    (routed : ∀ j, j ≠ id → (t.bdevIo j).ubiCh = (s.bdevIo j).ubiCh)
    (taken : ∀ d j, j ≠ id → (.unqueued d j ∈ t.log ↔ .unqueued d j ∈ s.log))
    (done : ∀ j ok, j ≠ id → (.completed j ok ∈ t.log ↔ .completed j ok ∈ s.log))
    (due : ∀ j, ReadDue t j → ReadDue s j) : ReadEffect s t := by
  refine .stay counted (fun d j => ?_) due fun j old => routed j fun same => undue (same ▸ old)
  by_cases same : j = id
  · subst same
    exact iff_of_false (still d) (idle d)
  · exact readInFlight_congr (req j same) (taken d j same) fun ok => done j ok same

theorem act_readEffect (inv : RequestsPlaced s) (once : TakenOnce s) (act : Act dev s l t) :
    ReadEffect s t := by
  have listed : ∀ c d id, id ∈ (s.channel c).io → ¬ ReadInFlight s d id :=
    fun c d id here flight => once.unlisted d c id flight.1 here
  have placed := requestsPlaced_act inv act
  cases act
  case readDispatched c id rest r first req type limit gate =>
    have here : id ∈ (s.channel c).io := by simp [first]
    have undone := inv.uncompleted_of_listed here
    refine .dispatch c id here limit (by grind) (fun d j => ?_) (fun j due => ?_) (by grind)
    · by_cases same : d = c ∧ j = id
      · obtain ⟨rfl, rfl⟩ := same
        exact iff_of_true ⟨by simp, ⟨r, req, type⟩, by simpa using undone⟩ (.inr ⟨rfl, rfl⟩)
      · simp only [same, or_false]
        exact readInFlight_congr rfl (by simp [same]) (by simp)
    · by_cases same : j = id
      · exact .inr same
      · exact .inl (due.back (by grind) (by grind) (by grind))
  case imageReadDone c id sqe res rest first tag =>
    have old : ReadDue s id := .inr (.inl ⟨c, sqe, by simp [State.ringEntries, first], tag⟩)
    exact .answered (decide (0 ≤ res)) inv placed old (by grind) rfl rfl (by simp) (by simp)
      fun j other due => due.back (fun wait => wait) (by grind) (by grind)
  case bufferRefused id r wait req =>
    exact .answered false inv placed (.inl wait) (fun _ => rfl) rfl rfl (by simp) (by simp)
      fun j other due => due.back (by grind) (by grind) (by grind)
  case readDone o op success read all =>
    exact .answered success inv placed (.inr (.inr ⟨o, op, read, rfl⟩)) (fun _ => rfl) rfl rfl
      (by simp) (by simp) fun j other due => due.back (by grind) (by grind) (by grind)
  case baseReadStarted id r wait req gate fits =>
    refine .stay (fun _ => rfl) (fun _ _ => Iff.rfl) (fun j due => ?_) fun _ _ => rfl
    by_cases same : j = id
    · exact .inl (same ▸ wait)
    · exact due.back (by grind) (by grind) (by grind)
  case imageReadPrepared id r status wait req gate unfetched image room =>
    refine .stay (by grind) (fun _ _ => Iff.rfl) (fun j due => ?_) fun _ _ => rfl
    by_cases same : j = id
    · exact .inl (same ▸ wait)
    · exact due.back (by grind) (by grind) (by grind)
  case uringFetch c i k sqe res entry tag bound =>
    refine .stay (by grind) (fun _ _ => Iff.rfl) (fun j due => ?_) fun _ _ => rfl
    have := List.mem_of_getElem? entry
    exact due.back (fun wait => wait) (by grind [List.mem_of_mem_eraseIdx]) (by grind)
  case uringRead c i id sqe res entry tag bound =>
    refine .stay (by grind) (fun _ _ => Iff.rfl) (fun j due => ?_) fun _ _ => rfl
    have := List.mem_of_getElem? entry
    exact due.back (fun wait => wait) (by grind [List.mem_of_mem_eraseIdx]) (by grind)
  case requestFailed c id rest r first req data image gate
  | bugTaken c id rest r first req data image gate fetch =>
    have here : id ∈ (s.channel c).io := by simp [first]
    exact .aside id (inv.not_due_of_listed here) (fun d => listed c d id here)
      (fun d flight => flight.2.2 false (by simp)) (by grind) (fun _ _ => rfl)
      (fun _ _ => rfl) (by grind) (by grind) fun j due => due.back (by grind) (by grind) (by grind)
  case ioAnswered c id rest r ok first req type skip =>
    have here : id ∈ (s.channel c).io := by simp [first]
    exact .aside id (inv.not_due_of_listed here) (fun d => listed c d id here)
      (fun d => not_readInFlight_of_type req type.1) (by grind) (fun _ _ => rfl)
      (by grind) (by grind) (by grind) fun j due => due.back (by grind) (by grind) (by grind)
  case writeDispatched c id rest r first req type gate fits
  | writeRefused c id rest r first req type gate
  | flushDispatched c id rest r first req type sync =>
    have here : id ∈ (s.channel c).io := by simp [first]
    exact .aside id (inv.not_due_of_listed here) (fun d => listed c d id here)
      (fun d => not_readInFlight_of_type req (by simp [type])) (by grind) (fun _ _ => rfl)
      (by grind) (by grind) (by grind) fun j due => due.back (by grind) (by grind) (by grind)
  case submitSpanning c id r new type range fetch span
  | submitFetching c id r x new type range fetch within image index bound gate
  | submitQueued c id r new type range within gate =>
    have untaken : ∀ d, .unqueued d id ∉ s.log := fun d taken => once.known d id taken new
    have idle : ¬ ReadDue s id := fun due => by simpa [new] using inv.read_of_due due
    exact .aside id idle (fun d flight => untaken d flight.1)
      (fun d flight => untaken d (by simpa using flight.1)) (by grind) (by grind)
      (fun _ _ => rfl) (by grind) (by grind) fun j due => due.back (by grind) (by grind) (by grind)
  case ioWriteDone o op id success write cb all =>
    obtain ⟨r, req, type⟩ := inv.suits_of_occurs (p := .baseWrite o)
      (show s.occurrences id _ ≠ 0 by simp [State.occurrences, write, cb])
    have other : r.type ≠ .read := by rw [show r.type = .write from type]; simp
    exact .aside id (inv.not_due_of_type req other) (fun d => not_readInFlight_of_type req other)
      (fun d => not_readInFlight_of_type req other)
      (fun d => by simp [State.released_of_other req other]) (fun _ _ => rfl)
      (fun _ _ => rfl) (by grind) (by grind) fun j due => due.back (by grind) (by grind) (by grind)
  case metadataWriteFailed o op id success write cb all =>
    obtain ⟨r, req, type⟩ := inv.suits_of_occurs (p := .metadataWrite o)
      (show s.occurrences id _ ≠ 0 by simp [State.occurrences, write, cb])
    have other : r.type ≠ .read := by rw [show r.type = .flush from type]; simp
    exact .aside id (inv.not_due_of_type req other) (fun d => not_readInFlight_of_type req other)
      (fun d => not_readInFlight_of_type req other) (fun _ => rfl) (fun _ _ => rfl)
      (fun _ _ => rfl) (by grind) (by grind) fun j due => due.back (by grind) (by grind) (by grind)
  case dataFlushOnly o op id flush cb clean
  | metadataWriteRefused o op id flush cb dirty
  | metadataWriteStarted o op id flush cb dirty =>
    obtain ⟨r, req, type⟩ := inv.dataFlush_owner flush cb
    have other : r.type ≠ .read := by simp [type]
    exact .aside id (inv.not_due_of_type req other) (fun d => not_readInFlight_of_type req other)
      (fun d => not_readInFlight_of_type req other) (fun _ => rfl) (fun _ _ => rfl)
      (by grind) (by grind) (by grind) fun j due => due.back (by grind) (by grind) (by grind)
  case metadataFlushFailed o op id flush cb | metadataFlushDone o op id flush cb =>
    obtain ⟨r, req, type⟩ := inv.metadataFlush_owner flush cb
    have other : r.type ≠ .read := by simp [type]
    exact .aside id (inv.not_due_of_type req other) (fun d => not_readInFlight_of_type req other)
      (fun d => not_readInFlight_of_type req other) (fun _ => rfl) (fun _ _ => rfl)
      (fun _ _ => rfl) (by grind) (by grind) fun j due => due.back (by grind) (by grind) (by grind)
  all_goals
    exact .stay (by first | exact fun _ => rfl | grind)
      (fun d j => readInFlight_congr rfl (by simp) (by simp))
      (fun j due => due.back (by grind) (by grind) (by grind)) fun _ _ => rfl

end Effect

structure ReadsCounted (s : State) : Prop where
  placed : RequestsPlaced s
  once : TakenOnce s
  /-- A READ is in flight on the channel its context names. -/
  routed : ∀ id, ReadDue s id → ReadInFlight s (s.bdevIo id).ubiCh id
  single : ∀ c d id, ReadInFlight s c id → ReadInFlight s d id → c = d
  counted : ∀ c, Counts (ReadInFlight s c) (s.channel c).activeReads
  limited : ∀ c, (s.channel c).activeReads ≤ ubiMaxConcurrentReads

theorem decrement_of_pos {n : Nat} (pos : 0 < n) (bound : n ≤ ubiMaxConcurrentReads) :
    decrement n = n - 1 := by
  simp only [ubiMaxConcurrentReads] at bound
  rw [decrement, show n + (2 ^ 64 - 1) = (n - 1) + 2 ^ 64 by omega, Nat.add_mod_right,
    Nat.mod_eq_of_lt (by omega)]

namespace ReadsCounted

theorem pos (inv : ReadsCounted s) {id : ReqId} (due : ReadDue s id) :
    0 < (s.channel (s.bdevIo id).ubiCh).activeReads := (inv.counted _).pos (inv.routed id due)

theorem decrement (inv : ReadsCounted s) {id : ReqId} (due : ReadDue s id) :
    BdevUbi.decrement (s.channel (s.bdevIo id).ubiCh).activeReads + 1 =
      (s.channel (s.bdevIo id).ubiCh).activeReads := by
  have pos := inv.pos due
  rw [decrement_of_pos pos (inv.limited _)]
  omega

theorem effect (inv : ReadsCounted s) (effect : ReadEffect s t) (placed : RequestsPlaced t)
    (once : TakenOnce t) : ReadsCounted t := by
  cases effect with
  | stay counted flight due routed =>
      refine ⟨placed, once, fun id here => ?_, fun c d id => ?_, fun c => ?_, fun c => ?_⟩
      · rw [routed id (due id here), flight]
        exact inv.routed id (due id here)
      · rw [flight, flight]
        exact inv.single c d id
      · rw [counted]
        exact (inv.counted c).congr (flight c)
      · rw [counted]
        exact inv.limited c
  | dispatch c id listed limit counted flight due routed =>
      have idle : ∀ d, ¬ ReadInFlight s d id := fun d old => inv.once.unlisted d c id old.1 listed
      refine ⟨placed, once, fun j here => ?_, fun d e j => ?_, fun d => ?_, fun d => ?_⟩
      · rw [routed, flight]
        rcases due j here with old | rfl
        · have other : j ≠ id := fun same => idle _ (same ▸ inv.routed j old)
          rw [if_neg other]
          exact .inl (inv.routed j old)
        · exact .inr ⟨if_pos rfl, rfl⟩
      · rw [flight, flight]
        rintro (before | ⟨rfl, rfl⟩) (after | ⟨rfl, same⟩)
        · exact inv.single d e j before after
        · exact absurd (same ▸ before) (idle d)
        · exact absurd after (idle e)
        · rfl
      · rw [counted]
        split
        · next here =>
          subst here
          exact (inv.counted d).add (idle d) fun j => by simp [flight]
        · next other => exact (inv.counted d).congr fun j => by simp [flight, other]
      · rw [counted]
        have := inv.limited d
        split <;> grind
  | answer id old counted flight due routed =>
      have here := inv.routed id old
      have less := inv.decrement old
      refine ⟨placed, once, fun j later => ?_, fun d e j => ?_, fun d => ?_, fun d => ?_⟩
      · obtain ⟨before, other⟩ := due j later
        rw [routed, flight]
        exact ⟨inv.routed j before, other⟩
      · rw [flight, flight]
        exact fun before after => inv.single d e j before.1 after.1
      · rw [counted]
        split
        · next same =>
          subst same
          rw [decrement_of_pos (inv.pos old) (inv.limited _)]
          exact (inv.counted _).remove here (flight _)
        · next other =>
          refine (inv.counted d).congr fun j => (flight d j).trans (and_iff_left_of_imp ?_)
          rintro elsewhere rfl
          exact other (inv.single _ _ _ elsewhere here)
      · rw [counted]
        have := inv.limited d
        split <;> grind

end ReadsCounted

theorem readsCounted_act (inv : ReadsCounted s) (act : Act dev s l t) : ReadsCounted t :=
  inv.effect (act_readEffect inv.placed inv.once act) (requestsPlaced_act inv.placed act)
    (takenOnce_act inv.placed inv.once act)

theorem readsCounted_created {base : Bytes} (created : Created dev base s) : ReadsCounted s := by
  obtain ⟨table, _, rfl⟩ := created
  have idle : ∀ id, ¬ ReadDue (newState base table) id := by
    simp [ReadDue, newState, newChannel, State.ringEntries]
  have none : ∀ c id, ¬ ReadInFlight (newState base table) c id := by
    simp [ReadInFlight, newState]
  exact ⟨requestsPlaced_newState base table, ⟨by simp [newState], by simp [newState]⟩,
    fun id due => absurd due (idle id), fun c d id flight => absurd flight (none c id),
    fun c => counts_zero (none c), fun c => Nat.zero_le _⟩

/-- A READ that `ubi_io_poll` fails for the status of its stripe is not counted. -/
theorem processFirst_read_failed {c : ChId} {id : ReqId} {rest : List ReqId} {env : PollEnv}
    {r : Request} {b : Bool} (req : s.request id = some r) (read : r.type = .read)
    (image : r.offsetBlocks < dev.imageBlockCount)
    (gate : ubiGetStripeStatus s (toCInt (r.startStripe dev)) = some .failed ∨
      (ubiGetStripeStatus s (toCInt (r.startStripe dev)) = some .notFetched ∧
        dev.copyOnRead = true))
    (h : processFirst dev s c id rest env = .ok (b, t)) (d : ChId) :
    (t.channel d).activeReads = (s.channel d).activeReads := by
  have frame : ((removeFirst s c id rest).channel d).activeReads = (s.channel d).activeReads := by
    by_cases here : d = c
    · subst here
      simp [removeFirst, State.emit, State.setChannel]
    · simp [removeFirst, State.emit, State.setChannel, here]
  unfold processFirst at h
  simp only [req, read, image] at h
  rcases gate with failed | ⟨unfetched, copy⟩
  · rw [failed] at h
    split at h
    · cases h
      rfl
    · cases h
      exact frame
  · rw [unfetched] at h
    split at h
    · cases h
      rfl
    · simp only [copy] at h
      cases h
      exact frame

/-- In every state of every run, also inside a call of the poller, `active_reads` of a channel
is the number of READs the poller has dispatched on it and that are not completed. It stays
within its limit, and no completion takes it below zero. -/
theorem read_accounting_exact {base : Bytes} (created : Created dev base s₀) :
    (∀ s, Reach dev anyStep s₀ s → Passes dev s₀ s) ∧
    ∀ s, Passes dev s₀ s →
      (∀ c, Counts (ReadInFlight s c) (s.channel c).activeReads ∧
        (s.channel c).activeReads ≤ ubiMaxConcurrentReads) ∧
      (∀ id ok, ReadDue s id →
        ((ubiCompleteIo s id ok).channel (s.bdevIo id).ubiCh).activeReads + 1 =
          (s.channel (s.bdevIo id).ubiCh).activeReads) ∧
      (∀ l t, Act dev s l t → ∀ c,
        (t.channel c).activeReads = (s.channel c).activeReads ∨
        (t.channel c).activeReads = (s.channel c).activeReads + 1 ∨
        (t.channel c).activeReads + 1 = (s.channel c).activeReads) ∧
      (∀ c id rest env r b t, s.request id = some r → r.type = .read →
        r.offsetBlocks < dev.imageBlockCount →
        (ubiGetStripeStatus s (toCInt (r.startStripe dev)) = some .failed ∨
          (ubiGetStripeStatus s (toCInt (r.startStripe dev)) = some .notFetched ∧
            dev.copyOnRead = true)) →
        processFirst dev s c id rest env = .ok (b, t) →
        ∀ d, (t.channel d).activeReads = (s.channel d).activeReads) := by
  refine ⟨fun s run => reach_passes run, fun s run => ?_⟩
  have inv : ReadsCounted s := run.invariant readsCounted_act (readsCounted_created created)
  refine ⟨fun c => ⟨inv.counted c, inv.limited c⟩, fun id ok due => ?_, fun l t act c => ?_, ?_⟩
  · obtain ⟨r, req, read⟩ := inv.placed.read_of_due due
    rw [ubiCompleteIo_eq]
    simp only [State.released_of_read req read, if_true]
    exact inv.decrement due
  · cases act_readEffect inv.placed inv.once act with
    | stay counted => exact .inl (counted c)
    | dispatch d id listed limit counted =>
        rw [counted]
        split
        · exact .inr (.inl rfl)
        · exact .inl rfl
    | answer id old counted =>
        rw [counted]
        split
        · next here =>
          subst here
          exact .inr (.inr (inv.decrement old))
        · exact .inl rfl
  · intro c id rest env r b t req read image gate h
    exact processFirst_read_failed req read image gate h

/-- Two READs, one of them still waiting for its buffer when the other is answered. -/
def twoReads : List Event :=
  [.submit 0 0 ⟨.read, 2, 1, fun _ => 0⟩, .submit 0 1 ⟨.read, 0, 1, fun _ => 0⟩,
    .poll 0 { PollEnv.success with
      getBuf := fun id => if id = 0 then .inline true else .later },
    .readDone 0 false]

theorem read_accounting_exact_twoReads :
    ∃ s, Reach (threeBlockBdev false) anyStep (blankState (threeBlockBdev false)) s ∧
      .unqueued 0 0 ∈ s.log ∧ .completed 0 false ∈ s.log ∧ ReadDue s 1 ∧
      Counts (ReadInFlight s 0) 1 := by
  have ran : (Runs.exec (step (threeBlockBdev false)) (fun _ _ => true)
      (blankState (threeBlockBdev false)) twoReads).any (fun s =>
        decide (Obs.unqueued 0 0 ∈ s.log ∧ Obs.completed 0 false ∈ s.log ∧ s.waiting 1 = true ∧
          (s.channel 0).activeReads = 1)) = true := by decide +kernel
  obtain ⟨s, run, test⟩ := Runs.exists_reach_of_exec (fun _ _ _ _ => trivial) ran
  simp only [decide_eq_true_eq] at test
  obtain ⟨taken, done, wait, one⟩ := test
  obtain ⟨passes, exact⟩ := read_accounting_exact (created_blankState (threeBlockBdev false))
  have counted := ((exact s (passes s run)).1 0).1
  rw [one] at counted
  exact ⟨s, run, taken, done, .inl wait, counted⟩

end BdevUbi
