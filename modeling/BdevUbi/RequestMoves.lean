import BdevUbi.ActSteps
import BdevUbi.Library.Placement
import Mathlib.Data.List.Perm.Basic

/-!
The places a request can be at, and how acts move it. A request handed to
`ubi_submit_request` moves from place to place until it is completed. Every act
moves at most one request; two exits of the source move one to no place at all.
-/

namespace BdevUbi
open Placement

inductive Place where
  | listed (c : ChId)
  | buffer
  | ring (c : ChId)
  | baseRead (o : Nat)
  | baseWrite (o : Nat)
  | dataFlush (o : Nat)
  | metadataWrite (o : Nat)
  | metadataFlush (o : Nat)
  | completed
  deriving DecidableEq, Repr

/-- The kind of request that can be at a place. -/
def Place.suits : Place → IoType → Prop
  | .listed _, _ => True
  | .buffer, type => type = .read
  | .ring _, type => type = .read
  | .baseRead _, type => type = .read
  | .baseWrite _, type => type = .write
  | .dataFlush _, type => type = .flush
  | .metadataWrite _, type => type = .flush
  | .metadataFlush _, type => type = .flush
  | .completed, _ => True

def Obs.completes (id : ReqId) : Obs → Bool
  | .completed j _ => j == id
  | _ => false

/-- How often a request occurs at each place. -/
def State.occurrences (s : State) (id : ReqId) : Place → Nat
  | .listed c => (s.channel c).io.count id
  | .buffer => if s.waiting id then 1 else 0
  | .ring c => (s.ringEntries c).countP fun sqe => sqe.userData == .bdevIo id
  | .baseRead o => if (s.reads o).map BaseRead.req = some id then 1 else 0
  | .baseWrite o => if (s.writes o).map BaseWrite.cb = some (.io id) then 1 else 0
  | .dataFlush o => if (s.flushes o).map BaseFlush.cb = some (.data id) then 1 else 0
  | .metadataWrite o => if (s.writes o).map BaseWrite.cb = some (.metadata id) then 1 else 0
  | .metadataFlush o => if (s.flushes o).map BaseFlush.cb = some (.metadata id) then 1 else 0
  | .completed => s.log.countP (Obs.completes id)

/-- The outcomes after which nothing owns the request any more: its base write was
refused, or its data flush failed. -/
def Lost (id : ReqId) (log : List Obs) : Prop :=
  .userWrite id false ∈ log ∨ .dataFlushDone id false ∈ log

/-- What an act does to the requests. -/
inductive RequestEffect (s t : State) : Prop
  | stay (req : t.request = s.request) (kept : ∀ j, Lost j t.log ↔ Lost j s.log)
      (same : t.occurrences = s.occurrences)
  | submit (id : ReqId) (r : Request) (q : Place) (new : s.request id = none)
      (req : t.request = Function.update s.request id (some r))
      (kept : ∀ j, Lost j t.log ↔ Lost j s.log) (suits : q.suits r.type)
      (move : Shift s.occurrences t.occurrences id none (some q))
  | move (id : ReqId) (p q : Place) (req : t.request = s.request)
      (kept : ∀ j, Lost j t.log ↔ Lost j s.log) (source : s.occurrences id p ≠ 0)
      (suits : ∀ r, s.request id = some r → p.suits r.type → q.suits r.type)
      (move : Shift s.occurrences t.occurrences id (some p) (some q))
  | lose (id : ReqId) (p : Place) (req : t.request = s.request)
      (kept : ∀ j, Lost j t.log ↔ Lost j s.log ∨ j = id) (source : s.occurrences id p ≠ 0)
      (move : Shift s.occurrences t.occurrences id (some p) none)

/-- Operation numbers are used once. -/
structure OpsFresh (s : State) : Prop where
  reads : ∀ o, s.nextRead ≤ o → s.reads o = none
  writes : ∀ o, s.nextWrite ≤ o → s.writes o = none
  flushes : ∀ o, s.nextFlush ≤ o → s.flushes o = none

variable {dev : UbiBdev} {s t : State} {l : Label}

theorem opsFresh_act (fresh : OpsFresh s) (act : Act dev s l t) : OpsFresh t := by
  obtain ⟨reads, writes, flushes⟩ := fresh
  cases act <;> constructor <;> intro o bound <;> first
    | exact reads o bound
    | exact writes o bound
    | exact flushes o bound
    | (dsimp only at bound ⊢; grind)

theorem countP_eraseIdx {α : Type} {xs : List α} {i : Nat} {x : α} (p : α → Bool)
    (h : xs[i]? = some x) : (xs.eraseIdx i).countP p + (if p x then 1 else 0) = xs.countP p := by
  obtain ⟨bound, rfl⟩ := List.getElem?_eq_some_iff.mp h
  rw [← (List.getElem_cons_eraseIdx_perm bound).countP_eq p, List.countP_cons]

section Effect

attribute [local grind =] State.occurrences Obs.completes State.ringEntries Place.suits Lost
  stripeSqe imageReadSqe

theorem RequestEffect.moved (id : ReqId) (p q : Place) (apart : p ≠ q)
    (req : t.request = s.request) (kept : ∀ j, Lost j t.log ↔ Lost j s.log)
    (suits : ∀ r, s.request id = some r → p.suits r.type → q.suits r.type)
    (source : s.occurrences id p = t.occurrences id p + 1)
    (target : t.occurrences id q = s.occurrences id q + 1)
    (frame : ∀ j x, (j = id → x ≠ p ∧ x ≠ q) → t.occurrences j x = s.occurrences j x) :
    RequestEffect s t :=
  .move id p q req kept (by omega) suits (shift_move apart source target frame)

theorem RequestEffect.answered (id : ReqId) (p : Place) (apart : p ≠ .completed)
    (req : t.request = s.request) (kept : ∀ j, Lost j t.log ↔ Lost j s.log)
    (source : s.occurrences id p = t.occurrences id p + 1)
    (target : t.occurrences id .completed = s.occurrences id .completed + 1)
    (frame : ∀ j x, (j = id → x ≠ p ∧ x ≠ .completed) → t.occurrences j x = s.occurrences j x) :
    RequestEffect s t :=
  .moved id p .completed apart req kept (fun _ _ _ => trivial) source target frame

theorem RequestEffect.lost (id : ReqId) (p : Place)
    (req : t.request = s.request) (kept : ∀ j, Lost j t.log ↔ Lost j s.log ∨ j = id)
    (source : s.occurrences id p = t.occurrences id p + 1)
    (frame : ∀ j x, (j = id → x ≠ p) → t.occurrences j x = s.occurrences j x) :
    RequestEffect s t :=
  .lose id p req kept (by omega) (shift_leave source frame)

/-- Every act moves at most one request. -/
theorem act_requestEffect (fresh : OpsFresh s)
    (idle : ∀ c id, id ∈ (s.channel c).io → s.waiting id = false) (act : Act dev s l t) :
    RequestEffect s t := by
  have newRead := fresh.reads s.nextRead le_rfl
  have newWrite := fresh.writes s.nextWrite le_rfl
  have newFlush := fresh.flushes s.nextFlush le_rfl
  clear fresh
  cases act
  case imageReadDone c id sqe res rest first tag =>
    refine .answered id (.ring c) (by simp) rfl (by simp [Lost])
      (by grind -ring -linarith) (by grind -ring -linarith) fun j p other => ?_
    cases p <;> first | rfl | grind -ring -linarith
  case requestFailed c id rest r first req data image gate
  | bugTaken c id rest r first req data image gate fetch
  | ioAnswered c id rest r ok first req type skip =>
    refine .answered id (.listed c) (by simp) rfl (by simp [Lost])
      (by grind -ring -linarith) (by grind -ring -linarith) fun j p other => ?_
    cases p <;> first | rfl | grind -ring -linarith
  case readDispatched c id rest r first req type limit gate =>
    have := idle c id (by simp [first])
    refine .moved id (.listed c) .buffer (by simp) rfl (by simp [Lost])
      (by grind -ring -linarith) (by grind -ring -linarith) (by grind -ring -linarith)
      fun j p other => ?_
    cases p <;> first | rfl | grind -ring -linarith
  case bufferRefused id r wait req =>
    refine .answered id .buffer (by simp) rfl (by simp [Lost])
      (by grind -ring -linarith) (by grind -ring -linarith) fun j p other => ?_
    cases p <;> first | rfl | grind -ring -linarith
  case baseReadStarted id r wait req gate fits =>
    refine .moved id .buffer (.baseRead s.nextRead) (by simp) rfl (by simp [Lost])
      (by grind -ring -linarith) (by grind -ring -linarith) (by grind -ring -linarith)
      fun j p other => ?_
    cases p <;> first | rfl | grind -ring -linarith
  case imageReadPrepared id r status wait req gate unfetched image room =>
    refine .moved id .buffer (.ring (s.bdevIo id).ubiCh) (by simp) rfl (by simp [Lost])
      (by grind -ring -linarith) (by grind -ring -linarith) (by grind -ring -linarith)
      fun j p other => ?_
    cases p <;> first | rfl | grind -ring -linarith
  case writeDispatched c id rest r first req type gate fits =>
    refine .moved id (.listed c) (.baseWrite s.nextWrite) (by simp) rfl (by simp [Lost])
      (by grind -ring -linarith) (by grind -ring -linarith) (by grind -ring -linarith)
      fun j p other => ?_
    cases p <;> first | rfl | grind -ring -linarith
  case writeRefused c id rest r first req type gate =>
    refine .lost id (.listed c) rfl (by grind -ring -linarith) (by grind -ring -linarith)
      fun j p other => ?_
    cases p <;> first | rfl | grind -ring -linarith
  case flushDispatched c id rest r first req type sync =>
    refine .moved id (.listed c) (.dataFlush s.nextFlush) (by simp) rfl (by simp [Lost])
      (by grind -ring -linarith) (by grind -ring -linarith) (by grind -ring -linarith)
      fun j p other => ?_
    cases p <;> first | rfl | grind -ring -linarith
  case uringFetch c i k sqe res entry tag bound
  | uringRead c i id sqe res entry tag bound =>
    refine .stay rfl (by simp [Lost]) ?_
    funext j p
    have := countP_eraseIdx (fun sqe => sqe.userData == .bdevIo j) entry
    cases p <;> first | rfl | grind -ring -linarith
  case readDone o op success read all =>
    refine .answered op.req (.baseRead o) (by simp) rfl (by simp [Lost])
      (by grind -ring -linarith) (by grind -ring -linarith) fun j p other => ?_
    cases p <;> first | rfl | grind -ring -linarith
  case submitSpanning c id r new type range fetch span =>
    refine .submit id r .completed new rfl (by simp [Lost]) trivial
      (shift_enter (by grind -ring -linarith) fun j p other => ?_)
    cases p <;> first | rfl | grind -ring -linarith
  case submitFetching c id r x new type range fetch within image index bound gate
  | submitQueued c id r new type range within gate =>
    refine .submit id r (.listed c) new rfl (by simp [Lost]) trivial
      (shift_enter (by grind -ring -linarith) fun j p other => ?_)
    cases p <;> first | rfl | grind -ring -linarith
  case ioWriteDone o op id success write cb all =>
    refine .answered id (.baseWrite o) (by simp) rfl (by simp [Lost])
      (by grind -ring -linarith) (by grind -ring -linarith) fun j p other => ?_
    cases p <;> first | rfl | grind -ring -linarith
  case metadataWriteFailed o op id success write cb all =>
    refine .answered id (.metadataWrite o) (by simp) rfl (by simp [Lost])
      (by grind -ring -linarith) (by grind -ring -linarith) fun j p other => ?_
    cases p <;> first | rfl | grind -ring -linarith
  case metadataWriteDone o op id write cb all =>
    refine .moved id (.metadataWrite o) (.metadataFlush s.nextFlush) (by simp) rfl (by simp [Lost])
      (by grind -ring -linarith) (by grind -ring -linarith) (by grind -ring -linarith)
      fun j p other => ?_
    cases p <;> first | rfl | grind -ring -linarith
  case dataFlushFailed o op id flush cb =>
    refine .lost id (.dataFlush o) rfl (by grind -ring -linarith) (by grind -ring -linarith)
      fun j p other => ?_
    cases p <;> first | rfl | grind -ring -linarith
  case dataFlushOnly o op id flush cb clean
  | metadataWriteRefused o op id flush cb dirty =>
    refine .answered id (.dataFlush o) (by simp) rfl (by simp [Lost])
      (by grind -ring -linarith) (by grind -ring -linarith) fun j p other => ?_
    cases p <;> first | rfl | grind -ring -linarith
  case metadataWriteStarted o op id flush cb dirty =>
    refine .moved id (.dataFlush o) (.metadataWrite s.nextWrite) (by simp) rfl (by simp [Lost])
      (by grind -ring -linarith) (by grind -ring -linarith) (by grind -ring -linarith)
      fun j p other => ?_
    cases p <;> first | rfl | grind -ring -linarith
  case metadataFlushFailed o op id flush cb
  | metadataFlushDone o op id flush cb =>
    refine .answered id (.metadataFlush o) (by simp) rfl (by simp [Lost])
      (by grind -ring -linarith) (by grind -ring -linarith) fun j p other => ?_
    cases p <;> first | rfl | grind -ring -linarith
  all_goals
    refine .stay rfl (by simp [Lost]) ?_
    funext j p
    cases p <;> first | rfl | grind -ring -linarith

end Effect

end BdevUbi
