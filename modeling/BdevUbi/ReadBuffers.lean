import BdevUbi.ImageReads

/-!
How the buffer of a READ is filled. A completion of the image file's ring fills the first
`res` bytes, a base read fills its blocks one by one. The bytes a READ returns are followed
along the acts of a run, so that each can be traced to the move that wrote it.
-/

namespace BdevUbi
open Runs Placement

variable {dev : UbiBdev} {s t : State} {l : Label} {past : List (State × State)}

/-- The i-th byte of the buffer of READ `r` was filled with `byte` by one of the moves in
`past`: with the image's byte, or with the byte the base bdev held at that move. -/
inductive FilledByte (dev : UbiBdev) (past : List (State × State)) (id : ReqId) (r : Request)
    (i : Nat) (byte : UInt8) : Prop
  | image {u v : State} {c : ChId} {k : Nat} {sqe : Sqe} {res : Int} (moved : (u, v) ∈ past)
      (post : step dev u (.uring c k res) = .ok v)
      (entry : (u.channel c).submitted[k]? = some sqe) (tag : sqe.userData = .bdevIo id)
      (below : i < res.toNat) (inside : r.offsetBlocks * dev.blocklen + i < dev.imageSize)
      (same : byte = dev.image (r.offsetBlocks * dev.blocklen + i))
  | base {u v : State} {o : Nat} {op : BaseRead} (moved : (u, v) ∈ past)
      (transfer : step dev u
        (.transfer o [r.offsetBlocks + dev.dataOffsetBlocks + i / dev.blocklen]) = .ok v)
      (read : u.reads o = some op) (req : op.req = id)
      (same : byte = u.content dev (ubiMetadataSize + (r.offsetBlocks * dev.blocklen + i)))

theorem FilledByte.grow {id : ReqId} {r : Request} {i : Nat} {byte : UInt8} {x : State × State}
    (h : FilledByte dev past id r i byte) : FilledByte dev (x :: past) id r i byte := by
  cases h with
  | image moved post entry tag below inside same =>
      exact .image (List.mem_cons_of_mem _ moved) post entry tag below inside same
  | base moved transfer read req same =>
      exact .base (List.mem_cons_of_mem _ moved) transfer read req same

theorem cqe_posted (act : Act dev s l t) {c : ChId} {cqe : Cqe} {id : ReqId}
    (tag : cqe.sqe.userData = .bdevIo id) (here : cqe ∈ (t.channel c).cqes) :
    cqe ∈ (s.channel c).cqes ∨ ∃ k, step dev s (.uring c k cqe.res) = .ok t ∧
      (s.channel c).submitted[k]? = some cqe.sqe ∧ cqe.res ≤ dev.available cqe.sqe := by
  cases act with
  | @uringRead d k j sqe res entry tag' bound =>
      by_cases same : c = d
      · subst same
        simp only [Function.update_self, List.mem_append, List.mem_singleton] at here
        rcases here with old | rfl
        · exact .inl old
        · refine .inr ⟨k, ?_, entry, bound⟩
          simp [step, uringComplete, entry, bound, postCqe, fillBuffer, tag', State.setChannel]
      · exact .inl (by simpa [same] using here)
  | @uringFetch d k j sqe res entry tag' bound =>
      by_cases same : c = d
      · subst same
        simp only [Function.update_self, List.mem_append, List.mem_singleton] at here
        rcases here with old | rfl
        · exact .inl old
        · simp [tag'] at tag
      · exact .inl (by simpa [same] using here)
  | _ => exact .inl (by grind -linarith)

theorem done_transferred (act : Act dev s l t) {o b : Nat} {op' : BaseRead}
    (read : t.reads o = some op') (done : op'.done b = true) :
    ∃ op, s.reads o = some op ∧ op.req = op'.req ∧ op.startBlock = op'.startBlock ∧
      (op.done b = true ∨ step dev s (.transfer o [b]) = .ok t) := by
  have old (h : s.reads o = some op') : ∃ op, s.reads o = some op ∧ op.req = op'.req ∧
      op.startBlock = op'.startBlock ∧ (op.done b = true ∨ step dev s (.transfer o [b]) = .ok t) :=
    ⟨op', h, rfl, rfl, .inl done⟩
  cases act with
  | @baseReadStarted id r wait known gate fits =>
      by_cases same : o = s.nextRead
      · subst same
        simp only [Function.update_self, Option.some.injEq] at read
        subst read
        simp at done
      · exact old (by simpa [same] using read)
  | @transferred o' op b' read' range new =>
      by_cases same : o = o'
      · subst same
        simp only [Function.update_self, Option.some.injEq] at read
        subst read
        refine ⟨op, read', rfl, rfl, ?_⟩
        by_cases here : b = b'
        · subst here
          right
          simp [step, eachBlock, transferBlock, read', inRange_iff.mpr range, new]
        · exact .inl (by simpa [here] using done)
      · exact old (by simpa [same] using read)
  | @readDone o' op success read' all =>
      by_cases same : o = o'
      · simp [same] at read
      · exact old (by simpa [same] using read)
  | _ => exact old read

theorem cqe_handled (act : Act dev s l t) {c : ChId} {cqe : Cqe} {id : ReqId}
    (tag : cqe.sqe.userData = .bdevIo id) (here : cqe ∈ (s.channel c).cqes) :
    cqe ∈ (t.channel c).cqes ∨ .readCqe id cqe.sqe cqe.res ∈ t.log := by
  cases act <;> first
    | exact .inl here
    | grind -linarith

theorem readCqe_act (act : Act dev s l t) {id : ReqId} {sqe : Sqe} {res : Int}
    (logged : .readCqe id sqe res ∈ t.log) :
    .readCqe id sqe res ∈ s.log ∨ ∃ c rest, (s.channel c).cqes = ⟨sqe, res⟩ :: rest ∧
      sqe.userData = .bdevIo id ∧
      t.log = .completed id (decide (0 ≤ res)) :: .readCqe id sqe res :: s.log := by
  cases act <;> grind -linarith

theorem read_ended (act : Act dev s l t) {o : Nat} {op : BaseRead} (fresh : OpsFresh s)
    (read : s.reads o = some op) :
    (∃ op', t.reads o = some op' ∧ op'.req = op.req) ∨
      ∃ ok, t.log = .completed op.req ok :: s.log := by
  cases act with
  | @baseReadStarted id r wait known gate fits =>
      have other : o ≠ s.nextRead := by
        rintro rfl
        simp [fresh.reads _ le_rfl] at read
      exact .inl ⟨op, by simpa [other] using read, rfl⟩
  | @transferred o' op' b read' range new =>
      by_cases same : o = o'
      · subst same
        obtain rfl : op = op' := Option.some.inj (read.symm.trans read')
        exact .inl ⟨{ op with done := Function.update op.done b true }, by simp, rfl⟩
      · exact .inl ⟨op, by simpa [same] using read, rfl⟩
  | @readDone o' op' success read' all =>
      by_cases same : o = o'
      · subst same
        obtain rfl : op = op' := Option.some.inj (read.symm.trans read')
        exact .inr ⟨success, rfl⟩
      · exact .inl ⟨op, by simpa [same] using read, rfl⟩
  | _ => exact .inl ⟨op, read, rfl⟩

/-- How far the buffers of the READs are filled. -/
structure Filling (dev : UbiBdev) (past : List (State × State)) (s : State) : Prop where
  requests : RequestsPlaced s
  base : ∀ o op r, s.reads o = some op → s.request op.req = some r →
    op.startBlock = r.offsetBlocks + dev.dataOffsetBlocks ∧ op.numBlocks = r.numBlocks ∧
    ∀ i, op.done (r.offsetBlocks + dev.dataOffsetBlocks + i / dev.blocklen) = true →
      FilledByte dev past op.req r i (s.buffer op.req i)
  ring : ∀ c sqe id r, sqe ∈ s.ringEntries c → sqe.userData = .bdevIo id →
    s.request id = some r → sqe = imageReadSqe dev id r
  cqe : ∀ c cqe id r, cqe ∈ (s.channel c).cqes → cqe.sqe.userData = .bdevIo id →
    s.request id = some r → ∀ i, i < cqe.res.toNat → FilledByte dev past id r i (s.buffer id i)
  done : ∀ id r, .completed id true ∈ s.log → s.request id = some r → r.type = .read →
    ∀ i, i < r.numBlocks * dev.blocklen →
      (∀ sqe res, .readCqe id sqe res ∈ s.log → (i : Int) < res) →
      FilledByte dev past id r i (s.buffer id i)

theorem block_of_byte (r : Request) (i : Nat) :
    ((r.offsetBlocks + dev.dataOffsetBlocks) * dev.blocklen + i) / dev.blocklen =
      r.offsetBlocks + dev.dataOffsetBlocks + i / dev.blocklen := by
  rw [Nat.mul_comm, Nat.mul_add_div dev.blocklen_pos]

namespace Filling

variable (inv : Filling dev past s)

include inv

theorem base_act (act : Act dev s l t) {o : Nat} {op' : BaseRead} {r : Request}
    (read' : t.reads o = some op') (known' : t.request op'.req = some r) :
    op'.startBlock = r.offsetBlocks + dev.dataOffsetBlocks ∧ op'.numBlocks = r.numBlocks ∧
    ∀ i, op'.done (r.offsetBlocks + dev.dataOffsetBlocks + i / dev.blocklen) = true →
      FilledByte dev ((s, t) :: past) op'.req r i (t.buffer op'.req i) := by
  cases read_origin act read' with
  | new r' wait known gate start blocks unread =>
      obtain rfl : r' = r := Option.some.inj ((act_request act known).symm.trans known')
      exact ⟨start, blocks, by simp [unread]⟩
  | old op read req start blocks done =>
      obtain ⟨r', known, _⟩ := inv.requests.read_owner read
      rw [req] at known'
      obtain rfl : r' = r := Option.some.inj ((act_request act known).symm.trans known')
      obtain ⟨start', blocks', before⟩ := inv.base o op r' read known
      refine ⟨start.trans start', blocks.trans blocks', fun i now => ?_⟩
      have here : s.occurrences op.req (.baseRead o) ≠ 0 := by simp [State.occurrences, read]
      rw [req]
      by_cases old : op.done (r'.offsetBlocks + dev.dataOffsetBlocks + i / dev.blocklen) = true
      · rw [buffer_kept act (by simp [known]) (inv.requests.not_submitted here (by simp))]
        · exact (before i old).grow
        · intro o' op'' read'' owner
          by_cases same : o = o'
          · subst same
            obtain rfl : op = op'' := Option.some.inj (read.symm.trans read'')
            rw [start', block_of_byte]
            exact old
          · exact absurd owner (inv.requests.not_reading here (by simpa using same) read'')
      · obtain ⟨op'', read'', _, _, moved⟩ := done_transferred act read' now
        obtain rfl : op = op'' := Option.some.inj (read.symm.trans read'')
        have filled := (done _ now).resolve_left old i (by rw [start', block_of_byte])
        refine .base List.mem_cons_self (moved.resolve_left old) read rfl ?_
        rw [filled, start', Nat.add_mul, dev.dataOffset_bytes]
        congr 1
        omega

theorem ring_act (act : Act dev s l t) {c : ChId} {sqe : Sqe} {id : ReqId} {r : Request}
    (entry : sqe ∈ t.ringEntries c) (tag : sqe.userData = .bdevIo id)
    (known' : t.request id = some r) : sqe = imageReadSqe dev id r := by
  rcases entry_origin act entry tag with old | ⟨r', _, _, known, _, _, sqe_eq⟩
  · obtain ⟨r', known, _⟩ := inv.requests.ring_owner old tag
    obtain rfl : r' = r := Option.some.inj ((act_request act known).symm.trans known')
    exact inv.ring c sqe id r' old tag known
  · obtain rfl : r' = r := Option.some.inj ((act_request act known).symm.trans known')
    exact sqe_eq

theorem cqe_act (act : Act dev s l t) {c : ChId} {cqe : Cqe} {id : ReqId} {r : Request}
    (posted : cqe ∈ (t.channel c).cqes) (tag : cqe.sqe.userData = .bdevIo id)
    (known' : t.request id = some r) (i : Nat) (below : i < cqe.res.toNat) :
    FilledByte dev ((s, t) :: past) id r i (t.buffer id i) := by
  have known {e : Sqe} (entry : e ∈ s.ringEntries c) (tag : e.userData = .bdevIo id) :
      s.request id = some r := by
    obtain ⟨r', known, _⟩ := inv.requests.ring_owner entry tag
    exact known.trans ((act_request act known).symm.trans known')
  rcases cqe_posted act tag posted with old | ⟨k, post, entry, bound⟩
  · rw [inv.requests.buffer_kept_of_cqe act old tag]
    exact (inv.cqe c cqe id r old tag (known (State.mem_ringEntries_of_cqe old) tag) i below).grow
  · have issued : cqe.sqe ∈ s.ringEntries c := by
      simp [State.ringEntries, List.mem_of_getElem? entry]
    have sqe_eq := inv.ring c cqe.sqe id r issued tag (known issued tag)
    have byte : t.buffer id i = dev.image (r.offsetBlocks * dev.blocklen + i) := by
      simp only [step, uringComplete, entry, if_pos bound] at post
      cases post
      simp [postCqe, fillBuffer, State.setChannel, fillFromImage, below, sqe_eq, imageReadSqe]
    refine .image List.mem_cons_self post entry tag below ?_ byte
    simp only [UbiBdev.available, sqe_eq, imageReadSqe] at bound
    omega

theorem done_act (act : Act dev s l t) {id : ReqId} {r : Request}
    (after : .completed id true ∈ t.log) (known' : t.request id = some r) (type : r.type = .read)
    (i : Nat) (inside : i < r.numBlocks * dev.blocklen)
    (whole : ∀ sqe res, .readCqe id sqe res ∈ t.log → (i : Int) < res) :
    FilledByte dev ((s, t) :: past) id r i (t.buffer id i) := by
  have known := known_of_completed inv.requests act after known'
  by_cases before : .completed id true ∈ s.log
  · rw [inv.requests.buffer_kept_of_completed act before]
    exact (inv.done id r before known type i inside fun sqe res logged =>
      whole sqe res ((act_log act).subset logged)).grow
  · obtain ⟨buffer, _, ⟨o, op, read, rfl, all⟩ | ⟨c, sqe, res, posted, tag, _, logged⟩⟩ :=
      read_completed_act inv.requests act known type after before
    · obtain ⟨start, blocks, filled⟩ := inv.base o op r read known
      have bound : i / dev.blocklen < r.numBlocks := Nat.div_lt_of_lt_mul (by rwa [Nat.mul_comm])
      rw [start, blocks] at all
      rw [buffer]
      exact (filled i (all _ (Nat.le_add_right _ _) (Nat.add_lt_add_left bound _))).grow
    · have below := whole sqe res logged
      rw [buffer]
      exact (inv.cqe c ⟨sqe, res⟩ id r posted tag known i (by dsimp only; omega)).grow

end Filling

theorem filling_act (inv : Filling dev past s) (act : Act dev s l t) :
    Filling dev ((s, t) :: past) t where
  requests := requestsPlaced_act inv.requests act
  base _ _ _ := inv.base_act act
  ring _ _ _ _ := inv.ring_act act
  cqe _ _ _ _ := inv.cqe_act act
  done _ _ := inv.done_act act

theorem filling_created {base : Bytes} (created : Created dev base s) : Filling dev [] s := by
  obtain ⟨table, _, rfl⟩ := created
  refine ⟨requestsPlaced_newState base table, ?_, ?_, ?_, ?_⟩ <;>
    simp [newState, newChannel, State.ringEntries]

/-- What has become of the moves that fill a buffer. -/
structure Traced (dev : UbiBdev) (past : List (State × State)) (s : State) : Prop where
  requests : RequestsPlaced s
  posted : ∀ u v c k sqe res id, (u, v) ∈ past → step dev u (.uring c k res) = .ok v →
    (u.channel c).submitted[k]? = some sqe → sqe.userData = .bdevIo id →
    (∃ d, ⟨sqe, res⟩ ∈ (s.channel d).cqes) ∨ .readCqe id sqe res ∈ s.log
  handled : ∀ id sqe res, .readCqe id sqe res ∈ s.log →
    .completed id (decide (0 ≤ res)) ∈ s.log ∧
    ∀ sqe' res', .readCqe id sqe' res' ∈ s.log → res' = res
  moved : ∀ u v o b op, (u, v) ∈ past → step dev u (.transfer o [b]) = .ok v →
    u.reads o = some op → (∃ o' op', s.reads o' = some op' ∧ op'.req = op.req) ∨
      ((∃ ok, .completed op.req ok ∈ s.log) ∧ ∀ sqe res, .readCqe op.req sqe res ∉ s.log)

namespace Traced

variable (inv : Traced dev past s)

include inv

theorem uncompleted_of_read {o : Nat} {op : BaseRead} (read : s.reads o = some op) (ok : Bool) :
    .completed op.req ok ∉ s.log :=
  inv.requests.uncompleted_of_occurs (p := .baseRead o) (by simp [State.occurrences, read])
    (by simp) ok

theorem uncompleted_of_cqe {c : ChId} {cqe : Cqe} {id : ReqId} (here : cqe ∈ (s.channel c).cqes)
    (tag : cqe.sqe.userData = .bdevIo id) (ok : Bool) : .completed id ok ∉ s.log := by
  exact inv.requests.uncompleted_of_occurs (p := .ring c)
    (List.countP_pos_iff.mpr ⟨cqe.sqe, State.mem_ringEntries_of_cqe here, by simp [tag]⟩).ne'
    (by simp) ok

theorem posted_act (act : Act dev s l t) {u v : State} {c : ChId} {k : Nat} {sqe : Sqe} {res : Int}
    {id : ReqId} (move : (u, v) ∈ (s, t) :: past) (post : step dev u (.uring c k res) = .ok v)
    (entry : (u.channel c).submitted[k]? = some sqe) (tag : sqe.userData = .bdevIo id) :
    (∃ d, ⟨sqe, res⟩ ∈ (t.channel d).cqes) ∨ .readCqe id sqe res ∈ t.log := by
  rcases List.mem_cons.mp move with now | before
  · cases now
    simp only [step, uringComplete, entry] at post
    split at post
    · cases post
      exact .inl ⟨c, by simp [postCqe, State.setChannel]⟩
    · cases post
  · rcases inv.posted u v c k sqe res id before post entry tag with ⟨d, here⟩ | logged
    · exact (cqe_handled act tag here).imp_left fun stays => ⟨d, stays⟩
    · exact .inr ((act_log act).subset logged)

theorem handled_act (act : Act dev s l t) {id : ReqId} {sqe : Sqe} {res : Int}
    (logged : .readCqe id sqe res ∈ t.log) :
    .completed id (decide (0 ≤ res)) ∈ t.log ∧
      ∀ sqe' res', .readCqe id sqe' res' ∈ t.log → res' = res := by
  -- a second completion of the READ would find it completed and still in a ring
  have fresh {c : ChId} {cqe : Cqe} {rest : List Cqe} {sqe' : Sqe} {res' : Int}
      (first : (s.channel c).cqes = cqe :: rest) (tag : cqe.sqe.userData = .bdevIo id) :
      .readCqe id sqe' res' ∉ s.log := fun logged =>
    inv.uncompleted_of_cqe (first ▸ List.mem_cons_self) tag _ (inv.handled id sqe' res' logged).1
  rcases readCqe_act act logged with old | ⟨c, rest, first, tag, log⟩
  · obtain ⟨completed, once⟩ := inv.handled id sqe res old
    refine ⟨(act_log act).subset completed, fun sqe' res' logged' => ?_⟩
    rcases readCqe_act act logged' with old' | ⟨c, rest, first, tag, _⟩
    · exact once sqe' res' old'
    · exact absurd old (fresh first tag)
  · refine ⟨by simp [log], fun sqe' res' logged' => ?_⟩
    rw [log, List.mem_cons, List.mem_cons] at logged'
    rcases logged' with other | same | old
    · cases other
    · cases same
      rfl
    · exact absurd old (fresh first tag)

theorem moved_act (act : Act dev s l t) {u v : State} {o b : Nat} {op : BaseRead}
    (move : (u, v) ∈ (s, t) :: past) (transfer : step dev u (.transfer o [b]) = .ok v)
    (read : u.reads o = some op) : (∃ o' op', t.reads o' = some op' ∧ op'.req = op.req) ∨
      ((∃ ok, .completed op.req ok ∈ t.log) ∧ ∀ sqe res, .readCqe op.req sqe res ∉ t.log) := by
  have ended {o' : Nat} {op' : BaseRead} (read' : s.reads o' = some op') (req : op'.req = op.req) :
      (∃ o' op', t.reads o' = some op' ∧ op'.req = op.req) ∨
        ((∃ ok, .completed op.req ok ∈ t.log) ∧ ∀ sqe res, .readCqe op.req sqe res ∉ t.log) := by
    rcases read_ended act inv.requests.fresh read' with ⟨op'', read'', req'⟩ | ⟨ok, log⟩
    · exact .inl ⟨o', op'', read'', req'.trans req⟩
    · refine .inr ⟨⟨ok, by simp [log, req]⟩, fun sqe res logged => ?_⟩
      have old : .readCqe op'.req sqe res ∈ s.log := by simpa [log, req] using logged
      exact inv.uncompleted_of_read read' _ (inv.handled _ sqe res old).1
  rcases List.mem_cons.mp move with now | before
  · cases now
    exact ended read rfl
  · rcases inv.moved u v o b op before transfer read with ⟨o', op', read', req⟩ |
      ⟨⟨ok, completed⟩, unhandled⟩
    · exact ended read' req
    · refine .inr ⟨⟨ok, (act_log act).subset completed⟩, fun sqe res logged => ?_⟩
      rcases readCqe_act act logged with old | ⟨c, rest, first, tag, _⟩
      · exact unhandled sqe res old
      · exact inv.uncompleted_of_cqe (first ▸ List.mem_cons_self) tag ok completed

theorem unfilled {id : ReqId} {r : Request} {sqe : Sqe} {res : Int}
    (logged : .readCqe id sqe res ∈ s.log) {i : Nat} (past_end : res ≤ i) (byte : UInt8) :
    ¬ FilledByte dev past id r i byte := by
  obtain ⟨completed, once⟩ := inv.handled id sqe res logged
  rintro (⟨moved, post, entry, tag, below, _, _⟩ | ⟨moved, transfer, read, rfl, _⟩)
  · rcases inv.posted _ _ _ _ _ _ id moved post entry tag with ⟨d, here⟩ | logged'
    · exact inv.uncompleted_of_cqe here tag _ completed
    · have := once _ _ logged'
      omega
  · rcases inv.moved _ _ _ _ _ moved transfer read with ⟨o', op', read', req⟩ | ⟨_, unhandled⟩
    · exact inv.uncompleted_of_read read' _ (req ▸ completed)
    · exact unhandled _ _ logged

end Traced

theorem traced_act (inv : Traced dev past s) (act : Act dev s l t) :
    Traced dev ((s, t) :: past) t where
  requests := requestsPlaced_act inv.requests act
  posted _ _ _ _ _ _ _ := inv.posted_act act
  handled _ _ _ := inv.handled_act act
  moved _ _ _ _ _ := inv.moved_act act

theorem traced_created {base : Bytes} (created : Created dev base s) : Traced dev [] s := by
  obtain ⟨table, _, rfl⟩ := created
  exact ⟨requestsPlaced_newState base table, by simp, by simp [newState], by simp⟩

/-- Every run is a path of acts. -/
theorem exists_acting_path {s₀ : State} {allowed : State → Event → Prop}
    (run : Reach dev allowed s₀ s) : ∃ past, Path (Acting dev) s₀ past s :=
  exists_path (reach_passes run)

/-- A READ that completes with success has had its whole buffer filled, if and only if its
image read, when it had one, returned all the bytes it asked for. -/
theorem read_fills_buffer_iff {base : Bytes} {s₀ : State} (created : Created dev base s₀)
    (run : Reach dev anyStep s₀ s) {id : ReqId} {r : Request} (known : s.request id = some r)
    (type : r.type = .read) (done : .completed id true ∈ s.log) :
    (∃ past, Path (Acting dev) s₀ past s) ∧ ∀ past, Path (Acting dev) s₀ past s →
      ((∀ i, i < r.numBlocks * dev.blocklen → FilledByte dev past id r i (s.buffer id i)) ↔
        ∀ sqe res, .readCqe id sqe res ∈ s.log →
          ((r.numBlocks * dev.blocklen : Nat) : Int) ≤ res) := by
  refine ⟨exists_acting_path run, fun past path => ?_⟩
  have filling : Filling dev past s := path.invariant (P := Filling dev) (filling_created created)
    fun inv ⟨_, act⟩ => filling_act inv act
  have traced : Traced dev past s := path.invariant (P := Traced dev) (traced_created created)
    fun inv ⟨_, act⟩ => traced_act inv act
  constructor
  · intro filled sqe res logged
    by_contra short
    have good : 0 ≤ res := by
      by_contra bad
      have verdict := filling.requests.verdict_unique done (traced.handled id sqe res logged).1
      simp [bad] at verdict
    exact traced.unfilled logged (i := res.toNat) (by omega) _ (filled res.toNat (by omega))
  · intro whole i inside
    exact filling.done id r done known type i inside fun sqe res logged => by
      have := whole sqe res logged
      omega

/-- One READ from offset 0 of a stripe that is not fetched; its image read returns `res`. -/
def readFromImage (numBlocks : Nat) (res : Int) : List Event :=
  [.submit 0 0 ⟨.read, 0, numBlocks, fun _ => 9⟩, .poll 0 .success, .uring 0 0 res,
    .poll 0 .success]

def Obs.isShorter (n : Int) : Obs → Bool
  | .readCqe _ _ res => decide (res < n)
  | _ => false

theorem read_fills_buffer_whole :
    ∃ s past, Path (Acting (threeBlockBdev false)) (blankState (threeBlockBdev false)) past s ∧
      .completed 0 true ∈ s.log ∧ ∃ r, s.request 0 = some r ∧ r.numBlocks = 1 ∧
        ∀ i, i < 65536 → FilledByte (threeBlockBdev false) past 0 r i (s.buffer 0 i) := by
  have ran : (Runs.exec (step (threeBlockBdev false)) (fun _ _ => true)
      (blankState (threeBlockBdev false)) (readFromImage 1 65536)).any (fun s =>
        decide (.completed 0 true ∈ s.log) && !s.log.any (Obs.isShorter 65536) &&
        (s.request 0).any fun r => decide (r.type = .read ∧ r.numBlocks = 1)) = true := by
    decide +kernel
  obtain ⟨s, run, test⟩ := Runs.exists_reach_of_exec (fun _ _ _ _ => trivial) ran
  simp only [Bool.and_eq_true, decide_eq_true_eq, Option.any_eq_true, Bool.not_eq_true',
    List.any_eq_false] at test
  obtain ⟨⟨done, whole⟩, r, known, type, one⟩ := test
  obtain ⟨⟨past, path⟩, iff⟩ := read_fills_buffer_iff (created_blankState _) run known type done
  refine ⟨s, past, path, done, r, known, one, fun i inside => (iff past path).mpr ?_ i ?_⟩
  · intro sqe res logged
    have := whole _ logged
    simp only [Obs.isShorter, decide_eq_true_eq] at this
    rw [one]
    exact Int.not_lt.mp this
  · rw [one]
    exact inside

/-- The stripe of two blocks begins in an image of one block: the READ completes with
success, and its second block is what the buffer held before. -/
theorem straddling_read_unfilled :
    ∃ s r, Reach halfStripeBdev anyStep (blankState halfStripeBdev) s ∧ s.request 0 = some r ∧
      r.type = .read ∧ r.numBlocks = 2 ∧ .completed 0 true ∈ s.log ∧ r.data 32768 = 9 ∧
      s.buffer 0 32768 = 9 ∧
      ∀ past, Path (Acting halfStripeBdev) (blankState halfStripeBdev) past s →
        ∀ byte, ¬ FilledByte halfStripeBdev past 0 r 32768 byte := by
  have ran : (Runs.exec (step halfStripeBdev) (fun _ _ => true) (blankState halfStripeBdev)
      (readFromImage 2 32768)).any (fun s =>
        decide (.completed 0 true ∈ s.log ∧ .readCqe 0 ⟨.bdevIo 0, 0, 65536⟩ 32768 ∈ s.log ∧
          s.buffer 0 32768 = 9) &&
        (s.request 0).any fun r => decide (r.type = .read ∧ r.numBlocks = 2 ∧ r.data 32768 = 9)) =
      true := by decide +kernel
  obtain ⟨s, run, test⟩ := Runs.exists_reach_of_exec (fun _ _ _ _ => trivial) ran
  simp only [Bool.and_eq_true, decide_eq_true_eq, Option.any_eq_true] at test
  obtain ⟨⟨done, logged, kept⟩, r, known, type, two, nine⟩ := test
  refine ⟨s, r, run, known, type, two, done, nine, kept, fun past path byte => ?_⟩
  have traced : Traced halfStripeBdev past s := path.invariant (P := Traced halfStripeBdev)
    (traced_created (created_blankState _)) fun inv ⟨_, act⟩ => traced_act inv act
  exact traced.unfilled logged (by decide) byte

end BdevUbi
