import BdevUbi.FetchData

/-!
What a slot carries from one stripe to the next. The buffer of a slot is never cleared, an
image read fills as many bytes as it returns, and the base write always takes a whole stripe.
-/

namespace BdevUbi

variable {dev : UbiBdev} {s₀ s t : State} {l : Label} {c : ChId} {k x : Nat} {left : Bytes}

/-- A stripe's bytes after an image read of `n` bytes into a buffer that held `left`. -/
def fetchedBytes (dev : UbiBdev) (x n : Nat) (left : Bytes) : Bytes :=
  fun i => if i < n then dev.image (dev.stripeBytes * x + i) else left i

/-- On the way to a state, slot `k` was last given to stripe `x` when its buffer held `left`. -/
inductive GivenTo (dev : UbiBdev) (s₀ : State) (c : ChId) (k x : Nat) (left : Bytes) : State → Prop
  | given {u v : State} {l : Label} (before : Passes dev s₀ u) (act : Act dev u l v)
      (free : (u.slot c k).active = false) (buf : (u.slot c k).buf = left)
      (taken : (v.slot c k).active = true) (stripe : (v.slot c k).stripeIdx = x) :
      GivenTo dev s₀ c k x left v
  | kept {u v : State} {l : Label} (before : GivenTo dev s₀ c k x left u) (act : Act dev u l v)
      (taken : (v.slot c k).active = true) : GivenTo dev s₀ c k x left v

/-- The image read of a slot in use has returned `n` bytes, or none so far. -/
structure SlotFilled (dev : UbiBdev) (s : State) (c : ChId) (k n : Nat) (left : Bytes) : Prop where
  bytes : ∀ i, (s.slot c k).buf i = fetchedBytes dev (s.slot c k).stripeIdx n left i
  unread : ∀ sqe, sqe ∈ (s.channel c).sqes ++ (s.channel c).submitted →
    sqe.userData = .stripeFetch k → n = 0
  read : ∀ cqe ∈ (s.channel c).cqes, cqe.sqe.userData = .stripeFetch k → n = cqe.res.toNat
  written : ∀ o op, s.writes o = some op → op.cb = .stripe c k →
    ∃ sqe res, .fetchCqe c k sqe true (s.slot c k).stripeIdx res ∈ s.log ∧ 0 ≤ res ∧ n = res.toNat

theorem FetchesPlaced.entry_alone (inv : FetchesPlaced dev s) {i : Nat} {sqe e : Sqe}
    (entry : (s.channel c).submitted[i]? = some sqe) (tag : sqe.userData = .stripeFetch k)
    (other : e ∈ (s.channel c).sqes ++ (s.channel c).submitted.eraseIdx i) :
    e.userData ≠ .stripeFetch k := by
  intro tag'
  obtain ⟨owner, counts, _⟩ := inv.slots c k
  have once : s.slotOps (c, k) .ring ≤ 1 := by rw [counts .ring]; split <;> omega
  have removed := countP_eraseIdx (fun e => e.userData == .stripeFetch k) entry
  have second : 0 < ((s.channel c).sqes ++ (s.channel c).submitted.eraseIdx i).countP
      fun e => e.userData == .stripeFetch k :=
    List.countP_pos_iff.mpr ⟨e, other, by simp [tag']⟩
  simp only [tag, beq_self_eq_true, if_true] at removed
  simp only [State.slotOps, State.ringEntries, List.countP_append] at once second
  omega

section Steps

attribute [local grind =] stripeFetches_update stripeSqe imageReadSqe
attribute [local grind →] List.mem_of_mem_eraseIdx List.mem_of_getElem?

theorem stripeIdx_kept (act : Act dev s l t) (busy : (s.slot c k).active = true)
    (still : (t.slot c k).active = true) : (t.slot c k).stripeIdx = (s.slot c k).stripeIdx := by
  cases act <;> grind -linarith

theorem given_of_free (issued : FetchesIssued t.log) (act : Act dev s l t)
    (free : (s.slot c k).active = false) (taken : (t.slot c k).active = true) :
    (t.slot c k).buf = (s.slot c k).buf ∧ (t.channel c).cqes = (s.channel c).cqes ∧
      t.writes = s.writes := by
  cases act <;> grind -linarith

/-- An act that is not the completion of the slot's own read leaves its buffer alone. -/
theorem slotFilled_act {n : Nat} (inv : FetchesPlaced dev s) (before : SlotFilled dev s c k n left)
    (act : Act dev s l t) (busy : (s.slot c k).active = true)
    (still : (t.slot c k).active = true) : ∃ n, SlotFilled dev t c k n left := by
  have stripe := stripeIdx_kept act busy still
  obtain ⟨bytes, unread, read, written⟩ := before
  have later : ∀ o op', t.writes o = some op' → op'.cb = .stripe c k → ∃ sqe res,
      .fetchCqe c k sqe true (t.slot c k).stripeIdx res ∈ t.log ∧ 0 ≤ res ∧ n = res.toNat := by
    intro o op' write' cb'
    rw [stripe]
    cases write_origin act write' with
    | old op write cb =>
        obtain ⟨sqe, res, logged, good, count⟩ := written o op write (cb.symm.trans cb')
        exact ⟨sqe, res, (act_log act).subset logged, good, count⟩
    | new _ issued =>
        simp only [Issued, cb'] at issued
        obtain ⟨sqe, res, rest, first, tag, good, _, logged, _⟩ := issued
        rw [busy] at logged
        exact ⟨sqe, res, logged, good, read ⟨sqe, res⟩ (by simp [first]) tag⟩
  cases act
  case uringFetch d j k' sqe res entry tag bound =>
    by_cases same : c = d ∧ k = k'
    · obtain ⟨rfl, rfl⟩ := same
      have here := List.mem_of_getElem? entry
      obtain rfl : n = 0 := unread sqe (List.mem_append_right _ here) tag
      have mine : sqe = stripeSqe dev k (s.slot c k).stripeIdx :=
        inv.entries c sqe k (by simp [State.ringEntries, here]) tag
      refine ⟨res.toNat, fun i => ?_, fun e other tag' => ?_, fun cqe done tag' => ?_,
        fun o op write cb => ?_⟩
      · rw [stripe]
        have rest : (s.slot c k).buf i = left i := bytes i
        simp only [State.slot, Function.update_self, fillFromImage, fetchedBytes, rest, mine]
        rfl
      · exact absurd tag' (inv.entry_alone entry tag (by simpa using other))
      · simp only [Function.update_self, List.mem_append, List.mem_singleton] at done
        rcases done with done | rfl
        · exact absurd tag' (inv.no_cqe_of_submitted entry tag done)
        · rfl
      · exact absurd cb (inv.no_write_of_entry (by simp [State.ringEntries, here]) tag write)
    · refine ⟨n, ?_, ?_, ?_, later⟩
      · grind -linarith
      · grind -linarith
      · grind -linarith
  all_goals
    refine ⟨n, ?_, ?_, ?_, later⟩
    · first | exact bytes | grind -linarith
    · first | exact unread | grind -linarith
    · first | exact read | grind -linarith

end Steps

/-- Every slot in use holds the bytes its read has returned and under them what was left there. -/
structure SlotHistory (dev : UbiBdev) (s₀ s : State) : Prop where
  passes : Passes dev s₀ s
  placed : FetchesPlaced dev s
  filled : ∀ c k, (s.slot c k).active = true → ∃ left n,
    GivenTo dev s₀ c k (s.slot c k).stripeIdx left s ∧ SlotFilled dev s c k n left
  sampled : ∀ o op c k b data, s.writes o = some op → op.cb = .stripe c k →
    op.sampled b = some data → ∀ a, data a = (s.slot c k).buf (a - op.startBlock * dev.blocklen)

theorem slotHistory_act (inv : SlotHistory dev s₀ s) (issued : FetchesIssued t.log)
    (act : Act dev s l t) : SlotHistory dev s₀ t := by
  refine ⟨inv.passes.tail ⟨_, act⟩, fetchesPlaced_act inv.placed issued act,
    fun c k still => ?_, fun o op c k b data write cb sample =>
      slotSampled_act inv.placed inv.sampled act write cb sample⟩
  cases busy : (s.slot c k).active with
  | true =>
      obtain ⟨left, n, given, filled⟩ := inv.filled c k busy
      obtain ⟨n, filled⟩ := slotFilled_act inv.placed filled act busy still
      rw [stripeIdx_kept act busy still]
      exact ⟨left, n, given.kept act still, filled⟩
  | false =>
      obtain ⟨buf, cqes, writes⟩ := given_of_free issued act busy still
      refine ⟨(s.slot c k).buf, 0, .given inv.passes act busy rfl still rfl,
        fun i => by rw [buf]; rfl, fun _ _ _ => rfl, fun cqe done tag => ?_,
        fun o op write cb => ?_⟩
      · have entry : cqe.sqe ∈ s.ringEntries c := State.mem_ringEntries_of_cqe (cqes ▸ done)
        simp [inv.placed.active_of_entry entry tag] at busy
      · simp [inv.placed.active_of_write (writes ▸ write) cb] at busy

theorem slotHistory_reach {base : Bytes} {allowed : State → Event → Prop}
    (created : Created dev base s₀) (run : Reach dev allowed s₀ s) (issued : FetchesIssued s.log) :
    SlotHistory dev s₀ s := by
  obtain ⟨table, _, rfl⟩ := created
  refine reach_invariant_log fetchesIssued_earlier slotHistory_act run
    ⟨.refl, fetchesPlaced_newState dev base table, ?_, ?_⟩ issued
  · intro c k busy
    cases busy
  · intro o op c k b data write
    cases write

/-- What the base write of a slot's stripe carries: the image bytes its read has returned, and
after them the bytes that were in the buffer when the slot was given to the stripe. -/
structure FetchCarried (dev : UbiBdev) (s₀ s : State) (c : ChId) (k x : Nat) (op : BaseWrite)
    (res : Int) (left : Bytes) : Prop where
  result : ∃ sqe, .fetchCqe c k sqe true x res ∈ s.log
  good : 0 ≤ res
  given : GivenTo dev s₀ c k x left s
  bytes : ∀ b data, op.sampled b = some data → ∀ i,
    data (ubiMetadataSize + dev.stripeBytes * x + i) = fetchedBytes dev x res.toNat left i

theorem SlotHistory.carried (inv : SlotHistory dev s₀ s) {o : Nat} {op : BaseWrite}
    (write : s.writes o = some op) (cb : op.cb = .stripe c k) :
    ∃ res left, FetchCarried dev s₀ s c k (s.slot c k).stripeIdx op res left := by
  obtain ⟨left, n, given, filled⟩ := inv.filled c k (inv.placed.active_of_write write cb)
  obtain ⟨sqe, res, logged, good, rfl⟩ := filled.written o op write cb
  refine ⟨res, left, ⟨sqe, logged⟩, good, given, fun b data sample i => ?_⟩
  rw [inv.sampled o op c k b data write cb sample, (inv.placed.writes o op c k write cb).1,
    stripeStart_bytes, Nat.add_sub_cancel_left, filled.bytes]

theorem FetchCarried.whole {op : BaseWrite} {res : Int}
    (carried : FetchCarried dev s₀ s c k x op res left) (whole : (dev.stripeBytes : Int) ≤ res)
    {b : Nat} {data : Bytes} (sample : op.sampled b = some data) {i : Nat}
    (inside : i < dev.stripeBytes) :
    data (ubiMetadataSize + dev.stripeBytes * x + i) = dev.image (dev.stripeBytes * x + i) := by
  rw [carried.bytes b data sample i, fetchedBytes, if_pos (by omega)]

/-- Two base writes of one stripe, in any two runs and through any two slots. Each carries the
bytes its read has returned over those left in its buffer, so that the two agree, on the
image's bytes, if both reads have returned the whole stripe. -/
theorem fetches_carry_own_stripe {base₁ base₂ : Bytes} {s₁ t₁ s₂ t₂ : State}
    (created₁ : Created dev base₁ s₁) (run₁ : Reach dev anyStep s₁ t₁)
    (issued₁ : FetchesIssued t₁.log)
    (created₂ : Created dev base₂ s₂) (run₂ : Reach dev anyStep s₂ t₂)
    (issued₂ : FetchesIssued t₂.log) {o₁ o₂ k₁ k₂ x : Nat} {op₁ op₂ : BaseWrite} {c₁ c₂ : ChId}
    (write₁ : t₁.writes o₁ = some op₁) (cb₁ : op₁.cb = .stripe c₁ k₁)
    (stripe₁ : (t₁.slot c₁ k₁).stripeIdx = x)
    (write₂ : t₂.writes o₂ = some op₂) (cb₂ : op₂.cb = .stripe c₂ k₂)
    (stripe₂ : (t₂.slot c₂ k₂).stripeIdx = x) :
    ∃ res₁ left₁ res₂ left₂, FetchCarried dev s₁ t₁ c₁ k₁ x op₁ res₁ left₁ ∧
      FetchCarried dev s₂ t₂ c₂ k₂ x op₂ res₂ left₂ ∧
      ((dev.stripeBytes : Int) ≤ res₁ → (dev.stripeBytes : Int) ≤ res₂ →
        ∀ b data₁ data₂, op₁.sampled b = some data₁ → op₂.sampled b = some data₂ →
        ∀ i, i < dev.stripeBytes →
          data₁ (ubiMetadataSize + dev.stripeBytes * x + i) =
              dev.image (dev.stripeBytes * x + i) ∧
            data₂ (ubiMetadataSize + dev.stripeBytes * x + i) =
              dev.image (dev.stripeBytes * x + i)) := by
  obtain ⟨res₁, left₁, carried₁⟩ := (slotHistory_reach created₁ run₁ issued₁).carried write₁ cb₁
  obtain ⟨res₂, left₂, carried₂⟩ := (slotHistory_reach created₂ run₂ issued₂).carried write₂ cb₂
  rw [stripe₁] at carried₁
  rw [stripe₂] at carried₂
  exact ⟨res₁, left₁, res₂, left₂, carried₁, carried₂,
    fun whole₁ whole₂ b data₁ data₂ sample₁ sample₂ i inside =>
      ⟨carried₁.whole whole₁ sample₁ inside, carried₂.whole whole₂ sample₂ inside⟩⟩

def unevenBdev : UbiBdev where
  blocklen := 32768
  blockcnt := 260
  imageSize := 98304
  image := fun p => if p < 65536 then 7 else 5
  stripeSizeKb := 64
  noSync := false
  copyOnRead := false
  layout := ⟨2, 1, 256, 3⟩
  imageSize_lt := by decide
  blockcnt_lt := by decide
  init := by decide

/-- A WRITE to the first block of a stripe has it fetched, up to base write `o`, which takes its
data. -/
def fetchStripe (id x o : Nat) (res : Int) : List Event :=
  [.submit 0 id ⟨.write, 2 * x, 1, fun _ => 0⟩, .poll 0 .success, .uring 0 0 res,
    .poll 0 .success, .sample o [256 + 2 * x, 257 + 2 * x]]

def finishStripe (x o : Nat) : List Event :=
  [.land o [256 + 2 * x, 257 + 2 * x], .writeDone o true 0]

def readResults (x : Nat) (log : List Obs) : List Int :=
  log.filterMap fun
    | .fetchCqe _ _ _ _ y res => if y = x then some res else none
    | _ => none

/-- The base write of stripe `x` through slot 0 is under way, its read has returned `res` bytes,
and byte `i` of the stripe is `value` in the data of block `b`. -/
structure WritesStripe (x o b i : Nat) (res : Int) (value : UInt8) (s : State) : Prop where
  issued : FetchesIssued s.log
  stripe : (s.slot 0 0).stripeIdx = x
  result : readResults x s.log = [res]
  write : ∃ op ∈ s.writes o, op.cb = .stripe 0 0 ∧ ∃ data ∈ op.sampled b,
    data (ubiMetadataSize + unevenBdev.stripeBytes * x + i) = value

instance (x o b i : Nat) (res : Int) (value : UInt8) (s : State) :
    Decidable (WritesStripe x o b i res value s) :=
  decidable_of_iff (FetchesIssued s.log ∧ (s.slot 0 0).stripeIdx = x ∧
      readResults x s.log = [res] ∧ ∃ op ∈ s.writes o, op.cb = .stripe 0 0 ∧
        ∃ data ∈ op.sampled b, data (ubiMetadataSize + unevenBdev.stripeBytes * x + i) = value)
    ⟨fun ⟨issued, stripe, result, write⟩ => ⟨issued, stripe, result, write⟩,
      fun ⟨issued, stripe, result, write⟩ => ⟨issued, stripe, result, write⟩⟩

theorem WritesStripe.result_eq {x o b i : Nat} {res res' : Int} {value : UInt8} {sqe : Sqe}
    (writes : WritesStripe x o b i res value s) (logged : .fetchCqe c k sqe true x res' ∈ s.log) :
    res' = res := by
  have found : res' ∈ readResults x s.log := List.mem_filterMap.mpr ⟨_, logged, by simp⟩
  rw [writes.result] at found
  exact List.mem_singleton.mp found

/-- Stripe 0 lies in the image, and a fetch of stripe 1 before it through the same slot leaves
no trace. -/
theorem fetches_carry_own_stripe_uneven :
    ∃ t₁ t₂ op₁ op₂ data₁ data₂, Reach unevenBdev anyStep (blankState unevenBdev) t₁ ∧
      Reach unevenBdev anyStep (blankState unevenBdev) t₂ ∧
      t₁.writes 2 = some op₁ ∧ t₂.writes 0 = some op₂ ∧ op₁.sampled 257 = some data₁ ∧
      op₂.sampled 257 = some data₂ ∧ ∀ i, i < unevenBdev.stripeBytes →
        data₁ (ubiMetadataSize + i) = data₂ (ubiMetadataSize + i) := by
  have first : (Runs.exec (step unevenBdev) (fun _ _ => true) (blankState unevenBdev)
      (fetchStripe 0 1 0 32768 ++ finishStripe 1 0 ++ fetchStripe 1 0 2 65536)).any
        (fun s => decide (WritesStripe 0 2 257 32768 65536 7 s)) = true := by decide +kernel
  have second : (Runs.exec (step unevenBdev) (fun _ _ => true) (blankState unevenBdev)
      (fetchStripe 0 0 0 65536)).any
        (fun s => decide (WritesStripe 0 0 257 32768 65536 7 s)) = true := by decide +kernel
  obtain ⟨t₁, run₁, test₁⟩ := Runs.exists_reach_of_exec (fun _ _ _ _ => trivial) first
  obtain ⟨t₂, run₂, test₂⟩ := Runs.exists_reach_of_exec (fun _ _ _ _ => trivial) second
  have test₁ := of_decide_eq_true test₁
  have test₂ := of_decide_eq_true test₂
  obtain ⟨op₁, write₁, cb₁, data₁, sample₁, _⟩ := test₁.write
  obtain ⟨op₂, write₂, cb₂, data₂, sample₂, _⟩ := test₂.write
  obtain ⟨res₁, left₁, res₂, left₂, carried₁, carried₂, agree⟩ :=
    fetches_carry_own_stripe (created_blankState _) run₁ test₁.issued (created_blankState _) run₂
      test₂.issued write₁ cb₁ test₁.stripe write₂ cb₂ test₂.stripe
  obtain ⟨_, logged₁⟩ := carried₁.result
  obtain ⟨_, logged₂⟩ := carried₂.result
  rw [test₁.result_eq logged₁, test₂.result_eq logged₂] at agree
  refine ⟨t₁, t₂, op₁, op₂, data₁, data₂, run₁, run₂, write₁, write₂, sample₁, sample₂,
    fun i inside => ?_⟩
  obtain ⟨same₁, same₂⟩ := agree (by decide) (by decide) 257 data₁ data₂ sample₁ sample₂ i inside
  exact same₁.trans same₂.symm

/-- The slot is reused for stripe 1, of which the image has the first block only. What is
written to the second block are bytes of stripe 0; without the earlier fetch they are zeroes. -/
theorem slot_leaks_stripe :
    ∃ t₁ t₂, Reach unevenBdev anyStep (blankState unevenBdev) t₁ ∧
      Reach unevenBdev anyStep (blankState unevenBdev) t₂ ∧
      WritesStripe 1 2 259 32768 32768 7 t₁ ∧ WritesStripe 1 0 259 32768 32768 0 t₂ ∧
      unevenBdev.image 32768 = 7 := by
  have first : (Runs.exec (step unevenBdev) (fun _ _ => true) (blankState unevenBdev)
      (fetchStripe 0 0 0 65536 ++ finishStripe 0 0 ++ fetchStripe 1 1 2 32768)).any
        (fun s => decide (WritesStripe 1 2 259 32768 32768 7 s)) = true := by decide +kernel
  have second : (Runs.exec (step unevenBdev) (fun _ _ => true) (blankState unevenBdev)
      (fetchStripe 0 1 0 32768)).any
        (fun s => decide (WritesStripe 1 0 259 32768 32768 0 s)) = true := by decide +kernel
  obtain ⟨t₁, run₁, leaked⟩ := Runs.exists_reach_of_exec (fun _ _ _ _ => trivial) first
  obtain ⟨t₂, run₂, clean⟩ := Runs.exists_reach_of_exec (fun _ _ _ _ => trivial) second
  exact ⟨t₁, t₂, run₁, run₂, of_decide_eq_true leaked, of_decide_eq_true clean, by decide⟩

end BdevUbi
