import BdevUbi.BaseWrites
import Mathlib.Tactic.Ring

/-!
What the buffers of the fetch slots hold. As long as the lower layers do not lose
data silently, a stripe's base write carries the stripe's image bytes.
-/

namespace BdevUbi

/-- The outcome is none of those the code takes for success although data is missing:
a short image read, a failed base write of a stripe. Nor is it the failed submission
that frees a slot too early. -/
def Obs.Faithful (dev : UbiBdev) : Obs → Prop
  | .fetchSubmit _ _ _ ok => ok = true
  | .fetchCqe _ _ _ _ x res => res < 0 ∨ (dev.stripeImageBytes x : Int) ≤ res
  | .stripeWriteDone _ ok => ok = true
  | .readCqe _ sqe res => res < 0 ∨ (dev.available sqe : Int) ≤ res
  | _ => True

instance (dev : UbiBdev) (o : Obs) : Decidable (o.Faithful dev) := by
  cases o <;> unfold Obs.Faithful <;> infer_instance

/-- No lower-level operation has failed in such a way. -/
def Faultless (dev : UbiBdev) (log : List Obs) : Prop := ∀ o ∈ log, o.Faithful dev

instance (dev : UbiBdev) (log : List Obs) : Decidable (Faultless dev log) :=
  inferInstanceAs (Decidable (∀ o ∈ log, o.Faithful dev))

variable {dev : UbiBdev} {s t : State} {l : Label}

theorem faultless_earlier {past log : List Obs} (older : past <:+ log)
    (faultless : Faultless dev log) : Faultless dev past :=
  fun o logged => faultless o (older.subset logged)

theorem Faultless.issued {log : List Obs} (faultless : Faultless dev log) : FetchesIssued log := by
  intro c k x logged
  cases faultless _ logged

/-- The buffer of a slot holds what its image read has returned, and all of the stripe's
image bytes once the base write is under way. -/
structure FetchData (dev : UbiBdev) (s : State) : Prop where
  read : ∀ c k sqe res, ⟨sqe, res⟩ ∈ (s.channel c).cqes → sqe.userData = .stripeFetch k →
    ∀ i, i < res.toNat → (s.slot c k).buf i = dev.image (sqe.offset + i)
  write : ∀ o op c k, s.writes o = some op → op.cb = .stripe c k →
    ∀ i, i < dev.stripeImageBytes (s.slot c k).stripeIdx →
      (s.slot c k).buf i = dev.image (dev.stripeBytes * (s.slot c k).stripeIdx + i)
  sampled : ∀ o op c k b data, s.writes o = some op → op.cb = .stripe c k →
    op.sampled b = some data → ∀ a, data a = (s.slot c k).buf (a - op.startBlock * dev.blocklen)

namespace FetchesPlaced

theorem no_write_of_entry (inv : FetchesPlaced dev s) {c : ChId} {k o : Nat} {sqe : Sqe}
    {op : BaseWrite} (entry : sqe ∈ s.ringEntries c) (tag : sqe.userData = .stripeFetch k)
    (write : s.writes o = some op) : op.cb ≠ .stripe c k := by
  intro cb
  obtain ⟨owner, counts, _⟩ := inv.slots c k
  have ring : s.slotOps (c, k) .ring ≠ 0 :=
    (List.countP_pos_iff.mpr ⟨sqe, entry, by simp [tag]⟩).ne'
  have writing : s.slotOps (c, k) (.write o) ≠ 0 := by simp [State.slotOps, write, cb]
  cases Option.some.inj ((counts.eq_some ring).symm.trans (counts.eq_some writing))

theorem no_cqe_of_submitted (inv : FetchesPlaced dev s) {c : ChId} {k i : Nat} {sqe : Sqe}
    {cqe : Cqe} (entry : (s.channel c).submitted[i]? = some sqe)
    (tag : sqe.userData = .stripeFetch k) (done : cqe ∈ (s.channel c).cqes) :
    cqe.sqe.userData ≠ .stripeFetch k := by
  intro tag'
  obtain ⟨owner, counts, _⟩ := inv.slots c k
  have once : s.slotOps (c, k) .ring ≤ 1 := by rw [counts .ring]; split <;> omega
  have first : 0 < (s.channel c).submitted.countP fun e => e.userData == .stripeFetch k :=
    List.countP_pos_iff.mpr ⟨sqe, List.mem_of_getElem? entry, by simp [tag]⟩
  have second : 0 < ((s.channel c).cqes.map Cqe.sqe).countP fun e => e.userData == .stripeFetch k :=
    List.countP_pos_iff.mpr ⟨cqe.sqe, List.mem_map_of_mem done, by simp [tag']⟩
  simp only [State.slotOps, State.ringEntries, List.countP_append] at once
  omega

end FetchesPlaced

section Steps

attribute [local grind =] stripeFetches_update

theorem fetchData_read (inv : FetchesPlaced dev s) (before : FetchData dev s)
    (act : Act dev s l t) {c : ChId} {k : Nat} {sqe : Sqe} {res : Int}
    (done : ⟨sqe, res⟩ ∈ (t.channel c).cqes) (tag : sqe.userData = .stripeFetch k) (i : Nat)
    (bound : i < res.toNat) : (t.slot c k).buf i = dev.image (sqe.offset + i) := by
  have old := before.read c k sqe res
  cases act with
  | @uringFetch c' j k' sqe' res' entry tag' bound' =>
      by_cases here : c = c'
      · subst here
        simp only [Function.update_self, List.mem_append, List.mem_singleton] at done ⊢
        rcases done with done | new
        · have other : k ≠ k' := by
            rintro rfl
            exact inv.no_cqe_of_submitted entry tag' done tag
          simpa [State.slot, other] using old done tag i bound
        · cases new
          obtain rfl : k = k' := by simpa [tag'] using tag.symm
          simp [State.slot, fillFromImage, bound]
      · simpa [State.slot, here] using old (by simpa [here] using done) tag i bound
  | _ => grind -linarith

theorem writingSlot_act (inv : FetchesPlaced dev s) (act : Act dev s l t) {o : Nat} {op : BaseWrite}
    {c : ChId} {k : Nat} (write : s.writes o = some op) (cb : op.cb = .stripe c k) :
    (t.slot c k).stripeIdx = (s.slot c k).stripeIdx ∧ (t.slot c k).buf = (s.slot c k).buf := by
  have busy := inv.active_of_write write cb
  cases act with
  | @uringFetch c' j k' sqe' res' entry tag' bound' =>
      have other : ¬ (c = c' ∧ k = k') := by
        rintro ⟨rfl, rfl⟩
        have entry : sqe' ∈ s.ringEntries c := by
          simp [State.ringEntries, List.mem_of_getElem? entry]
        exact inv.no_write_of_entry entry tag' write cb
      grind -linarith
  | _ => grind -linarith

theorem slotSampled_act (inv : FetchesPlaced dev s)
    (before : ∀ o op c k b data, s.writes o = some op → op.cb = .stripe c k →
      op.sampled b = some data → ∀ a, data a = (s.slot c k).buf (a - op.startBlock * dev.blocklen))
    (act : Act dev s l t) {o : Nat} {op' : BaseWrite} {c : ChId} {k b : Nat} {data : Bytes}
    (write' : t.writes o = some op') (cb' : op'.cb = .stripe c k)
    (sample : op'.sampled b = some data) (a : Nat) :
    data a = (t.slot c k).buf (a - op'.startBlock * dev.blocklen) := by
  cases write_origin act write' with
  | old op write cb start blocks sampled =>
      have cb := cb.symm.trans cb'
      rw [start, (writingSlot_act inv act write cb).2]
      rcases sampled b data sample with old | ⟨_, rfl⟩
      · exact before o op c k b data write cb old a
      · simp [writeBuffer, cb]
  | new _ _ unsampled => simp [unsampled] at sample

theorem fetchData_act (inv : FetchesPlaced dev s) (before : FetchData dev s)
    (faultless : Faultless dev t.log) (act : Act dev s l t) : FetchData dev t := by
  refine ⟨fun c k sqe res done tag => fetchData_read inv before act done tag,
    fun o op' c k write' cb' i bound => ?_, fun o op' c k b data write' cb' sample =>
      slotSampled_act inv before.sampled act write' cb' sample⟩
  cases write_origin act write' with
  | old op write cb =>
      have cb := cb.symm.trans cb'
      obtain ⟨stripe, buf⟩ := writingSlot_act inv act write cb
      rw [stripe] at bound ⊢
      rw [buf]
      exact before.write o op c k write cb i bound
  | new _ issued =>
      -- the write starts when the read has returned every image byte of the stripe
      simp only [Issued, cb'] at issued
      obtain ⟨sqe, res, rest, first, tag, good, same, logged, _⟩ := issued
      have entry : sqe ∈ s.ringEntries c := by simp [State.ringEntries, first]
      have whole : (dev.stripeImageBytes (s.slot c k).stripeIdx : Int) ≤ res :=
        (faultless _ logged).resolve_left (Int.not_lt.mpr good)
      rw [same] at bound ⊢
      rw [before.read c k sqe res (by simp [first]) tag i (by omega),
        inv.entries c sqe k entry tag]
      rfl

end Steps

/-- The data of a stripe's base write are the image's, byte by byte. -/
theorem FetchData.image_of_sampled (fetch : FetchData dev s) (inv : FetchesPlaced dev s)
    {o : Nat} {op : BaseWrite} {c : ChId} {k b p : Nat} {data : Bytes}
    (write : s.writes o = some op) (cb : op.cb = .stripe c k) (sample : op.sampled b = some data)
    (image : p < dev.imageSize) (stripe : p / dev.stripeBytes = (s.slot c k).stripeIdx) :
    data (ubiMetadataSize + p) = dev.image p := by
  have pos : 0 < dev.stripeBytes := by
    rw [dev.stripeBytes_eq]
    exact Nat.mul_pos dev.stripeBlockCount_pos dev.blocklen_pos
  have split := Nat.div_add_mod p dev.stripeBytes
  have inside := Nat.mod_lt p pos
  rw [stripe] at split
  rw [fetch.sampled o op c k b data write cb sample, (inv.writes o op c k write cb).1,
    stripeStart_bytes, fetch.write o op c k write cb]
  · congr 1
    omega
  · unfold UbiBdev.stripeImageBytes
    omega

end BdevUbi
