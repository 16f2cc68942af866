import Iax.Pcie.RxAllocator
import Mathlib.Algebra.BigOperators.Ring.Finset
import Mathlib.Algebra.Group.Action.Defs
import Mathlib.Algebra.Order.BigOperators.Group.Finset
import Mathlib.Algebra.Order.Group.Multiset
import Mathlib.Data.Fintype.Card
import Mathlib.Tactic.Abel

/-!
# The allocator never runs out

The allocator takes a buffer off its list without a check but for a `BUG_ON`, and a queue takes
eight buffers off the list of filled ones without any: both lists are long enough because of the
counters.

* `QueueInv`: a queue has posted a request for every eight of its used buffers, of which the last
  six may be still to come.
* `AllocInv`: the six buffers for each queue that the allocator starts with make up for these.
* `Pages`: every buffer is in exactly one place, and has a page where it should have one.
* `Inv`: all of these together, kept by the steps of a queue (`Inv.rx`) and of the allocator
  (`Inv.work`).
-/

namespace Iax.Pcie

variable {ι B : Type*} [Fintype ι]

/-- A page was there when the queue asked for one, and could be mapped. -/
def RxStep.Paged : RxStep B → Prop
  | .refill page mapped => page = true ∧ mapped = true
  | _ => True

/-! ## Counting requests -/

/-- A request that is due and not yet posted. -/
def RxPc.unposted : RxPc → ℕ
  | .post => 1
  | .inc => 1
  | _ => 0

/-- A request that was claimed, and whose buffers are still to be taken. -/
def RxPc.taking : RxPc → ℕ
  | .take => 1
  | _ => 0

/-- A request that was taken off `req_pending` and is not yet in `req_ready`. -/
def AllocPc.between : AllocPc → ℕ
  | .reread _ => 1
  | .splice _ => 1
  | .ready _ => 1
  | _ => 0

/-- The buffers of a request that are on the list before the request is in `req_ready`. -/
def AllocPc.early : AllocPc → ℕ
  | .ready _ => 8
  | _ => 0

/-- The requests that a queue has made for the used buffers it counts. -/
def Rxq.asked (rxq : Rxq B) : ℕ := (rxq.usedCount + 6) / 8

/-- The invariant of a queue, where `c` of its used buffers are counted: the others were used in
emergency mode. -/
structure QueueInv (rxq : Rxq B) (c : ℕ) : Prop where
  le : c ≤ rxq.rxUsed.length
  round : 8 * rxq.asked + c ≤ rxq.usedCount + 6 + 8 * rxq.pc.unposted
  free : rxq.freeCount = rxq.rxFree.length
  post : rxq.pc.unposted = 1 → rxq.usedCount % 8 = 2
  inc : rxq.pc = .inc → c = 0
  take : rxq.pc = .take → 8 ≤ rxq.usedCount
  emergency : rxq.emergency = true → c = 0 ∧ rxq.pc.unposted = 0 ∧ rxq.pc ≠ .enter
  refill : rxq.pc = .refill → c = 0

/-- All used buffers of a queue are counted, except while it gives them pages, and in emergency mode
from the first buffer on. -/
def Tidy (x : Rxq B) (c : ℕ) : Prop :=
  x.pc ≠ .refill → x.emergency = false ∨
    (x.count = 0 ∧ x.pc ≠ .claim ∧ x.pc ≠ .take ∧ x.pc ≠ .settle) →
    x.rxUsed.length = c

namespace RbAllocator

/-- The buffers without a request's number: the empty ones, and those of the request at hand. -/
def owned (rba : RbAllocator B) : ℕ :=
  rba.rbdEmpty.length + rba.localEmpty.length + rba.localAllocated.length

/-- What holds of the local lists at each place of the allocator. -/
def Local (rba : RbAllocator B) : Prop :=
  match rba.pc with
  | .idle => rba.localEmpty = [] ∧ rba.localAllocated = []
  | .swap pending => rba.localEmpty = [] ∧ rba.localAllocated = [] ∧ pending ≤ rba.reqPending
  | .alloc pending i => rba.localAllocated.length = i ∧ i ≤ 8 ∧ (pending = 0 → i = 0) ∧
      pending ≤ rba.reqPending ∧ 8 * pending ≤ rba.localEmpty.length + i
  | .reread _ => rba.localAllocated.length = 8
  | .splice pending => rba.localAllocated.length = 8 ∧ pending ≤ rba.reqPending
  | .ready pending => rba.localAllocated = [] ∧ pending ≤ rba.reqPending ∧
      8 * pending ≤ rba.localEmpty.length

end RbAllocator

namespace RxState

variable (s : RxState ι B)

/-- The invariant of the counters, where `c` says how many used buffers of each queue are counted
and `lost` buffers went to the allocator without being counted. -/
structure AllocInv (s : RxState ι B) (c : ι → ℕ) (lost : ℕ) : Prop where
  queue : ∀ q, QueueInv (s.rxq q) (c q)
  pool : s.rba.owned + s.rba.rbdAllocated.length + total id c =
    6 * Fintype.card ι + total Rxq.usedCount s.rxq + lost
  served : s.rba.rbdAllocated.length =
    8 * (s.rba.reqReady + total (fun x => x.pc.taking) s.rxq) + s.rba.pc.early
  asked : s.rba.reqPending + s.rba.reqReady + total (fun x => x.pc.taking) s.rxq +
    s.rba.pc.between + total (fun x => x.pc.unposted) s.rxq = total Rxq.asked s.rxq
  inner : s.rba.Local

variable {s : RxState ι B} {c : ι → ℕ} {lost : ℕ}

/-- **The credit of the allocator**: for every request that is pending it has eight buffers. -/
theorem AllocInv.credit (h : s.AllocInv c lost) :
    8 * (s.rba.reqPending + s.rba.pc.between) ≤ s.rba.owned + s.rba.pc.early := by
  have hround : total (fun x : Rxq B => 8 * x.asked) s.rxq + total id c ≤
      total Rxq.usedCount s.rxq + 6 * Fintype.card ι +
        total (fun x : Rxq B => 8 * x.pc.unposted) s.rxq := by
    have hsum : ∑ q, (8 * (s.rxq q).asked + c q) ≤
        ∑ q, ((s.rxq q).usedCount + 6 + 8 * (s.rxq q).pc.unposted) :=
      Finset.sum_le_sum fun q _ => (h.queue q).round
    simp only [Finset.sum_add_distrib, Finset.sum_const, Finset.card_univ, smul_eq_mul] at hsum
    simp only [total, id_eq]
    omega
  have hasked : total (fun x : Rxq B => 8 * x.asked) s.rxq = 8 * total Rxq.asked s.rxq := by
    simp only [total, Finset.mul_sum]
  have hunposted : total (fun x : Rxq B => 8 * x.pc.unposted) s.rxq =
      8 * total (fun x => x.pc.unposted) s.rxq := by
    simp only [total, Finset.mul_sum]
  have hpool := h.pool
  have hserved := h.served
  have hcount := h.asked
  rw [hasked, hunposted] at hround
  omega

/-- **A step of one queue**, which may also change the allocator: what it does to the sums. -/
theorem AllocInv.update [DecidableEq ι] (h : s.AllocInv c lost) {t : RxState ι B} {q : ι}
    {x : Rxq B}
    {d lost' : ℕ} (hrxq : t.rxq = Function.update s.rxq q x) (hq : QueueInv x d)
    (hpool : t.rba.owned + t.rba.rbdAllocated.length + d + (s.rxq q).usedCount + lost =
      s.rba.owned + s.rba.rbdAllocated.length + c q + x.usedCount + lost')
    (hserved : t.rba.rbdAllocated.length + 8 * (s.rba.reqReady + (s.rxq q).pc.taking) +
        s.rba.pc.early =
      s.rba.rbdAllocated.length + 8 * (t.rba.reqReady + x.pc.taking) + t.rba.pc.early)
    (hasked : t.rba.reqPending + t.rba.reqReady + x.pc.taking + t.rba.pc.between + x.pc.unposted +
        (s.rxq q).asked =
      s.rba.reqPending + s.rba.reqReady + (s.rxq q).pc.taking + s.rba.pc.between +
        (s.rxq q).pc.unposted + x.asked)
    (hinner : t.rba.Local) : t.AllocInv (Function.update c q d) lost' := by
  have hused := total_update Rxq.usedCount s.rxq q x
  have hcounted := total_update id c q d
  have htaking := total_update (fun x : Rxq B => x.pc.taking) s.rxq q x
  have hunposted := total_update (fun x : Rxq B => x.pc.unposted) s.rxq q x
  have hasked' := total_update Rxq.asked s.rxq q x
  have hpool' := h.pool
  have hserved' := h.served
  have hasked'' := h.asked
  simp only [id_eq] at hcounted
  refine ⟨fun q' => ?_, ?_, ?_, ?_, hinner⟩
  · rw [hrxq]
    by_cases hq' : q' = q
    · subst hq'
      rwa [Function.update_self, Function.update_self]
    · rw [Function.update_of_ne hq', Function.update_of_ne hq']
      exact h.queue q'
  · rw [hrxq]
    omega
  · rw [hrxq]
    omega
  · rw [hrxq]
    omega

/-! ## Where the buffers are -/

/-- The buffers without a page. -/
def bare (s : RxState ι B) : Multiset B :=
  total (fun x => (x.rxUsed : Multiset B)) s.rxq + s.rba.rbdEmpty + s.rba.localEmpty

/-- The buffers with a page. -/
def filled (s : RxState ι B) : Multiset B :=
  total (fun x => (x.rxFree : Multiset B)) s.rxq + s.rba.rbdAllocated + s.rba.localAllocated + s.hw

/-- Every buffer of the pool is in one place, and has a page where it should have one. -/
structure Pages (pool : Multiset B) (s : RxState ι B) : Prop where
  pool_eq : s.bare + s.filled = pool
  bare_page : ∀ b ∈ s.bare, s.page b = false
  filled_page : ∀ b ∈ s.filled, s.page b = true

variable {pool : Multiset B} {s' : RxState ι B}

theorem Pages.of_eq (h : s.Pages pool) (hbare : s'.bare = s.bare) (hfilled : s'.filled = s.filled)
    (hpage : s'.page = s.page) : s'.Pages pool :=
  ⟨by rw [hbare, hfilled, h.pool_eq], by rw [hbare, hpage]; exact h.bare_page,
    by rw [hfilled, hpage]; exact h.filled_page⟩

variable [DecidableEq B]

/-- A buffer gets a page. -/
theorem Pages.fill (h : s.Pages pool) (hpool : pool.Nodup) {b : B} (hbare : s.bare = b ::ₘ s'.bare)
    (hfilled : s'.filled = b ::ₘ s.filled) (hpage : s'.page = Function.update s.page b true) :
    s'.Pages pool := by
  have heq := h.pool_eq
  rw [← heq, hbare, Multiset.cons_add] at hpool
  obtain ⟨hnot, -⟩ := Multiset.nodup_cons.1 hpool
  refine ⟨?_, fun x hx => ?_, fun x hx => ?_⟩
  · rw [← heq, hbare, hfilled, Multiset.cons_add, Multiset.add_cons]
  · have hne : x ≠ b := fun hxb => hnot (Multiset.mem_add.2 (.inl (hxb ▸ hx)))
    rw [hpage, Function.update_of_ne hne]
    exact h.bare_page x (hbare ▸ Multiset.mem_cons_of_mem hx)
  · rw [hpage]
    by_cases hxb : x = b
    · rw [hxb, Function.update_self]
    · rw [Function.update_of_ne hxb]
      rw [hfilled, Multiset.mem_cons] at hx
      exact h.filled_page x (hx.resolve_left hxb)

/-- A buffer loses its page. -/
theorem Pages.spill (h : s.Pages pool) (hpool : pool.Nodup) {b : B}
    (hbare : s'.bare = b ::ₘ s.bare) (hfilled : s.filled = b ::ₘ s'.filled)
    (hpage : s'.page = Function.update s.page b false) : s'.Pages pool := by
  have heq := h.pool_eq
  rw [← heq, hfilled, Multiset.add_cons] at hpool
  obtain ⟨hnot, -⟩ := Multiset.nodup_cons.1 hpool
  refine ⟨?_, fun x hx => ?_, fun x hx => ?_⟩
  · rw [← heq, hbare, hfilled, Multiset.cons_add, Multiset.add_cons]
  · rw [hpage]
    by_cases hxb : x = b
    · rw [hxb, Function.update_self]
    · rw [Function.update_of_ne hxb]
      rw [hbare, Multiset.mem_cons] at hx
      exact h.bare_page x (hx.resolve_left hxb)
  · have hne : x ≠ b := fun hxb => hnot (Multiset.mem_add.2 (.inr (hxb ▸ hx)))
    rw [hpage, Function.update_of_ne hne]
    exact h.filled_page x (hfilled ▸ Multiset.mem_cons_of_mem hx)

/-! ## Steps of a queue -/

variable [DecidableEq ι]

/-- What every action keeps. -/
structure Inv (pool : Multiset B) (s : RxState ι B) (c : ι → ℕ) (lost : ℕ) : Prop where
  alloc : s.AllocInv c lost
  pages : s.Pages pool
  bug : s.bug = false

variable {q : ι} {x : Rxq B}

omit [DecidableEq B] in
/-- A step of a queue that leaves its buffers and the allocator as they are. -/
theorem Inv.setRxq (h : s.Inv pool c lost) (hq : QueueInv x (c q))
    (hused : x.usedCount = (s.rxq q).usedCount) (hfree : x.rxFree = (s.rxq q).rxFree)
    (hbare : x.rxUsed = (s.rxq q).rxUsed) (htaking : x.pc.taking = (s.rxq q).pc.taking)
    (hunposted : x.pc.unposted = (s.rxq q).pc.unposted) : (s.setRxq q x).Inv pool c lost := by
  refine ⟨?_, h.pages.of_eq ?_ ?_ rfl, h.bug⟩
  · have hupdate : (s.setRxq q x).AllocInv (Function.update c q (c q)) lost := by
      refine h.alloc.update rfl hq ?_ ?_ ?_ h.alloc.inner
      · rw [hused]
        rfl
      · rw [htaking]
        rfl
      · rw [htaking, hunposted, Rxq.asked, Rxq.asked, hused]
        rfl
    rwa [Function.update_eq_self] at hupdate
  · simp only [bare, RxState.setRxq]
    rw [total_update_of_eq (by rw [hbare])]
  · simp only [filled, RxState.setRxq]
    rw [total_update_of_eq (by rw [hfree])]

omit [DecidableEq B] in
/-- The used buffers of a queue go to the allocator. -/
theorem Inv.moveToAllocator (h : s.Inv pool c lost) (hused : x.usedCount = (s.rxq q).usedCount)
    (hq : QueueInv { x with rxUsed := [] } 0) (hfree : x.rxFree = (s.rxq q).rxFree)
    (hbare : x.rxUsed = (s.rxq q).rxUsed) (htaking : x.pc.taking = (s.rxq q).pc.taking)
    (hunposted : x.pc.unposted = (s.rxq q).pc.unposted) :
    (s.iwlPcieRxMoveToAllocator q x).Inv pool (Function.update c q 0)
      (lost + ((s.rxq q).rxUsed.length - c q)) := by
  have hle := (h.alloc.queue q).le
  refine ⟨h.alloc.update rfl hq ?_ ?_ ?_ ?_, h.pages.of_eq ?_ ?_ rfl, h.bug⟩
  · simp only [iwlPcieRxMoveToAllocator, RxState.setRxq, RbAllocator.owned, List.length_append,
      hbare,
      hused]
    omega
  · rw [htaking]
    rfl
  · rw [htaking, hunposted, Rxq.asked, Rxq.asked, hused]
    rfl
  · -- the local lists of the allocator are as they were
    exact h.alloc.inner
  · have htotal : total (fun x => (x.rxUsed : Multiset B))
        (Function.update s.rxq q { x with rxUsed := [] }) + ↑x.rxUsed =
          total (fun x => (x.rxUsed : Multiset B)) s.rxq :=
      total_update_of_sub (by rw [hbare, Multiset.coe_nil, zero_add])
    simp only [bare, iwlPcieRxMoveToAllocator, RxState.setRxq]
    rw [← htotal, ← Multiset.coe_add]
    abel
  · simp only [filled, iwlPcieRxMoveToAllocator, RxState.setRxq]
    rw [total_update_of_eq (by rw [hfree])]

omit [Fintype ι] [DecidableEq B] [DecidableEq ι] in
theorem queueInv_leave {c : ℕ} (h : QueueInv x c) (hpc : x.pc.unposted = 0) :
    QueueInv (leave x) c where
  le := h.le
  round := by
    have hround := h.round
    simp only [hpc] at hround
    simp only [leave, Rxq.asked]
    exact hround.trans (by omega)
  free := h.free
  post := by
    simp only [leave]
    split <;> simp [RxPc.unposted]
  inc := by
    simp only [leave]
    split <;> simp
  take := by
    simp only [leave]
    split <;> simp
  emergency := by simp [leave]
  refill := by
    simp only [leave]
    split
    · exact fun _ => (h.emergency (by simp_all)).1
    · simp

omit [DecidableEq B] in
/-- `iwl_pcie_rx_handle` ends. -/
theorem Inv.leave (h : s.Inv pool c lost) (hpc : (s.rxq q).pc = .idle ∨ (s.rxq q).pc = .get) :
    (s.setRxq q (RxState.leave (s.rxq q))).Inv pool c lost := by
  have hunposted : (s.rxq q).pc.unposted = 0 := by
    rcases hpc with hpc | hpc <;> rw [hpc] <;> rfl
  have htaking : (s.rxq q).pc.taking = 0 := by
    rcases hpc with hpc | hpc <;> rw [hpc] <;> rfl
  refine h.setRxq (queueInv_leave (h.alloc.queue q) hunposted) rfl rfl rfl ?_ ?_
  · rw [htaking]
    simp only [RxState.leave]
    split <;> rfl
  · rw [hunposted]
    simp only [RxState.leave]
    split <;> rfl

omit [Fintype ι] [DecidableEq ι] in
/-- The hardware gives a buffer back. -/
theorem coe_hw_eq {rxb : B} (hmem : rxb ∈ s.hw) :
    (s.hw : Multiset B) = {rxb} + ↑(s.hw.erase rxb) := by
  rw [Multiset.singleton_add]
  exact Multiset.coe_eq_coe.2 (List.perm_cons_erase hmem)

/-- A buffer that keeps its page. -/
theorem Inv.addFree (h : s.Inv pool c lost) (hpc : (s.rxq q).pc = .get) {rxb : B}
    (hmem : rxb ∈ s.hw) :
    (RxState.setRxq { s with hw := s.hw.erase rxb } q
      (RxState.addFree (s.rxq q) rxb)).Inv pool c lost := by
  have hq := h.alloc.queue q
  have hround := hq.round
  have hfree := hq.free
  rw [hpc] at hround
  refine ⟨?_, h.pages.of_eq ?_ ?_ rfl, h.bug⟩
  · have hupdate : (RxState.setRxq { s with hw := s.hw.erase rxb } q
        (RxState.addFree (s.rxq q) rxb)).AllocInv (Function.update c q (c q)) lost := by
      refine h.alloc.update rfl ?_ rfl ?_ ?_ h.alloc.inner
      · refine ⟨hq.le, hround, ?_, by simp [RxState.addFree, RxPc.unposted],
          by simp [RxState.addFree], by simp [RxState.addFree], ?_, by simp [RxState.addFree]⟩
        · simp [RxState.addFree, hfree]
        · exact fun hemergency => ⟨(hq.emergency hemergency).1, rfl, by simp [RxState.addFree]⟩
      · rw [hpc]
        rfl
      · rw [hpc]
        rfl
    rwa [Function.update_eq_self] at hupdate
  · have htotal : total (fun x => (x.rxUsed : Multiset B))
        (Function.update s.rxq q (RxState.addFree (s.rxq q) rxb)) =
          total (fun x => (x.rxUsed : Multiset B)) s.rxq := total_update_of_eq rfl
    simp only [bare, RxState.setRxq]
    rw [htotal]
  · have htotal : total (fun x => (x.rxFree : Multiset B))
        (Function.update s.rxq q (RxState.addFree (s.rxq q) rxb)) =
          total (fun x => (x.rxFree : Multiset B)) s.rxq + {rxb} :=
      total_update_of_add (by rw [RxState.addFree, ← Multiset.coe_add, Multiset.coe_singleton])
    simp only [filled, RxState.setRxq]
    rw [htotal, coe_hw_eq hmem]
    abel

omit [DecidableEq B] in
/-- `iwl_pcie_rx_reuse_rbd`: in emergency mode the buffer is not counted, and else a request is due
for the second of every eight. -/
theorem iwlPcieRxReuseRbd_cases (x : Rxq B) (rxb : B) :
    (x.emergency = true ∧
      iwlPcieRxReuseRbd x rxb = { x with rxUsed := x.rxUsed ++ [rxb], pc := .claim }) ∨
    (x.emergency = false ∧ (x.usedCount + 1) % 8 = 2 ∧ iwlPcieRxReuseRbd x rxb =
      { x with rxUsed := x.rxUsed ++ [rxb], usedCount := x.usedCount + 1, pc := .post }) ∨
    (x.emergency = false ∧ (x.usedCount + 1) % 8 ≠ 2 ∧ iwlPcieRxReuseRbd x rxb =
      { x with rxUsed := x.rxUsed ++ [rxb], usedCount := x.usedCount + 1, pc := .claim }) := by
  cases hemergency : x.emergency with
  | true => exact .inl ⟨rfl, by simp [iwlPcieRxReuseRbd, hemergency]⟩
  | false =>
    rcases eq_or_ne ((x.usedCount + 1) % 8) 2 with hdue | hdue
    · exact .inr (.inl ⟨rfl, hdue, by
        simp [iwlPcieRxReuseRbd, hemergency, rxClaimReqAlloc, rxPostReqAlloc, hdue]⟩)
    · exact .inr (.inr ⟨rfl, hdue, by
        simp [iwlPcieRxReuseRbd, hemergency, rxClaimReqAlloc, rxPostReqAlloc, hdue]⟩)

/-- A buffer whose page is gone comes to the used ones. -/
theorem Inv.use (h : s.Inv pool c lost) (hpool : pool.Nodup) {rxb : B} (hmem : rxb ∈ s.hw) {d : ℕ}
    (hq : QueueInv x d) (hused : x.rxUsed = (s.rxq q).rxUsed ++ [rxb])
    (hfree : x.rxFree = (s.rxq q).rxFree)
    (hcount : d + (s.rxq q).usedCount = c q + x.usedCount)
    (htaking : x.pc.taking = (s.rxq q).pc.taking)
    (hasked : x.pc.unposted + (s.rxq q).asked = (s.rxq q).pc.unposted + x.asked) :
    Inv pool { RxState.setRxq { s with hw := s.hw.erase rxb } q x with
      page := Function.update s.page rxb false } (Function.update c q d) lost := by
  refine ⟨h.alloc.update rfl hq ?_ ?_ ?_ h.alloc.inner, h.pages.spill (b := rxb) hpool ?_ ?_ rfl,
    h.bug⟩
  · simp only [RxState.setRxq]
    omega
  · rw [htaking]
    rfl
  · simp only [RxState.setRxq]
    omega
  · have htotal : total (fun x => (x.rxUsed : Multiset B)) (Function.update s.rxq q x) =
        total (fun x => (x.rxUsed : Multiset B)) s.rxq + {rxb} :=
      total_update_of_add (by rw [hused, ← Multiset.coe_add, Multiset.coe_singleton])
    simp only [bare, RxState.setRxq]
    rw [htotal, ← Multiset.singleton_add]
    abel
  · simp only [filled, RxState.setRxq]
    rw [total_update_of_eq (by rw [hfree]), coe_hw_eq hmem, ← Multiset.singleton_add]
    abel

/-- A buffer whose page is gone, in emergency mode or not. -/
theorem Inv.reuseRbd (h : s.Inv pool c lost) (hpool : pool.Nodup) (hpc : (s.rxq q).pc = .get)
    {rxb : B} (hmem : rxb ∈ s.hw) :
    ∃ d, (Tidy (s.rxq q) (c q) → Tidy (iwlPcieRxReuseRbd (s.rxq q) rxb) d) ∧
      Inv pool { RxState.setRxq { s with hw := s.hw.erase rxb } q
        (iwlPcieRxReuseRbd (s.rxq q) rxb) with page := Function.update s.page rxb false }
      (Function.update c q d) lost := by
  have hq := h.alloc.queue q
  have hround := hq.round
  have hle := hq.le
  simp only [Rxq.asked, hpc, RxPc.unposted] at hround
  have hcounted : (s.rxq q).emergency = false → Tidy (s.rxq q) (c q) →
      ((s.rxq q).rxUsed ++ [rxb]).length = c q + 1 := fun hnormal htidy => by
    have := htidy (by simp [hpc]) (.inl hnormal)
    rw [List.length_append, this, List.length_singleton]
  rcases iwlPcieRxReuseRbd_cases (s.rxq q) rxb with
    ⟨hemergency, heq⟩ | ⟨hnormal, hdue, heq⟩ | ⟨hnormal, hdue, heq⟩
  · rw [heq]
    refine ⟨c q, fun _ _ hcase => ?_, h.use hpool hmem
      ⟨?_, hround, hq.free, by simp [RxPc.unposted], by simp, by simp,
      fun _ => ⟨(hq.emergency hemergency).1, rfl, by simp⟩, by simp⟩ rfl rfl rfl (by rw [hpc]; rfl)
      (by rw [hpc]; rfl)⟩
    · simp [hemergency] at hcase
    · simp only [List.length_append]
      omega
  · rw [heq]
    refine ⟨c q + 1, fun htidy _ _ => hcounted hnormal htidy, h.use hpool hmem
      ⟨?_, ?_, hq.free, fun _ => hdue, by simp, by simp, ?_, by simp⟩
      rfl rfl ?_ (by rw [hpc]; rfl) ?_⟩
    · simp only [List.length_append, List.length_singleton]
      omega
    · simp only [Rxq.asked, RxPc.unposted]
      omega
    · exact fun htrue => absurd (hnormal.symm.trans htrue) Bool.false_ne_true
    · dsimp only
      omega
    · simp only [Rxq.asked, RxPc.unposted, hpc]
      omega
  · rw [heq]
    refine ⟨c q + 1, fun htidy _ _ => hcounted hnormal htidy, h.use hpool hmem
      ⟨?_, ?_, hq.free, by simp [RxPc.unposted], by simp, by simp, ?_,
      by simp⟩ rfl rfl ?_ (by rw [hpc]; rfl) ?_⟩
    · simp only [List.length_append, List.length_singleton]
      omega
    · simp only [Rxq.asked, RxPc.unposted]
      omega
    · exact fun htrue => absurd (hnormal.symm.trans htrue) Bool.false_ne_true
    · dsimp only
      omega
    · simp only [Rxq.asked, RxPc.unposted, hpc]
      omega

omit [DecidableEq B] in
/-- A queue posts a request. -/
theorem Inv.inc (h : s.Inv pool c lost) (hpc : (s.rxq q).pc = .inc) :
    Inv pool { s.setRxq q { s.rxq q with pc := .claim } with
      rba.reqPending := s.rba.reqPending + 1 } c lost := by
  have hq := h.alloc.queue q
  have hround := hq.round
  have hdue := hq.post (by rw [hpc]; rfl)
  have hzero := hq.inc hpc
  have hnormal : (s.rxq q).emergency ≠ true := fun hemergency => by
    have := (hq.emergency hemergency).2.1
    rw [hpc] at this
    exact absurd this (by simp [RxPc.unposted])
  have hinner := h.alloc.inner
  simp only [Rxq.asked, hpc, RxPc.unposted] at hround
  refine ⟨?_, h.pages.of_eq ?_ ?_ rfl, h.bug⟩
  · have hupdate : AllocInv { s.setRxq q { s.rxq q with pc := .claim } with
        rba.reqPending := s.rba.reqPending + 1 } (Function.update c q (c q)) lost := by
      refine h.alloc.update rfl ?_ rfl ?_ ?_ ?_
      · refine ⟨hq.le, ?_, hq.free, by simp [RxPc.unposted], by simp, by simp, ?_, by simp⟩
        · simp only [Rxq.asked, RxPc.unposted]
          omega
        · exact fun hemergency => absurd hemergency hnormal
      · rw [hpc]
        rfl
      · simp only [RxState.setRxq, hpc, RxPc.unposted, RxPc.taking, Rxq.asked]
        omega
      · simp only [RbAllocator.Local, RxState.setRxq] at hinner ⊢
        cases hrba : s.rba.pc <;> simp only [hrba] at hinner ⊢
        case idle => exact hinner
        case swap => exact ⟨hinner.1, hinner.2.1, by omega⟩
        case alloc => exact ⟨hinner.1, hinner.2.1, hinner.2.2.1, by omega, hinner.2.2.2.2⟩
        case reread => exact hinner
        case splice => exact ⟨hinner.1, by omega⟩
        case ready => exact ⟨hinner.1, by omega, hinner.2.2⟩
    rwa [Function.update_eq_self] at hupdate
  · have htotal : total (fun x => (x.rxUsed : Multiset B))
        (Function.update s.rxq q { s.rxq q with pc := .claim }) =
          total (fun x => (x.rxUsed : Multiset B)) s.rxq := total_update_of_eq rfl
    simp only [bare, RxState.setRxq]
    rw [htotal]
  · have htotal : total (fun x => (x.rxFree : Multiset B))
        (Function.update s.rxq q { s.rxq q with pc := .claim }) =
          total (fun x => (x.rxFree : Multiset B)) s.rxq := total_update_of_eq rfl
    simp only [filled, RxState.setRxq]
    rw [htotal]

omit [DecidableEq B] in
/-- A queue claims a request that is ready. -/
theorem Inv.claim (h : s.Inv pool c lost) (hpc : (s.rxq q).pc = .claim)
    (hused : rxClaimReqAlloc ≤ (s.rxq q).usedCount) (hready : 0 < s.rba.reqReady) :
    Inv pool { s.setRxq q { s.rxq q with pc := .take } with
      rba.reqReady := s.rba.reqReady - 1 } c lost := by
  have hq := h.alloc.queue q
  have hround := hq.round
  rw [hpc] at hround
  refine ⟨?_, h.pages.of_eq ?_ ?_ rfl, h.bug⟩
  · have hupdate : AllocInv { s.setRxq q { s.rxq q with pc := .take } with
        rba.reqReady := s.rba.reqReady - 1 } (Function.update c q (c q)) lost := by
      refine h.alloc.update rfl ?_ rfl ?_ ?_ h.alloc.inner
      · exact ⟨hq.le, hround, hq.free, by simp [RxPc.unposted], by simp, fun _ => hused,
          fun hemergency => ⟨(hq.emergency hemergency).1, rfl, by simp⟩, by simp⟩
      · simp only [RxState.setRxq, hpc, RxPc.taking]
        omega
      · simp only [RxState.setRxq, hpc, RxPc.taking, RxPc.unposted, Rxq.asked]
        omega
    rwa [Function.update_eq_self] at hupdate
  · have htotal : total (fun x => (x.rxUsed : Multiset B))
        (Function.update s.rxq q { s.rxq q with pc := .take }) =
          total (fun x => (x.rxUsed : Multiset B)) s.rxq := total_update_of_eq rfl
    simp only [bare, RxState.setRxq]
    rw [htotal]
  · have htotal : total (fun x => (x.rxFree : Multiset B))
        (Function.update s.rxq q { s.rxq q with pc := .take }) =
          total (fun x => (x.rxFree : Multiset B)) s.rxq := total_update_of_eq rfl
    simp only [filled, RxState.setRxq]
    rw [htotal]

omit [DecidableEq B] in
/-- **A claimed request has its eight buffers**, which go to the queue. -/
theorem Inv.allocatorGet (h : s.Inv pool c lost) (hpc : (s.rxq q).pc = .take) :
    (s.iwlPcieRxAllocatorGet q (s.rxq q)).Inv pool c lost := by
  have hq := h.alloc.queue q
  have hround := hq.round
  have hused := hq.take hpc
  have hserved := h.alloc.served
  have htaking : 1 ≤ total (fun x : Rxq B => x.pc.taking) s.rxq := by
    have hle : (s.rxq q).pc.taking ≤ total (fun x : Rxq B => x.pc.taking) s.rxq :=
      Finset.single_le_sum (f := fun q => (s.rxq q).pc.taking) (fun _ _ => Nat.zero_le _)
        (Finset.mem_univ q)
    rwa [hpc] at hle
  have hlen : ¬s.rba.rbdAllocated.length < rxClaimReqAlloc := by
    simp only [rxClaimReqAlloc]
    omega
  rw [iwlPcieRxAllocatorGet, if_neg hlen]
  simp only [Rxq.asked, hpc, RxPc.unposted] at hround
  simp only [rxClaimReqAlloc] at hlen ⊢
  refine ⟨?_, h.pages.of_eq ?_ ?_ rfl, h.bug⟩
  · rw [show c = Function.update c q (c q) from (Function.update_eq_self _ _).symm]
    refine h.alloc.update rfl ?_ ?_ ?_ ?_ h.alloc.inner
    · refine ⟨hq.le, ?_, ?_, by simp [RxPc.unposted], by simp, by simp,
        fun hemergency => ⟨(hq.emergency hemergency).1, rfl, by simp⟩, by simp⟩
      · simp only [Rxq.asked, RxPc.unposted]
        omega
      · simp only [List.length_append, List.length_reverse, List.length_take, hq.free]
        omega
    · simp only [RxState.setRxq, RbAllocator.owned, List.length_drop]
      omega
    · simp only [RxState.setRxq, hpc, RxPc.taking, List.length_drop]
      omega
    · simp only [RxState.setRxq, hpc, RxPc.taking, RxPc.unposted, Rxq.asked]
      omega
  · have htotal : total (fun x => (x.rxUsed : Multiset B)) (Function.update s.rxq q
        { s.rxq q with
          rxFree := (s.rba.rbdAllocated.take 8).reverse ++ (s.rxq q).rxFree
          freeCount := (s.rxq q).freeCount + 8
          usedCount := (s.rxq q).usedCount - 8
          pc := .settle }) = total (fun x => (x.rxUsed : Multiset B)) s.rxq :=
      total_update_of_eq rfl
    simp only [bare, RxState.setRxq]
    rw [htotal]
  · have htotal : total (fun x => (x.rxFree : Multiset B)) (Function.update s.rxq q
        { s.rxq q with
          rxFree := (s.rba.rbdAllocated.take 8).reverse ++ (s.rxq q).rxFree
          freeCount := (s.rxq q).freeCount + 8
          usedCount := (s.rxq q).usedCount - 8
          pc := .settle }) =
        total (fun x => (x.rxFree : Multiset B)) s.rxq + ↑(s.rba.rbdAllocated.take 8) := by
      refine total_update_of_add ?_
      rw [← Multiset.coe_add, Multiset.coe_reverse, add_comm]
    have hsplit : (s.rba.rbdAllocated : Multiset B) =
        ↑(s.rba.rbdAllocated.take 8) + ↑(s.rba.rbdAllocated.drop 8) := by
      rw [Multiset.coe_add, List.take_append_drop]
    simp only [filled, RxState.setRxq]
    rw [htotal, hsplit]
    abel

/-- A buffer of the used ones gets a page. -/
theorem Inv.allocRbs (h : s.Inv pool c lost) (hpool : pool.Nodup) (hpc : (s.rxq q).pc = .refill)
    (page mapped : Bool) : (s.iwlPcieRxqAllocRbs q (s.rxq q) page mapped).Inv pool c lost := by
  have hq := h.alloc.queue q
  have hround := hq.round
  have hzero := hq.refill hpc
  have hfree := hq.free
  rw [hpc] at hround
  have hstop : (s.setRxq q { s.rxq q with pc := .restock }).Inv pool c lost := by
    refine h.setRxq ⟨hq.le, hround, hfree, by simp [RxPc.unposted], by simp, by simp,
      fun hemergency => ⟨(hq.emergency hemergency).1, rfl, by simp⟩, by simp⟩ rfl rfl rfl ?_ ?_
    · rw [hpc]
      rfl
    · rw [hpc]
      rfl
  unfold iwlPcieRxqAllocRbs
  split
  · exact hstop
  · rename_i rxb rest hused
    have hmem : rxb ∈ s.bare := by
      have hsub : ((s.rxq q).rxUsed : Multiset B) ≤
          total (fun x => (x.rxUsed : Multiset B)) s.rxq :=
        Finset.single_le_sum (f := fun q => ((s.rxq q).rxUsed : Multiset B))
          (fun _ _ => Multiset.zero_le _) (Finset.mem_univ q)
      refine Multiset.mem_add.2 (.inl (Multiset.mem_add.2 (.inl (Multiset.mem_of_le hsub ?_))))
      rw [hused]
      exact List.mem_cons_self
    have hpage := h.pages.bare_page rxb hmem
    split
    · exact hstop
    · rw [hpage, if_neg Bool.false_ne_true]
      split
      · exact hstop
      · refine ⟨?_, h.pages.fill (b := rxb) hpool ?_ ?_ rfl, h.bug⟩
        · rw [show c = Function.update c q (c q) from (Function.update_eq_self _ _).symm]
          refine h.alloc.update rfl ?_ rfl ?_ ?_ h.alloc.inner
          · refine ⟨by omega, ?_, ?_, ?_, ?_, ?_, ?_, fun _ => hzero⟩
            · simpa only [hpc, Rxq.asked] using hround
            · simp only [List.length_append, List.length_singleton, hfree]
            · simp [hpc, RxPc.unposted]
            · simp [hpc]
            · simp [hpc]
            · exact fun hemergency => ⟨hzero, by rw [hpc]; rfl, by simp [hpc]⟩
          · rfl
          · rfl
        · have htotal : total (fun x => (x.rxUsed : Multiset B)) (Function.update s.rxq q
              { s.rxq q with
                rxUsed := rest
                rxFree := (s.rxq q).rxFree ++ [rxb]
                freeCount := (s.rxq q).freeCount + 1 }) + {rxb} =
              total (fun x => (x.rxUsed : Multiset B)) s.rxq := by
            refine total_update_of_sub ?_
            rw [hused, ← Multiset.cons_coe, ← Multiset.singleton_add, add_comm]
          simp only [bare, RxState.setRxq]
          rw [← htotal, ← Multiset.singleton_add]
          abel
        · have htotal : total (fun x => (x.rxFree : Multiset B)) (Function.update s.rxq q
              { s.rxq q with
                rxUsed := rest
                rxFree := (s.rxq q).rxFree ++ [rxb]
                freeCount := (s.rxq q).freeCount + 1 }) =
              total (fun x => (x.rxFree : Multiset B)) s.rxq + {rxb} :=
            total_update_of_add (by rw [← Multiset.coe_add, Multiset.coe_singleton])
          simp only [filled, RxState.setRxq]
          rw [htotal, ← Multiset.singleton_add]
          abel

omit [DecidableEq B] in
/-- The free buffers go to the hardware. -/
theorem Inv.restock (h : s.Inv pool c lost) (hpc : (s.rxq q).pc = .restock) (deviceEnabled : Bool) :
    (s.iwlPcieRxmqRestock q (s.rxq q) deviceEnabled).Inv pool c lost := by
  have hq := h.alloc.queue q
  have hround := hq.round
  have hfree := hq.free
  rw [hpc] at hround
  unfold iwlPcieRxmqRestock
  split
  · refine h.setRxq ⟨hq.le, hround, hfree, by simp [RxPc.unposted], by simp, by simp,
      fun hemergency => ⟨(hq.emergency hemergency).1, rfl, by simp⟩, by simp⟩ rfl rfl rfl ?_ ?_
    · rw [hpc]
      rfl
    · rw [hpc]
      rfl
  · rw [if_neg (by omega), hfree, List.drop_length, List.take_length]
    refine ⟨?_, h.pages.of_eq ?_ ?_ rfl, h.bug⟩
    · rw [show c = Function.update c q (c q) from (Function.update_eq_self _ _).symm]
      refine h.alloc.update rfl ?_ rfl ?_ ?_ h.alloc.inner
      · exact ⟨hq.le, hround, rfl, by simp [RxPc.unposted], by simp, by simp,
          fun hemergency => ⟨(hq.emergency hemergency).1, rfl, by simp⟩, by simp⟩
      · rw [hpc]
        rfl
      · rw [hpc]
        rfl
    · have htotal : total (fun x => (x.rxUsed : Multiset B)) (Function.update s.rxq q
          { s.rxq q with rxFree := [], freeCount := 0, pc := .idle }) =
            total (fun x => (x.rxUsed : Multiset B)) s.rxq := total_update_of_eq rfl
      simp only [bare, RxState.setRxq]
      rw [htotal]
    · have htotal : total (fun x => (x.rxFree : Multiset B)) (Function.update s.rxq q
          { s.rxq q with rxFree := [], freeCount := 0, pc := .idle }) + ↑(s.rxq q).rxFree =
            total (fun x => (x.rxFree : Multiset B)) s.rxq :=
        total_update_of_sub (by rw [Multiset.coe_nil, zero_add])
      simp only [filled, RxState.setRxq]
      rw [← htotal, ← Multiset.coe_add]
      abel

/-- What a step of a queue keeps: the invariant, and, if pages do not run out, that all used buffers
are counted. -/
def Keeps (s : RxState ι B) (c : ι → ℕ) (lost : ℕ) (pool : Multiset B) (paged : Prop)
    (s' : RxState ι B) : Prop :=
  ∃ c' lost', s'.Inv pool c' lost' ∧ (paged → (∀ q, Tidy (s.rxq q) (c q)) →
    lost' = lost ∧ ∀ q, Tidy (s'.rxq q) (c' q))

variable {paged : Prop}

omit [DecidableEq B] in
theorem Inv.keeps (h : s'.Inv pool c lost) (hrxq : s'.rxq = Function.update s.rxq q x)
    (htidy : paged → Tidy (s.rxq q) (c q) → Tidy x (c q)) : s.Keeps c lost pool paged s' := by
  refine ⟨c, lost, h, fun hpaged hall => ⟨rfl, fun q' => ?_⟩⟩
  rw [hrxq]
  by_cases hq' : q' = q
  · subst hq'
    rw [Function.update_self]
    exact htidy hpaged (hall q')
  · rw [Function.update_of_ne hq']
    exact hall q'

omit [DecidableEq B] in
theorem Inv.keeps_update {d lost' : ℕ} (h : s'.Inv pool (Function.update c q d) lost')
    (hrxq : s'.rxq = Function.update s.rxq q x)
    (htidy : paged → Tidy (s.rxq q) (c q) → lost' = lost ∧ Tidy x d) :
    s.Keeps c lost pool paged s' := by
  refine ⟨_, lost', h, fun hpaged hall => ⟨(htidy hpaged (hall q)).1, fun q' => ?_⟩⟩
  rw [hrxq]
  by_cases hq' : q' = q
  · subst hq'
    rw [Function.update_self, Function.update_self]
    exact (htidy hpaged (hall q')).2
  · rw [Function.update_of_ne hq', Function.update_of_ne hq']
    exact hall q'

omit [DecidableEq B] in
/-- The top of the loop. -/
theorem Inv.poll (h : s.Inv pool c lost) (hpc : (s.rxq q).pc = .idle) (rbPendingAlloc : ℕ) :
    s.Keeps c lost pool paged (s.setRxq q { s.rxq q with
      rbPendingAlloc := rbPendingAlloc
      pc := if s.queueSize / 2 ≤ rbPendingAlloc ∧ (s.rxq q).emergency = false then .enter
        else .get }) := by
  have hq := h.alloc.queue q
  have hround := hq.round
  rw [hpc] at hround
  split
  · rename_i henter
    have hinv : (s.setRxq q { s.rxq q with
        rbPendingAlloc := rbPendingAlloc, pc := .enter }).Inv pool c lost :=
      h.setRxq ⟨hq.le, hround, hq.free, by simp [RxPc.unposted], by simp, by simp,
        fun hemergency => absurd (henter.2.symm.trans hemergency) Bool.false_ne_true, by simp⟩ rfl
        rfl rfl (by rw [hpc]; rfl) (by rw [hpc]; rfl)
    exact hinv.keeps rfl fun _ htidy _ _ => htidy (by simp [hpc]) (.inl henter.2)
  · have hinv : (s.setRxq q { s.rxq q with
        rbPendingAlloc := rbPendingAlloc, pc := .get }).Inv pool c lost :=
      h.setRxq ⟨hq.le, hround, hq.free, by simp [RxPc.unposted], by simp, by simp,
        fun hemergency => ⟨(hq.emergency hemergency).1, rfl, by simp⟩, by simp⟩ rfl rfl rfl
        (by rw [hpc]; rfl) (by rw [hpc]; rfl)
    refine hinv.keeps rfl fun _ htidy _ hcase => ?_
    exact htidy (by simp [hpc]) (hcase.imp id fun hcount => ⟨hcount.1, by simp [hpc]⟩)

omit [DecidableEq B] in
/-- The end of a turn. -/
theorem Inv.settle (h : s.Inv pool c lost) (hpc : (s.rxq q).pc = .settle) :
    s.Keeps c lost pool paged (s.settle q (s.rxq q)) := by
  have hq := h.alloc.queue q
  have hround := hq.round
  have hle := hq.le
  rw [hpc] at hround
  have hturn : ∀ (pc : RxPc) (emergency : Bool) (count : ℕ),
      (emergency = true → (s.rxq q).emergency = true) → pc.unposted = 0 → pc.taking = 0 →
      pc ≠ .inc → pc ≠ .take → pc ≠ .enter → (pc = .refill → c q = 0) →
      (s.setRxq q { s.rxq q with pc := pc, emergency := emergency, count := count }).Inv
        pool c lost := by
    intro pc emergency count hemergency hunposted htaking hinc htake henter hrefill
    refine h.setRxq ⟨hq.le, ?_, hq.free, fun h1 => ?_, fun heq => absurd heq hinc,
      fun heq => absurd heq htake,
      fun htrue => ⟨(hq.emergency (hemergency htrue)).1, hunposted, henter⟩, hrefill⟩
        rfl rfl rfl ?_ ?_
    · simp only [hunposted]
      exact hround
    · dsimp only at h1
      omega
    · rw [hpc]
      exact htaking
    · rw [hpc]
      exact hunposted
  unfold RxState.settle
  split
  · rename_i hmove
    have hinv : (s.iwlPcieRxMoveToAllocator q { s.rxq q with pc := .idle }).Inv pool
        (Function.update c q 0) (lost + ((s.rxq q).rxUsed.length - c q)) := by
      refine h.moveToAllocator rfl ⟨by simp, ?_, hq.free, by simp [RxPc.unposted],
        by simp, by simp, fun _ => ⟨rfl, rfl, by simp⟩, by simp⟩ rfl rfl ?_ ?_
      · simp only [Rxq.asked, RxPc.unposted] at hround ⊢
        omega
      · rw [hpc]
        rfl
      · rw [hpc]
        rfl
    refine hinv.keeps_update rfl fun _ htidy => ⟨?_, fun _ _ => rfl⟩
    have := htidy (by simp [hpc]) (.inl hmove.2)
    omega
  · split
    · rename_i hemergency
      have hzero := (hq.emergency hemergency).1
      split
      · refine (hturn _ _ _ (fun _ => hemergency) rfl rfl (by simp) (by simp) (by simp)
          fun _ => hzero).keeps rfl fun _ _ hrefill => ?_
        exact absurd rfl hrefill
      · refine (hturn .idle _ _ id rfl rfl (by simp) (by simp) (by simp)
          fun _ => hzero).keeps rfl fun _ _ _ hcase => ?_
        simp [hemergency] at hcase
    · rename_i hnormal
      refine (hturn .idle _ _ id rfl rfl (by simp) (by simp) (by simp) (by simp)).keeps rfl
        fun _ htidy _ _ => ?_
      exact htidy (by simp [hpc]) (.inl (by simpa using hnormal))

/-- A turn of `iwl_pcie_rxq_alloc_rbs`. -/
theorem Inv.refill (h : s.Inv pool c lost) (hpool : pool.Nodup) (hpc : (s.rxq q).pc = .refill)
    {page mapped : Bool} : s.Keeps c lost pool (page = true ∧ mapped = true)
      (s.iwlPcieRxqAllocRbs q (s.rxq q) page mapped) := by
  have hzero := (h.alloc.queue q).refill hpc
  have hinv := h.allocRbs hpool hpc page mapped
  rcases hused : (s.rxq q).rxUsed with - | ⟨rxb, rest⟩
  · simp only [iwlPcieRxqAllocRbs, hused] at hinv ⊢
    exact hinv.keeps rfl fun _ _ _ _ => hzero.symm
  · simp only [iwlPcieRxqAllocRbs, hused] at hinv ⊢
    cases page with
    | false => exact hinv.keeps rfl fun hpaged => absurd hpaged.1 Bool.false_ne_true
    | true =>
      simp only [Bool.not_true, Bool.false_eq_true, if_false] at hinv ⊢
      split at hinv
      · exact absurd hinv.bug (by simp)
      · rename_i hbare
        rw [if_neg hbare]
        cases mapped with
        | false => exact hinv.keeps rfl fun hpaged => absurd hpaged.2 Bool.false_ne_true
        | true => exact hinv.keeps rfl fun _ _ hrefill => absurd hpc hrefill

omit [DecidableEq B] [DecidableEq ι] [Fintype ι] in
theorem tidy_leave {c : ℕ} (hpc : x.pc = .idle ∨ x.pc = .get) (h : Tidy x c) :
    Tidy (RxState.leave x) c := by
  have hne : x.pc ≠ .refill ∧ x.pc ≠ .claim ∧ x.pc ≠ .take ∧ x.pc ≠ .settle := by
    rcases hpc with hpc | hpc <;> simp [hpc]
  intro hrefill _
  refine h hne.1 ?_
  by_contra hcase
  simp only [not_or, Bool.not_eq_false, not_and, ne_eq] at hcase
  refine hrefill (if_pos ⟨hcase.1, fun hcount => ?_⟩)
  exact hcase.2 hcount hne.2.1 hne.2.2.1 hne.2.2.2

/-- The hardware returns a buffer. -/
theorem Inv.get (h : s.Inv pool c lost) (hpool : pool.Nodup) (hpc : (s.rxq q).pc = .get)
    {rxb : Option B} {join gone : Bool}
    (hstep : (match rxb with
      | none => some (s.setRxq q (RxState.leave (s.rxq q)))
      | some rxb => some (s.iwlPcieRxHandleRb q (s.rxq q) rxb join gone)) = some s') :
    s.Keeps c lost pool paged s' := by
  cases rxb with
  | none =>
    obtain rfl := Option.some.inj hstep
    exact (h.leave (.inr hpc)).keeps rfl fun _ htidy => tidy_leave (.inr hpc) htidy
  | some rxb =>
    obtain rfl := Option.some.inj hstep
    unfold iwlPcieRxHandleRb
    split
    · rename_i hmem
      have hfree : ∀ h' : (RxState.setRxq { s with hw := s.hw.erase rxb } q
          (RxState.addFree (s.rxq q) rxb)).Inv pool c lost,
          s.Keeps c lost pool paged (RxState.setRxq { s with hw := s.hw.erase rxb } q
            (RxState.addFree (s.rxq q) rxb)) := fun h' => by
        refine h'.keeps rfl fun _ htidy _ hcase => ?_
        refine htidy (by simp [hpc]) (.inl (hcase.resolve_right ?_))
        simp [RxState.addFree]
      dsimp only
      split
      · exact hfree (h.addFree hpc hmem)
      · split
        · obtain ⟨d, htidy, hinv⟩ := h.reuseRbd hpool hpc hmem
          exact hinv.keeps_update rfl fun _ hold => ⟨rfl, htidy hold⟩
        · exact hfree (h.addFree hpc hmem)
    · exact (h.leave (.inr hpc)).keeps rfl fun _ htidy => tidy_leave (.inr hpc) htidy

/-- **A step of a queue** keeps the invariant. -/
theorem Inv.rx (h : s.Inv pool c lost) (hpool : pool.Nodup) {a : RxStep B}
    (hstep : s.rx q a = some s') :
    s.Keeps c lost pool a.Paged s' := by
  have hq := h.alloc.queue q
  have hround := hq.round
  have hle := hq.le
  cases a with
  | poll =>
    simp only [RxState.rx, Option.ite_none_right_eq_some, Option.some.injEq] at hstep
    obtain ⟨hpc, rfl⟩ := hstep
    exact h.poll hpc _
  | enter =>
    simp only [RxState.rx, Option.ite_none_right_eq_some, Option.some.injEq] at hstep
    obtain ⟨hpc, rfl⟩ := hstep
    simp only [Rxq.asked, hpc, RxPc.unposted] at hround
    have hnormal : (s.rxq q).emergency = false := by
      by_contra hemergency
      exact (hq.emergency (by simpa using hemergency)).2.2 hpc
    have hinv : (s.iwlPcieRxMoveToAllocator q { s.rxq q with
        emergency := true, pc := .get }).Inv pool (Function.update c q 0)
          (lost + ((s.rxq q).rxUsed.length - c q)) := by
      refine h.moveToAllocator rfl ⟨by simp, ?_, hq.free, by simp [RxPc.unposted], by simp, by simp,
        fun _ => ⟨rfl, rfl, by simp⟩, by simp⟩ rfl rfl (by rw [hpc]; rfl) (by rw [hpc]; rfl)
      simp only [Rxq.asked, RxPc.unposted]
      omega
    refine hinv.keeps_update rfl fun _ htidy => ⟨?_, fun _ _ => rfl⟩
    have := htidy (by simp [hpc]) (.inl hnormal)
    omega
  | get rxb join gone =>
    simp only [RxState.rx, Option.ite_none_right_eq_some] at hstep
    obtain ⟨hpc, hstep⟩ := hstep
    exact h.get hpool hpc hstep
  | post =>
    simp only [RxState.rx, Option.ite_none_right_eq_some, Option.some.injEq] at hstep
    obtain ⟨hpc, rfl⟩ := hstep
    have hdue := hq.post (by rw [hpc]; rfl)
    have hnormal : (s.rxq q).emergency = false := by
      by_contra hemergency
      have := (hq.emergency (by simpa using hemergency)).2.1
      rw [hpc] at this
      exact absurd this (by simp [RxPc.unposted])
    simp only [Rxq.asked, hpc, RxPc.unposted] at hround
    have hinv : (s.iwlPcieRxMoveToAllocator q { s.rxq q with pc := .inc }).Inv pool
        (Function.update c q 0) (lost + ((s.rxq q).rxUsed.length - c q)) := by
      refine h.moveToAllocator rfl ⟨by simp, ?_, hq.free, fun _ => hdue, fun _ => rfl, by simp, ?_,
        fun _ => rfl⟩ rfl rfl (by rw [hpc]; rfl) (by rw [hpc]; rfl)
      · simp only [Rxq.asked, RxPc.unposted]
        omega
      · exact fun hemergency => absurd (hnormal.symm.trans hemergency) Bool.false_ne_true
    refine hinv.keeps_update rfl fun _ htidy => ⟨?_, fun _ _ => rfl⟩
    have := htidy (by simp [hpc]) (.inl hnormal)
    omega
  | inc =>
    simp only [RxState.rx, Option.ite_none_right_eq_some, Option.some.injEq] at hstep
    obtain ⟨hpc, rfl⟩ := hstep
    have hnormal : (s.rxq q).emergency = false := by
      by_contra hemergency
      have := (hq.emergency (by simpa using hemergency)).2.1
      rw [hpc] at this
      exact absurd this (by simp [RxPc.unposted])
    refine (h.inc hpc).keeps rfl fun _ htidy _ _ => ?_
    exact htidy (by simp [hpc]) (.inl hnormal)
  | claim =>
    simp only [RxState.rx, Option.ite_none_right_eq_some] at hstep
    obtain ⟨hpc, hstep⟩ := hstep
    rw [hpc] at hround
    split at hstep
    · rename_i hready
      obtain rfl := Option.some.inj hstep
      refine (h.claim hpc hready.1 hready.2).keeps rfl fun _ htidy _ hcase => ?_
      refine htidy (by simp [hpc]) (.inl (hcase.resolve_right ?_))
      simp
    · obtain rfl := Option.some.inj hstep
      have hinv : (s.setRxq q { s.rxq q with pc := .settle }).Inv pool c lost :=
        h.setRxq ⟨hle, hround, hq.free, by simp [RxPc.unposted], by simp, by simp,
          fun hemergency => ⟨(hq.emergency hemergency).1, rfl, by simp⟩, by simp⟩ rfl rfl rfl
          (by rw [hpc]; rfl) (by rw [hpc]; rfl)
      refine hinv.keeps rfl fun _ htidy _ hcase => ?_
      refine htidy (by simp [hpc]) (.inl (hcase.resolve_right ?_))
      simp
  | take =>
    simp only [RxState.rx, Option.ite_none_right_eq_some, Option.some.injEq] at hstep
    obtain ⟨hpc, rfl⟩ := hstep
    have hinv := h.allocatorGet hpc
    unfold iwlPcieRxAllocatorGet at hinv ⊢
    split at hinv
    · exact absurd hinv.bug (by simp)
    · rename_i hlen
      rw [if_neg hlen]
      refine hinv.keeps rfl fun _ htidy _ hcase => ?_
      refine htidy (by simp [hpc]) (.inl (hcase.resolve_right ?_))
      simp
  | settle =>
    simp only [RxState.rx, Option.ite_none_right_eq_some, Option.some.injEq] at hstep
    obtain ⟨hpc, rfl⟩ := hstep
    exact h.settle hpc
  | exit =>
    simp only [RxState.rx, Option.ite_none_right_eq_some, Option.some.injEq] at hstep
    obtain ⟨hpc, rfl⟩ := hstep
    exact (h.leave (.inl hpc)).keeps rfl fun _ htidy => tidy_leave (.inl hpc) htidy
  | refill page mapped =>
    simp only [RxState.rx, Option.ite_none_right_eq_some, Option.some.injEq] at hstep
    obtain ⟨hpc, rfl⟩ := hstep
    exact h.refill hpool hpc
  | restock deviceEnabled =>
    simp only [RxState.rx, Option.ite_none_right_eq_some, Option.some.injEq] at hstep
    obtain ⟨hpc, rfl⟩ := hstep
    have hinv := h.restock hpc deviceEnabled
    have hlen : ¬(s.rxq q).rxFree.length < (s.rxq q).freeCount := by
      have := hq.free
      omega
    rw [iwlPcieRxmqRestock, if_neg hlen] at hinv ⊢
    cases deviceEnabled with
    | false =>
      refine hinv.keeps rfl fun _ htidy _ hcase => ?_
      exact htidy (by simp [hpc]) (hcase.imp id fun hcount => ⟨hcount.1, by simp [hpc]⟩)
    | true =>
      refine hinv.keeps rfl fun _ htidy _ hcase => ?_
      exact htidy (by simp [hpc]) (hcase.imp id fun hcount => ⟨hcount.1, by simp [hpc]⟩)

/-! ## Steps of the allocator -/

omit [DecidableEq ι] in
/-- **A step of the allocator** keeps the invariant and does not touch the queues. -/
theorem Inv.work (h : s.Inv pool c lost) (hpool : pool.Nodup) {a : AllocStep}
    (hstep : s.work a = some s') : s'.Inv pool c lost ∧ s'.rxq = s.rxq := by
  have halloc := h.alloc
  have hinner := halloc.inner
  have hcredit := halloc.credit
  have hserved := halloc.served
  have hasked := halloc.asked
  have hpool' := halloc.pool
  simp only [RbAllocator.Local] at hinner
  cases a with
  | start =>
    simp only [RxState.work, Option.ite_none_right_eq_some, Option.some.injEq] at hstep
    obtain ⟨hpc, rfl⟩ := hstep
    rw [hpc] at hinner hserved hasked
    exact ⟨⟨⟨halloc.queue, hpool', hserved, hasked, hinner.1, hinner.2, le_rfl⟩,
      h.pages.of_eq rfl rfl rfl, h.bug⟩, rfl⟩
  | swap =>
    simp only [RxState.work] at hstep
    split at hstep
    · rename_i pending hpc
      obtain rfl := Option.some.inj hstep
      rw [hpc] at hinner hserved hasked hcredit
      obtain ⟨hempty, hallocated, hle⟩ := hinner
      simp only [RbAllocator.owned, hempty, hallocated, List.length_nil, AllocPc.between,
        AllocPc.early] at hcredit hpool'
      refine ⟨⟨⟨halloc.queue, ?_, hserved, hasked, ?_⟩, h.pages.of_eq ?_ ?_ rfl, h.bug⟩, rfl⟩
      · simp only [RbAllocator.owned, hallocated, List.length_nil]
        omega
      · refine ⟨by rw [hallocated]; rfl, by omega, fun _ => rfl, hle, ?_⟩
        show 8 * pending ≤ s.rba.rbdEmpty.length + 0
        omega
      · simp only [bare, hempty, Multiset.coe_nil, add_zero]
      · rfl
    · cases hstep
  | alloc page mapped =>
    simp only [RxState.work] at hstep
    split at hstep
    · rename_i pending i hpc
      simp only [Option.ite_none_right_eq_some, Option.some.injEq] at hstep
      obtain ⟨⟨hpending, hi⟩, rfl⟩ := hstep
      rw [hpc] at hinner hserved hasked
      obtain ⟨hlen, hi', hzero, hle, hroom⟩ := hinner
      simp only [rxClaimReqAlloc] at hi
      -- there is a buffer for every page of the request
      rcases hempty : s.rba.localEmpty with - | ⟨rxb, rest⟩
      · rw [hempty, List.length_nil] at hroom
        omega
      · have hmem : rxb ∈ s.bare := by
          refine Multiset.mem_add.2 (.inr ?_)
          rw [hempty]
          exact List.mem_cons_self
        have hpage := h.pages.bare_page rxb hmem
        simp only [allocPage, hempty, hpage, Bool.false_eq_true, if_false]
        split
        · rw [hempty, List.length_cons] at hroom
          simp only [RbAllocator.owned, hempty, List.length_cons] at hpool'
          refine ⟨⟨⟨halloc.queue, ?_, hserved, hasked, ?_⟩, h.pages.fill (b := rxb) hpool ?_ ?_ rfl,
            h.bug⟩, rfl⟩
          · simp only [RbAllocator.owned, List.length_cons]
            omega
          · refine ⟨by rw [List.length_cons, hlen], by omega, fun hnone => absurd hnone hpending,
              hle,
              ?_⟩
            show 8 * pending ≤ rest.length + (i + 1)
            omega
          · simp only [bare, hempty, ← Multiset.cons_coe, ← Multiset.singleton_add]
            abel
          · simp only [filled, ← Multiset.cons_coe, ← Multiset.singleton_add]
            abel
        · exact ⟨h, rfl⟩
    · cases hstep
  | dec =>
    simp only [RxState.work] at hstep
    split at hstep
    · rename_i pending i hpc
      simp only [Option.ite_none_right_eq_some, Option.some.injEq] at hstep
      obtain ⟨⟨hpending, hi⟩, rfl⟩ := hstep
      rw [hpc] at hinner hserved hasked
      obtain ⟨hlen, hi', hzero, hle, hroom⟩ := hinner
      simp only [rxClaimReqAlloc] at hi
      simp only [AllocPc.between] at hasked
      refine ⟨⟨⟨halloc.queue, hpool', ?_, ?_, ?_⟩, h.pages.of_eq rfl rfl rfl, h.bug⟩, rfl⟩
      · dsimp only
        split
        · exact hserved
        · exact hserved
      · dsimp only
        split
        · simp only [AllocPc.between]
          omega
        · simp only [AllocPc.between]
          omega
      · simp only [RbAllocator.Local]
        split
        all_goals rename_i heq; split at heq <;> cases heq <;> omega
    · cases hstep
  | reread =>
    simp only [RxState.work] at hstep
    split at hstep
    · rename_i pending hpc
      obtain rfl := Option.some.inj hstep
      rw [hpc] at hinner hserved hasked
      exact ⟨⟨⟨halloc.queue, hpool', hserved, hasked, hinner, le_rfl⟩, h.pages.of_eq rfl rfl rfl,
        h.bug⟩, rfl⟩
    · cases hstep
  | splice =>
    simp only [RxState.work] at hstep
    split at hstep
    · rename_i pending hpc
      obtain rfl := Option.some.inj hstep
      rw [hpc] at hinner hserved hasked hcredit
      obtain ⟨hlen, hle⟩ := hinner
      simp only [RbAllocator.owned, AllocPc.between, AllocPc.early] at hcredit hserved hpool'
      refine ⟨⟨⟨halloc.queue, ?_, ?_, hasked, ?_⟩, h.pages.of_eq ?_ ?_ rfl, h.bug⟩, rfl⟩
      · simp only [RbAllocator.owned, List.length_append, List.length_nil]
        omega
      · simp only [List.length_append, AllocPc.early]
        omega
      · refine ⟨rfl, hle, ?_⟩
        show 8 * pending ≤ (s.rba.localEmpty ++ s.rba.rbdEmpty).length
        rw [List.length_append]
        omega
      · simp only [bare, ← Multiset.coe_add, Multiset.coe_nil]
        abel
      · simp only [filled, ← Multiset.coe_add, Multiset.coe_nil]
        abel
    · cases hstep
  | ready =>
    simp only [RxState.work] at hstep
    split at hstep
    · rename_i pending hpc
      obtain rfl := Option.some.inj hstep
      rw [hpc] at hinner hserved hasked
      obtain ⟨hallocated, hle, hroom⟩ := hinner
      simp only [AllocPc.between, AllocPc.early] at hserved hasked
      refine ⟨⟨⟨halloc.queue, hpool', ?_, ?_, ?_⟩, h.pages.of_eq rfl rfl rfl, h.bug⟩, rfl⟩
      · simp only [AllocPc.early]
        omega
      · simp only [AllocPc.between]
        omega
      · exact ⟨by rw [hallocated]; rfl, by omega, fun _ => rfl, hle, by simpa using hroom⟩
    · cases hstep
  | finish =>
    simp only [RxState.work] at hstep
    split at hstep
    · rename_i i hpc
      obtain rfl := Option.some.inj hstep
      rw [hpc] at hinner hserved hasked
      obtain ⟨hlen, -, hzero, -, -⟩ := hinner
      obtain rfl := hzero rfl
      simp only [RbAllocator.owned] at hpool'
      refine ⟨⟨⟨halloc.queue, ?_, hserved, hasked, ?_⟩, h.pages.of_eq ?_ rfl rfl, h.bug⟩, rfl⟩
      · simp only [RbAllocator.owned, List.length_append, List.length_nil]
        omega
      · exact ⟨rfl, List.length_eq_zero_iff.1 hlen⟩
      · simp only [bare, ← Multiset.coe_add, Multiset.coe_nil]
        abel
    · cases hstep

end RxState

end Iax.Pcie
