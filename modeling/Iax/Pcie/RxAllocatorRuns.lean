import Iax.Pcie.RxAllocatorInv

/-!
# Runs of the receive queues and their allocator

* `rx_allocator_safe`: no `BUG_ON` is hit and no entry is taken of an empty list, whatever the order
  of the threads' steps; every buffer stays in one place, and the rings do not overflow.
* `rx_allocator_lossless`: unless pages run out, no buffer is lost to the hardware for good.
-/

namespace Iax.Pcie

open RxState

variable {ι B : Type*} [Fintype ι] [DecidableEq ι] [DecidableEq B]

/-- The queue allocates pages itself only when there are some. -/
def RxAction.Paged : RxAction ι B → Prop
  | .rx _ a => a.Paged
  | .work _ => True

namespace RxState

variable {s s' : RxState ι B} {pool : Multiset B} {default : ι} {empty used : List B}

omit [DecidableEq B] in
theorem total_init {M : Type*} [AddCommMonoid M] (g : Rxq B → M)
    (hzero : g ⟨[], [], 0, 0, .idle, false, 0, 0⟩ = 0) (queueSize : ℕ) :
    total g (init queueSize default empty used).rxq =
      g ⟨[], used, 0, 0, .refill, false, 0, 0⟩ := by
  have hupdate := total_update g (fun _ : ι => ⟨[], [], 0, 0, .idle, false, 0, 0⟩) default
    ⟨[], used, 0, 0, .refill, false, 0, 0⟩
  have hconst : total g (fun _ : ι => ⟨[], [], 0, 0, .idle, false, 0, 0⟩) = 0 :=
    Finset.sum_eq_zero fun _ _ => hzero
  rwa [hconst, hzero, add_zero, zero_add] at hupdate

omit [DecidableEq B] in
theorem inv_init (hempty : empty.length = 6 * Fintype.card ι) (queueSize : ℕ) :
    (init queueSize default empty used).Inv ↑(empty ++ used) 0 0 := by
  refine ⟨⟨fun q => ?_, ?_, ?_, ?_, rfl, rfl⟩, ⟨?_, fun _ _ => rfl, fun b hb => ?_⟩, rfl⟩
  · by_cases hq : q = default
    · subst hq
      simp only [init, Function.update_self]
      exact ⟨Nat.zero_le _, by simp [Rxq.asked], rfl, by simp [RxPc.unposted], by simp, by simp,
        by simp, by simp⟩
    · simp only [init, Function.update_of_ne hq]
      exact ⟨Nat.zero_le _, by simp [Rxq.asked], rfl, by simp [RxPc.unposted], by simp, by simp,
        by simp, by simp⟩
  · rw [total_init _ rfl]
    simp [RbAllocator.owned, init, hempty, total]
  · rw [total_init _ rfl]
    rfl
  · rw [total_init _ rfl, total_init _ rfl, total_init _ (by simp [Rxq.asked])]
    simp [init, Rxq.asked, RxPc.taking, RxPc.unposted, AllocPc.between]
  · rw [bare, filled, total_init _ rfl, total_init _ rfl]
    simp [init, add_comm]
  · rw [filled, total_init _ rfl] at hb
    simp [init] at hb

/-- **The step lemma**: the invariant is kept, and so are `lost` and `Tidy` while there are pages.
-/
theorem Inv.step {c : ι → ℕ} {lost : ℕ} (h : s.Inv pool c lost) (hpool : pool.Nodup)
    {a : RxAction ι B} (hstep : rxStep s a = some s') : s.Keeps c lost pool a.Paged s' := by
  simp only [rxStep, h.bug, Bool.false_eq_true, if_false] at hstep
  cases a with
  | rx q a => exact h.rx hpool hstep
  | work a =>
    obtain ⟨hinv, hrxq⟩ := h.work hpool hstep
    refine ⟨c, lost, hinv, fun _ htidy => ⟨rfl, ?_⟩⟩
    rwa [hrxq]

/-! ## What the invariant says of the buffers -/

omit [DecidableEq B] [DecidableEq ι] in
theorem Inv.card_pool {c : ι → ℕ} {lost : ℕ} (h : s.Inv pool c lost) :
    pool.card = total (fun x => x.rxUsed.length) s.rxq + total (fun x => x.rxFree.length) s.rxq +
      s.rba.owned + s.rba.rbdAllocated.length + s.hw.length := by
  rw [← h.pages.pool_eq, bare, filled]
  simp only [total, Multiset.card_add, Multiset.card_sum, Multiset.coe_card, RbAllocator.owned]
  omega

omit [DecidableEq B] [DecidableEq ι] in
/-- The allocator keeps the six buffers for each queue, so the others are all that the rings can
have. -/
theorem Inv.length_hw_le {c : ι → ℕ} {lost : ℕ} (h : s.Inv pool c lost) :
    s.hw.length + 6 * Fintype.card ι ≤ pool.card := by
  have hcard := h.card_pool
  have hpool := h.alloc.pool
  have hcounted : total id c ≤ total (fun x => x.rxUsed.length) s.rxq :=
    Finset.sum_le_sum fun q _ => (h.alloc.queue q).le
  omega

omit [DecidableEq B] [DecidableEq ι] in
/-- Outside the loop and emergency mode every buffer that the hardware lacks is on `rx_free` or
counted. -/
theorem Inv.card_eq {c : ι → ℕ} (h : s.Inv pool c 0) (htidy : ∀ q, Tidy (s.rxq q) (c q))
    (hidle : ∀ q, (s.rxq q).pc = .idle ∧ (s.rxq q).emergency = false) :
    s.hw.length + total Rxq.freeCount s.rxq + total Rxq.usedCount s.rxq + 6 * Fintype.card ι =
      pool.card := by
  have hcard := h.card_pool
  have hpool := h.alloc.pool
  have hcounted : total (fun x => x.rxUsed.length) s.rxq = total id c :=
    Finset.sum_congr rfl fun q _ => htidy q (by simp [(hidle q).1]) (.inl (hidle q).2)
  have hfree : total Rxq.freeCount s.rxq = total (fun x => x.rxFree.length) s.rxq :=
    total_congr fun q => (h.alloc.queue q).free
  omega

omit [DecidableEq B] [DecidableEq ι] in
/-- With no request under way, at most one used buffer of each queue is counted. -/
theorem Inv.usedCount_le {c : ι → ℕ} {lost : ℕ} (h : s.Inv pool c lost)
    (hpending : s.rba.reqPending = 0) (hready : s.rba.reqReady = 0) (hrba : s.rba.pc = .idle)
    (hidle : ∀ q, (s.rxq q).pc = .idle) (q : ι) : (s.rxq q).usedCount ≤ 1 := by
  have hasked := h.alloc.asked
  have htaking : total (fun x => x.pc.taking) s.rxq = 0 :=
    Finset.sum_eq_zero fun q _ => by simp only [hidle q]; rfl
  have hunposted : total (fun x => x.pc.unposted) s.rxq = 0 :=
    Finset.sum_eq_zero fun q _ => by simp only [hidle q]; rfl
  rw [hpending, hready, htaking, hunposted, hrba] at hasked
  have hzero : (s.rxq q).asked = 0 :=
    Finset.sum_eq_zero_iff.1 hasked.symm q (Finset.mem_univ q)
  rw [Rxq.asked] at hzero
  omega

end RxState

/-! ## Runs -/

variable {queueSize : ℕ} {default : ι} {empty used : List B} {s : RxState ι B}
  {actions : List (RxAction ι B)}

/-- **The receive path is safe**: whatever the order in which the threads act, no `BUG_ON` is hit
and no entry is taken of an empty list; every buffer is in one place, without a page on `rx_used`,
`rbd_empty` and the allocator's own list and with one elsewhere; `free_count` counts `rx_free`; and
no ring overflows, for the hardware never has more buffers than the default queue began with. -/
theorem rx_allocator_safe (hempty : empty.length = 6 * Fintype.card ι)
    (hnodup : (empty ++ used).Nodup)
    (hrun : Lts.exec rxStep (init queueSize default empty used) actions = some s) :
    s.bug = false ∧ s.bare + s.filled = ↑(empty ++ used) ∧ (∀ b ∈ s.bare, s.page b = false) ∧
      (∀ b ∈ s.filled, s.page b = true) ∧
      (∀ q, (s.rxq q).freeCount = (s.rxq q).rxFree.length) ∧ s.hw.length ≤ used.length := by
  have hkeeps : ∃ c lost, s.Inv ↑(empty ++ used) c lost := by
    refine Lts.exec_invariant rxStep (I := fun s => ∃ c lost, s.Inv ↑(empty ++ used) c lost)
      (C := fun _ _ => True) ?_ ⟨0, 0, inv_init hempty queueSize⟩
      (Lts.meets_of_forall rxStep (fun _ _ => trivial) _ _) hrun
    rintro s a s' ⟨c, lost, hinv⟩ - hstep
    obtain ⟨c', lost', hinv', -⟩ := hinv.step (Multiset.coe_nodup.2 hnodup) hstep
    exact ⟨c', lost', hinv'⟩
  obtain ⟨c, lost, hinv⟩ := hkeeps
  have hhw := hinv.length_hw_le
  rw [Multiset.coe_card, List.length_append, hempty] at hhw
  exact ⟨hinv.bug, hinv.pages.pool_eq, hinv.pages.bare_page, hinv.pages.filled_page,
    fun q => (hinv.alloc.queue q).free, by omega⟩

/-- A turn of the only queue in which the hardware returns a buffer whose page is kept. -/
def usedTurn (b : Fin 14) : List (RxAction Unit (Fin 14)) :=
  [.rx () .poll, .rx () (.get (some b) false true), .rx () .claim, .rx () .settle]

/-- All eight buffers of the hardware are used up. The second turn posts a request, the allocator
serves it while the next turns go on, and the last turn takes the eight filled buffers. -/
def claimRun : List (RxAction Unit (Fin 14)) :=
  List.flatten [
    List.replicate 9 (.rx () (.refill true true)), [.rx () (.restock true)], usedTurn 6,
    [.rx () .poll, .rx () (.get (some 7) false true), .rx () .post, .rx () .inc, .work .start,
      .rx () .claim, .work .swap, .rx () .settle],
    usedTurn 8, List.replicate 8 (.work (.alloc true true)), usedTurn 9, [.work .dec], usedTurn 10,
    [.work .reread, .work .splice], usedTurn 11, [.work .ready], usedTurn 12, [.work .finish],
    [.rx () .poll, .rx () (.get (some 13) false true), .rx () .claim, .rx () .take,
      .rx () .settle, .rx () .exit, .rx () (.restock true)]]

theorem exists_claimRun :
    ∃ s ∈ Lts.exec rxStep (init 64 () [0, 1, 2, 3, 4, 5] [6, 7, 8, 9, 10, 11, 12, 13]) claimRun,
      s.hw = [0, 1, 2, 3, 4, 5, 6, 7] ∧ s.rba.rbdEmpty = [8, 9, 10, 11, 12, 13] ∧
        ∀ q, (s.rxq q).pc = .idle ∧ (s.rxq q).emergency = false := by
  decide +kernel

theorem rx_allocator_safe_run : ∃ s : RxState Unit (Fin 14),
    s.hw = [0, 1, 2, 3, 4, 5, 6, 7] ∧ s.rba.rbdEmpty = [8, 9, 10, 11, 12, 13] ∧ s.bug = false ∧
      s.bare + s.filled = ([0, 1, 2, 3, 4, 5] ++ [6, 7, 8, 9, 10, 11, 12, 13] : List (Fin 14)) ∧
      (∀ b ∈ s.bare, s.page b = false) ∧ ∀ b ∈ s.filled, s.page b = true := by
  obtain ⟨s, hrun, hhw, hempty, -⟩ := exists_claimRun
  obtain ⟨hbug, hpool, hbare, hfilled, -⟩ := rx_allocator_safe rfl (by decide) hrun
  exact ⟨s, hhw, hempty, hbug, hpool, hbare, hfilled⟩

/-- **No buffer is lost**: when the queues allocate pages themselves only while there are some, then
outside the loop and emergency mode all buffers of the default queue are with the hardware, on
`rx_free` or counted by a queue's `used_count`; and when no request is under way, each queue counts
at most one. -/
theorem rx_allocator_lossless (hempty : empty.length = 6 * Fintype.card ι)
    (hnodup : (empty ++ used).Nodup)
    (hrun : Lts.exec rxStep (init queueSize default empty used) actions = some s)
    (hpaged : ∀ a ∈ actions, a.Paged)
    (hidle : ∀ q, (s.rxq q).pc = .idle ∧ (s.rxq q).emergency = false) :
    s.hw.length + total Rxq.freeCount s.rxq + total Rxq.usedCount s.rxq = used.length ∧
      (s.rba.reqPending = 0 → s.rba.reqReady = 0 → s.rba.pc = .idle →
        ∀ q, (s.rxq q).usedCount ≤ 1) := by
  have hkeeps : ∃ c, s.Inv ↑(empty ++ used) c 0 ∧ ∀ q, Tidy (s.rxq q) (c q) := by
    refine Lts.exec_invariant rxStep
      (I := fun s => ∃ c, s.Inv ↑(empty ++ used) c 0 ∧ ∀ q, Tidy (s.rxq q) (c q))
      (C := fun _ a => a.Paged) ?_ ⟨0, inv_init hempty queueSize, fun q => ?_⟩
      (Lts.meets_of_mem rxStep hpaged _) hrun
    · rintro s a s' ⟨c, hinv, htidy⟩ ha hstep
      obtain ⟨c', lost', hinv', hlost⟩ := hinv.step (Multiset.coe_nodup.2 hnodup) hstep
      obtain ⟨rfl, htidy'⟩ := hlost ha htidy
      exact ⟨c', hinv', htidy'⟩
    · by_cases hq : q = default
      · subst hq
        simp [Tidy, init]
      · simp [Tidy, init, Function.update_of_ne hq]
  obtain ⟨c, hinv, htidy⟩ := hkeeps
  have hcard := hinv.card_eq htidy hidle
  rw [Multiset.coe_card, List.length_append, hempty] at hcard
  exact ⟨by omega, fun hpending hready hrba =>
    hinv.usedCount_le hpending hready hrba fun q => (hidle q).1⟩

theorem paged_claimRun : ∀ a ∈ claimRun, a.Paged := by
  simp [claimRun, usedTurn, RxAction.Paged, RxStep.Paged]

theorem rx_allocator_lossless_run : ∃ s : RxState Unit (Fin 14),
    s.rba.rbdEmpty = [8, 9, 10, 11, 12, 13] ∧
      s.hw.length + total Rxq.freeCount s.rxq + total Rxq.usedCount s.rxq = 8 := by
  obtain ⟨s, hrun, -, hempty, hidle⟩ := exists_claimRun
  exact ⟨s, hempty, (rx_allocator_lossless rfl (by decide) hrun paged_claimRun hidle).1⟩

end Iax.Pcie
