import Iax.Lib.Lts
import Iax.Lib.Parties
import Mathlib.Logic.Function.Basic

/-!
# Receive buffers and their allocator

The receive queues (`pcie/rx.c`, multi-queue devices) hand their buffers to the hardware and get
them back filled. A buffer whose page was handed up needs a new page: the queue moves it to the
allocator and posts a request for two of them, and claims eight new ones when eight are used. The
allocator is a work item of its own, and the queues run at the same time; they share the two lists
of the allocator, each under its lock, and the two atomic counters of requests.

One action is what a thread does in one piece: a section under the allocator's lock, an atomic
operation, or what it does to data that no other thread touches. `RxPc` and `AllocPc` say where a
thread is.

* `RxState.rx`: the steps of `iwl_pcie_rx_handle` on one queue, with `iwl_pcie_rx_handle_rb`,
  `iwl_pcie_rx_reuse_rbd`, `iwl_pcie_rx_allocator_get`, `iwl_pcie_rxq_alloc_rbs` and
  `iwl_pcie_rxmq_restock`.
* `RxState.work`: the steps of `iwl_pcie_rx_allocator`.

The hardware has a buffer from the time that it stands in a ring of a queue; that the rings are
written in steps of eight, and in which order the hardware uses them, is left open.
-/

namespace Iax.Pcie

/-- `RX_POST_REQ_ALLOC`. -/
def rxPostReqAlloc : ℕ := 2

/-- `RX_CLAIM_REQ_ALLOC`. -/
def rxClaimReqAlloc : ℕ := 8

/-! ## State -/

/-- Where `iwl_pcie_rx_handle` is: at the top of its loop (or not running), about to enter emergency
mode, to take the next buffer, to move the used buffers for a request, to post it, to claim, to take
what it has claimed, to settle the used buffers; or in `iwl_pcie_rxq_alloc_rbs` or before
`iwl_pcie_rxq_restock`. -/
inductive RxPc
  | idle | enter | get | post | inc | claim | take | settle | refill | restock
  deriving DecidableEq

/-- `struct iwl_rxq`, with the local variables of `iwl_pcie_rx_handle`; `B` are the
`struct iwl_rx_mem_buffer` of the pool. -/
structure Rxq (B : Type*) where
  rxFree : List B
  rxUsed : List B
  freeCount : ℕ
  usedCount : ℕ
  pc : RxPc
  emergency : Bool
  count : ℕ
  rbPendingAlloc : ℕ

/-- Where `iwl_pcie_rx_allocator` is: not running, about to swap out the empty list, at the `i`-th
buffer of a request, about to read the pending requests again, to put its buffers on the lists, or
to count the request as ready. -/
inductive AllocPc
  | idle
  | swap (pending : ℕ)
  | alloc (pending i : ℕ)
  | reread (pending : ℕ)
  | splice (pending : ℕ)
  | ready (pending : ℕ)
  deriving DecidableEq

/-- `struct iwl_rb_allocator`, with the local lists of `iwl_pcie_rx_allocator`. -/
structure RbAllocator (B : Type*) where
  rbdEmpty : List B
  rbdAllocated : List B
  reqPending : ℕ
  reqReady : ℕ
  pc : AllocPc
  localEmpty : List B
  localAllocated : List B

/-- The receive part of the transport: the queues, the allocator, the buffers that the hardware has
(those that are not `invalid`), which buffers have a page, and whether a `BUG_ON` was hit or a first
entry was taken of an empty list. -/
structure RxState (ι B : Type*) where
  queueSize : ℕ
  rxq : ι → Rxq B
  rba : RbAllocator B
  hw : List B
  page : B → Bool
  bug : Bool

/-! ## Steps -/

/-- The steps of a queue. The buffer that the hardware returns is `none` when its number is out of
range; `join` says that it is a part of a larger frame, which is dropped, and `gone` that its page
was handed up, or could not be mapped again. -/
inductive RxStep (B : Type*)
  | poll
  | enter
  | get (rxb : Option B) (join gone : Bool)
  | post
  | inc
  | claim
  | take
  | settle
  | exit
  | refill (page mapped : Bool)
  | restock (deviceEnabled : Bool)

/-- The steps of the allocator. -/
inductive AllocStep
  | start
  | swap
  | alloc (page mapped : Bool)
  | dec
  | reread
  | splice
  | ready
  | finish

namespace RxState

variable {ι B : Type*} [DecidableEq ι] [DecidableEq B] (s : RxState ι B)

def setRxq (q : ι) (rxq : Rxq B) : RxState ι B :=
  { s with rxq := Function.update s.rxq q rxq }

/-- `iwl_pcie_rx_move_to_allocator`, after which the queue goes on at `pc`. -/
def iwlPcieRxMoveToAllocator (q : ι) (rxq : Rxq B) : RxState ι B :=
  { s.setRxq q { rxq with rxUsed := [] } with
    rba.rbdEmpty := s.rba.rbdEmpty ++ rxq.rxUsed }

/-- `iwl_pcie_rx_reuse_rbd`, up to the move to the allocator when a request is due. -/
def iwlPcieRxReuseRbd (rxq : Rxq B) (rxb : B) : Rxq B :=
  let rxq := { rxq with rxUsed := rxq.rxUsed ++ [rxb] }
  if rxq.emergency then { rxq with pc := .claim }
  else
    let rxq := { rxq with usedCount := rxq.usedCount + 1 }
    { rxq with
      pc := if rxq.usedCount % rxClaimReqAlloc = rxPostReqAlloc then .post else .claim }

/-- The end of `iwl_pcie_rx_handle`: in emergency mode the buffers that are left get their pages. -/
def leave (rxq : Rxq B) : Rxq B :=
  { rxq with
    pc := if rxq.emergency ∧ rxq.count ≠ 0 then .refill else .restock
    emergency := false
    count := 0 }

/-- A buffer goes on `rx_free`. -/
def addFree (rxq : Rxq B) (rxb : B) : Rxq B :=
  { rxq with rxFree := rxq.rxFree ++ [rxb], freeCount := rxq.freeCount + 1, pc := .claim }

/-- `iwl_pcie_get_rxb` and `iwl_pcie_rx_handle_rb`: the buffer that the hardware returns. -/
def iwlPcieRxHandleRb (q : ι) (rxq : Rxq B) (rxb : B) (join gone : Bool) : RxState ι B :=
  if rxb ∈ s.hw then
    let s := { s with hw := s.hw.erase rxb }
    if join then s.setRxq q (addFree rxq rxb)
    else if gone then
      { s.setRxq q (iwlPcieRxReuseRbd rxq rxb) with page := Function.update s.page rxb false }
    else s.setRxq q (addFree rxq rxb)
  else s.setRxq q (leave rxq)

/-- `iwl_pcie_rx_allocator_get` under the allocator's lock. -/
def iwlPcieRxAllocatorGet (q : ι) (rxq : Rxq B) : RxState ι B :=
  if s.rba.rbdAllocated.length < rxClaimReqAlloc then { s with bug := true }
  else
    { s.setRxq q { rxq with
        rxFree := (s.rba.rbdAllocated.take rxClaimReqAlloc).reverse ++ rxq.rxFree
        freeCount := rxq.freeCount + rxClaimReqAlloc
        usedCount := rxq.usedCount - rxClaimReqAlloc
        pc := .settle } with
      rba.rbdAllocated := s.rba.rbdAllocated.drop rxClaimReqAlloc }

/-- The end of a turn of `iwl_pcie_rx_handle`: the used buffers of a whole round go to the
allocator, or, in emergency mode, every eighth turn gives them pages at once. -/
def settle (q : ι) (rxq : Rxq B) : RxState ι B :=
  if rxq.usedCount % rxClaimReqAlloc = 0 ∧ rxq.emergency = false then
    s.iwlPcieRxMoveToAllocator q { rxq with pc := .idle }
  else if rxq.emergency then
    if rxq.count + 1 = 8 then
      s.setRxq q { rxq with
        count := 0
        emergency := if rxq.rbPendingAlloc < s.queueSize / 3 then false else true
        pc := .refill }
    else s.setRxq q { rxq with count := rxq.count + 1, pc := .idle }
  else s.setRxq q { rxq with pc := .idle }

/-- A turn of `iwl_pcie_rxq_alloc_rbs`; `page` and `mapped` say that a page was there and could be
mapped. -/
def iwlPcieRxqAllocRbs (q : ι) (rxq : Rxq B) (page mapped : Bool) : RxState ι B :=
  match rxq.rxUsed with
  | [] => s.setRxq q { rxq with pc := .restock }
  | rxb :: rest =>
    if !page then s.setRxq q { rxq with pc := .restock }
    else if s.page rxb then { s with bug := true }
    else if !mapped then s.setRxq q { rxq with pc := .restock }
    else
      { s.setRxq q { rxq with
          rxUsed := rest
          rxFree := rxq.rxFree ++ [rxb]
          freeCount := rxq.freeCount + 1 } with
        page := Function.update s.page rxb true }

/-- `iwl_pcie_rxmq_restock`. -/
def iwlPcieRxmqRestock (q : ι) (rxq : Rxq B) (deviceEnabled : Bool) : RxState ι B :=
  if !deviceEnabled then s.setRxq q { rxq with pc := .idle }
  else if rxq.rxFree.length < rxq.freeCount then { s with bug := true }
  else
    { s.setRxq q { rxq with
        rxFree := rxq.rxFree.drop rxq.freeCount, freeCount := 0, pc := .idle } with
      hw := s.hw ++ rxq.rxFree.take rxq.freeCount }

/-- A step of a queue. -/
def rx (q : ι) : RxStep B → Option (RxState ι B)
  | .poll =>
    let rxq := { s.rxq q with rbPendingAlloc := s.rba.reqPending * rxClaimReqAlloc }
    if rxq.pc = .idle then
      some (s.setRxq q { rxq with
        pc := if s.queueSize / 2 ≤ rxq.rbPendingAlloc ∧ rxq.emergency = false then .enter
          else .get })
    else none
  | .enter =>
    let rxq := s.rxq q
    if rxq.pc = .enter then
      some (s.iwlPcieRxMoveToAllocator q { rxq with emergency := true, pc := .get })
    else none
  | .get rxb join gone =>
    let rxq := s.rxq q
    if rxq.pc = .get then
      match rxb with
      | none => some (s.setRxq q (leave rxq))
      | some rxb => some (s.iwlPcieRxHandleRb q rxq rxb join gone)
    else none
  | .post =>
    let rxq := s.rxq q
    if rxq.pc = .post then some (s.iwlPcieRxMoveToAllocator q { rxq with pc := .inc }) else none
  | .inc =>
    let rxq := s.rxq q
    if rxq.pc = .inc then
      some { s.setRxq q { rxq with pc := .claim } with rba.reqPending := s.rba.reqPending + 1 }
    else none
  | .claim =>
    let rxq := s.rxq q
    if rxq.pc = .claim then
      if rxClaimReqAlloc ≤ rxq.usedCount ∧ 0 < s.rba.reqReady then
        some { s.setRxq q { rxq with pc := .take } with rba.reqReady := s.rba.reqReady - 1 }
      else some (s.setRxq q { rxq with pc := .settle })
    else none
  | .take =>
    let rxq := s.rxq q
    if rxq.pc = .take then some (s.iwlPcieRxAllocatorGet q rxq) else none
  | .settle =>
    let rxq := s.rxq q
    if rxq.pc = .settle then some (s.settle q rxq) else none
  | .exit =>
    let rxq := s.rxq q
    if rxq.pc = .idle then some (s.setRxq q (leave rxq)) else none
  | .refill page mapped =>
    let rxq := s.rxq q
    if rxq.pc = .refill then some (s.iwlPcieRxqAllocRbs q rxq page mapped) else none
  | .restock deviceEnabled =>
    let rxq := s.rxq q
    if rxq.pc = .restock then some (s.iwlPcieRxmqRestock q rxq deviceEnabled) else none

/-- A page for the next buffer of a request. -/
def allocPage (pending i : ℕ) (page mapped : Bool) : RxState ι B :=
  match s.rba.localEmpty with
  | [] => { s with bug := true }
  | rxb :: rest =>
    if s.page rxb then { s with bug := true }
    else if page ∧ mapped then
      { s with
        rba.localEmpty := rest
        rba.localAllocated := rxb :: s.rba.localAllocated
        rba.pc := .alloc pending (i + 1)
        page := Function.update s.page rxb true }
    else s

/-- A step of the allocator. -/
def work : AllocStep → Option (RxState ι B)
  | .start =>
    if s.rba.pc = .idle then some { s with rba.pc := .swap s.rba.reqPending } else none
  | .swap =>
    match s.rba.pc with
    | .swap pending => some { s with
        rba.localEmpty := s.rba.rbdEmpty, rba.rbdEmpty := [], rba.pc := .alloc pending 0 }
    | _ => none
  | .alloc page mapped =>
    match s.rba.pc with
    | .alloc pending i =>
      if pending ≠ 0 ∧ i < rxClaimReqAlloc then some (s.allocPage pending i page mapped) else none
    | _ => none
  | .dec =>
    match s.rba.pc with
    | .alloc pending i =>
      if pending ≠ 0 ∧ rxClaimReqAlloc ≤ i then
        some { s with
          rba.reqPending := s.rba.reqPending - 1
          rba.pc := if pending - 1 = 0 then .reread (pending - 1) else .splice (pending - 1) }
      else none
    | _ => none
  | .reread =>
    match s.rba.pc with
    | .reread _ => some { s with rba.pc := .splice s.rba.reqPending }
    | _ => none
  | .splice =>
    match s.rba.pc with
    | .splice pending => some { s with
        rba.rbdAllocated := s.rba.rbdAllocated ++ s.rba.localAllocated
        rba.localAllocated := []
        rba.localEmpty := s.rba.localEmpty ++ s.rba.rbdEmpty
        rba.rbdEmpty := []
        rba.pc := .ready pending }
    | _ => none
  | .ready =>
    match s.rba.pc with
    | .ready pending => some { s with
        rba.reqReady := s.rba.reqReady + 1, rba.pc := .alloc pending 0 }
    | _ => none
  | .finish =>
    match s.rba.pc with
    | .alloc 0 _ => some { s with
        rba.rbdEmpty := s.rba.rbdEmpty ++ s.rba.localEmpty
        rba.localEmpty := []
        rba.pc := .idle }
    | _ => none

end RxState

/-- An action of one of the threads. -/
inductive RxAction (ι B : Type*)
  | rx (q : ι) (a : RxStep B)
  | work (a : AllocStep)

variable {ι B : Type*} [DecidableEq ι] [DecidableEq B]

/-- One action, `none` when it is not enabled; nothing happens after a `BUG_ON`. -/
def rxStep (s : RxState ι B) (a : RxAction ι B) : Option (RxState ι B) :=
  if s.bug then none
  else match a with
    | .rx q a => s.rx q a
    | .work a => s.work a

/-- `_iwl_pcie_rx_init`: the allocator gets six buffers for each queue, and the default queue the
others, for which it is about to allocate pages. -/
def RxState.init (queueSize : ℕ) (default : ι) (empty used : List B) : RxState ι B where
  queueSize := queueSize
  rxq := Function.update (fun _ => ⟨[], [], 0, 0, .idle, false, 0, 0⟩) default
    ⟨[], used, 0, 0, .refill, false, 0, 0⟩
  rba := ⟨empty, [], 0, 0, .idle, [], []⟩
  hw := []
  page := fun _ => false
  bug := false

end Iax.Pcie
