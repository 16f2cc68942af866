import Iax.Lib.Lts
import Iax.Lib.Pool
import Mathlib.Data.Int.Notation

/-!
# Aggregation queues of the dvm driver

An aggregation session of a station and a TID has a hardware queue: `agg_q_alloc` marks the queues
that are taken, and the session keeps the number of its queue in `txq_id`, also after it has ended.
The calls that open, confirm and end a session (`dvm/tx.c`) are steps on this state.

* `AggPriv.pool`: the queues as a pool; a session holds its queue unless it is `off`.
* `aggCall_owned_iff`: each call takes a queue, gives one back or leaves the pool alone, or it does
  what it should not: it leaks the queue of a start that the firmware refuses, lets a session that
  is off hold the queue of its last run, or frees that queue under another session.
* `aggCall_tidData`: a call is about one session and leaves the others as they are.
* `agg_queues_iff`: the pool is in order in all states of a run exactly when no call does the
  former.
-/

namespace Iax.Dvm

/-! ## State -/

/-- `enum iwl_agg_state`. -/
inductive AggState
  | off | starting | on | emptyingHwQueueAddba | emptyingHwQueueDelba
  deriving DecidableEq

/-- `struct iwl_tid_data` with its `struct iwl_ht_agg`. -/
structure TidData where
  seqNumber : BitVec 16
  nextReclaimed : BitVec 16
  state : AggState
  txqId : ℕ
  ssn : BitVec 16

/-- What the calls tell the transport and mac80211. -/
inductive AggNotice
  | txqEnable (q fifo : ℕ) (ra : Fin 16 × Fin 8) (frameLimit : ℕ) (ssn : BitVec 16)
  | txqDisable (q : ℕ)
  | txfifoFlush (q : ℕ)
  | startTxBaCb (ra : Fin 16 × Fin 8)
  | stopTxBaCb (ra : Fin 16 × Fin 8)

/-- The part of `struct iwl_priv` that is about aggregation. `tidData` is indexed by station and
TID, and `maxAggBufsize` by the station whose private data it is in. -/
structure AggPriv where
  tidData : Fin 16 × Fin 8 → TidData
  aggQAlloc : ℕ → Bool
  queueToMac80211 : ℕ → ℕ
  aggTidsCount : BitVec 8
  maxAggBufsize : Fin 16 → ℕ
  notices : List AggNotice

/-- The maps of a context, by access category. -/
structure AggCtx where
  acToQueue : ℕ → ℕ
  acToFifo : ℕ → ℕ

/-- `tid_to_ac`, with best effort 2, background 3, video 1 and voice 0. -/
def tidToAc (tid : ℕ) : ℕ := [2, 3, 3, 2, 1, 1, 0, 0].getD tid 0

def iwlagnFirstAmpduQueue : ℕ := 11

def iwlInvalidMac80211Queue : ℕ := 0xff

def linkQualAggFrameLimitDef : ℕ := 63

def enxio : ℤ := 6

def einval : ℤ := 22

def enospc : ℤ := 28

/-- `IEEE80211_AMPDU_TX_START_IMMEDIATE`. -/
def ampduTxStartImmediate : ℤ := 1

/-- `IEEE80211_SEQ_TO_SN`. -/
def seqToSn (seq : BitVec 16) : BitVec 16 := (seq &&& 0xfff0) >>> 4

/-! ## The calls -/

namespace AggPriv

variable (priv : AggPriv)

def setTid (ra : Fin 16 × Fin 8) (d : TidData) : AggPriv :=
  { priv with tidData := Function.update priv.tidData ra d }

def notify (n : AggNotice) : AggPriv := { priv with notices := priv.notices ++ [n] }

end AggPriv

/-- The first free queue. -/
def freeAggTxq (numOfQueues : ℕ) (alloc : ℕ → Bool) : Option ℕ :=
  (List.range' iwlagnFirstAmpduQueue (numOfQueues - iwlagnFirstAmpduQueue)).find? fun q => !alloc q

/-- `iwlagn_alloc_agg_txq`, `none` for `-ENOSPC`. -/
def iwlagnAllocAggTxq (numOfQueues : ℕ) (priv : AggPriv) (mq : ℕ) : Option (ℕ × AggPriv) :=
  (freeAggTxq numOfQueues priv.aggQAlloc).map fun q => (q, { priv with
    aggQAlloc := Function.update priv.aggQAlloc q true
    queueToMac80211 := Function.update priv.queueToMac80211 q mq })

/-- `iwlagn_dealloc_agg_txq`. -/
def iwlagnDeallocAggTxq (priv : AggPriv) (q : ℕ) : AggPriv :=
  { priv with
    aggQAlloc := Function.update priv.aggQAlloc q false
    queueToMac80211 := Function.update priv.queueToMac80211 q iwlInvalidMac80211Queue }

/-- The end of `iwlagn_tx_agg_stop` and `iwlagn_tx_agg_flush`: the queue is given back, and the
transport is told if it knows about it. -/
def releaseAggTxq (priv : AggPriv) (aggState : AggState) (q : ℕ) : AggPriv :=
  if priv.aggQAlloc q then
    iwlagnDeallocAggTxq (if aggState = .on then priv.notify (.txqDisable q) else priv) q
  else priv

/-- `turn_off` of `iwlagn_tx_agg_stop`. -/
def aggTurnOff (priv : AggPriv) (ra : Fin 16 × Fin 8) : AggPriv :=
  let d := priv.tidData ra
  (releaseAggTxq (priv.setTid ra { d with state := .off }) d.state d.txqId).notify (.stopTxBaCb ra)

/-- `iwlagn_tx_agg_stop`; the station is `none` for `IWL_INVALID_STATION`. -/
def iwlagnTxAggStop (priv : AggPriv) (sta : Option (Fin 16)) (tid : Fin 8) : ℤ × AggPriv :=
  match sta with
  | none => (-enxio, priv)
  | some sta =>
    let ra := (sta, tid)
    let d := priv.tidData ra
    match d.state with
    | .emptyingHwQueueAddba | .starting => (0, aggTurnOff priv ra)
    | .on =>
      let d := { d with ssn := seqToSn d.seqNumber }
      if priv.aggQAlloc d.txqId = true ∧ d.ssn ≠ d.nextReclaimed then
        (0, priv.setTid ra { d with state := .emptyingHwQueueDelba })
      else (0, aggTurnOff (priv.setTid ra d) ra)
    | _ => (0, priv)

/-- `iwlagn_tx_agg_start` of a valid station and TID. -/
def aggStartSession (numOfQueues : ℕ) (priv : AggPriv) (ctx : AggCtx) (ra : Fin 16 × Fin 8)
    (fw : ℤ) : ℤ × AggPriv :=
  if (priv.tidData ra).state ≠ .off then (-enxio, priv)
  else
    match iwlagnAllocAggTxq numOfQueues priv (ctx.acToQueue (tidToAc ra.2)) with
    | none => (-enospc, priv)
    | some (txqId, priv) =>
      if fw ≠ 0 then (fw, priv)
      else
        let d := priv.tidData ra
        let d := { d with ssn := seqToSn d.seqNumber, txqId := txqId }
        if d.ssn = d.nextReclaimed then
          (ampduTxStartImmediate, priv.setTid ra { d with state := .starting })
        else (0, priv.setTid ra { d with state := .emptyingHwQueueAddba })

/-- `iwlagn_tx_agg_start`; `fw` is what `iwl_sta_tx_modify_enable_tid` returns. -/
def iwlagnTxAggStart (numOfQueues : ℕ) (priv : AggPriv) (ctx : AggCtx) (sta : Option (Fin 16))
    (tid : ℕ) (fw : ℤ) : ℤ × AggPriv :=
  match sta with
  | none => (-enxio, priv)
  | some sta =>
    if htid : tid < 8 then aggStartSession numOfQueues priv ctx (sta, ⟨tid, htid⟩) fw
    else (-einval, priv)

/-- `iwlagn_tx_agg_flush`. -/
def iwlagnTxAggFlush (priv : AggPriv) (ra : Fin 16 × Fin 8) : ℤ × AggPriv :=
  let d := priv.tidData ra
  let priv := (priv.setTid ra { d with state := .off }).notify (.txfifoFlush d.txqId)
  (0, releaseAggTxq priv d.state d.txqId)

/-- `iwlagn_tx_agg_oper`; `lq` is what `iwl_send_lq_cmd` returns. The flags of the link quality
command are left out. -/
def iwlagnTxAggOper (priv : AggPriv) (ctx : AggCtx) (ra : Fin 16 × Fin 8) (bufSize : ℕ) (lq : ℤ) :
    ℤ × AggPriv :=
  let bufSize := min bufSize linkQualAggFrameLimitDef
  let d := priv.tidData ra
  let priv := priv.setTid ra { d with state := .on }
  let priv := priv.notify
    (.txqEnable d.txqId (ctx.acToFifo (tidToAc ra.2)) ra bufSize d.ssn)
  let old := priv.maxAggBufsize ra.1
  let limit := min (if old = 0 then linkQualAggFrameLimitDef else old) bufSize
  (lq, { priv with
    maxAggBufsize := Function.update priv.maxAggBufsize ra.1 limit
    aggTidsCount := priv.aggTidsCount + 1 })

/-- `iwlagn_check_ratid_empty`. -/
def iwlagnCheckRatidEmpty (priv : AggPriv) (ra : Fin 16 × Fin 8) : AggPriv :=
  let d := priv.tidData ra
  match d.state with
  | .emptyingHwQueueDelba =>
    if d.ssn = d.nextReclaimed then
      let priv := iwlagnDeallocAggTxq (priv.notify (.txqDisable d.txqId)) d.txqId
      (priv.setTid ra { d with state := .off }).notify (.stopTxBaCb ra)
    else priv
  | .emptyingHwQueueAddba =>
    if d.ssn = d.nextReclaimed then
      (priv.setTid ra { d with state := .starting }).notify (.startTxBaCb ra)
    else priv
  | _ => priv

/-! ## Runs -/

inductive AggEvent
  | start (ctx : AggCtx) (sta : Option (Fin 16)) (tid : ℕ) (fw : ℤ)
  | oper (ctx : AggCtx) (ra : Fin 16 × Fin 8) (bufSize : ℕ) (lq : ℤ)
  | stop (sta : Option (Fin 16)) (tid : Fin 8)
  | flush (ra : Fin 16 × Fin 8)
  /-- A frame of the session is sent: it takes a sequence number. -/
  | sent (ra : Fin 16 × Fin 8) (seqNumber : BitVec 16)
  /-- Frames up to a sequence number are reclaimed. -/
  | reclaim (ra : Fin 16 × Fin 8) (nextReclaimed : BitVec 16)

/-- What a call returns, and the state after it. -/
def aggCall (numOfQueues : ℕ) (priv : AggPriv) : AggEvent → ℤ × AggPriv
  | .start ctx sta tid fw => iwlagnTxAggStart numOfQueues priv ctx sta tid fw
  | .oper ctx ra bufSize lq => iwlagnTxAggOper priv ctx ra bufSize lq
  | .stop sta tid => iwlagnTxAggStop priv sta tid
  | .flush ra => iwlagnTxAggFlush priv ra
  | .sent ra seqNumber => (0, priv.setTid ra { priv.tidData ra with seqNumber := seqNumber })
  | .reclaim ra nextReclaimed =>
    (0, iwlagnCheckRatidEmpty
      (priv.setTid ra { priv.tidData ra with nextReclaimed := nextReclaimed }) ra)

def aggStep (numOfQueues : ℕ) (priv : AggPriv) (e : AggEvent) : Option AggPriv :=
  some (aggCall numOfQueues priv e).2

/-! ## The pool -/

/-- What a session holds. -/
def TidData.queue (d : TidData) : Option ℕ := if d.state = .off then none else some d.txqId

/-- The queues as a pool. -/
def AggPriv.pool (priv : AggPriv) : Pool (Fin 16 × Fin 8) ℕ where
  alloc := priv.aggQAlloc
  owner ra := (priv.tidData ra).queue

theorem TidData.queue_eq_none {d : TidData} : d.queue = none ↔ d.state = .off := by
  rw [queue]
  split_ifs with h <;> simp [h]

theorem TidData.queue_eq_some {d : TidData} (h : d.state ≠ .off) : d.queue = some d.txqId :=
  if_neg h

section Pool

variable {priv : AggPriv} {ra : Fin 16 × Fin 8}

@[simp] theorem pool_notify (n : AggNotice) : (priv.notify n).pool = priv.pool := rfl

@[simp] theorem pool_setTid (d : TidData) : (priv.setTid ra d).pool =
    ⟨priv.pool.alloc, Function.update priv.pool.owner ra d.queue⟩ := by
  rw [AggPriv.pool, AggPriv.setTid, Pool.mk.injEq]
  refine ⟨rfl, funext fun y => ?_⟩
  by_cases hy : y = ra
  · rw [hy, Function.update_self]
    exact congrArg TidData.queue (Function.update_self ..)
  · rw [Function.update_of_ne hy]
    exact congrArg TidData.queue (Function.update_of_ne hy ..)

/-- A session that keeps its queue. -/
theorem pool_setTid_of_queue {d : TidData} (h : d.queue = (priv.tidData ra).queue) :
    (priv.setTid ra d).pool = priv.pool := by
  rw [pool_setTid, h]
  exact congrArg (Pool.mk priv.pool.alloc) (Function.update_eq_self ra priv.pool.owner)

theorem pool_dealloc (q : ℕ) : (iwlagnDeallocAggTxq priv q).pool =
    ⟨Function.update priv.pool.alloc q false, priv.pool.owner⟩ := rfl

theorem pool_releaseAggTxq (aggState : AggState) (q : ℕ) :
    (releaseAggTxq priv aggState q).pool = if priv.aggQAlloc q then
      ⟨Function.update priv.pool.alloc q false, priv.pool.owner⟩ else priv.pool := by
  rw [releaseAggTxq]
  split_ifs <;> rfl

/-- A session that is on gives its queue back. -/
theorem pool_aggTurnOff (h : priv.pool.Owned) (hra : (priv.tidData ra).state ≠ .off) :
    (aggTurnOff priv ra).pool =
      ⟨Function.update priv.pool.alloc (priv.tidData ra).txqId false,
        Function.update priv.pool.owner ra none⟩ := by
  have halloc : priv.aggQAlloc (priv.tidData ra).txqId = true :=
    h.alloc_eq (TidData.queue_eq_some hra)
  have halloc' : (priv.setTid ra { priv.tidData ra with state := .off }).aggQAlloc
      (priv.tidData ra).txqId = true := halloc
  rw [aggTurnOff, pool_notify, pool_releaseAggTxq, if_pos halloc', pool_setTid]
  rfl

/-- The queue that is taken is free. -/
theorem freeAggTxq_free {n q : ℕ} {alloc : ℕ → Bool} (h : freeAggTxq n alloc = some q) :
    alloc q = false := by
  simpa using List.find?_some h

/-- A start leaves the pool in order unless it has taken a queue that the firmware then refuses. -/
def StartKeeps (n : ℕ) (priv : AggPriv) (ra : Fin 16 × Fin 8) (fw : ℤ) : Prop :=
  (priv.tidData ra).state = .off → freeAggTxq n priv.aggQAlloc ≠ none → fw = 0

/-- When a call leaves the pool in order: the firmware accepts a start that has taken a queue, only
a session that is not off becomes operational, and a session that is off is flushed only when the
queue of its last run is free. -/
def KeepsQueues (n : ℕ) (priv : AggPriv) : AggEvent → Prop
  | .start _ sta tid fw => ∀ s ∈ sta, ∀ htid : tid < 8, StartKeeps n priv (s, ⟨tid, htid⟩) fw
  | .oper _ ra _ _ => (priv.tidData ra).state ≠ .off
  | .flush ra =>
      (priv.tidData ra).state = .off → priv.aggQAlloc (priv.tidData ra).txqId = false
  | _ => True

theorem aggStartSession_owned_iff (n : ℕ) (h : priv.pool.Owned) (ctx : AggCtx) (fw : ℤ) :
    (aggStartSession n priv ctx ra fw).2.pool.Owned ↔ StartKeeps n priv ra fw := by
  unfold aggStartSession
  split
  · rename_i hon
    exact iff_of_true h fun hoff => absurd hoff hon
  rename_i hoff
  rw [not_not] at hoff
  unfold iwlagnAllocAggTxq
  cases hfree : freeAggTxq n priv.aggQAlloc with
  | none => exact iff_of_true h fun _ hne => absurd hfree hne
  | some q =>
    have hq : priv.pool.alloc q = false := freeAggTxq_free hfree
    have hnone : priv.pool.owner ra = none := TidData.queue_eq_none.2 hoff
    dsimp only [Option.map_some]
    split
    · rename_i hfw
      refine iff_of_false (Pool.not_owned_leak h hq) fun hC => hfw (hC hoff ?_)
      rw [hfree]
      exact Option.some_ne_none q
    · rename_i hfw
      refine iff_of_true ?_ fun _ _ => not_not.1 hfw
      split
      · rw [pool_setTid]
        exact h.take hnone hq
      · rw [pool_setTid]
        exact h.take hnone hq

theorem iwlagnTxAggStart_owned_iff (n : ℕ) (h : priv.pool.Owned) (ctx : AggCtx)
    (sta : Option (Fin 16)) (tid : ℕ) (fw : ℤ) :
    (iwlagnTxAggStart n priv ctx sta tid fw).2.pool.Owned ↔
      KeepsQueues n priv (.start ctx sta tid fw) := by
  unfold iwlagnTxAggStart
  cases sta with
  | none => exact iff_of_true h fun s hs => by cases hs
  | some s =>
    dsimp only
    split
    · rename_i htid
      rw [aggStartSession_owned_iff n h]
      exact ⟨fun hC s' hs' _ => by cases hs'; exact hC, fun hC => hC s rfl htid⟩
    · rename_i htid
      exact iff_of_true h fun _ _ hlt => absurd hlt htid

theorem iwlagnTxAggOper_owned_iff (n : ℕ) (h : priv.pool.Owned) (ctx : AggCtx) (bufSize : ℕ)
    (lq : ℤ) : (iwlagnTxAggOper priv ctx ra bufSize lq).2.pool.Owned ↔
      KeepsQueues n priv (.oper ctx ra bufSize lq) := by
  have hpool : (iwlagnTxAggOper priv ctx ra bufSize lq).2.pool =
      (priv.setTid ra { priv.tidData ra with state := .on }).pool := rfl
  rw [hpool]
  by_cases hoff : (priv.tidData ra).state = .off
  · refine iff_of_false ?_ (not_not.2 hoff)
    rw [pool_setTid]
    exact Pool.not_owned_seize h _ (TidData.queue_eq_none.2 hoff)
  · refine iff_of_true ?_ hoff
    have hq : TidData.queue { priv.tidData ra with state := .on } = (priv.tidData ra).queue :=
      (TidData.queue_eq_some hoff).symm
    rw [pool_setTid_of_queue hq]
    exact h

theorem aggTurnOff_owned (h : priv.pool.Owned) (hra : (priv.tidData ra).state ≠ .off) :
    (aggTurnOff priv ra).pool.Owned := by
  rw [pool_aggTurnOff h hra]
  exact h.release (TidData.queue_eq_some hra)

theorem iwlagnTxAggStop_owned (h : priv.pool.Owned) (sta : Option (Fin 16)) (tid : Fin 8) :
    (iwlagnTxAggStop priv sta tid).2.pool.Owned := by
  unfold iwlagnTxAggStop
  cases sta with
  | none => exact h
  | some sta =>
    cases hstate : (priv.tidData (sta, tid)).state with
    | off => simpa only [hstate] using h
    | starting =>
      simp only [hstate]
      exact aggTurnOff_owned h (by simp [hstate])
    | emptyingHwQueueAddba =>
      simp only [hstate]
      exact aggTurnOff_owned h (by simp [hstate])
    | emptyingHwQueueDelba => simpa only [hstate] using h
    | on =>
      simp only [hstate]
      split
      · rw [pool_setTid_of_queue]
        · exact h
        · simp [TidData.queue, hstate]
      · refine aggTurnOff_owned ?_ ?_
        · rw [pool_setTid_of_queue]
          · exact h
          · simp [TidData.queue, hstate]
        · simp [AggPriv.setTid]

theorem pool_iwlagnTxAggFlush : (iwlagnTxAggFlush priv ra).2.pool =
    ⟨if priv.aggQAlloc (priv.tidData ra).txqId then
        Function.update priv.pool.alloc (priv.tidData ra).txqId false else priv.pool.alloc,
      Function.update priv.pool.owner ra none⟩ := by
  rw [iwlagnTxAggFlush]
  dsimp only
  rw [pool_releaseAggTxq, pool_notify, pool_setTid]
  have hnone (d : TidData) : TidData.queue { d with state := .off } = none := rfl
  rw [hnone]
  split_ifs with h₁ h₂ h₂
  · rfl
  · exact absurd h₁ h₂
  · exact absurd h₂ h₁
  · rfl

theorem iwlagnTxAggFlush_owned_iff (n : ℕ) (h : priv.pool.Owned) :
    (iwlagnTxAggFlush priv ra).2.pool.Owned ↔ KeepsQueues n priv (.flush ra) := by
  rw [pool_iwlagnTxAggFlush]
  by_cases hoff : (priv.tidData ra).state = .off
  · -- nothing is held, and what is freed is the queue of the last run
    have hnone : Function.update priv.pool.owner ra none = priv.pool.owner := by
      have howner : priv.pool.owner ra = none := TidData.queue_eq_none.2 hoff
      rw [← howner, Function.update_eq_self]
    rw [hnone]
    cases halloc : priv.aggQAlloc (priv.tidData ra).txqId with
    | false => exact iff_of_true h fun _ => halloc
    | true =>
      refine iff_of_false (Pool.not_owned_steal h halloc) fun hC => ?_
      rw [hC hoff] at halloc
      cases halloc
  · have hq : priv.pool.owner ra = some (priv.tidData ra).txqId := TidData.queue_eq_some hoff
    have halloc : priv.aggQAlloc (priv.tidData ra).txqId = true := h.alloc_eq hq
    rw [if_pos halloc]
    exact iff_of_true (h.release hq) fun hoff' => absurd hoff' hoff

theorem iwlagnCheckRatidEmpty_owned (h : priv.pool.Owned) :
    (iwlagnCheckRatidEmpty priv ra).pool.Owned := by
  unfold iwlagnCheckRatidEmpty
  cases hstate : (priv.tidData ra).state with
  | off => simpa only [hstate] using h
  | starting => simpa only [hstate] using h
  | on => simpa only [hstate] using h
  | emptyingHwQueueAddba =>
    simp only [hstate]
    split
    · rw [pool_notify, pool_setTid_of_queue]
      · exact h
      · simp [TidData.queue, hstate]
    · exact h
  | emptyingHwQueueDelba =>
    simp only [hstate]
    split
    · rw [pool_notify, pool_setTid, pool_dealloc, pool_notify]
      refine h.release (TidData.queue_eq_some ?_)
      rw [hstate]
      exact AggState.noConfusion
    · exact h

theorem aggCall_owned_iff (n : ℕ) (h : priv.pool.Owned) (e : AggEvent) :
    (aggCall n priv e).2.pool.Owned ↔ KeepsQueues n priv e := by
  cases e with
  | start ctx sta tid fw => exact iwlagnTxAggStart_owned_iff n h ctx sta tid fw
  | oper ctx ra bufSize lq => exact iwlagnTxAggOper_owned_iff n h ctx bufSize lq
  | stop sta tid => exact iff_of_true (iwlagnTxAggStop_owned h sta tid) trivial
  | flush ra => exact iwlagnTxAggFlush_owned_iff n h
  | sent ra seqNumber =>
    refine iff_of_true ?_ trivial
    rw [aggCall, pool_setTid_of_queue]
    · exact h
    · rfl
  | reclaim ra nextReclaimed =>
    refine iff_of_true (iwlagnCheckRatidEmpty_owned ?_) trivial
    rw [pool_setTid_of_queue]
    · exact h
    · rfl

end Pool

/-! ## Other sessions -/

/-- The session that a call is about. -/
def AggEvent.session : AggEvent → Option (Fin 16 × Fin 8)
  | .start _ sta tid _ =>
    sta.bind fun sta => if htid : tid < 8 then some (sta, ⟨tid, htid⟩) else none
  | .oper _ ra _ _ => some ra
  | .stop sta tid => sta.map fun sta => (sta, tid)
  | .flush ra => some ra
  | .sent ra _ => some ra
  | .reclaim ra _ => some ra

section Frame

variable {priv : AggPriv} {ra ra' : Fin 16 × Fin 8}

theorem tidData_setTid (h : ra' ≠ ra) (d : TidData) :
    (priv.setTid ra d).tidData ra' = priv.tidData ra' := Function.update_of_ne h ..

@[simp] theorem tidData_releaseAggTxq (aggState : AggState) (q : ℕ) :
    (releaseAggTxq priv aggState q).tidData = priv.tidData := by
  rw [releaseAggTxq]
  split_ifs <;> rfl

theorem tidData_aggTurnOff (h : ra' ≠ ra) :
    (aggTurnOff priv ra).tidData ra' = priv.tidData ra' := by
  have hrelease : (aggTurnOff priv ra).tidData =
      (priv.setTid ra { priv.tidData ra with state := .off }).tidData := tidData_releaseAggTxq ..
  rw [hrelease, tidData_setTid h]

theorem tidData_aggStartSession (n : ℕ) (ctx : AggCtx) (fw : ℤ) (h : ra' ≠ ra) :
    (aggStartSession n priv ctx ra fw).2.tidData ra' = priv.tidData ra' := by
  unfold aggStartSession iwlagnAllocAggTxq
  split
  · rfl
  cases freeAggTxq n priv.aggQAlloc with
  | none => rfl
  | some q =>
    dsimp only [Option.map_some]
    split
    · rfl
    split
    · exact tidData_setTid h _
    · exact tidData_setTid h _

theorem tidData_iwlagnTxAggStop {sta : Fin 16} {tid : Fin 8} (h : ra' ≠ (sta, tid)) :
    (iwlagnTxAggStop priv (some sta) tid).2.tidData ra' = priv.tidData ra' := by
  unfold iwlagnTxAggStop
  dsimp only
  split
  · exact tidData_aggTurnOff h
  · exact tidData_aggTurnOff h
  · split
    · exact tidData_setTid h _
    · rw [tidData_aggTurnOff h, tidData_setTid h]
  · rfl

theorem tidData_iwlagnCheckRatidEmpty (h : ra' ≠ ra) :
    (iwlagnCheckRatidEmpty priv ra).tidData ra' = priv.tidData ra' := by
  unfold iwlagnCheckRatidEmpty
  dsimp only
  split
  · split
    · exact tidData_setTid h _
    · rfl
  · split
    · exact tidData_setTid h _
    · rfl
  · rfl

theorem aggCall_tidData (n : ℕ) (e : AggEvent) (h : e.session ≠ some ra') :
    (aggCall n priv e).2.tidData ra' = priv.tidData ra' := by
  cases e with
  | start ctx sta tid fw =>
    rw [aggCall]
    unfold iwlagnTxAggStart
    cases sta with
    | none => rfl
    | some sta =>
      dsimp only
      split
      · rename_i htid
        have hne : (sta, ⟨tid, htid⟩) ≠ ra' := by simpa [AggEvent.session, htid] using h
        exact tidData_aggStartSession n ctx fw hne.symm
      · rfl
  | oper ctx ra bufSize lq =>
    have hne : ra ≠ ra' := fun hra => h (congrArg some hra)
    exact tidData_setTid hne.symm _
  | stop sta tid =>
    cases sta with
    | none => rfl
    | some sta =>
      have hne : (sta, tid) ≠ ra' := fun hra => h (congrArg some hra)
      exact tidData_iwlagnTxAggStop hne.symm
  | flush ra =>
    have hne : ra ≠ ra' := fun hra => h (congrArg some hra)
    have hrelease : (aggCall n priv (.flush ra)).2.tidData =
        (priv.setTid ra { priv.tidData ra with state := .off }).tidData := tidData_releaseAggTxq ..
    rw [hrelease, tidData_setTid hne.symm]
  | sent ra seqNumber =>
    have hne : ra ≠ ra' := fun hra => h (congrArg some hra)
    exact tidData_setTid hne.symm _
  | reclaim ra nextReclaimed =>
    have hne : ra ≠ ra' := fun hra => h (congrArg some hra)
    rw [aggCall, tidData_iwlagnCheckRatidEmpty hne.symm, tidData_setTid hne.symm]

end Frame

/-! ## Errors -/

section Errors

variable {priv : AggPriv}

theorem aggStartSession_error (n : ℕ) (ctx : AggCtx) (ra : Fin 16 × Fin 8) {fw : ℤ}
    (hC : StartKeeps n priv ra fw) (herr : (aggStartSession n priv ctx ra fw).1 < 0) :
    (aggStartSession n priv ctx ra fw).2.aggQAlloc = priv.aggQAlloc := by
  revert herr
  unfold aggStartSession iwlagnAllocAggTxq
  split
  · exact fun _ => rfl
  rename_i hoff
  rw [not_not] at hoff
  cases hfree : freeAggTxq n priv.aggQAlloc with
  | none => exact fun _ => rfl
  | some q =>
    -- the firmware accepts, so no error is returned
    have hfw : fw = 0 := hC hoff (hfree ▸ Option.some_ne_none q)
    dsimp only [Option.map_some]
    rw [if_neg (not_not.2 hfw)]
    split
    · exact fun herr => absurd herr (by decide : ¬ampduTxStartImmediate < 0)
    · exact fun herr => absurd herr (Int.lt_irrefl 0)

/-- A call that returns an error leaves the allocated queues as they were. -/
theorem aggCall_error {n : ℕ} {e : AggEvent} (hC : KeepsQueues n priv e)
    (herr : (aggCall n priv e).1 < 0) : (aggCall n priv e).2.aggQAlloc = priv.aggQAlloc := by
  cases e with
  | start ctx sta tid fw =>
    revert herr
    rw [aggCall]
    unfold iwlagnTxAggStart
    cases sta with
    | none => exact fun _ => rfl
    | some sta =>
      dsimp only
      split
      · rename_i htid
        exact aggStartSession_error n ctx _ (hC sta rfl htid)
      · exact fun _ => rfl
  | oper ctx ra bufSize lq => rfl
  | stop sta tid =>
    revert herr
    rw [aggCall]
    unfold iwlagnTxAggStop
    cases sta with
    | none => exact fun _ => rfl
    | some sta =>
      dsimp only
      split
      · exact fun herr => absurd herr (Int.lt_irrefl 0)
      · exact fun herr => absurd herr (Int.lt_irrefl 0)
      · split
        · exact fun herr => absurd herr (Int.lt_irrefl 0)
        · exact fun herr => absurd herr (Int.lt_irrefl 0)
      · exact fun herr => absurd herr (Int.lt_irrefl 0)
  | flush ra => exact absurd herr (Int.lt_irrefl 0)
  | sent ra seqNumber => rfl
  | reclaim ra nextReclaimed => exact absurd herr (Int.lt_irrefl 0)

end Errors

/-! ## Runs from the start -/

/-- The state after the driver is set up. -/
def aggInit (queueToMac80211 : ℕ → ℕ) : AggPriv where
  tidData _ := ⟨0, 0, .off, 0, 0⟩
  aggQAlloc _ := false
  queueToMac80211 := queueToMac80211
  aggTidsCount := 0
  maxAggBufsize _ := 0
  notices := []

theorem aggInit_owned (queueToMac80211 : ℕ → ℕ) : (aggInit queueToMac80211).pool.Owned :=
  fun _ => ⟨fun h => Bool.noConfusion h, fun _ h => by cases h⟩

/-- What a call does to the queues besides the pool being in order: an error leaves the allocated
queues as they were, and a session that the call is not about keeps its queue. -/
def CallFrames (n : ℕ) (priv : AggPriv) (e : AggEvent) : Prop :=
  ((aggCall n priv e).1 < 0 → (aggCall n priv e).2.aggQAlloc = priv.aggQAlloc) ∧
    ∀ ra q, e.session ≠ some ra → priv.pool.owner ra = some q →
      (aggCall n priv e).2.pool.owner ra = some q ∧ (aggCall n priv e).2.pool.alloc q = true

theorem callFrames {n : ℕ} {priv : AggPriv} {e : AggEvent} (hC : KeepsQueues n priv e)
    (h : priv.pool.Owned) : CallFrames n priv e := by
  refine ⟨aggCall_error hC, fun ra q hsession howner => ?_⟩
  have hafter : (aggCall n priv e).2.pool.owner ra = some q := by
    rw [← howner]
    exact congrArg TidData.queue (aggCall_tidData n e hsession)
  exact ⟨hafter, ((aggCall_owned_iff n h e).2 hC).alloc_eq hafter⟩

/-- **Aggregation queues.** In all states of a run the allocated queues are those that the sessions
hold, one each, errors change none of them and each call keeps the queues of the other sessions,
exactly when the firmware accepts every start that has taken a queue, only sessions that are not
off become operational, and sessions that are off are flushed when the queue of their last run is
free. -/
theorem agg_queues_iff (n : ℕ) (queueToMac80211 : ℕ → ℕ) (es : List AggEvent) :
    ((∀ fs t, fs <+: es → Lts.exec (aggStep n) (aggInit queueToMac80211) fs = some t →
        t.pool.Owned) ∧
      ∀ fs e t, fs ++ [e] <+: es → Lts.exec (aggStep n) (aggInit queueToMac80211) fs = some t →
        CallFrames n t e) ↔
    Lts.Meets (aggStep n) (KeepsQueues n) (aggInit queueToMac80211) es := by
  have hstep (s : AggPriv) (e : AggEvent) (s' : AggPriv) (_ : True) (h : s.pool.Owned)
      (hs' : aggStep n s e = some s') : s'.pool.Owned ↔ KeepsQueues n s e := by
    obtain rfl := Option.some.inj hs'
    exact aggCall_owned_iff n h e
  have halways := Lts.always_iff (aggStep n) (fun _ _ _ _ _ => trivial) hstep trivial
    (aggInit_owned queueToMac80211) (Lts.exec_total _ _ es)
  refine ⟨fun h => halways.1 h.1, fun hC => ?_⟩
  refine ⟨halways.2 hC, fun fs e t hfs ht => ?_⟩
  have hlast : Lts.Meets (aggStep n) (KeepsQueues n) t [e] :=
    Lts.Meets.right _ (Lts.Meets.initial _ hC hfs) ht
  exact callFrames hlast.1 (halways.2 hC fs t ((List.prefix_append fs [e]).trans hfs) ht)

/-- The access categories as queues and FIFOs. -/
def aggCtxBss : AggCtx := ⟨id, id⟩

/-- A session is started, becomes operational and is stopped, and then another one is started. -/
theorem agg_queues_stop :
    (∀ fs t, fs <+: [.start aggCtxBss (some 2) 0 0, .oper aggCtxBss (2, 0) 64 0, .stop (some 2) 0,
        .start aggCtxBss (some 3) 5 0] →
      Lts.exec (aggStep 20) (aggInit id) fs = some t → t.pool.Owned) ∧
    ∀ fs e t, fs ++ [e] <+: [.start aggCtxBss (some 2) 0 0, .oper aggCtxBss (2, 0) 64 0,
        .stop (some 2) 0, .start aggCtxBss (some 3) 5 0] →
      Lts.exec (aggStep 20) (aggInit id) fs = some t → CallFrames 20 t e := by
  refine (agg_queues_iff 20 id _).2 ?_
  refine (Lts.meets_cons_iff _ rfl).2 ⟨fun _ _ _ _ _ => rfl, ?_⟩
  refine (Lts.meets_cons_iff _ rfl).2 ⟨?_, ?_⟩
  · rw [KeepsQueues]
    decide
  · refine (Lts.meets_cons_iff _ rfl).2 ⟨trivial, ?_⟩
    exact (Lts.meets_cons_iff _ rfl).2 ⟨fun _ _ _ _ _ => rfl, trivial⟩

/-- The firmware refuses a start: the error leaves queue 11 allocated, and nobody holds it. -/
theorem agg_start_leaks : ¬∀ (n : ℕ) (queueToMac80211 : ℕ → ℕ) (es : List AggEvent),
    (∀ fs t, fs <+: es → Lts.exec (aggStep n) (aggInit queueToMac80211) fs = some t →
        t.pool.Owned) ∧
      ∀ fs e t, fs ++ [e] <+: es → Lts.exec (aggStep n) (aggInit queueToMac80211) fs = some t →
        CallFrames n t e := by
  intro h
  have herr := ((h 20 id [.start aggCtxBss (some 2) 0 (-5)]).2 [] _ _ List.prefix_rfl rfl).1
    (by decide)
  have halloc := congrFun herr 11
  revert halloc
  decide

end Iax.Dvm
