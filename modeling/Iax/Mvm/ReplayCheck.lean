import Iax.Lib.Lts
import Iax.Mvm.TxCmd
import Mathlib.Data.List.Chain

/-!
# Replay protection of the receive queues

A frame passes `iwl_mvm_is_dup` when it arrives and `iwl_mvm_check_pn` when it is handed on
(`mvm/rxmq.c`); in between it may wait in the reorder buffer, so that frames come to the second
check in any order. The first one keeps the last sequence control field and subframe index of each
queue and TID, the second one the last packet number of each key, queue and TID.

* `pn_iff_memcmp`: the bytes are compared as 48-bit numbers.
* `PnInv`: packet numbers do not decrease, and repeat only for frames that are marked.
* `DupInv`: a frame is marked only when it continues the frame recorded before it, as long as
  `iwl_mvm_is_dup` does not write outside its arrays: it has records for the TIDs up to 8, and the
  sequence control field of the TIDs 9 to 13 lies over the subframe indices of the others.
* `replay_protected`: both, for every run.
-/

namespace Iax.Mvm

open Bytes

/-! ## Frames -/

def isCtl (fc : BitVec 16) : Bool := ftype fc == 0x0004#16
def isQosNullfunc (fc : BitVec 16) : Bool := fstype fc == 0x00c8#16
def hasRetry (fc : BitVec 16) : Bool := fc &&& 0x0800#16 != 0#16

/-- `struct ieee80211_rx_status`: the flags that are read and set. -/
structure RxStatus where
  decrypted : Bool
  allowSamePn : Bool := false
  dupValidated : Bool := false
  pnValidated : Bool := false

/-- `struct iwl_rx_mpdu_desc`: the fields that are read. -/
structure MpduDesc where
  amsduInfo : UInt8
  macFlags2 : UInt8

/-- A frame with its descriptor, the queue it arrives on, and whether it is from a known station. -/
structure RxFrame where
  skb : SkBuff
  desc : MpduDesc
  queue : ℕ
  hasSta : Bool

namespace RxFrame

variable (f : RxFrame)

def fc : BitVec 16 := f.skb.frameControl

/-- `hdr->seq_ctrl`, as its two bytes. -/
def seqCtrl : UInt8 × UInt8 := (f.skb.byte 22, f.skb.byte 23)

/-- `ieee80211_get_tid`. -/
def tid : ℕ := (qosCtl f.skb &&& 0xf).toNat

/-- `desc->amsdu_info & IWL_RX_MPDU_AMSDU_SUBFRAME_IDX_MASK`. -/
def subFrameIdx : UInt8 := f.desc.amsduInfo &&& 0x7f

/-- `desc->mac_flags2 & IWL_RX_MPDU_MFLG2_AMSDU`. -/
def isAmsdu : Bool := f.desc.macFlags2 &&& 0x40 != 0

/-- The byte `extiv[i]` after the header. -/
def extiv (i : ℕ) : UInt8 := f.skb.byte (ieee80211Hdrlen f.fc + i)

def keyidx : ℕ := (f.extiv 3 >>> 6).toNat

/-- The TID of the duplicate check. -/
def dupTid : ℕ := if isDataQos f.fc then f.tid else iwlMaxTidCount

/-- The TID of the packet number check. -/
def pnTid : ℕ := if isDataQos f.fc then f.tid else 0

/-- The frames that the duplicate check leaves alone. -/
def skipsDup : Bool := isCtl f.fc || isQosNullfunc f.fc || f.skb.isMulticast

end RxFrame

/-! ## The duplicate check -/

/-- `struct iwl_mvm_rxq_dup_data` byte by byte: `last_seq` has nine entries of two bytes, and
`last_sub_frame` follows. The struct is padded to a cache line, so that no index of a TID leaves
it. -/
abbrev DupData := ℕ → UInt8

namespace DupData

/-- `last_seq[tid]`. -/
def lastSeq (d : DupData) (tid : ℕ) : UInt8 × UInt8 := (d (2 * tid), d (2 * tid + 1))

/-- `last_sub_frame[tid]`. -/
def lastSubFrame (d : DupData) (tid : ℕ) : UInt8 := d (2 * (iwlMaxTidCount + 1) + tid)

/-- The two assignments at the end of `iwl_mvm_is_dup`. -/
def record (d : DupData) (tid : ℕ) (seqCtrl : UInt8 × UInt8) (subFrameIdx : UInt8) : DupData :=
  let d := Function.update (Function.update d (2 * tid) seqCtrl.1) (2 * tid + 1) seqCtrl.2
  Function.update d (2 * (iwlMaxTidCount + 1) + tid) subFrameIdx

end DupData

/-- `iwl_mvm_is_dup`. -/
def iwlMvmIsDup (dupData : ℕ → DupData) (rxStatus : RxStatus) (f : RxFrame) :
    Bool × (ℕ → DupData) × RxStatus :=
  if !f.hasSta then (false, dupData, rxStatus)
  else
    let d := dupData f.queue
    if f.skipsDup then (false, dupData, { rxStatus with dupValidated := true })
    else
      let tid := f.dupTid
      if hasRetry f.fc ∧ d.lastSeq tid = f.seqCtrl ∧ f.subFrameIdx ≤ d.lastSubFrame tid then
        (true, dupData, rxStatus)
      else
        let rxStatus :=
          if d.lastSeq tid = f.seqCtrl ∧ d.lastSubFrame tid < f.subFrameIdx ∧ f.isAmsdu then
            { rxStatus with allowSamePn := true }
          else rxStatus
        (false, Function.update dupData f.queue (d.record tid f.seqCtrl f.subFrameIdx),
          { rxStatus with dupValidated := true })

/-! ## The packet number check -/

/-- The bytes of a packet number. -/
abbrev Pn := { bs : Bytes // bs.length = 6 }

/-- Its value. -/
def Pn.toNat (pn : Pn) : ℕ := beNat pn.1

/-- `struct iwl_mvm_key_pn`, by queue and TID. -/
abbrev KeyPn := ℕ → ℕ → Pn

/-- The bytes that `iwl_mvm_check_pn` loads. -/
def RxFrame.pn (f : RxFrame) : Pn :=
  ⟨[f.extiv 7, f.extiv 6, f.extiv 5, f.extiv 4, f.extiv 1, f.extiv 0], rfl⟩

/-- `memcpy` to `ptk_pn->q[queue].pn[tid]`. -/
def setPn (ptkPn : ℕ → Option KeyPn) (keyidx : ℕ) (q : KeyPn) (queue tid : ℕ) (pn : Pn) :
    ℕ → Option KeyPn :=
  Function.update ptkPn keyidx
    (some (Function.update q queue (Function.update (q queue) tid pn)))

/-- `iwl_mvm_check_pn`. -/
def iwlMvmCheckPn (ptkPn : ℕ → Option KeyPn) (stats : RxStatus) (f : RxFrame) :
    ℤ × (ℕ → Option KeyPn) × RxStatus :=
  if !isData f.fc || f.skb.isMulticast then (0, ptkPn, stats)
  else if !stats.decrypted then (0, ptkPn, stats)
  else if f.queue = 0 then (0, ptkPn, stats)
  else if !f.hasSta then (-1, ptkPn, stats)
  else match ptkPn f.keyidx with
    | none => (-1, ptkPn, stats)
    | some q =>
      if iwlMaxTidCount ≤ f.pnTid then (-1, ptkPn, stats)
      else
        let res := memcmp f.pn.1 (q f.queue f.pnTid).1
        if res = .lt then (-1, ptkPn, stats)
        else if res = .eq ∧ stats.allowSamePn = false then (-1, ptkPn, stats)
        else (0, setPn ptkPn f.keyidx q f.queue f.pnTid f.pn, { stats with pnValidated := true })

/-! ## Runs -/

/-- What the duplicate check has recorded of a frame. -/
structure DupRecord where
  queue : ℕ
  tid : ℕ
  seqCtrl : UInt8 × UInt8
  subFrameIdx : UInt8

/-- A frame between the two checks. `before` is the last record of its queue and TID when it
arrived. -/
structure Waiting where
  frame : RxFrame
  status : RxStatus
  before : Option DupRecord

/-- One station's data, the frames between the two checks, and as history what has been recorded,
newest first, and which frames the packet number check has let through. -/
structure RxPath where
  dupData : ℕ → DupData
  ptkPn : ℕ → Option KeyPn
  waiting : List Waiting
  recorded : List DupRecord
  accepted : List Waiting

inductive RxEvent
  /-- A frame arrives. -/
  | offer (f : RxFrame) (decrypted : Bool)
  /-- The frame at a place of the waiting ones is handed on. -/
  | check (k : ℕ)

/-- The last record of a queue and a TID. -/
def RxPath.lastRecord (s : RxPath) (queue tid : ℕ) : Option DupRecord :=
  s.recorded.find? fun r => r.queue = queue ∧ r.tid = tid

/-- What is recorded of a frame. -/
def RxFrame.record (f : RxFrame) : DupRecord := ⟨f.queue, f.dupTid, f.seqCtrl, f.subFrameIdx⟩

/-- The hardware-decrypted unicast data frames of the other queues. -/
def Waiting.pnChecked (w : Waiting) : Bool :=
  isData w.frame.fc && !w.frame.skb.isMulticast && w.status.decrypted && w.frame.queue != 0

def rxPathStep (s : RxPath) : RxEvent → Option RxPath
  | .offer f decrypted =>
    let (dup, dupData, status) := iwlMvmIsDup s.dupData { decrypted := decrypted } f
    some { s with
      dupData := dupData
      recorded :=
        if f.hasSta && !f.skipsDup && !dup then f.record :: s.recorded else s.recorded
      waiting :=
        if dup then s.waiting else s.waiting ++ [⟨f, status, s.lastRecord f.queue f.dupTid⟩] }
  | .check k =>
    match s.waiting[k]? with
    | none => none
    | some w =>
      let (res, ptkPn, _) := iwlMvmCheckPn s.ptkPn w.status w.frame
      some { s with
        ptkPn := ptkPn
        waiting := s.waiting.eraseIdx k
        accepted := if res = 0 ∧ w.pnChecked = true then s.accepted ++ [w] else s.accepted }

/-! ## What the checks do -/

/-- The bytes are compared as 48-bit numbers. -/
theorem pn_iff_memcmp (p q : Pn) : memcmp p.1 q.1 = compare p.toNat q.toNat :=
  memcmp_eq_compare (p.2.trans q.2.symm)

/-- What the duplicate check can do: nothing, drop the frame, or record it. A frame is marked only
in the last case. -/
theorem iwlMvmIsDup_cases (dupData : ℕ → DupData) (status : RxStatus) (f : RxFrame) :
    (∃ status', iwlMvmIsDup dupData status f = (false, dupData, status') ∧
        (f.hasSta && !f.skipsDup) = false ∧ status'.allowSamePn = status.allowSamePn) ∨
      iwlMvmIsDup dupData status f = (true, dupData, status) ∨
      ∃ status', iwlMvmIsDup dupData status f = (false, Function.update dupData f.queue
          ((dupData f.queue).record f.dupTid f.seqCtrl f.subFrameIdx), status') ∧
        (f.hasSta && !f.skipsDup) = true ∧
        (status'.allowSamePn = true → status.allowSamePn = true ∨
          (dupData f.queue).lastSeq f.dupTid = f.seqCtrl ∧
          (dupData f.queue).lastSubFrame f.dupTid < f.subFrameIdx ∧ f.isAmsdu = true) := by
  unfold iwlMvmIsDup
  dsimp only
  split
  · rename_i hsta
    exact .inl ⟨status, rfl, by simp_all, rfl⟩
  split
  · rename_i hskip
    exact .inl ⟨_, rfl, by simp_all, rfl⟩
  split
  · exact .inr (.inl rfl)
  rename_i hsta hskip hdup
  refine .inr (.inr ⟨_, rfl, by simp_all, ?_⟩)
  split
  · rename_i hsame
    exact fun _ => .inr hsame
  · exact fun h => .inl h

/-- What the packet number check does to a frame that it checks: it drops the frame, or the packet
number is not below the stored one, is it only for a marked frame, and is stored. -/
theorem iwlMvmCheckPn_cases (ptkPn : ℕ → Option KeyPn) (w : Waiting) :
    ((iwlMvmCheckPn ptkPn w.status w.frame).2.1 = ptkPn ∧
        ¬((iwlMvmCheckPn ptkPn w.status w.frame).1 = 0 ∧ w.pnChecked = true)) ∨
      ∃ q, ptkPn w.frame.keyidx = some q ∧
        (iwlMvmCheckPn ptkPn w.status w.frame).2.1 =
          setPn ptkPn w.frame.keyidx q w.frame.queue w.frame.pnTid w.frame.pn ∧
        ((iwlMvmCheckPn ptkPn w.status w.frame).1 = 0 ∧ w.pnChecked = true) ∧
        w.frame.pnTid < iwlMaxTidCount ∧
        (q w.frame.queue w.frame.pnTid).toNat ≤ w.frame.pn.toNat ∧
        ((q w.frame.queue w.frame.pnTid).toNat = w.frame.pn.toNat →
          w.status.allowSamePn = true) := by
  unfold iwlMvmCheckPn Waiting.pnChecked
  split
  · rename_i h
    refine .inl ⟨rfl, ?_⟩
    rw [Bool.or_eq_true, Bool.not_eq_true'] at h
    rcases h with h | h <;> simp [h]
  split
  · rename_i h
    exact .inl ⟨rfl, by simp_all⟩
  split
  · rename_i h
    exact .inl ⟨rfl, by simp_all⟩
  split
  · exact .inl ⟨rfl, by simp⟩
  split
  · exact .inl ⟨rfl, by simp⟩
  rename_i q hq
  split
  · exact .inl ⟨rfl, by simp⟩
  dsimp only
  rw [pn_iff_memcmp]
  split
  · exact .inl ⟨rfl, by simp⟩
  split
  · exact .inl ⟨rfl, by simp⟩
  rename_i hdata hdec hqueue hsta htid hlt heq
  refine .inr ⟨q, hq, rfl, ⟨rfl, by simp_all⟩, Nat.lt_of_not_le htid, ?_,
    fun hsame => ?_⟩
  · rw [compare_lt_iff_lt] at hlt
    exact Nat.le_of_not_lt hlt
  · rw [compare_eq_iff_eq] at heq
    simpa [hsame] using heq

/-- A frame waits for the packet number check. -/
def RxPath.enqueue (s : RxPath) (f : RxFrame) (status : RxStatus) : RxPath :=
  { s with waiting := s.waiting ++ [⟨f, status, s.lastRecord f.queue f.dupTid⟩] }

/-- A frame is recorded, and waits for the packet number check. -/
def RxPath.recordFrame (s : RxPath) (f : RxFrame) (status : RxStatus) : RxPath :=
  { s.enqueue f status with
    dupData := Function.update s.dupData f.queue
      ((s.dupData f.queue).record f.dupTid f.seqCtrl f.subFrameIdx)
    recorded := f.record :: s.recorded }

/-- A frame is accepted, and its packet number is stored. -/
def RxPath.accept (s : RxPath) (k : ℕ) (w : Waiting) (q : KeyPn) : RxPath :=
  { s with
    ptkPn := setPn s.ptkPn w.frame.keyidx q w.frame.queue w.frame.pnTid w.frame.pn
    waiting := s.waiting.eraseIdx k
    accepted := s.accepted ++ [w] }

/-- One step, by what the checks do. -/
theorem rxPathStep_cases {s s' : RxPath} {e : RxEvent} (h : rxPathStep s e = some s') :
    (∃ f decrypted status, e = .offer f decrypted ∧ (f.hasSta && !f.skipsDup) = false ∧
        status.allowSamePn = false ∧ s' = s.enqueue f status) ∨
      s' = s ∨
      (∃ f decrypted status, e = .offer f decrypted ∧ (f.hasSta && !f.skipsDup) = true ∧
        (status.allowSamePn = true → (s.dupData f.queue).lastSeq f.dupTid = f.seqCtrl ∧
          (s.dupData f.queue).lastSubFrame f.dupTid < f.subFrameIdx ∧ f.isAmsdu = true) ∧
        s' = s.recordFrame f status) ∨
      (∃ k w, e = .check k ∧ s.waiting[k]? = some w ∧
        s' = { s with waiting := s.waiting.eraseIdx k }) ∨
      ∃ k w q, e = .check k ∧ s.waiting[k]? = some w ∧ s.ptkPn w.frame.keyidx = some q ∧
        w.frame.pnTid < iwlMaxTidCount ∧ (q w.frame.queue w.frame.pnTid).toNat ≤ w.frame.pn.toNat ∧
        ((q w.frame.queue w.frame.pnTid).toNat = w.frame.pn.toNat →
          w.status.allowSamePn = true) ∧
        s' = s.accept k w q := by
  cases e with
  | offer f decrypted =>
    rcases iwlMvmIsDup_cases s.dupData { decrypted := decrypted } f with
      ⟨status, hdup, hrec, hmark⟩ | hdup | ⟨status, hdup, hrec, hmark⟩
    · simp only [rxPathStep, hdup, hrec, Option.some.injEq] at h
      exact .inl ⟨f, decrypted, status, rfl, hrec, hmark, h.symm⟩
    · simp only [rxPathStep, hdup, Option.some.injEq] at h
      refine .inr (.inl ?_)
      simpa using h.symm
    · simp only [rxPathStep, hdup, hrec, Option.some.injEq] at h
      exact .inr (.inr (.inl ⟨f, decrypted, status, rfl, hrec,
        fun hm => (hmark hm).resolve_left Bool.false_ne_true, h.symm⟩))
  | check k =>
    simp only [rxPathStep] at h
    split at h
    · cases h
    · rename_i w hw
      rcases iwlMvmCheckPn_cases s.ptkPn w with ⟨hpn, hno⟩ | ⟨q, hq, hpn, hyes, htid, hle, hsame⟩
      · rw [hpn, if_neg hno] at h
        exact .inr (.inr (.inr (.inl ⟨k, w, rfl, hw, (Option.some.inj h).symm⟩)))
      · rw [hpn, if_pos hyes] at h
        exact .inr (.inr (.inr (.inr ⟨k, w, q, rfl, hw, hq, htid, hle, hsame,
          (Option.some.inj h).symm⟩)))

/-! ## Packet numbers -/

/-- The accepted frames of a key, a queue and a TID, in their order. -/
def RxPath.acceptedBy (s : RxPath) (keyidx queue tid : ℕ) : List Waiting :=
  s.accepted.filter fun w =>
    w.frame.keyidx = keyidx ∧ w.frame.queue = queue ∧ w.frame.pnTid = tid

/-- The stored packet number. -/
def RxPath.storedPn (s : RxPath) (keyidx queue tid : ℕ) : Option ℕ :=
  (s.ptkPn keyidx).map fun q => (q queue tid).toNat

/-- Packet numbers do not decrease, and repeat only for marked frames. -/
def PnNext (x y : Waiting) : Prop :=
  x.frame.pn.toNat ≤ y.frame.pn.toNat ∧
    (x.frame.pn.toNat = y.frame.pn.toNat → y.status.allowSamePn = true)

/-- The packet number that is stored is that of the last accepted frame. -/
structure PnInv (s : RxPath) : Prop where
  chain : ∀ keyidx queue tid, (s.acceptedBy keyidx queue tid).IsChain PnNext
  last : ∀ keyidx queue tid, ∀ w ∈ (s.acceptedBy keyidx queue tid).getLast?,
    s.storedPn keyidx queue tid = some w.frame.pn.toNat

/-- An accepted frame changes the stored packet number at one place. -/
theorem storedPn_accept (s : RxPath) (k : ℕ) (w : Waiting) {q : KeyPn}
    (hq : s.ptkPn w.frame.keyidx = some q) (keyidx queue tid : ℕ) :
    (s.accept k w q).storedPn keyidx queue tid =
      if w.frame.keyidx = keyidx ∧ w.frame.queue = queue ∧ w.frame.pnTid = tid then
        some w.frame.pn.toNat
      else s.storedPn keyidx queue tid := by
  simp only [RxPath.storedPn, RxPath.accept, setPn]
  by_cases hkey : w.frame.keyidx = keyidx
  · subst hkey
    rw [Function.update_self, hq, Option.map_some, Option.map_some]
    by_cases hqueue : w.frame.queue = queue
    · subst hqueue
      rw [Function.update_self]
      by_cases htid : w.frame.pnTid = tid
      · subst htid
        rw [Function.update_self, if_pos ⟨rfl, rfl, rfl⟩]
      · rw [Function.update_of_ne (Ne.symm htid), if_neg fun h => htid h.2.2]
    · rw [Function.update_of_ne (Ne.symm hqueue), if_neg fun h => hqueue h.2.1]
  · rw [Function.update_of_ne (Ne.symm hkey), if_neg fun h => hkey h.1]

theorem acceptedBy_accept (s : RxPath) (k : ℕ) (w : Waiting) (q : KeyPn) (keyidx queue tid : ℕ) :
    (s.accept k w q).acceptedBy keyidx queue tid = s.acceptedBy keyidx queue tid ++
      if w.frame.keyidx = keyidx ∧ w.frame.queue = queue ∧ w.frame.pnTid = tid then [w]
      else [] := by
  simp only [RxPath.acceptedBy, RxPath.accept, List.filter_append, List.filter_cons,
    List.filter_nil, decide_eq_true_eq]

theorem PnInv.step {s s' : RxPath} {e : RxEvent} (hI : PnInv s)
    (h : rxPathStep s e = some s') : PnInv s' := by
  rcases rxPathStep_cases h with ⟨f, d, status, -, -, -, rfl⟩ | rfl | ⟨f, d, status, -, -, -, rfl⟩ |
    ⟨k, w, -, -, rfl⟩ | ⟨k, w, q, -, -, hq, -, hle, hsame, rfl⟩
  · exact ⟨hI.chain, hI.last⟩
  · exact hI
  · exact ⟨hI.chain, hI.last⟩
  · exact ⟨hI.chain, hI.last⟩
  · constructor
    · intro key queue tid
      rw [acceptedBy_accept]
      split_ifs with hkey
      · obtain ⟨rfl, rfl, rfl⟩ := hkey
        refine List.isChain_append.2 ⟨hI.chain _ _ _, List.isChain_singleton w, ?_⟩
        rintro x hx y hy
        obtain rfl : w = y := by simpa using hy
        have hstored := hI.last _ _ _ x hx
        rw [RxPath.storedPn, hq, Option.map_some, Option.some.injEq] at hstored
        rw [hstored] at hle hsame
        exact ⟨hle, hsame⟩
      · rw [List.append_nil]
        exact hI.chain key queue tid
    · intro key queue tid x hx
      rw [acceptedBy_accept] at hx
      rw [storedPn_accept s k w hq]
      split_ifs at hx ⊢ with hkey
      · obtain rfl : w = x := by simpa using hx
        rfl
      · rw [List.append_nil] at hx
        exact hI.last key queue tid x hx

/-- A step does not take a stored packet number back. -/
theorem storedPn_step {s s' : RxPath} {e : RxEvent} (h : rxPathStep s e = some s')
    (keyidx queue tid : ℕ) {n : ℕ} (hn : s.storedPn keyidx queue tid = some n) :
    ∃ n', s'.storedPn keyidx queue tid = some n' ∧ n ≤ n' := by
  rcases rxPathStep_cases h with ⟨f, d, status, -, -, -, rfl⟩ | rfl | ⟨f, d, status, -, -, -, rfl⟩ |
    ⟨k, w, -, -, rfl⟩ | ⟨k, w, q, -, -, hq, -, hle, -, rfl⟩
  · exact ⟨n, hn, le_rfl⟩
  · exact ⟨n, hn, le_rfl⟩
  · exact ⟨n, hn, le_rfl⟩
  · exact ⟨n, hn, le_rfl⟩
  · rw [storedPn_accept s k w hq]
    split_ifs with hkey
    · obtain ⟨rfl, rfl, rfl⟩ := hkey
      rw [RxPath.storedPn, hq, Option.map_some, Option.some.injEq] at hn
      exact ⟨_, rfl, hn ▸ hle⟩
    · exact ⟨n, hn, le_rfl⟩

/-! ## The records -/

namespace DupData

theorem lastSeq_record (d : DupData) {tid : ℕ} (h : tid ≤ iwlMaxTidCount)
    (seqCtrl : UInt8 × UInt8) (idx : UInt8) : (d.record tid seqCtrl idx).lastSeq tid = seqCtrl := by
  rw [iwlMaxTidCount] at h
  have h₁ : 2 * tid + 1 ≠ 2 * (8 + 1) + tid := by omega
  have h₂ : 2 * tid ≠ 2 * (8 + 1) + tid := by omega
  have h₃ : 2 * tid ≠ 2 * tid + 1 := by omega
  simp only [lastSeq, record, iwlMaxTidCount, Function.update_of_ne h₁, Function.update_of_ne h₂,
    Function.update_of_ne h₃, Function.update_self]

theorem lastSubFrame_record (d : DupData) (tid : ℕ) (seqCtrl : UInt8 × UInt8) (idx : UInt8) :
    (d.record tid seqCtrl idx).lastSubFrame tid = idx :=
  Function.update_self ..

/-- A record of another TID is kept when the write stays inside the arrays, or is beyond them by so
much that it falls into the padding. -/
theorem record_of_ne (d : DupData) {tid tid' : ℕ} (h : tid ≤ iwlMaxTidCount) (hne : tid ≠ tid')
    (htid' : tid' ≤ iwlMaxTidCount ∨ 13 < tid') (seqCtrl : UInt8 × UInt8) (idx : UInt8) :
    (d.record tid' seqCtrl idx).lastSeq tid = d.lastSeq tid ∧
      (d.record tid' seqCtrl idx).lastSubFrame tid = d.lastSubFrame tid := by
  rw [iwlMaxTidCount] at h htid'
  have hkeep : ∀ i, i = 2 * tid ∨ i = 2 * tid + 1 ∨ i = 2 * (8 + 1) + tid →
      d.record tid' seqCtrl idx i = d i := by
    intro i hi
    have h₁ : i ≠ 2 * (8 + 1) + tid' := by omega
    have h₂ : i ≠ 2 * tid' + 1 := by omega
    have h₃ : i ≠ 2 * tid' := by omega
    simp only [record, iwlMaxTidCount, Function.update_of_ne h₁, Function.update_of_ne h₂,
      Function.update_of_ne h₃]
  exact ⟨Prod.ext (hkeep _ (.inl rfl)) (hkeep _ (.inr (.inl rfl))), hkeep _ (.inr (.inr rfl))⟩

end DupData

/-- The frame continues the A-MSDU of the frame that was recorded before it. -/
def Waiting.Continues (w : Waiting) : Prop :=
  ∃ r, w.before = some r ∧ r.seqCtrl = w.frame.seqCtrl ∧ r.subFrameIdx < w.frame.subFrameIdx ∧
    w.frame.isAmsdu = true

/-- What `iwl_mvm_is_dup` writes for a frame is the record of its TID and no other's, and the frame
is not taken for the initial value of `last_seq`: as `iwl_mvm_sta_init` says, its fragment number is
not all ones. -/
def RecordFits : RxEvent → Prop
  | .offer f _ => (f.hasSta && !f.skipsDup) = true →
      (f.dupTid ≤ iwlMaxTidCount ∨ 13 < f.dupTid) ∧ f.seqCtrl ≠ (0xff, 0xff)
  | .check _ => True

instance : DecidablePred RecordFits
  | .offer f _ => inferInstanceAs (Decidable ((f.hasSta && !f.skipsDup) = true →
      (f.dupTid ≤ iwlMaxTidCount ∨ 13 < f.dupTid) ∧ f.seqCtrl ≠ (0xff, 0xff)))
  | .check _ => isTrue trivial

/-- The records are in the memory, and marks are right. -/
structure DupInv (s : RxPath) : Prop where
  memory : ∀ queue, ∀ tid ≤ iwlMaxTidCount, match s.lastRecord queue tid with
    | some r => (s.dupData queue).lastSeq tid = r.seqCtrl ∧
        (s.dupData queue).lastSubFrame tid = r.subFrameIdx
    | none => (s.dupData queue).lastSeq tid = (0xff, 0xff)
  waiting : ∀ w ∈ s.waiting, w.frame.dupTid ≤ iwlMaxTidCount → w.status.allowSamePn = true →
    w.Continues
  accepted : ∀ w ∈ s.accepted, w.status.allowSamePn = true → w.Continues

/-- A frame with a TID of the packet number check has a record of its own. -/
theorem RxFrame.dupTid_le {f : RxFrame} (h : f.pnTid < iwlMaxTidCount) :
    f.dupTid ≤ iwlMaxTidCount := by
  rw [pnTid] at h
  rw [dupTid]
  split_ifs at h ⊢
  · exact h.le
  · exact le_rfl

theorem lastRecord_recordFrame (s : RxPath) (f : RxFrame) (status : RxStatus) (queue tid : ℕ) :
    (s.recordFrame f status).lastRecord queue tid =
      if f.queue = queue ∧ f.dupTid = tid then some f.record else s.lastRecord queue tid := by
  split_ifs with hq
  · exact List.find?_cons_of_pos (decide_eq_true hq)
  · exact List.find?_cons_of_neg fun h => hq (of_decide_eq_true h)

/-- A frame that waits is marked only if it continues the A-MSDU that is recorded. -/
theorem DupInv.continues {s : RxPath} (hI : DupInv s) {f : RxFrame} {status : RxStatus}
    (htid : f.dupTid ≤ iwlMaxTidCount) (hfrag : f.seqCtrl ≠ (0xff, 0xff))
    (hmark : (s.dupData f.queue).lastSeq f.dupTid = f.seqCtrl ∧
      (s.dupData f.queue).lastSubFrame f.dupTid < f.subFrameIdx ∧ f.isAmsdu = true) :
    Waiting.Continues ⟨f, status, s.lastRecord f.queue f.dupTid⟩ := by
  obtain ⟨hseq, hsub, hamsdu⟩ := hmark
  have hmem := hI.memory f.queue f.dupTid htid
  cases hlast : s.lastRecord f.queue f.dupTid with
  | none =>
    rw [hlast] at hmem
    exact absurd (hseq.symm.trans hmem) hfrag
  | some r =>
    rw [hlast] at hmem
    exact ⟨r, rfl, hmem.1.symm.trans hseq, hmem.2 ▸ hsub, hamsdu⟩

/-- A frame is recorded at its TID, and nowhere else. -/
theorem DupInv.recordFrame {s : RxPath} (hI : DupInv s) {f : RxFrame} {status : RxStatus}
    (hfits : f.dupTid ≤ iwlMaxTidCount ∨ 13 < f.dupTid) (hfrag : f.seqCtrl ≠ (0xff, 0xff))
    (hmark : status.allowSamePn = true → (s.dupData f.queue).lastSeq f.dupTid = f.seqCtrl ∧
      (s.dupData f.queue).lastSubFrame f.dupTid < f.subFrameIdx ∧ f.isAmsdu = true) :
    DupInv (s.recordFrame f status) := by
  refine ⟨fun queue tid htid => ?_, fun w hw htid hm => ?_, hI.accepted⟩
  · rw [lastRecord_recordFrame]
    split_ifs with hq
    · obtain ⟨rfl, rfl⟩ := hq
      dsimp only [RxPath.recordFrame]
      rw [Function.update_self]
      exact ⟨DupData.lastSeq_record _ htid _ _, DupData.lastSubFrame_record ..⟩
    · have hmem := hI.memory queue tid htid
      dsimp only [RxPath.recordFrame]
      by_cases hqueue : queue = f.queue
      · subst hqueue
        obtain ⟨hseq, hsub⟩ := DupData.record_of_ne (s.dupData f.queue) htid
          (fun heq => hq ⟨rfl, heq.symm⟩) hfits f.seqCtrl f.subFrameIdx
        simpa only [Function.update_self, hseq, hsub] using hmem
      · simpa only [Function.update_of_ne hqueue] using hmem
  · rcases List.mem_append.1 hw with hw | hw
    · exact hI.waiting w hw htid hm
    · obtain rfl := List.mem_singleton.1 hw
      exact hI.continues htid hfrag (hmark hm)

theorem DupInv.step {s s' : RxPath} {e : RxEvent} (hI : DupInv s) (hC : RecordFits e)
    (h : rxPathStep s e = some s') : DupInv s' := by
  rcases rxPathStep_cases h with ⟨f, d, status, -, -, hmark, rfl⟩ | rfl |
    ⟨f, d, status, rfl, hrec, hmark, rfl⟩ | ⟨k, w, -, -, rfl⟩ |
    ⟨k, w, q, -, hw, -, htid, -, -, rfl⟩
  · refine ⟨hI.memory, fun w hw htid hm => ?_, hI.accepted⟩
    rcases List.mem_append.1 hw with hw | hw
    · exact hI.waiting w hw htid hm
    · obtain rfl := List.mem_singleton.1 hw
      exact absurd (hmark.symm.trans hm) Bool.false_ne_true
  · exact hI
  · obtain ⟨hfits, hfrag⟩ := hC hrec
    exact hI.recordFrame hfits hfrag hmark
  · exact ⟨hI.memory, fun x hx => hI.waiting x (List.mem_of_mem_eraseIdx hx), hI.accepted⟩
  · refine ⟨hI.memory, fun x hx => hI.waiting x (List.mem_of_mem_eraseIdx hx),
      fun x hx hm => ?_⟩
    rcases List.mem_append.1 hx with hx | hx
    · exact hI.accepted x hx hm
    · obtain rfl := List.mem_singleton.1 hx
      exact hI.waiting x (List.mem_of_getElem? hw) (RxFrame.dupTid_le htid) hm

/-! ## Every run -/

/-- A new station: `last_seq` is set to ones, and the keys are as they were installed. -/
def RxPath.start (ptkPn : ℕ → Option KeyPn) : RxPath where
  dupData := fun _ i => if i < 2 * (iwlMaxTidCount + 1) then 0xff else 0
  ptkPn := ptkPn
  waiting := []
  recorded := []
  accepted := []

theorem PnInv.start (ptkPn : ℕ → Option KeyPn) : PnInv (.start ptkPn) :=
  ⟨fun _ _ _ => List.isChain_nil, by simp [RxPath.acceptedBy, RxPath.start]⟩

theorem DupInv.start (ptkPn : ℕ → Option KeyPn) : DupInv (.start ptkPn) := by
  refine ⟨fun queue tid htid => ?_, by simp [RxPath.start], by simp [RxPath.start]⟩
  have h₁ : 2 * tid < 2 * (iwlMaxTidCount + 1) := by omega
  have h₂ : 2 * tid + 1 < 2 * (iwlMaxTidCount + 1) := by omega
  simp only [RxPath.lastRecord, RxPath.start, List.find?_nil, DupData.lastSeq, if_pos h₁, if_pos h₂]

theorem PnInv.run {ptkPn : ℕ → Option KeyPn} {s : RxPath} {es : List RxEvent}
    (hrun : Lts.exec rxPathStep (.start ptkPn) es = some s) : PnInv s :=
  Lts.exec_invariant rxPathStep (fun _ _ _ hI _ h => hI.step h) (PnInv.start ptkPn)
    (Lts.meets_of_forall rxPathStep (C := fun _ _ => True) (fun _ _ => trivial) _ _) hrun

theorem DupInv.run {ptkPn : ℕ → Option KeyPn} {s : RxPath} {es : List RxEvent}
    (hrun : Lts.exec rxPathStep (.start ptkPn) es = some s) (hes : ∀ e ∈ es, RecordFits e) :
    DupInv s :=
  Lts.exec_invariant rxPathStep (fun _ _ _ hI hC h => hI.step hC h) (DupInv.start ptkPn)
    (Lts.meets_of_mem rxPathStep hes _) hrun

theorem storedPn_run {s s' : RxPath} {es : List RxEvent}
    (hrun : Lts.exec rxPathStep s es = some s') (keyidx queue tid : ℕ) {n : ℕ}
    (hn : s.storedPn keyidx queue tid = some n) :
    ∃ n', s'.storedPn keyidx queue tid = some n' ∧ n ≤ n' := by
  refine Lts.exec_invariant rxPathStep
    (I := fun t => ∃ n', t.storedPn keyidx queue tid = some n' ∧ n ≤ n') (C := fun _ _ => True)
    ?_ ⟨n, hn, le_rfl⟩ (Lts.meets_of_forall rxPathStep (fun _ _ => trivial) _ _) hrun
  rintro t e t' ⟨m, hm, hle⟩ - h
  obtain ⟨m', hm', hle'⟩ := storedPn_step h keyidx queue tid hm
  exact ⟨m', hm', hle.trans hle'⟩

/-- **Replay protection.** In every run, the packet numbers that a key, a queue and a TID accept do
not decrease, nor does the stored one; and when what is offered to the duplicate check fits its
records, two accepted frames in a row have the same packet number only if the later one is marked
and continues the A-MSDU of the frame that was recorded before it. -/
theorem replay_protected {ptkPn : ℕ → Option KeyPn} {s : RxPath} {es : List RxEvent}
    (hrun : Lts.exec rxPathStep (.start ptkPn) es = some s) :
    (∀ keyidx queue tid,
      ((s.acceptedBy keyidx queue tid).map (·.frame.pn.toNat)).Pairwise (· ≤ ·)) ∧
    (∀ es' t, es' <+: es → Lts.exec rxPathStep (.start ptkPn) es' = some t →
      ∀ keyidx queue tid n, t.storedPn keyidx queue tid = some n →
        ∃ n', s.storedPn keyidx queue tid = some n' ∧ n ≤ n') ∧
    ((∀ e ∈ es, RecordFits e) → ∀ keyidx queue tid, (s.acceptedBy keyidx queue tid).IsChain
      fun x y => x.frame.pn.toNat = y.frame.pn.toNat →
        y.status.allowSamePn = true ∧ y.Continues) := by
  have hpn := PnInv.run hrun
  refine ⟨fun keyidx queue tid => ?_, ?_, fun hes keyidx queue tid => ?_⟩
  · rw [← List.isChain_iff_pairwise, List.isChain_map]
    exact (hpn.chain keyidx queue tid).imp fun _ _ h => h.1
  · rintro es' t ⟨rest, rfl⟩ ht keyidx queue tid n hn
    rw [Lts.exec_append, ht, Option.bind_some] at hrun
    exact storedPn_run hrun keyidx queue tid hn
  · have hdup := DupInv.run hrun hes
    refine (hpn.chain keyidx queue tid).imp_of_mem_imp fun x y _ hy h heq => ?_
    have hmark := h.2 heq
    exact ⟨hmark, hdup.accepted y (List.mem_filter.1 hy).1 hmark⟩

/-! ## A replay -/

/-- A QoS data frame on queue 1 with key 0, and the packet number 5. -/
def replayFrame (tid idx : UInt8) (seqCtrl : UInt8 × UInt8) : RxFrame where
  skb := ⟨[0x88, 0x40] ++ List.replicate 20 0 ++ [seqCtrl.1, seqCtrl.2, tid, 0] ++
    [5, 0, 0, 0x20, 0, 0, 0, 0]⟩
  desc := ⟨idx, 0x40⟩
  queue := 1
  hasSta := true

/-- A key whose packet numbers are 0. -/
def replayKeys : ℕ → Option KeyPn := fun keyidx =>
  if keyidx = 0 then some fun _ _ => ⟨[0, 0, 0, 0, 0, 0], rfl⟩ else none

/-- Two subframes of one A-MSDU are accepted with one packet number. -/
theorem replay_protected_amsdu : ∃ s, Lts.exec rxPathStep (.start replayKeys)
    [.offer (replayFrame 0 0 (0x10, 0)) true, .check 0, .offer (replayFrame 0 1 (0x10, 0)) true,
      .check 0] = some s ∧ (s.acceptedBy 0 1 0).length = 2 ∧
    (s.acceptedBy 0 1 0).IsChain fun x y => x.frame.pn.toNat = y.frame.pn.toNat →
      y.status.allowSamePn = true ∧ y.Continues := by
  have hview : (Lts.exec rxPathStep (.start replayKeys)
      [.offer (replayFrame 0 0 (0x10, 0)) true, .check 0,
        .offer (replayFrame 0 1 (0x10, 0)) true, .check 0]).map
      (fun s => (s.acceptedBy 0 1 0).length) = some 2 := by decide +kernel
  obtain ⟨s, hs, hlen⟩ := Option.map_eq_some_iff.1 hview
  exact ⟨s, hs, hlen, (replay_protected hs).2.2 (by decide) 0 1 0⟩

/-- The same frame is accepted twice: a frame with TID 9 in between has cleared the subframe index
that was recorded for TID 0. -/
theorem replay_accepted : ∃ s, Lts.exec rxPathStep (.start replayKeys)
    [.offer (replayFrame 0 1 (0x10, 0)) true, .check 0, .offer (replayFrame 9 0 (0, 0)) true,
      .check 0, .offer (replayFrame 0 1 (0x10, 0)) true, .check 0] = some s ∧
    ¬(s.acceptedBy 0 1 0).IsChain fun x y => x.frame.pn.toNat = y.frame.pn.toNat →
      y.status.allowSamePn = true ∧ y.Continues := by
  have hview : (Lts.exec rxPathStep (.start replayKeys)
      [.offer (replayFrame 0 1 (0x10, 0)) true, .check 0, .offer (replayFrame 9 0 (0, 0)) true,
        .check 0, .offer (replayFrame 0 1 (0x10, 0)) true, .check 0]).map
      (fun s => (s.acceptedBy 0 1 0).map fun w =>
        (w.frame.pn.toNat, w.before.map DupRecord.subFrameIdx, w.frame.subFrameIdx)) =
      some [(5, none, 1), (5, some 1, 1)] := by decide +kernel
  obtain ⟨s, hs, hacc⟩ := Option.map_eq_some_iff.1 hview
  refine ⟨s, hs, fun hchain => ?_⟩
  obtain ⟨x, ys, heq, hx, hys⟩ := List.map_eq_cons_iff.1 hacc
  obtain ⟨y, zs, rfl, hy, -⟩ := List.map_eq_cons_iff.1 hys
  rw [Prod.mk.injEq, Prod.mk.injEq] at hx hy
  rw [heq, List.isChain_cons_cons] at hchain
  obtain ⟨-, r, hr, -, hlt, -⟩ := hchain.1 (hx.1.trans hy.1.symm)
  rw [hr, Option.map_some, Option.some.injEq] at hy
  rw [hy.2.1, hy.2.2] at hlt
  exact absurd hlt (by decide)

end Iax.Mvm
