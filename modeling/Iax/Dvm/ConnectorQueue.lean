import Iax.Dvm.Connector
import Mathlib.Data.List.Infix
import Mathlib.Data.List.Nodup

/-!
# The ring of the connector

What becomes of the messages that `connector_enqueue_msg` accepts, in every interleaving of its
callers with the work item.

* `Inv`: the invariant. The indices are two counts `R ≤ W` modulo `CN_BUF_SIZE`, the slots between
  them hold the messages published, and the work item has sent a beginning of these.
* `inv_step`: a step keeps it, if a caller writes its slot only where nobody came between
  (`Exclusive`).
* `enqueue_kept`: so in every run of such steps no accepted message is lost.
* `queue_fifo`: a single caller always meets the condition, and the ring is a bounded queue.
-/

namespace Iax.Dvm

open Connector

/-- The messages were all that the ring can take, and stood in it one behind the other. -/
def Full (pub unread : List CnMsg) : Prop := unread.length = cnBufSize - 1 ∧ unread <:+: pub

theorem Full.mono {pub pub' unread : List CnMsg} (h : Full pub unread) (hpub : pub <+: pub') :
    Full pub' unread :=
  ⟨h.1, h.2.trans hpub.isInfix⟩

namespace EnqueuePc

/-- The caller has its message in its slot, and not yet published. -/
def isStored : EnqueuePc → Bool
  | .stored _ _ => true
  | _ => false

/-- The caller holds an accepted message. -/
def Holds (pc : EnqueuePc) (m : CnMsg) : Prop := ∃ stop, pc = .checked m stop ∨ pc = .stored m stop

/-- Two callers hold different messages, and not both have theirs in a slot. -/
def Apart (pc pc' : EnqueuePc) : Prop :=
  (∀ m, pc.msg = some m → pc'.msg ≠ some m) ∧ ¬ (pc.isStored = true ∧ pc'.isStored = true)

theorem Apart.symm {pc pc' : EnqueuePc} (h : pc.Apart pc') : pc'.Apart pc :=
  ⟨fun m hm hm' => h.1 m hm' hm, fun hs => h.2 hs.symm⟩

/-- A caller without a message is apart from every other. -/
theorem apart_of_msg_eq_none {pc : EnqueuePc} (h : pc.msg = none) (pc' : EnqueuePc) :
    pc.Apart pc' := by
  cases pc with
  | idle | published => exact ⟨by simp [msg], by simp [isStored]⟩
  | _ => cases h

end EnqueuePc

open EnqueuePc

/-- A message that was allocated and not yet published. -/
structure Known (pub : List CnMsg) (nalloc : ℕ) (m : CnMsg) : Prop where
  ne_zero : m ≠ 0
  le : m ≤ nalloc
  notMem : m ∉ pub

/-- What one caller relies on: `buf` is the ring, `pub` the messages published, `R` the count of
those behind `cn_buf_read`. -/
def CallerInv (buf : ℕ → CnMsg) (pub : List CnMsg) (R nalloc : ℕ) : EnqueuePc → Prop
  | .idle => True
  | .read m start stop unread =>
    Known pub nalloc m ∧ (isFull start stop → Full pub unread)
  | .checked m _ => Known pub nalloc m
  | .stored m stop => Known pub nalloc m ∧ stop = pub.length % cnBufSize ∧ buf stop = m ∧
    pub.length + 1 < R + cnBufSize
  | .published => True

/-- Where the work item stands: it sends the messages from the `R`-th up to the `E`-th. -/
def Working (pub snt : List CnMsg) (R E : ℕ) : WorkPc → Prop
  | .idle => E = R ∧ snt = pub.take R
  | .begun => E = R ∧ snt = pub.take R
  | .sending i stop => stop = E % cnBufSize ∧
    ∃ k, R ≤ k ∧ k ≤ E ∧ i = k % cnBufSize ∧ snt = pub.take k
  | .freeing i stop => stop = E % cnBufSize ∧
    ∃ k, R ≤ k ∧ k < E ∧ i = k % cnBufSize ∧ snt = pub.take (k + 1)

theorem CallerInv.known {buf : ℕ → CnMsg} {pub : List CnMsg} {R nalloc : ℕ} {pc : EnqueuePc}
    (h : CallerInv buf pub R nalloc pc) {m : CnMsg} (hm : pc.msg = some m) :
    Known pub nalloc m := by
  cases pc with
  | idle | published => cases hm
  | read | stored =>
    cases hm
    exact h.1
  | checked =>
    cases hm
    exact h

/-- The messages that the work item has sent stay the same when one is published. -/
theorem Working.concat {pub snt : List CnMsg} {R E : ℕ} {pc : WorkPc}
    (h : Working pub snt R E pc) (hE : E ≤ pub.length) (m : CnMsg) :
    Working (pub ++ [m]) snt R E pc := by
  cases pc with
  | idle | begun =>
    obtain ⟨hER, rfl⟩ := h
    exact ⟨hER, (List.take_append_of_le_length (by omega)).symm⟩
  | sending i stop =>
    obtain ⟨hstop, k, hk, hkE, hi, rfl⟩ := h
    exact ⟨hstop, k, hk, hkE, hi, (List.take_append_of_le_length (by omega)).symm⟩
  | freeing i stop =>
    obtain ⟨hstop, k, hk, hkE, hi, rfl⟩ := h
    exact ⟨hstop, k, hk, hkE, hi, (List.take_append_of_le_length (by omega)).symm⟩

/-- What was sent is the beginning of what was published. -/
theorem Working.exists_take {pub snt : List CnMsg} {R E : ℕ} {pc : WorkPc}
    (h : Working pub snt R E pc) : ∃ k, R ≤ k ∧ snt = pub.take k := by
  cases pc with
  | idle | begun => exact ⟨R, le_rfl, h.2⟩
  | sending i stop =>
    obtain ⟨-, k, hk, -, -, hsnt⟩ := h
    exact ⟨k, hk, hsnt⟩
  | freeing i stop =>
    obtain ⟨-, k, hk, -, -, hsnt⟩ := h
    exact ⟨k + 1, by omega, hsnt⟩

namespace System

variable {n : ℕ}

/-! ## The invariant -/

/-- The messages `pub` are published, those from the `R`-th on are in the ring, and the work item
is on its way to the `E`-th. -/
structure Inv (s : System n) (pub : List CnMsg) (R E : ℕ) : Prop where
  pubEq : published s.conn.trace = pub
  read : s.conn.cnBufRead = R % cnBufSize
  write : s.conn.cnBufWrite = pub.length % cnBufSize
  readLe : R ≤ E
  sendLe : E ≤ pub.length
  room : pub.length < R + cnBufSize
  slot : ∀ k (h : k < pub.length), R ≤ k → s.conn.cnMsgBuf (k % cnBufSize) = pub[k]
  working : Working pub (sent s.conn.trace) R E s.work
  nodup : pub.Nodup
  alloc : ∀ m ∈ pub, m ≠ 0 ∧ m ≤ s.nalloc
  caller : ∀ c, CallerInv s.conn.cnMsgBuf pub R s.nalloc (s.callers c)
  apart : ∀ c c', c ≠ c' → (s.callers c).Apart (s.callers c')
  accepted : ∀ m ∈ accepted s.conn.trace, m ∈ pub ∨ ∃ c, (s.callers c).Holds m
  rejected : ∀ m unread priv, .rejected m unread priv ∈ s.conn.trace →
    .freed m ∈ s.conn.trace ∧ (Full pub unread ∨ priv = false)
  wake : E = pub.length ∨ s.conn.workQueued = true ∨ s.work = .begun ∨
    ∃ c, s.callers c = .published

variable {s s' : System n} {pub : List CnMsg} {R E : ℕ}

theorem inv_init : Inv (init n) [] 0 0 where
  pubEq := rfl
  read := rfl
  write := rfl
  readLe := le_rfl
  sendLe := le_rfl
  room := by decide
  slot := fun k h => absurd h (Nat.not_lt_zero k)
  working := ⟨rfl, rfl⟩
  nodup := List.nodup_nil
  alloc := fun m h => absurd h List.not_mem_nil
  caller := fun _ => trivial
  apart := fun _ _ _ => apart_of_msg_eq_none rfl _
  accepted := fun m h => absurd h List.not_mem_nil
  rejected := fun m unread priv h => absurd h List.not_mem_nil
  wake := .inl rfl

/-- The other callers stay apart when one moves on. -/
theorem apart_update {callers : Fin n → EnqueuePc}
    (h : ∀ c c', c ≠ c' → (callers c).Apart (callers c')) {c : Fin n} {pc : EnqueuePc}
    (hpc : ∀ c', c' ≠ c → pc.Apart (callers c')) (c₁ c₂ : Fin n) (hne : c₁ ≠ c₂) :
    (Function.update callers c pc c₁).Apart (Function.update callers c pc c₂) := by
  rcases eq_or_ne c₁ c with rfl | h₁
  · rw [Function.update_self, Function.update_of_ne hne.symm]
    exact hpc c₂ hne.symm
  · rw [Function.update_of_ne h₁]
    rcases eq_or_ne c₂ c with rfl | h₂
    · rw [Function.update_self]
      exact (hpc c₁ h₁).symm
    · rw [Function.update_of_ne h₂]
      exact h c₁ c₂ hne

/-- An accepted message is still held when a caller moves on, unless it was this caller's. -/
theorem holds_update {callers : Fin n → EnqueuePc} {c : Fin n} {pc : EnqueuePc} {m : CnMsg}
    (h : ∃ c', (callers c').Holds m) (hc : (callers c).Holds m → pc.Holds m) :
    ∃ c', (Function.update callers c pc c').Holds m := by
  obtain ⟨c', hc'⟩ := h
  rcases eq_or_ne c' c with rfl | hne
  · exact ⟨c', by rw [Function.update_self]; exact hc hc'⟩
  · exact ⟨c', by rwa [Function.update_of_ne hne]⟩

/-- What was accepted is still published or held when a caller moves on that holds nothing. -/
theorem accepted_move (h : Inv s pub R E) {c : Fin n} (pc : EnqueuePc)
    (hc : ∀ m, ¬ (s.callers c).Holds m) (m : CnMsg) (hm : m ∈ accepted s.conn.trace) :
    m ∈ pub ∨ ∃ c', (Function.update s.callers c pc c').Holds m :=
  (h.accepted m hm).imp_right fun hheld => holds_update hheld fun hholds => absurd hholds (hc m)

/-- Other events leave the messages that were rejected the same. -/
theorem rejected_log {t : List MsgEvent} {Q : List CnMsg → Bool → Prop} {e : MsgEvent}
    (h : ∀ m unread priv, .rejected m unread priv ∈ t → .freed m ∈ t ∧ Q unread priv)
    (he : ∀ m unread priv, e ≠ .rejected m unread priv) (m : CnMsg) (unread : List CnMsg)
    (priv : Bool) (hmem : .rejected m unread priv ∈ t ++ [e]) :
    .freed m ∈ t ++ [e] ∧ Q unread priv := by
  rcases List.mem_append.1 hmem with hmem | hmem
  · exact (h m unread priv hmem).imp_left (List.mem_append_left _)
  · exact absurd (List.mem_singleton.1 hmem).symm (he m unread priv)

/-- A caller that has published its message is still there when another one moves on. -/
theorem published_update {callers : Fin n → EnqueuePc} {c : Fin n} {pc : EnqueuePc}
    (h : ∃ c', callers c' = .published) (hc : callers c ≠ .published) :
    ∃ c', Function.update callers c pc c' = .published := by
  obtain ⟨c', hc'⟩ := h
  refine ⟨c', ?_⟩
  rwa [Function.update_of_ne]
  rintro rfl
  exact hc hc'

/-- The work item still comes when a caller moves on that had not published. -/
theorem Inv.wake_move (h : Inv s pub R E) {c : Fin n} (pc : EnqueuePc)
    (hc : s.callers c ≠ .published) : E = pub.length ∨ s.conn.workQueued = true ∨
      s.work = .begun ∨ ∃ c', Function.update s.callers c pc c' = .published :=
  h.wake.imp_right <| Or.imp_right <| Or.imp_right fun hp => published_update hp hc

/-- The work item still comes again when it moves on after it has begun. -/
theorem Inv.wake_work (h : Inv s pub R E) (pc : WorkPc) (hwork : s.work ≠ .begun) :
    E = pub.length ∨ s.conn.workQueued = true ∨ pc = .begun ∨
      ∃ c, s.callers c = .published :=
  h.wake.imp_right <| Or.imp_right <| Or.imp_left fun hbegun => absurd hbegun hwork

/-! ## The steps of a caller -/

/-- The condition on a step: when a caller writes its slot, `cn_buf_write` is still what it has read
and the ring is not full, and no other caller is between the write of a slot and that of
`cn_buf_write`. -/
def Exclusive (s : System n) : Act n → Prop
  | .store c =>
    match s.callers c with
    | .checked _ stop => s.conn.cnBufWrite = stop ∧ ¬ isFull s.conn.cnBufRead stop ∧
      ∀ c', (s.callers c').isStored = false
    | _ => True
  | _ => True

instance (s : System n) (a : Act n) : Decidable (s.Exclusive a) := by
  unfold Exclusive
  split
  · split <;> infer_instance
  · infer_instance

/-- The messages in the ring, by their counts. -/
theorem Inv.unread_eq (h : Inv s pub R E) : s.conn.unread = pub.drop R := by
  have hle := h.readLe.trans h.sendLe
  rw [unread, occupied, h.read, h.write, Ring.slots_mod hle h.room, List.map_map]
  refine List.ext_getElem (by simp) fun i h₁ h₂ => ?_
  simp only [List.length_drop] at h₂
  simp only [List.getElem_map, List.getElem_range', Function.comp_apply, List.getElem_drop,
    Nat.one_mul]
  exact h.slot (R + i) (by omega) (by omega)

theorem inv_call (h : Inv s pub R E) {c : Fin n} (hpc : s.callers c = .idle) :
    Inv (s.call c) pub R E := by
  refine { h with alloc := ?_, caller := ?_, apart := ?_, accepted := ?_, wake := ?_ }
  · exact fun m hm => ⟨(h.alloc m hm).1, Nat.le_succ_of_le (h.alloc m hm).2⟩
  · have hknown : ∀ m, Known pub s.nalloc m → Known pub (s.nalloc + 1) m :=
      fun m hm => ⟨hm.ne_zero, Nat.le_succ_of_le hm.le, hm.notMem⟩
    have hmono : ∀ pc, CallerInv s.conn.cnMsgBuf pub R s.nalloc pc →
        CallerInv s.conn.cnMsgBuf pub R (s.nalloc + 1) pc := by
      intro pc hpc
      cases pc with
      | idle | published => trivial
      | read | stored => exact ⟨hknown _ hpc.1, hpc.2⟩
      | checked => exact hknown _ hpc
    refine (Function.forall_update_iff _ _).2 ⟨⟨⟨Nat.succ_ne_zero _, le_rfl, ?_⟩, ?_⟩,
      fun c' _ => hmono _ (h.caller c')⟩
    · intro hmem
      exact Nat.not_succ_le_self _ (h.alloc _ hmem).2
    · intro hfull
      have hle := h.readLe.trans h.sendLe
      rw [isFull, h.read, h.write, Ring.succ_mod_iff hle h.room] at hfull
      rw [h.unread_eq]
      refine ⟨?_, (List.drop_suffix R pub).isInfix⟩
      rw [List.length_drop]
      omega
  · refine apart_update h.apart fun c' _ => ⟨?_, by simp [isStored]⟩
    intro m hm hm'
    cases hm
    exact Nat.not_succ_le_self _ ((h.caller c').known hm').le
  · exact accepted_move h _ fun m => by simp [hpc, EnqueuePc.Holds]
  · exact h.wake_move _ (by simp [hpc])

/-- A message that does not pass the checks is freed. -/
theorem inv_reject (h : Inv s pub R E) {c : Fin n} {m : CnMsg} {start stop : ℕ}
    {unread : List CnMsg} (hpc : s.callers c = .read m start stop unread)
    (hwhy : isFull start stop ∨ s.conn.priv = false) :
    Inv (s.move c .idle (s.conn.reject m unread)) pub R E := by
  have hcaller := h.caller c
  rw [hpc] at hcaller
  have hbuf : (s.conn.reject m unread).cnMsgBuf = s.conn.cnMsgBuf := kfree_cnMsgBuf ..
  refine { h with
    pubEq := (published_reject ..).trans h.pubEq
    read := (kfree_cnBufRead ..).trans h.read
    write := (kfree_cnBufWrite ..).trans h.write
    slot := fun k hk hRk => (congrFun hbuf _).trans (h.slot k hk hRk)
    working := ?_, caller := ?_, apart := ?_, accepted := ?_, rejected := ?_, wake := ?_ }
  · rw [move, sent_reject]
    exact h.working
  · rw [move, hbuf]
    exact (Function.forall_update_iff _ _).2 ⟨trivial, fun c' _ => h.caller c'⟩
  · exact apart_update h.apart fun c' _ => apart_of_msg_eq_none rfl _
  · intro m' hm'
    rw [move, accepted_reject] at hm'
    exact accepted_move h _ (fun m => by simp [hpc, EnqueuePc.Holds]) m' hm'
  · intro m' unread' priv hmem
    rw [move, mem_trace_reject _ _ _ hcaller.1.ne_zero] at hmem
    rw [move, mem_trace_reject _ _ _ hcaller.1.ne_zero]
    rcases hmem with hmem | hmem | hmem
    · exact (h.rejected m' unread' priv hmem).imp_left .inl
    · cases hmem
      exact ⟨.inr (.inr rfl), hwhy.imp_left hcaller.2⟩
    · cases hmem
  · refine h.wake.imp_right <| Or.imp (fun hq => ?_) <| Or.imp_right fun hp =>
      published_update hp (by simp [hpc])
    exact (kfree_workQueued (s.conn.log _) m).trans hq

/-- A message passes the checks. -/
theorem inv_accept (h : Inv s pub R E) {c : Fin n} {m : CnMsg} {start stop : ℕ}
    {unread : List CnMsg} (hpc : s.callers c = .read m start stop unread) :
    Inv (s.move c (.checked m stop) (s.conn.log (.accepted m))) pub R E := by
  have hcaller := h.caller c
  rw [hpc] at hcaller
  refine { h with
    pubEq := (published_append ..).trans ((List.append_nil _).trans h.pubEq)
    working := ?_, caller := ?_, apart := ?_, accepted := ?_, rejected := ?_, wake := ?_ }
  · rw [move, log, sent_append]
    exact (List.append_nil _).symm ▸ h.working
  · exact (Function.forall_update_iff _ _).2 ⟨hcaller.1, fun c' _ => h.caller c'⟩
  · refine apart_update h.apart fun c' hne => ⟨?_, by simp [isStored]⟩
    intro m' hm'
    cases hm'
    exact (h.apart c c' hne.symm).1 m (by rw [hpc]; rfl)
  · intro m' hm'
    rw [move, log, accepted_append, List.mem_append] at hm'
    rcases hm' with hm' | hm'
    · exact accepted_move h _ (fun m => by simp [hpc, EnqueuePc.Holds]) m' hm'
    · obtain rfl : m' = m := List.mem_singleton.1 hm'
      exact .inr ⟨c, stop, .inl (Function.update_self ..)⟩
  · exact rejected_log h.rejected (by simp)
  · exact h.wake_move _ (by simp [hpc])

/-- A caller writes its slot, which no other caller has in view. -/
theorem inv_store (h : Inv s pub R E) {c : Fin n} {m : CnMsg} {stop : ℕ}
    (hpc : s.callers c = .checked m stop) (hexcl : s.Exclusive (.store c)) :
    Inv (s.move c (.stored m stop) (s.conn.storeMsg stop m)) pub R E := by
  have hcaller := h.caller c
  rw [hpc] at hcaller
  simp only [Exclusive, hpc] at hexcl
  obtain ⟨hstop, hnotFull, hothers⟩ := hexcl
  have hle := h.readLe.trans h.sendLe
  have hroom : pub.length + 1 < R + cnBufSize := by
    have hlt := h.room
    rw [← hstop, isFull, h.read, h.write, Ring.succ_mod_iff hle h.room] at hnotFull
    omega
  obtain rfl := hstop.symm.trans h.write
  have hbuf : ∀ k, R ≤ k → k < pub.length →
      Function.update s.conn.cnMsgBuf (pub.length % cnBufSize) m (k % cnBufSize) =
        s.conn.cnMsgBuf (k % cnBufSize) := by
    intro k hRk hk
    refine Function.update_of_ne (fun heq => ?_) ..
    exact hk.ne (Ring.mod_inj hRk (hk.trans h.room) hle h.room heq)
  refine { h with
    slot := fun k hk hRk => (hbuf k hRk hk).trans (h.slot k hk hRk)
    caller := ?_, apart := ?_, accepted := ?_, wake := ?_ }
  · refine (Function.forall_update_iff _ _).2
      ⟨⟨hcaller, rfl, Function.update_self .., hroom⟩, fun c' _ => ?_⟩
    have hcaller' := h.caller c'
    have hother := hothers c'
    cases hpc' : s.callers c' with
    | stored => rw [hpc'] at hother; cases hother
    | _ =>
      rw [hpc'] at hcaller'
      exact hcaller'
  · refine apart_update h.apart fun c' hne => ⟨?_, fun hs => ?_⟩
    · intro m' hm'
      cases hm'
      exact (h.apart c c' hne.symm).1 m (by rw [hpc]; rfl)
    · rw [hothers c'] at hs
      cases hs.2
  · refine fun m' hm' => (h.accepted m' hm').imp_right fun hheld => holds_update hheld ?_
    rintro ⟨stop', hc | hc⟩ <;> rw [hpc] at hc <;> cases hc
    exact ⟨_, .inr rfl⟩
  · exact h.wake_move _ (by simp [hpc])

/-- What the others rely on does not change when a message is published that is not theirs. -/
theorem caller_publish (h : Inv s pub R E) {c c' : Fin n} (hne : c' ≠ c) {m : CnMsg} {stop : ℕ}
    (hpc : s.callers c = .stored m stop) :
    CallerInv s.conn.cnMsgBuf (pub ++ [m]) R s.nalloc (s.callers c') := by
  have hcaller' := h.caller c'
  have hapart := h.apart c c' hne.symm
  have hnew : ∀ m', (s.callers c').msg = some m' → Known pub s.nalloc m' →
      Known (pub ++ [m]) s.nalloc m' := by
    intro m' hm' hk
    refine ⟨hk.ne_zero, hk.le, ?_⟩
    rw [List.mem_append, List.mem_singleton, not_or]
    refine ⟨hk.notMem, ?_⟩
    rintro rfl
    exact hapart.1 m' (by rw [hpc]; rfl) hm'
  cases hpc' : s.callers c' with
  | idle | published => trivial
  | read m' start' stop' unread' =>
    rw [hpc'] at hcaller' hnew
    exact ⟨hnew m' rfl hcaller'.1, fun hfull => (hcaller'.2 hfull).mono (List.prefix_append ..)⟩
  | checked m' stop' =>
    rw [hpc'] at hcaller' hnew
    exact hnew m' rfl hcaller'
  | stored =>
    rw [hpc, hpc'] at hapart
    exact absurd ⟨rfl, rfl⟩ hapart.2

/-- The message that its caller held is among those published. -/
theorem accepted_publish (h : Inv s pub R E) {c : Fin n} {m : CnMsg} {stop : ℕ}
    (hpc : s.callers c = .stored m stop) {m' : CnMsg} (hm' : m' ∈ accepted s.conn.trace) :
    m' ∈ pub ++ [m] ∨ ∃ c', (Function.update s.callers c .published c').Holds m' := by
  rcases h.accepted m' hm' with hpub | ⟨c', hc'⟩
  · exact .inl (List.mem_append_left _ hpub)
  · rcases eq_or_ne c' c with rfl | hne
    · obtain ⟨stop', hc' | hc'⟩ := hc' <;> rw [hpc] at hc' <;> cases hc'
      exact .inl (List.mem_append_right _ (List.mem_singleton_self _))
    · exact .inr ⟨c', by simpa only [Function.update_of_ne hne] using hc'⟩

/-- A caller publishes its message. -/
theorem inv_publish (h : Inv s pub R E) {c : Fin n} {m : CnMsg} {stop : ℕ}
    (hpc : s.callers c = .stored m stop) :
    Inv (s.move c .published (s.conn.publish stop m)) (pub ++ [m]) R E := by
  have hcaller := h.caller c
  rw [hpc] at hcaller
  obtain ⟨hknown, rfl, hbuf, hroom⟩ := hcaller
  have hlen : (pub ++ [m]).length = pub.length + 1 := by simp
  refine ⟨?_, h.read, ?_, h.readLe, ?_, ?_, ?_, ?_, ?_, ?_, ?_, ?_, ?_, ?_, ?_⟩
  · rw [move, Connector.publish, log, published_append, h.pubEq]
    rfl
  · rw [hlen]
    exact Nat.mod_add_mod ..
  · rw [hlen]
    exact Nat.le_succ_of_le h.sendLe
  · rw [hlen]
    exact hroom
  · intro k hk hRk
    rw [List.getElem_append]
    split
    case isTrue hlt => exact h.slot k hlt hRk
    case isFalse hge =>
      obtain rfl : k = pub.length := by omega
      exact hbuf.trans (by simp)
  · rw [move, Connector.publish, log, sent_append]
    exact (List.append_nil _).symm ▸ h.working.concat h.sendLe m
  · exact h.nodup.append (List.nodup_singleton m) (List.disjoint_singleton.2 hknown.notMem)
  · intro m' hm'
    rcases List.mem_append.1 hm' with hm' | hm'
    · exact h.alloc m' hm'
    · obtain rfl := List.mem_singleton.1 hm'
      exact ⟨hknown.ne_zero, hknown.le⟩
  · exact (Function.forall_update_iff _ _).2 ⟨trivial, fun c' hne => caller_publish h hne hpc⟩
  · exact apart_update h.apart fun c' _ => apart_of_msg_eq_none rfl _
  · intro m' hm'
    rw [move, Connector.publish, log, accepted_append] at hm'
    rcases List.mem_append.1 hm' with hm' | hm'
    · exact accepted_publish h hpc hm'
    · cases hm'
  · refine rejected_log (fun m' unread' priv hmem => ?_) (by simp)
    refine (h.rejected m' unread' priv hmem).imp_right (Or.imp_left fun hfull => ?_)
    exact hfull.mono (List.prefix_append ..)
  · exact .inr (.inr (.inr ⟨c, Function.update_self ..⟩))

/-- A caller queues the work item. -/
theorem inv_queueWork (h : Inv s pub R E) {c : Fin n} (hpc : s.callers c = .published) :
    Inv (s.move c .idle s.conn.queueWork) pub R E := by
  refine { h with caller := ?_, apart := ?_, accepted := ?_, wake := .inr (.inl rfl) }
  · exact (Function.forall_update_iff _ _).2 ⟨trivial, fun c' _ => h.caller c'⟩
  · exact apart_update h.apart fun c' _ => apart_of_msg_eq_none rfl _
  · exact accepted_move h _ fun m' => by simp [hpc, EnqueuePc.Holds]

/-! ## The steps of the work item -/

theorem inv_work (h : Inv s pub R E) (hpc : s.work = .idle) :
    Inv { s with conn := { s.conn with workQueued := false }, work := .begun } pub R E := by
  have hworking := h.working
  rw [hpc] at hworking
  exact { h with working := hworking, wake := .inr (.inr (.inl rfl)) }

/-- The work item reads the indices: from now on it goes for all that is published. -/
theorem inv_readIndices (h : Inv s pub R E) (hpc : s.work = .begun) :
    Inv { s with work := .sending s.conn.cnBufRead s.conn.cnBufWrite } pub R pub.length := by
  have hworking := h.working
  rw [hpc] at hworking
  exact { h with
    readLe := h.readLe.trans h.sendLe
    sendLe := le_rfl
    working := ⟨h.write, R, le_rfl, h.readLe.trans h.sendLe, h.read, hworking.2⟩
    wake := .inl rfl }

/-- The work item sends the next message. -/
theorem inv_send (h : Inv s pub R E) {i stop : ℕ} (hpc : s.work = .sending i stop)
    (hne : i ≠ stop) :
    Inv { s with conn := s.conn.cnNetlinkSend (s.conn.cnMsgBuf i), work := .freeing i stop }
      pub R E := by
  have hworking := h.working
  rw [hpc] at hworking
  obtain ⟨hstop, k, hRk, hkE, rfl, hsent⟩ := hworking
  have hlt : k < E := by
    refine lt_of_le_of_ne hkE ?_
    rintro rfl
    exact hne hstop.symm
  have hbuf := h.slot k (hlt.trans_le h.sendLe) hRk
  refine { h with
    pubEq := (published_append ..).trans ((List.append_nil _).trans h.pubEq)
    working := ⟨hstop, k, hRk, hlt, rfl, ?_⟩
    accepted := ?_, rejected := ?_, wake := ?_ }
  · rw [cnNetlinkSend, log, sent_append, hsent, hbuf]
    exact List.take_concat_get' ..
  · rw [cnNetlinkSend, log, accepted_append]
    exact (List.append_nil _).symm ▸ h.accepted
  · exact rejected_log h.rejected (by simp)
  · exact h.wake_work _ (by simp [hpc])

/-- The work item frees the message that it has sent. -/
theorem inv_free (h : Inv s pub R E) {i stop : ℕ} (hpc : s.work = .freeing i stop) :
    Inv { s with
      conn := s.conn.kfree (s.conn.cnMsgBuf i), work := .sending ((i + 1) % cnBufSize) stop }
      pub R E := by
  have hworking := h.working
  rw [hpc] at hworking
  obtain ⟨hstop, k, hRk, hkE, rfl, hsent⟩ := hworking
  have hbuf := h.slot k (hkE.trans_le h.sendLe) hRk
  have hne := (h.alloc _ (List.getElem_mem (hkE.trans_le h.sendLe))).1
  have hfree : s.conn.kfree (s.conn.cnMsgBuf (k % cnBufSize)) =
      s.conn.log (.freed (s.conn.cnMsgBuf (k % cnBufSize))) := if_neg (by rwa [hbuf])
  rw [hfree]
  refine { h with
    pubEq := (published_append ..).trans ((List.append_nil _).trans h.pubEq)
    working := ⟨hstop, k + 1, Nat.le_succ_of_le hRk, hkE, Nat.mod_add_mod .., ?_⟩
    accepted := ?_, rejected := ?_, wake := ?_ }
  · rw [log, sent_append, hsent]
    exact List.append_nil _
  · rw [log, accepted_append]
    exact (List.append_nil _).symm ▸ h.accepted
  · exact rejected_log h.rejected (by simp)
  · exact h.wake_work _ (by simp [hpc])

/-- The work item gives the slots of what it has sent back. -/
theorem inv_done (h : Inv s pub R E) {stop : ℕ} (hpc : s.work = .sending stop stop) :
    Inv { s with conn := { s.conn with cnBufRead := stop }, work := .idle } pub E E := by
  have hworking := h.working
  rw [hpc] at hworking
  obtain ⟨hstop, k, hRk, hkE, hk, hsent⟩ := hworking
  have hlt := h.room
  have hEW := h.sendLe
  have hRE := h.readLe
  obtain rfl : k = E := by
    refine Ring.mod_inj (N := cnBufSize) hRk ?_ h.readLe ?_ (hk.symm.trans hstop) <;> omega
  refine { h with
    read := hstop
    readLe := le_rfl
    room := by omega
    slot := fun l hl hEl => h.slot l hl (h.readLe.trans hEl)
    working := ⟨rfl, hsent⟩
    caller := ?_, wake := ?_ }
  · intro c
    have hcaller := h.caller c
    change CallerInv _ _ _ _ (s.callers c)
    cases hpc' : s.callers c with
    | stored =>
      rw [hpc'] at hcaller
      obtain ⟨hknown, hstop', hbuf, hroom⟩ := hcaller
      exact ⟨hknown, hstop', hbuf, by omega⟩
    | _ =>
      rw [hpc'] at hcaller
      exact hcaller
  · exact h.wake_work _ (by simp [hpc])

/-- **One step** that meets the condition keeps the invariant, with more messages published, sent
and behind `cn_buf_read`. -/
theorem inv_step {a : Act n} (h : Inv s pub R E) (hexcl : s.Exclusive a) (hstep : Step s a s') :
    ∃ pub' R' E', Inv s' pub' R' E' := by
  cases hstep with
  | call hpc => exact ⟨pub, R, E, inv_call h hpc⟩
  | full hpc hfull => exact ⟨pub, R, E, inv_reject h hpc (.inl hfull)⟩
  | noPriv hpc hpriv => exact ⟨pub, R, E, inv_reject h hpc (.inr hpriv)⟩
  | accept hpc _ => exact ⟨pub, R, E, inv_accept h hpc⟩
  | store hpc => exact ⟨pub, R, E, inv_store h hpc hexcl⟩
  | @publish c m stop hpc => exact ⟨pub ++ [m], R, E, inv_publish h hpc⟩
  | queueWork hpc => exact ⟨pub, R, E, inv_queueWork h hpc⟩
  | work hpc _ => exact ⟨pub, R, E, inv_work h hpc⟩
  | readIndices hpc => exact ⟨pub, R, pub.length, inv_readIndices h hpc⟩
  | send hpc hne => exact ⟨pub, R, E, inv_send h hpc hne⟩
  | free hpc => exact ⟨pub, R, E, inv_free h hpc⟩
  | done hpc => exact ⟨pub, E, E, inv_done h hpc⟩
  | setPriv => exact ⟨pub, R, E, { h with }⟩

/-! ## Callers that keep out of each other's way -/

/-- No accepted message is lost: it is in a slot between `cn_buf_read` and `cn_buf_write`, or with a
caller that has not published it, and then in its slot if it was written, or it was sent, and that
once. -/
structure Kept (s : System n) : Prop where
  placed : ∀ m ∈ accepted s.conn.trace,
    (∃ i ∈ s.conn.occupied, s.conn.cnMsgBuf i = m) ∨
    (∃ c stop, s.callers c = .checked m stop ∨
      (s.callers c = .stored m stop ∧ s.conn.cnMsgBuf stop = m)) ∨
    (sent s.conn.trace).count m = 1
  once : (sent s.conn.trace).Nodup

/-- In the states of the invariant nothing is lost. -/
theorem Inv.kept (h : Inv s pub R E) : s.Kept := by
  obtain ⟨k, hRk, hsent⟩ := h.working.exists_take
  have hnodup : (sent s.conn.trace).Nodup := hsent ▸ (List.take_sublist k pub).nodup h.nodup
  refine ⟨fun m hm => ?_, hnodup⟩
  rcases h.accepted m hm with hpub | ⟨c, stop, hc | hc⟩
  · obtain ⟨j, hj, rfl⟩ := List.getElem_of_mem hpub
    rcases Nat.lt_or_ge j k with hjk | hkj
    · refine .inr (.inr (List.count_eq_one_of_mem hnodup ?_))
      rw [hsent]
      exact List.mem_take_iff_getElem.2 ⟨j, by omega, rfl⟩
    · refine .inl ⟨j % cnBufSize, ?_, h.slot j hj (hRk.trans hkj)⟩
      rw [occupied, h.read, h.write, Ring.mem_slots_mod (h.readLe.trans h.sendLe) h.room]
      exact ⟨j, hRk.trans hkj, hj, rfl⟩
  · exact .inr (.inl ⟨c, stop, .inl hc⟩)
  · have hcaller := h.caller c
    rw [hc] at hcaller
    exact .inr (.inl ⟨c, stop, .inr ⟨hc, hcaller.2.2.1⟩⟩)

/-- **Nothing is lost.** In every run in which a caller writes its slot only when `cn_buf_write` is
still what it has read, the ring is not full, and no other caller has a slot written that is not
published, every accepted message is in its slot, with its caller, or sent once. -/
theorem enqueue_kept {acts : List (Act n)} (hrun : Lts.exec step (init n) acts = some s)
    (hexcl : Lts.Meets step Exclusive (init n) acts) : s.Kept := by
  obtain ⟨pub, R, E, h⟩ := Lts.exec_invariant step (I := fun s => ∃ pub R E, Inv s pub R E)
    (fun _ _ _ ⟨_, _, _, h⟩ hC hs => inv_step h hC (step_cases hs)) ⟨[], 0, 0, inv_init⟩ hexcl hrun
  exact h.kept

/-- Two callers one behind the other, and the work item. -/
def inTurn : List (Act 2) :=
  [.setPriv, .call 0, .check 0, .store 0, .publish 0, .call 1, .check 1, .store 1, .publish 1,
    .queueWork 0, .work, .readIndices, .send, .free]

theorem enqueue_kept_inTurn :
    ∃ s, Lts.exec step (init 2) inTurn = some s ∧ s.Kept ∧ sent s.conn.trace = [1] ∧
      s.conn.unread = [1, 2] := by
  have hlists : (Lts.exec step (init 2) inTurn).map
      (fun s => (sent s.conn.trace, s.conn.unread)) = some ([1], [1, 2]) := by decide +kernel
  obtain ⟨s, hs, hlists⟩ := Option.map_eq_some_iff.1 hlists
  obtain ⟨hsent, hunread⟩ := Prod.mk.inj hlists
  exact ⟨s, hs, enqueue_kept hs (by decide +kernel), hsent, hunread⟩

/-- Two callers that read the same indices. -/
def sameIndices : List (Act 2) :=
  [.setPriv, .call 0, .call 1, .check 0, .check 1, .store 0, .store 1, .publish 0, .publish 1,
    .queueWork 0, .queueWork 1, .work, .readIndices, .send, .free, .done]

/-- **A message is overwritten.** Both messages are accepted, and only the second one is sent. -/
theorem enqueue_overwritten :
    ∃ s, Lts.exec step (init 2) sameIndices = some s ∧ ¬ s.Kept := by
  have hend : (Lts.exec step (init 2) sameIndices).map
      (fun s => (accepted s.conn.trace, sent s.conn.trace, s.conn.occupied, s.callers 0,
        s.callers 1)) = some ([1, 2], [2], [], .idle, .idle) := by decide +kernel
  obtain ⟨s, hs, hend⟩ := Option.map_eq_some_iff.1 hend
  simp only [Prod.mk.injEq] at hend
  obtain ⟨haccepted, hsent, hoccupied, h₀, h₁⟩ := hend
  refine ⟨s, hs, fun h => ?_⟩
  rcases h.placed 1 (by simp [haccepted]) with ⟨i, hi, -⟩ | ⟨c, stop, hc⟩ | hcount
  · rw [hoccupied] at hi
    cases hi
  · have hidle : s.callers c = .idle := by
      match c with
      | 0 => exact h₀
      | 1 => exact h₁
    rw [hidle] at hc
    rcases hc with hc | ⟨hc, -⟩ <;> cases hc
  · rw [hsent] at hcount
    revert hcount
    decide

/-! ## A single caller -/

/-- The accepted message that the caller holds. -/
def holding : EnqueuePc → List CnMsg
  | .checked m _ => [m]
  | .stored m _ => [m]
  | _ => []

/-- The caller is still where it was when it read `cn_buf_write`, with the same slot free. -/
def InPlace (pub : List CnMsg) (R : ℕ) : EnqueuePc → Prop
  | .read _ start stop _ => stop = pub.length % cnBufSize ∧
    (¬ isFull start stop → pub.length + 1 < R + cnBufSize)
  | .checked _ stop => stop = pub.length % cnBufSize ∧ pub.length + 1 < R + cnBufSize
  | _ => True

/-- When the caller is the only one. -/
structure Solo (s : System 1) (pub : List CnMsg) (R : ℕ) : Prop where
  inPlace : InPlace pub R (s.callers 0)
  acceptedEq : accepted s.conn.trace = pub ++ holding (s.callers 0)

theorem InPlace.mono {pub : List CnMsg} {R R' : ℕ} {pc : EnqueuePc} (h : InPlace pub R pc)
    (hR : R ≤ R') : InPlace pub R' pc := by
  cases pc with
  | read => exact ⟨h.1, fun hnotFull => (h.2 hnotFull).trans_le (by omega)⟩
  | checked => exact ⟨h.1, h.2.trans_le (by omega)⟩
  | _ => trivial

/-- A single caller meets the condition. -/
theorem Solo.exclusive {s : System 1} (h : Inv s pub R E) (hsolo : Solo s pub R) (a : Act 1) :
    s.Exclusive a := by
  cases a with
  | store c =>
    obtain rfl : c = 0 := Subsingleton.elim ..
    have hinPlace := hsolo.inPlace
    cases hpc : s.callers 0 with
    | checked m stop =>
      rw [hpc] at hinPlace
      obtain ⟨rfl, hroom⟩ := hinPlace
      simp only [Exclusive, hpc]
      refine ⟨h.write, ?_, fun c' => ?_⟩
      · rw [isFull, h.read, Ring.succ_mod_iff (h.readLe.trans h.sendLe) h.room]
        omega
      · rw [Subsingleton.elim c' 0, hpc]
        rfl
    | _ => simp only [Exclusive, hpc]
  | _ => trivial

theorem solo_step {s s' : System 1} {a : Act 1} (h : Inv s pub R E) (hsolo : Solo s pub R)
    (hstep : Step s a s') : ∃ pub' R' E', Inv s' pub' R' E' ∧ Solo s' pub' R' := by
  have hexcl := hsolo.exclusive h a
  have hcaller := h.caller 0
  obtain ⟨hinPlace, hacc⟩ := hsolo
  cases hstep with
  | @call c hpc =>
    obtain rfl : c = 0 := Subsingleton.elim ..
    refine ⟨pub, R, E, inv_call h hpc, ⟨h.write, fun hnotFull => ?_⟩, ?_⟩
    · rw [isFull, h.read, h.write, Ring.succ_mod_iff (h.readLe.trans h.sendLe) h.room] at hnotFull
      have hroom := h.room
      omega
    · rw [hpc] at hacc
      exact hacc
  | @full c m start stop unread hpc hfull =>
    obtain rfl : c = 0 := Subsingleton.elim ..
    rw [hpc] at hacc
    exact ⟨pub, R, E, inv_reject h hpc (.inl hfull), trivial, (accepted_reject ..).trans hacc⟩
  | @noPriv c m start stop unread hpc hpriv =>
    obtain rfl : c = 0 := Subsingleton.elim ..
    rw [hpc] at hacc
    exact ⟨pub, R, E, inv_reject h hpc (.inr hpriv), trivial, (accepted_reject ..).trans hacc⟩
  | @accept c m start stop unread hpc hnotFull =>
    obtain rfl : c = 0 := Subsingleton.elim ..
    rw [hpc] at hacc hinPlace
    refine ⟨pub, R, E, inv_accept h hpc, ⟨hinPlace.1, hinPlace.2 hnotFull⟩, ?_⟩
    exact (accepted_append ..).trans (congrArg (· ++ [m]) (hacc.trans (List.append_nil _)))
  | @store c m stop hpc =>
    obtain rfl : c = 0 := Subsingleton.elim ..
    rw [hpc] at hacc
    exact ⟨pub, R, E, inv_store h hpc hexcl, trivial, hacc⟩
  | @publish c m stop hpc =>
    obtain rfl : c = 0 := Subsingleton.elim ..
    rw [hpc] at hacc
    refine ⟨pub ++ [m], R, E, inv_publish h hpc, trivial, ?_⟩
    exact (accepted_append ..).trans (congrArg (· ++ []) hacc)
  | @queueWork c hpc =>
    obtain rfl : c = 0 := Subsingleton.elim ..
    rw [hpc] at hacc
    exact ⟨pub, R, E, inv_queueWork h hpc, trivial, hacc⟩
  | work hpc _ => exact ⟨pub, R, E, inv_work h hpc, hinPlace, hacc⟩
  | readIndices hpc => exact ⟨pub, R, pub.length, inv_readIndices h hpc, hinPlace, hacc⟩
  | send hpc hne =>
    exact ⟨pub, R, E, inv_send h hpc hne, hinPlace,
      (accepted_append ..).trans ((List.append_nil _).trans hacc)⟩
  | free hpc => exact ⟨pub, R, E, inv_free h hpc, hinPlace, (accepted_kfree ..).trans hacc⟩
  | done hpc => exact ⟨pub, E, E, inv_done h hpc, hinPlace.mono h.readLe, hacc⟩
  | setPriv => exact ⟨pub, R, E, { h with }, hinPlace, hacc⟩

/-- The caller and the work item are idle, and the work item is not queued. -/
def Drained (s : System 1) : Prop :=
  s.callers 0 = .idle ∧ s.work = .idle ∧ s.conn.workQueued = false

/-- The ring is a queue of 1023 messages. -/
structure Fifo (s : System 1) : Prop where
  /-- What was sent are the first messages accepted, in order and each once. -/
  order : sent s.conn.trace <+: accepted s.conn.trace
  distinct : (accepted s.conn.trace).Nodup
  /-- And all of them, when there is nothing left to do. -/
  drained : s.Drained → sent s.conn.trace = accepted s.conn.trace
  /-- A message that is not accepted is freed, and 1023 accepted ones were unread, or `priv` was
  not known. -/
  rejected : ∀ m unread priv, .rejected m unread priv ∈ s.conn.trace → .freed m ∈ s.conn.trace ∧
    ((unread.length = 1023 ∧ unread <:+: accepted s.conn.trace) ∨ priv = false)
  /-- The slot that the caller is about to write is free. -/
  free : ∀ m stop, s.callers 0 = .checked m stop → stop ∉ s.conn.occupied

/-- **The ring is a bounded queue**, in every interleaving of one caller after the other with the
work item. -/
theorem queue_fifo {s : System 1} {acts : List (Act 1)}
    (hrun : Lts.exec step (init 1) acts = some s) : s.Fifo := by
  obtain ⟨pub, R, E, h, hinPlace, hacc⟩ :=
    Lts.exec_invariant step (C := fun _ _ => True)
      (I := fun s => ∃ pub R E, Inv s pub R E ∧ Solo s pub R)
      (fun _ _ _ ⟨_, _, _, h, hsolo⟩ _ hs => solo_step h hsolo (step_cases hs))
      ⟨[], 0, 0, inv_init, trivial, rfl⟩ (Lts.meets_of_forall step (fun _ _ => trivial) _ _) hrun
  obtain ⟨k, hRk, hsent⟩ := h.working.exists_take
  have hpub : pub <+: accepted s.conn.trace := hacc ▸ List.prefix_append ..
  refine ⟨?_, ?_, ?_, ?_, ?_⟩
  · exact hsent ▸ (List.take_prefix k pub).trans hpub
  · have hcaller := h.caller 0
    rw [hacc]
    cases hpc : s.callers 0 with
    | checked m stop | stored m stop =>
      have hknown := hcaller.known (m := m) (by rw [hpc]; rfl)
      exact h.nodup.append (List.nodup_singleton m) (List.disjoint_singleton.2 hknown.notMem)
    | _ => exact (List.append_nil pub).symm ▸ h.nodup
  · rintro ⟨hidle, hwork, hqueued⟩
    have hworking := h.working
    rw [hwork] at hworking
    rcases h.wake with hE | hq | hbegun | ⟨c, hc⟩
    · rw [hworking.2, hacc, hidle, ← hworking.1, hE, List.take_length]
      exact (List.append_nil pub).symm
    · rw [hqueued] at hq
      cases hq
    · rw [hwork] at hbegun
      cases hbegun
    · rw [Subsingleton.elim c 0, hidle] at hc
      cases hc
  · intro m unread priv hmem
    refine (h.rejected m unread priv hmem).imp_right (Or.imp_left fun hfull => ?_)
    exact ⟨hfull.1, (hfull.mono hpub).2⟩
  · intro m stop hpc hmem
    rw [hpc] at hinPlace
    have hle := h.readLe.trans h.sendLe
    rw [occupied, h.read, h.write, Ring.mem_slots_mod hle h.room] at hmem
    obtain ⟨j, hRj, hj, hjstop⟩ := hmem
    exact hj.ne (Ring.mod_inj hRj (hj.trans h.room) hle h.room (hjstop.trans hinPlace.1))

/-- One message on its way through the ring, and a second one that comes while it is sent. -/
def oneCaller : List (Act 1) :=
  [.setPriv, .call 0, .check 0, .store 0, .publish 0, .queueWork 0, .work, .readIndices, .call 0,
    .check 0, .send, .store 0, .free, .publish 0, .done, .queueWork 0]

theorem queue_fifo_oneCaller :
    ∃ s, Lts.exec step (init 1) oneCaller = some s ∧ s.Fifo ∧ sent s.conn.trace = [1] ∧
      accepted s.conn.trace = [1, 2] := by
  have hlists : (Lts.exec step (init 1) oneCaller).map
      (fun s => (sent s.conn.trace, accepted s.conn.trace)) = some ([1], [1, 2]) := by
    decide +kernel
  obtain ⟨s, hs, hlists⟩ := Option.map_eq_some_iff.1 hlists
  obtain ⟨hsent, hacc⟩ := Prod.mk.inj hlists
  exact ⟨s, hs, queue_fifo hs, hsent, hacc⟩

/-- **A message is rejected although the ring is empty**, since `priv` is not known yet. -/
theorem queue_rejects_early :
    ∃ s, Lts.exec step (init 1) [.call 0, .check 0] = some s ∧
      ¬ ∀ m unread priv, .rejected m unread priv ∈ s.conn.trace → unread.length = 1023 := by
  have htrace : (Lts.exec step (init 1) [.call 0, .check 0]).map (fun s => s.conn.trace) =
      some [.rejected 1 [] false, .freed 1] := by decide +kernel
  obtain ⟨s, hs, htrace⟩ := Option.map_eq_some_iff.1 htrace
  refine ⟨s, hs, fun h => ?_⟩
  have hlen := h 1 [] false (by rw [htrace]; exact List.mem_cons_self ..)
  revert hlen
  decide

end System

end Iax.Dvm
