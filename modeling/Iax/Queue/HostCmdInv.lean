import Iax.Queue.HostCmd

/-!
# What the steps of host commands keep

* `InOrder`: the queue holds the commands from the one that is answered next, and their sequence
  numbers lead back to their entries.
* `Tracked`: `CMD_WANT_SKB` is set in an entry only while the caller of this very command waits.
* `Replied` and `Fine`: the page of an answer is its own caller's, and no caller gets a page with an
  error.
* `Safe.step`: every step keeps all of this but one, since the caller does not take the lock of the
  queue for `cancel`.
-/

namespace Iax.Queue

/-! ## Sequence numbers -/

theorem seqToIndex_sequence (q i : ℕ) : seqToIndex (queueToSeq q ||| indexToSeq i) = i % 256 := by
  have hqueue : queueToSeq q &&& 0xff = 0 := by
    rw [queueToSeq, show 0xff = 2 ^ 8 - 1 from rfl, Nat.and_two_pow_sub_one_eq_mod, Nat.shiftLeft_eq]
    exact Nat.mul_mod_left _ _
  rw [seqToIndex, Nat.and_or_distrib_right, hqueue, Nat.zero_or, indexToSeq, Nat.and_assoc,
    Nat.and_self]
  exact Nat.and_two_pow_sub_one_eq_mod i 8

theorem seqToQueue_sequence {q : ℕ} (hq : q < 32) (i : ℕ) :
    seqToQueue (queueToSeq q ||| indexToSeq i) = q := by
  have hindex : indexToSeq i >>> 8 = 0 := by
    rw [indexToSeq, show 0xff = 2 ^ 8 - 1 from rfl, Nat.and_two_pow_sub_one_eq_mod,
      Nat.shiftRight_eq_div_pow]
    exact Nat.div_eq_of_lt (Nat.mod_lt _ (by decide))
  have hself : q &&& 0x1f = q := by
    rw [show 0x1f = 2 ^ 5 - 1 from rfl, Nat.and_two_pow_sub_one_eq_mod]
    exact Nat.mod_eq_of_lt hq
  rw [seqToQueue, Nat.shiftRight_or_distrib, hindex, Nat.or_zero, queueToSeq,
    Nat.shiftLeft_shiftRight, hself, hself]

/-! ## Commands in a list -/

theorem getElem?_concat_cases {α : Type*} {l : List α} {a b : α} {k : ℕ}
    (h : (l ++ [a])[k]? = some b) : l[k]? = some b ∨ k = l.length ∧ b = a := by
  rcases Nat.lt_or_ge k l.length with hlt | hge
  · rw [List.getElem?_append_left hlt] at h
    exact .inl h
  · rw [List.getElem?_append_right hge] at h
    obtain ⟨hk, hb⟩ := List.getElem?_eq_some_iff.1 h
    have hzero : k - l.length = 0 := by
      rw [List.length_singleton] at hk
      omega
    simp only [hzero, List.getElem_cons_zero] at hb
    exact .inr ⟨by omega, hb.symm⟩

theorem getElem?_append_of_eq_some {α : Type*} {l : List α} {a : α} {k : ℕ} (h : l[k]? = some a)
    (l' : List α) : (l ++ l')[k]? = some a :=
  (List.getElem?_append_left (List.getElem?_eq_some_iff.1 h).1).trans h

/-! ## Where the two sides are -/

/-- The flags of the command that the caller is about. -/
def HcmdPc.flags : HcmdPc → Option CmdFlags
  | .idle => none
  | .called flags | .ready flags | .active flags => some flags
  | .waiting flags _ | .woken flags _ | .tested flags _ | .expired flags _ => some flags
  | .failed flags _ _ | .cancelled flags _ => some flags

/-- The entry of its command, from the queue on and up to `cancel`. -/
def HcmdPc.entry : HcmdPc → Option (CmdFlags × ℕ)
  | .waiting flags idx | .woken flags idx | .tested flags idx | .expired flags idx =>
    some (flags, idx)
  | .failed flags idx _ => some (flags, idx)
  | _ => none

/-- Its command is not in the queue yet. -/
def HcmdPc.Early : HcmdPc → Prop
  | .called _ | .ready _ | .active _ => True
  | _ => False

/-- The caller has not returned, and its command has, or had, this entry. -/
def HcmdPc.Holds (pc : HcmdPc) (flags : CmdFlags) (idx : ℕ) : Prop :=
  pc.entry = some (flags, idx) ∨ ∃ ret, pc = .cancelled flags ret

theorem HcmdPc.flags_of_entry {pc : HcmdPc} {flags : CmdFlags} {idx : ℕ}
    (h : pc.entry = some (flags, idx)) : pc.flags = some flags := by
  cases pc <;> simp_all [HcmdPc.entry, HcmdPc.flags]

theorem HcmdPc.Holds.flags_eq {pc : HcmdPc} {flags : CmdFlags} {idx : ℕ}
    (h : pc.Holds flags idx) : pc.flags = some flags := by
  rcases h with h | ⟨ret, rfl⟩
  · exact flags_of_entry h
  · rfl

theorem HcmdPc.entry_of_early {pc : HcmdPc} (h : pc.Early) : pc.entry = none := by
  cases pc <;> simp_all [HcmdPc.entry, HcmdPc.Early]

/-- The index of the answer that the handler is at. -/
def HandlerPc.index : HandlerPc → Option ℕ
  | .idle => none
  | .locked i | .stealing i | .reclaiming i | .finishing i | .clearing i => some i

/-- How many answers are being handled. -/
def HandlerPc.busy : HandlerPc → ℕ
  | .idle => 0
  | _ => 1

/-- How many of them have not given back their descriptor. -/
def HandlerPc.owed : HandlerPc → ℕ
  | .locked _ | .stealing _ | .reclaiming _ => 1
  | _ => 0

/-- For how many of them `CMD_WANT_SKB` has not been tested. -/
def HandlerPc.asking : HandlerPc → ℕ
  | .locked _ => 1
  | _ => 0

theorem HandlerPc.asking_le (pc : HandlerPc) : pc.asking ≤ pc.busy := by
  cases pc <;> simp [asking, busy]

namespace HostCmds

variable {s s' : HostCmds} {R : ℕ}

/-- The size of the window. -/
abbrev window (s : HostCmds) : ℕ := s.queue.txq.nWindow

/-! ## The queue -/

/-- The queue has the commands from number `R` on. -/
structure InOrder (s : HostCmds) (R : ℕ) : Prop where
  between : s.queue.Between R s.sent.length
  window_le : s.window ≤ 256
  id_lt : s.queue.txq.id < 32
  seq : ∀ k c, s.sent[k]? = some c → seqToQueue c.sequence = s.queue.txq.id ∧
    seqToIndex c.sequence % s.window = k % s.window
  answered_le : s.answered ≤ s.sent.length
  busy_le : s.handler.busy ≤ s.answered
  index : ∀ i, s.handler.index = some i → i % s.window = (s.answered - 1) % s.window
  read : R + s.handler.owed = s.answered ∨ s.sent.length = R + s.window
  room : s.sent.length + s.handler.busy ≤ s.answered + s.window

namespace InOrder

variable (h : s.InOrder R)
include h

theorem frame (hqueue : s'.queue = s.queue) (hhandler : s'.handler = s.handler)
    (hsent : s'.sent = s.sent) (hanswered : s'.answered = s.answered) : s'.InOrder R := by
  constructor <;> simp only [window, hqueue, hhandler, hsent, hanswered]
  exacts [h.between, h.window_le, h.id_lt, h.seq, h.answered_le, h.busy_le, h.index, h.read, h.room]

/-- The entry of a command. -/
theorem getCmdIndex_eq (i : ℕ) : s.queue.iwlTxqGetCmdIndex i = i % s.window :=
  h.between.getCmdIndex_eq i

theorem window_pos : 0 < s.window := h.between.window_pos

/-- The entry of the next command. -/
theorem cmdIdx_eq : s.cmdIdx = s.sent.length % s.window := by
  rw [cmdIdx, h.getCmdIndex_eq, h.between.write, Nat.mod_mod_of_dvd _ h.between.window_dvd]

/-- The entry that the handler looks at. -/
theorem index_eq {i : ℕ} (hi : s.handler.index = some i) :
    s.queue.iwlTxqGetCmdIndex i = (s.answered - 1) % s.window := by
  rw [h.getCmdIndex_eq, h.index i hi]

/-- Two commands that are not done have different entries. -/
theorem entry_inj {j k : ℕ} (hj : s.answered ≤ j + s.handler.busy) (hj' : j < s.sent.length)
    (hk : s.answered ≤ k + s.handler.busy) (hk' : k < s.sent.length)
    (heq : j % s.window = k % s.window) : j = k := by
  have hroom := h.room
  exact Ring.mod_inj (R := s.answered - s.handler.busy) (by omega) (by omega) (by omega) (by omega)
    heq

/-- There is room for a command when there is space in the queue and the handler is not at work. -/
theorem length_lt (hidle : s.handler = .idle) (hspace : 0 < s.queue.iwlTxqSpace) :
    s.sent.length < s.answered + s.window := by
  have hcap := h.between.capacity_le
  have hread := h.read
  have hwindow := h.window_pos
  rw [h.between.space_eq] at hspace
  rw [hidle] at hread
  simp only [HandlerPc.owed] at hread
  change s.queue.capacity ≤ s.window at hcap
  omega

/-- The entry of the next command is none of those that count. -/
theorem entry_ne_cmdIdx (hidle : s.handler = .idle) (hspace : 0 < s.queue.iwlTxqSpace) {k : ℕ}
    (hk : s.answered ≤ k + s.handler.busy) (hk' : k < s.sent.length) :
    k % s.window ≠ s.cmdIdx := by
  have hlt := h.length_lt hidle hspace
  have hle := h.answered_le
  rw [hidle] at hk
  rw [h.cmdIdx_eq]
  intro heq
  have := Ring.mod_inj (N := s.window) (R := s.answered) (k := k) (l := s.sent.length) hk (by omega)
    hle hlt heq
  omega

/-- A command that counts is an old one, whose entry is another, or the new one. -/
theorem pushed_cases (hidle : s.handler = .idle) (hspace : 0 < s.queue.iwlTxqSpace) {k : ℕ}
    {c c' : SentCmd} (hk : s.answered ≤ k + s.handler.busy)
    (hc : (s.sent ++ [c'])[k]? = some c) :
    (s.sent[k]? = some c ∧ k % s.window ≠ s.cmdIdx) ∨
      (k = s.sent.length ∧ k % s.window = s.cmdIdx ∧ c = c') := by
  rcases getElem?_concat_cases hc with hc | ⟨rfl, rfl⟩
  · exact .inl ⟨hc, h.entry_ne_cmdIdx hidle hspace hk (List.getElem?_eq_some_iff.1 hc).1⟩
  · exact .inr ⟨rfl, h.cmdIdx_eq.symm, rfl⟩

/-- The entries of the commands that are not answered are not the one that the handler clears. -/
theorem ne_index_of_clearing {i : ℕ} (hclearing : s.handler = .clearing i) {k : ℕ}
    (hk : s.answered ≤ k) (hk' : k < s.sent.length) :
    k % s.window ≠ s.queue.iwlTxqGetCmdIndex i := by
  have hbusy := h.busy_le
  have hle := h.answered_le
  rw [hclearing] at hbusy
  simp only [HandlerPc.busy] at hbusy
  have hlast : s.answered ≤ s.answered - 1 + s.handler.busy := by
    rw [hclearing]
    simp only [HandlerPc.busy]
    omega
  rw [h.index_eq (by rw [hclearing]; rfl)]
  intro heq
  have := h.entry_inj (hk.trans (Nat.le_add_right ..)) hk' hlast (by omega) heq
  omega

/-- Entries are not part of it. -/
theorem setEntries (entries : ℕ → Option CmdMeta) :
    InOrder { s with queue := { s.queue with txq.entries := entries } } R where
  between := ⟨h.between.toSized.of_sizes_eq rfl, h.between.read, h.between.write, h.between.le,
    h.between.room⟩
  window_le := h.window_le
  id_lt := h.id_lt
  seq := h.seq
  answered_le := h.answered_le
  busy_le := h.busy_le
  index := h.index
  read := h.read
  room := h.room

/-- A command goes into the queue. -/
theorem push (hidle : s.handler = .idle) (hspace : 0 < s.queue.iwlTxqSpace)
    (entries : ℕ → Option CmdMeta) (timer : TimerList) (caller : Option CmdPtr) (flags : CmdFlags) :
    InOrder { s with
      queue := { s.queue with
        txq.entries := entries
        txq.stuckTimer := timer
        txq.writePtr := s.queue.iwlTxqIncWrap s.queue.txq.writePtr }
      sent := s.sent ++ [⟨caller, flags,
        queueToSeq s.queue.txq.id ||| indexToSeq s.queue.txq.writePtr⟩] } R where
  between := by
    rw [List.length_append]
    exact h.between.push hspace entries timer
  window_le := h.window_le
  id_lt := h.id_lt
  seq := by
    intro k c hk
    rcases getElem?_concat_cases hk with hk | ⟨rfl, rfl⟩
    · exact h.seq k c hk
    · obtain ⟨b, hb⟩ := h.between.window_pow
      have hdvd : s.window ∣ 256 := by
        change s.queue.txq.nWindow ∣ 2 ^ 8
        rw [hb]
        exact Nat.pow_dvd_pow 2 ((Nat.pow_le_pow_iff_right (by omega)).1
          (hb ▸ h.window_le : 2 ^ b ≤ 2 ^ 8))
      refine ⟨seqToQueue_sequence h.id_lt _, ?_⟩
      change seqToIndex (queueToSeq s.queue.txq.id ||| indexToSeq s.queue.txq.writePtr) %
        s.window = s.sent.length % s.window
      rw [seqToIndex_sequence, Nat.mod_mod_of_dvd _ hdvd, h.between.write,
        Nat.mod_mod_of_dvd _ h.between.window_dvd]
  answered_le := by
    rw [List.length_append]
    exact h.answered_le.trans (Nat.le_add_right ..)
  busy_le := h.busy_le
  index := h.index
  read := by
    have hread := h.read
    have hcap := h.between.capacity_le
    rw [h.between.space_eq] at hspace
    change s.queue.capacity ≤ s.window at hcap
    exact .inl (hread.resolve_right (by omega))
  room := by
    have hlt := h.length_lt hidle hspace
    simp only [hidle, HandlerPc.busy, List.length_append, List.length_singleton, window]
    change s.sent.length + 1 ≤ s.answered + s.window
    omega

/-- The handler takes an answer. -/
theorem rx {c : SentCmd} (hidle : s.handler = .idle) (hsent : s.sent[s.answered]? = some c) :
    InOrder { s with
      answered := s.answered + 1
      handler := .locked (seqToIndex c.sequence) } R where
  between := h.between
  window_le := h.window_le
  id_lt := h.id_lt
  seq := h.seq
  answered_le := (List.getElem?_eq_some_iff.1 hsent).1
  busy_le := Nat.le_add_left 1 _
  index := by
    intro i hi
    obtain rfl := Option.some.inj hi
    exact (h.seq _ _ hsent).2
  read := by
    have hread := h.read
    rw [hidle] at hread
    exact hread.imp (congrArg (· + 1)) id
  room := by
    have hroom := h.room
    rw [hidle] at hroom
    change s.sent.length + 1 ≤ s.answered + 1 + s.window
    simp only [HandlerPc.busy] at hroom
    omega

/-- The handler goes on without a change to the queue. -/
theorem handler {pc : HandlerPc} (hbusy : pc.busy = s.handler.busy)
    (howed : pc.owed = s.handler.owed) (hindex : pc.index = s.handler.index) :
    InOrder { s with handler := pc } R where
  between := h.between
  window_le := h.window_le
  id_lt := h.id_lt
  seq := h.seq
  answered_le := h.answered_le
  busy_le := hbusy.le.trans h.busy_le
  index := fun i hi => h.index i (hindex ▸ hi)
  read := by
    have hread := h.read
    rw [← howed] at hread
    exact hread
  room := by
    have hroom := h.room
    rw [← hbusy] at hroom
    exact hroom

/-- The descriptor of the answer is given back, unless the window is full; an NMI is never forced.
-/
theorem reclaim {i jiffies : ℕ} {t : HostCmds} (hreclaiming : s.handler = .reclaiming i)
    (ht : s.reclaim i jiffies = some t) :
    ∃ timer readPtr R', t = { s with
        queue := { s.queue with txq.readPtr := readPtr, txq.stuckTimer := timer } } ∧
      InOrder { t with handler := .finishing i } R' ∧
      (s.sent.length = R + s.window → R' = R) := by
  have hbusy := h.busy_le
  have hread := h.read
  have hroom := h.room
  have hle := h.answered_le
  rw [hreclaiming] at hbusy hread hroom
  simp only [HandlerPc.busy, HandlerPc.owed] at hbusy hread hroom
  have hindex : i % s.window = (s.answered - 1) % s.window :=
    h.index i (by rw [hreclaiming]; rfl)
  obtain ⟨timer, R', heq, hbetween, hread'⟩ := h.between.iwlPcieCmdqReclaim_oldest
    (by omega) (by omega) hindex (hread.imp (fun hR => by omega) id) jiffies
  rw [HostCmds.reclaim, heq] at ht
  obtain rfl := Option.some.inj ht
  refine ⟨timer, R' % s.queue.maxTfdQueueSize, R', ?_, ⟨hbetween, h.window_le, h.id_lt, h.seq, hle,
    hbusy, ?_, ?_, hroom⟩, ?_⟩
  · simp only [List.replicate_zero, List.append_nil]
  · intro j hj
    exact h.index j (by rw [hreclaiming]; exact hj)
  · rcases hread' with ⟨rfl, -⟩ | ⟨rfl, hfull⟩
    · left
      change s.answered - 1 + 1 + 0 = s.answered
      omega
    · exact .inr hfull
  · intro hfull
    rcases hread' with ⟨-, hnotfull⟩ | ⟨hR', -⟩
    · exact absurd hfull hnotfull.ne
    · exact hR'

/-- The handler is done with an answer. -/
theorem clear {i : ℕ} (hclearing : s.handler = .clearing i) :
    InOrder { s with handler := .idle } R where
  between := h.between
  window_le := h.window_le
  id_lt := h.id_lt
  seq := h.seq
  answered_le := h.answered_le
  busy_le := Nat.zero_le _
  index := fun i hi => by cases hi
  read := by
    have hread := h.read
    rw [hclearing] at hread
    exact hread
  room := (Nat.le_add_right ..).trans h.room

end InOrder

/-! ## The entries -/

/-- What an entry says of its command; `CMD_WANT_SKB` may have been cleared. -/
structure Kept (m : CmdMeta) (c : SentCmd) : Prop where
  source : m.source = if c.flags.wantSkb then c.caller else none
  async : m.flags.async = c.flags.async
  wantSkb : m.flags.wantSkb = true → c.flags.wantSkb = true

/-- The entries lead to callers that wait. -/
structure Tracked (s : HostCmds) : Prop where
  kept : ∀ k c, s.answered ≤ k + s.handler.busy → s.sent[k]? = some c →
    Kept (s.metaAt (k % s.window)) c
  wants : ∀ k c, s.answered ≤ k + s.handler.asking → s.sent[k]? = some c →
    (s.metaAt (k % s.window)).flags.wantSkb = true →
      c.caller = some s.cmd ∧ s.resp s.cmd = none ∧ s.pc.entry = some (c.flags, k % s.window)
  stealing : ∀ i, s.handler = .stealing i → ∃ c, s.sent[s.answered - 1]? = some c ∧
    c.flags.wantSkb = true ∧ c.caller = some s.cmd ∧ s.resp s.cmd = none ∧
      s.pc.Holds c.flags ((s.answered - 1) % s.window)

theorem metaAt_eq_of_update {idx : ℕ} {m : CmdMeta} (hentries : s'.queue.txq.entries =
    Function.update s.queue.txq.entries idx (some m)) (i : ℕ) :
    s'.metaAt i = if i = idx then m else s.metaAt i := by
  rw [metaAt, hentries]
  split
  · rename_i heq
    rw [heq, Function.update_self]
    rfl
  · rename_i hne
    rw [Function.update_of_ne hne]
    rfl

namespace Tracked

/-- A step that is not the handler's and leaves the entries that count: a caller that waits for a
page keeps waiting. -/
theorem frame (h : s.Tracked) (hhandler : s'.handler = s.handler) (hsent : s'.sent = s.sent)
    (hanswered : s'.answered = s.answered) (hwindow : s'.window = s.window)
    (hmeta : ∀ k, s.answered ≤ k + s.handler.busy → k < s.sent.length →
      s'.metaAt (k % s.window) = s.metaAt (k % s.window))
    (hentry : ∀ flags idx, flags.wantSkb = true → s.resp s.cmd = none →
      s.pc.entry = some (flags, idx) →
        s'.cmd = s.cmd ∧ s'.resp s.cmd = none ∧ s'.pc.entry = some (flags, idx))
    (hholds : ∀ i flags idx, s.handler = .stealing i → flags.wantSkb = true →
      s.resp s.cmd = none → s.pc.Holds flags idx →
        s'.cmd = s.cmd ∧ s'.resp s.cmd = none ∧ s'.pc.Holds flags idx) : s'.Tracked where
  kept := by
    intro k c hk hc
    rw [hanswered, hhandler] at hk
    rw [hsent] at hc
    rw [hwindow, hmeta k hk (List.getElem?_eq_some_iff.1 hc).1]
    exact h.kept k c hk hc
  wants := by
    intro k c hk hc hwant
    rw [hanswered, hhandler] at hk
    rw [hsent] at hc
    have hbusy : s.answered ≤ k + s.handler.busy :=
      hk.trans (Nat.add_le_add_left s.handler.asking_le k)
    rw [hwindow, hmeta k hbusy (List.getElem?_eq_some_iff.1 hc).1] at hwant
    obtain ⟨hcaller, hresp, hpc⟩ := h.wants k c hk hc hwant
    obtain ⟨hcmd, hresp', hpc'⟩ := hentry c.flags (k % s.window)
      ((h.kept k c hbusy hc).wantSkb hwant) hresp hpc
    rw [hwindow, hcmd]
    exact ⟨hcaller, hresp', hpc'⟩
  stealing := by
    intro i hi
    rw [hhandler] at hi
    obtain ⟨c, hc, hwant, hcaller, hresp, hpc⟩ := h.stealing i hi
    obtain ⟨hcmd, hresp', hpc'⟩ := hholds i c.flags ((s.answered - 1) % s.window) hi hwant hresp hpc
    rw [hsent, hanswered, hwindow, hcmd]
    exact ⟨c, hc, hwant, hcaller, hresp', hpc'⟩

/-- The handler goes on. -/
theorem handler (h : s.Tracked) {pc : HandlerPc} (hbusy : pc.busy ≤ s.handler.busy)
    (hasking : pc.asking ≤ s.handler.asking) (hstealing : ∀ i, pc ≠ .stealing i) :
    Tracked { s with handler := pc } where
  kept := fun k c hk hc => h.kept k c (hk.trans (Nat.add_le_add_left hbusy k)) hc
  wants := fun k c hk hc => h.wants k c (hk.trans (Nat.add_le_add_left hasking k)) hc
  stealing := fun i hi => absurd hi (hstealing i)

/-- A command goes into the queue. -/
theorem push (h : s.Tracked) (hord : s.InOrder R) (hidle : s.handler = .idle)
    (hspace : 0 < s.queue.iwlTxqSpace) (timer : TimerList) (caller : Option CmdPtr)
    (flags : CmdFlags) (pc : HcmdPc) (seq : ℕ)
    (hold : ∀ x, s.pc.entry = some x → pc.entry = some x)
    (hnew : flags.wantSkb = true → caller = some s.cmd ∧ s.resp s.cmd = none ∧
      pc.entry = some (flags, s.cmdIdx)) :
    Tracked { s with
      queue := { s.queue with
        txq.entries := Function.update s.queue.txq.entries s.cmdIdx
          (some ⟨if flags.wantSkb then caller else none, flags⟩)
        txq.stuckTimer := timer
        txq.writePtr := s.queue.iwlTxqIncWrap s.queue.txq.writePtr }
      sent := s.sent ++ [⟨caller, flags, seq⟩]
      pc := pc } := by
  refine ⟨?_, ?_, ?_⟩
  · intro k c hk hc
    rw [metaAt_eq_of_update (s := s) rfl]
    rcases hord.pushed_cases hidle hspace hk hc with ⟨hc, hne⟩ | ⟨-, heq, rfl⟩
    · rw [if_neg hne]
      exact h.kept k c hk hc
    · rw [if_pos heq]
      exact ⟨rfl, rfl, id⟩
  · intro k c hk hc hwant
    rw [metaAt_eq_of_update (s := s) rfl] at hwant
    rcases hord.pushed_cases hidle hspace (hk.trans (Nat.add_le_add_left s.handler.asking_le k)) hc
      with ⟨hc, hne⟩ | ⟨-, heq, rfl⟩
    · rw [if_neg hne] at hwant
      obtain ⟨hcaller, hresp, hpc⟩ := h.wants k c hk hc hwant
      exact ⟨hcaller, hresp, hold _ hpc⟩
    · rw [if_pos heq] at hwant
      obtain ⟨hcaller, hresp, hpc⟩ := hnew hwant
      exact ⟨hcaller, hresp, heq ▸ hpc⟩
  · intro i hi
    rw [hidle] at hi
    cases hi

/-- The caller clears `CMD_WANT_SKB` in the entry of its command. -/
theorem cancel (h : s.Tracked) {flags : CmdFlags} {cmdIdx : ℕ} {ret : ℤ}
    (hpc : s.pc = .failed flags cmdIdx ret) :
    Tracked { (if flags.wantSkb then s.dropWantSkb cmdIdx else s) with
      pc := .cancelled flags ret } := by
  have hentry : s.pc.entry = some (flags, cmdIdx) := by rw [hpc]; rfl
  have hholds : ∀ f idx, s.pc.Holds f idx → f = flags := by
    intro f idx hf
    have heq := hf.flags_eq
    rw [HcmdPc.flags_of_entry hentry] at heq
    exact (Option.some.inj heq).symm
  have hstealing : ∀ i, s.handler = .stealing i → ∃ c, s.sent[s.answered - 1]? = some c ∧
      c.flags.wantSkb = true ∧ c.caller = some s.cmd ∧ s.resp s.cmd = none ∧
        HcmdPc.Holds (.cancelled flags ret) c.flags ((s.answered - 1) % s.window) := by
    intro i hi
    obtain ⟨c, hc, hwant, hcaller, hresp, hheld⟩ := h.stealing i hi
    obtain rfl := hholds _ _ hheld
    exact ⟨c, hc, hwant, hcaller, hresp, .inr ⟨ret, rfl⟩⟩
  -- an entry that still asks for the page would be the one that was cleared
  have hcleared : ∀ k c, s.answered ≤ k + s.handler.asking → s.sent[k]? = some c →
      (s.metaAt (k % s.window)).flags.wantSkb = true → k % s.window = cmdIdx ∧
        flags.wantSkb = true := by
    intro k c hk hc hwant
    obtain ⟨-, -, hpc'⟩ := h.wants k c hk hc hwant
    rw [hentry] at hpc'
    obtain ⟨hflags, hidx⟩ := Prod.mk.inj (Option.some.inj hpc')
    refine ⟨hidx.symm, ?_⟩
    rw [hflags]
    exact (h.kept k c (hk.trans (Nat.add_le_add_left s.handler.asking_le k)) hc).wantSkb hwant
  cases hwantSkb : flags.wantSkb with
  | false =>
    refine ⟨h.kept, ?_, hstealing⟩
    intro k c hk hc hwant
    exact absurd (hcleared k c hk hc hwant).2 (by rw [hwantSkb]; exact Bool.false_ne_true)
  | true =>
    refine ⟨?_, ?_, hstealing⟩
    · intro k c hk hc
      have hkept := h.kept k c hk hc
      change Kept ((s.dropWantSkb cmdIdx).metaAt (k % s.window)) c
      rw [metaAt_eq_of_update (s := s) rfl]
      split
      · rename_i heq
        rw [heq] at hkept
        exact ⟨hkept.source, hkept.async, fun hfalse => absurd hfalse Bool.false_ne_true⟩
      · exact hkept
    · intro k c hk hc hwant
      change ((s.dropWantSkb cmdIdx).metaAt (k % s.window)).flags.wantSkb = true at hwant
      rw [metaAt_eq_of_update (s := s) rfl] at hwant
      split at hwant
      · cases hwant
      · rename_i hne
        exact absurd (hcleared k c hk hc hwant).1 hne

/-- The handler takes an answer. -/
theorem rx (h : s.Tracked) (hidle : s.handler = .idle) (i : ℕ) :
    Tracked { s with answered := s.answered + 1, handler := .locked i } where
  kept := fun k c hk hc => h.kept k c (by rw [hidle]; exact Nat.le_of_succ_le_succ hk) hc
  wants := fun k c hk hc => h.wants k c (by rw [hidle]; exact Nat.le_of_succ_le_succ hk) hc
  stealing := fun j hj => by cases hj

/-- The handler finds `CMD_WANT_SKB`. -/
theorem testSkb (h : s.Tracked) (hord : s.InOrder R) {i : ℕ} (hlocked : s.handler = .locked i)
    (hwant : (s.metaAt (s.queue.iwlTxqGetCmdIndex i)).flags.wantSkb = true) :
    Tracked { s with handler := .stealing i } where
  kept := fun k c hk hc => h.kept k c (by rw [hlocked]; exact hk) hc
  wants := fun k c hk hc => h.wants k c (hk.trans (Nat.le_add_right ..)) hc
  stealing := by
    intro j hj
    have hbusy := hord.busy_le
    have hle := hord.answered_le
    rw [hlocked] at hbusy
    simp only [HandlerPc.busy] at hbusy
    have hk : s.answered ≤ s.answered - 1 + 1 := by omega
    have hc := List.getElem?_eq_getElem (l := s.sent) (i := s.answered - 1) (by omega)
    rw [hord.index_eq (by rw [hlocked]; rfl)] at hwant
    obtain ⟨hcaller, hresp, hpc⟩ := h.wants _ _ (by rw [hlocked]; exact hk) hc hwant
    exact ⟨_, hc, (h.kept _ _ (by rw [hlocked]; exact hk) hc).wantSkb hwant, hcaller, hresp,
      .inl hpc⟩

/-- The page goes to its caller, who is there. -/
theorem store (h : s.Tracked) (hord : s.InOrder R) {i : ℕ} (hstealing : s.handler = .stealing i) :
    (∃ c, s.sent[s.answered - 1]? = some c ∧ c.caller = some s.cmd) ∧ s.pc ≠ .idle ∧
      s.storeResp i = { s.log (.stored s.cmd (s.answered - 1)) with
        resp := Function.update s.resp s.cmd (some (s.answered - 1)) } ∧
      Tracked { s.storeResp i with handler := .reclaiming i } := by
  have hbusy := hord.busy_le
  rw [hstealing] at hbusy
  simp only [HandlerPc.busy] at hbusy
  have hk : s.answered ≤ s.answered - 1 + s.handler.busy := by
    rw [hstealing]
    simp only [HandlerPc.busy]
    omega
  obtain ⟨c, hc, hwant, hcaller, hresp, hpc⟩ := h.stealing i hstealing
  have hkept := (h.kept _ c hk hc).source
  rw [if_pos hwant, hcaller] at hkept
  have hrunning : s.pc ≠ .idle := by
    intro hidle
    have heq := hpc.flags_eq
    rw [hidle] at heq
    cases heq
  have hstore : s.storeResp i = { s.log (.stored s.cmd (s.answered - 1)) with
      resp := Function.update s.resp s.cmd (some (s.answered - 1)) } := by
    simp only [storeResp, hord.index_eq (show s.handler.index = some i by rw [hstealing]; rfl),
      hkept, true_and, if_pos hrunning]
  refine ⟨⟨c, hc, hcaller⟩, hrunning, hstore, ?_⟩
  rw [hstore]
  refine ⟨?_, ?_, fun j hj => by cases hj⟩
  · intro j d hj hd
    exact h.kept j d (by rw [hstealing]; exact hj) hd
  · intro j d hj hd hwants
    -- a second entry that asks for a page would be the same one
    have hj' : s.answered ≤ j + s.handler.asking := by rw [hstealing]; exact hj
    obtain ⟨-, -, hentry⟩ := h.wants j d hj' hd hwants
    rcases hpc with hpc | ⟨ret, hpc⟩
    · rw [hentry] at hpc
      have heq := (Prod.mk.inj (Option.some.inj hpc)).2
      have := hord.entry_inj (hj'.trans (Nat.add_le_add_left s.handler.asking_le j))
        (List.getElem?_eq_some_iff.1 hd).1 hk (List.getElem?_eq_some_iff.1 hc).1 heq
      change s.answered ≤ j + 0 at hj
      omega
    · rw [hpc] at hentry
      cases hentry

/-- The handler clears the flags of its entry. -/
theorem clear (h : s.Tracked) (hord : s.InOrder R) {i : ℕ} (hclearing : s.handler = .clearing i)
    (m : CmdMeta) :
    Tracked { s.setMeta (s.queue.iwlTxqGetCmdIndex i) m with handler := .idle } := by
  have hmeta : ∀ k c, s.answered ≤ k → s.sent[k]? = some c →
      (s.setMeta (s.queue.iwlTxqGetCmdIndex i) m).metaAt (k % s.window) =
        s.metaAt (k % s.window) := by
    intro k c hk hc
    rw [metaAt_eq_of_update (s := s) rfl,
      if_neg (hord.ne_index_of_clearing hclearing hk (List.getElem?_eq_some_iff.1 hc).1)]
  refine ⟨?_, ?_, fun j hj => by cases hj⟩
  · intro k c hk hc
    change Kept ((s.setMeta (s.queue.iwlTxqGetCmdIndex i) m).metaAt (k % s.window)) c
    rw [hmeta k c hk hc]
    exact h.kept k c (Nat.le_add_right_of_le hk) hc
  · intro k c hk hc hwant
    change ((s.setMeta (s.queue.iwlTxqGetCmdIndex i) m).metaAt (k % s.window)).flags.wantSkb =
      true at hwant
    rw [hmeta k c hk hc] at hwant
    exact h.wants k c (Nat.le_add_right_of_le hk) hc hwant

end Tracked

/-! ## The pages and what the callers see -/

/-- `k` is the number of the command of the caller. -/
def Answers (s : HostCmds) (p : CmdPtr) (k : ℕ) : Prop :=
  ∃ c, s.sent[k]? = some c ∧ c.caller = some p

/-- The pages. -/
structure Replied (s : HostCmds) : Prop where
  own : ∀ p k, s.resp p = some k → s.Answers p k ∧ k < s.answered
  early : s.pc.Early → s.resp s.cmd = none
  unwanted : ∀ flags, s.pc.flags = some flags → flags.wantSkb = false → s.resp s.cmd = none

/-- The caller has returned. -/
def Gone (s : HostCmds) (p : CmdPtr) : Prop := p ≤ s.cmd ∧ (p = s.cmd → s.pc = .idle)

/-- What may happen: a page is stored for its own caller, who is still there, and a caller that has
returned has a page if and only if it wanted one and got no error. -/
def Fine (s : HostCmds) : HcmdEvent → Prop
  | .stored p k => s.Answers p k
  | .returned p flags ret => s.Gone p ∧
    if ret = 0 ∧ flags.wantSkb = true then ∃ k, s.resp p = some k ∧ s.Answers p k
    else s.resp p = none
  | .stale _ _ | .crashed | .nmi => False
  | .freed _ | .queueFull => True

/-- Events stay fine: commands stay, and nothing is stored for a caller that has returned. -/
theorem Fine.mono {e : HcmdEvent} (h : s.Fine e) (hsent : s.sent <+: s'.sent)
    (hgone : ∀ p, s.Gone p → s'.Gone p ∧ s'.resp p = s.resp p) : s'.Fine e := by
  have hanswers : ∀ p k, s.Answers p k → s'.Answers p k := by
    rintro p k ⟨c, hc, hcaller⟩
    obtain ⟨rest, hrest⟩ := hsent
    exact ⟨c, hrest ▸ getElem?_append_of_eq_some hc rest, hcaller⟩
  cases e with
  | stored p k => exact hanswers p k h
  | returned p flags ret =>
    obtain ⟨hp, hresp⟩ := h
    obtain ⟨hp', heq⟩ := hgone p hp
    refine ⟨hp', ?_⟩
    rw [heq]
    split
    · rename_i hok
      rw [if_pos hok] at hresp
      exact hresp.imp fun k hk => ⟨hk.1, hanswers p k hk.2⟩
    · rename_i hnot
      rw [if_neg hnot] at hresp
      exact hresp
  | stale p k => exact h
  | crashed => exact h
  | nmi => exact h
  | freed k => trivial
  | queueFull => trivial

/-- The invariant. -/
structure Safe (s : HostCmds) : Prop where
  ordered : ∃ R, s.InOrder R
  tracked : s.Tracked
  replied : s.Replied
  fine : ∀ e ∈ s.trace, s.Fine e

/-- The caller returns from `cancel` while the handler is about to store a page. -/
def tooEarly (s : HostCmds) (a : HcmdAct) : Bool :=
  match a, s.handler with
  | .dropResp, .stealing _ => true
  | _, _ => false

theorem tooEarly_iff {a : HcmdAct} :
    s.tooEarly a = true ↔ a = .dropResp ∧ ∃ i, s.handler = .stealing i := by
  constructor
  · intro h
    unfold tooEarly at h
    split at h
    · exact ⟨rfl, _, by assumption⟩
    · cases h
  · rintro ⟨rfl, i, hi⟩
    simp only [tooEarly, hi]

namespace Safe

variable {flags : CmdFlags} {idx : ℕ}

/-- A caller that is in flight has not returned. -/
theorem not_gone {p : CmdPtr} (hp : s.Gone p) (hpc : s.pc ≠ .idle) : p ≠ s.cmd :=
  fun heq => hpc (hp.2 heq)

/-- Another place in the code, with what the interrupts do to the status. -/
theorem move (h : s.Safe) (status : HcmdStatus) {pc : HcmdPc} (hentry : pc.entry = s.pc.entry)
    (hflags : pc.flags = s.pc.flags) (hearly : pc.Early → s.pc.Early)
    (hcancelled : ∀ f r, s.pc = .cancelled f r → pc = .cancelled f r)
    (hidle : s.pc = .idle → pc = .idle) : Safe { s with status := status, pc := pc } where
  ordered := h.ordered.imp fun _ hord => hord.frame rfl rfl rfl rfl
  tracked := h.tracked.frame rfl rfl rfl rfl (fun _ _ _ => rfl)
    (fun _ _ _ hresp hpc => ⟨rfl, hresp, hentry.trans hpc⟩)
    (fun _ f _ _ _ hresp hpc => ⟨rfl, hresp,
      hpc.imp (fun heq => hentry.trans heq) fun ⟨r, hr⟩ => ⟨r, hcancelled f r hr⟩⟩)
  replied :=
    ⟨h.replied.own, fun he => h.replied.early (hearly he),
      fun f hf => h.replied.unwanted f (hflags ▸ hf)⟩
  fine := fun e he => (h.fine e he).mono List.prefix_rfl fun _ hp =>
    ⟨⟨hp.1, fun heq => hidle (hp.2 heq)⟩, rfl⟩

/-- A new caller. -/
theorem call (h : s.Safe) (hpc : s.pc = .idle) (flags : CmdFlags) :
    Safe { s with
      cmd := s.cmd + 1
      resp := Function.update s.resp (s.cmd + 1) none
      pc := .called flags } where
  ordered := h.ordered.imp fun _ hord => hord.frame rfl rfl rfl rfl
  tracked := by
    refine h.tracked.frame rfl rfl rfl rfl (fun _ _ _ => rfl) ?_ ?_
    · intro f i _ _ hentry
      rw [hpc] at hentry
      cases hentry
    · intro i f j _ _ _ hholds
      have heq := hholds.flags_eq
      rw [hpc] at heq
      cases heq
  replied := by
    refine ⟨?_, fun _ => Function.update_self .., fun _ _ _ => Function.update_self ..⟩
    intro p k hk
    change Function.update s.resp (s.cmd + 1) none p = some k at hk
    rcases eq_or_ne p (s.cmd + 1) with rfl | hne
    · rw [Function.update_self] at hk
      cases hk
    · rw [Function.update_of_ne hne] at hk
      exact h.replied.own p k hk
  fine := fun e he => (h.fine e he).mono List.prefix_rfl fun p hp =>
    have hlt : p < s.cmd + 1 := Nat.lt_succ_of_le hp.1
    ⟨⟨hlt.le, fun heq => absurd heq hlt.ne⟩, Function.update_of_ne hlt.ne _ _⟩

/-- A caller returns: no entry leads to it any more, and it has a page only when it says so. -/
theorem finishCall (h : s.Safe) (hpc : s.pc.flags = some flags) {ret : ℤ}
    (hentry : ∀ i, flags.wantSkb = true → s.resp s.cmd = none → s.pc.entry ≠ some (flags, i))
    (hcancelled : ∀ i r, s.handler = .stealing i → s.pc ≠ .cancelled flags r)
    (hret : ¬(ret = 0 ∧ flags.wantSkb = true) → s.resp s.cmd = none) :
    Safe (s.finishCall flags ret) := by
  have hrunning : s.pc ≠ .idle := by
    intro hidle
    rw [hidle] at hpc
    cases hpc
  have hflags : ∀ f, s.pc.flags = some f → f = flags := by
    intro f hf
    rw [hpc] at hf
    exact (Option.some.inj hf).symm
  refine ⟨h.ordered.imp fun _ hord => hord.frame rfl rfl rfl rfl, ?_, ?_, ?_⟩
  · refine h.tracked.frame rfl rfl rfl rfl (fun _ _ _ => rfl) ?_ ?_
    · intro f i hwant hresp heq
      obtain rfl := hflags f (HcmdPc.flags_of_entry heq)
      exact absurd heq (hentry i hwant hresp)
    · intro i f j hi hwant hresp hholds
      obtain rfl := hflags f hholds.flags_eq
      rcases hholds with heq | ⟨r, hr⟩
      · exact absurd heq (hentry j hwant hresp)
      · exact absurd hr (hcancelled i r hi)
  · exact ⟨h.replied.own, fun he => he.elim, fun f hf => by cases hf⟩
  · intro e he
    have hmono : ∀ p, s.Gone p → (s.finishCall flags ret).Gone p ∧
        (s.finishCall flags ret).resp p = s.resp p := fun p hp => ⟨⟨hp.1, fun _ => rfl⟩, rfl⟩
    rcases List.mem_append.1 he with he | he
    · exact (h.fine e he).mono List.prefix_rfl hmono
    · obtain rfl := List.mem_singleton.1 he
      refine ⟨⟨le_rfl, fun _ => rfl⟩, ?_⟩
      change if _ ∧ _ then ∃ k, s.resp s.cmd = some k ∧ s.Answers s.cmd k else s.resp s.cmd = none
      cases hresp : s.resp s.cmd with
      | none =>
        rw [if_neg]
        rintro ⟨hzero, hwant⟩
        split at hzero
        · cases hzero
        · rename_i hnot
          exact hnot (by simp [hwant, hzero])
      | some k =>
        simp only [Option.isNone_some, Bool.and_false, Bool.false_eq_true, if_false]
        by_cases hok : ret = 0 ∧ flags.wantSkb = true
        · rw [if_pos hok]
          exact ⟨k, rfl, (h.replied.own _ k hresp).1⟩
        · rw [hret hok] at hresp
          cases hresp

/-- An event that says nothing of the callers. -/
theorem log (h : s.Safe) {e : HcmdEvent} (he : Fine (s.log e) e) : Safe (s.log e) where
  ordered := h.ordered.imp fun _ hord => hord.frame rfl rfl rfl rfl
  tracked := h.tracked.frame rfl rfl rfl rfl (fun _ _ _ => rfl)
    (fun _ _ _ hresp hpc => ⟨rfl, hresp, hpc⟩) (fun _ _ _ _ _ hresp hpc => ⟨rfl, hresp, hpc⟩)
  replied := ⟨h.replied.own, h.replied.early, h.replied.unwanted⟩
  fine := by
    intro e' he'
    rcases List.mem_append.1 he' with he' | he'
    · exact (h.fine e' he').mono List.prefix_rfl fun _ hp => ⟨hp, rfl⟩
    · obtain rfl := List.mem_singleton.1 he'
      exact he

/-- The page is freed at the end of `cancel`, while the handler is not about to store one. -/
theorem freeResp (h : s.Safe) {ret : ℤ} (hpc : s.pc = .cancelled flags ret)
    (hstealing : ∀ i, s.handler ≠ .stealing i) :
    Safe s.freeResp ∧ s.freeResp.pc = s.pc ∧ s.freeResp.handler = s.handler ∧
      s.freeResp.resp s.freeResp.cmd = none := by
  unfold HostCmds.freeResp
  split
  · rename_i hresp
    exact ⟨h, rfl, rfl, hresp⟩
  · rename_i k hresp
    refine ⟨⟨h.ordered.imp fun _ hord => hord.frame rfl rfl rfl rfl, ?_, ?_, ?_⟩, rfl, rfl,
      Function.update_self ..⟩
    · refine h.tracked.frame rfl rfl rfl rfl (fun _ _ _ => rfl) ?_ ?_
      · intro f i _ _ hentry
        rw [hpc] at hentry
        cases hentry
      · intro i f j hi
        exact absurd hi (hstealing i)
    · refine ⟨?_, fun _ => Function.update_self .., fun _ _ _ => Function.update_self ..⟩
      intro p j hj
      change Function.update s.resp s.cmd none p = some j at hj
      rcases eq_or_ne p s.cmd with rfl | hne
      · rw [Function.update_self] at hj
        cases hj
      · rw [Function.update_of_ne hne] at hj
        exact h.replied.own p j hj
    · intro e he
      rcases List.mem_append.1 he with he | he
      · refine (h.fine e he).mono List.prefix_rfl fun p hp => ⟨hp, ?_⟩
        refine Function.update_of_ne (not_gone hp ?_) _ _
        intro hidle
        rw [hpc] at hidle
        cases hidle
      · obtain rfl := List.mem_singleton.1 he
        trivial

/-- `CMD_WANT_SKB` is cleared at the begin of `cancel`. -/
theorem cancel (h : s.Safe) {ret : ℤ} (hpc : s.pc = .failed flags idx ret) :
    Safe { (if flags.wantSkb then s.dropWantSkb idx else s) with pc := .cancelled flags ret } := by
  have htracked := h.tracked.cancel hpc
  have hgone : ∀ p, s.Gone p → p ≤ s.cmd ∧ (p = s.cmd → HcmdPc.cancelled flags ret = .idle) := by
    intro p hp
    refine ⟨hp.1, fun heq => absurd heq (not_gone hp ?_)⟩
    intro hidle
    cases hpc.symm.trans hidle
  have hunwanted : ∀ f, some flags = some f → f.wantSkb = false → s.resp s.cmd = none :=
    fun f hf => h.replied.unwanted f ((congrArg HcmdPc.flags hpc).trans hf)
  cases hwant : flags.wantSkb with
  | true =>
    rw [hwant] at htracked
    exact ⟨h.ordered.imp fun _ hord => (hord.setEntries _).frame rfl rfl rfl rfl, htracked,
      ⟨h.replied.own, fun he => he.elim, hunwanted⟩,
      fun e he => (h.fine e he).mono List.prefix_rfl fun p hp => ⟨hgone p hp, rfl⟩⟩
  | false =>
    rw [hwant] at htracked
    exact ⟨h.ordered.imp fun _ hord => hord.frame rfl rfl rfl rfl, htracked,
      ⟨h.replied.own, fun he => he.elim, hunwanted⟩,
      fun e he => (h.fine e he).mono List.prefix_rfl fun p hp => ⟨hgone p hp, rfl⟩⟩

/-- An entry is written that is not in use. -/
theorem setCmdEntry (h : s.Safe) (hidle : s.handler = .idle) (hspace : 0 < s.queue.iwlTxqSpace)
    (m : CmdMeta) : Safe (s.setMeta s.cmdIdx m) where
  ordered := h.ordered.imp fun _ hord => hord.setEntries _
  tracked := by
    obtain ⟨R, hord⟩ := h.ordered
    refine h.tracked.frame rfl rfl rfl rfl ?_ (fun _ _ _ hresp hpc => ⟨rfl, hresp, hpc⟩)
      (fun _ _ _ _ _ hresp hpc => ⟨rfl, hresp, hpc⟩)
    intro k hk hk'
    rw [metaAt_eq_of_update (s := s) rfl, if_neg (hord.entry_ne_cmdIdx hidle hspace hk hk')]
  replied := ⟨h.replied.own, h.replied.early, h.replied.unwanted⟩
  fine := fun e he => (h.fine e he).mono List.prefix_rfl fun _ hp => ⟨hp, rfl⟩

/-- A command goes into the queue, with its caller at `pc` then. -/
theorem push (h : s.Safe) (hidle : s.handler = .idle) (hspace : 0 < s.queue.iwlTxqSpace)
    (timer : TimerList) (caller : Option CmdPtr) (flags : CmdFlags) {pc : HcmdPc}
    (hold : ∀ x, s.pc.entry = some x → pc.entry = some x) (hflags : pc.flags = s.pc.flags)
    (hearly : pc.Early → s.pc.Early) (hpc : s.pc = .idle → pc = .idle)
    (hnew : flags.wantSkb = true → caller = some s.cmd ∧ s.resp s.cmd = none ∧
      pc.entry = some (flags, s.cmdIdx)) :
    Safe { s with
      queue := { s.queue with
        txq.entries := Function.update s.queue.txq.entries s.cmdIdx
          (some ⟨if flags.wantSkb then caller else none, flags⟩)
        txq.stuckTimer := timer
        txq.writePtr := s.queue.iwlTxqIncWrap s.queue.txq.writePtr }
      sent := s.sent ++ [⟨caller, flags,
        queueToSeq s.queue.txq.id ||| indexToSeq s.queue.txq.writePtr⟩]
      pc := pc } := by
  obtain ⟨R, hord⟩ := h.ordered
  refine ⟨⟨R, (hord.push hidle hspace _ timer caller flags).frame rfl rfl rfl rfl⟩,
    h.tracked.push hord hidle hspace timer caller flags pc _ hold hnew, ⟨?_, ?_, ?_⟩, ?_⟩
  · intro p k hk
    obtain ⟨⟨c, hc, hcaller⟩, hlt⟩ := h.replied.own p k hk
    exact ⟨⟨c, getElem?_append_of_eq_some hc _, hcaller⟩, hlt⟩
  · exact fun he => h.replied.early (hearly he)
  · exact fun f hf => h.replied.unwanted f (hflags ▸ hf)
  · exact fun e he => (h.fine e he).mono (List.prefix_append ..) fun _ hp =>
      ⟨⟨hp.1, fun heq => hpc (hp.2 heq)⟩, rfl⟩

/-- An asynchronous command. -/
theorem async (h : s.Safe) (hidle : s.handler = .idle) (hwant : flags.wantSkb = false) {ret : ℤ}
    {t : HostCmds} (hput : Put s none flags ret t) : t.Safe := by
  cases hput with
  | refused hret => exact h
  | full hret => exact h.log trivial
  | unmapped hret hspace => exact h.setCmdEntry hidle hspace _
  | put timer hspace =>
    exact h.push hidle hspace timer none flags (fun _ => id) rfl id id fun hwant' =>
      absurd (hwant.symm.trans hwant') Bool.false_ne_true

/-- The synchronous command: it is in the queue, or its caller returns with an error. -/
theorem enqueue (h : s.Safe) (hidle : s.handler = .idle) (hpc : s.pc = .active flags) {ret : ℤ}
    {t : HostCmds} (hput : Put s (some s.cmd) flags ret t) : Safe (t.enqueued flags ret) := by
  have hresp : s.resp s.cmd = none := h.replied.early (by rw [hpc]; trivial)
  have hfail : ∀ {t : HostCmds}, t.Safe → t.pc = .active flags → ret < 0 →
      t.resp t.cmd = none → Safe (t.enqueued flags ret) := by
    intro t ht htpc hret hnone
    rw [enqueued, if_pos hret]
    refine finishCall (ht.move _ rfl rfl id (fun _ _ => id) id) ?_ ?_ ?_ (fun _ => hnone)
    · exact congrArg HcmdPc.flags htpc
    · intro i _ _ hentry
      have hnone : t.pc.entry = none := by rw [htpc]; rfl
      cases hnone.symm.trans hentry
    · intro i r _ hcancelled
      cases htpc.symm.trans hcancelled
  cases hput with
  | refused hret => exact hfail h hpc hret hresp
  | full hret => exact hfail (h.log trivial) hpc hret hresp
  | unmapped hret hspace => exact hfail (h.setCmdEntry hidle hspace _) hpc hret hresp
  | put timer hspace =>
    rw [enqueued, if_neg (by omega), Int.toNat_natCast]
    refine h.push hidle hspace timer (some s.cmd) flags ?_ ?_ ?_ ?_ ?_
    · intro x hx
      rw [hpc] at hx
      cases hx
    · rw [hpc]
      rfl
    · exact fun he => he.elim
    · intro hidle'
      rw [hpc] at hidle'
      cases hidle'
    · exact fun _ => ⟨rfl, hresp, rfl⟩

/-! ### The handler -/

theorem rx (h : s.Safe) {c : SentCmd} (hidle : s.handler = .idle)
    (hsent : s.sent[s.answered]? = some c) :
    Safe { s with
      answered := s.answered + 1
      handler := if seqToQueue c.sequence = s.queue.txq.id then .locked (seqToIndex c.sequence)
        else .idle } := by
  obtain ⟨R, hord⟩ := h.ordered
  rw [if_pos (hord.seq _ _ hsent).1]
  refine ⟨⟨R, hord.rx hidle hsent⟩, h.tracked.rx hidle _, ⟨?_, h.replied.early, h.replied.unwanted⟩,
    fun e he => (h.fine e he).mono List.prefix_rfl fun _ hp => ⟨hp, rfl⟩⟩
  exact fun p k hk => (h.replied.own p k hk).imp id Nat.lt_succ_of_lt

/-- The handler goes on without a change to the queue. -/
theorem handler (h : s.Safe) {pc : HandlerPc} (hbusy : pc.busy = s.handler.busy)
    (howed : pc.owed = s.handler.owed) (hindex : pc.index = s.handler.index)
    (htracked : Tracked { s with handler := pc }) : Safe { s with handler := pc } where
  ordered := h.ordered.imp fun _ hord => hord.handler hbusy howed hindex
  tracked := htracked
  replied := ⟨h.replied.own, h.replied.early, h.replied.unwanted⟩
  fine := fun e he => (h.fine e he).mono List.prefix_rfl fun _ hp => ⟨hp, rfl⟩

theorem store (h : s.Safe) {i : ℕ} (hstealing : s.handler = .stealing i) :
    Safe { s.storeResp i with handler := .reclaiming i } := by
  obtain ⟨R, hord⟩ := h.ordered
  have hbusy := hord.busy_le
  rw [hstealing] at hbusy
  simp only [HandlerPc.busy] at hbusy
  obtain ⟨hanswers, hrunning, heq, htracked⟩ := h.tracked.store hord hstealing
  have hwanted : ∀ flags, s.pc.flags = some flags → flags.wantSkb = true := by
    intro flags hflags
    obtain ⟨c, -, hwant, -, -, hpc⟩ := h.tracked.stealing i hstealing
    rw [hpc.flags_eq] at hflags
    obtain rfl := Option.some.inj hflags
    exact hwant
  have hlate : ¬s.pc.Early := by
    intro he
    obtain ⟨c, -, -, -, -, hpc⟩ := h.tracked.stealing i hstealing
    rcases hpc with hentry | ⟨r, hr⟩
    · cases (HcmdPc.entry_of_early he).symm.trans hentry
    · rw [hr] at he
      exact he
  rw [heq] at htracked ⊢
  refine ⟨⟨R, ?_⟩, htracked, ⟨?_, fun he => absurd he hlate, ?_⟩, ?_⟩
  · exact (hord.handler (by rw [hstealing]; rfl) (by rw [hstealing]; rfl)
      (by rw [hstealing]; rfl)).frame rfl rfl rfl rfl
  · intro p k hk
    change Function.update s.resp s.cmd (some (s.answered - 1)) p = some k at hk
    rcases eq_or_ne p s.cmd with rfl | hne
    · rw [Function.update_self] at hk
      obtain rfl := Option.some.inj hk
      exact ⟨hanswers, Nat.sub_lt hbusy Nat.one_pos⟩
    · rw [Function.update_of_ne hne] at hk
      exact h.replied.own p k hk
  · exact fun f hf hwant => absurd (hwant.symm.trans (hwanted f hf)) Bool.false_ne_true
  · intro e he
    rcases List.mem_append.1 he with he | he
    · exact (h.fine e he).mono List.prefix_rfl fun p hp =>
        ⟨hp, Function.update_of_ne (not_gone hp hrunning) _ _⟩
    · obtain rfl := List.mem_singleton.1 he
      exact hanswers

theorem reclaim (h : s.Safe) {i jiffies : ℕ} {t : HostCmds}
    (hreclaiming : s.handler = .reclaiming i) (ht : s.reclaim i jiffies = some t) :
    Safe { t with handler := .finishing i } := by
  obtain ⟨R, hord⟩ := h.ordered
  obtain ⟨timer, readPtr, R', rfl, hord', -⟩ := hord.reclaim hreclaiming ht
  refine ⟨⟨R', hord'⟩, ?_, ⟨h.replied.own, h.replied.early, h.replied.unwanted⟩,
    fun e he => (h.fine e he).mono List.prefix_rfl fun _ hp => ⟨hp, rfl⟩⟩
  refine Tracked.handler (s := { s with
    queue := { s.queue with txq.readPtr := readPtr, txq.stuckTimer := timer } }) ?_
    (by rw [hreclaiming]; exact le_rfl) (by rw [hreclaiming]; exact le_rfl) (fun j hj => by cases hj)
  exact h.tracked.frame rfl rfl rfl rfl (fun _ _ _ => rfl)
    (fun _ _ _ hresp hpc => ⟨rfl, hresp, hpc⟩) (fun _ _ _ _ _ hresp hpc => ⟨rfl, hresp, hpc⟩)

theorem clear (h : s.Safe) {i : ℕ} (hclearing : s.handler = .clearing i) (m : CmdMeta) :
    Safe { s.setMeta (s.queue.iwlTxqGetCmdIndex i) m with handler := .idle } := by
  obtain ⟨R, hord⟩ := h.ordered
  exact ⟨⟨R, ((hord.clear hclearing).setEntries _).frame rfl rfl rfl rfl⟩,
    h.tracked.clear hord hclearing m, ⟨h.replied.own, h.replied.early, h.replied.unwanted⟩,
    fun e he => (h.fine e he).mono List.prefix_rfl fun _ hp => ⟨hp, rfl⟩⟩

/-- **A step keeps the invariant**, unless it is too early. -/
theorem step {a : HcmdAct} (h : s.Safe) (hstep : Step s a s') (hearly : ¬s.tooEarly a) :
    s'.Safe := by
  cases hstep with
  | call hpc _ => exact h.call hpc _
  | @dropped flags ret hpc hcheck =>
    refine h.finishCall (congrArg HcmdPc.flags hpc) ?_ ?_ fun _ =>
      h.replied.early (by rw [hpc]; trivial)
    · intro i _ _ hentry
      rw [hpc] at hentry
      cases hentry
    · intro i r _ hcancelled
      cases hpc.symm.trans hcancelled
  | checked hpc _ =>
    exact h.move s.status (by rw [hpc]; rfl) (by rw [hpc]; rfl) (fun _ => by rw [hpc]; trivial)
      (fun f r hr => by cases hpc.symm.trans hr) (fun hidle => by cases hpc.symm.trans hidle)
  | alreadyActive hpc _ =>
    refine h.finishCall (congrArg HcmdPc.flags hpc) ?_ ?_ fun _ =>
      h.replied.early (by rw [hpc]; trivial)
    · intro i _ _ hentry
      rw [hpc] at hentry
      cases hentry
    · intro i r _ hcancelled
      cases hpc.symm.trans hcancelled
  | begun hpc _ =>
    exact h.move _ (by rw [hpc]; rfl) (by rw [hpc]; rfl) (fun _ => by rw [hpc]; trivial)
      (fun f r hr => by cases hpc.symm.trans hr) (fun hidle => by cases hpc.symm.trans hidle)
  | enqueue hpc hidle hput => exact h.enqueue hidle hpc hput
  | wake hpc _ | expire hpc _ | giveUp hpc | statusBad hpc _ | statusGood hpc | noResp hpc _ _ =>
    exact h.move _ (by rw [hpc]; rfl) (by rw [hpc]; rfl) (fun he => he.elim)
      (fun f r hr => by cases hpc.symm.trans hr) (fun hidle => by cases hpc.symm.trans hidle)
  | @done flags cmdIdx hpc hresp =>
    refine h.finishCall (congrArg HcmdPc.flags hpc) ?_ ?_ ?_
    · exact fun i hwant hnone _ => hresp hwant hnone
    · intro i r _ hcancelled
      cases hpc.symm.trans hcancelled
    · intro hnot
      refine h.replied.unwanted flags (congrArg HcmdPc.flags hpc) ?_
      exact Bool.eq_false_iff.2 fun hwant => hnot ⟨rfl, hwant⟩
  | @cancel flags cmdIdx ret hpc => exact h.cancel hpc
  | @dropResp flags ret hpc =>
    have hlock : ∀ i, s.handler ≠ .stealing i := fun i hi => hearly (tooEarly_iff.2 ⟨rfl, i, hi⟩)
    obtain ⟨hfreed, hpc', hhandler, hnone⟩ := h.freeResp hpc hlock
    refine hfreed.finishCall (congrArg HcmdPc.flags (hpc'.trans hpc)) ?_ ?_ fun _ => hnone
    · intro i _ _ hentry
      rw [hpc', hpc] at hentry
      cases hentry
    · intro i r hi
      exact absurd (hhandler.symm.trans hi) (hlock i)
  | async hidle _ hwant hput => exact h.async hidle hwant hput
  | rx hidle hsent => exact h.rx hidle hsent
  | @wantSkb index hlocked hwant =>
    obtain ⟨R, hord⟩ := h.ordered
    exact h.handler (by rw [hlocked]; rfl) (by rw [hlocked]; rfl) (by rw [hlocked]; rfl)
      (h.tracked.testSkb hord hlocked hwant)
  | noSkb hlocked _ =>
    exact h.handler (by rw [hlocked]; rfl) (by rw [hlocked]; rfl) (by rw [hlocked]; rfl)
      (h.tracked.handler (by rw [hlocked]; exact le_rfl) (Nat.zero_le _) (fun j hj => by cases hj))
  | store hstealing => exact h.store hstealing
  | reclaim hreclaiming ht => exact h.reclaim hreclaiming ht
  | finishAsync hfinishing _ =>
    exact h.handler (by rw [hfinishing]; rfl) (by rw [hfinishing]; rfl) (by rw [hfinishing]; rfl)
      (h.tracked.handler (by rw [hfinishing]; exact le_rfl) (Nat.zero_le _)
        (fun j hj => by cases hj))
  | finishSync hfinishing _ =>
    have hmoved : (s.setActive false).Safe := h.move _ rfl rfl id (fun _ _ => id) id
    change (s.setActive false).handler = _ at hfinishing
    exact hmoved.handler (by rw [hfinishing]; rfl) (by rw [hfinishing]; rfl)
      (by rw [hfinishing]; rfl)
      (hmoved.tracked.handler (by rw [hfinishing]; exact le_rfl) (Nat.zero_le _)
        (fun j hj => by cases hj))
  | clear hclearing => exact h.clear hclearing _
  | clearActive => exact h.move _ rfl rfl id (fun _ _ => id) id
  | setStatus status => exact h.move _ rfl rfl id (fun _ _ => id) id

end Safe

end HostCmds

end Iax.Queue
