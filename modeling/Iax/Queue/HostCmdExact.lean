import Iax.Queue.HostCmdRuns

/-!
# Synchronous commands that nobody interrupts

A late answer releases whoever waits: `iwl_pcie_hcmd_complete` clears `STATUS_SYNC_HCMD_ACTIVE`
without a look at whose it is. When no caller has given up and no interrupt has cleared the bit,
there is no late answer.

* `Callers`: a synchronous caller has one command in the queue.
* `Prompt`: the bit is set as long as the command of the caller that waits is not answered.
* `hcmd_exact`: then a command that was put into the queue returns 0, not before its own answer has
  been handled, and no caller waits when all answers have been.
-/

namespace Iax.Queue

/-- The caller has not given up. -/
def HcmdPc.Prompt : HcmdPc → Prop
  | .expired _ _ | .failed _ _ _ | .cancelled _ _ => False
  | _ => True

/-- How many answers have not released their callers. -/
def HandlerPc.unfinished : HandlerPc → ℕ
  | .locked _ | .stealing _ | .reclaiming _ | .finishing _ => 1
  | _ => 0

/-- The page of the answer is stored, if it was wanted. -/
def HandlerPc.Stored : HandlerPc → Prop
  | .reclaiming _ | .finishing _ => True
  | _ => False

theorem HandlerPc.unfinished_le (pc : HandlerPc) : pc.unfinished ≤ pc.busy := by
  cases pc <;> simp [unfinished, busy]

theorem HandlerPc.unfinished_of_stored {pc : HandlerPc} (h : pc.Stored) : pc.unfinished = 1 := by
  cases pc <;> first | rfl | exact h.elim

/-- Nothing but the answer releases the caller. -/
def HcmdAct.prompt : HcmdAct → Bool
  | .expire | .clearActive => false
  | .setStatus status => !status.fwError && !status.rfkillOpmode
  | _ => true

namespace HostCmds

variable {s s' : HostCmds} {R : ℕ}

/-! ## Callers and their commands -/

/-- The commands of the callers. -/
structure Callers (s : HostCmds) : Prop where
  le : ∀ p k, s.Answers p k → p ≤ s.cmd
  fresh : s.pc.Early → ∀ k, ¬s.Answers s.cmd k
  single : ∀ p j k, s.Answers p j → s.Answers p k → j = k
  flags : ∀ flags, s.pc.flags = some flags → flags.async = false
  async : ∀ (k : ℕ) (c : SentCmd) (p : CmdPtr), s.sent[k]? = some c → c.caller = some p →
    c.flags.async = false

namespace Callers

theorem frame (h : s.Callers) (hsent : s'.sent = s.sent) (hcmd : s'.cmd = s.cmd)
    (hearly : s'.pc.Early → s.pc.Early)
    (hflags : ∀ flags, s'.pc.flags = some flags → s.pc.flags = some flags) : s'.Callers := by
  have hanswers : ∀ p k, s'.Answers p k ↔ s.Answers p k := by
    intro p k
    rw [Answers, Answers, hsent]
  refine ⟨?_, ?_, ?_, fun f hf => h.flags f (hflags f hf), hsent ▸ h.async⟩
  · intro p k hk
    rw [hcmd]
    exact h.le p k ((hanswers p k).1 hk)
  · intro he k hk
    rw [hcmd, hanswers] at hk
    exact h.fresh (hearly he) k hk
  · intro p j k hj hk
    exact h.single p j k ((hanswers p j).1 hj) ((hanswers p k).1 hk)

/-- The number of a command that goes into the queue. -/
theorem answers_push {c : SentCmd} {p : CmdPtr} {k : ℕ} (hsent : s'.sent = s.sent ++ [c])
    (hk : s'.Answers p k) : s.Answers p k ∨ k = s.sent.length ∧ c.caller = some p := by
  obtain ⟨d, hd, hcaller⟩ := hk
  rw [hsent] at hd
  rcases getElem?_concat_cases hd with hd | ⟨rfl, rfl⟩
  · exact .inl ⟨d, hd, hcaller⟩
  · exact .inr ⟨rfl, hcaller⟩

/-- A command goes into the queue: it is the first one of its caller. -/
theorem push (h : s.Callers) {c : SentCmd} (hsent : s'.sent = s.sent ++ [c])
    (hcmd : s'.cmd = s.cmd) (hearly : s'.pc.Early → s.pc.Early ∧ c.caller = none)
    (hflags : ∀ flags, s'.pc.flags = some flags → s.pc.flags = some flags)
    (hcaller : ∀ p, c.caller = some p → p = s.cmd ∧ s.pc.Early ∧ c.flags.async = false) :
    s'.Callers := by
  have hnew : ∀ {p k}, s.Answers p k → ¬(c.caller = some p) := by
    intro p k hk hp
    obtain ⟨rfl, he, -⟩ := hcaller p hp
    exact h.fresh he k hk
  refine ⟨?_, ?_, ?_, fun f hf => h.flags f (hflags f hf), ?_⟩
  · intro p k hk
    rw [hcmd]
    rcases answers_push hsent hk with hk | ⟨-, hp⟩
    · exact h.le p k hk
    · exact (hcaller p hp).1.le
  · intro he k hk
    obtain ⟨he', hnone⟩ := hearly he
    rw [hcmd] at hk
    rcases answers_push hsent hk with hk | ⟨-, hp⟩
    · exact h.fresh he' k hk
    · cases hnone.symm.trans hp
  · intro p j k hj hk
    rcases answers_push hsent hj with hj | ⟨rfl, hcaller'⟩
    · rcases answers_push hsent hk with hk | ⟨-, hk⟩
      · exact h.single p j k hj hk
      · exact absurd hk (hnew hj)
    · rcases answers_push hsent hk with hold | ⟨rfl, -⟩
      · exact absurd hcaller' (hnew hold)
      · rfl
  · intro k d p hd hp
    rw [hsent] at hd
    rcases getElem?_concat_cases hd with hd | ⟨rfl, rfl⟩
    · exact h.async k d p hd hp
    · exact (hcaller p hp).2.2

/-- A step that leaves the list of commands. -/
theorem move (h : s.Callers) {pc : HcmdPc} (hpc : s.pc = pc) (hsent : s'.sent = s.sent)
    (hcmd : s'.cmd = s.cmd) (hearly : s'.pc.Early → pc.Early)
    (hflags : ∀ flags, s'.pc.flags = some flags → pc.flags = some flags) : s'.Callers := by
  subst hpc
  exact h.frame hsent hcmd hearly hflags

theorem put (h : s.Callers) {caller : Option CmdPtr} {flags : CmdFlags} {ret : ℤ}
    (hput : Put s caller flags ret s') (hcaller : ∀ p, caller = some p → p = s.cmd ∧ s.pc.Early ∧
      flags.async = false) (hnone : s.pc.Early → ret < 0 ∨ caller = none) : s'.Callers := by
  cases hput with
  | refused _ | full _ | unmapped _ _ => exact h.frame rfl rfl id fun _ => id
  | put timer _ =>
    refine h.push rfl rfl (fun he => ⟨he, ?_⟩) (fun _ => id) hcaller
    exact (hnone he).resolve_left (by omega)

/-- Every step keeps it. -/
theorem step {a : HcmdAct} (h : s.Callers) (hstep : Step s a s') : s'.Callers := by
  cases hstep with
  | @call flags hpc hsync =>
    have hne : ∀ p k, s.Answers p k → p ≠ s.cmd + 1 := fun p k hk =>
      (Nat.lt_succ_of_le (h.le p k hk)).ne
    refine ⟨fun p k hk => Nat.le_succ_of_le (h.le p k hk), fun _ k hk => hne _ k hk rfl, h.single,
      ?_, h.async⟩
    intro f hf
    obtain rfl := Option.some.inj hf
    exact hsync
  | dropped hpc _ | alreadyActive hpc _ | done hpc _ =>
    exact h.move hpc rfl rfl (fun he => he.elim) (fun f hf => by cases hf)
  | checked hpc _ | begun hpc _ => exact h.move hpc rfl rfl (fun _ => trivial) (fun _ => id)
  | @enqueue flags _ _ _ _ ret t hpc hidle hput =>
    have hflags : flags.async = false := h.flags flags (congrArg HcmdPc.flags hpc)
    rw [enqueued]
    cases hput with
    | refused hret | full hret | unmapped hret _ =>
      rw [if_pos hret]
      exact h.move hpc rfl rfl (fun he => he.elim) (fun f hf => by cases hf)
    | put timer _ =>
      rw [if_neg (by omega)]
      refine h.push rfl rfl (fun he => he.elim) (fun f hf => ?_) fun p hp => ?_
      · rw [hpc]
        exact hf
      · rw [hpc]
        exact ⟨(Option.some.inj hp).symm, trivial, hflags⟩
  | wake hpc _ | expire hpc _ | giveUp hpc | statusBad hpc _ | statusGood hpc | noResp hpc _ _ =>
    exact h.move hpc rfl rfl (fun he => he.elim) (fun _ => id)
  | @cancel flags cmdIdx ret hpc =>
    cases flags.wantSkb with
    | true => exact h.move hpc rfl rfl (fun he => he.elim) (fun _ => id)
    | false => exact h.move hpc rfl rfl (fun he => he.elim) (fun _ => id)
  | @dropResp flags ret hpc =>
    have hfreed : s.freeResp.sent = s.sent ∧ s.freeResp.cmd = s.cmd := by
      unfold freeResp
      split
      · exact ⟨rfl, rfl⟩
      · exact ⟨rfl, rfl⟩
    exact h.move hpc hfreed.1 hfreed.2 (fun he => he.elim) (fun f hf => by cases hf)
  | async _ _ _ hput => exact h.put hput (fun p hp => by cases hp) fun _ => .inr rfl
  | @store index _ =>
    unfold storeResp
    dsimp only
    split
    · exact h.frame rfl rfl id fun _ => id
    · exact h.frame rfl rfl id fun _ => id
  | reclaim _ ht =>
    obtain ⟨⟨queue, nmis⟩, -, rfl⟩ := Option.map_eq_some_iff.1 ht
    exact h.frame rfl rfl id fun _ => id
  | rx _ _ | wantSkb _ _ | noSkb _ _ | finishAsync _ _ | finishSync _ _ | clear _ | clearActive
  | setStatus _ => exact h.frame rfl rfl id fun _ => id

end Callers

/-! ## When nobody gives up -/

/-- The caller has been released. -/
def Released (s : HostCmds) (flags : CmdFlags) : Prop :=
  (∃ i, s.pc = .waiting flags i ∧ s.status.syncHcmdActive = false) ∨
    (∃ i, s.pc = .woken flags i) ∨ ∃ i, s.pc = .tested flags i

/-- The answer to command `k` has been taken, and the caller has the page if it wants one. -/
def Answered (s : HostCmds) (p : CmdPtr) (flags : CmdFlags) (k : ℕ) : Prop :=
  k < s.answered ∧ (flags.wantSkb = true → s.resp p = some k)

/-- What is wanted of a command that has returned. -/
def ReturnedOk (s : HostCmds) (p : CmdPtr) (flags : CmdFlags) (ret : ℤ) : Prop :=
  ∀ k, s.Answers p k → ret = 0 ∧ s.Answered p flags k

theorem ReturnedOk.mono {p : CmdPtr} {flags : CmdFlags} {ret : ℤ} (h : s.ReturnedOk p flags ret)
    (hanswers : ∀ k, s'.Answers p k → s.Answers p k) (hanswered : s.answered ≤ s'.answered)
    (hresp : s'.resp p = s.resp p) : s'.ReturnedOk p flags ret := by
  intro k hk
  obtain ⟨hret, hlt, hpage⟩ := h k (hanswers k hk)
  exact ⟨hret, hlt.trans_le hanswered, fun hwant => hresp.trans (hpage hwant)⟩

/-- The invariant of the runs in which nothing but its answer releases a caller. -/
structure Prompt (s : HostCmds) : Prop where
  status : s.status.fwError = false ∧ s.status.rfkillOpmode = false
  here : s.pc.Prompt
  active : ∀ flags, s.pc = .active flags → s.status.syncHcmdActive = true
  flags : ∀ k c, s.answered ≤ k + s.handler.busy → s.sent[k]? = some c →
    (s.metaAt (k % s.window)).flags = c.flags
  sync : ∀ k c, s.answered ≤ k + s.handler.unfinished → s.sent[k]? = some c →
    c.flags.async = false → c.caller = some s.cmd ∧ s.pc = .waiting c.flags (k % s.window) ∧
      s.status.syncHcmdActive = true
  stored : s.handler.Stored → ∀ c, s.sent[s.answered - 1]? = some c → c.flags.async = false →
    c.flags.wantSkb = true → s.resp s.cmd = some (s.answered - 1)
  released : ∀ flags, s.Released flags → ∃ k, s.Answers s.cmd k ∧ s.Answered s.cmd flags k
  owed : ∀ flags i, s.pc = .waiting flags i → s.status.syncHcmdActive = true →
    ∃ k c, s.answered ≤ k + s.handler.unfinished ∧ s.sent[k]? = some c ∧ c.flags.async = false
  returned : ∀ p flags ret, .returned p flags ret ∈ s.trace → s.ReturnedOk p flags ret

namespace Prompt

/-- A step of the caller, which waits for no answer before it or after it. -/
theorem caller (h : s.Prompt) (hwindow : s'.window = s.window) (hhandler : s'.handler = s.handler)
    (hsent : s'.sent = s.sent) (hanswered : s'.answered = s.answered)
    (hmeta : ∀ k, s.answered ≤ k + s.handler.busy → k < s.sent.length →
      s'.metaAt (k % s.window) = s.metaAt (k % s.window))
    (hstatus : s'.status.fwError = s.status.fwError ∧
      s'.status.rfkillOpmode = s.status.rfkillOpmode) (hhere : s'.pc.Prompt)
    (hactive : ∀ flags, s'.pc = .active flags → s'.status.syncHcmdActive = true)
    (hfree : ∀ flags i, s.pc = .waiting flags i → s.status.syncHcmdActive = false)
    (hfree' : ∀ flags i, s'.pc ≠ .waiting flags i)
    (hreleased : ∀ flags, s'.Released flags → s.Released flags ∧ s'.cmd = s.cmd ∧
      s'.resp s.cmd = s.resp s.cmd)
    (hreturned : ∀ p flags ret, .returned p flags ret ∈ s'.trace → s'.ReturnedOk p flags ret) :
    s'.Prompt := by
  have hnone : ∀ k c, s.answered ≤ k + s.handler.unfinished → s.sent[k]? = some c →
      c.flags.async ≠ false := by
    intro k c hk hc hasync
    obtain ⟨-, hpc, hbit⟩ := h.sync k c hk hc hasync
    cases hbit.symm.trans (hfree _ _ hpc)
  refine ⟨by rw [hstatus.1, hstatus.2]; exact h.status, hhere, hactive, ?_, ?_, ?_, ?_,
    fun f i hpc => absurd hpc (hfree' f i), hreturned⟩
  · intro k c hk hc
    rw [hanswered, hhandler] at hk
    rw [hsent] at hc
    rw [hwindow, hmeta k hk (List.getElem?_eq_some_iff.1 hc).1]
    exact h.flags k c hk hc
  · intro k c hk hc hasync
    rw [hanswered, hhandler] at hk
    rw [hsent] at hc
    exact absurd hasync (hnone k c hk hc)
  · intro hst c hc hasync
    rw [hhandler] at hst
    rw [hsent, hanswered] at hc
    refine absurd hasync (hnone _ c ?_ hc)
    rw [HandlerPc.unfinished_of_stored hst]
    omega
  · intro f hf
    obtain ⟨hold, hcmd, hresp⟩ := hreleased f hf
    obtain ⟨k, ⟨c, hc, hcaller⟩, hlt, hpage⟩ := h.released f hold
    rw [hcmd]
    exact ⟨k, ⟨c, hsent ▸ hc, hcaller⟩, hanswered ▸ hlt, fun hwant => hresp.trans (hpage hwant)⟩

/-- A step that is neither the caller's nor the handler's. -/
theorem same (h : s.Prompt) (hwindow : s'.window = s.window) (hhandler : s'.handler = s.handler)
    (hsent : s'.sent = s.sent) (hanswered : s'.answered = s.answered)
    (hmeta : ∀ k, s.answered ≤ k + s.handler.busy → k < s.sent.length →
      s'.metaAt (k % s.window) = s.metaAt (k % s.window))
    (hstatus : s'.status.fwError = false ∧ s'.status.rfkillOpmode = false)
    (hbit : s'.status.syncHcmdActive = s.status.syncHcmdActive) (hpc : s'.pc = s.pc)
    (hcmd : s'.cmd = s.cmd) (hresp : s'.resp = s.resp)
    (htrace : ∀ p flags ret, .returned p flags ret ∈ s'.trace → .returned p flags ret ∈ s.trace) :
    s'.Prompt := by
  have hanswers : ∀ p k, s'.Answers p k ↔ s.Answers p k := by
    intro p k
    rw [Answers, Answers, hsent]
  refine ⟨hstatus, hpc ▸ h.here, ?_, ?_, ?_, ?_, ?_, ?_, ?_⟩
  · rw [hpc, hbit]
    exact h.active
  · intro k c hk hc
    rw [hanswered, hhandler] at hk
    rw [hsent] at hc
    rw [hwindow, hmeta k hk (List.getElem?_eq_some_iff.1 hc).1]
    exact h.flags k c hk hc
  · rw [hanswered, hhandler, hsent, hcmd, hpc, hwindow, hbit]
    exact h.sync
  · rw [hanswered, hhandler, hsent, hcmd, hresp]
    exact h.stored
  · intro f hf
    rw [Released, hpc, hbit] at hf
    obtain ⟨k, hk, hlt, hpage⟩ := h.released f hf
    rw [hcmd]
    exact ⟨k, (hanswers _ k).2 hk, hanswered ▸ hlt, hresp ▸ hpage⟩
  · rw [hanswered, hhandler, hsent, hpc, hbit]
    exact h.owed
  · intro p f ret he
    exact (h.returned p f ret (htrace p f ret he)).mono (fun k => (hanswers p k).1) hanswered.ge
      (by rw [hresp])

/-- What the trace says after a caller has returned. -/
theorem returned_finishCall (h : s.Prompt) {flags : CmdFlags} {ret : ℤ}
    (hnew : s.ReturnedOk s.cmd flags (if flags.wantSkb && ret = 0 && (s.resp s.cmd).isNone then -eio
      else ret)) (p : CmdPtr) (f : CmdFlags) (r : ℤ)
    (he : .returned p f r ∈ (s.finishCall flags ret).trace) :
    (s.finishCall flags ret).ReturnedOk p f r := by
  rcases List.mem_append.1 he with he | he
  · exact h.returned p f r he
  · obtain ⟨rfl, rfl, rfl⟩ := HcmdEvent.returned.inj (List.mem_singleton.1 he)
    exact hnew

/-- A command goes into the queue: that of the synchronous caller, or an asynchronous one. -/
theorem push (h : s.Prompt) (hsafe : s.Safe) (hidle : s.handler = .idle)
    (hspace : 0 < s.queue.iwlTxqSpace) (timer : TimerList) {caller : Option CmdPtr}
    {flags : CmdFlags} {pc : HcmdPc} (source : Option CmdPtr)
    (hpc : (s.pc = .active flags ∧ caller = some s.cmd ∧ pc = .waiting flags s.cmdIdx ∧
      flags.async = false) ∨ (pc = s.pc ∧ caller = none ∧ flags.async = true)) :
    Prompt { s with
      queue := { s.queue with
        txq.entries := Function.update s.queue.txq.entries s.cmdIdx (some ⟨source, flags⟩)
        txq.stuckTimer := timer
        txq.writePtr := s.queue.iwlTxqIncWrap s.queue.txq.writePtr }
      sent := s.sent ++ [⟨caller, flags,
        queueToSeq s.queue.txq.id ||| indexToSeq s.queue.txq.writePtr⟩]
      pc := pc } := by
  obtain ⟨R, hord⟩ := hsafe.ordered
  refine ⟨h.status, ?_, ?_, ?_, ?_, ?_, ?_, ?_, ?_⟩
  · rcases hpc with ⟨-, -, rfl, -⟩ | ⟨rfl, -, -⟩
    · trivial
    · exact h.here
  · intro f hf
    rcases hpc with ⟨-, -, rfl, -⟩ | ⟨rfl, -, -⟩
    · cases hf
    · exact h.active f hf
  · intro k c hk hc
    rw [metaAt_eq_of_update (s := s) rfl]
    rcases hord.pushed_cases hidle hspace hk hc with ⟨hc, hne⟩ | ⟨-, heq, rfl⟩
    · rw [if_neg hne]
      exact h.flags k c hk hc
    · rw [if_pos heq]
  · intro k c hk hc hasync
    have hbusy : s.answered ≤ k + s.handler.busy :=
      hk.trans (Nat.add_le_add_left s.handler.unfinished_le k)
    rcases hord.pushed_cases hidle hspace hbusy hc with ⟨hc, -⟩ | ⟨-, heq, rfl⟩
    · obtain ⟨hcaller, hwaiting, hbit⟩ := h.sync k c hk hc hasync
      rcases hpc with ⟨hpc, -⟩ | ⟨rfl, -, -⟩
      · cases hpc.symm.trans hwaiting
      · exact ⟨hcaller, hwaiting, hbit⟩
    · rcases hpc with ⟨hpc, hcaller, rfl, -⟩ | ⟨-, -, hasync'⟩
      · exact ⟨hcaller, congrArg _ heq.symm, h.active _ hpc⟩
      · cases hasync.symm.trans hasync'
  · intro hst
    rw [hidle] at hst
    exact hst.elim
  · intro f hf
    rcases hpc with ⟨hpc, -, rfl, -⟩ | ⟨rfl, -, -⟩
    · rcases hf with ⟨i, hi, hbit⟩ | ⟨i, hi⟩ | ⟨i, hi⟩
      · cases (h.active _ hpc).symm.trans hbit
      · cases hi
      · cases hi
    · obtain ⟨k, ⟨c, hc, hcaller⟩, hanswered⟩ := h.released f hf
      exact ⟨k, ⟨c, getElem?_append_of_eq_some hc _, hcaller⟩, hanswered⟩
  · intro f i hwaiting hbit
    rcases hpc with ⟨-, -, -, hasync⟩ | ⟨rfl, -, -⟩
    · exact ⟨s.sent.length, _, hord.answered_le.trans (Nat.le_add_right ..),
        List.getElem?_concat_length, hasync⟩
    · obtain ⟨k, c, hk, hc, hasync⟩ := h.owed f i hwaiting hbit
      exact ⟨k, c, hk, getElem?_append_of_eq_some hc _, hasync⟩
  · intro p f ret he
    refine (h.returned p f ret he).mono (fun k hk => ?_) le_rfl rfl
    rcases Callers.answers_push rfl hk with hold | ⟨-, hcaller⟩
    · exact hold
    · have hgone := (hsafe.fine _ he).1
      rcases hpc with ⟨hpc, hcaller', -⟩ | ⟨-, hcaller', -⟩
      · obtain rfl := Option.some.inj (hcaller'.symm.trans hcaller)
        cases hpc.symm.trans (hgone.2 rfl)
      · cases hcaller'.symm.trans hcaller

/-- The handler takes an answer. -/
theorem rx (h : s.Prompt) (hidle : s.handler = .idle) (i : ℕ) :
    Prompt { s with answered := s.answered + 1, handler := .locked i } := by
  refine ⟨h.status, h.here, h.active, ?_, ?_, fun hst => hst.elim, ?_, ?_, ?_⟩
  · exact fun k c hk hc => h.flags k c (by rw [hidle]; exact Nat.le_of_succ_le_succ hk) hc
  · exact fun k c hk hc => h.sync k c (by rw [hidle]; exact Nat.le_of_succ_le_succ hk) hc
  · intro f hf
    obtain ⟨k, hk, hlt, hpage⟩ := h.released f hf
    exact ⟨k, hk, Nat.lt_succ_of_lt hlt, hpage⟩
  · intro f j hpc hbit
    obtain ⟨k, c, hk, hc⟩ := h.owed f j hpc hbit
    rw [hidle] at hk
    exact ⟨k, c, Nat.succ_le_succ hk, hc⟩
  · exact fun p f ret he => (h.returned p f ret he).mono (fun _ => id) (Nat.le_succ _) rfl

/-- The handler goes on, up to the place where it releases the caller. -/
theorem handler (h : s.Prompt) {pc : HandlerPc} (hbusy : pc.busy = s.handler.busy)
    (hunfinished : pc.unfinished = s.handler.unfinished)
    (hstored : pc.Stored → ∀ c, s.sent[s.answered - 1]? = some c → c.flags.async = false →
      c.flags.wantSkb = true → s.resp s.cmd = some (s.answered - 1)) :
    Prompt { s with handler := pc } where
  status := h.status
  here := h.here
  active := h.active
  flags := fun k c hk hc => h.flags k c (by rw [← hbusy]; exact hk) hc
  sync := fun k c hk hc => h.sync k c (by rw [← hunfinished]; exact hk) hc
  stored := hstored
  released := h.released
  owed := by
    intro f i hpc hbit
    obtain ⟨k, c, hk, hc⟩ := h.owed f i hpc hbit
    rw [← hunfinished] at hk
    exact ⟨k, c, hk, hc⟩
  returned := h.returned

/-- The command whose answer is being handled. -/
theorem exists_current (h : s.Prompt) (hord : s.InOrder R) (hunfinished : s.handler.unfinished = 1)
    {i : ℕ} (hi : s.handler.index = some i) :
    ∃ c, s.sent[s.answered - 1]? = some c ∧
      (s.metaAt (s.queue.iwlTxqGetCmdIndex i)).flags = c.flags ∧
        (c.flags.async = false → c.caller = some s.cmd ∧
          s.pc = .waiting c.flags ((s.answered - 1) % s.window) ∧
            s.status.syncHcmdActive = true) := by
  have hbusy := hord.busy_le
  have hle := hord.answered_le
  have hone := s.handler.unfinished_le
  have hc := List.getElem?_eq_getElem (l := s.sent) (i := s.answered - 1) (by omega)
  refine ⟨_, hc, ?_, h.sync _ _ (by omega) hc⟩
  rw [hord.index_eq hi]
  exact h.flags _ _ (by omega) hc

theorem store (h : s.Prompt) (hsafe : s.Safe) (hcallers : s.Callers) {i : ℕ}
    (hstealing : s.handler = .stealing i) :
    Prompt { s.storeResp i with handler := .reclaiming i } := by
  obtain ⟨R, hord⟩ := hsafe.ordered
  obtain ⟨⟨c, hc, hcaller⟩, hrunning, heq, -⟩ := hsafe.tracked.store hord hstealing
  obtain ⟨c', hc', -, hcurrent⟩ := h.exists_current hord (by rw [hstealing]; rfl)
    (i := i) (by rw [hstealing]; rfl)
  obtain rfl := Option.some.inj (hc.symm.trans hc')
  obtain ⟨-, hpc, hbit⟩ := hcurrent (hcallers.async _ c _ hc hcaller)
  rw [heq]
  refine ⟨h.status, h.here, h.active, ?_, ?_, ?_, ?_, ?_, ?_⟩
  · exact fun k d hk hd => h.flags k d (by rw [hstealing]; exact hk) hd
  · exact fun k d hk hd => h.sync k d (by rw [hstealing]; exact hk) hd
  · exact fun _ _ _ _ _ => Function.update_self ..
  · rintro f (⟨j, hj, hclear⟩ | ⟨j, hj⟩ | ⟨j, hj⟩)
    · cases hbit.symm.trans hclear
    · cases hpc.symm.trans hj
    · cases hpc.symm.trans hj
  · intro f j hpc hbit
    obtain ⟨k, d, hk, hd⟩ := h.owed f j hpc hbit
    rw [hstealing] at hk
    exact ⟨k, d, hk, hd⟩
  · intro p f ret he
    rcases List.mem_append.1 he with he | he
    · refine (h.returned p f ret he).mono (fun _ => id) le_rfl ?_
      exact Function.update_of_ne (Safe.not_gone (hsafe.fine _ he).1 hrunning) _ _
    · cases List.mem_singleton.1 he

/-- The handler is past the place where it releases the caller of a synchronous command. -/
theorem finish (h : s.Prompt) (hsafe : s.Safe) (hcallers : s.Callers) {i : ℕ}
    (hfinishing : s.handler = .finishing i) :
    Prompt { (if (s.metaAt (s.queue.iwlTxqGetCmdIndex i)).flags.async then s
      else s.setActive false) with handler := .clearing i } := by
  obtain ⟨R, hord⟩ := hsafe.ordered
  have hbusy := hord.busy_le
  rw [hfinishing] at hbusy
  simp only [HandlerPc.busy] at hbusy
  obtain ⟨c, hc, hflags, hcurrent⟩ := h.exists_current hord (by rw [hfinishing]; rfl)
    (i := i) (by rw [hfinishing]; rfl)
  have hold : ∀ k, s.answered ≤ k → s.answered ≤ k + s.handler.unfinished := fun k hk =>
    hk.trans (Nat.le_add_right ..)
  rw [hflags]
  cases hasync : c.flags.async with
  | true =>
    refine ⟨h.status, h.here, h.active, ?_, ?_, fun hst => hst.elim, h.released, ?_, h.returned⟩
    · exact fun k d hk hd => h.flags k d (by rw [hfinishing]; exact hk) hd
    · exact fun k d hk hd => h.sync k d (hold k hk) hd
    · intro f j hpc hbit
      obtain ⟨k, d, hk, hd, hsync⟩ := h.owed f j hpc hbit
      refine ⟨k, d, ?_, hd, hsync⟩
      rw [hfinishing] at hk
      simp only [HandlerPc.unfinished] at hk
      rcases Nat.lt_or_ge k s.answered with hlt | hge
      · obtain rfl : k = s.answered - 1 := by omega
        obtain rfl := Option.some.inj (hc.symm.trans hd)
        cases hsync.symm.trans hasync
      · exact hge
  | false =>
    obtain ⟨hcaller, hpc, hbit⟩ := hcurrent hasync
    refine ⟨h.status, h.here, ?_, ?_, ?_, fun hst => hst.elim, ?_, ?_, h.returned⟩
    · intro f hf
      cases hpc.symm.trans hf
    · exact fun k d hk hd => h.flags k d (by rw [hfinishing]; exact hk) hd
    · intro k d hk hd hsync
      obtain ⟨hcaller', -⟩ := h.sync k d (hold k hk) hd hsync
      have := hcallers.single s.cmd k _ ⟨d, hd, hcaller'⟩ ⟨c, hc, hcaller⟩
      change s.answered ≤ k at hk
      omega
    · intro f hf
      have hf' : f = c.flags := by
        rcases hf with ⟨j, hj, -⟩ | ⟨j, hj⟩ | ⟨j, hj⟩
        · exact (HcmdPc.waiting.inj (hj.symm.trans hpc)).1
        · cases hj.symm.trans hpc
        · cases hj.symm.trans hpc
      subst hf'
      refine ⟨s.answered - 1, ⟨c, hc, hcaller⟩, Nat.sub_lt hbusy Nat.one_pos, fun hwant => ?_⟩
      exact h.stored (by rw [hfinishing]; trivial) c hc hasync hwant
    · intro f j _ hfalse
      cases hfalse

theorem clear (h : s.Prompt) (hsafe : s.Safe) {i : ℕ} (hclearing : s.handler = .clearing i)
    (m : CmdMeta) :
    Prompt { s.setMeta (s.queue.iwlTxqGetCmdIndex i) m with handler := .idle } := by
  obtain ⟨R, hord⟩ := hsafe.ordered
  refine ⟨h.status, h.here, h.active, ?_, ?_, fun hst => hst.elim, h.released, ?_, h.returned⟩
  · intro k c hk hc
    have hk' : s.answered ≤ k := hk
    change ((s.setMeta (s.queue.iwlTxqGetCmdIndex i) m).metaAt (k % s.window)).flags = c.flags
    rw [metaAt_eq_of_update (s := s) rfl,
      if_neg (hord.ne_index_of_clearing hclearing hk' (List.getElem?_eq_some_iff.1 hc).1)]
    exact h.flags k c (hk'.trans (Nat.le_add_right ..)) hc
  · exact fun k c hk hc => h.sync k c (by rw [hclearing]; exact hk) hc
  · intro f j hpc hbit
    obtain ⟨k, c, hk, hc⟩ := h.owed f j hpc hbit
    rw [hclearing] at hk
    exact ⟨k, c, hk, hc⟩

/-- A caller that returns an error has no command in the queue. -/
theorem finishCall_early (h : s.Prompt) (hcallers : s.Callers) (hpc : s.pc.Early) (bit : Bool)
    (flags : CmdFlags) (ret : ℤ) : ((s.setActive bit).finishCall flags ret).Prompt := by
  have hfree : ∀ f i, s.pc ≠ .waiting f i := by
    intro f i hi
    rw [hi] at hpc
    exact hpc
  refine h.caller rfl rfl rfl rfl (fun _ _ _ => rfl) ⟨rfl, rfl⟩ trivial (fun f hf => by cases hf)
    (fun f i hi => absurd hi (hfree f i)) (fun f i hi => by cases hi) ?_ ?_
  · rintro f (⟨i, hi, -⟩ | ⟨i, hi⟩ | ⟨i, hi⟩)
    · cases hi
    · cases hi
    · cases hi
  · intro p f r he
    rcases List.mem_append.1 he with he | he
    · exact h.returned p f r he
    · obtain ⟨rfl, rfl, rfl⟩ := HcmdEvent.returned.inj (List.mem_singleton.1 he)
      exact fun k hk => absurd hk (hcallers.fresh hpc k)

/-- The caller goes on, and does not wait. -/
theorem move (h : s.Prompt) (status : HcmdStatus) {pc : HcmdPc}
    (hstatus : status.fwError = s.status.fwError ∧ status.rfkillOpmode = s.status.rfkillOpmode)
    (hhere : pc.Prompt) (hactive : ∀ flags, pc = .active flags → status.syncHcmdActive = true)
    (hfree : ∀ flags i, s.pc = .waiting flags i → s.status.syncHcmdActive = false)
    (hfree' : ∀ flags i, pc ≠ .waiting flags i)
    (hreleased : ∀ flags, (∃ i, pc = .woken flags i) ∨ (∃ i, pc = .tested flags i) →
      s.Released flags) : Prompt { s with status := status, pc := pc } := by
  refine h.caller rfl rfl rfl rfl (fun _ _ _ => rfl) hstatus hhere hactive hfree hfree' ?_
    h.returned
  rintro f (⟨i, hi, -⟩ | hf)
  · exact absurd hi (hfree' f i)
  · exact ⟨hreleased f hf, rfl, rfl⟩

theorem async (h : s.Prompt) (hsafe : s.Safe) (hidle : s.handler = .idle) {flags : CmdFlags}
    (hasync : flags.async = true) {ret : ℤ} (hput : Put s none flags ret s') : s'.Prompt := by
  cases hput with
  | refused _ => exact h
  | full _ =>
    refine h.same rfl rfl rfl rfl (fun _ _ _ => rfl) h.status rfl rfl rfl rfl fun p f r he => ?_
    rcases List.mem_append.1 he with he | he
    · exact he
    · cases List.mem_singleton.1 he
  | unmapped _ hspace =>
    obtain ⟨R, hord⟩ := hsafe.ordered
    refine h.same rfl rfl rfl rfl ?_ h.status rfl rfl rfl rfl fun _ _ _ => id
    intro k hk hk'
    rw [metaAt_eq_of_update (s := s) rfl, if_neg (hord.entry_ne_cmdIdx hidle hspace hk hk')]
  | put timer hspace => exact h.push hsafe hidle hspace timer _ (.inr ⟨rfl, rfl, hasync⟩)

theorem enqueue (h : s.Prompt) (hsafe : s.Safe) (hcallers : s.Callers) (hidle : s.handler = .idle)
    {flags : CmdFlags} (hpc : s.pc = .active flags) {ret : ℤ} {t : HostCmds}
    (hput : Put s (some s.cmd) flags ret t) : (t.enqueued flags ret).Prompt := by
  have hearly : s.pc.Early := by rw [hpc]; trivial
  cases hput with
  | refused hret =>
    rw [enqueued, if_pos hret]
    exact h.finishCall_early hcallers hearly _ _ _
  | full hret =>
    have hlog : (s.log .queueFull).Prompt := by
      refine h.same rfl rfl rfl rfl (fun _ _ _ => rfl) h.status rfl rfl rfl rfl fun p f r he => ?_
      rcases List.mem_append.1 he with he | he
      · exact he
      · cases List.mem_singleton.1 he
    rw [enqueued, if_pos hret]
    exact hlog.finishCall_early (hcallers.frame rfl rfl id fun _ => id) hearly _ _ _
  | unmapped hret hspace =>
    obtain ⟨R, hord⟩ := hsafe.ordered
    have hset : (s.setMeta s.cmdIdx ⟨if flags.wantSkb then some s.cmd else none, .zero⟩).Prompt := by
      refine h.same rfl rfl rfl rfl ?_ h.status rfl rfl rfl rfl fun _ _ _ => id
      intro k hk hk'
      rw [metaAt_eq_of_update (s := s) rfl, if_neg (hord.entry_ne_cmdIdx hidle hspace hk hk')]
    rw [enqueued, if_pos hret]
    exact hset.finishCall_early (hcallers.frame rfl rfl id fun _ => id) hearly _ _ _
  | put timer hspace =>
    rw [enqueued, if_neg (by omega), Int.toNat_natCast]
    exact h.push hsafe hidle hspace timer _ (.inl ⟨hpc, rfl, rfl,
      hcallers.flags flags (congrArg HcmdPc.flags hpc)⟩)

/-- The caller returns after all tests. -/
theorem done (h : s.Prompt) (hcallers : s.Callers) {flags : CmdFlags} {cmdIdx : ℕ}
    (hpc : s.pc = .tested flags cmdIdx) (hresp : flags.wantSkb = true → s.resp s.cmd ≠ none) :
    (s.finishCall flags 0).Prompt := by
  obtain ⟨k, hk, hanswered⟩ := h.released flags (.inr (.inr ⟨cmdIdx, hpc⟩))
  have hret : (if flags.wantSkb && (0 : ℤ) = 0 && (s.resp s.cmd).isNone then -eio else 0) = 0 := by
    refine if_neg fun hcond => ?_
    simp only [Bool.and_eq_true, Option.isNone_iff_eq_none] at hcond
    exact hresp hcond.1.1 hcond.2
  refine h.caller rfl rfl rfl rfl (fun _ _ _ => rfl) ⟨rfl, rfl⟩ trivial (fun f hf => by cases hf)
    (fun f i hi => by cases hpc.symm.trans hi) (fun f i hi => by cases hi) ?_
    (h.returned_finishCall ?_)
  · rintro f (⟨i, hi, -⟩ | ⟨i, hi⟩ | ⟨i, hi⟩)
    · cases hi
    · cases hi
    · cases hi
  · rw [hret]
    intro j hj
    obtain rfl := hcallers.single s.cmd j k hj hk
    exact ⟨rfl, hanswered⟩

/-- **A step keeps the invariant** when nothing but its answer releases the caller. -/
theorem step {a : HcmdAct} (h : s.Prompt) (hsafe : s.Safe) (hcallers : s.Callers)
    (hstep : Step s a s') (ha : a.prompt = true) : s'.Prompt := by
  have hhere := h.here
  cases hstep with
  | @call flags hpc _ =>
    refine h.caller rfl rfl rfl rfl (fun _ _ _ => rfl) ⟨rfl, rfl⟩ trivial (fun f hf => by cases hf)
      (fun f i hi => by cases hpc.symm.trans hi) (fun f i hi => by cases hi) ?_ ?_
    · rintro f (⟨i, hi, -⟩ | ⟨i, hi⟩ | ⟨i, hi⟩)
      · cases hi
      · cases hi
      · cases hi
    · intro p f r he
      refine (h.returned p f r he).mono (fun _ => id) le_rfl (Function.update_of_ne ?_ _ _)
      exact (Nat.lt_succ_of_le (hsafe.fine _ he).1.1).ne
  | dropped hpc _ => exact h.finishCall_early hcallers (by rw [hpc]; trivial) _ _ _
  | alreadyActive hpc _ => exact h.finishCall_early hcallers (by rw [hpc]; trivial) _ _ _
  | checked hpc _ =>
    exact h.move s.status ⟨rfl, rfl⟩ trivial (fun f hf => by cases hf)
      (fun f i hi => by cases hpc.symm.trans hi) (fun f i hi => by cases hi)
      (by rintro f (⟨i, hi⟩ | ⟨i, hi⟩) <;> cases hi)
  | begun hpc _ =>
    exact h.move _ ⟨rfl, rfl⟩ trivial (fun _ _ => rfl)
      (fun f i hi => by cases hpc.symm.trans hi) (fun f i hi => by cases hi)
      (by rintro f (⟨i, hi⟩ | ⟨i, hi⟩) <;> cases hi)
  | enqueue hpc hidle hput => exact h.enqueue hsafe hcallers hidle hpc hput
  | @wake flags cmdIdx hpc hbit =>
    refine h.move s.status ⟨rfl, rfl⟩ trivial (fun f hf => by cases hf) (fun _ _ _ => hbit)
      (fun f i hi => by cases hi) ?_
    rintro f (⟨i, hi⟩ | ⟨i, hi⟩)
    · obtain ⟨rfl, -⟩ := HcmdPc.woken.inj hi
      exact .inl ⟨cmdIdx, hpc, hbit⟩
    · cases hi
  | expire _ _ => cases ha
  | giveUp hpc | cancel hpc | dropResp hpc =>
    rw [hpc] at hhere
    exact hhere.elim
  | statusBad _ herror =>
    rw [statusError, h.status.1, h.status.2] at herror
    simp at herror
  | @statusGood flags cmdIdx hpc =>
    refine h.move s.status ⟨rfl, rfl⟩ trivial (fun f hf => by cases hf)
      (fun f i hi => by cases hpc.symm.trans hi) (fun f i hi => by cases hi) ?_
    rintro f (⟨i, hi⟩ | ⟨i, hi⟩)
    · cases hi
    · obtain ⟨rfl, -⟩ := HcmdPc.tested.inj hi
      exact .inr (.inl ⟨cmdIdx, hpc⟩)
  | @noResp flags cmdIdx hpc hwant hnone =>
    obtain ⟨k, -, -, hpage⟩ := h.released flags (.inr (.inr ⟨cmdIdx, hpc⟩))
    cases hnone.symm.trans (hpage hwant)
  | done hpc hresp => exact h.done hcallers hpc hresp
  | async hidle hasync _ hput => exact h.async hsafe hidle hasync hput
  | @rx c hidle hsent =>
    obtain ⟨R, hord⟩ := hsafe.ordered
    rw [if_pos (hord.seq _ _ hsent).1]
    exact h.rx hidle _
  | wantSkb hlocked _ =>
    exact h.handler (by rw [hlocked]; rfl) (by rw [hlocked]; rfl) fun hst => hst.elim
  | @noSkb index hlocked hwant =>
    obtain ⟨R, hord⟩ := hsafe.ordered
    obtain ⟨c, hc, hflags, -⟩ := h.exists_current hord (by rw [hlocked]; rfl)
      (i := index) (by rw [hlocked]; rfl)
    refine h.handler (by rw [hlocked]; rfl) (by rw [hlocked]; rfl) fun _ d hd _ hwant' => ?_
    obtain rfl := Option.some.inj (hc.symm.trans hd)
    rw [hflags] at hwant
    cases hwant.symm.trans hwant'
  | store hstealing => exact h.store hsafe hcallers hstealing
  | @reclaim index jiffies t hreclaiming ht =>
    obtain ⟨R, hord⟩ := hsafe.ordered
    obtain ⟨timer, readPtr, R', rfl, -⟩ := hord.reclaim hreclaiming ht
    have hqueue : Prompt { s with
        queue := { s.queue with txq.readPtr := readPtr, txq.stuckTimer := timer } } :=
      h.same rfl rfl rfl rfl (fun _ _ _ => rfl) h.status rfl rfl rfl rfl fun _ _ _ => id
    change HostCmds.handler { s with
      queue := { s.queue with txq.readPtr := readPtr, txq.stuckTimer := timer } } = _ at hreclaiming
    exact hqueue.handler (by rw [hreclaiming]; rfl) (by rw [hreclaiming]; rfl)
      fun _ => hqueue.stored (by rw [hreclaiming]; trivial)
  | @finishAsync index hfinishing hasync =>
    have hnext := h.finish hsafe hcallers hfinishing
    rw [if_pos hasync] at hnext
    exact hnext
  | @finishSync index hfinishing hasync =>
    have hnext := h.finish hsafe hcallers hfinishing
    rw [if_neg (by rw [hasync]; exact Bool.false_ne_true)] at hnext
    exact hnext
  | clear hclearing => exact h.clear hsafe hclearing _
  | clearActive => cases ha
  | setStatus status =>
    simp only [HcmdAct.prompt, Bool.and_eq_true, Bool.not_eq_true'] at ha
    exact h.same rfl rfl rfl rfl (fun _ _ _ => rfl) ha rfl rfl rfl rfl fun _ _ _ => id

end Prompt

/-! ## Runs -/

/-- The three invariants along a run. -/
theorem prompt_run {status : HcmdStatus} {queue : Trans CmdMeta} (hqueue : queue.Between 0 0)
    (hwindow : queue.txq.nWindow ≤ 256) (hid : queue.txq.id < 32)
    (hstatus : status.fwError = false ∧ status.rfkillOpmode = false) {as : List HcmdAct}
    (hrun : Lts.exec step (start status queue) as = some s) (hprompt : ∀ a ∈ as, a.prompt = true) :
    s.Safe ∧ s.Callers ∧ s.Prompt := by
  have hcallers : (start status queue).Callers :=
    ⟨fun p k ⟨c, hc, _⟩ => (by cases hc), fun _ k ⟨c, hc, _⟩ => (by cases hc),
      fun p j k ⟨c, hc, _⟩ => (by cases hc), fun f hf => (by cases hf),
      fun k c p hc => (by cases hc)⟩
  have hstart : (start status queue).Prompt := by
    refine ⟨hstatus, trivial, fun f hf => (by cases hf), fun k c _ hc => (by cases hc),
      fun k c _ hc => (by cases hc), fun hst => hst.elim, ?_, fun f i hi => (by cases hi),
      fun p f r he => (by cases he)⟩
    rintro f (⟨i, hi, -⟩ | ⟨i, hi⟩ | ⟨i, hi⟩)
    · cases hi
    · cases hi
    · cases hi
  refine Lts.exec_invariant step (I := fun s => s.Safe ∧ s.Callers ∧ s.Prompt)
    (C := fun _ a => a.prompt = true) ?_ ⟨safe_start hqueue hwindow hid, hcallers, hstart⟩
    (Lts.meets_of_mem step hprompt _) hrun
  rintro s a s' ⟨hsafe, hcallers, hs⟩ ha hstep
  have hstep := step_cases hstep
  refine ⟨hsafe.step hstep fun hearly => ?_, hcallers.step hstep, hs.step hsafe hcallers hstep ha⟩
  -- a caller that has not given up is not in `cancel`
  obtain ⟨rfl, -⟩ := tooEarly_iff.1 hearly
  have hhere := hs.here
  cases hstep with
  | dropResp hpc =>
    rw [hpc] at hhere
    exact hhere

/-- **Commands that nobody interrupts are exact**: in a run in which no caller times out and no
interrupt releases it or reports an error, a synchronous command that was put into the queue returns
0, not before its own answer was taken and with the page of this answer if it wants one; and no
caller is left waiting when all commands of the queue have been answered. -/
theorem hcmd_exact {status : HcmdStatus} {queue : Trans CmdMeta} (hqueue : queue.Between 0 0)
    (hwindow : queue.txq.nWindow ≤ 256) (hid : queue.txq.id < 32)
    (hstatus : status.fwError = false ∧ status.rfkillOpmode = false) {as : List HcmdAct}
    {t : HostCmds} (hrun : Lts.exec step (start status queue) as = some t)
    (hprompt : ∀ a ∈ as, a.prompt = true) :
    (∀ p flags ret k, .returned p flags ret ∈ t.trace → t.Answers p k →
      ret = 0 ∧ k < t.answered ∧ (flags.wantSkb = true → t.resp p = some k)) ∧
    ∀ flags cmdIdx, t.pc = .waiting flags cmdIdx → t.handler = .idle →
      t.answered = t.sent.length → t.status.syncHcmdActive = false := by
  obtain ⟨-, -, ht⟩ := prompt_run hqueue hwindow hid hstatus hrun hprompt
  refine ⟨fun p flags ret k he hk => ht.returned p flags ret he k hk, ?_⟩
  intro flags cmdIdx hpc hidle hall
  by_contra hbit
  obtain ⟨k, c, hk, hc, -⟩ := ht.owed flags cmdIdx hpc (Bool.not_eq_false _ ▸ hbit)
  have hlt := (List.getElem?_eq_some_iff.1 hc).1
  rw [hidle, hall] at hk
  exact absurd hlt (Nat.not_lt.2 hk)

/-- An asynchronous command in front of the synchronous one. -/
def twoAnswersRun : List HcmdAct :=
  [asyncCall, .call wantSkbFlags, .check, .begin, .enqueue [] true true 0,
    .rx, .testSkb, .reclaim 0, .finish, .clear,
    .rx, .testSkb, .store, .reclaim 0, .finish, .clear, .wake, .testStatus, .testResp]

theorem hcmd_exact_twoAnswersRun : ∃ t,
    Lts.exec step (start aliveStatus blankCmdq) twoAnswersRun = some t ∧
      ∀ p flags ret k, .returned p flags ret ∈ t.trace → t.Answers p k →
        ret = 0 ∧ k < t.answered ∧ (flags.wantSkb = true → t.resp p = some k) := by
  have hsome : (Lts.exec step (start aliveStatus blankCmdq) twoAnswersRun).isSome = true := by
    decide +kernel
  obtain ⟨t, hrun⟩ := Option.isSome_iff_exists.1 hsome
  refine ⟨t, hrun, (hcmd_exact between_blankCmdq (by decide) (by decide) ⟨rfl, rfl⟩ hrun ?_).1⟩
  simp [twoAnswersRun, asyncCall, HcmdAct.prompt]

end HostCmds

end Iax.Queue
