import Iax.Dvm.ConnectorQueue
import Mathlib.Data.List.Sort

/-!
# The order of the messages

With one caller the messages go through the connector in the order in which they were allocated.

* `Numbered`: the accepted messages are in this order, and each message is accounted for.
* `Delivered`: what follows of those that were sent.
-/

namespace Iax.Dvm.System

open Connector

/-- Where the messages of a single caller are. -/
structure Numbered (s : System 1) : Prop where
  /-- The accepted messages are in the order of their allocation. -/
  sorted : (accepted s.conn.trace).Pairwise (· < ·)
  /-- Each was allocated, and the one that is still checked comes behind them. -/
  behind : ∀ m ∈ accepted s.conn.trace, 1 ≤ m ∧ m ≤ s.nalloc ∧
    ∀ m' start stop unread, s.callers 0 = .read m' start stop unread → m < m'
  /-- Which is the last one allocated. -/
  last : ∀ m start stop unread, s.callers 0 = .read m start stop unread →
    m = s.nalloc ∧ 1 ≤ s.nalloc
  /-- No message gets out of sight. -/
  known : ∀ m, 1 ≤ m → m ≤ s.nalloc → m ∈ accepted s.conn.trace ∨
    (∃ unread priv, .rejected m unread priv ∈ s.conn.trace) ∨
    ∃ start stop unread, s.callers 0 = .read m start stop unread

variable {s s' : System 1}

theorem numbered_init : Numbered (init 1) where
  sorted := List.Pairwise.nil
  behind m hm := absurd hm List.not_mem_nil
  last m start stop unread h := by cases h
  known m h₁ h₀ := absurd (h₁.trans h₀) (Nat.not_succ_le_zero 0)

/-- Steps that accept and reject nothing, and after which no message is being checked. -/
theorem Numbered.of_eq (h : Numbered s) (hacc : accepted s'.conn.trace = accepted s.conn.trace)
    (hnalloc : s'.nalloc = s.nalloc)
    (hrejected : ∀ m unread priv, .rejected m unread priv ∈ s.conn.trace →
      .rejected m unread priv ∈ s'.conn.trace)
    (hread : ∀ m start stop unread, s'.callers 0 = .read m start stop unread ↔
      s.callers 0 = .read m start stop unread) : Numbered s' where
  sorted := hacc.symm ▸ h.sorted
  behind m hm := by
    rw [hacc] at hm
    obtain ⟨h₁, hle, hlt⟩ := h.behind m hm
    exact ⟨h₁, hnalloc.symm ▸ hle, fun m' start stop unread hpc =>
      hlt m' start stop unread ((hread ..).1 hpc)⟩
  last m start stop unread hpc := hnalloc.symm ▸ h.last m start stop unread ((hread ..).1 hpc)
  known m h₁ hle := by
    rcases h.known m h₁ (hnalloc ▸ hle) with hm | ⟨unread, priv, hm⟩ | ⟨start, stop, unread, hpc⟩
    · exact .inl (hacc.symm ▸ hm)
    · exact .inr (.inl ⟨unread, priv, hrejected m unread priv hm⟩)
    · exact .inr (.inr ⟨start, stop, unread, (hread ..).2 hpc⟩)

/-- A new message comes behind all others. -/
theorem numbered_call (h : Numbered s) (hpc : s.callers 0 = .idle) : Numbered (s.call 0) where
  sorted := h.sorted
  behind m hm := by
    obtain ⟨h₁, hle, -⟩ := h.behind m hm
    refine ⟨h₁, Nat.le_succ_of_le hle, fun m' start stop unread hread => ?_⟩
    obtain ⟨rfl, -⟩ := EnqueuePc.read.inj hread
    exact Nat.lt_succ_of_le hle
  last m start stop unread hread := by
    obtain ⟨rfl, -⟩ := EnqueuePc.read.inj hread
    exact ⟨rfl, Nat.succ_pos _⟩
  known m h₁ hle := by
    rcases Nat.le_or_eq_of_le_succ hle with hle | rfl
    · rcases h.known m h₁ hle with hm | hm | ⟨start, stop, unread, hread⟩
      · exact .inl hm
      · exact .inr (.inl hm)
      · rw [hpc] at hread
        cases hread
    · exact .inr (.inr ⟨_, _, _, rfl⟩)

/-- The message that was checked is rejected. -/
theorem numbered_reject (h : Numbered s) {m : CnMsg} {start stop : ℕ} {unread : List CnMsg}
    (hpc : s.callers 0 = .read m start stop unread) :
    Numbered (s.move 0 .idle (s.conn.reject m unread)) := by
  have hpos : m ≠ 0 := by
    obtain ⟨rfl, h₁⟩ := h.last m start stop unread hpc
    exact Nat.one_le_iff_ne_zero.1 h₁
  refine ⟨(accepted_reject ..).symm ▸ h.sorted, fun m' hm' => ?_, ?_, fun m' h₁ hle => ?_⟩
  · rw [show (s.move 0 .idle (s.conn.reject m unread)).conn = s.conn.reject m unread from rfl,
      accepted_reject] at hm'
    obtain ⟨h₁, hle, -⟩ := h.behind m' hm'
    exact ⟨h₁, hle, fun _ _ _ _ hread => by cases hread⟩
  · intro m' start' stop' unread' hread
    cases hread
  · rcases h.known m' h₁ hle with hm' | ⟨unread', priv, hm'⟩ | ⟨start', stop', unread', hread⟩
    · exact .inl ((accepted_reject ..).symm ▸ hm')
    · exact .inr (.inl ⟨unread', priv, (mem_trace_reject _ _ _ hpos).2 (.inl hm')⟩)
    · rw [hpc] at hread
      obtain ⟨rfl, -⟩ := EnqueuePc.read.inj hread
      exact .inr (.inl ⟨unread, _, (mem_trace_reject _ _ _ hpos).2 (.inr (.inl rfl))⟩)

/-- The message that was checked is accepted. -/
theorem numbered_accept (h : Numbered s) {m : CnMsg} {start stop : ℕ} {unread : List CnMsg}
    (hpc : s.callers 0 = .read m start stop unread) :
    Numbered (s.move 0 (.checked m stop) (s.conn.log (.accepted m))) := by
  obtain ⟨rfl, hpos⟩ := h.last m start stop unread hpc
  have hacc : accepted (s.conn.log (.accepted s.nalloc)).trace =
      accepted s.conn.trace ++ [s.nalloc] := accepted_append ..
  refine ⟨?_, fun m' hm' => ?_, ?_, fun m' h₁ hle => ?_⟩
  · refine hacc.symm ▸ List.pairwise_append.2 ⟨h.sorted, List.pairwise_singleton .., ?_⟩
    intro m' hm' m'' hm''
    obtain rfl := List.mem_singleton.1 hm''
    exact (h.behind m' hm').2.2 _ _ _ _ hpc
  · rcases List.mem_append.1 (hacc ▸ hm') with hm' | hm'
    · obtain ⟨h₁, hle, -⟩ := h.behind m' hm'
      exact ⟨h₁, hle, fun _ _ _ _ hread => by cases hread⟩
    · obtain rfl := List.mem_singleton.1 hm'
      exact ⟨hpos, le_rfl, fun _ _ _ _ hread => by cases hread⟩
  · intro m' start' stop' unread' hread
    cases hread
  · rcases h.known m' h₁ hle with hm' | ⟨unread', priv, hm'⟩ | ⟨start', stop', unread', hread⟩
    · exact .inl (hacc.symm ▸ List.mem_append_left _ hm')
    · exact .inr (.inl ⟨unread', priv, List.mem_append_left _ hm'⟩)
    · rw [hpc] at hread
      obtain ⟨rfl, -⟩ := EnqueuePc.read.inj hread
      exact .inl (hacc.symm ▸ List.mem_append_right _ (List.mem_singleton_self _))

/-- **One step** keeps the messages in order. -/
theorem numbered_step {a : Act 1} (h : Numbered s) (hstep : Step s a s') : Numbered s' := by
  have hnone (e : MsgEvent) (he : accepted [e] = []) :
      accepted (s.conn.trace ++ [e]) = accepted s.conn.trace := by
    rw [accepted_append, he, List.append_nil]
  cases hstep with
  | @call c hpc =>
    obtain rfl : c = 0 := Subsingleton.elim ..
    exact numbered_call h hpc
  | @full c m start stop unread hpc _ | @noPriv c m start stop unread hpc _ =>
    obtain rfl : c = 0 := Subsingleton.elim ..
    exact numbered_reject h hpc
  | @accept c m start stop unread hpc _ =>
    obtain rfl : c = 0 := Subsingleton.elim ..
    exact numbered_accept h hpc
  | @store c m stop hpc =>
    obtain rfl : c = 0 := Subsingleton.elim ..
    exact h.of_eq rfl rfl (fun _ _ _ hm => hm) fun _ _ _ _ =>
      ⟨fun hread => by (cases hread), fun hread => by rw [hpc] at hread; cases hread⟩
  | @publish c m stop hpc =>
    obtain rfl : c = 0 := Subsingleton.elim ..
    exact h.of_eq (hnone _ rfl) rfl (fun _ _ _ hm => List.mem_append_left _ hm) fun _ _ _ _ =>
      ⟨fun hread => by (cases hread), fun hread => by rw [hpc] at hread; cases hread⟩
  | @queueWork c hpc =>
    obtain rfl : c = 0 := Subsingleton.elim ..
    exact h.of_eq rfl rfl (fun _ _ _ hm => hm) fun _ _ _ _ =>
      ⟨fun hread => by (cases hread), fun hread => by rw [hpc] at hread; cases hread⟩
  | work _ _ | readIndices _ | done _ | setPriv =>
    exact h.of_eq rfl rfl (fun _ _ _ hm => hm) fun _ _ _ _ => Iff.rfl
  | send _ _ =>
    exact h.of_eq (hnone _ rfl) rfl (fun _ _ _ hm => List.mem_append_left _ hm)
      fun _ _ _ _ => Iff.rfl
  | free _ =>
    refine h.of_eq (accepted_kfree ..) rfl (fun m unread priv hm => ?_) fun _ _ _ _ => Iff.rfl
    unfold kfree
    split
    · exact hm
    · exact List.mem_append_left _ hm

/-- What a run with one caller has handed to user space: messages in the order of their allocation,
and in the end all of them, unless one was rejected. -/
structure Delivered (s : System 1) : Prop where
  inOrder : (sent s.conn.trace).Sublist (List.range' 1 s.nalloc)
  all : s.Drained → (∀ m unread priv, .rejected m unread priv ∉ s.conn.trace) →
    sent s.conn.trace = List.range' 1 s.nalloc

/-- The accepted messages are some of those allocated. -/
theorem Numbered.sublist (h : Numbered s) :
    (accepted s.conn.trace).Sublist (List.range' 1 s.nalloc) := by
  refine List.sublist_of_subperm_of_pairwise (List.subperm_of_subset ?_ fun m hm => ?_) h.sorted
    List.pairwise_lt_range'
  · exact h.sorted.imp fun hlt => hlt.ne
  · obtain ⟨h₁, hle, -⟩ := h.behind m hm
    exact List.mem_range'_1.2 ⟨h₁, Nat.lt_one_add_iff.2 hle⟩

/-- And all of them, when none is rejected and none is being checked. -/
theorem Numbered.accepted_eq (h : Numbered s) (hidle : s.callers 0 = .idle)
    (hnone : ∀ m unread priv, .rejected m unread priv ∉ s.conn.trace) :
    accepted s.conn.trace = List.range' 1 s.nalloc := by
  refine h.sublist.antisymm ?_
  refine List.sublist_of_subperm_of_pairwise (List.subperm_of_subset ?_ fun m hm => ?_)
    List.pairwise_lt_range' h.sorted
  · exact List.nodup_range'
  · obtain ⟨h₁, hlt⟩ := List.mem_range'_1.1 hm
    have hknown := h.known m h₁ (Nat.lt_one_add_iff.1 hlt)
    rcases hknown with hm | ⟨unread, priv, hm⟩ | ⟨start, stop, unread, hread⟩
    · exact hm
    · exact absurd hm (hnone m unread priv)
    · rw [hidle] at hread
      cases hread

/-- What is sent in the states of the invariants. -/
theorem Inv.delivered {pub : List CnMsg} {R E : ℕ} (h : Inv s pub R E) (hsolo : Solo s pub R)
    (hnum : Numbered s) : s.Delivered := by
  obtain ⟨k, -, hsent⟩ := h.working.exists_take
  constructor
  · have hpub : pub.Sublist (Dvm.accepted s.conn.trace) := by
      rw [hsolo.acceptedEq]
      exact List.sublist_append_left ..
    exact hsent ▸ ((List.take_sublist k pub).trans hpub).trans hnum.sublist
  · rintro ⟨hidle, hwork, hqueued⟩ hnone
    have hacc := hsolo.acceptedEq
    have hworking := h.working
    rw [hidle] at hacc
    rw [hwork] at hworking
    rw [← hnum.accepted_eq hidle hnone, hacc]
    rcases h.wake with hE | hq | hbegun | ⟨c, hc⟩
    · rw [hworking.2, ← hworking.1, hE, List.take_length]
      exact (List.append_nil pub).symm
    · rw [hqueued] at hq
      cases hq
    · rw [hwork] at hbegun
      cases hbegun
    · rw [Subsingleton.elim c 0, hidle] at hc
      cases hc

/-- **Runs** of one caller and the work item. -/
theorem delivered_of_run {acts : List (Act 1)} (hrun : Lts.exec step (init 1) acts = some s) :
    s.Delivered := by
  obtain ⟨⟨pub, R, E, h, hsolo⟩, hnum⟩ :=
    Lts.exec_invariant step (C := fun _ _ => True)
      (I := fun s => (∃ pub R E, Inv s pub R E ∧ Solo s pub R) ∧ Numbered s)
      (fun _ _ _ ⟨⟨_, _, _, h, hsolo⟩, hnum⟩ _ hs =>
        ⟨solo_step h hsolo (step_cases hs), numbered_step hnum (step_cases hs)⟩)
      ⟨⟨[], 0, 0, inv_init, trivial, rfl⟩, numbered_init⟩
      (Lts.meets_of_forall step (fun _ _ => trivial) _ _) hrun
  exact h.delivered hsolo hnum

end Iax.Dvm.System
