import Iax.Mvm.AsyncHandlers
import Iax.Mvm.CsiReassembly

/-!
# The pages of CSI notifications

A notification is kept by reference: the entry on the list of `iwl_mvm_rx_common` holds a reference
to its page, and `iwl_mvm_csi_steal` takes another for the slot.

* `holding` is what the queued entries and the slots hold in a state.
* `run_handler`, `run_purge`: the page operations of a handler turn what the slots hold before it
  into what they hold after it, on every branch, and those of purging do so for the entries.
* `csi_pages`: along any run each reference is dropped exactly once or still held, and the entries
  are handled in the order of their arrival, at most once each.
-/

namespace Iax.Mvm

open Ledger

/-! ## What is held -/

/-- What is held when the slots are those of `m` and the entries hold what `L` says. -/
def withSlots (L : PageHolder → Option ℕ) (m : IwlMvm) : PageHolder → Option ℕ
  | .slot i => slotPages m i
  | .entry num => L (.entry num)

/-- The page of the entry with a number. -/
def entryPage (es : List AsyncEntry) (num : ℕ) : Option ℕ :=
  (es.find? fun e => e.num = num).map fun e => e.notif.rxb.page

/-- What the holders hold: a queued entry, on either list, its page, and a slot the page in it. -/
def AsyncRx.holding (s : AsyncRx) : PageHolder → Option ℕ
  | .slot i => slotPages s.mvm i
  | .entry num => entryPage (s.localList ++ s.asyncHandlersList) num

/-! ## The handlers -/

section Handlers

variable (L : PageHolder → Option ℕ) (m : IwlMvm)

theorem run_freePages :
    run (withSlots L m) (freePagesOps m) = some (withSlots L (iwlMvmCsiFreePages m)) := by
  have hnodup : ((List.finRange csiDataEntriesSize).map PageHolder.slot).Nodup :=
    (List.nodup_finRange _).map fun i j h => PageHolder.slot.inj h
  have hops : freePagesOps m = ((List.finRange csiDataEntriesSize).map PageHolder.slot).filterMap
      fun h => (withSlots L m h).map (Op.drop h) := by
    rw [List.filterMap_map]
    rfl
  rw [hops, run_dropAll _ hnodup]
  congr 1
  funext h
  cases h with
  | entry num => simp [withSlots]
  | slot i => simp [withSlots, slotPages]

theorem run_steal (idx : Fin csiDataEntriesSize) (rxb : RxCmdBuffer) :
    run (withSlots L m) (stealPageOps m idx rxb) =
      some (withSlots L (iwlMvmCsiSteal m idx rxb)) := by
  rw [stealPageOps, iwlMvmCsiSteal]
  split
  · exact run_freePages L m
  · rename_i hfree
    have hslot : withSlots L m (.slot idx) = none := by
      simpa [withSlots, slotPages] using hfree
    rw [run_take _ hslot]
    congr 1
    funext h
    cases h with
    | entry num => simp [withSlots]
    | slot i =>
      by_cases hi : i = idx
      · subst hi
        simp [withSlots, slotPages]
      · have hne : PageHolder.slot i ≠ .slot idx := fun heq => hi (PageHolder.slot.inj heq)
        simp [withSlots, slotPages, Function.update_of_ne hi, Function.update_of_ne hne]

theorem run_complete (env : CsiEnv) :
    run (withSlots L m) (completePageOps m) = some (withSlots L (iwlMvmCsiComplete m env)) := by
  rw [completePageOps, run_freePages]
  congr 1
  funext h
  cases h with
  | entry num => rfl
  | slot i => simp [withSlots, slotPages]

/-- **The page operations of a handler** lead from the slots before it to those after it. -/
theorem run_handler (n : CsiNotif) (env : CsiEnv) :
    run (withSlots L m) (handlerPageOps m n) = some (withSlots L (csiStep m (n, env))) := by
  cases n with
  | header rxb => exact run_steal L m _ rxb
  | chunk rxb =>
    simp only [handlerPageOps, chunkPageOps, csiStep, iwlMvmRxCsiChunk]
    cases csiChunkNumIdx m.csiNotif rxb.pkt.chunk.ctl with
    | none => rfl
    | some ni =>
      obtain ⟨num, idx⟩ := ni
      by_cases hbound : csiDataEntriesSize - 1 ≤ idx
      · simp only [dif_pos hbound]
        rfl
      · simp only [dif_neg hbound]
        rw [run_append, run_steal, Option.bind_some]
        split
        · exact run_complete L _ env
        · rfl

end Handlers

/-! ## The invariant -/

/-- The entries of which the handler has not been called. -/
def AsyncRx.waiting (s : AsyncRx) : List AsyncEntry :=
  (if s.handled then s.localList.tail else s.localList) ++ s.asyncHandlersList

/-- The references are accounted for, and the entries are in the order of their numbers. -/
structure PagesInv (s : AsyncRx) : Prop where
  pages : run (fun _ => none) s.pageOps = some s.holding
  idle : s.running = false → s.localList = []
  done : s.localList = [] → s.handled = false
  held : ((s.localList ++ s.asyncHandlersList).map AsyncEntry.num).Pairwise (· < ·)
  order : ((s.handledLog ++ s.waiting).map AsyncEntry.num).Pairwise (· < ·)
  logged : ∀ e ∈ s.handledLog ++ (s.localList ++ s.asyncHandlersList),
    s.queuedLog[e.num]? = some e.notif

theorem pagesInv_init (csiNotif : ℕ) : PagesInv (.init csiNotif) where
  pages := by
    rw [AsyncRx.init]
    change some _ = some _
    congr 1
    funext h
    cases h <;> rfl
  idle := fun _ => rfl
  done := fun _ => rfl
  held := List.Pairwise.nil
  order := List.Pairwise.nil
  logged := fun e he => absurd he (by simp [AsyncRx.init])

/-- Among entries with different numbers, the page of one of them. -/
theorem entryPage_of_mem {es : List AsyncEntry} (hes : (es.map AsyncEntry.num).Pairwise (· < ·))
    {e : AsyncEntry} (he : e ∈ es) : entryPage es e.num = some e.notif.rxb.page := by
  induction es with
  | nil => cases he
  | cons e₁ es ih =>
    rw [List.map_cons, List.pairwise_cons] at hes
    rcases List.mem_cons.1 he with rfl | hmem
    · simp [entryPage]
    · have hne : e₁.num ≠ e.num := (hes.1 e.num (List.mem_map_of_mem hmem)).ne
      have hrest := ih hes.2 hmem
      rwa [entryPage, List.find?_cons_of_neg (by simpa using hne)]

theorem entryPage_eq_none {es : List AsyncEntry} {num : ℕ} (h : ∀ e ∈ es, e.num ≠ num) :
    entryPage es num = none := by
  rw [entryPage, List.find?_eq_none.2 (by simpa using h)]
  rfl

theorem entryPage_append (es es' : List AsyncEntry) (num : ℕ) :
    entryPage (es ++ es') num = (entryPage es num).or (entryPage es' num) := by
  rw [entryPage, List.find?_append, Option.map_or]
  rfl

/-- Without the first entry. -/
theorem entryPage_tail {e : AsyncEntry} {es : List AsyncEntry}
    (hes : ((e :: es).map AsyncEntry.num).Pairwise (· < ·)) (num : ℕ) :
    entryPage es num = if num = e.num then none else entryPage (e :: es) num := by
  rw [List.map_cons, List.pairwise_cons] at hes
  split
  · rename_i heq
    exact entryPage_eq_none fun e' he' => heq ▸ (hes.1 e'.num (List.mem_map_of_mem he')).ne'
  · rename_i hne
    rw [entryPage, entryPage, List.find?_cons_of_neg (by simpa using fun heq => hne heq.symm)]

/-- An entry with a number larger than those before. -/
theorem pairwise_concat {es : List AsyncEntry} {e : AsyncEntry}
    (hes : (es.map AsyncEntry.num).Pairwise (· < ·)) (hlt : ∀ e' ∈ es, e'.num < e.num) :
    ((es ++ [e]).map AsyncEntry.num).Pairwise (· < ·) := by
  rw [List.map_append, List.pairwise_append]
  refine ⟨hes, List.pairwise_singleton _ _, fun num hnum num' hnum' => ?_⟩
  obtain ⟨e', he', rfl⟩ := List.mem_map.1 hnum
  rw [List.mem_singleton.1 hnum']
  exact hlt e' he'

/-! ## What queueing and purging do to the references -/

section Entries

variable {s : AsyncRx}

/-- A new entry holds its page, and nothing else changes. -/
theorem holding_queueEntry (n : CsiNotif)
    (hlt : ∀ e ∈ s.localList ++ s.asyncHandlersList, e.num < s.queuedLog.length) :
    (queueEntry s n).holding =
      Function.update s.holding (.entry s.queuedLog.length) (some n.rxb.page) := by
  funext holder
  cases holder with
  | slot i => simp [AsyncRx.holding, queueEntry]
  | entry num =>
    simp only [AsyncRx.holding, queueEntry]
    rw [← List.append_assoc, entryPage_append]
    by_cases heq : num = s.queuedLog.length
    · subst heq
      rw [Function.update_self, entryPage_eq_none fun e he => (hlt e he).ne]
      simp [entryPage]
    · have hne : PageHolder.entry num ≠ .entry s.queuedLog.length :=
        fun hh => heq (PageHolder.entry.inj hh)
      have hnone : entryPage [⟨s.queuedLog.length, n, s.lastMpdu⟩] num = none :=
        entryPage_eq_none fun e he => by
          rw [List.mem_singleton.1 he]
          exact Ne.symm heq
      rw [Function.update_of_ne hne, hnone, Option.or_none]
      rfl

/-- Without the entries on the list, the others hold what they held. -/
theorem holding_purge
    (hheld : ((s.localList ++ s.asyncHandlersList).map AsyncEntry.num).Pairwise (· < ·)) :
    (iwlMvmAsyncHandlersPurge s).holding = fun holder =>
      if holder ∈ s.asyncHandlersList.map (fun e => PageHolder.entry e.num) then none
      else s.holding holder := by
  rw [List.map_append, List.pairwise_append] at hheld
  funext holder
  cases holder with
  | slot i => simp [AsyncRx.holding, iwlMvmAsyncHandlersPurge]
  | entry num =>
    simp only [AsyncRx.holding, iwlMvmAsyncHandlersPurge, List.append_nil, entryPage_append]
    split
    · rename_i hmem
      obtain ⟨e, he, heq⟩ := List.mem_map.1 hmem
      obtain rfl := PageHolder.entry.inj heq
      refine entryPage_eq_none fun e' he' => ?_
      exact (hheld.2.2 _ (List.mem_map_of_mem he') _ (List.mem_map_of_mem he)).ne
    · rename_i hmem
      have hnone : entryPage s.asyncHandlersList num = none :=
        entryPage_eq_none fun e he heq => hmem (List.mem_map.2 ⟨e, he, by rw [heq]⟩)
      rw [hnone, Option.or_none]

/-- **The page operations of purging.** -/
theorem run_purge
    (hheld : ((s.localList ++ s.asyncHandlersList).map AsyncEntry.num).Pairwise (· < ·)) :
    run s.holding (s.asyncHandlersList.map AsyncEntry.freeOp) =
      some (iwlMvmAsyncHandlersPurge s).holding := by
  have hnodup : (s.asyncHandlersList.map fun e => PageHolder.entry e.num).Nodup := by
    have hlist := hheld
    rw [List.map_append, List.pairwise_append] at hlist
    have hnums : (s.asyncHandlersList.map AsyncEntry.num).Nodup := hlist.2.1.imp fun hlt => hlt.ne
    have hholders := hnums.map fun i j hij => PageHolder.entry.inj hij
    rwa [List.map_map] at hholders
  -- each of these entries holds its page
  have hops : s.asyncHandlersList.map AsyncEntry.freeOp =
      (s.asyncHandlersList.map fun e => PageHolder.entry e.num).filterMap
        fun h => (s.holding h).map (Op.drop h) := by
    rw [List.filterMap_map, ← List.filterMap_eq_map]
    refine List.filterMap_congr fun e he => ?_
    have hpage := entryPage_of_mem hheld (List.mem_append_right s.localList he)
    simp only [Function.comp_apply, AsyncRx.holding, hpage, Option.map_some]
    rfl
  rw [hops, run_dropAll _ hnodup, holding_purge hheld]

end Entries

/-! ## The steps keep the invariant -/

namespace PagesInv

variable {s : AsyncRx}

theorem num_lt (h : PagesInv s) {e : AsyncEntry}
    (he : e ∈ s.handledLog ++ (s.localList ++ s.asyncHandlersList)) :
    e.num < s.queuedLog.length :=
  (List.getElem?_eq_some_iff.1 (h.logged e he)).1

theorem queue (h : PagesInv s) (n : CsiNotif) : PagesInv (queueEntry s n) := by
  -- the number of the new entry is larger than all others
  have hlocal : ∀ e' ∈ s.localList ++ s.asyncHandlersList, e'.num < s.queuedLog.length :=
    fun e' he' => h.num_lt (List.mem_append_right _ he')
  have hwaiting : ∀ e' ∈ s.handledLog ++ s.waiting, e'.num < s.queuedLog.length := by
    intro e' he'
    refine h.num_lt (List.mem_append.2 ((List.mem_append.1 he').imp_right fun hmem => ?_))
    exact List.mem_append.2 ((List.mem_append.1 hmem).imp_left fun hloc => by
      split at hloc
      · exact List.mem_of_mem_tail hloc
      · exact hloc)
  have hfresh : s.holding (.entry s.queuedLog.length) = none :=
    entryPage_eq_none fun e' he' => (hlocal e' he').ne
  refine ⟨?_, h.idle, h.done, ?_, ?_, ?_⟩
  · change run (fun _ => none) (s.pageOps ++ _) = _
    rw [run_append, h.pages, Option.bind_some, run_take _ hfresh, holding_queueEntry n hlocal]
  · rw [queueEntry, ← List.append_assoc]
    exact pairwise_concat h.held hlocal
  · change ((s.handledLog ++ (_ ++ (s.asyncHandlersList ++ [_]))).map AsyncEntry.num).Pairwise _
    rw [← List.append_assoc _ s.asyncHandlersList, ← List.append_assoc]
    exact pairwise_concat h.order hwaiting
  · intro e he
    change (s.queuedLog ++ [n])[e.num]? = some e.notif
    rw [queueEntry, ← List.append_assoc, ← List.append_assoc, List.mem_append,
      List.mem_singleton] at he
    rcases he with hold | rfl
    · rw [List.append_assoc] at hold
      rw [List.getElem?_append_left (h.num_lt hold)]
      exact h.logged e hold
    · exact List.getElem?_concat_length ..

theorem rx (h : PagesInv s) (n : CsiNotif) (alloc : Bool) :
    PagesInv (iwlMvmRxCommon s n alloc) := by
  rw [iwlMvmRxCommon]
  split_ifs
  · exact h
  · exact h.queue n
  · exact h

/-- Purging drops the pages of the entries on the list. -/
theorem purge (h : PagesInv s) : PagesInv (iwlMvmAsyncHandlersPurge s) := by
  refine ⟨?_, h.idle, h.done, ?_, ?_, ?_⟩
  · change run (fun _ => none) (s.pageOps ++ _) = _
    rw [run_append, h.pages, Option.bind_some, run_purge h.held]
  · have hheld := h.held
    rw [List.map_append, List.pairwise_append] at hheld
    rw [iwlMvmAsyncHandlersPurge, List.append_nil]
    exact hheld.1
  · have horder := h.order
    rw [AsyncRx.waiting, ← List.append_assoc, List.map_append, List.pairwise_append] at horder
    change ((s.handledLog ++ (_ ++ [])).map AsyncEntry.num).Pairwise _
    rw [List.append_nil]
    exact horder.1
  · intro e he
    rw [iwlMvmAsyncHandlersPurge, List.append_nil] at he
    refine h.logged e ?_
    rw [← List.append_assoc]
    exact List.mem_append_left _ he

/-- The worker takes the list over. -/
theorem start (h : PagesInv s) (idle : s.running = false) : PagesInv { s with
    workPending := false
    running := true
    localList := s.asyncHandlersList
    asyncHandlersList := [] } := by
  have hlocal := h.idle idle
  have hhandled := h.done hlocal
  have hheld := h.held
  have horder := h.order
  have hlogged := h.logged
  have hpages := h.pages
  rw [hlocal, List.nil_append] at hheld
  rw [AsyncRx.waiting, hhandled, hlocal] at horder
  rw [hlocal, List.nil_append] at hlogged
  refine ⟨?_, fun hrun => absurd hrun (by simp), fun _ => hhandled, ?_, ?_, ?_⟩
  · rw [hpages]
    congr 1
    funext holder
    cases holder with
    | slot i => rfl
    | entry num => simp only [AsyncRx.holding, hlocal, List.nil_append, List.append_nil]
  · rwa [List.append_nil]
  · rw [AsyncRx.waiting, hhandled]
    simpa using horder
  · rwa [List.append_nil]

/-- A worker with an entry is running. -/
theorem running_of_first (h : PagesInv s) {e : AsyncEntry} {es : List AsyncEntry}
    (first : s.localList = e :: es) : s.running ≠ false := by
  intro hidle
  rw [h.idle hidle] at first
  cases first

/-- The handler of the first entry is called. -/
theorem handle (h : PagesInv s) (unixTs : BitVec 64) {e : AsyncEntry} {es : List AsyncEntry}
    (first : s.localList = e :: es) (fresh : s.handled = false) :
    PagesInv (callHandler s e unixTs) := by
  have horder := h.order
  rw [AsyncRx.waiting, fresh, first] at horder
  refine ⟨?_, fun hidle => absurd hidle (h.running_of_first first), fun hnil => ?_, h.held, ?_, ?_⟩
  · have hhandler := run_handler s.holding s.mvm e.notif (s.env unixTs)
    have hbefore : withSlots s.holding s.mvm = s.holding := by
      funext holder
      cases holder <;> rfl
    rw [hbefore] at hhandler
    change run (fun _ => none) (s.pageOps ++ handlerPageOps s.mvm e.notif) = _
    rw [run_append, h.pages, Option.bind_some, hhandler]
    rfl
  · change s.localList = [] at hnil
    rw [first] at hnil
    cases hnil
  · rw [AsyncRx.waiting, callHandler, if_pos rfl, first]
    simpa using horder
  · intro e' he'
    rw [callHandler, List.append_assoc] at he'
    refine h.logged e' ?_
    rcases List.mem_append.1 he' with hold | hnew
    · exact List.mem_append_left _ hold
    · rcases List.mem_append.1 hnew with hfirst | hrest
      · rw [List.mem_singleton.1 hfirst, first]
        simp
      · exact List.mem_append_right _ hrest

/-- The first entry is freed. -/
theorem free (h : PagesInv s) {e : AsyncEntry} {es : List AsyncEntry}
    (first : s.localList = e :: es) (done : s.handled = true) : PagesInv { s with
      localList := es
      handled := false
      pageOps := s.pageOps ++ [e.freeOp] } := by
  have hheld := h.held
  have horder := h.order
  rw [first, List.cons_append] at hheld
  rw [AsyncRx.waiting, done, first] at horder
  have hpage : s.holding (.entry e.num) = some e.notif.rxb.page :=
    entryPage_of_mem h.held (by rw [first]; simp)
  refine ⟨?_, fun hidle => absurd hidle (h.running_of_first first), fun _ => rfl, ?_, horder, ?_⟩
  · change run (fun _ => none) (s.pageOps ++ [.drop (.entry e.num) e.notif.rxb.page]) = _
    rw [run_append, h.pages, Option.bind_some, run_drop hpage]
    congr 1
    funext holder
    cases holder with
    | slot i => simp [AsyncRx.holding]
    | entry num =>
      simp only [AsyncRx.holding, entryPage_tail hheld num]
      by_cases heq : num = e.num
      · subst heq
        simp
      · have hne : PageHolder.entry num ≠ .entry e.num := fun hh => heq (PageHolder.entry.inj hh)
        rw [Function.update_of_ne hne, if_neg heq]
        simp only [AsyncRx.holding, first, List.cons_append]
  · rw [List.map_cons, List.pairwise_cons] at hheld
    exact hheld.2
  · intro e' he'
    refine h.logged e' ?_
    rw [first]
    rcases List.mem_append.1 he' with hold | hnew
    · exact List.mem_append_left _ hold
    · exact List.mem_append_right _ (List.mem_cons_of_mem e hnew)

end PagesInv

/-- **Every step** keeps the invariant. -/
theorem pagesInv_step {s s' : AsyncRx} {a : AsyncAct} (h : PagesInv s)
    (hstep : asyncStep s a = some s') : PagesInv s' := by
  cases asyncStep_cases hstep with
  | rx n alloc => exact h.rx n alloc
  | mpdu pkt => exact ⟨h.pages, h.idle, h.done, h.held, h.order, h.logged⟩
  | purge => exact h.purge
  | start pending idle => exact h.start idle
  | handle unixTs e es first fresh => exact h.handle unixTs first fresh
  | free e es first done => exact h.free first done
  | finish ran none_left =>
    exact ⟨h.pages, fun _ => none_left, h.done, h.held, h.order, h.logged⟩

/-! ## Every run -/

theorem pagesInv_exec {csiNotif : ℕ} {acts : List AsyncAct} {s : AsyncRx}
    (hrun : Lts.exec asyncStep (.init csiNotif) acts = some s) : PagesInv s :=
  Lts.exec_invariant asyncStep (C := fun _ _ => True) (fun _ _ _ h _ hstep => pagesInv_step h hstep)
    (pagesInv_init csiNotif) (Lts.meets_of_forall asyncStep (fun _ _ => trivial) _ _) hrun

/-- **The pages of CSI notifications.** In every state of the driver: of the references that an
entry has taken, each was dropped once, but for the one that it holds while it is queued; the same
holds of a slot, which holds one exactly when it is occupied; the entries were handled in the order
in which their notifications were queued, none of them twice. `iwl_mvm_csi_complete` leaves all slots
empty, whatever it finds. -/
theorem csi_pages {csiNotif : ℕ} {acts : List AsyncAct} {s : AsyncRx}
    (hrun : Lts.exec asyncStep (.init csiNotif) acts = some s) :
    (∀ num, Held s.pageOps (.entry num) (entryPage (s.localList ++ s.asyncHandlersList) num)) ∧
      (∀ i, Held s.pageOps (.slot i) ((s.mvm.csiDataEntries i).map RxCmdBuffer.page)) ∧
      (s.handledLog.map AsyncEntry.num).Pairwise (· < ·) ∧
      (∀ e ∈ s.handledLog, s.queuedLog[e.num]? = some e.notif) ∧
      ∀ m env, (iwlMvmCsiComplete m env).csiDataEntries = fun _ => none := by
  have hinv := pagesInv_exec hrun
  refine ⟨fun num => held_of_run hinv.pages (.entry num), fun i => held_of_run hinv.pages (.slot i),
    ?_, fun e he => hinv.logged e (List.mem_append_left _ he), complete_csiDataEntries⟩
  have horder := hinv.order
  rw [List.map_append, List.pairwise_append] at horder
  exact horder.1

/-- Of a header and a chunk the header is parked, the chunk still queued, and a third notification
was purged. -/
theorem csi_pages_parked :
    ∃ s, Lts.exec asyncStep (.init 2)
        [.rx (.header (Measurement.produce 1 [7] [[1]]).hdr) true,
          .rx (.chunk (Measurement.produce 1 [7] [[1]]).chunks[0]) false,
          .rx (.chunk (Measurement.produce 1 [7] [[1]]).chunks[0]) true, .start, .handle 0, .free,
          .rx (.header (Measurement.produce 2 [8] [[2]]).hdr) true, .purge] = some s ∧
      s.pageOps = [.take (.entry 0) 0, .take (.entry 1) 1, .take (.slot ⟨0, by decide⟩) 0,
        .drop (.entry 0) 0, .take (.entry 2) 0, .drop (.entry 2) 0] ∧
      Held s.pageOps (.slot ⟨0, by decide⟩) (some 0) ∧ Held s.pageOps (.entry 1) (some 1) := by
  have hview : (Lts.exec asyncStep (.init 2)
      [.rx (.header (Measurement.produce 1 [7] [[1]]).hdr) true,
        .rx (.chunk (Measurement.produce 1 [7] [[1]]).chunks[0]) false,
        .rx (.chunk (Measurement.produce 1 [7] [[1]]).chunks[0]) true, .start, .handle 0, .free,
        .rx (.header (Measurement.produce 2 [8] [[2]]).hdr) true, .purge]).map
        (fun s => (s.pageOps, entryPage (s.localList ++ s.asyncHandlersList) 1,
          slotPages s.mvm ⟨0, by decide⟩)) =
      some ([.take (.entry 0) 0, .take (.entry 1) 1, .take (.slot ⟨0, by decide⟩) 0,
        .drop (.entry 0) 0, .take (.entry 2) 0, .drop (.entry 2) 0], some 1, some 0) := by
    decide +kernel
  obtain ⟨s, hs, heq⟩ := Option.map_eq_some_iff.1 hview
  simp only [Prod.mk.injEq] at heq
  obtain ⟨hops, hentry, hslot⟩ := heq
  obtain ⟨hentries, hslots, -⟩ := csi_pages hs
  exact ⟨s, hs, hops, hslot ▸ hslots _, hentry ▸ hentries 1⟩

end Iax.Mvm
