import Iax.Mvm.CsiDelivery
import Iax.Mvm.CsiPages

/-!
# Notifications on their way to events

What becomes of the notifications that arrive when none is dropped on the way.

* `FlowInv.exec`: whatever the receive path and the worker do in between, the slots are what the
  handlers make of the notifications in the order of their arrival.
* `foldl_deliveries`: whole measurements one after another are handed over one after another.
* `events_of_run`: so a run that has handled whole measurements has handed over exactly these.
-/

namespace Iax.Mvm

open Bytes

/-! ## The worker keeps the order -/

/-- The CSI notification that arrives. -/
def AsyncAct.arrival : AsyncAct → Option CsiNotif
  | .rx n _ => some n
  | _ => none

/-- Nothing is dropped: the packet is as long as its handler asks for, there is memory for the
entry, and the list is not purged. -/
def AsyncAct.Kept : AsyncAct → Prop
  | .rx n alloc => n.minSize ≤ iwlRxPacketPayloadLen n.rxb.pkt ∧ alloc = true
  | .purge => False
  | _ => True

/-- The notifications that have arrived were handled or wait, in their order, and the slots are what
the handlers made of those handled. -/
structure FlowInv (csiNotif : ℕ) (arrived : List CsiNotif) (s : AsyncRx) : Prop where
  handled : ∃ as : List (CsiNotif × CsiEnv), as.map Prod.fst = s.handledLog.map AsyncEntry.notif ∧
    s.mvm = as.foldl csiStep (.init csiNotif)
  order : (s.handledLog ++ s.waiting).map AsyncEntry.notif = arrived

theorem flowInv_init (csiNotif : ℕ) : FlowInv csiNotif [] (.init csiNotif) :=
  ⟨⟨[], rfl, rfl⟩, rfl⟩

/-- **Every step** that drops nothing. -/
theorem FlowInv.step {csiNotif : ℕ} {arrived : List CsiNotif} {s s' : AsyncRx} {a : AsyncAct}
    (h : FlowInv csiNotif arrived s) (hpages : PagesInv s) (ha : a.Kept)
    (hstep : asyncStep s a = some s') : FlowInv csiNotif (arrived ++ a.arrival.toList) s' := by
  obtain ⟨hhandled, horder⟩ := h
  cases asyncStep_cases hstep with
  | rx n alloc =>
    obtain ⟨hsize, rfl⟩ := ha
    rw [iwlMvmRxCommon, if_neg (Nat.not_lt.2 hsize), if_pos rfl]
    refine ⟨hhandled, ?_⟩
    rw [← horder]
    simp only [queueEntry, AsyncRx.waiting, AsyncAct.arrival, List.map_append, List.append_assoc]
    rfl
  | mpdu pkt =>
    change FlowInv csiNotif (arrived ++ []) _
    rw [List.append_nil]
    exact ⟨hhandled, horder⟩
  | purge => exact ha.elim
  | start pending idle =>
    change FlowInv csiNotif (arrived ++ []) _
    rw [List.append_nil]
    refine ⟨hhandled, ?_⟩
    have hlocal := hpages.idle idle
    have hdone := hpages.done hlocal
    rw [AsyncRx.waiting, hdone, hlocal] at horder
    simpa [AsyncRx.waiting, hdone] using horder
  | handle unixTs e es first fresh =>
    change FlowInv csiNotif (arrived ++ []) _
    rw [List.append_nil]
    obtain ⟨as, has, hmvm⟩ := hhandled
    refine ⟨⟨as ++ [(e.notif, s.env unixTs)], ?_, ?_⟩, ?_⟩
    · simp [callHandler, has]
    · rw [List.foldl_append, ← hmvm]
      rfl
    · rw [AsyncRx.waiting, fresh, first] at horder
      simpa [AsyncRx.waiting, callHandler, first] using horder
  | free e es first done =>
    change FlowInv csiNotif (arrived ++ []) _
    rw [List.append_nil]
    refine ⟨hhandled, ?_⟩
    rw [AsyncRx.waiting, done, first] at horder
    simpa [AsyncRx.waiting] using horder
  | finish ran none_left =>
    change FlowInv csiNotif (arrived ++ []) _
    rw [List.append_nil]
    exact ⟨hhandled, horder⟩

/-- **Every run** that drops nothing. -/
theorem FlowInv.exec {csiNotif : ℕ} {arrived : List CsiNotif} {s s' : AsyncRx}
    {acts : List AsyncAct} (h : FlowInv csiNotif arrived s) (hpages : PagesInv s)
    (hacts : ∀ a ∈ acts, a.Kept) (hrun : Lts.exec asyncStep s acts = some s') :
    FlowInv csiNotif (arrived ++ acts.filterMap AsyncAct.arrival) s' := by
  induction acts generalizing s arrived with
  | nil =>
    obtain rfl : s = s' := by simpa using hrun
    simpa using h
  | cons a acts ih =>
    obtain ⟨s₁, h₁, hrest⟩ := (Lts.exec_cons_eq_some asyncStep).1 hrun
    obtain ⟨ha, hacts'⟩ := List.forall_mem_cons.1 hacts
    have hih := ih (h.step hpages ha h₁) (pagesInv_step hpages h₁) hacts' hrest
    rw [List.append_assoc] at hih
    cases harr : a.arrival with
    | none => rwa [List.filterMap_cons_none harr, ← List.nil_append (acts.filterMap _),
        ← Option.toList_none, ← harr]
    | some n =>
      rw [List.filterMap_cons_some harr]
      rwa [harr] at hih

/-! ## Whole measurements -/

/-- The notifications of a measurement as they may arrive: the header first, the last chunk last. -/
def Measurement.ArrivesAs (M : Measurement) (ns : List CsiNotif) : Prop :=
  ∃ order : List RxCmdBuffer, order.Perm M.chunks ∧ order.getLast? = M.chunks.getLast? ∧
    ns = .header M.hdr :: order.map .chunk

/-- The slots have room for the measurement, and its chunks lie inside their packets. -/
structure Measurement.Sound (csiNotif : ℕ) (M : Measurement) : Prop where
  wellFormed : M.WellFormed csiNotif
  room : M.chunks.length < iwlCsiMaxExpectedChunks
  fits : ∀ c ∈ M.chunks, c.pkt.ChunkFits

/-- The event carries the header and all the chunks of the measurement. -/
def Measurement.HandedOver (M : Measurement) (e : CsiEvent) : Prop :=
  ∃ env, e = csiEvent env M.hdr (M.chunks.map chunkSlice)

/-- **Whole measurements, one after another**, are handed over one after another. -/
theorem foldl_deliveries {Ms : List Measurement} {nss : List (List CsiNotif)}
    (harrive : List.Forall₂ Measurement.ArrivesAs Ms nss) {m : IwlMvm}
    (hsound : ∀ M ∈ Ms, M.Sound m.csiNotif) (hempty : m.csiDataEntries = fun _ => none)
    {as : List (CsiNotif × CsiEnv)} (has : as.map Prod.fst = nss.flatten) :
    ∃ es, (as.foldl csiStep m).csiEvents = m.csiEvents ++ es ∧
      List.Forall₂ Measurement.HandedOver Ms es := by
  induction harrive generalizing m as with
  | nil =>
    obtain rfl : as = [] := by simpa using has
    exact ⟨[], by simp, .nil⟩
  | @cons M ns Ms nss hfirst _ ih =>
    obtain ⟨hM, hMs⟩ := List.forall_mem_cons.1 hsound
    rw [List.flatten_cons] at has
    obtain ⟨bs, cs, rfl, hbs, hcs⟩ := List.map_eq_append_iff.1 has
    obtain ⟨order, hperm, hlast, rfl⟩ := hfirst
    obtain ⟨⟨env, hev⟩, hfree⟩ := delivery hM.wellFormed hM.room hM.fits hempty hperm hlast hbs
    have hnotif := foldl_csiStep_csiNotif m bs
    obtain ⟨es, hes, hall⟩ := ih (fun M' hM' => by rw [hnotif]; exact hMs M' hM') hfree hcs
    refine ⟨csiEvent env M.hdr (M.chunks.map chunkSlice) :: es, ?_, .cons ⟨env, rfl⟩ hall⟩
    rw [List.foldl_append, hes, hev, List.append_assoc]
    rfl

/-- **The events of a run** that drops nothing and has handled all that arrived: those of the
measurements, in order. -/
theorem events_of_run {csiNotif : ℕ} {acts : List AsyncAct} {s : AsyncRx}
    (hrun : Lts.exec asyncStep (.init csiNotif) acts = some s) (hacts : ∀ a ∈ acts, a.Kept)
    (hlocal : s.localList = []) (hlist : s.asyncHandlersList = []) {Ms : List Measurement}
    {nss : List (List CsiNotif)} (harrive : List.Forall₂ Measurement.ArrivesAs Ms nss)
    (hsound : ∀ M ∈ Ms, M.Sound csiNotif)
    (harrived : acts.filterMap AsyncAct.arrival = nss.flatten) :
    List.Forall₂ Measurement.HandedOver Ms s.mvm.csiEvents := by
  obtain ⟨⟨as, has, hmvm⟩, horder⟩ :=
    (flowInv_init csiNotif).exec (pagesInv_init csiNotif) hacts hrun
  have hwaiting : s.waiting = [] := by
    simp [AsyncRx.waiting, hlocal, hlist]
  rw [hwaiting, List.append_nil, List.nil_append, harrived] at horder
  obtain ⟨es, hes, hall⟩ := foldl_deliveries harrive (m := .init csiNotif) hsound rfl
    (has.trans horder)
  rw [← hmvm] at hes
  rwa [hes]

end Iax.Mvm
