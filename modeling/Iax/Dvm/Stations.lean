import Iax.Dvm.AggQueues
import Iax.Lib.Tally

/-!
# The station table of the dvm driver

The driver keeps a table of 16 stations (`dvm/sta.c`). Two of its entries are for access points,
three, from 13 on, for the monitor and the broadcast stations, and the others for peers. Beside the
table stand `num_stations`, and for each entry a link quality block that the entry owns.

The blocks are numbered in the order in which they are allocated. The rates in them, the HT flags
of the stations and the TID data are left out; the command that adds a station names its entry.

* `staCall`: the functions that change the table.
* `StationsInv`: the counter is right, addresses are not doubled and no block is lost.
* `station_table`: when this holds in all states of a run.
-/

namespace Iax.Dvm

/-! ## Entries -/

/-- The flags `IWL_STA_DRIVER_ACTIVE`, `IWL_STA_UCODE_ACTIVE`, `IWL_STA_UCODE_INPROGRESS`,
`IWL_STA_LOCAL` and `IWL_STA_BCAST`. -/
structure StaUsed where
  driverActive : Bool
  ucodeActive : Bool
  ucodeInprogress : Bool
  isLocal : Bool
  bcast : Bool
  deriving DecidableEq

def StaUsed.zero : StaUsed := ⟨false, false, false, false, false⟩

inductive RxonContextId
  | bss | pan
  deriving DecidableEq

/-- `struct iwl_station_entry`. -/
structure StationEntry where
  addr : BitVec 48
  used : StaUsed
  ctxid : RxonContextId
  lq : Option ℕ
  deriving DecidableEq

def StationEntry.zero : StationEntry := ⟨0, .zero, .bss, none⟩

def iwlBcastAddr : BitVec 48 := 0xffffffffffff

def iwlMonitorAddr : BitVec 48 := 0x0016ea123456

def iwlagnMonitorId : Fin 16 := 13

def RxonContextId.apStaId : RxonContextId → Fin 16
  | .bss => 0
  | .pan => 1

def RxonContextId.bcastStaId : RxonContextId → Fin 16
  | .bss => 15
  | .pan => 14

/-- The part of `struct iwl_priv` that is about stations, with the number of link quality blocks
that were allocated and the list of those that were freed. -/
structure StaPriv where
  stations : Fin 16 → StationEntry
  numStations : ℕ
  lqAllocs : ℕ
  lqFreed : List ℕ

def StaPriv.init : StaPriv := ⟨fun _ => .zero, 0, 0, []⟩

/-- What the firmware answers: whether the command was sent, and the status of the response. -/
structure FwAnswer where
  ret : ℤ
  success : Bool

def eio : ℤ := 5

def enomem : ℤ := 12

def eexist : ℤ := 17

namespace StaPriv

variable (priv : StaPriv)

def setEntry (id : Fin 16) (e : StationEntry) : StaPriv :=
  { priv with stations := Function.update priv.stations id e }

def setUsed (id : Fin 16) (used : StaUsed) : StaPriv :=
  priv.setEntry id { priv.stations id with used := used }

def setLq (id : Fin 16) (lq : Option ℕ) : StaPriv :=
  priv.setEntry id { priv.stations id with lq := lq }

/-- `kfree` of a link quality block, which may be `NULL`. -/
def kfree (lq : Option ℕ) : StaPriv := { priv with lqFreed := priv.lqFreed ++ lq.toList }

end StaPriv

/-! ## Adding -/

/-- The search for a peer in `iwl_prep_station`: its entry, or else the first free one. -/
def scanStations (stations : Fin 16 → StationEntry) (addr : BitVec 48) :
    List (Fin 16) → Option (Fin 16) → Option (Fin 16)
  | [], found => found
  | i :: is, found =>
    if (stations i).addr = addr then some i
    else scanStations stations addr is
      (if (stations i).used = .zero ∧ found = none then some i else found)

/-- The entry that `iwl_prep_station` chooses, `none` for `IWL_INVALID_STATION`. -/
def staIdOf (priv : StaPriv) (ctx : RxonContextId) (addr : BitVec 48) (isAp : Bool) :
    Option (Fin 16) :=
  if isAp then some ctx.apStaId
  else if addr = iwlBcastAddr then some ctx.bcastStaId
  else if addr = iwlMonitorAddr then some iwlagnMonitorId
  else scanStations priv.stations addr ((List.finRange 16).drop 2) none

/-- Whether an entry is there already: it is being added, or active with this address. -/
def alreadyAdded (e : StationEntry) (addr : BitVec 48) : Bool :=
  e.used.ucodeInprogress || (e.used.driverActive && e.used.ucodeActive && e.addr = addr)

/-- An entry that is prepared for the firmware. The block stays. -/
def prepared (e : StationEntry) (ctx : RxonContextId) (addr : BitVec 48) : StationEntry :=
  { addr := addr, used := { StaUsed.zero with driverActive := true }, ctxid := ctx, lq := e.lq }

/-- `iwl_prep_station` on the entry it has chosen. -/
def prepEntry (priv : StaPriv) (ctx : RxonContextId) (addr : BitVec 48) (id : Fin 16) : StaPriv :=
  if alreadyAdded (priv.stations id) addr then priv
  else
    { priv.setEntry id (prepared (priv.stations id) ctx addr) with
      numStations := priv.numStations + 1 }

/-- `iwl_sta_ucode_activate`. -/
def iwlStaUcodeActivate (priv : StaPriv) (id : Fin 16) : StaPriv :=
  priv.setUsed id { (priv.stations id).used with ucodeActive := true }

/-- `iwl_send_add_sta`, synchronously. -/
def iwlSendAddSta (priv : StaPriv) (id : Fin 16) (fw : FwAnswer) : ℤ × StaPriv :=
  if fw.ret ≠ 0 then (fw.ret, priv)
  else if fw.success then (0, iwlStaUcodeActivate priv id)
  else (-eio, priv)

/-- What is left of an entry that could not be added. -/
def addFailed (priv : StaPriv) (id : Fin 16) : StaPriv :=
  priv.setUsed id { (priv.stations id).used with driverActive := false, ucodeInprogress := false }

/-- `iwl_add_station_common`: what it returns, the entry that it gives, and the table after it. -/
def iwlAddStationCommon (priv : StaPriv) (ctx : RxonContextId) (addr : BitVec 48) (isAp : Bool)
    (fw : FwAnswer) : ℤ × Fin 16 × StaPriv :=
  match staIdOf priv ctx addr isAp with
  | none => (-einval, 0, priv)
  | some id =>
    let priv := prepEntry priv ctx addr id
    let used := (priv.stations id).used
    if used.ucodeInprogress then (-eexist, 0, priv)
    else if used.driverActive && used.ucodeActive then (-eexist, 0, priv)
    else
      let (ret, priv) := iwlSendAddSta (priv.setUsed id { used with ucodeInprogress := true }) id fw
      (ret, id, if ret ≠ 0 then addFailed priv id else priv)

/-! ## Removing -/

/-- `iwl_send_remove_station`, which is not temporary. -/
def iwlSendRemoveStation (priv : StaPriv) (id : Fin 16) (fw : FwAnswer) : ℤ × StaPriv :=
  if fw.ret ≠ 0 then (fw.ret, priv)
  else if fw.success then (0, priv.setEntry id .zero)
  else (-eio, priv)

/-- `iwl_remove_station`; the station is `none` for `IWL_INVALID_STATION`. -/
def iwlRemoveStation (priv : StaPriv) (ready : Bool) (id : Option (Fin 16)) (fw : FwAnswer) :
    ℤ × StaPriv :=
  match ready, id with
  | false, _ => (0, priv)
  | true, none => (-einval, priv)
  | true, some id =>
    let e := priv.stations id
    if !e.used.driverActive || !e.used.ucodeActive then (-einval, priv)
    else
      let priv := if e.used.isLocal then (priv.kfree e.lq).setLq id none else priv
      let priv := priv.setUsed id { e.used with driverActive := false }
      iwlSendRemoveStation { priv with numStations := priv.numStations - 1 } id fw

/-- `iwl_deactivate_station`. The counter stops at 0. -/
def iwlDeactivateStation (priv : StaPriv) (ready : Bool) (id : Option (Fin 16)) : StaPriv :=
  match ready, id with
  | false, _ => priv
  | true, none => priv
  | true, some id =>
    let used := (priv.stations id).used
    { priv.setUsed id { used with driverActive := false, ucodeInprogress := false } with
      numStations := priv.numStations - 1 }

/-! ## Broadcast stations -/

/-- `iwl_sta_alloc_lq`. -/
def iwlStaAllocLq (priv : StaPriv) (mem : Bool) : Option ℕ × StaPriv :=
  if mem then (some priv.lqAllocs, { priv with lqAllocs := priv.lqAllocs + 1 }) else (none, priv)

/-- Half of `iwlagn_alloc_bcast_station`: one of its two entries, and whether it has got a block. -/
def allocBcastEntry (priv : StaPriv) (ctx : RxonContextId) (addr : BitVec 48) (id : Fin 16)
    (mem : Bool) : Bool × StaPriv :=
  let priv := prepEntry priv ctx addr id
  let used := (priv.stations id).used
  let priv := priv.setUsed id { used with driverActive := true, bcast := true }
  match iwlStaAllocLq priv mem with
  | (none, priv) => (false, priv)
  | (some linkCmd, priv) => (true, priv.setLq id (some linkCmd))

/-- `iwlagn_alloc_bcast_station`. -/
def iwlagnAllocBcastStation (priv : StaPriv) (ctx : RxonContextId) (mem memMonitor : Bool) :
    ℤ × StaPriv :=
  match allocBcastEntry priv ctx iwlBcastAddr ctx.bcastStaId mem with
  | (false, priv) => (-enomem, priv)
  | (true, priv) =>
    match allocBcastEntry priv ctx iwlMonitorAddr iwlagnMonitorId memMonitor with
    | (false, priv) => (-enomem, priv)
    | (true, priv) => (0, priv)

/-- Half of `iwl_update_bcast_station`. -/
def updateBcastEntry (priv : StaPriv) (id : Fin 16) (mem : Bool) : Bool × StaPriv :=
  match iwlStaAllocLq priv mem with
  | (none, priv) => (false, priv)
  | (some linkCmd, priv) =>
    (true, (priv.kfree (priv.stations id).lq).setLq id (some linkCmd))

/-- `iwl_update_bcast_station`. -/
def iwlUpdateBcastStation (priv : StaPriv) (ctx : RxonContextId) (mem memMonitor : Bool) :
    ℤ × StaPriv :=
  match updateBcastEntry priv ctx.bcastStaId mem with
  | (false, priv) => (-enomem, priv)
  | (true, priv) =>
    match updateBcastEntry priv iwlagnMonitorId memMonitor with
    | (false, priv) => (-enomem, priv)
    | (true, priv) => (0, priv)

/-- A round of the loop of `iwl_dealloc_bcast_stations`. -/
def deallocBcastEntry (priv : StaPriv) (id : Fin 16) : StaPriv :=
  let e := priv.stations id
  if e.used.bcast then
    let priv := priv.setUsed id { e.used with ucodeActive := false }
    let priv := { priv with numStations := priv.numStations - 1 }
    (priv.kfree e.lq).setLq id none
  else priv

/-- `iwl_dealloc_bcast_stations`. -/
def iwlDeallocBcastStations (priv : StaPriv) : StaPriv :=
  (List.finRange 16).foldl deallocBcastEntry priv

/-! ## The table of the firmware -/

/-- A round of the loop of `iwl_clear_ucode_stations`; `ctx` is `none` for all contexts. -/
def clearUcodeEntry (ctx : Option RxonContextId) (priv : StaPriv) (id : Fin 16) : StaPriv :=
  let e := priv.stations id
  if ctx.any fun ctx => ctx ≠ e.ctxid then priv
  else priv.setUsed id { e.used with ucodeActive := false }

/-- `iwl_clear_ucode_stations`. -/
def iwlClearUcodeStations (priv : StaPriv) (ctx : Option RxonContextId) : StaPriv :=
  (List.finRange 16).foldl (clearUcodeEntry ctx) priv

/-- A round of the first loop of `iwl_restore_stations`: the entries that are to be restored. -/
def markRestored (ctx : RxonContextId) (priv : StaPriv) (id : Fin 16) : StaPriv :=
  let e := priv.stations id
  if e.ctxid = ctx ∧ e.used.driverActive = true ∧ e.used.ucodeActive = false then
    priv.setUsed id { e.used with ucodeInprogress := true }
  else priv

/-- A round of the second loop of `iwl_restore_stations`. The link quality command that may follow
changes nothing. -/
def restoreEntry (fw : Fin 16 → FwAnswer) (priv : StaPriv) (id : Fin 16) : StaPriv :=
  if (priv.stations id).used.ucodeInprogress then
    let (ret, priv) := iwlSendAddSta priv id (fw id)
    if ret ≠ 0 then addFailed priv id
    else priv.setUsed id { (priv.stations id).used with ucodeInprogress := false }
  else priv

/-- `iwl_restore_stations`. -/
def iwlRestoreStations (priv : StaPriv) (ready : Bool) (ctx : RxonContextId)
    (fw : Fin 16 → FwAnswer) : StaPriv :=
  if ready then
    (List.finRange 16).foldl (restoreEntry fw) ((List.finRange 16).foldl (markRestored ctx) priv)
  else priv

/-! ## Runs -/

inductive StaEvent
  | add (ctx : RxonContextId) (addr : BitVec 48) (isAp : Bool) (fw : FwAnswer)
  | remove (ready : Bool) (id : Option (Fin 16)) (fw : FwAnswer)
  | deactivate (ready : Bool) (id : Option (Fin 16))
  | allocBcast (ctx : RxonContextId) (mem memMonitor : Bool)
  | updateBcast (ctx : RxonContextId) (mem memMonitor : Bool)
  | clearUcode (ctx : Option RxonContextId)
  | restore (ready : Bool) (ctx : RxonContextId) (fw : Fin 16 → FwAnswer)
  | deallocBcast

/-- The table after a call. -/
def staCall (priv : StaPriv) : StaEvent → StaPriv
  | .add ctx addr isAp fw => (iwlAddStationCommon priv ctx addr isAp fw).2.2
  | .remove ready id fw => (iwlRemoveStation priv ready id fw).2
  | .deactivate ready id => iwlDeactivateStation priv ready id
  | .allocBcast ctx mem memMonitor => (iwlagnAllocBcastStation priv ctx mem memMonitor).2
  | .updateBcast ctx mem memMonitor => (iwlUpdateBcastStation priv ctx mem memMonitor).2
  | .clearUcode ctx => iwlClearUcodeStations priv ctx
  | .restore ready ctx fw => iwlRestoreStations priv ready ctx fw
  | .deallocBcast => iwlDeallocBcastStations priv

def staStep (priv : StaPriv) (e : StaEvent) : Option StaPriv := some (staCall priv e)

/-! ## The accounts of the table -/

/-- What holds of the table between two calls. -/
structure StationsInv (priv : StaPriv) : Prop where
  count : priv.numStations = tally fun i => (priv.stations i).used.driverActive
  distinct : ∀ i j, (priv.stations i).used.driverActive = true →
    (priv.stations j).used.driverActive = true → (priv.stations i).used.bcast = false →
    (priv.stations j).used.bcast = false → (priv.stations i).addr = (priv.stations j).addr → i = j
  lq : ∀ b, priv.lqFreed.count b + tally (fun i => decide ((priv.stations i).lq = some b)) =
    if b < priv.lqAllocs then 1 else 0

section Accounts

variable {priv : StaPriv} {id : Fin 16} {e : StationEntry}

theorem stationsInv_init : StationsInv .init where
  count := tally_false.symm
  distinct i j h := Bool.noConfusion h
  lq b := by simp [StaPriv.init, StationEntry.zero]

/-- An update counts for one entry. -/
theorem tally_setEntry (priv : StaPriv) (id : Fin 16) (e : StationEntry) (p : StationEntry → Bool) :
    tally (fun i => p ((priv.setEntry id e).stations i)) + (p (priv.stations id)).toNat =
      tally (fun i => p (priv.stations i)) + (p e).toNat := by
  have hcomp : (fun i => p ((priv.setEntry id e).stations i)) =
      Function.update (fun i => p (priv.stations i)) id (p e) :=
    Function.comp_update p priv.stations id e
  rw [hcomp]
  exact tally_update (fun i => p (priv.stations i)) id (p e)

/-- An entry changes, and the counter and the blocks with it. -/
theorem StationsInv.set (h : StationsInv priv) (id : Fin 16) (e : StationEntry) (n allocs : ℕ)
    (freed : List ℕ)
    (hcount : n + (priv.stations id).used.driverActive.toNat =
      priv.numStations + e.used.driverActive.toNat)
    (hdistinct : e.used.driverActive = true → e.used.bcast = false → ∀ j ≠ id,
      (priv.stations j).used.driverActive = true → (priv.stations j).used.bcast = false →
        (priv.stations j).addr ≠ e.addr)
    (hblock : ∀ b, freed.count b + (decide (e.lq = some b)).toNat +
        (if b < priv.lqAllocs then 1 else 0) =
      priv.lqFreed.count b + (decide ((priv.stations id).lq = some b)).toNat +
        if b < allocs then 1 else 0) :
    StationsInv ⟨(priv.setEntry id e).stations, n, allocs, freed⟩ := by
  constructor
  · have hset := tally_setEntry priv id e fun e => e.used.driverActive
    have hold := h.count
    dsimp only
    omega
  · intro i j hi hj hbi hbj haddr
    have hself : (priv.setEntry id e).stations id = e := Function.update_self ..
    have hother {k : Fin 16} (hk : k ≠ id) : (priv.setEntry id e).stations k = priv.stations k :=
      Function.update_of_ne hk ..
    dsimp only at hi hj hbi hbj haddr
    by_cases hid : i = id
    · by_cases hjd : j = id
      · rw [hid, hjd]
      · rw [hid, hself] at hi hbi haddr
        rw [hother hjd] at hj hbj haddr
        exact absurd haddr.symm (hdistinct hi hbi j hjd hj hbj)
    · rw [hother hid] at hi hbi haddr
      by_cases hjd : j = id
      · rw [hjd, hself] at hj hbj haddr
        exact absurd haddr (hdistinct hj hbj i hid hi hbi)
      · rw [hother hjd] at hj hbj haddr
        exact h.distinct i j hi hj hbi hbj haddr
  · intro b
    have hset := tally_setEntry priv id e fun e => decide (e.lq = some b)
    have hold := h.lq b
    have hnew := hblock b
    dsimp only at hset ⊢
    omega

/-- The address of an active entry is its own. -/
theorem StationsInv.addr_ne (h : StationsInv priv)
    (ha : (priv.stations id).used.driverActive = true)
    (hb : (priv.stations id).used.bcast = false) (j : Fin 16) (hj : j ≠ id)
    (haj : (priv.stations j).used.driverActive = true)
    (hbj : (priv.stations j).used.bcast = false) :
    (priv.stations j).addr ≠ (priv.stations id).addr :=
  fun haddr => hj (h.distinct j id haj ha hbj hb haddr)

/-- The flags of an entry change, but not whether the driver has it. -/
theorem StationsInv.setUsed (h : StationsInv priv) {used : StaUsed}
    (hactive : used.driverActive = (priv.stations id).used.driverActive)
    (hbcast : used.bcast = (priv.stations id).used.bcast) :
    StationsInv (priv.setUsed id used) := by
  refine h.set id { priv.stations id with used := used } priv.numStations priv.lqAllocs
    priv.lqFreed ?_ ?_ fun b => rfl
  · rw [hactive]
  · rw [hactive, hbcast]
    exact h.addr_ne

/-- An entry stops being active, and the counter goes down. -/
theorem StationsInv.release (h : StationsInv priv) {used : StaUsed}
    (hactive : (priv.stations id).used.driverActive = true ∨ priv.numStations = 0)
    (hused : used.driverActive = false) :
    StationsInv { priv.setUsed id used with numStations := priv.numStations - 1 } := by
  refine h.set id { priv.stations id with used := used } (priv.numStations - 1) priv.lqAllocs
    priv.lqFreed ?_ (fun ha => ?_) fun b => rfl
  · have hle := toNat_le_tally (fun i => (priv.stations i).used.driverActive) id
    rw [← h.count] at hle
    rw [hused]
    obtain hactive | hzero := hactive
    · rw [hactive] at hle ⊢
      exact Nat.sub_add_cancel hle
    · rw [hzero] at hle ⊢
      simpa using hle
  · rw [hused] at ha
    cases ha

theorem count_toList (lq : Option ℕ) (b : ℕ) :
    lq.toList.count b = (decide (lq = some b)).toNat := by
  cases lq with
  | none => rfl
  | some k => by_cases hk : k = b <;> simp [hk]

/-- The next block is a new one. -/
theorem ite_lt_succ (n b : ℕ) : (if b < n + 1 then 1 else 0) =
    (decide (some n = some b)).toNat + if b < n then 1 else 0 := by
  rcases Nat.lt_trichotomy b n with hlt | rfl | hgt
  · have hne : ¬n = b := by omega
    simp [hne, hlt, Nat.lt_succ_of_lt hlt]
  · simp
  · have hne : ¬n = b := by omega
    have hge : ¬b < n := by omega
    have hge' : ¬b < n + 1 := by omega
    simp [hne, hge, hge']

/-- The block of an entry is freed. -/
theorem StationsInv.kfree (h : StationsInv priv) (id : Fin 16) :
    StationsInv ((priv.kfree (priv.stations id).lq).setLq id none) := by
  refine h.set id { priv.stations id with lq := none } priv.numStations priv.lqAllocs
    (priv.lqFreed ++ (priv.stations id).lq.toList) rfl h.addr_ne fun b => ?_
  rw [List.count_append, count_toList]
  rfl

/-- An entry without a block gets a new one. -/
theorem StationsInv.newLq (h : StationsInv priv) (hnone : (priv.stations id).lq = none) :
    StationsInv (StaPriv.setLq { priv with lqAllocs := priv.lqAllocs + 1 } id
      (some priv.lqAllocs)) := by
  refine h.set id { priv.stations id with lq := some priv.lqAllocs } priv.numStations
    (priv.lqAllocs + 1) priv.lqFreed rfl h.addr_ne fun b => ?_
  rw [ite_lt_succ, hnone]
  simp [Nat.add_assoc]

/-- The block of an entry is freed, and it gets a new one. -/
theorem StationsInv.swapLq (h : StationsInv priv) :
    StationsInv (StaPriv.setLq { priv with
      lqAllocs := priv.lqAllocs + 1
      lqFreed := priv.lqFreed ++ (priv.stations id).lq.toList } id (some priv.lqAllocs)) := by
  refine h.set id { priv.stations id with lq := some priv.lqAllocs } priv.numStations
    (priv.lqAllocs + 1) (priv.lqFreed ++ (priv.stations id).lq.toList) rfl h.addr_ne fun b => ?_
  rw [ite_lt_succ, List.count_append, count_toList]
  dsimp only
  omega

end Accounts

/-! ## Calls -/

section Calls

variable {priv : StaPriv} {id : Fin 16}

@[simp] theorem stations_setUsed (used : StaUsed) :
    (priv.setUsed id used).stations id = { priv.stations id with used := used } :=
  Function.update_self ..

@[simp] theorem stations_setLq (lq : Option ℕ) :
    (priv.setLq id lq).stations id = { priv.stations id with lq := lq } :=
  Function.update_self ..

@[simp] theorem stations_kfree (lq : Option ℕ) : (priv.kfree lq).stations = priv.stations := rfl

/-- The entries that are for peers, and those that are reserved behind them. -/
def peerIds : List (Fin 16) := [2, 3, 4, 5, 6, 7, 8, 9, 10, 11, 12]

def reservedIds : List (Fin 16) := [13, 14, 15]

theorem finRange_drop_two : (List.finRange 16).drop 2 = peerIds ++ reservedIds := by decide

theorem mem_peerIds {i : Fin 16} : i ∈ peerIds ↔ 2 ≤ i ∧ i < iwlagnMonitorId := by
  revert i
  decide

theorem mem_reservedIds {i : Fin 16} : i ∈ reservedIds ↔ iwlagnMonitorId ≤ i := by
  revert i
  decide

/-- The search gives the entry with the address, and if there is none the first free one. -/
theorem scanStations_eq (stations : Fin 16 → StationEntry) (addr : BitVec 48)
    (is : List (Fin 16)) (found : Option (Fin 16)) : scanStations stations addr is found =
      (is.find? fun i => (stations i).addr = addr).or
        (found.or (is.find? fun i => (stations i).used = .zero)) := by
  induction is generalizing found with
  | nil =>
    rw [scanStations, List.find?_nil, List.find?_nil, Option.or_none, Option.none_or]
  | cons i is ih =>
    by_cases haddr : (stations i).addr = addr
    · simp [scanStations, haddr]
    by_cases hfree : (stations i).used = .zero
    · cases found with
      | none => simp [scanStations, ih, haddr, hfree]
      | some j => simp [scanStations, ih, haddr, hfree]
    · simp [scanStations, ih, haddr, hfree]

/-- A peer gets an entry of its own: it has one, or its address is not in a reserved entry and there
is a free one for peers, unless the reserved entries are taken as well. -/
def PeerHasRoom (stations : Fin 16 → StationEntry) (addr : BitVec 48) : Prop :=
  (∃ i, 2 ≤ i ∧ i < iwlagnMonitorId ∧ (stations i).addr = addr) ∨
    (∀ i ≥ iwlagnMonitorId, (stations i).addr ≠ addr) ∧
      ((∃ i, 2 ≤ i ∧ i < iwlagnMonitorId ∧ (stations i).used = .zero) ∨
        ∀ i ≥ iwlagnMonitorId, (stations i).used ≠ .zero)

/-- The search among the entries for peers and then the reserved ones, by any criterion. -/
theorem find?_peerIds_append (p : Fin 16 → Bool) :
    (∃ i < iwlagnMonitorId, (peerIds ++ reservedIds).find? p = some i ∧
        ∃ j, 2 ≤ j ∧ j < iwlagnMonitorId ∧ p j = true) ∨
      (¬∃ j, 2 ≤ j ∧ j < iwlagnMonitorId ∧ p j = true) ∧
        ((∃ i ≥ iwlagnMonitorId, (peerIds ++ reservedIds).find? p = some i ∧ p i = true) ∨
          (peerIds ++ reservedIds).find? p = none ∧ ∀ i ≥ iwlagnMonitorId, p i = false) := by
  rw [List.find?_append]
  cases hpeer : peerIds.find? p with
  | some i =>
    obtain ⟨hlow, hhigh⟩ := mem_peerIds.1 (List.mem_of_find?_eq_some hpeer)
    exact .inl ⟨i, hhigh, rfl, i, hlow, hhigh, List.find?_some hpeer⟩
  | none =>
    rw [List.find?_eq_none] at hpeer
    refine .inr ⟨fun ⟨j, hlow, hhigh, hj⟩ => hpeer j (mem_peerIds.2 ⟨hlow, hhigh⟩) hj, ?_⟩
    rw [Option.none_or]
    cases hreserved : reservedIds.find? p with
    | some i =>
      exact .inl ⟨i, mem_reservedIds.1 (List.mem_of_find?_eq_some hreserved), rfl,
        List.find?_some hreserved⟩
    | none =>
      rw [List.find?_eq_none] at hreserved
      exact .inr ⟨rfl, fun i hi => Bool.eq_false_iff.2 (hreserved i (mem_reservedIds.2 hi))⟩

/-- The search stays below the reserved entries exactly when the peer gets an entry of its own. -/
theorem scanStations_lt_iff (stations : Fin 16 → StationEntry) (addr : BitVec 48) :
    (∀ id, scanStations stations addr ((List.finRange 16).drop 2) none = some id →
      id < iwlagnMonitorId) ↔ PeerHasRoom stations addr := by
  rw [scanStations_eq, finRange_drop_two, Option.none_or, PeerHasRoom]
  have haddr := find?_peerIds_append fun i => decide ((stations i).addr = addr)
  have hfree := find?_peerIds_append fun i => decide ((stations i).used = .zero)
  simp only [decide_eq_true_eq, decide_eq_false_iff_not] at haddr hfree
  obtain ⟨i, hi, hfind, hown⟩ | ⟨hnone, ⟨i, hi, hfind, hown⟩ | ⟨hfind, hreserved⟩⟩ := haddr
  · rw [hfind, Option.some_or]
    exact iff_of_true (fun id hid => Option.some.inj hid ▸ hi) (.inl hown)
  · rw [hfind, Option.some_or]
    refine iff_of_false (fun h => absurd (h i rfl) (not_lt.2 hi)) ?_
    rintro (hown' | ⟨hother, -⟩)
    · exact hnone hown'
    · exact hother i hi hown
  rw [hfind, Option.none_or]
  obtain ⟨i, hi, hfind, hroom⟩ | ⟨hnoroom, ⟨i, hi, hfind, hroom⟩ | ⟨hfind, hfull⟩⟩ := hfree
  · rw [hfind]
    exact iff_of_true (fun id hid => Option.some.inj hid ▸ hi) (.inr ⟨hreserved, .inl hroom⟩)
  · rw [hfind]
    refine iff_of_false (fun h => absurd (h i rfl) (not_lt.2 hi)) ?_
    rintro (hown | ⟨-, hroom' | hfull⟩)
    · exact hnone hown
    · exact hnoroom hroom'
    · exact hfull i hi hroom
  · rw [hfind]
    exact iff_of_true (fun id hid => by cases hid) (.inr ⟨hreserved, .inr hfull⟩)

/-- When a peer, an access point or a broadcast address can be added: the firmware takes it, its
entry is not active, no other active entry has its address, and a peer gets an entry of its own. -/
def AddOk (priv : StaPriv) (ctx : RxonContextId) (addr : BitVec 48) (isAp : Bool) (fw : FwAnswer) :
    Prop :=
  ∀ id, staIdOf priv ctx addr isAp = some id → alreadyAdded (priv.stations id) addr = false →
    (fw.ret = 0 ∧ fw.success = true) ∧ (priv.stations id).used.driverActive = false ∧
    (∀ j ≠ id, (priv.stations j).used.driverActive = true →
      (priv.stations j).used.bcast = false → (priv.stations j).addr ≠ addr) ∧
    (isAp = false → addr ≠ iwlBcastAddr → addr ≠ iwlMonitorAddr → PeerHasRoom priv.stations addr)

/-- The entry of a peer is below the reserved ones. -/
theorem staIdOf_lt {ctx : RxonContextId} {addr : BitVec 48} (hroom : PeerHasRoom priv.stations addr)
    (hbcast : addr ≠ iwlBcastAddr) (hmonitor : addr ≠ iwlMonitorAddr)
    (hid : staIdOf priv ctx addr false = some id) : id < iwlagnMonitorId := by
  rw [staIdOf, if_neg Bool.false_ne_true, if_neg hbcast, if_neg hmonitor] at hid
  exact (scanStations_lt_iff priv.stations addr).2 hroom id hid

/-- An entry that is there already is not added again. -/
theorem add_alreadyAdded {addr : BitVec 48} (h : alreadyAdded (priv.stations id) addr = true) :
    (priv.stations id).used.ucodeInprogress = true ∨
      ((priv.stations id).used.driverActive && (priv.stations id).used.ucodeActive) = true := by
  rw [alreadyAdded, Bool.or_eq_true, Bool.and_eq_true] at h
  exact h.imp_right And.left

theorem prepEntry_old {ctx : RxonContextId} {addr : BitVec 48}
    (h : alreadyAdded (priv.stations id) addr = true) : prepEntry priv ctx addr id = priv :=
  if_pos h

theorem prepEntry_new {ctx : RxonContextId} {addr : BitVec 48}
    (h : alreadyAdded (priv.stations id) addr = false) : prepEntry priv ctx addr id =
      { priv.setEntry id (prepared (priv.stations id) ctx addr) with
        numStations := priv.numStations + 1 } :=
  if_neg (Bool.eq_false_iff.1 h)

/-- The entry that is left when a station was added. -/
def added (e : StationEntry) (ctx : RxonContextId) (addr : BitVec 48) : StationEntry :=
  { addr := addr, used := ⟨true, true, true, false, false⟩, ctxid := ctx, lq := e.lq }

/-- An addition that the firmware takes. -/
theorem iwlAddStationCommon_added {ctx : RxonContextId} {addr : BitVec 48} {isAp : Bool}
    {fw : FwAnswer} (hid : staIdOf priv ctx addr isAp = some id)
    (hnew : alreadyAdded (priv.stations id) addr = false) (hret : fw.ret = 0)
    (hsuccess : fw.success = true) : iwlAddStationCommon priv ctx addr isAp fw =
      (0, id, { priv.setEntry id (added (priv.stations id) ctx addr) with
        numStations := priv.numStations + 1 }) := by
  rw [iwlAddStationCommon, hid]
  dsimp only
  rw [prepEntry_new hnew]
  simp [StaPriv.setUsed, StaPriv.setEntry, iwlSendAddSta, iwlStaUcodeActivate, hret, hsuccess,
    prepared, StaUsed.zero, added]

theorem iwlAddStationCommon_inv (h : StationsInv priv) {ctx : RxonContextId} {addr : BitVec 48}
    {isAp : Bool} {fw : FwAnswer} (hC : AddOk priv ctx addr isAp fw) :
    StationsInv (iwlAddStationCommon priv ctx addr isAp fw).2.2 ∧
      (isAp = false → addr ≠ iwlBcastAddr → addr ≠ iwlMonitorAddr →
        (iwlAddStationCommon priv ctx addr isAp fw).2.1 < iwlagnMonitorId) := by
  have hzero : (0 : Fin 16) < iwlagnMonitorId := by decide
  cases hid : staIdOf priv ctx addr isAp with
  | none =>
    rw [iwlAddStationCommon, hid]
    exact ⟨h, fun _ _ _ => hzero⟩
  | some id =>
    cases hadded : alreadyAdded (priv.stations id) addr with
    | true =>
      rw [iwlAddStationCommon, hid]
      dsimp only
      rw [prepEntry_old hadded]
      split
      · exact ⟨h, fun _ _ _ => hzero⟩
      rename_i hprogress
      split
      · exact ⟨h, fun _ _ _ => hzero⟩
      rename_i hactive
      exact absurd (add_alreadyAdded hadded) (not_or.2 ⟨hprogress, hactive⟩)
    | false =>
      obtain ⟨⟨hret, hsuccess⟩, hactive, hdistinct, hpeer⟩ := hC id hid hadded
      rw [iwlAddStationCommon_added hid hadded hret hsuccess]
      refine ⟨h.set id (added (priv.stations id) ctx addr) (priv.numStations + 1) priv.lqAllocs
        priv.lqFreed ?_ (fun _ _ => hdistinct) fun b => rfl, fun hpeerAp hbcast hmonitor => ?_⟩
      · rw [hactive]
        rfl
      · subst hpeerAp
        exact staIdOf_lt (hpeer rfl hbcast hmonitor) hbcast hmonitor hid

/-- When a station can be removed: its block is its own to free, or it has none, or it stays. -/
def RemoveOk (priv : StaPriv) (id : Fin 16) (fw : FwAnswer) : Prop :=
  (priv.stations id).used.driverActive = true → (priv.stations id).used.ucodeActive = true →
    fw.ret = 0 → fw.success = true → (priv.stations id).used.isLocal = false →
      (priv.stations id).lq = none

theorem iwlSendRemoveStation_inv (h : StationsInv priv) {fw : FwAnswer}
    (hactive : (priv.stations id).used.driverActive = false)
    (hlq : fw.ret = 0 → fw.success = true → (priv.stations id).lq = none) :
    StationsInv (iwlSendRemoveStation priv id fw).2 := by
  rw [iwlSendRemoveStation]
  split
  · exact h
  rename_i hret
  split
  · rename_i hsuccess
    refine h.set id .zero priv.numStations priv.lqAllocs priv.lqFreed ?_ (fun ha => by cases ha)
      fun b => ?_
    · rw [hactive]
      rfl
    · rw [hlq (not_not.1 hret) hsuccess]
      rfl
  · exact h

theorem iwlRemoveStation_inv (h : StationsInv priv) {fw : FwAnswer} (hC : RemoveOk priv id fw) :
    StationsInv (iwlRemoveStation priv true (some id) fw).2 := by
  rw [iwlRemoveStation]
  split
  · exact h
  rename_i hused
  rw [Bool.or_eq_true, not_or, Bool.not_eq_true', Bool.not_eq_false, Bool.not_eq_true',
    Bool.not_eq_false] at hused
  dsimp only
  split
  · -- the block is freed here
    have hfreed : StationsInv ((priv.kfree (priv.stations id).lq).setLq id none) := h.kfree id
    refine iwlSendRemoveStation_inv (hfreed.release (.inl ?_) rfl) ?_ fun _ _ => ?_
    · simpa using hused.1
    · simp
    · simp
  · rename_i hlocal
    refine iwlSendRemoveStation_inv (h.release (.inl hused.1) rfl) ?_ fun hret hsuccess => ?_
    · simp
    · simpa using hC hused.1 hused.2 hret hsuccess (Bool.eq_false_iff.2 hlocal)

/-- When an entry can be deactivated: it is active, or the counter is 0 already. -/
def DeactivateOk (priv : StaPriv) (id : Fin 16) : Prop :=
  (priv.stations id).used.driverActive = true ∨ priv.numStations = 0

/-- When one of the entries of a broadcast station can be allocated: it is active exactly when it is
there already, and it has no block that a new one would replace. -/
def AllocOk (priv : StaPriv) (addr : BitVec 48) (id : Fin 16) (mem : Bool) : Prop :=
  (priv.stations id).used.driverActive = alreadyAdded (priv.stations id) addr ∧
    (mem = true → (priv.stations id).lq = none)

/-- The flags of a broadcast station. -/
def StaUsed.markBcast (used : StaUsed) : StaUsed :=
  { used with driverActive := true, bcast := true }

/-- The entry is marked as a broadcast station. -/
theorem markBcast_inv (h : StationsInv priv) (ctx : RxonContextId) {addr : BitVec 48}
    (hactive : (priv.stations id).used.driverActive = alreadyAdded (priv.stations id) addr) :
    StationsInv ((prepEntry priv ctx addr id).setUsed id
        ((prepEntry priv ctx addr id).stations id).used.markBcast) ∧
      ((prepEntry priv ctx addr id).stations id).lq = (priv.stations id).lq := by
  cases hadded : alreadyAdded (priv.stations id) addr with
  | true =>
    rw [prepEntry_old hadded]
    refine ⟨?_, rfl⟩
    refine h.set id { priv.stations id with used := (priv.stations id).used.markBcast }
      priv.numStations priv.lqAllocs priv.lqFreed ?_ (fun _ hb => by cases hb) fun b => rfl
    rw [hactive, hadded]
    rfl
  | false =>
    rw [prepEntry_new hadded]
    have hprepared : ({ priv.setEntry id (prepared (priv.stations id) ctx addr) with
        numStations := priv.numStations + 1 } : StaPriv).stations id =
        prepared (priv.stations id) ctx addr := Function.update_self ..
    rw [hprepared]
    refine ⟨?_, rfl⟩
    have hset := h.set id { prepared (priv.stations id) ctx addr with
        used := (prepared (priv.stations id) ctx addr).used.markBcast } (priv.numStations + 1)
      priv.lqAllocs priv.lqFreed (by rw [hactive, hadded]; rfl) (fun _ hb => by cases hb)
      fun b => rfl
    simpa [StaPriv.setUsed, StaPriv.setEntry] using hset

theorem allocBcastEntry_inv (h : StationsInv priv) (ctx : RxonContextId) {addr : BitVec 48}
    {mem : Bool} (hC : AllocOk priv addr id mem) :
    StationsInv (allocBcastEntry priv ctx addr id mem).2 := by
  obtain ⟨hmarked, hlq⟩ := markBcast_inv h ctx hC.1
  rw [allocBcastEntry, iwlStaAllocLq]
  cases mem with
  | false => exact hmarked
  | true =>
    refine hmarked.newLq ?_
    rw [stations_setUsed]
    exact hlq.trans (hC.2 rfl)

/-- Half of an allocation leaves the other entries alone. -/
theorem allocBcastEntry_of_ne (priv : StaPriv) (ctx : RxonContextId) (addr : BitVec 48)
    (mem : Bool) {id j : Fin 16} (hj : j ≠ id) :
    (allocBcastEntry priv ctx addr id mem).2.stations j = priv.stations j := by
  have hprep : (prepEntry priv ctx addr id).stations j = priv.stations j := by
    rw [prepEntry]
    split
    · rfl
    · exact Function.update_of_ne hj ..
  rw [allocBcastEntry, iwlStaAllocLq]
  cases mem with
  | false => exact (Function.update_of_ne hj ..).trans hprep
  | true =>
    exact (Function.update_of_ne hj ..).trans ((Function.update_of_ne hj ..).trans hprep)

theorem allocBcastEntry_fst (priv : StaPriv) (ctx : RxonContextId) (addr : BitVec 48)
    (id : Fin 16) (mem : Bool) :
    (allocBcastEntry priv ctx addr id mem).1 = mem := by
  rw [allocBcastEntry, iwlStaAllocLq]
  cases mem with
  | false => rfl
  | true => rfl

theorem iwlagnAllocBcastStation_inv (h : StationsInv priv) {ctx : RxonContextId}
    {mem memMonitor : Bool} (hC : AllocOk priv iwlBcastAddr ctx.bcastStaId mem)
    (hCm : mem = true → AllocOk priv iwlMonitorAddr iwlagnMonitorId memMonitor) :
    StationsInv (iwlagnAllocBcastStation priv ctx mem memMonitor).2 := by
  have hfirst := allocBcastEntry_inv h ctx hC
  have hne : iwlagnMonitorId ≠ ctx.bcastStaId := by cases ctx <;> decide
  have hother := allocBcastEntry_of_ne priv ctx iwlBcastAddr mem hne
  have hmem := allocBcastEntry_fst priv ctx iwlBcastAddr ctx.bcastStaId mem
  rw [iwlagnAllocBcastStation]
  revert hfirst hother hmem
  obtain ⟨ok, first⟩ := allocBcastEntry priv ctx iwlBcastAddr ctx.bcastStaId mem
  rintro hfirst hother rfl
  cases ok with
  | false => exact hfirst
  | true =>
    have hCm' : AllocOk first iwlMonitorAddr iwlagnMonitorId memMonitor := by
      rw [AllocOk, hother]
      exact hCm rfl
    have hsecond := allocBcastEntry_inv hfirst ctx hCm'
    dsimp only
    revert hsecond
    obtain ⟨ok', second⟩ := allocBcastEntry first ctx iwlMonitorAddr iwlagnMonitorId memMonitor
    intro hsecond
    cases ok' with
    | false => exact hsecond
    | true => exact hsecond

theorem updateBcastEntry_inv (h : StationsInv priv) (id : Fin 16) (mem : Bool) :
    StationsInv (updateBcastEntry priv id mem).2 := by
  rw [updateBcastEntry, iwlStaAllocLq]
  cases mem with
  | false => exact h
  | true => exact h.swapLq

theorem iwlUpdateBcastStation_inv (h : StationsInv priv) (ctx : RxonContextId)
    (mem memMonitor : Bool) : StationsInv (iwlUpdateBcastStation priv ctx mem memMonitor).2 := by
  have hfirst := updateBcastEntry_inv h ctx.bcastStaId mem
  rw [iwlUpdateBcastStation]
  revert hfirst
  obtain ⟨ok, first⟩ := updateBcastEntry priv ctx.bcastStaId mem
  intro hfirst
  cases ok with
  | false => exact hfirst
  | true =>
    have hsecond := updateBcastEntry_inv hfirst iwlagnMonitorId memMonitor
    dsimp only
    revert hsecond
    obtain ⟨ok', second⟩ := updateBcastEntry first iwlagnMonitorId memMonitor
    intro hsecond
    cases ok' with
    | false => exact hsecond
    | true => exact hsecond

end Calls

/-! ## Loops over the table -/

section Loops

variable {priv : StaPriv}

/-- A loop keeps what each of its rounds keeps. -/
theorem foldl_inv {I : StaPriv → Prop} {f : StaPriv → Fin 16 → StaPriv}
    (hround : ∀ priv id, I priv → I (f priv id)) (ids : List (Fin 16)) (h : I priv) :
    I (ids.foldl f priv) := by
  induction ids generalizing priv with
  | nil => exact h
  | cons id ids ih => exact ih (hround priv id h)

theorem iwlClearUcodeStations_inv (h : StationsInv priv) (ctx : Option RxonContextId) :
    StationsInv (iwlClearUcodeStations priv ctx) := by
  refine foldl_inv (fun priv id h => ?_) _ h
  rw [clearUcodeEntry]
  split
  · exact h
  · exact h.setUsed rfl rfl

/-- Whether an entry is restored. -/
def toRestore (ctx : RxonContextId) (e : StationEntry) : Bool :=
  e.used.ucodeInprogress || (e.ctxid = ctx && e.used.driverActive && !e.used.ucodeActive)

/-- When the table can be restored: the firmware takes every active entry that is restored. -/
def RestoreOk (priv : StaPriv) (ctx : RxonContextId) (fw : Fin 16 → FwAnswer) : Prop :=
  ∀ id, toRestore ctx (priv.stations id) = true →
    (priv.stations id).used.driverActive = true → (fw id).ret = 0 ∧ (fw id).success = true

/-- What a round of a loop does to the other entries. -/
theorem forall_setUsed {P : Fin 16 → StationEntry → Prop} {id : Fin 16} {used : StaUsed}
    (h : ∀ j, P j (priv.stations j)) (hid : P id { priv.stations id with used := used })
    (j : Fin 16) : P j ((priv.setUsed id used).stations j) := by
  by_cases hj : j = id
  · subst hj
    rwa [stations_setUsed]
  · have hother : (priv.setUsed id used).stations j = priv.stations j :=
      Function.update_of_ne hj ..
    rw [hother]
    exact h j

theorem markRestored_inv {ctx : RxonContextId} {fw : Fin 16 → FwAnswer} (priv : StaPriv)
    (id : Fin 16) (h : StationsInv priv ∧ RestoreOk priv ctx fw) :
    StationsInv (markRestored ctx priv id) ∧ RestoreOk (markRestored ctx priv id) ctx fw := by
  rw [markRestored]
  split
  · rename_i hmark
    refine ⟨h.1.setUsed rfl rfl, forall_setUsed (P := fun j e => toRestore ctx e = true →
      e.used.driverActive = true → (fw j).ret = 0 ∧ (fw j).success = true) h.2 fun _ hactive => ?_⟩
    exact h.2 id (by simp [toRestore, hmark]) hactive
  · exact h

/-- The firmware takes the active entries that are being added. -/
def InprogressOk (priv : StaPriv) (fw : Fin 16 → FwAnswer) : Prop :=
  ∀ id, (priv.stations id).used.ucodeInprogress = true →
    (priv.stations id).used.driverActive = true → (fw id).ret = 0 ∧ (fw id).success = true

theorem InprogressOk.setUsed {fw : Fin 16 → FwAnswer} {id : Fin 16} (h : InprogressOk priv fw)
    {used : StaUsed} (hid : used.ucodeInprogress = true → used.driverActive = true →
      (fw id).ret = 0 ∧ (fw id).success = true) : InprogressOk (priv.setUsed id used) fw :=
  forall_setUsed (P := fun j e => e.used.ucodeInprogress = true →
    e.used.driverActive = true → (fw j).ret = 0 ∧ (fw j).success = true) h hid

/-- The entry of a failed command was not active. -/
theorem addFailed_inv {fw : Fin 16 → FwAnswer} {id : Fin 16} (h : StationsInv priv)
    (hok : InprogressOk priv fw) (hprogress : (priv.stations id).used.ucodeInprogress = true)
    (hfailed : ¬((fw id).ret = 0 ∧ (fw id).success = true)) :
    StationsInv (addFailed priv id) ∧ InprogressOk (addFailed priv id) fw := by
  have hactive : (priv.stations id).used.driverActive = false :=
    Bool.eq_false_iff.2 fun hactive => hfailed (hok id hprogress hactive)
  exact ⟨h.setUsed hactive.symm rfl, hok.setUsed fun hin => by cases hin⟩

theorem restoreEntry_inv {fw : Fin 16 → FwAnswer} (priv : StaPriv) (id : Fin 16)
    (h : StationsInv priv ∧ InprogressOk priv fw) :
    StationsInv (restoreEntry fw priv id) ∧ InprogressOk (restoreEntry fw priv id) fw := by
  rw [restoreEntry]
  split
  · rename_i hprogress
    by_cases hret : (fw id).ret = 0
    · by_cases hsuccess : (fw id).success = true
      · -- the firmware has the entry now, and then it is no longer being added
        have hsend : iwlSendAddSta priv id (fw id) = (0, iwlStaUcodeActivate priv id) := by
          rw [iwlSendAddSta, if_neg (not_not.2 hret), if_pos hsuccess]
        rw [hsend]
        dsimp only
        rw [if_neg (not_not.2 rfl)]
        have hactivated : StationsInv (iwlStaUcodeActivate priv id) := h.1.setUsed rfl rfl
        have hok : InprogressOk (iwlStaUcodeActivate priv id) fw :=
          h.2.setUsed fun _ _ => ⟨hret, hsuccess⟩
        exact ⟨hactivated.setUsed rfl rfl, hok.setUsed fun hin => by cases hin⟩
      · have hsend : iwlSendAddSta priv id (fw id) = (-eio, priv) := by
          rw [iwlSendAddSta, if_neg (not_not.2 hret), if_neg hsuccess]
        rw [hsend]
        dsimp only
        rw [if_pos (by decide)]
        exact addFailed_inv h.1 h.2 hprogress fun hok => hsuccess hok.2
    · have hsend : iwlSendAddSta priv id (fw id) = ((fw id).ret, priv) := by
        rw [iwlSendAddSta, if_pos hret]
      rw [hsend]
      dsimp only
      rw [if_pos hret]
      exact addFailed_inv h.1 h.2 hprogress fun hok => hret hok.1
  · exact h

theorem iwlRestoreStations_inv (h : StationsInv priv) {ctx : RxonContextId}
    {fw : Fin 16 → FwAnswer} (hC : RestoreOk priv ctx fw) :
    StationsInv (iwlRestoreStations priv true ctx fw) := by
  obtain ⟨hmarked, hok⟩ := foldl_inv (I := fun priv => StationsInv priv ∧ RestoreOk priv ctx fw)
    markRestored_inv (List.finRange 16) ⟨h, hC⟩
  have hrestored := foldl_inv (I := fun priv => StationsInv priv ∧ InprogressOk priv fw)
    restoreEntry_inv (List.finRange 16) ⟨hmarked, fun j hprogress =>
      hok j (by simp [toRestore, hprogress])⟩
  rw [iwlRestoreStations, if_pos rfl]
  exact hrestored.1

/-- When the broadcast stations can be deallocated: there are none, or the counter is 0 already. -/
def DeallocOk (priv : StaPriv) : Prop :=
  (∀ id, (priv.stations id).used.bcast = false) ∨ priv.numStations = 0

theorem deallocBcastEntry_inv (priv : StaPriv) (id : Fin 16)
    (h : StationsInv priv ∧ priv.numStations = 0) :
    StationsInv (deallocBcastEntry priv id) ∧ (deallocBcastEntry priv id).numStations = 0 := by
  have hzero : priv.numStations - 1 = priv.numStations := by rw [h.2]
  rw [deallocBcastEntry]
  split
  · have hcleared : StationsInv { priv.setUsed id { (priv.stations id).used with
        ucodeActive := false } with numStations := priv.numStations - 1 } := by
      rw [hzero]
      exact h.1.setUsed rfl rfl
    have hfreed := hcleared.kfree id
    rw [stations_setUsed] at hfreed
    exact ⟨hfreed, hzero.trans h.2⟩
  · exact h

theorem iwlDeallocBcastStations_inv (h : StationsInv priv) (hC : DeallocOk priv) :
    StationsInv (iwlDeallocBcastStations priv) := by
  obtain hnone | hzero := hC
  · refine (foldl_inv (I := fun priv => StationsInv priv ∧
      ∀ id, (priv.stations id).used.bcast = false) (fun priv id h => ?_) _ ⟨h, hnone⟩).1
    rw [deallocBcastEntry, if_neg (Bool.eq_false_iff.1 (h.2 id))]
    exact h
  · exact (foldl_inv deallocBcastEntry_inv _ ⟨h, hzero⟩).1

end Loops

/-! ## Runs that keep the accounts -/

/-- When a call keeps the accounts of the table. -/
def StaOk (priv : StaPriv) : StaEvent → Prop
  | .add ctx addr isAp fw => AddOk priv ctx addr isAp fw
  | .remove ready id fw => ready = true → ∀ id' ∈ id, RemoveOk priv id' fw
  | .deactivate ready id => ready = true → ∀ id' ∈ id, DeactivateOk priv id'
  | .allocBcast ctx mem memMonitor => AllocOk priv iwlBcastAddr ctx.bcastStaId mem ∧
      (mem = true → AllocOk priv iwlMonitorAddr iwlagnMonitorId memMonitor)
  | .updateBcast _ _ _ => True
  | .clearUcode _ => True
  | .restore ready ctx fw => ready = true → RestoreOk priv ctx fw
  | .deallocBcast => DeallocOk priv

section Runs

variable {priv : StaPriv}

theorem staCall_inv (h : StationsInv priv) {e : StaEvent} (hC : StaOk priv e) :
    StationsInv (staCall priv e) := by
  cases e with
  | add ctx addr isAp fw => exact (iwlAddStationCommon_inv h hC).1
  | remove ready id fw =>
    cases ready with
    | false => exact h
    | true =>
      cases id with
      | none => exact h
      | some id => exact iwlRemoveStation_inv h (hC rfl id rfl)
  | deactivate ready id =>
    cases ready with
    | false => exact h
    | true =>
      cases id with
      | none => exact h
      | some id => exact h.release (hC rfl id rfl) rfl
  | allocBcast ctx mem memMonitor => exact iwlagnAllocBcastStation_inv h hC.1 hC.2
  | updateBcast ctx mem memMonitor => exact iwlUpdateBcastStation_inv h ctx mem memMonitor
  | clearUcode ctx => exact iwlClearUcodeStations_inv h ctx
  | restore ready ctx fw =>
    cases ready with
    | false => exact h
    | true => exact iwlRestoreStations_inv h (hC rfl)
  | deallocBcast => exact iwlDeallocBcastStations_inv h hC

/-- **The station table.** In a run whose calls keep the accounts, the counter is the number of
active entries, active entries other than the broadcast ones have addresses of their own, every
block that was allocated is in the table or freed, once, and peers do not get a reserved entry. -/
theorem station_table (es : List StaEvent) (hC : Lts.Meets staStep StaOk .init es)
    (fs : List StaEvent) (priv : StaPriv) (hfs : fs <+: es)
    (hrun : Lts.exec staStep .init fs = some priv) :
    StationsInv priv ∧ ∀ ctx addr fw, fs ++ [.add ctx addr false fw] <+: es →
      addr ≠ iwlBcastAddr → addr ≠ iwlMonitorAddr →
        (iwlAddStationCommon priv ctx addr false fw).2.1 < iwlagnMonitorId := by
  have hinv : StationsInv priv := by
    refine Lts.exec_invariant staStep (fun s e s' hs he hs' => ?_) stationsInv_init
      (Lts.Meets.initial _ hC hfs) hrun
    obtain rfl := Option.some.inj hs'
    exact staCall_inv hs he
  refine ⟨hinv, fun ctx addr fw he => ?_⟩
  have hlast : Lts.Meets staStep StaOk priv [.add ctx addr false fw] :=
    Lts.Meets.right _ (Lts.Meets.initial _ hC he) hrun
  exact (iwlAddStationCommon_inv hinv hlast.1).2 rfl

/-- The broadcast stations of one context, and a peer. -/
theorem station_table_peer : ∃ priv, Lts.exec staStep .init [.allocBcast .bss true true,
      .add .bss 0x021122334455 false ⟨0, true⟩] = some priv ∧ StationsInv priv := by
  refine ⟨_, rfl, (station_table [.allocBcast .bss true true,
    .add .bss 0x021122334455 false ⟨0, true⟩] ?_ _ _ List.prefix_rfl rfl).1⟩
  refine (Lts.meets_cons_iff _ rfl).2 ⟨⟨⟨rfl, fun _ => rfl⟩, fun _ => ⟨rfl, fun _ => rfl⟩⟩, ?_⟩
  refine (Lts.meets_cons_iff _ rfl).2 ⟨fun id hid _ => ?_, trivial⟩
  have htwo : staIdOf (staCall .init (.allocBcast .bss true true)) .bss 0x021122334455 false =
      some 2 := by decide +kernel
  obtain rfl : 2 = id := Option.some.inj (htwo.symm.trans hid)
  refine ⟨⟨rfl, rfl⟩, rfl, by decide +kernel, fun _ _ _ => .inr ⟨by decide +kernel, .inl ?_⟩⟩
  exact ⟨2, le_rfl, by decide, by decide +kernel⟩

/-- Two contexts: the monitor station is counted twice, and its first block is lost. -/
theorem alloc_bcast_twice : ∃ priv, Lts.exec staStep .init [.allocBcast .bss true true,
      .allocBcast .pan true true] = some priv ∧
    priv.numStations = 4 ∧ (tally fun i => (priv.stations i).used.driverActive) = 3 ∧
    priv.lqFreed = [] ∧ (∀ i, (priv.stations i).lq ≠ some 1) ∧ ¬StationsInv priv := by
  refine ⟨_, rfl, by decide +kernel, by decide +kernel, by decide +kernel, by decide +kernel,
    fun h => ?_⟩
  have hcount := h.count
  revert hcount
  decide +kernel

end Runs

end Iax.Dvm
