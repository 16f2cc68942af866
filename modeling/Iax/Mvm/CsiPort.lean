import Iax.Lib.Lts
import Mathlib.Logic.Function.Basic

/-!
# The port that CSI events go to

`csi_portid` (`mvm/vendor-cmd.c`) is the port that has registered for CSI events. A registration
writes it; when a port is released, a notifier compares it and clears it, in two accesses under a
lock that registrations do not take; and every event reads it twice, once to see that there is a port
and once to address the message.

* `CsiPort.step`: the accesses, one after the other, of any number of emissions.
* `Lawful`: every event was addressed to a port that is registered, and no release cancelled the
  registration of another port.
* `csi_port_iff`: the runs that are lawful, by what comes between two accesses.
-/

namespace Iax.Mvm

/-- A netlink port. No socket has the port `0`. -/
abbrev PortId := BitVec 32

/-- The registrations since the comparison of the notifier that is going to clear the port. -/
inductive Since where
  | none
  /-- The last one was by the port that is released, or by port `0`. -/
  | renewed
  /-- The last one was by another port. -/
  | overtaken
  deriving DecidableEq

/-- `csi_portid`, the accesses that are still to come, and a record of what has happened. -/
structure CsiPort where
  csiPortid : PortId
  /-- The notifier that has found its port and holds the lock. -/
  notifier : Option (PortId × Since)
  /-- The emissions that have passed their test, and whether the port has been cleared since, with no
  registration after that. -/
  checked : ℕ → Option Bool
  /-- The ports that have registered and were not released after it. -/
  live : PortId → Bool
  /-- The ports that events were addressed to, and whether they were live. -/
  events : List (PortId × Bool)
  /-- The ports that were released, with the registration of another port that this cancelled. -/
  cancelled : List (PortId × PortId)

/-- An access to `csi_portid`. -/
inductive PortAct where
  /-- `iwl_mvm_vendor_csi_register`. -/
  | register (portid : PortId)
  /-- `iwl_mvm_netlink_notifier`, when the port is released: the comparison, and what follows it. -/
  | compare (portid : PortId)
  | clear
  /-- `iwl_mvm_send_csi_event`: the test, and the allocation, which may fail. -/
  | check (e : ℕ)
  | alloc (e : ℕ) (ok : Bool)
  deriving DecidableEq

namespace CsiPort

/-- Before any registration. -/
def init : CsiPort where
  csiPortid := 0
  notifier := none
  checked := fun _ => none
  live := fun _ => false
  events := []
  cancelled := []

/-- A value is written to `csi_portid`. -/
def write (s : CsiPort) (portid : PortId) : CsiPort :=
  { s with
    csiPortid := portid
    checked := fun e => (s.checked e).map fun _ => portid == 0 }

/-- One access. -/
def step (s : CsiPort) : PortAct → Option CsiPort
  | .register portid =>
    some { s.write portid with
      live := Function.update s.live portid true
      notifier := s.notifier.map fun n =>
        (n.1, if portid = n.1 ∨ portid = 0 then .renewed else .overtaken) }
  | .compare portid =>
    if s.notifier.isSome then none
    else some { s with
      live := Function.update s.live portid false
      notifier := if s.csiPortid = portid then some (portid, .none) else none }
  | .clear =>
    match s.notifier with
    | none => none
    | some (portid, _) =>
      some { s.write 0 with
        notifier := none
        cancelled := if s.csiPortid ≠ portid ∧ s.csiPortid ≠ 0 then
          (portid, s.csiPortid) :: s.cancelled else s.cancelled }
  | .check e =>
    if (s.checked e).isSome then none
    else if s.csiPortid = 0 then some s
    else some { s with checked := Function.update s.checked e (some false) }
  | .alloc e ok =>
    if (s.checked e).isSome then
      some { s with
        checked := Function.update s.checked e none
        events := if ok then (s.csiPortid, s.live s.csiPortid) :: s.events else s.events }
    else none

/-- **Events go to a live registrant only**, and a release cancels no registration of another
port. -/
structure Lawful (s : CsiPort) : Prop where
  addressed : ∀ ev ∈ s.events, ev.1 ≠ 0 ∧ ev.2 = true
  kept : s.cancelled = []

/-- What an access has to meet. An event is not built when the port was cleared after the test, nor
while a notifier is about to clear it; and no other port has registered when a notifier clears
it. -/
def Undisturbed (s : CsiPort) : PortAct → Prop
  | .alloc e true => s.checked e ≠ some true ∧ s.notifier.map Prod.snd ≠ some .none
  | .clear => s.notifier.map Prod.snd ≠ some .overtaken
  | _ => True

instance (s : CsiPort) : ∀ a : PortAct, Decidable (s.Undisturbed a)
  | .alloc e true =>
    inferInstanceAs (Decidable (s.checked e ≠ some true ∧ s.notifier.map Prod.snd ≠ some .none))
  | .clear => inferInstanceAs (Decidable (s.notifier.map Prod.snd ≠ some .overtaken))
  | .alloc _ false | .register _ | .compare _ | .check _ => isTrue trivial

/-! ## Runs -/

section Runs

variable {s s' : CsiPort} {a : PortAct} {portid : PortId}

/-- What the record says about `csi_portid`. -/
structure Inv (s : CsiPort) : Prop where
  /-- The port that is stored is live, unless its release has begun. -/
  live_iff : s.csiPortid ≠ 0 →
    (s.live s.csiPortid = true ↔ s.notifier.map Prod.snd ≠ some .none)
  overtaken_iff : ∀ p b, s.notifier = some (p, b) →
    (b = .overtaken ↔ s.csiPortid ≠ p ∧ s.csiPortid ≠ 0)
  cleared_iff : ∀ e c, s.checked e = some c → (c = true ↔ s.csiPortid = 0)

theorem inv_init : Inv init where
  live_iff h := absurd rfl h
  overtaken_iff _ _ h := by cases h
  cleared_iff _ _ h := by cases h

/-- A write brings the emissions up to date. -/
theorem cleared_iff_write (s : CsiPort) (portid : PortId) (e : ℕ) (c : Bool)
    (h : (s.write portid).checked e = some c) : c = true ↔ portid = 0 := by
  obtain ⟨c', -, rfl⟩ := Option.map_eq_some_iff.1 h
  exact beq_iff_eq

theorem inv_register (hstep : step s (.register portid) = some s') : Inv s' := by
  cases hstep
  refine ⟨fun _ => ?_, fun p b hn => ?_, cleared_iff_write s portid⟩
  · refine iff_of_true (Function.update_self ..) fun hnone => ?_
    obtain ⟨n, hn, hsince⟩ := Option.map_eq_some_iff.1 hnone
    obtain ⟨n', -, rfl⟩ := Option.map_eq_some_iff.1 hn
    dsimp only at hsince
    split at hsince <;> cases hsince
  · obtain ⟨n', -, hn'⟩ := Option.map_eq_some_iff.1 hn
    cases hn'
    by_cases hsame : portid = n'.1 ∨ portid = 0
    · rw [if_pos hsame]
      exact iff_of_false (by decide) fun hne => hsame.elim hne.1 hne.2
    · rw [if_neg hsame]
      exact iff_of_true rfl (not_or.1 hsame)

theorem Inv.compare (h : Inv s) (hstep : step s (.compare portid) = some s') : Inv s' := by
  obtain ⟨hlock, hs'⟩ := Option.ite_none_left_eq_some.1 hstep
  rw [Option.isSome_iff_ne_none, not_not] at hlock
  cases hs'
  by_cases hsame : s.csiPortid = portid
  · subst hsame
    refine ⟨fun _ => ?_, fun p b hn => ?_, h.cleared_iff⟩
    · rw [if_pos rfl]
      exact iff_of_false (by simp) (by simp)
    · rw [if_pos rfl] at hn
      cases hn
      exact iff_of_false (by decide) fun hne => hne.1 rfl
  · refine ⟨fun hne => ?_, fun p b hn => ?_, h.cleared_iff⟩
    · rw [if_neg hsame]
      refine iff_of_true ?_ (by simp)
      have hlive := (h.live_iff hne).2 (by simp [hlock])
      dsimp only
      rwa [Function.update_of_ne hsame]
    · rw [if_neg hsame] at hn
      cases hn

/-- An emission passes its test, or ends. -/
theorem Inv.setChecked (h : Inv s) (e : ℕ) {v : Option Bool}
    (hv : ∀ c, v = some c → (c = true ↔ s.csiPortid = 0)) (events : List (PortId × Bool)) :
    Inv { s with checked := Function.update s.checked e v, events := events } := by
  refine ⟨h.live_iff, h.overtaken_iff, fun e' c hc => ?_⟩
  dsimp only at hc
  rcases eq_or_ne e' e with rfl | he
  · rw [Function.update_self] at hc
    exact hv c hc
  · rw [Function.update_of_ne he] at hc
    exact h.cleared_iff e' c hc

theorem inv_step (h : Inv s) (hstep : step s a = some s') : Inv s' := by
  cases a with
  | register portid => exact inv_register hstep
  | compare portid => exact h.compare hstep
  | clear =>
    rw [step] at hstep
    split at hstep
    case h_1 => cases hstep
    case h_2 p b hn =>
      cases hstep
      exact ⟨fun hne => absurd rfl hne, fun _ _ hn => (by cases hn), cleared_iff_write s 0⟩
  | check e =>
    obtain ⟨-, hs'⟩ := Option.ite_none_left_eq_some.1 hstep
    split at hs'
    case isTrue =>
      cases hs'
      exact h
    case isFalse hne =>
      cases hs'
      refine h.setChecked e (fun c hc => ?_) s.events
      cases hc
      exact iff_of_false (by decide) hne
  | alloc e ok =>
    obtain ⟨-, hs'⟩ := Option.ite_none_right_eq_some.1 hstep
    cases hs'
    refine h.setChecked e (fun c hc => ?_) _
    cases hc

/-- The emission that is about to build a message finds a live port exactly when nothing has come in
between. -/
theorem Inv.addressed_iff (h : Inv s) {e : ℕ} (he : (s.checked e).isSome) :
    s.csiPortid ≠ 0 ∧ s.live s.csiPortid = true ↔ s.Undisturbed (.alloc e true) := by
  obtain ⟨c, hc⟩ := Option.isSome_iff_exists.1 he
  have hcleared : s.checked e ≠ some true ↔ s.csiPortid ≠ 0 := by
    rw [hc, ne_eq, Option.some.injEq, h.cleared_iff e c hc]
  rw [Undisturbed, hcleared]
  exact and_congr_right fun hne => h.live_iff hne

/-- The notifier that is about to clear the port cancels a registration exactly when another port has
overtaken it. -/
theorem Inv.kept_iff (h : Inv s) {p : PortId} {b : Since} (hn : s.notifier = some (p, b)) :
    ¬ (s.csiPortid ≠ p ∧ s.csiPortid ≠ 0) ↔ s.Undisturbed .clear := by
  rw [← h.overtaken_iff p b hn, Undisturbed, hn]
  simp

/-- An access that sends and cancels nothing. -/
theorem lawful_congr (hevents : s'.events = s.events) (hcancelled : s'.cancelled = s.cancelled)
    (hfree : s.Undisturbed a) : s'.Lawful ↔ s.Lawful ∧ s.Undisturbed a := by
  rw [and_iff_left hfree]
  constructor
  · exact fun hl => ⟨hevents ▸ hl.addressed, hcancelled ▸ hl.kept⟩
  · exact fun hl => ⟨hevents ▸ hl.addressed, hcancelled ▸ hl.kept⟩

theorem lawful_step_iff (h : Inv s) (hstep : step s a = some s') :
    s'.Lawful ↔ s.Lawful ∧ s.Undisturbed a := by
  cases a with
  | register portid =>
    cases hstep
    exact lawful_congr rfl rfl trivial
  | compare portid =>
    obtain ⟨-, hs'⟩ := Option.ite_none_left_eq_some.1 hstep
    cases hs'
    exact lawful_congr rfl rfl trivial
  | clear =>
    rw [step] at hstep
    split at hstep
    case h_1 => cases hstep
    case h_2 p b hn =>
      cases hstep
      rw [← h.kept_iff hn]
      constructor
      · intro hl
        have hkept := hl.kept
        dsimp only at hkept
        split at hkept
        case isTrue => cases hkept
        case isFalse hout => exact ⟨⟨hl.addressed, hkept⟩, hout⟩
      · rintro ⟨hl, hout⟩
        refine ⟨hl.addressed, ?_⟩
        dsimp only
        rw [if_neg hout, hl.kept]
  | check e =>
    obtain ⟨-, hs'⟩ := Option.ite_none_left_eq_some.1 hstep
    split at hs'
    case isTrue =>
      cases hs'
      exact (and_iff_left trivial).symm
    case isFalse =>
      cases hs'
      exact lawful_congr rfl rfl trivial
  | alloc e ok =>
    obtain ⟨he, hs'⟩ := Option.ite_none_right_eq_some.1 hstep
    cases hs'
    cases ok with
    | false =>
      exact lawful_congr rfl rfl trivial
    | true =>
      rw [← h.addressed_iff he]
      constructor
      · intro hl
        obtain ⟨hev, hevs⟩ := List.forall_mem_cons.1 hl.addressed
        exact ⟨⟨hevs, hl.kept⟩, hev⟩
      · rintro ⟨hl, hev⟩
        exact ⟨List.forall_mem_cons.2 ⟨hev, hl.addressed⟩, hl.kept⟩

/-- **The runs that are lawful** are those in which nothing comes between two accesses that should
not. -/
theorem csi_port_iff {as : List PortAct} (hrun : Lts.exec step init as = some s) :
    s.Lawful ↔ Lts.Meets step Undisturbed init as := by
  have hlawful : init.Lawful := ⟨fun _ h => (List.not_mem_nil h).elim, rfl⟩
  have hiff := Lts.exec_iff step (I := Inv) (P := Lawful) (C := Undisturbed)
    (fun _ _ _ => inv_step) (fun _ _ _ => lawful_step_iff) inv_init hrun
  rw [hiff, and_iff_right hlawful]

/-- Port `7` registers, gets an event, and is released. -/
def oneEvent : List PortAct := [.register 7#32, .check 0, .alloc 0 true, .compare 7#32, .clear]

theorem csi_port_iff_registered : ∃ s, Lts.exec step init oneEvent = some s ∧ s.Lawful := by
  obtain ⟨s, hrun⟩ : ∃ s, Lts.exec step init oneEvent = some s := ⟨_, rfl⟩
  exact ⟨s, hrun, (csi_port_iff hrun).2 (by decide)⟩

/-- Two runs that are not lawful. An event for the port `0` is built when port `7` is released
between the test and the allocation; and the release of port `7` cancels the registration of
port `9`. -/
theorem not_lawful_interleaved :
    (∃ s, Lts.exec step init [.register 7#32, .check 0, .compare 7#32, .clear, .alloc 0 true] =
        some s ∧ s.events = [(0, false)] ∧ ¬ s.Lawful) ∧
      ∃ s, Lts.exec step init [.register 7#32, .compare 7#32, .register 9#32, .clear] = some s ∧
        s.cancelled = [(7#32, 9#32)] ∧ ¬ s.Lawful := by
  refine ⟨⟨_, rfl, rfl, fun h => ?_⟩, ⟨_, rfl, rfl, fun h => ?_⟩⟩
  · exact (h.addressed _ List.mem_cons_self).1 rfl
  · exact absurd h.kept (List.cons_ne_nil _ _)

end Runs

end CsiPort

end Iax.Mvm
