import Iax.Tcp.Client

/-!
# The descriptors of the client

Each turn of the reconnect thread assigns what `socket` returns to `sfd_`, and only the destructor
of the client closes `sfd_`. A `Process` is a client with the descriptors that are open and the one
that was connected last.

* `Process.inv_exec`: what holds in every run; so `send` uses the socket connected last
  (`Inv.last_connected`), and every descriptor that was made is open until the end (`Inv.opened`).
* `one_socket_iff`: at most one is open in the runs in which `socket` is called but once.
-/

namespace Iax.Tcp

/-- A client, the descriptors made by `connectServer` that are open, and the one that `connect`
returned success for last. -/
structure Process where
  client : Client
  opened : List ℕ
  connected : Option ℕ
  destroyed : Bool

namespace Process

/-- The process after `connectServer`. -/
def init : Process where
  client := Client.init
  opened := []
  connected := none
  destroyed := false

/-- A step of one of the threads, or the destructor. -/
inductive Act
  | client (a : Tcp.Act)
  | destroy
  deriving DecidableEq

/-- The open descriptors after a step of the client `s`: the new socket is one of them, and the end
of the program closes all. -/
def openedBy (s : Client) (opened : List ℕ) : Tcp.Act → List ℕ
  | .socket true => opened ++ [s.nsock]
  | .socket false | .setsockopt false => []
  | _ => opened

/-- The socket that was connected last, after a step of the client `s`. -/
def connectedBy (s : Client) (connected : Option ℕ) : Tcp.Act → Option ℕ
  | .connect true => s.sfd
  | _ => connected

/-- A step. The main thread runs the destructor, outside of `send`; it closes `sfd_` and ends the
life of the client. -/
def step (p : Process) : Act → Option Process
  | .client a =>
    if p.destroyed then none
    else (p.client.step a).map fun s =>
      { p with
        client := s
        opened := openedBy p.client p.opened a
        connected := connectedBy p.client p.connected a }
  | .destroy =>
    if p.destroyed ∨ p.client.terminated ∨ p.client.sendPc ≠ .idle then none
    else some { p with
      opened := p.opened.filter fun c => p.client.sfd ≠ some c
      destroyed := true }

/-- The socket of the client: at most one is open, and `send` uses the one connected last. -/
structure OneSocket (p : Process) : Prop where
  opened : p.opened.length ≤ 1
  last : ∀ c buf, p.client.sendPc = .loaded c buf → p.connected = some c

/-- The condition on a step: `socket` is called only while `sfd_` has not been assigned. -/
def FirstSocket (p : Process) (a : Act) : Prop :=
  a = .client (.socket true) → p.client.sfd = none

instance (p : Process) (a : Act) : Decidable (p.FirstSocket a) := by
  unfold FirstSocket
  infer_instance

/-! ## The invariant -/

/-- **What a step does.** -/
theorem step_cases {p p' : Process} {a : Act} (h : step p a = some p') :
    (∃ b s, a = .client b ∧ Client.Step p.client b s ∧
      p' = { p with
        client := s
        opened := openedBy p.client p.opened b
        connected := connectedBy p.client p.connected b } ∧
      p.destroyed = false ∧ p.client.terminated = false) ∨
    (a = .destroy ∧
      p' = { p with
        opened := p.opened.filter fun c => p.client.sfd ≠ some c
        destroyed := true }) := by
  cases a with
  | client b =>
    simp only [step, Option.ite_none_left_eq_some, Option.map_eq_some_iff] at h
    obtain ⟨hlive, s, hs, rfl⟩ := h
    have halive : p.client.terminated = false := by
      by_contra hend
      simp [Client.step, hend] at hs
    exact .inl ⟨b, s, rfl, Client.step_cases hs, rfl, by simpa using hlive, halive⟩
  | destroy =>
    simp only [step, Option.ite_none_left_eq_some, Option.some.injEq] at h
    exact .inr ⟨rfl, h.2.symm⟩

/-- Nothing that was made is closed while the client lives, and a published socket is the one that
was connected last. -/
structure Inv (p : Process) : Prop where
  client : p.client.Inv
  opened : p.destroyed = false → p.client.terminated = false →
    p.opened = List.range p.client.nsock
  made : p.client.sfd = none ↔ p.client.nsock = 0
  publish : p.client.reconnPc = .publish → p.connected = p.client.sfd
  connected : p.client.needReconn = false → p.connected = p.client.sfd

theorem inv_init : Inv init where
  client := Client.inv_init
  opened := fun _ _ => rfl
  made := iff_of_true rfl rfl
  publish := by simp [init, Client.init]
  connected := by simp [init, Client.init]

/-- `send` uses the socket that was connected last. -/
theorem Inv.last_connected {p : Process} (hinv : Inv p) {c : ℕ} {buf : Bytes}
    (hpc : p.client.sendPc = .loaded c buf) : p.connected = some c := by
  have hneed := hinv.client.busy (by simp [hpc])
  rw [hinv.connected hneed, hinv.client.loaded c buf hpc]

/-- **One step** keeps the invariant. -/
theorem inv_step {p p' : Process} {a : Act} (hinv : Inv p) (h : step p a = some p') : Inv p' := by
  obtain ⟨b, s, rfl, hstep, rfl, hlive, halive⟩ | ⟨rfl, rfl⟩ := step_cases h
  · have hclient := Client.inv_step hinv.client hstep
    have hopened := hinv.opened hlive halive
    cases hstep with
    | socket hpc =>
      have hneed := hinv.client.needReconn_ne (by simp [hpc]) (by simp [hpc])
      refine ⟨hclient, fun _ _ => ?_, by simp [Client.makeSocket], fun h => (by cases h),
        fun h => absurd h hneed⟩
      simp only [openedBy, hopened, Client.makeSocket, List.range_succ]
    | noSocket | noSetsockopt =>
      exact ⟨hclient, fun _ h => (by cases h), hinv.made, hinv.publish, hinv.connected⟩
    | connect =>
      exact ⟨hclient, fun _ _ => hopened, hinv.made, fun _ => rfl, fun _ => rfl⟩
    | publish hpc =>
      exact ⟨hclient, fun _ _ => hopened, hinv.made, fun h => (by cases h),
        fun _ => hinv.publish hpc⟩
    | setReconn =>
      exact ⟨hclient, fun _ _ => hopened, hinv.made, hinv.publish, fun h => (by cases h)⟩
    | wake | setsockopt | noConnect | slept =>
      exact ⟨hclient, fun _ _ => hopened, hinv.made, fun h => (by cases h), hinv.connected⟩
    | _ => exact ⟨hclient, fun _ _ => hopened, hinv.made, hinv.publish, hinv.connected⟩
  · exact ⟨hinv.client, fun h => (by cases h), hinv.made, hinv.publish, hinv.connected⟩

/-- **The invariant of every run.** -/
theorem inv_exec {p : Process} {acts : List Act} (hrun : Lts.exec step init acts = some p) :
    Inv p := by
  refine Lts.exec_invariant step (I := Inv) (C := fun _ _ => True) ?_ inv_init ?_ hrun
  · exact fun p a p' hinv _ h => inv_step hinv h
  · exact Lts.meets_of_forall step (fun _ _ => trivial) _ _

/-! ## One socket -/

/-- A step that makes no socket opens nothing. -/
theorem length_openedBy_le (s : Client) (opened : List ℕ) {a : Tcp.Act} (ha : a ≠ .socket true) :
    (openedBy s opened a).length ≤ opened.length := by
  unfold openedBy
  split
  · exact absurd rfl ha
  all_goals simp

/-- **One step** from a state with one socket at most leads to another if and only if it makes none
or the first. -/
theorem oneSocket_step_iff {p p' : Process} {a : Act} (hinv : Inv p) (hone : OneSocket p)
    (h : step p a = some p') : OneSocket p' ↔ FirstSocket p a := by
  have hlast : ∀ c buf, p'.client.sendPc = .loaded c buf → p'.connected = some c :=
    fun c buf hpc => (inv_step hinv h).last_connected hpc
  obtain ⟨b, s, rfl, hstep, rfl, hlive, halive⟩ | ⟨rfl, rfl⟩ := step_cases h
  · by_cases hb : b = .socket true
    · subst hb
      have hopened := hinv.opened hlive halive
      constructor
      · rintro ⟨hle, -⟩ -
        simp only [openedBy, hopened, List.length_append, List.length_range,
          List.length_singleton] at hle
        exact hinv.made.2 (by omega)
      · intro hfirst
        have hnone := hinv.made.1 (hfirst rfl)
        exact ⟨by simp [openedBy, hopened, hnone], hlast⟩
    · refine iff_of_true ⟨?_, hlast⟩ fun heq => absurd (Act.client.inj heq) hb
      exact (length_openedBy_le p.client p.opened hb).trans hone.opened
  · refine iff_of_true ⟨?_, hlast⟩ fun heq => by cases heq
    exact (List.length_filter_le ..).trans hone.opened

/-- **At most one socket.** In every state that a run goes through at most one descriptor is open,
and the one that `send` uses was connected last, if and only if the thread calls `socket` only while
`sfd_` has not been assigned: it neither comes back from a failed `connect` nor from a failed
`::send`. -/
theorem one_socket_iff {p : Process} {acts : List Act}
    (hrun : Lts.exec step init acts = some p) :
    (∀ acts' p', acts' <+: acts → Lts.exec step init acts' = some p' → OneSocket p') ↔
      Lts.Meets step FirstSocket init acts := by
  refine Lts.always_iff step (I := Inv) (fun p a p' => inv_step) ?_ inv_init ?_ hrun
  · exact fun p a p' hinv hone h => oneSocket_step_iff hinv hone h
  · exact ⟨by simp [init], by simp [init, Client.init]⟩

/-- A connection, a call of `send` on it, and the destructor. -/
def connectedActs : List Act :=
  ([.wake, .socket true, .setsockopt true, .connect true, .publish, .slept, .send [1], .load] :
    List Tcp.Act).map .client

/-- A connection that fails, and the next turn of the thread. -/
def retryActs : List Act :=
  ([.wake, .socket true, .setsockopt true, .connect false, .slept, .wake, .socket true] :
    List Tcp.Act).map .client

theorem one_socket_iff_connected :
    ∃ p, Lts.exec step init connectedActs = some p ∧ p.client.sendPc = .loaded 0 [1] ∧
      (∀ acts' p', acts' <+: connectedActs → Lts.exec step init acts' = some p' →
        OneSocket p') := by
  have hsome : (Lts.exec step init connectedActs).isSome = true := rfl
  obtain ⟨p, hp⟩ := Option.isSome_iff_exists.1 hsome
  have hpc : (Lts.exec step init connectedActs).map (fun p => p.client.sendPc) =
      some (.loaded 0 [1]) := rfl
  rw [hp, Option.map_some, Option.some.injEq] at hpc
  exact ⟨p, hp, hpc, (one_socket_iff hp).2 (by decide)⟩

/-- **Two sockets**: the one of the failed `connect` is not closed when the thread makes the next. -/
theorem two_sockets :
    ¬ ∀ acts p, Lts.exec step init acts = some p → OneSocket p := by
  intro hall
  have hsome : (Lts.exec step init retryActs).map (fun p => p.opened) = some [0, 1] := rfl
  obtain ⟨p, hp, hopened⟩ := Option.map_eq_some_iff.1 hsome
  have hle := (hall retryActs p hp).opened
  simp [hopened] at hle

end Process

end Iax.Tcp
