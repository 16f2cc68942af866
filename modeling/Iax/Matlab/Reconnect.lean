import Iax.Lib.Lts
import Iax.Matlab.SocketHandler

/-!
# Reconnecting

`socket_handler.m` connects again after a failed connection, an error of its socket, and in a client
when nothing has come for a while. `is_end` tells when it should give up, and only the loop of
`csi_handler_base.read` asks it.

* `Event`, `step`: what happens to a handler, `Call` the calls that are running.
* `Bounded`: it gives up: no connection is tried once `is_end` holds, and no call goes on.
* `always_bounded_iff`: it does so as long as it never asks for a connection after the last one it is
  allowed; what asks for it never looks at `is_end`.
-/

namespace Iax.Matlab

/-- How a handler is made: its type, its timeout in seconds, and the limit. -/
structure SocketConfig where
  isTcp : Bool
  isServer : Bool
  timeout : ℤ
  maxReconnCount : ℕ

/-- The calls of the handler's functions that can be running. -/
inductive Call where
  /-- `reconn`, which is going to try a connection. -/
  | reconn
  /-- `read`, with what is left of its own timeout. -/
  | read (count timeout : ℤ)
  /-- The callbacks for bytes and for datagrams. -/
  | bytesAvaliableFcn
  | datagramsAvailableFcn
  deriving DecidableEq

/-- A `socket_handler`. -/
structure ReconnState where
  reconnCount : ℕ
  /-- There is a socket. -/
  sfd : Bool
  sbuf : Bytes
  /-- The calls that are running, the innermost first. -/
  calls : List Call
  /-- The connections that were tried before `is_end` held. -/
  attempts : ℕ
  /-- Those that were tried when it did. -/
  lateAttempts : ℕ

/-- What happens to a handler. -/
inductive Event where
  /-- `reconn` or `read` is called. -/
  | reconn
  | read (count : ℤ)
  /-- The connection is tried, and it succeeds or fails. -/
  | connected (ok : Bool)
  /-- A second has passed in the loop of `read`. -/
  | pause
  /-- `read` has enough bytes. -/
  | readReturns
  /-- A callback is started. -/
  | available
  /-- It reads from the socket: some bytes, or an error. -/
  | received (result : Option Bytes)
  /-- Nothing more is available to it. -/
  | noneAvailable
  /-- `error_occurred_fcn`. -/
  | errorOccurred
  deriving DecidableEq

namespace ReconnState

section Steps

variable (cfg : SocketConfig)

/-- `is_end`. -/
def isEnd (s : ReconnState) : Bool := s.reconnCount > cfg.maxReconnCount

/-- The beginning of `reconn`, up to its pause. -/
def reconn (s : ReconnState) : ReconnState :=
  { s with reconnCount := s.reconnCount + 1, sfd := false, calls := .reconn :: s.calls }

/-- A connection is tried. -/
def attempted (s : ReconnState) : ReconnState :=
  if s.isEnd cfg then { s with lateAttempts := s.lateAttempts + 1 }
  else { s with attempts := s.attempts + 1 }

/-- Callbacks run when there is a socket, and MATLAB is idle or pauses in `read`. -/
def interruptible (s : ReconnState) : Bool :=
  match s.calls with
  | [] | .read _ _ :: _ => s.sfd
  | _ => false

/-- One step. A call of `reconn` whose connection has failed calls `reconn` and does nothing after
it, so it is left out of the calls. -/
def step (s : ReconnState) : Event → Option ReconnState
  | .reconn => if s.calls = [] then some s.reconn else none
  | .read count =>
    if s.calls = [] then some { s with calls := [.read count cfg.timeout] } else none
  | .connected ok =>
    match s.calls with
    | .reconn :: calls =>
      if ok then some { s.attempted cfg with sfd := true, calls := calls }
      else some { s.attempted cfg with calls := calls }.reconn
    | _ => none
  | .pause =>
    match s.calls with
    | .read count timeout :: calls =>
      if ¬ s.sbuf.length < count then none
      else if cfg.isServer then some s
      else if timeout - 1 < 0 then
        some { s with calls := .read count cfg.timeout :: calls }.reconn
      else some { s with calls := .read count (timeout - 1) :: calls }
    | _ => none
  | .readReturns =>
    match s.calls with
    | .read count _ :: calls =>
      if s.sbuf.length < count then none
      else
        match FileHandler.bufferRead s.sbuf count with
        | .ok (_, sbuf) => some { s with sbuf := sbuf, calls := calls }
        | .error _ => some { s with calls := calls }
    | _ => none
  | .available =>
    if s.interruptible then
      let callback := if cfg.isTcp then Call.bytesAvaliableFcn else Call.datagramsAvailableFcn
      some { s with calls := callback :: s.calls }
    else none
  | .received result =>
    match s.calls, result with
    | .bytesAvaliableFcn :: _, some rbuf => some { s with sbuf := s.sbuf ++ rbuf }
    | .bytesAvaliableFcn :: _, none => some s.reconn
    | .datagramsAvailableFcn :: calls, some rbuf =>
      some { s with sbuf := s.sbuf ++ rbuf, calls := calls }
    | .datagramsAvailableFcn :: calls, none => some { s with calls := calls }.reconn
    | _, _ => none
  | .noneAvailable =>
    match s.calls with
    | .bytesAvaliableFcn :: calls | .datagramsAvailableFcn :: calls =>
      some { s with calls := calls }
    | _ => none
  | .errorOccurred => if s.interruptible then some s.reconn else none

/-- The handler before its constructor calls `reconn`. -/
def init : ReconnState where
  reconnCount := 0
  sfd := false
  sbuf := []
  calls := []
  attempts := 0
  lateAttempts := 0

/-- The constructor. -/
def socketHandler : ReconnState := init.reconn

/-- `reconn` is about to try a connection. -/
def Tries (s : ReconnState) : Prop := ∃ calls, s.calls = .reconn :: calls

/-- `read` is about to wait for more bytes. -/
def Waits (s : ReconnState) : Prop :=
  ∃ count timeout calls, s.calls = .read count timeout :: calls ∧ s.sbuf.length < count

/-- **The handler gives up.** Before `is_end` holds, at most `max_reconn_count` connections are
tried; after that none is, and the call that is running returns. -/
structure Bounded (s : ReconnState) : Prop where
  attempts_le : s.attempts ≤ cfg.maxReconnCount
  lateAttempts_eq : s.lateAttempts = 0
  returns : s.isEnd cfg = true → ¬ s.Tries ∧ ¬ s.Waits

/-- What happens makes the handler ask for a connection. -/
def asksReconn (s : ReconnState) : Event → Bool
  | .reconn | .connected false | .received none | .errorOccurred => true
  | .pause =>
    match s.calls with
    | .read _ timeout :: _ => !cfg.isServer && timeout - 1 < 0
    | _ => false
  | _ => false

/-- The handler asks for a connection only when it has tried fewer than it is allowed. -/
def SpareReconn (s : ReconnState) (e : Event) : Prop :=
  s.asksReconn cfg e = true → s.reconnCount < cfg.maxReconnCount

instance (s : ReconnState) (e : Event) : Decidable (s.SpareReconn cfg e) :=
  inferInstanceAs (Decidable (_ → _))

end Steps

/-! ## What a step does -/

section Inversion

variable {cfg : SocketConfig} {s s' : ReconnState} {e : Event}

/-- The calls of `reconn` that are running. -/
def running (s : ReconnState) : ℕ := s.calls.count .reconn

/-- What has been asked for and tried is the same. -/
structure SameTries (s s' : ReconnState) : Prop where
  reconnCount : s'.reconnCount = s.reconnCount
  running : s'.running = s.running
  attempts : s'.attempts = s.attempts
  lateAttempts : s'.lateAttempts = s.lateAttempts

/-- What a step can do. -/
inductive StepKind (cfg : SocketConfig) (s : ReconnState) (e : Event) (s' : ReconnState) : Prop
  /-- A connection is made. -/
  | connected (calls : List Call) (hcalls : s.calls = .reconn :: calls)
      (hasks : s.asksReconn cfg e = false)
      (heq : s' = { s.attempted cfg with sfd := true, calls := calls })
  /-- A connection fails, and another is asked for. -/
  | failed (calls : List Call) (hcalls : s.calls = .reconn :: calls)
      (hasks : s.asksReconn cfg e = true)
      (heq : s' = { s.attempted cfg with calls := calls }.reconn)
  /-- Something else asks for one. -/
  | asks (htries : ¬ s.Tries) (hasks : s.asksReconn cfg e = true) (s₁ : ReconnState)
      (hsame : SameTries s s₁) (heq : s' = s₁.reconn)
  /-- Nothing is asked for. -/
  | other (htries : ¬ s.Tries) (hasks : s.asksReconn cfg e = false) (hsame : SameTries s s')

theorem SameTries.refl (s : ReconnState) : SameTries s s := ⟨rfl, rfl, rfl, rfl⟩

/-- The calls and the buffer may change, as long as no call of `reconn` begins or ends. -/
theorem sameTries_of_count {sfd : Bool} {sbuf : Bytes} {calls : List Call}
    (h : calls.count .reconn = s.calls.count .reconn) :
    SameTries s { s with sfd := sfd, sbuf := sbuf, calls := calls } := ⟨rfl, h, rfl, rfl⟩

theorem not_tries_of_cons {call : Call} {calls : List Call} (h : s.calls = call :: calls)
    (hne : call ≠ .reconn) : ¬ s.Tries := by
  rintro ⟨calls', h'⟩
  rw [h] at h'
  cases h'
  exact hne rfl

theorem not_tries_of_nil (h : s.calls = []) : ¬ s.Tries := by
  rintro ⟨calls, h'⟩
  rw [h] at h'
  cases h'

theorem not_tries_of_interruptible (h : s.interruptible = true) : ¬ s.Tries := by
  rintro ⟨calls, hcalls⟩
  rw [interruptible, hcalls] at h
  cases h

theorem count_reconn_cons {call : Call} (calls : List Call) (hne : call ≠ .reconn) :
    (call :: calls).count .reconn = calls.count .reconn := List.count_cons_of_ne hne

/-- A call that is not `reconn` ends. -/
theorem sameTries_pop {sbuf : Bytes} {call : Call} {calls : List Call}
    (h : s.calls = call :: calls) (hne : call ≠ .reconn) :
    SameTries s { s with sbuf := sbuf, calls := calls } :=
  sameTries_of_count (by rw [h, count_reconn_cons calls hne])

theorem stepKind_pause (h : step cfg s .pause = some s') : StepKind cfg s .pause s' := by
  rw [step] at h
  split at h
  case h_1 count timeout calls hcalls =>
    have htries := not_tries_of_cons hcalls (by simp)
    have hcount : ∀ t, (Call.read count t :: calls).count .reconn = s.calls.count .reconn := by
      intro t
      rw [hcalls, count_reconn_cons _ (by simp), count_reconn_cons _ (by simp)]
    have hasks : s.asksReconn cfg .pause = (!cfg.isServer && decide (timeout - 1 < 0)) := by
      rw [asksReconn, hcalls]
    split_ifs at h with hwaits hserver htimeout
    · cases h
      exact .other htries (by simp [hasks, hserver]) (.refl s)
    · cases h
      exact .asks htries (by simp [hasks, hserver, htimeout]) _
        (sameTries_of_count (hcount cfg.timeout)) rfl
    · cases h
      exact .other htries (by simp [hasks, htimeout]) (sameTries_of_count (hcount (timeout - 1)))
  case h_2 => cases h

theorem stepKind_received {result : Option Bytes}
    (h : step cfg s (.received result) = some s') : StepKind cfg s (.received result) s' := by
  unfold step at h
  dsimp only at h
  split at h
  case h_1 rbuf calls hcalls =>
    cases h
    exact .other (not_tries_of_cons hcalls (by simp)) rfl (sameTries_of_count rfl)
  case h_2 calls hcalls =>
    cases h
    exact .asks (not_tries_of_cons hcalls (by simp)) rfl s (.refl s) rfl
  case h_3 calls rbuf hcalls =>
    cases h
    exact .other (not_tries_of_cons hcalls (by simp)) rfl (sameTries_pop hcalls (by simp))
  case h_4 calls hcalls =>
    cases h
    exact .asks (not_tries_of_cons hcalls (by simp)) rfl _ (sameTries_pop hcalls (by simp)) rfl
  case h_5 => cases h

theorem step_cases (h : step cfg s e = some s') : StepKind cfg s e s' := by
  cases e with
  | reconn =>
    obtain ⟨hcalls, hs'⟩ := Option.ite_none_right_eq_some.1 h
    cases hs'
    exact .asks (not_tries_of_nil hcalls) rfl s (.refl s) rfl
  | read count =>
    obtain ⟨hcalls, hs'⟩ := Option.ite_none_right_eq_some.1 h
    cases hs'
    refine .other (not_tries_of_nil hcalls) rfl (sameTries_of_count ?_)
    rw [hcalls]
    rfl
  | connected ok =>
    rw [step] at h
    split at h
    case h_1 calls hcalls =>
      cases ok with
      | true =>
        cases h
        exact .connected calls hcalls rfl rfl
      | false =>
        cases h
        exact .failed calls hcalls rfl rfl
    case h_2 => cases h
  | pause => exact stepKind_pause h
  | readReturns =>
    rw [step] at h
    split at h
    case h_1 count timeout calls hcalls =>
      have htries := not_tries_of_cons hcalls (by simp)
      split_ifs at h
      split at h
      · cases h
        exact .other htries rfl (sameTries_pop hcalls (by simp))
      · cases h
        exact .other htries rfl (sameTries_pop hcalls (by simp))
    case h_2 => cases h
  | available =>
    obtain ⟨hpauses, hs'⟩ := Option.ite_none_right_eq_some.1 h
    cases hs'
    refine .other (not_tries_of_interruptible hpauses) rfl (sameTries_of_count ?_)
    exact count_reconn_cons _ (by split <;> simp)
  | received result => exact stepKind_received h
  | noneAvailable =>
    rw [step] at h
    split at h
    case h_1 calls hcalls =>
      cases h
      exact .other (not_tries_of_cons hcalls (by simp)) rfl (sameTries_pop hcalls (by simp))
    case h_2 calls hcalls =>
      cases h
      exact .other (not_tries_of_cons hcalls (by simp)) rfl (sameTries_pop hcalls (by simp))
    case h_3 => cases h
  | errorOccurred =>
    obtain ⟨hpauses, hs'⟩ := Option.ite_none_right_eq_some.1 h
    cases hs'
    exact .asks (not_tries_of_interruptible hpauses) rfl s (.refl s) rfl

theorem attempted_reconnCount (cfg : SocketConfig) (s : ReconnState) :
    (s.attempted cfg).reconnCount = s.reconnCount := by
  unfold attempted
  split <;> rfl

theorem StepKind.reconnCount_eq (h : StepKind cfg s e s') :
    s'.reconnCount = s.reconnCount + if s.asksReconn cfg e = true then 1 else 0 := by
  cases h with
  | connected calls hcalls hasks heq => simp [heq, hasks, attempted_reconnCount]
  | failed calls hcalls hasks heq => simp [heq, hasks, reconn, attempted_reconnCount]
  | asks htries hasks s₁ hsame heq => simp [heq, hasks, reconn, hsame.reconnCount]
  | other htries hasks hsame => simp [hasks, hsame.reconnCount]

end Inversion

/-! ## Runs -/

section Runs

variable {cfg : SocketConfig} {s s' : ReconnState} {e : Event}

/-- What holds in every run. -/
structure Inv (cfg : SocketConfig) (s : ReconnState) : Prop where
  /-- Every connection that was asked for was tried, or `reconn` is still running. -/
  balance : s.attempts + s.lateAttempts + s.running = s.reconnCount
  attempts_le : s.attempts ≤ cfg.maxReconnCount
  late : 0 < s.lateAttempts → cfg.maxReconnCount < s.reconnCount
  /-- When too many were asked for, one of these was tried or is about to be. -/
  shown : cfg.maxReconnCount < s.reconnCount → 0 < s.lateAttempts ∨ s.Tries

theorem inv_socketHandler (cfg : SocketConfig) : Inv cfg socketHandler :=
  ⟨rfl, Nat.zero_le _, fun h => absurd h (Nat.lt_irrefl 0), fun _ => .inr ⟨[], rfl⟩⟩

/-- A connection is tried, by a call of `reconn` that ends or is called again. -/
theorem Inv.attempted (h : Inv cfg s) {calls : List Call} (hcalls : s.calls = .reconn :: calls) :
    (s.attempted cfg).attempts + (s.attempted cfg).lateAttempts + calls.count .reconn =
        s.reconnCount ∧
      (s.attempted cfg).attempts ≤ cfg.maxReconnCount ∧
      (0 < (s.attempted cfg).lateAttempts ↔ cfg.maxReconnCount < s.reconnCount) := by
  have hbalance := h.balance
  have hrunning : s.running = calls.count .reconn + 1 := by
    rw [running, hcalls, List.count_cons_self]
  have hle := h.attempts_le
  have hlate := h.late
  rw [hrunning] at hbalance
  by_cases hend : cfg.maxReconnCount < s.reconnCount
  · have heq : s.attempted cfg = { s with lateAttempts := s.lateAttempts + 1 } :=
      if_pos (decide_eq_true hend)
    rw [heq]
    exact ⟨by dsimp only; omega, hle, iff_of_true (Nat.succ_pos _) hend⟩
  · have heq : s.attempted cfg = { s with attempts := s.attempts + 1 } :=
      if_neg (by rwa [isEnd, decide_eq_true_eq])
    rw [heq]
    exact ⟨by dsimp only; omega, by dsimp only; omega, iff_of_false (fun h => hend (hlate h)) hend⟩

theorem running_reconn (s : ReconnState) : s.reconn.running = s.running + 1 :=
  List.count_cons_self

theorem inv_step (h : Inv cfg s) (hstep : step cfg s e = some s') : Inv cfg s' := by
  have hkind := step_cases hstep
  cases hkind with
  | connected calls hcalls hasks heq =>
    obtain ⟨hbalance, hle, hlate⟩ := h.attempted hcalls
    rw [← attempted_reconnCount cfg s] at hbalance hlate
    rw [heq]
    exact ⟨hbalance, hle, hlate.1, fun hlt => .inl (hlate.2 hlt)⟩
  | failed calls hcalls hasks heq =>
    obtain ⟨hbalance, hle, hlate⟩ := h.attempted hcalls
    rw [← attempted_reconnCount cfg s] at hbalance hlate
    rw [heq]
    refine ⟨?_, hle, fun hpos => (hlate.1 hpos).trans (Nat.lt_succ_self _), fun _ => .inr ⟨_, rfl⟩⟩
    rw [running_reconn]
    exact congrArg (· + 1) hbalance
  | asks htries hasks s₁ hsame heq =>
    have hbalance := h.balance
    have hle := h.attempts_le
    have hlate := h.late
    rw [← hsame.running, ← hsame.attempts, ← hsame.lateAttempts, ← hsame.reconnCount] at hbalance
    rw [← hsame.attempts] at hle
    rw [← hsame.lateAttempts, ← hsame.reconnCount] at hlate
    rw [heq]
    refine ⟨?_, hle, fun hpos => (hlate hpos).trans (Nat.lt_succ_self _), fun _ => .inr ⟨_, rfl⟩⟩
    rw [running_reconn]
    exact congrArg (· + 1) hbalance
  | other htries hasks hsame =>
    obtain ⟨hbalance, hle, hlate, hshown⟩ := h
    rw [← hsame.running, ← hsame.attempts, ← hsame.lateAttempts, ← hsame.reconnCount] at hbalance
    rw [← hsame.attempts] at hle
    rw [← hsame.lateAttempts, ← hsame.reconnCount] at hlate hshown
    exact ⟨hbalance, hle, hlate, fun hlt => .inl ((hshown hlt).resolve_right htries)⟩

theorem Inv.bounded (h : Inv cfg s) (hle : s.reconnCount ≤ cfg.maxReconnCount) :
    s.Bounded cfg := by
  have hend : s.isEnd cfg = false := decide_eq_false (Nat.not_lt.2 hle)
  refine ⟨h.attempts_le, ?_, fun h => ?_⟩
  · by_contra hpos
    exact absurd (h.late (Nat.pos_of_ne_zero hpos)) (Nat.not_lt.2 hle)
  · rw [hend] at h
    cases h

theorem Inv.le_of_bounded (h : Inv cfg s) (hb : s.Bounded cfg) :
    s.reconnCount ≤ cfg.maxReconnCount := by
  by_contra hlt
  rw [not_le] at hlt
  rcases h.shown hlt with hlate | htries
  · rw [hb.lateAttempts_eq] at hlate
    exact absurd hlate (Nat.lt_irrefl 0)
  · exact (hb.returns (decide_eq_true hlt)).1 htries

/-- A handler that gives up so far still does after a step, exactly when the step leaves the limit
alone. -/
theorem bounded_step_iff (h : Inv cfg s) (hb : s.Bounded cfg) (hstep : step cfg s e = some s') :
    s'.Bounded cfg ↔ s.SpareReconn cfg e := by
  have hkind := step_cases hstep
  have hinv := inv_step h hstep
  have hle := h.le_of_bounded hb
  have hcount := hkind.reconnCount_eq
  constructor
  · intro hb' hasks
    have hle' := hinv.le_of_bounded hb'
    rw [hcount, if_pos hasks] at hle'
    exact hle'
  · intro hspare
    apply hinv.bounded
    rw [hcount]
    split
    case isTrue hasks => exact hspare hasks
    case isFalse => exact hle

theorem bounded_socketHandler_iff : socketHandler.Bounded cfg ↔ 0 < cfg.maxReconnCount :=
  ⟨(inv_socketHandler cfg).le_of_bounded, (inv_socketHandler cfg).bounded⟩

/-- **Reconnecting is bounded** in the runs that never ask for a connection when the last one that is
allowed has been asked for, and in no other. -/
theorem always_bounded_iff (cfg : SocketConfig) {s : ReconnState} {es : List Event}
    (hrun : Lts.exec (step cfg) socketHandler es = some s) :
    (∀ ds t, ds <+: es → Lts.exec (step cfg) socketHandler ds = some t → t.Bounded cfg) ↔
      0 < cfg.maxReconnCount ∧ Lts.Meets (step cfg) (SpareReconn cfg) socketHandler es := by
  have hinv := inv_socketHandler cfg
  by_cases hpos : 0 < cfg.maxReconnCount
  · rw [and_iff_right hpos]
    exact Lts.always_iff (step cfg) (I := Inv cfg) (P := Bounded cfg) (C := SpareReconn cfg)
      (fun _ _ _ => inv_step) (fun _ _ _ => bounded_step_iff) hinv
      (bounded_socketHandler_iff.2 hpos) hrun
  · refine iff_of_false (fun hall => ?_) fun h => hpos h.1
    exact hpos (bounded_socketHandler_iff.1 (hall [] socketHandler List.nil_prefix rfl))

/-- A handler waits for four bytes, and gets them after its first connection. -/
def oneRead : List Event :=
  [.connected true, .read 4, .pause, .available, .received (some [0, 2, 187, 1]), .noneAvailable,
    .readReturns]

theorem always_bounded_iff_read : ∃ s,
    Lts.exec (step ⟨true, false, 10, 100⟩) socketHandler oneRead = some s ∧
      s.Bounded ⟨true, false, 10, 100⟩ := by
  obtain ⟨s, hrun⟩ : ∃ s, Lts.exec (step ⟨true, false, 10, 100⟩) socketHandler oneRead = some s :=
    ⟨_, rfl⟩
  have hall := (always_bounded_iff ⟨true, false, 10, 100⟩ hrun).2 (by decide)
  exact ⟨s, hrun, hall _ s List.prefix_rfl hrun⟩

/-- When all connections fail, `reconn` tries one after the other and never returns. -/
theorem exec_failed (cfg : SocketConfig) (n : ℕ) : ∃ s,
    Lts.exec (step cfg) socketHandler (List.replicate n (.connected false)) = some s ∧
      s.reconnCount = n + 1 ∧ s.calls = [.reconn] := by
  induction n with
  | zero => exact ⟨socketHandler, rfl, rfl, rfl⟩
  | succ n ih =>
    obtain ⟨s, hs, hcount, hcalls⟩ := ih
    refine ⟨{ s.attempted cfg with calls := [] }.reconn, ?_, ?_, rfl⟩
    · rw [List.replicate_succ', Lts.exec_append, hs]
      simp [step, hcalls]
    · exact congrArg (· + 1) ((attempted_reconnCount cfg s).trans hcount)

/-- The number of connections that are tried then has no bound. -/
theorem attempts_exec_failed (cfg : SocketConfig) (n : ℕ) : ∃ s,
    Lts.exec (step cfg) socketHandler (List.replicate n (.connected false)) = some s ∧
      s.attempts + s.lateAttempts = n := by
  obtain ⟨s, hs, hcount, hcalls⟩ := exec_failed cfg n
  have hinv : Inv cfg s := Lts.exec_invariant (step cfg) (C := fun _ _ => True)
    (fun _ _ _ hI _ => inv_step hI) (inv_socketHandler cfg)
    (Lts.meets_of_forall _ (fun _ _ => trivial) _ _) hs
  have hbalance := hinv.balance
  rw [running, hcalls, hcount, List.count_singleton_self] at hbalance
  exact ⟨s, hs, by omega⟩

/-- A client with the limit of the source. After a hundred failures `is_end` holds, and `reconn`
tries the next connection. -/
theorem not_bounded_hundred_failures : ∃ s,
    Lts.exec (step ⟨true, false, 10, 100⟩) socketHandler
        (List.replicate 100 (.connected false)) = some s ∧
      s.isEnd ⟨true, false, 10, 100⟩ = true ∧ s.Tries ∧ ¬ s.Bounded ⟨true, false, 10, 100⟩ := by
  obtain ⟨s, hs, hcount, hcalls⟩ := exec_failed ⟨true, false, 10, 100⟩ 100
  have hend : s.isEnd ⟨true, false, 10, 100⟩ = true := by
    rw [isEnd, hcount]
    decide
  have htries : s.Tries := ⟨[], hcalls⟩
  exact ⟨s, hs, hend, htries, fun hb => (hb.returns hend).1 htries⟩

end Runs

end ReconnState

end Iax.Matlab
