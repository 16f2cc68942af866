import Mathlib.Logic.Function.Basic
import Iax.Lib.Bytes
import Iax.Lib.Lts

/-!
# The TCP client and its two threads

`tcp_client.h`, of `iaxcsi` and of `incsi` alike: the main thread calls `send`, the reconnect thread
makes a new socket whenever `needReconn_` is set. The two share `needReconn_` and `sfd_`. A run
interleaves the accesses to these and the socket calls of both threads, with any outcome of each
socket call.

* `Client.Inv` holds in every state that is reached: while the main thread is inside `send`, the
  reconnect thread waits or sleeps, so that `sfd_` is the socket that was connected last.
* `inv_step`, `inv_exec`: a step and a run keep it.
* `last_ne_failed`: so nothing is sent on a connection again on which a send has failed.

How long the reconnect thread sleeps is left open, as is the end of the program.
-/

namespace Iax.Tcp

/-- Where the main thread is inside `send`, from the test of `needReconn_` on. -/
inductive SendPc
  | idle
  | checked (buf : Bytes)
  | loaded (sfd : ℕ) (buf : Bytes)
  | failed
  deriving DecidableEq

/-- The buffer that `send` still has to pass to `::send`. -/
def SendPc.pending : SendPc → List Bytes
  | .checked buf => [buf]
  | .loaded _ buf => [buf]
  | .idle => []
  | .failed => []

/-- Where the reconnect thread is: before the statement of that name. -/
inductive ReconnPc
  | wait
  | socket
  | setsockopt
  | connect
  | publish
  | sleep
  deriving DecidableEq

/-- How a `::send` ended: it took all of its buffer or a part, or returned an error. -/
inductive Outcome
  | whole
  | short
  | failed
  deriving DecidableEq

/-- A socket: the bytes that it has taken, and the outcome of the last `::send` on it. -/
structure Sock where
  taken : Bytes
  last : Option Outcome

/-- The client, its two threads, and what there is to say about its sockets: they are numbered as
they are made. `calls` are the buffers passed to `send` so far. -/
structure Client where
  needReconn : Bool
  sfd : Option ℕ
  sendPc : SendPc
  reconnPc : ReconnPc
  terminated : Bool
  nsock : ℕ
  socks : ℕ → Sock
  calls : List Bytes

/-- The client after `connectServer`. -/
def Client.init : Client where
  needReconn := true
  sfd := none
  sendPc := .idle
  reconnPc := .wait
  terminated := false
  nsock := 0
  socks := fun _ => ⟨[], none⟩
  calls := []

/-- The steps of the two threads. -/
inductive Act
  /-- `send` is called and tests `needReconn_`. -/
  | send (buf : Bytes)
  /-- `sfd_` is read for `::send`. -/
  | load
  /-- `::send` returns a count or, as `none`, an error. -/
  | sysSend (ret : Option ℕ)
  /-- `needReconn_` is set under the lock, and the reconnect thread is notified. -/
  | setReconn
  /-- `cv_.wait` returns. -/
  | wake
  | socket (ok : Bool)
  | setsockopt (ok : Bool)
  | connect (ok : Bool)
  /-- `needReconn_` is cleared. -/
  | publish
  /-- `sleep_for` returns. -/
  | slept
  deriving DecidableEq

/-- The actions of the reconnect thread. -/
def Act.isReconn : Act → Bool
  | .send _ | .load | .sysSend _ | .setReconn => false
  | .wake | .socket _ | .setsockopt _ | .connect _ | .publish | .slept => true

namespace Client

/-- `send` up to the test. -/
def sendCall (s : Client) (buf : Bytes) : Client :=
  { s with sendPc := if s.needReconn then .idle else .checked buf, calls := s.calls ++ [buf] }

/-- `::send` took `k` bytes. -/
def took (s : Client) (c : ℕ) (buf : Bytes) (k : ℕ) : Client :=
  { s with
    sendPc := .idle
    socks := Function.update s.socks c
      ⟨(s.socks c).taken ++ buf.take k, some (if k = buf.length then .whole else .short)⟩ }

/-- `::send` returned an error. -/
def failed (s : Client) (c : ℕ) : Client :=
  { s with
    sendPc := .failed
    socks := Function.update s.socks c ⟨(s.socks c).taken, some .failed⟩ }

/-- `::send` and the test of its result: a count smaller than the size passes it like the size. -/
def sysSend (s : Client) (c : ℕ) (buf : Bytes) : Option ℕ → Option Client
  | some k => if k ≤ buf.length ∧ (buf ≠ [] → 0 < k) then some (s.took c buf k) else none
  | none => some (s.failed c)

/-- `socket` returned a new socket, which is assigned to `sfd_`. -/
def makeSocket (s : Client) : Client :=
  { s with sfd := some s.nsock, nsock := s.nsock + 1, reconnPc := .setsockopt }

/-- A step of the program. An exception in the reconnect thread ends it. -/
def step (s : Client) (a : Act) : Option Client :=
  if s.terminated then none
  else match a, s.sendPc, s.reconnPc with
    | .send buf, .idle, _ => some (s.sendCall buf)
    | .load, .checked buf, _ => s.sfd.map fun c => { s with sendPc := .loaded c buf }
    | .sysSend ret, .loaded c buf, _ => s.sysSend c buf ret
    | .setReconn, .failed, _ => some { s with needReconn := true, sendPc := .idle }
    | .wake, _, .wait => if s.needReconn then some { s with reconnPc := .socket } else none
    | .socket true, _, .socket => some s.makeSocket
    | .socket false, _, .socket => some { s with terminated := true }
    | .setsockopt true, _, .setsockopt => some { s with reconnPc := .connect }
    | .setsockopt false, _, .setsockopt => some { s with terminated := true }
    | .connect true, _, .connect => some { s with reconnPc := .publish }
    | .connect false, _, .connect => some { s with reconnPc := .sleep }
    | .publish, _, .publish => some { s with needReconn := false, reconnPc := .sleep }
    | .slept, _, .sleep => some { s with reconnPc := .wait }
    | _, _, _ => none

/-! ## Steps -/

/-- The steps, as a relation: one rule for each way that a statement can go. -/
inductive Step (s : Client) : Act → Client → Prop
  | send (buf : Bytes) : s.sendPc = .idle → Step s (.send buf) (s.sendCall buf)
  | load {c : ℕ} {buf : Bytes} : s.sendPc = .checked buf → s.sfd = some c →
      Step s .load { s with sendPc := .loaded c buf }
  | took {c : ℕ} {buf : Bytes} {k : ℕ} : s.sendPc = .loaded c buf → k ≤ buf.length →
      (buf ≠ [] → 0 < k) → Step s (.sysSend (some k)) (s.took c buf k)
  | failed {c : ℕ} {buf : Bytes} : s.sendPc = .loaded c buf →
      Step s (.sysSend none) (s.failed c)
  | setReconn : s.sendPc = .failed →
      Step s .setReconn { s with needReconn := true, sendPc := .idle }
  | wake : s.reconnPc = .wait → s.needReconn = true → Step s .wake { s with reconnPc := .socket }
  | socket : s.reconnPc = .socket → Step s (.socket true) s.makeSocket
  | noSocket : s.reconnPc = .socket → Step s (.socket false) { s with terminated := true }
  | setsockopt : s.reconnPc = .setsockopt →
      Step s (.setsockopt true) { s with reconnPc := .connect }
  | noSetsockopt : s.reconnPc = .setsockopt →
      Step s (.setsockopt false) { s with terminated := true }
  | connect : s.reconnPc = .connect → Step s (.connect true) { s with reconnPc := .publish }
  | noConnect : s.reconnPc = .connect → Step s (.connect false) { s with reconnPc := .sleep }
  | publish : s.reconnPc = .publish →
      Step s .publish { s with needReconn := false, reconnPc := .sleep }
  | slept : s.reconnPc = .sleep → Step s .slept { s with reconnPc := .wait }

/-- **What a step does**, by the action. -/
theorem step_cases {s s' : Client} {a : Act} (h : step s a = some s') : Step s a s' := by
  unfold step at h
  split at h
  · cases h
  · split at h
    case h_1 _ _ buf hpc => cases h; exact .send buf hpc
    case h_2 _ _ buf hpc =>
      obtain ⟨c, hc, rfl⟩ := Option.map_eq_some_iff.1 h
      exact .load hpc hc
    case h_3 _ _ ret c buf hpc =>
      cases ret with
      | none =>
        cases h
        exact .failed hpc
      | some k =>
        simp only [sysSend, Option.ite_none_right_eq_some, Option.some.injEq] at h
        obtain ⟨⟨hk, hpos⟩, rfl⟩ := h
        exact .took hpc hk hpos
    case h_4 _ _ hpc => cases h; exact .setReconn hpc
    case h_5 _ _ hpc =>
      simp only [Option.ite_none_right_eq_some, Option.some.injEq] at h
      obtain ⟨hneed, rfl⟩ := h
      exact .wake hpc hneed
    case h_6 _ _ hpc => cases h; exact .socket hpc
    case h_7 _ _ hpc => cases h; exact .noSocket hpc
    case h_8 _ _ hpc => cases h; exact .setsockopt hpc
    case h_9 _ _ hpc => cases h; exact .noSetsockopt hpc
    case h_10 _ _ hpc => cases h; exact .connect hpc
    case h_11 _ _ hpc => cases h; exact .noConnect hpc
    case h_12 _ _ hpc => cases h; exact .publish hpc
    case h_13 _ _ hpc => cases h; exact .slept hpc
    case h_14 => cases h

/-! ## The two threads -/

/-- The threads do not meet: while the main thread is inside `send`, the reconnect thread waits or
sleeps. `fresh` is about the thread on its way to publish a socket, `retired` about a connection on
which a send has failed. -/
structure Inv (s : Client) : Prop where
  busy : s.sendPc ≠ .idle → s.needReconn = false
  quiet : s.needReconn = false → s.reconnPc = .wait ∨ s.reconnPc = .sleep
  loaded : ∀ c buf, s.sendPc = .loaded c buf → s.sfd = some c
  known : ∀ c, s.nsock ≤ c → s.socks c = ⟨[], none⟩ ∧ s.sfd ≠ some c
  fresh : s.reconnPc = .setsockopt ∨ s.reconnPc = .connect ∨ s.reconnPc = .publish →
    ∃ c, s.sfd = some c ∧ s.socks c = ⟨[], none⟩
  retired : ∀ c, (s.socks c).last = some .failed → s.needReconn = false → s.sfd = some c →
    s.sendPc = .failed

theorem inv_init : Inv init where
  busy := fun h => absurd rfl h
  quiet := fun h => nomatch h
  loaded := fun _ _ h => nomatch h
  known := fun _ _ => ⟨rfl, nofun⟩
  fresh := by simp [init]
  retired := fun _ h => nomatch h

/-- A connection on which a send has failed is not sent on. -/
theorem Inv.last_ne_failed {s : Client} (hinv : Inv s) {c : ℕ} {buf : Bytes}
    (hpc : s.sendPc = .loaded c buf) : (s.socks c).last ≠ some .failed := by
  intro hfailed
  have hneed := hinv.busy (by rw [hpc]; exact nofun)
  have hpc' := hinv.retired c hfailed hneed (hinv.loaded c buf hpc)
  rw [hpc] at hpc'
  cases hpc'

/-- Elsewhere than at its wait and its sleep, the reconnect thread finds the flag set. -/
theorem Inv.needReconn_ne {s : Client} (hinv : Inv s) (hwait : s.reconnPc ≠ .wait)
    (hsleep : s.reconnPc ≠ .sleep) : s.needReconn ≠ false := by
  intro hneed
  rcases hinv.quiet hneed with h | h
  · exact hwait h
  · exact hsleep h

/-- Inside `::send` nothing but the socket `sfd_` changes. -/
theorem Inv.update_sock {s : Client} (hinv : Inv s) {c : ℕ} {buf : Bytes}
    (hpc : s.sendPc = .loaded c buf) (k : Sock) :
    (∀ c', s.nsock ≤ c' → Function.update s.socks c k c' = ⟨[], none⟩ ∧ s.sfd ≠ some c') ∧
      (s.reconnPc = .wait ∨ s.reconnPc = .sleep) := by
  refine ⟨fun c' hc' => ?_, hinv.quiet (hinv.busy (by rw [hpc]; exact nofun))⟩
  have hne : c' ≠ c := by
    rintro rfl
    exact (hinv.known c' hc').2 (hinv.loaded c' buf hpc)
  rw [Function.update_of_ne hne]
  exact hinv.known c' hc'

/-- **One step** of either thread keeps the invariant. -/
theorem inv_step {s s' : Client} {a : Act} (hinv : Inv s) (hstep : Step s a s') : Inv s' := by
  cases hstep with
  | send buf hpc =>
    refine { hinv with busy := ?_, loaded := ?_, retired := ?_ }
    · intro hne
      by_contra hneed
      exact hne (if_pos (by simpa [sendCall] using hneed))
    · intro c buf' h
      simp only [sendCall] at h
      split at h <;> cases h
    · intro c hfailed hneed hsfd
      have hpc' := hinv.retired c hfailed hneed hsfd
      rw [hpc] at hpc'
      cases hpc'
  | load hpc hsfd =>
    have hneed := hinv.busy (by rw [hpc]; exact nofun)
    refine { hinv with busy := fun _ => hneed, loaded := ?_, retired := ?_ }
    · intro c' buf' h
      cases h
      exact hsfd
    · intro c' hfailed _ hsfd'
      have hpc' := hinv.retired c' hfailed hneed hsfd'
      rw [hpc] at hpc'
      cases hpc'
  | @took c buf k hpc hk hpos =>
    obtain ⟨hknown, hquiet⟩ := hinv.update_sock hpc _
    refine ⟨fun h => absurd rfl h, hinv.quiet, nofun, hknown, ?_, ?_⟩
    · rcases hquiet with h | h <;> simp [took, h]
    · intro c' hfailed _ hsfd'
      obtain rfl : c = c' := Option.some.inj ((hinv.loaded c buf hpc).symm.trans hsfd')
      simp only [took, Function.update_self, Option.some.injEq] at hfailed
      split at hfailed <;> cases hfailed
  | @failed c buf hpc =>
    obtain ⟨hknown, hquiet⟩ := hinv.update_sock hpc _
    have hneed := hinv.busy (by rw [hpc]; exact nofun)
    refine ⟨fun _ => hneed, hinv.quiet, nofun, hknown, ?_, fun _ _ _ _ => rfl⟩
    rcases hquiet with h | h <;> simp [Client.failed, h]
  | setReconn hpc =>
    exact { hinv with
      busy := fun h => absurd rfl h
      quiet := fun h => nomatch h
      loaded := fun _ _ h => nomatch h
      retired := fun _ _ h => nomatch h }
  | wake hpc hneed =>
    exact { hinv with
      quiet := fun h => nomatch h.symm.trans hneed
      fresh := by simp }
  | socket hpc =>
    have hneed := hinv.needReconn_ne (by simp [hpc]) (by simp [hpc])
    refine ⟨hinv.busy, fun h => absurd h hneed, ?_, ?_, ?_,
      fun _ _ h => absurd h hneed⟩
    · intro c buf h
      have hpc' : s.sendPc = .loaded c buf := h
      exact absurd (hinv.busy (by rw [hpc']; exact nofun)) hneed
    · intro c hc
      refine ⟨(hinv.known c (Nat.le_of_succ_le hc)).1, ?_⟩
      intro h
      cases h
      exact Nat.not_succ_le_self _ hc
    · exact fun _ => ⟨s.nsock, rfl, (hinv.known s.nsock le_rfl).1⟩
  | noSocket hpc => exact { hinv with }
  | setsockopt hpc =>
    have hneed := hinv.needReconn_ne (by simp [hpc]) (by simp [hpc])
    exact { hinv with
      quiet := fun h => absurd h hneed
      fresh := fun _ => hinv.fresh (.inl hpc) }
  | noSetsockopt hpc => exact { hinv with }
  | connect hpc =>
    have hneed := hinv.needReconn_ne (by simp [hpc]) (by simp [hpc])
    exact { hinv with
      quiet := fun h => absurd h hneed
      fresh := fun _ => hinv.fresh (.inr (.inl hpc)) }
  | noConnect hpc => exact { hinv with quiet := fun _ => .inr rfl, fresh := by simp }
  | publish hpc =>
    obtain ⟨c, hsfd, hc⟩ := hinv.fresh (.inr (.inr hpc))
    refine { hinv with
      busy := fun _ => rfl
      quiet := fun _ => .inr rfl
      fresh := by simp
      retired := ?_ }
    intro c' hfailed _ hsfd'
    obtain rfl : c = c' := Option.some.inj (hsfd.symm.trans hsfd')
    rw [show (s.socks c).last = none by rw [hc]] at hfailed
    cases hfailed
  | slept hpc => exact { hinv with quiet := fun _ => .inl rfl, fresh := by simp }

/-- **What the reconnect thread leaves alone.** -/
theorem reconn_frame {s s' : Client} {a : Act} (hinv : Inv s) (hstep : Step s a s')
    (ha : a.isReconn = true) :
    s'.sendPc = s.sendPc ∧ s'.socks = s.socks ∧ s'.calls = s.calls ∧
      (s.needReconn = false → s'.needReconn = false ∧ s'.sfd = s.sfd) ∧
      (a ≠ .publish → s'.needReconn = s.needReconn) := by
  cases hstep with
  | socket hpc =>
    have hset := hinv.needReconn_ne (by simp [hpc]) (by simp [hpc])
    exact ⟨rfl, rfl, rfl, fun hneed => absurd hneed hset, fun _ => rfl⟩
  | publish hpc => exact ⟨rfl, rfl, rfl, fun _ => ⟨rfl, rfl⟩, fun h => absurd rfl h⟩
  | send | load | took | failed | setReconn => cases ha
  | _ => exact ⟨rfl, rfl, rfl, fun hneed => ⟨hneed, rfl⟩, fun _ => rfl⟩

/-- **The invariant of every run.** -/
theorem inv_exec {s : Client} {acts : List Act} (hrun : Lts.exec step init acts = some s) :
    Inv s := by
  refine Lts.exec_invariant step (I := Inv) (C := fun _ _ => True) ?_ inv_init ?_ hrun
  · exact fun s a s' hinv _ h => inv_step hinv (step_cases h)
  · exact Lts.meets_of_forall step (fun _ _ => trivial) _ _

end Client

end Iax.Tcp
