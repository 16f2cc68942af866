import Iax.Iaxcsi.Listener
import Iax.Lib.Streams
import Iax.Tcp.Client

/-!
# The stream of a connection

What the connections of a `TcpClient` carry. `send` takes any count that `::send` returns for
success, so after a short one the next buffer follows the beginning of a frame.

* `allFramed_exec`: each connection has taken whole frames, up to a last one that is cut; so in every
  run in which a short `::send` is followed, on its connection, by a failing one only.
* `stream_whole_frames`: what is delivered is then a concatenation of whole frames in the order of
  the calls, cut at most on a connection that has failed.
* `stream_mixed`: one short count is enough to break this.
-/

namespace Iax.Tcp

open Streams

/-! ## Streams -/

namespace Client

/-- What may arrive of what a socket has taken: all of it, unless a send has failed. -/
def Delivered (k : Sock) (bs : Bytes) : Prop :=
  bs <+: k.taken ∧ (k.last ≠ some .failed → bs = k.taken)

/-- The frames on a connection are whole, except that the last one may be cut if the connection has
failed. -/
def WholeFrames (s : Client) : Prop :=
  ∀ c bs, Delivered (s.socks c) bs →
    Whole s.calls bs ∨ ((s.socks c).last = some .failed ∧ Cut s.calls bs)

/-- The condition on a step: when the last `::send` on a connection was short, the next one fails. -/
def FailsAfterShort (s : Client) (a : Act) : Prop :=
  match s.sendPc, a with
  | .loaded c _, .sysSend (some _) => (s.socks c).last ≠ some .short
  | _, _ => True

instance (s : Client) (a : Act) : Decidable (s.FailsAfterShort a) := by
  unfold FailsAfterShort
  split <;> infer_instance

/-- A socket holds whole frames, up to a last one that only a short `::send` cuts. -/
def Framed (calls : List Bytes) (k : Sock) : Prop :=
  Whole calls k.taken ∨
    ((k.last = some .short ∨ k.last = some .failed) ∧ Cut calls k.taken)

/-- Every socket holds frames of the calls that are through. -/
def AllFramed (s : Client) : Prop :=
  ∃ through, s.calls = through ++ s.sendPc.pending ∧ ∀ c, Framed through (s.socks c)

theorem Framed.mono {calls calls' : List Bytes} {k : Sock} (h : Framed calls k)
    (hsub : calls.Sublist calls') : Framed calls' k :=
  h.imp (fun h => h.mono hsub) (And.imp_right fun h => h.mono hsub)

theorem Framed.whole_or_cut {calls : List Bytes} {k : Sock} (h : Framed calls k) :
    Whole calls k.taken ∨ Cut calls k.taken :=
  h.imp_right And.right

/-- **One step** keeps the streams. -/
theorem allFramed_step {s s' : Client} {a : Act} (hinv : Inv s) (hs : AllFramed s)
    (hcond : FailsAfterShort s a) (hstep : Step s a s') : AllFramed s' := by
  obtain ⟨through, hcalls, hframed⟩ := hs
  cases hstep with
  | send buf hpc =>
    rw [hpc, SendPc.pending, List.append_nil] at hcalls
    subst hcalls
    rcases Bool.eq_false_or_eq_true s.needReconn with hneed | hneed
    · refine ⟨s.calls ++ [buf], by simp [sendCall, hneed, SendPc.pending], fun c => ?_⟩
      exact (hframed c).mono (List.sublist_append_left ..)
    · exact ⟨s.calls, by simp [sendCall, hneed, SendPc.pending], hframed⟩
  | @load c buf hpc hsfd =>
    rw [hpc] at hcalls
    exact ⟨through, hcalls, hframed⟩
  | @took c buf k hpc hk hpos =>
    rw [hpc, SendPc.pending] at hcalls
    refine ⟨s.calls, by simp [took, SendPc.pending], fun c' => ?_⟩
    rcases eq_or_ne c' c with rfl | hne
    · have hwhole : Whole through (s.socks c').taken := by
        refine (hframed c').resolve_right ?_
        rintro ⟨hlast | hlast, -⟩
        · simp only [FailsAfterShort, hpc] at hcond
          exact hcond hlast
        · exact hinv.last_ne_failed hpc hlast
      simp only [took, Function.update_self, hcalls]
      by_cases hfull : k = buf.length
      · left
        rw [hfull, List.take_length]
        exact hwhole.concat buf
      · exact .inr ⟨.inl (by rw [if_neg hfull]), hwhole.cut (List.take_prefix k buf)⟩
    · simp only [took, Function.update_of_ne hne, hcalls]
      exact (hframed c').mono (List.sublist_append_left ..)
  | @failed c buf hpc =>
    rw [hpc, SendPc.pending] at hcalls
    have hsub : through.Sublist s.calls := by
      rw [hcalls]
      exact List.sublist_append_left ..
    refine ⟨s.calls, by simp [Client.failed, SendPc.pending], fun c' => ?_⟩
    rcases eq_or_ne c' c with rfl | hne
    · simp only [Client.failed, Function.update_self]
      exact ((hframed c').mono hsub).whole_or_cut.imp_right fun hcut => ⟨.inr rfl, hcut⟩
    · simp only [Client.failed, Function.update_of_ne hne]
      exact (hframed c').mono hsub
  | setReconn hpc =>
    rw [hpc] at hcalls
    exact ⟨through, hcalls, hframed⟩
  | _ => exact ⟨through, hcalls, hframed⟩

/-- **Every run** whose steps meet the condition. -/
theorem allFramed_exec {s : Client} {acts : List Act} (hrun : Lts.exec step init acts = some s)
    (hcond : Lts.Meets step FailsAfterShort init acts) : AllFramed s := by
  refine (Lts.exec_invariant step (I := fun s => Inv s ∧ AllFramed s) ?_ ⟨inv_init, ?_⟩ hcond hrun).2
  · rintro s a s' ⟨hinv, hs⟩ hC h
    exact ⟨inv_step hinv (step_cases h), allFramed_step hinv hs hC (step_cases h)⟩
  · exact ⟨[], rfl, fun c => .inl (whole_nil [])⟩

/-- **Whole frames.** In every run in which a short `::send` is followed on its connection by a
failing one, and by no other, each connection delivers a concatenation of whole frames in the order
of the calls of `send`, and only one that has failed may have cut the last frame. -/
theorem stream_whole_frames {s : Client} {acts : List Act}
    (hrun : Lts.exec step init acts = some s)
    (hcond : Lts.Meets step FailsAfterShort init acts)
    (hfails : ∀ c, (s.socks c).last ≠ some .short) : WholeFrames s := by
  obtain ⟨through, hcalls, hframed⟩ := allFramed_exec hrun hcond
  rintro c bs ⟨hpre, hall⟩
  have hsock : Framed s.calls (s.socks c) := by
    refine (hframed c).mono ?_
    rw [hcalls]
    exact List.sublist_append_left ..
  rcases eq_or_ne (s.socks c).last (some .failed) with hlast | hlast
  · exact (whole_or_cut_of_isPrefix hsock.whole_or_cut hpre).imp_right fun hcut => ⟨hlast, hcut⟩
  · obtain rfl := hall hlast
    refine .inl (hsock.resolve_right ?_)
    rintro ⟨hshort | hfailed, -⟩
    · exact hfails c hshort
    · exact hlast hfailed

/-- The calls of the listener are the frames of its records, and so are the streams. -/
theorem WholeFrames.records {s : Client} (h : WholeFrames s) {records : List (Bytes × Bytes)}
    (hcalls : s.calls = records.map fun r => Iaxcsi.frame r.1 r.2) {c : ℕ} {bs : Bytes}
    (hbs : Delivered (s.socks c) bs) :
    (∃ rs : List (Bytes × Bytes), rs.Sublist records ∧
      bs = rs.flatMap fun r => Iaxcsi.frame r.1 r.2) ∨
    ((s.socks c).last = some .failed ∧ ∃ (rs : List (Bytes × Bytes)) (r : Bytes × Bytes)
      (part : Bytes), (rs ++ [r]).Sublist records ∧ part <+: Iaxcsi.frame r.1 r.2 ∧
        bs = (rs.flatMap fun r => Iaxcsi.frame r.1 r.2) ++ part) := by
  have hframes := h c bs hbs
  rwa [hcalls, whole_map_iff, cut_map_iff] at hframes

/-! ## Runs -/

/-- The reconnect thread makes a connection. -/
def connectActs : List Act :=
  [.wake, .socket true, .setsockopt true, .connect true, .publish, .slept]

/-- A call of `send` on which `::send` returns `ret`. -/
def sendActs (buf : Bytes) (ret : ℕ) : List Act := [.send buf, .load, .sysSend (some ret)]

/-- A call of `send` that fails. -/
def failActs (buf : Bytes) : List Act := [.send buf, .load, .sysSend none, .setReconn]

/-- The client with its first connection. -/
def connected : Client :=
  { init with needReconn := false, sfd := some 0, nsock := 1 }

theorem exec_connectActs : Lts.exec step init connectActs = some connected := rfl

/-- A call on a connection. -/
theorem exec_sendActs {s : Client} {c k : ℕ} {buf : Bytes} (halive : s.terminated = false)
    (hidle : s.sendPc = .idle) (hneed : s.needReconn = false) (hsfd : s.sfd = some c)
    (hk : k ≤ buf.length) (hpos : 0 < k) :
    Lts.exec step s (sendActs buf k) = some { s.took c buf k with calls := s.calls ++ [buf] } := by
  simp [sendActs, step, sendCall, sysSend, took, halive, hidle, hneed, hsfd, hk, hpos]

theorem stream_whole_frames_cut :
    ∃ s, Lts.exec step init
        (connectActs ++ sendActs [1, 2] 2 ++ sendActs [3, 4] 1 ++ failActs [5]) = some s ∧
      WholeFrames s ∧ (s.socks 0).taken = [1, 2, 3] := by
  obtain ⟨s, hs⟩ := Option.isSome_iff_exists.1 (show (Lts.exec step init
    (connectActs ++ sendActs [1, 2] 2 ++ sendActs [3, 4] 1 ++ failActs [5])).isSome by decide)
  have hsocks : (Lts.exec step init (connectActs ++ sendActs [1, 2] 2 ++ sendActs [3, 4] 1 ++
    failActs [5])).map (fun s => (s.socks 0, s.nsock)) = some (⟨[1, 2, 3], some .failed⟩, 1) := rfl
  rw [hs, Option.map_some, Option.some.injEq, Prod.mk.injEq] at hsocks
  obtain ⟨hsock, hnsock⟩ := hsocks
  refine ⟨s, hs, stream_whole_frames hs (by decide) ?_, by rw [hsock]⟩
  intro c
  rcases Nat.eq_zero_or_pos c with rfl | hpos
  · rw [hsock]
    exact nofun
  · rw [((inv_exec hs).known c (by omega)).1]
    exact nofun

/-- **One short count.** Of the first of two frames `::send` takes 100 bytes, and the second follows
them on the connection. -/
theorem stream_mixed :
    ∃ s, Lts.exec step init
        (connectActs ++ sendActs (Iaxcsi.frame (List.replicate 272 0) []) 100 ++
          sendActs (Iaxcsi.frame (List.replicate 272 0) []) 284) = some s ∧
      ¬ WholeFrames s := by
  set f := Iaxcsi.frame (List.replicate 272 0) [] with hf
  have hlen : f.length = 284 := by
    rw [hf, Iaxcsi.length_frame, List.length_replicate, List.length_nil]
  have h₁ : Lts.exec step connected (sendActs f 100) =
      some { connected.took 0 f 100 with calls := [f] } :=
    exec_sendActs rfl rfl rfl rfl (by omega) (by omega)
  have h₂ : Lts.exec step { connected.took 0 f 100 with calls := [f] } (sendActs f 284) =
      some { { connected.took 0 f 100 with calls := [f] }.took 0 f 284 with calls := [f, f] } :=
    exec_sendActs rfl rfl rfl rfl (by omega) (by omega)
  refine ⟨_, by rw [Lts.exec_append, Lts.exec_append, exec_connectActs, Option.bind_some, h₁,
    Option.bind_some, h₂], ?_⟩
  intro h
  have hwhole : Whole [f, f] (f.take 100 ++ f) := by
    refine (h 0 (f.take 100 ++ f) ?_).resolve_right (fun hcut => ?_)
    · have htaken : f.take 100 ++ f.take 284 = f.take 100 ++ f := by
        rw [List.take_of_length_le hlen.le]
      exact ⟨htaken ▸ List.prefix_rfl, fun _ => htaken.symm⟩
    · have hlast := hcut.1
      simp [took, hlen] at hlast
  -- no number of frames has this length
  obtain ⟨gs, hgs, hflat⟩ := hwhole
  have hlength := congrArg List.length hflat
  obtain ⟨n, hn, rfl⟩ := List.sublist_replicate_iff.1 (show gs.Sublist (List.replicate 2 f) from hgs)
  simp only [List.length_append, List.length_take, List.length_flatten, List.map_replicate,
    List.sum_replicate_nat, hlen] at hlength
  omega

end Client

end Iax.Tcp
