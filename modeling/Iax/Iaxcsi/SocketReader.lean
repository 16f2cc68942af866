import Iax.Iaxcsi.Listener
import Iax.Lib.Lts
import Iax.Matlab.Endian
import Iax.Matlab.SocketHandler

/-!
# Messages from a socket

`read_next` of `iaxcsi.m` over a `socket_handler`: a length is read, and then a message of that
length. A new connection finds the buffer, and a call in progress, as the last one left them.

* `inv_step`, `inv_exec`: in every run in which a connection is made only when the bytes
  of the last one are used up, the messages that are read on a connection are its first frames.
* `socket_framing`: so each of them is a frame that was sent whole, and the first message after a
  reconnection is the first frame of the new connection.
* `socket_mixed`: a cut inside a message mixes two connections.
-/

namespace Iax.Iaxcsi

open Bytes Matlab

/-! ## The reader -/

/-- Where `read_next` is: before the read of the length, or of the message. -/
inductive ReadPc
  | idle
  | msgLen
  | msg (msgLen : ℤ)
  deriving DecidableEq

/-- The reader and its handler. `msgs` are the messages that were passed to `read_st`, oldest first,
each with the connection that was there. -/
structure SocketReader where
  handler : SocketHandler
  pc : ReadPc
  msgs : List (ℕ × Bytes)

/-- The steps of the reader, between those of the network. -/
inductive ReadAct
  | net (a : NetAct)
  /-- `read_next` is called. -/
  | readNext
  /-- The read of the length returns. -/
  | readLen
  /-- The read of the message returns. -/
  | readMsg
  deriving DecidableEq

/-- A message as it is sent. -/
def msgFrame (body : Bytes) : Bytes := beBytes 4 body.length ++ body

namespace SocketReader

/-- The reader with its first connection. -/
def init : SocketReader where
  handler := SocketHandler.init
  pc := .idle
  msgs := []

/-- A step, when connection `c` carries the frames of `bodies c`. An error ends the call. -/
def step (bodies : ℕ → List Bytes) (s : SocketReader) : ReadAct → Option SocketReader
  | .net a => (s.handler.netStep (fun c => (bodies c).flatMap msgFrame) a).map fun handler =>
    { s with handler := handler }
  | .readNext => if s.pc = .idle then some { s with pc := .msgLen } else none
  | .readLen =>
    match s.pc with
    | .msgLen => (s.handler.read 4).map fun r =>
      match r with
      | .ok (lenBuf, handler) =>
        match be32i lenBuf with
        | .ok msgLen => { s with handler := handler, pc := .msg msgLen }
        | .error _ => { s with handler := handler, pc := .idle }
      | .error _ => { s with pc := .idle }
    | _ => none
  | .readMsg =>
    match s.pc with
    | .msg msgLen => (s.handler.read msgLen).map fun r =>
      match r with
      | .ok (msg, handler) =>
        { s with handler := handler, pc := .idle, msgs := s.msgs ++ [(handler.conn, msg)] }
      | .error _ => { s with pc := .idle }
    | _ => none

/-- The messages that were read while there was connection `c`. -/
def onConn (msgs : List (ℕ × Bytes)) (c : ℕ) : List Bytes :=
  msgs.filterMap fun (c', msg) => if c' = c then some msg else none

/-- The framing survives: each message was sent as one frame, which arrived whole on one connection,
and the first message on a connection is its first frame. -/
structure FramingKept (bodies : ℕ → List Bytes) (s : SocketReader) : Prop where
  whole : ∀ c msg, (c, msg) ∈ s.msgs → ∃ c' before, before ++ [msg] <+: bodies c' ∧
    (before ++ [msg]).flatMap msgFrame <+: s.handler.carried c'
  first : ∀ c msg, (onConn s.msgs c).head? = some msg → (bodies c).head? = some msg

/-- The condition on a step: when a connection is made, no byte of an earlier one is left, and
`read_next` is not between a length and its message. -/
def ConnectsClean (s : SocketReader) : ReadAct → Prop
  | .net .connect => s.handler.available = [] ∧ s.handler.sbuf = [] ∧ (s.pc = .idle ∨ s.pc = .msgLen)
  | _ => True

instance (s : SocketReader) (a : ReadAct) : Decidable (s.ConnectsClean a) := by
  unfold ConnectsClean
  split <;> infer_instance

/-! ## The frames of a connection -/

/-- The length that stands before the next message is its length. -/
theorem next_body {tail : List Bytes} {lenBuf rest : Bytes} (hlen : lenBuf.length = 4)
    (hpre : lenBuf ++ rest <+: tail.flatMap msgFrame) :
    ∃ body tail', tail = body :: tail' ∧ lenBuf = beBytes 4 body.length ∧
      rest <+: body ++ tail'.flatMap msgFrame := by
  cases tail with
  | nil =>
    have := hpre.length_le
    simp only [List.flatMap_nil, List.length_append, List.length_nil] at this
    omega
  | cons body tail' =>
    rw [List.flatMap_cons, msgFrame, List.append_assoc] at hpre
    obtain ⟨rfl, hrest⟩ : lenBuf = beBytes 4 body.length ∧
        rest <+: body ++ tail'.flatMap msgFrame := by
      obtain ⟨more, hmore⟩ := hpre
      rw [List.append_assoc] at hmore
      obtain ⟨hlenBuf, hrest⟩ := List.append_inj hmore (by rw [hlen, length_beBytes])
      exact ⟨hlenBuf, more, hrest⟩
    exact ⟨body, tail', rfl, rfl, hrest⟩

/-- What the reader has used of the frame that it is in. -/
def Used (pc : ReadPc) (used : Bytes) : Prop :=
  match pc with
  | .msg msgLen => used.length = 4 ∧ be32i used = .ok msgLen
  | _ => used = []

/-- The messages of every connection are its first frames, and the bytes that are used and those in
the buffer and at the socket are the next ones of the connection. -/
structure Inv (bodies : ℕ → List Bytes) (s : SocketReader) : Prop where
  sent : ∀ c, onConn s.msgs c <+: bodies c ∧
    (onConn s.msgs c).flatMap msgFrame <+: s.handler.carried c
  carried : ∀ c, s.handler.carried c <+: (bodies c).flatMap msgFrame
  next : ∃ used rest, Used s.pc used ∧ (s.handler.connected = true → rest = []) ∧
    s.handler.carried s.handler.conn = (onConn s.msgs s.handler.conn).flatMap msgFrame ++
      (used ++ (s.handler.sbuf ++ (s.handler.available ++ rest)))
  later : ∀ c, s.handler.conn < c → onConn s.msgs c = [] ∧ s.handler.carried c = []

theorem inv_init (bodies : ℕ → List Bytes) : Inv bodies init where
  sent := fun _ => ⟨List.nil_prefix, List.nil_prefix⟩
  carried := fun _ => List.nil_prefix
  next := ⟨[], [], rfl, fun _ => rfl, rfl⟩
  later := fun _ _ => ⟨rfl, rfl⟩

/-- **The network** keeps the invariant. -/
theorem inv_net {bodies : ℕ → List Bytes} {s : SocketReader} {a : NetAct} {handler : SocketHandler}
    (hinv : Inv bodies s) (hclean : ConnectsClean s (.net a))
    (hstep : s.handler.netStep (fun c => (bodies c).flatMap msgFrame) a = some handler) :
    Inv bodies { s with handler := handler } := by
  obtain ⟨used, rest, hused, hrest, hnext⟩ := hinv.next
  cases a with
  | arrive bs =>
    simp only [SocketHandler.netStep, Option.ite_none_right_eq_some, Option.some.injEq] at hstep
    obtain ⟨⟨hconn, hpre⟩, rfl⟩ := hstep
    have hgrows : ∀ c, s.handler.carried c <+: Function.update s.handler.carried s.handler.conn
        (s.handler.carried s.handler.conn ++ bs) c := by
      intro c
      rcases eq_or_ne c s.handler.conn with rfl | hne
      · rw [Function.update_self]
        exact List.prefix_append ..
      · simp [Function.update_of_ne hne]
    refine ⟨fun c => ⟨(hinv.sent c).1, (hinv.sent c).2.trans (hgrows c)⟩, ?_, ?_, ?_⟩
    · intro c
      rcases eq_or_ne c s.handler.conn with rfl | hne
      · simpa using hpre
      · simpa [Function.update_of_ne hne] using hinv.carried c
    · refine ⟨used, [], hused, fun _ => rfl, ?_⟩
      rw [hrest hconn, List.append_nil] at hnext
      simp only [Function.update_self, hnext, List.append_assoc, List.append_nil]
    · intro c hc
      have hne : c ≠ s.handler.conn := Nat.ne_of_gt hc
      simpa [Function.update_of_ne hne] using hinv.later c hc
  | bytesAvaliableFcn count =>
    simp only [SocketHandler.netStep, Option.ite_none_right_eq_some, Option.some.injEq] at hstep
    obtain ⟨hcount, rfl⟩ := hstep
    refine ⟨hinv.sent, hinv.carried, ⟨used, rest, hused, hrest, ?_⟩, hinv.later⟩
    refine hnext.trans ?_
    rw [List.append_assoc s.handler.sbuf, ← List.append_assoc (s.handler.available.take count),
      List.take_append_drop]
  | disconnect =>
    cases hstep
    exact ⟨hinv.sent, hinv.carried, ⟨used, rest, hused, nofun, hnext⟩, hinv.later⟩
  | close =>
    cases hstep
    refine ⟨hinv.sent, hinv.carried, ⟨used, s.handler.available ++ rest, hused, nofun, ?_⟩,
      hinv.later⟩
    exact hnext
  | connect =>
    simp only [SocketHandler.netStep, Option.ite_none_left_eq_some, Option.some.injEq] at hstep
    obtain ⟨-, rfl⟩ := hstep
    obtain ⟨havailable, hsbuf, hpc⟩ := hclean
    obtain ⟨hmessages, hcarried⟩ := hinv.later (s.handler.conn + 1) (Nat.lt_succ_self _)
    refine ⟨hinv.sent, hinv.carried, ⟨[], [], ?_, fun _ => rfl, ?_⟩, ?_⟩
    · rcases hpc with hpc | hpc <;> simp [Used, hpc]
    · simp [hcarried, hmessages, hsbuf, havailable]
    · exact fun c hc => hinv.later c (Nat.lt_of_succ_lt hc)

/-- **The length** of the next message is read. -/
theorem inv_readLen {bodies : ℕ → List Bytes} {s : SocketReader} (hinv : Inv bodies s)
    (hpc : s.pc = .msgLen) {lenBuf : Bytes} {handler : SocketHandler} {msgLen : ℤ}
    (hread : s.handler.read 4 = some (.ok (lenBuf, handler))) (hlen : be32i lenBuf = .ok msgLen) :
    Inv bodies { s with handler := handler, pc := .msg msgLen } := by
  obtain ⟨used, rest, hused, hrest, hnext⟩ := hinv.next
  obtain ⟨hle, rfl, rfl⟩ := SocketHandler.read_eq_some (n := 4) hread
  rw [hpc] at hused
  obtain rfl : used = [] := hused
  refine ⟨hinv.sent, hinv.carried, ⟨s.handler.sbuf.take 4, rest, ⟨?_, hlen⟩, hrest, ?_⟩,
    hinv.later⟩
  · rw [List.length_take]
    omega
  · refine hnext.trans ?_
    rw [List.nil_append, ← List.append_assoc (s.handler.sbuf.take 4), List.take_append_drop]

@[simp] theorem onConn_concat (msgs : List (ℕ × Bytes)) (c₀ c : ℕ) (msg : Bytes) :
    onConn (msgs ++ [(c₀, msg)]) c = if c₀ = c then onConn msgs c ++ [msg] else onConn msgs c := by
  simp only [onConn, List.filterMap_append]
  split <;> simp_all

/-- Between a length and its message, the reader is in the next frame of the connection. -/
theorem Inv.next_msg {bodies : ℕ → List Bytes}
    (hsmall : ∀ c, ∀ body ∈ bodies c, body.length < 2 ^ 31) {s : SocketReader}
    (hinv : Inv bodies s) {msgLen : ℤ} (hpc : s.pc = .msg msgLen) :
    ∃ body tail rest, bodies s.handler.conn = onConn s.msgs s.handler.conn ++ body :: tail ∧
      msgLen = body.length ∧ (s.handler.connected = true → rest = []) ∧
      s.handler.carried s.handler.conn = (onConn s.msgs s.handler.conn).flatMap msgFrame ++
        (beBytes 4 body.length ++ (s.handler.sbuf ++ (s.handler.available ++ rest))) ∧
      s.handler.sbuf ++ (s.handler.available ++ rest) <+: body ++ tail.flatMap msgFrame := by
  obtain ⟨used, rest, hused, hrest, hnext⟩ := hinv.next
  rw [hpc] at hused
  obtain ⟨hlen, hmsgLen⟩ := hused
  obtain ⟨⟨tail, htail⟩, -⟩ := hinv.sent s.handler.conn
  have hpre : used ++ (s.handler.sbuf ++ (s.handler.available ++ rest)) <+:
      tail.flatMap msgFrame := by
    have hcarried := hinv.carried s.handler.conn
    rwa [hnext, ← htail, List.flatMap_append, List.prefix_append_right_inj] at hcarried
  obtain ⟨body, tail', rfl, rfl, hbody⟩ := next_body hlen hpre
  have hbodylen : body.length < 2 ^ 31 := hsmall s.handler.conn body (by simp [← htail])
  rw [be32i_beBytes (by omega), signed_of_lt (by omega) hbodylen, Except.ok.injEq] at hmsgLen
  exact ⟨body, tail', rest, htail.symm, hmsgLen.symm, hrest, hnext, hbody⟩

/-- **A message** is the next frame of the connection. -/
theorem inv_readMsg {bodies : ℕ → List Bytes}
    (hsmall : ∀ c, ∀ body ∈ bodies c, body.length < 2 ^ 31) {s : SocketReader}
    (hinv : Inv bodies s) {msgLen : ℤ} (hpc : s.pc = .msg msgLen) {msg : Bytes}
    {handler : SocketHandler} (hread : s.handler.read msgLen = some (.ok (msg, handler))) :
    Inv bodies { handler := handler, pc := .idle, msgs := s.msgs ++ [(handler.conn, msg)] } := by
  obtain ⟨body, tail, rest, htail, rfl, hrest, hnext, hbody⟩ := hinv.next_msg hsmall hpc
  obtain ⟨hle, rfl, rfl⟩ := SocketHandler.read_eq_some hread
  set c := s.handler.conn with hc
  have htake : s.handler.sbuf.take body.length = body := by
    have hpre : s.handler.sbuf.take body.length <+: body ++ tail.flatMap msgFrame :=
      (List.take_prefix ..).trans ((List.prefix_append ..).trans hbody)
    have hlen : (s.handler.sbuf.take body.length).length = body.length := by
      rw [List.length_take]
      omega
    exact (List.prefix_of_prefix_length_le hpre (List.prefix_append ..) hlen.le).eq_of_length hlen
  have hsbuf : s.handler.sbuf = body ++ s.handler.sbuf.drop body.length := by
    conv_lhs => rw [← List.take_append_drop body.length s.handler.sbuf, htake]
  have hcarried : s.handler.carried c = (onConn s.msgs c ++ [body]).flatMap msgFrame ++
      (s.handler.sbuf.drop body.length ++ (s.handler.available ++ rest)) := by
    rw [hnext, hsbuf]
    simp [msgFrame]
  rw [htake]
  refine ⟨fun c' => ?_, hinv.carried, ⟨[], rest, rfl, hrest, ?_⟩, fun c' hc' => ?_⟩
  · rcases eq_or_ne c c' with rfl | hne
    · simp only [onConn_concat, if_pos, hcarried, List.prefix_append, and_true, htail]
      exact ⟨tail, by simp⟩
    · simpa [← hc, hne] using hinv.sent c'
  · simpa [← hc] using hcarried
  · have hne : c ≠ c' := Nat.ne_of_lt hc'
    simpa [← hc, hne] using hinv.later c' hc'

/-- **One step** that meets the condition. -/
theorem inv_step {bodies : ℕ → List Bytes}
    (hsmall : ∀ c, ∀ body ∈ bodies c, body.length < 2 ^ 31) {s s' : SocketReader} {a : ReadAct}
    (hinv : Inv bodies s) (hclean : ConnectsClean s a) (hstep : step bodies s a = some s') :
    Inv bodies s' := by
  cases a with
  | net a =>
    obtain ⟨handler, hnet, rfl⟩ := Option.map_eq_some_iff.1 hstep
    exact inv_net hinv hclean hnet
  | readNext =>
    simp only [step, Option.ite_none_right_eq_some, Option.some.injEq] at hstep
    obtain ⟨hpc, rfl⟩ := hstep
    obtain ⟨used, rest, hused, hnext⟩ := hinv.next
    rw [hpc] at hused
    exact ⟨hinv.sent, hinv.carried, ⟨used, rest, hused, hnext⟩, hinv.later⟩
  | readLen =>
    simp only [step] at hstep
    split at hstep
    case h_1 hpc =>
      obtain ⟨r, hread, rfl⟩ := Option.map_eq_some_iff.1 hstep
      cases r with
      | ok r =>
        have hlen : r.1.length = 4 := by
          obtain ⟨hle, hbuf, -⟩ := SocketHandler.read_eq_some (n := 4) hread
          rw [hbuf, List.length_take, min_eq_left hle]
        simp only [be32i_eq hlen]
        exact inv_readLen hinv hpc hread (be32i_eq hlen)
      | error e => exact absurd hread (SocketHandler.read_ne_error 4 e)
    case h_2 => cases hstep
  | readMsg =>
    simp only [step] at hstep
    split at hstep
    case h_1 msgLen hpc =>
      obtain ⟨r, hread, rfl⟩ := Option.map_eq_some_iff.1 hstep
      cases r with
      | ok r => exact inv_readMsg hsmall hinv hpc hread
      | error e =>
        obtain ⟨body, tail, rest, -, rfl, -⟩ := hinv.next_msg hsmall hpc
        exact absurd hread (SocketHandler.read_ne_error body.length e)
    case h_2 => cases hstep

/-- **Every run** that meets the condition. -/
theorem inv_exec {bodies : ℕ → List Bytes}
    (hsmall : ∀ c, ∀ body ∈ bodies c, body.length < 2 ^ 31) {s : SocketReader}
    {acts : List ReadAct} (hrun : Lts.exec (step bodies) init acts = some s)
    (hclean : Lts.Meets (step bodies) ConnectsClean init acts) : Inv bodies s :=
  Lts.exec_invariant (step bodies) (fun _ _ _ hinv hC hs => inv_step hsmall hinv hC hs)
    (inv_init bodies) hclean hrun

/-- **Framing survives reconnection.** In every run in which each connection carries the beginning
of whole frames, and a connection is made only when no byte of an earlier one is left and no call
of `read_next` is inside a message, each message that is passed to `read_st` was sent as one frame
and arrived whole on one connection, and the first message that is read on a connection is its
first frame. -/
theorem socket_framing {bodies : ℕ → List Bytes}
    (hsmall : ∀ c, ∀ body ∈ bodies c, body.length < 2 ^ 31) {s : SocketReader}
    {acts : List ReadAct} (hrun : Lts.exec (step bodies) init acts = some s)
    (hclean : Lts.Meets (step bodies) ConnectsClean init acts) : FramingKept bodies s := by
  have hinv := inv_exec hsmall hrun hclean
  refine ⟨fun c msg hmem => ?_, fun c msg hhead => ?_⟩
  · have hmem' : msg ∈ onConn s.msgs c :=
      List.mem_filterMap.2 ⟨(c, msg), hmem, if_pos rfl⟩
    obtain ⟨before, after, hsplit⟩ := List.append_of_mem hmem'
    have hpre : before ++ [msg] <+: onConn s.msgs c := ⟨after, by simp [hsplit]⟩
    have hframes : (before ++ [msg]).flatMap msgFrame <+: (onConn s.msgs c).flatMap msgFrame :=
      ⟨after.flatMap msgFrame, by simp [hsplit]⟩
    exact ⟨c, before, hpre.trans (hinv.sent c).1, hframes.trans (hinv.sent c).2⟩
  · obtain ⟨rest, hrest⟩ := (hinv.sent c).1
    rw [← hrest, List.head?_append, hhead]
    rfl

/-- Two frames on the first connection, and one on the second. -/
def twoConns : ℕ → List Bytes
  | 0 => [[1, 2], [3]]
  | 1 => [[4]]
  | _ => []

/-- The first message arrives in two pieces, and the connection is changed behind it. -/
def twoConnsActs : List ReadAct :=
  [.net (.arrive [0, 0, 0, 2, 1]), .net (.bytesAvaliableFcn 5), .readNext, .readLen,
    .net (.arrive [2]), .net (.bytesAvaliableFcn 1), .readMsg, .readNext, .net .disconnect,
    .net .close, .net .connect, .net (.arrive [0, 0, 0, 1, 4]), .net (.bytesAvaliableFcn 5),
    .readLen, .readMsg]

theorem socket_framing_two :
    ∃ s, Lts.exec (step twoConns) init twoConnsActs = some s ∧ FramingKept twoConns s ∧
      s.msgs = [(0, [1, 2]), (1, [4])] := by
  have hmsgs : (Lts.exec (step twoConns) init twoConnsActs).map (fun s => s.msgs) =
      some [(0, [1, 2]), (1, [4])] := by decide
  obtain ⟨s, hs, hmsgs⟩ := Option.map_eq_some_iff.1 hmsgs
  refine ⟨s, hs, socket_framing ?_ hs (by decide), hmsgs⟩
  intro c body hbody
  match c with
  | 0 | 1 =>
    revert body
    decide
  | _ + 2 => cases hbody

/-- Of a frame the length and 100 bytes arrive, and the connection is lost. -/
def cutActs (f : Bytes) : List ReadAct :=
  [.net (.arrive (f.take 104)), .net (.bytesAvaliableFcn 104), .readNext, .readLen,
    .net .disconnect, .net .close, .net .connect, .net (.arrive f), .net (.bytesAvaliableFcn 284),
    .readMsg]

/-- **A cut inside a message.** The message is completed by the first bytes of the next
connection. -/
theorem socket_mixed :
    ∃ s, Lts.exec (step fun _ => [frameBody (List.replicate 272 0) []]) init
        (cutActs (frame (List.replicate 272 0) [])) = some s ∧
      ¬ FramingKept (fun _ => [frameBody (List.replicate 272 0) []]) s := by
  have hmsgs : (Lts.exec (step fun _ => [frameBody (List.replicate 272 0) []]) init
      (cutActs (frame (List.replicate 272 0) []))).map (fun s => s.msgs) =
    some [(1, (frameBody (List.replicate 272 0) []).take 100 ++
      (frame (List.replicate 272 0) []).take 180)] := by decide +kernel
  obtain ⟨s, hs, hmsgs⟩ := Option.map_eq_some_iff.1 hmsgs
  refine ⟨s, hs, fun h => ?_⟩
  obtain ⟨c, before, hpre, -⟩ := h.whole 1 _ (by rw [hmsgs]; exact List.mem_singleton_self _)
  have hmem := hpre.subset (List.mem_append_right before (List.mem_singleton_self _))
  rw [List.mem_singleton] at hmem
  revert hmem
  decide +kernel

end SocketReader

end Iax.Iaxcsi
