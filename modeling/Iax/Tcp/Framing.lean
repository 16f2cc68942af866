import Iax.Lib.Memory
import Iax.Tcp.Client

/-!
# The frame of a list of messages

`TcpClient::send` of a vector lays the messages out in a static buffer of 4096 bytes and passes it
to the other `send`. The copy of `incsi` does not initialise the total, and neither copy looks at
the size of the buffer.

* `Framing.inv_msgs`: what the loop has written after any number of messages.
* `framed_iff`: the messages are framed, and nothing is written outside of the buffer, if and only
  if they fit it and the total started at zero.
* `calls_sendMsgs`: what the client is then called with.
-/

namespace Iax.Tcp

open Bytes

/-- The two copies of `tcp_client.h`. -/
inductive Copy
  | iaxcsi
  | incsi
  deriving DecidableEq

/-- `sizeof(buf)` -/
def sendBufSize : ℕ := 4096

/-- A message: its length is an `int`. -/
structure Msg where
  bytes : Bytes
  length_lt : bytes.length < 2 ^ 31

/-- `total_len` at its declaration. `stack` is what was in its place. -/
def Copy.totalLen : Copy → BitVec 32 → BitVec 32
  | .iaxcsi, _ => 0
  | .incsi, stack => stack

/-- The loop: the memory from `buf` on, the offsets that a `memcpy` has written, `total_len` and
`pos`. -/
structure Framing where
  mem : Memory
  touched : List ℕ
  totalLen : BitVec 32
  pos : ℕ

namespace Framing

/-- `memcpy(buf+off, src, n)` -/
def memcpy (s : Framing) (off : ℕ) (src : Bytes) : Framing :=
  { s with mem := s.mem.write off src, touched := s.touched ++ List.range' off src.length }

/-- One turn of the loop. -/
def putMsg (s : Framing) (msg : Msg) : Framing :=
  let s := { s with totalLen := s.totalLen + BitVec.ofNat 32 (4 + msg.bytes.length) }
  let s := s.memcpy s.pos (beBytes 4 msg.bytes.length)
  let s := { s with pos := s.pos + 4 }
  let s := s.memcpy s.pos msg.bytes
  { s with pos := s.pos + msg.bytes.length }

/-- The bytes that are passed to the other `send`. -/
def sent (s : Framing) : Bytes := s.mem.read 0 s.pos

end Framing

/-- `send` of a vector, with what is in the memory and on the stack before it. -/
def sendMsgs (copy : Copy) (stack : BitVec 32) (mem : Memory) (msgs : List Msg) : Framing :=
  let s := msgs.foldl Framing.putMsg
    { mem := mem, touched := [], totalLen := copy.totalLen stack, pos := 4 }
  s.memcpy 0 (beBytes 4 s.totalLen.toNat)

/-! ## The layout -/

/-- The sum of `4 + length`. -/
def msgsTotal (msgs : List Msg) : ℕ := (msgs.map fun m => 4 + m.bytes.length).sum

/-- The messages behind their lengths. -/
def msgsBody (msgs : List Msg) : Bytes :=
  msgs.flatMap fun m => beBytes 4 m.bytes.length ++ m.bytes

/-- The frame of the messages. -/
def msgsFrame (msgs : List Msg) : Bytes := beBytes 4 (msgsTotal msgs) ++ msgsBody msgs

@[simp] theorem length_msgsBody (msgs : List Msg) : (msgsBody msgs).length = msgsTotal msgs := by
  simp [msgsBody, msgsTotal, List.length_flatMap]

@[simp] theorem length_msgsFrame (msgs : List Msg) :
    (msgsFrame msgs).length = 4 + msgsTotal msgs := by
  simp [msgsFrame]

/-- The messages are framed: a list that fits is sent as its frame, whatever was in the memory, and
no list is written outside of the buffer. -/
structure Framed (copy : Copy) (stack : BitVec 32) (mem : Memory) (msgs : List Msg) : Prop where
  sent : (msgsFrame msgs).length ≤ sendBufSize →
    (sendMsgs copy stack mem msgs).sent = msgsFrame msgs
  inside : ∀ a ∈ (sendMsgs copy stack mem msgs).touched, a < sendBufSize

/-! ## The loop -/

namespace Framing

@[simp] theorem putMsg_pos (s : Framing) (msg : Msg) :
    (s.putMsg msg).pos = s.pos + (4 + msg.bytes.length) := by
  simp [putMsg, memcpy, Nat.add_assoc]

/-- The loop has written `done`, from offset 4 on. -/
structure Wrote (s : Framing) (t : BitVec 32) (done : Bytes) : Prop where
  pos : s.pos = 4 + done.length
  mem : s.mem.read 4 done.length = done
  touched : s.touched = List.range' 4 done.length
  totalLen : s.totalLen = t + BitVec.ofNat 32 done.length

/-- **One turn** writes a message behind what is written. -/
theorem Wrote.putMsg {s : Framing} {t : BitVec 32} {done : Bytes} (h : s.Wrote t done)
    (msg : Msg) :
    (s.putMsg msg).Wrote t (done ++ (beBytes 4 msg.bytes.length ++ msg.bytes)) := by
  have hlen : (done ++ (beBytes 4 msg.bytes.length ++ msg.bytes)).length =
      done.length + (4 + msg.bytes.length) := by simp
  refine ⟨by rw [putMsg_pos, h.pos, hlen, Nat.add_assoc], ?_, ?_, ?_⟩
  · -- the two writes are next to each other, and behind `done`
    have hnum : ((s.mem.write s.pos (beBytes 4 msg.bytes.length)).write (s.pos + 4)
        msg.bytes).read s.pos 4 = beBytes 4 msg.bytes.length := by
      rw [Memory.read_write_below _ _ le_rfl]
      simpa using Memory.read_write_self s.mem s.pos (beBytes 4 msg.bytes.length)
    have hdone : ((s.mem.write s.pos (beBytes 4 msg.bytes.length)).write (s.pos + 4)
        msg.bytes).read 4 done.length = done := by
      rw [Memory.read_write_below _ _ (by have := h.pos; omega),
        Memory.read_write_below _ _ h.pos.ge, h.mem]
    rw [hlen, Memory.read_add, Memory.read_add, ← h.pos]
    simp only [Framing.putMsg, memcpy]
    rw [hdone, hnum, Memory.read_write_self]
  · simp only [Framing.putMsg, memcpy, h.touched, h.pos, length_beBytes, hlen]
    rw [List.range'_append_1, Nat.add_assoc 4, List.range'_append_1, Nat.add_assoc]
  · simp only [Framing.putMsg, memcpy, h.totalLen, hlen, BitVec.ofNat_add, BitVec.add_assoc]

/-- **The loop** writes the messages. -/
theorem Wrote.putMsgs {s : Framing} {t : BitVec 32} {done : Bytes} (h : s.Wrote t done)
    (msgs : List Msg) : (msgs.foldl Framing.putMsg s).Wrote t (done ++ msgsBody msgs) := by
  induction msgs generalizing s done with
  | nil => simpa [msgsBody] using h
  | cons msg msgs ih =>
    have hrest := ih (h.putMsg msg)
    rwa [List.append_assoc] at hrest

/-- What the loop has written at its end. -/
theorem inv_msgs (mem : Memory) (t : BitVec 32) (msgs : List Msg) :
    (msgs.foldl Framing.putMsg { mem := mem, touched := [], totalLen := t, pos := 4 }).Wrote t
      (msgsBody msgs) := by
  have hinit : Wrote { mem := mem, touched := [], totalLen := t, pos := 4 } t [] :=
    ⟨rfl, rfl, rfl, by simp⟩
  simpa using hinit.putMsgs msgs

end Framing

variable (copy : Copy) (stack : BitVec 32) (mem : Memory) (msgs : List Msg)

/-- What is sent: the first word is the total of the copy. -/
theorem sent_sendMsgs : (sendMsgs copy stack mem msgs).sent =
    beBytes 4 (copy.totalLen stack + BitVec.ofNat 32 (msgsTotal msgs)).toNat ++ msgsBody msgs := by
  have h := Framing.inv_msgs mem (copy.totalLen stack) msgs
  have hmem := h.mem
  rw [length_msgsBody] at hmem
  set s := msgs.foldl Framing.putMsg
    { mem := mem, touched := [], totalLen := copy.totalLen stack, pos := 4 }
  set word := beBytes 4 s.totalLen.toNat with hword
  have hlen : word.length = 4 := by simp [hword]
  have hfirst : (s.mem.write 0 word).read 0 4 = word := by
    simpa [hlen] using Memory.read_write_self s.mem 0 word
  have hrest : (s.mem.write 0 word).read 4 (msgsTotal msgs) = msgsBody msgs := by
    have hread : (s.mem.write 0 word).read (0 + 4) (msgsTotal msgs) =
        s.mem.read (0 + 4) (msgsTotal msgs) := Memory.read_write_of_le s.mem 0 hlen.le
    rwa [Nat.zero_add, hmem] at hread
  rw [← length_msgsBody, ← h.totalLen, ← hword]
  change (s.mem.write 0 word).read 0 s.pos = _
  rw [h.pos, length_msgsBody, Memory.read_add, hfirst, hrest]

/-- What is written: the offsets below the length of the frame. -/
theorem mem_touched_sendMsgs {a : ℕ} :
    a ∈ (sendMsgs copy stack mem msgs).touched ↔ a < (msgsFrame msgs).length := by
  have h := Framing.inv_msgs mem (copy.totalLen stack) msgs
  simp only [sendMsgs, Framing.memcpy, h.touched, List.mem_append, List.mem_range'_1,
    length_beBytes, length_msgsBody, length_msgsFrame]
  omega

/-- Nothing is written outside of the buffer if and only if the frame fits it. -/
theorem inside_iff : (∀ a ∈ (sendMsgs copy stack mem msgs).touched, a < sendBufSize) ↔
    (msgsFrame msgs).length ≤ sendBufSize := by
  simp only [mem_touched_sendMsgs]
  constructor
  · intro h
    by_contra hlt
    exact Nat.lt_irrefl _ (h sendBufSize (Nat.lt_of_not_le hlt))
  · exact fun h a ha => ha.trans_le h

/-- A frame that fits is sent if and only if the total starts at zero. -/
theorem sent_eq_iff (hfit : (msgsFrame msgs).length ≤ sendBufSize) :
    (sendMsgs copy stack mem msgs).sent = msgsFrame msgs ↔ copy.totalLen stack = 0 := by
  have hlt : msgsTotal msgs < 2 ^ 32 := by
    simp only [length_msgsFrame, sendBufSize] at hfit
    omega
  obtain ⟨v, hv⟩ : ∃ v, v = BitVec.ofNat 32 (msgsTotal msgs) := ⟨_, rfl⟩
  have htotal : msgsTotal msgs = v.toNat := by
    rw [hv, BitVec.toNat_ofNat, Nat.mod_eq_of_lt hlt]
  rw [sent_sendMsgs, msgsFrame, List.append_left_inj, ← hv, htotal]
  constructor
  · intro h
    have hval := congrArg beNat h
    rw [beNat_beBytes_of_lt (BitVec.isLt _), beNat_beBytes_of_lt (BitVec.isLt _),
      BitVec.toNat_inj] at hval
    simpa using hval
  · intro h
    rw [h]
    congr 2
    exact BitVec.zero_add v

/-- **Framing.** The messages of a list are framed by a copy if and only if their frame fits the
buffer and `total_len` starts at zero: as it does in the copy of `iaxcsi`, and by chance in that of
`incsi`. -/
theorem framed_iff : Framed copy stack mem msgs ↔
    (msgsFrame msgs).length ≤ sendBufSize ∧ (copy = .iaxcsi ∨ stack = 0) := by
  have hzero : copy.totalLen stack = 0 ↔ copy = .iaxcsi ∨ stack = 0 := by
    cases copy <;> simp [Copy.totalLen]
  rw [← hzero]
  constructor
  · rintro ⟨hsent, hinside⟩
    have hfit := (inside_iff copy stack mem msgs).1 hinside
    exact ⟨hfit, (sent_eq_iff copy stack mem msgs hfit).1 (hsent hfit)⟩
  · rintro ⟨hfit, htotal⟩
    exact ⟨fun _ => (sent_eq_iff copy stack mem msgs hfit).2 htotal,
      (inside_iff copy stack mem msgs).2 hfit⟩

/-- A message of two bytes. -/
def shortMsg : Msg := ⟨[7, 8], by decide⟩

/-- **A total that is not initialised**: with 1 in its place, the frame of a message of two bytes
says that 7 bytes follow, and 6 do. -/
theorem not_framed_incsi : ¬ ∀ copy stack mem msgs, Framed copy stack mem msgs := by
  intro hall
  have hsent := (hall .incsi 1 (fun _ => 0) [shortMsg]).sent (by decide)
  revert hsent
  decide +kernel

/-- A list that is framed becomes one call of the other `send`. -/
theorem calls_sendMsgs {s s' : Client} (h : Framed copy stack mem msgs)
    (hstep : s.step (.send (sendMsgs copy stack mem msgs).sent) = some s') :
    s'.calls = s.calls ++ [msgsFrame msgs] := by
  have hfit := (inside_iff copy stack mem msgs).1 h.inside
  rw [h.sent hfit] at hstep
  cases Client.step_cases hstep with
  | send => rfl

end Iax.Tcp
