import Iax.Lib.Lts
import Iax.Matlab.FileHandler
import Mathlib.Logic.Function.Basic

/-!
# Readers of one session

`io_handler_base.m` creates its buffer in the default value of a property, `sbuf = buffer()`. MATLAB
evaluates that when it loads the class, so the objects of a session, files and sockets, all hold the
same buffer. Deleting an object drops its reference only, so that an object that is deleted is one
that does nothing more.

* `Session` is the state of a session, `step` what its objects do. For each byte in the buffer it is
  recorded which object put it there; nothing that an object does depends on that.
* `Reader` is what an object is for: a source whose bytes are returned in order.
* `reader_step`: an object behaves as its reader as long as no read takes the bytes of others.
* `readers_independent_iff`: all objects return what they would return alone if and only if no read
  finds bytes of another object among the first that it wants.
-/

namespace Iax.Matlab

/-! ## Sessions -/

/-- What an object keeps besides the buffer. The field `sbuf` of a file handler is not looked at
here: it stands for a reference to the buffer of the session. -/
inductive Handler
  | file (h : FileHandler)
  | socket

variable {ι : Type*}

/-- What a read has returned, and which object each byte of it came from. -/
structure Returned (ι : Type*) where
  reader : ι
  bytes : Bytes
  owners : List ι
  deriving DecidableEq

/-- A session: the buffer, the object that each of its bytes came from, the objects, and what their
reads have returned. -/
structure Session (ι : Type*) where
  sbuf : Bytes
  owners : List ι
  objs : ι → Option Handler
  returned : List (Returned ι)

/-- What the objects do. -/
inductive SessionAct (ι : Type*)
  /-- `file_handler(filename)`, on a file with the given bytes -/
  | newFile (i : ι) (blockLen : ℕ) (blockLen_pos : 0 < blockLen) (file : Bytes)
  /-- `socket_handler(addr)` -/
  | newSocket (i : ι)
  /-- the callback of a socket, which has read some bytes -/
  | arrive (i : ι) (bs : Bytes)
  /-- `read(len)`, when it returns -/
  | read (i : ι) (len : ℕ)

/-- Whose action it is. -/
def SessionAct.obj : SessionAct ι → ι
  | .newFile i _ _ _ => i
  | .newSocket i => i
  | .arrive i _ => i
  | .read i _ => i

namespace Session

/-- The session with no object. -/
def init : Session ι where
  sbuf := []
  owners := []
  objs := fun _ => none
  returned := []

/-- The bytes of the buffer with the objects that they came from. -/
def tagged (s : Session ι) : List (ι × UInt8) := s.owners.zip s.sbuf

/-- Every byte of the buffer has its object. -/
def Tagged (s : Session ι) : Prop := s.owners.length = s.sbuf.length

theorem tagged_map_snd {s : Session ι} (h : s.Tagged) : s.tagged.map (·.2) = s.sbuf :=
  List.map_snd_zip h.ge

theorem tagged_map_fst {s : Session ι} (h : s.Tagged) : s.tagged.map (·.1) = s.owners :=
  List.map_fst_zip h.le

variable [DecidableEq ι]

/-- What is left after object `i` has put `loaded` bytes behind the buffer and taken `bytes` from
its front, `sbuf` being the buffer then. -/
def took (s : Session ι) (i : ι) (loaded : ℕ) (bytes sbuf : Bytes) (obj : Handler) : Session ι :=
  let owners := s.owners ++ List.replicate loaded i
  { sbuf := sbuf
    owners := owners.drop bytes.length
    objs := Function.update s.objs i (some obj)
    returned := s.returned ++ [⟨i, bytes, owners.take bytes.length⟩] }

/-- A file that was just opened is not at its end. -/
theorem rest_of_not_end (file : Bytes) : false = true → file = [] := by simp

/-- One step. A socket whose `read` finds too few bytes in the buffer waits. -/
def step (s : Session ι) : SessionAct ι → Option (Session ι)
  | .newFile i blockLen blockLen_pos file =>
    match s.objs i with
    | some _ => none
    | none =>
      let h := FileHandler.readFileBlock
        { rest := file, sbuf := s.sbuf, isFileEnd := false, fileReadLen := 0, blockLen := blockLen,
          blockLen_pos := blockLen_pos, rest_of_end := rest_of_not_end file }
      some { s with
        sbuf := h.sbuf
        owners := s.owners ++ List.replicate (file.length - h.rest.length) i
        objs := Function.update s.objs i (some (.file h)) }
  | .newSocket i =>
    match s.objs i with
    | some _ => none
    | none => some { s with objs := Function.update s.objs i (some .socket) }
  | .arrive i bs =>
    match s.objs i with
    | some .socket =>
      some { s with sbuf := s.sbuf ++ bs, owners := s.owners ++ List.replicate bs.length i }
    | _ => none
  | .read i len =>
    match s.objs i with
    | none => none
    | some (.file h) =>
      match FileHandler.read { h with sbuf := s.sbuf } len with
      | .ok (bytes, h') =>
        some (s.took i (h.rest.length - h'.rest.length) bytes h'.sbuf (.file h'))
      | .error _ => none
    | some .socket =>
      if s.sbuf.length < len then none
      else
        match FileHandler.bufferRead s.sbuf len with
        | .ok (bytes, sbuf) => some (s.took i 0 bytes sbuf .socket)
        | .error _ => none

/-- The reads of object `i`. -/
def outputs (s : Session ι) (i : ι) : List (Returned ι) := s.returned.filter (·.reader = i)

/-- What a step has to meet: among the first `len` bytes of the buffer, before the read has put more
behind them, there is none of another object. -/
def OwnFirst (s : Session ι) : SessionAct ι → Prop
  | .read i len => ∀ j ∈ s.owners.take len, j = i
  | _ => True

/-! ## Own bytes -/

/-- The bytes that came from object `i`. -/
def own (i : ι) (xs : List (ι × UInt8)) : Bytes := (xs.filter (·.1 = i)).map (·.2)

theorem own_append (i : ι) (xs ys : List (ι × UInt8)) :
    own i (xs ++ ys) = own i xs ++ own i ys := by
  rw [own, List.filter_append, List.map_append, own, own]

/-- Bytes that all came from one object. -/
theorem own_of_forall {i : ι} {xs : List (ι × UInt8)} (h : ∀ p ∈ xs, p.1 = i) (j : ι) :
    own j xs = if i = j then xs.map (·.2) else [] := by
  rw [own]
  split_ifs with hij
  · rw [List.filter_eq_self.2 fun p hp => by simpa using (h p hp).trans hij]
  · rw [List.filter_eq_nil_iff.2 fun p hp => by simpa [h p hp] using hij, List.map_nil]

theorem own_replicate (i j : ι) (bs : Bytes) :
    own j ((List.replicate bs.length i).zip bs) = if i = j then bs else [] := by
  have hall : ∀ p ∈ (List.replicate bs.length i).zip bs, p.1 = i :=
    fun p hp => List.eq_of_mem_replicate (List.of_mem_zip hp).1
  rw [own_of_forall hall, List.map_snd_zip (List.length_replicate.ge)]

/-- What is left of the buffer when `x` is put behind it and `bytes` are taken from its front. -/
theorem tagged_took {s : Session ι} (h : s.Tagged) (i : ι) {x bytes sbuf : Bytes}
    (hsplit : s.sbuf ++ x = bytes ++ sbuf) (obj : Handler) :
    (s.took i x.length bytes sbuf obj).Tagged ∧
      (s.took i x.length bytes sbuf obj).tagged =
        (s.tagged ++ (List.replicate x.length i).zip x).drop bytes.length := by
  have hlen := congrArg List.length hsplit
  rw [List.length_append, List.length_append] at hlen
  have htagged : s.owners.length = s.sbuf.length := h
  constructor
  · simp only [Tagged, took, List.length_drop, List.length_append, List.length_replicate]
    omega
  · have hzip : s.tagged ++ (List.replicate x.length i).zip x =
        (s.owners ++ List.replicate x.length i).zip (bytes ++ sbuf) := by
      rw [← hsplit, tagged, List.zip_append htagged]
    have hdrop : (bytes ++ sbuf).drop bytes.length = sbuf := List.drop_left
    rw [hzip, tagged, took, List.zip, List.drop_zipWith, hdrop]

end Session

/-! ## Readers -/

/-- What an object is. -/
inductive Kind
  | file | socket
  deriving DecidableEq

/-- A source that is read in order: what it is, if it is there, the bytes that it has and that were
not returned yet, and those that were, read by read. -/
structure Reader where
  kind : Option Kind
  left : Bytes
  out : List Bytes

namespace Reader

/-- The reader that is not there yet. -/
def init : Reader where
  kind := none
  left := []
  out := []

/-- One step of the reader itself. -/
def step (r : Reader) : SessionAct ι → Option Reader
  | .newFile _ _ _ file =>
    if r.kind = none then some { r with kind := some .file, left := r.left ++ file } else none
  | .newSocket _ => if r.kind = none then some { r with kind := some .socket } else none
  | .arrive _ bs => if r.kind = some .socket then some { r with left := r.left ++ bs } else none
  | .read _ len =>
    if r.kind = some .file ∨ r.kind = some .socket ∧ len ≤ r.left.length then
      some { r with left := r.left.drop len, out := r.out ++ [r.left.take len] }
    else none

end Reader

namespace Session

/-- Every byte has its object, in the buffer and in what was returned. -/
structure Sound (s : Session ι) : Prop where
  tagged : s.Tagged
  returned : ∀ r ∈ s.returned, r.owners.length = r.bytes.length

/-- No read has returned a byte of another object. -/
def AllOwn (s : Session ι) : Prop := ∀ r ∈ s.returned, ∀ j ∈ r.owners, j = r.reader

theorem sound_init : (init : Session ι).Sound where
  tagged := rfl
  returned := by simp [init]

instance [DecidableEq ι] (s : Session ι) (a : SessionAct ι) : Decidable (s.OwnFirst a) := by
  cases a <;> unfold OwnFirst <;> infer_instance

/-- Where all bytes are own, the first ones are. -/
theorem ownFirst_of_forall {t : Session ι} {a : SessionAct ι} (hown : ∀ j ∈ t.owners, j = a.obj) :
    t.OwnFirst a := by
  cases a with
  | read i len => exact fun j hj => hown j (List.mem_of_mem_take hj)
  | _ => trivial

variable [DecidableEq ι]

/-- The kind of an object, and what is left of its file. -/
def kindOf : Option Handler → Option Kind
  | none => none
  | some (.file _) => some .file
  | some .socket => some .socket

def restOf : Option Handler → Bytes
  | none => []
  | some (.file h) => h.rest
  | some .socket => []

/-- Object `i` of the session, as a reader. -/
def reader (s : Session ι) (i : ι) : Reader where
  kind := kindOf (s.objs i)
  left := own i s.tagged ++ restOf (s.objs i)
  out := (s.outputs i).map Returned.bytes

/-- What is taken is own, and what is left is the rest. -/
theorem own_took {s : Session ι} (h : s.Tagged) {i : ι} {n : ℕ} {x bytes sbuf : Bytes}
    (obj : Handler) (hsplit : s.sbuf ++ x = bytes ++ sbuf) (hlen : bytes.length ≤ n)
    (hown : ∀ j ∈ s.owners.take n, j = i) (j : ι) :
    own j s.tagged ++ (if i = j then x else []) =
      (if i = j then bytes else []) ++ own j (s.took i x.length bytes sbuf obj).tagged := by
  set buf := s.tagged ++ (List.replicate x.length i).zip x with hbuf
  have hsnd : (buf.take bytes.length).map (·.2) = bytes := by
    rw [hbuf, List.map_take, List.map_append, tagged_map_snd h,
      List.map_snd_zip List.length_replicate.ge, hsplit, List.take_left]
  have hall : ∀ p ∈ buf.take bytes.length, p.1 = i := by
    intro p hp
    rw [hbuf, List.take_append] at hp
    rcases List.mem_append.1 hp with hp | hp
    · refine hown _ (List.take_subset_take_left _ hlen ?_)
      rw [← tagged_map_fst h, ← List.map_take]
      exact List.mem_map_of_mem hp
    · exact List.eq_of_mem_replicate (List.of_mem_zip (List.mem_of_mem_take hp)).1
  calc own j s.tagged ++ (if i = j then x else [])
      = own j buf := by rw [hbuf, own_append, own_replicate]
    _ = own j (buf.take bytes.length) ++ own j (buf.drop bytes.length) := by
        rw [← own_append, List.take_append_drop]
    _ = _ := by rw [own_of_forall hall, hsnd, (tagged_took h i hsplit obj).2]

/-- A read that takes own bytes only, for the reader that it belongs to. -/
theorem reader_took_self {s : Session ι} (h : s.Tagged) {i : ι} {n : ℕ} {x bytes sbuf : Bytes}
    (obj : Handler) (hsplit : s.sbuf ++ x = bytes ++ sbuf) (hlen : bytes.length ≤ n)
    (hend : bytes.length = n ∨ sbuf = [] ∧ restOf (some obj) = [])
    (hrest : restOf (s.objs i) = x ++ restOf (some obj)) (hown : ∀ j ∈ s.owners.take n, j = i) :
    (s.took i x.length bytes sbuf obj).reader i = Reader.mk (kindOf (some obj))
      ((s.reader i).left.drop n) ((s.reader i).out ++ [(s.reader i).left.take n]) := by
  have hobj : (s.took i x.length bytes sbuf obj).objs i = some obj := Function.update_self ..
  have hleft : (s.reader i).left =
      bytes ++ ((s.took i x.length bytes sbuf obj).reader i).left := by
    have htook := own_took h obj hsplit hlen hown i
    rw [if_pos rfl, if_pos rfl] at htook
    simp only [reader, hobj]
    rw [hrest, ← List.append_assoc, htook, List.append_assoc]
  have hsplitAt : (s.reader i).left.take n = bytes ∧
      (s.reader i).left.drop n = ((s.took i x.length bytes sbuf obj).reader i).left := by
    rw [hleft]
    rcases hend with hn | ⟨hnil, hrestNil⟩
    · rw [← hn, List.take_left, List.drop_left]
      exact ⟨rfl, rfl⟩
    · have hempty : ((s.took i x.length bytes sbuf obj).reader i).left = [] := by
        simp [reader, hrestNil, tagged, took, hnil, own]
      rw [hempty, List.append_nil, List.take_of_length_le hlen, List.drop_of_length_le hlen]
      exact ⟨rfl, rfl⟩
  rw [hsplitAt.1, hsplitAt.2]
  simp [reader, outputs, took]

/-- And for the others. -/
theorem reader_took_of_ne {s : Session ι} (h : s.Tagged) {i : ι} {n : ℕ} {x bytes sbuf : Bytes}
    {obj : Handler} (hsplit : s.sbuf ++ x = bytes ++ sbuf) (hlen : bytes.length ≤ n)
    (hown : ∀ j ∈ s.owners.take n, j = i) {j : ι} (hj : i ≠ j) :
    (s.took i x.length bytes sbuf obj).reader j = s.reader j := by
  have htook := own_took h obj hsplit hlen hown j
  rw [if_neg hj, if_neg hj, List.append_nil, List.nil_append] at htook
  have hobj : (s.took i x.length bytes sbuf obj).objs j = s.objs j :=
    Function.update_of_ne hj.symm ..
  rw [reader, reader, hobj, htook]
  simp [outputs, took, hj]

/-- A step that puts bytes behind the buffer, as the readers see it. -/
theorem reader_put {s s' : Session ι} (h : s.Tagged) {i : ι} {x : Bytes}
    (hsbuf : s'.sbuf = s.sbuf ++ x) (howners : s'.owners = s.owners ++ List.replicate x.length i)
    (hobjs : ∀ j, i ≠ j → s'.objs j = s.objs j) (hreturned : s'.returned = s.returned) :
    s'.reader i = Reader.mk (kindOf (s'.objs i)) (own i s.tagged ++ x ++ restOf (s'.objs i))
        (s.reader i).out ∧
      ∀ j, i ≠ j → s'.reader j = s.reader j := by
  have hown (j : ι) : own j s'.tagged = own j s.tagged ++ if i = j then x else [] := by
    rw [tagged, hsbuf, howners, List.zip_append h, own_append, own_replicate, tagged]
  refine ⟨?_, fun j hj => ?_⟩
  · rw [reader, hown i, if_pos rfl, outputs, hreturned]
    rfl
  · rw [reader, reader, hown j, if_neg hj, List.append_nil, hobjs j hj, outputs, outputs, hreturned]

/-- What a step that is not a read does: it puts bytes behind the buffer, for the object's reader as
well, whatever there is for it in the buffer. -/
theorem step_of_put {s s' : Session ι} {a : SessionAct ι} (hput : ∀ i len, a ≠ .read i len)
    (hstep : s.step a = some s') : ∃ x, s'.sbuf = s.sbuf ++ x ∧
      s'.owners = s.owners ++ List.replicate x.length a.obj ∧
      (∀ j, a.obj ≠ j → s'.objs j = s.objs j) ∧ s'.returned = s.returned ∧
      ∀ left out, (Reader.mk (kindOf (s.objs a.obj)) (left ++ restOf (s.objs a.obj)) out).step a =
        some (Reader.mk (kindOf (s'.objs a.obj)) (left ++ x ++ restOf (s'.objs a.obj)) out) := by
  cases a with
  | newFile i blockLen blockLen_pos file =>
    simp only [step] at hstep
    split at hstep
    · cases hstep
    rename_i hobj
    cases hstep
    refine ⟨file.take blockLen, rfl, ?_, fun j hj => Function.update_of_ne (Ne.symm hj) .., rfl,
      fun left out => ?_⟩
    · have hlen : file.length - (file.drop blockLen).length = (file.take blockLen).length := by
        rw [List.length_drop, List.length_take]
        omega
      simp only [FileHandler.readFileBlock, hlen, SessionAct.obj]
    · simp only [SessionAct.obj, hobj, Function.update_self, kindOf, restOf, List.append_nil,
        Reader.step, FileHandler.readFileBlock, if_true, List.append_assoc, List.take_append_drop]
  | newSocket i =>
    simp only [step] at hstep
    split at hstep
    · cases hstep
    rename_i hobj
    cases hstep
    refine ⟨[], by simp, by simp, fun j hj => Function.update_of_ne (Ne.symm hj) .., rfl,
      fun left out => ?_⟩
    simp only [SessionAct.obj, hobj, Function.update_self, kindOf, restOf, List.append_nil,
      Reader.step, if_true]
  | arrive i bs =>
    simp only [step] at hstep
    split at hstep
    · rename_i hobj
      cases hstep
      refine ⟨bs, rfl, rfl, fun j hj => rfl, rfl, fun left out => ?_⟩
      simp only [SessionAct.obj, hobj, kindOf, restOf, List.append_nil, Reader.step, if_true]
    · cases hstep
  | read i len => exact absurd rfl (hput i len)

/-- What a read does: it puts bytes of the object's file behind the buffer and takes bytes from its
front, as many as are wanted, or all that there are when nothing is left of the file. -/
theorem step_of_read {s s' : Session ι} {i : ι} {len : ℕ} (hstep : s.step (.read i len) = some s') :
    ∃ x bytes sbuf obj, s' = s.took i x.length bytes sbuf obj ∧ s.sbuf ++ x = bytes ++ sbuf ∧
      bytes.length ≤ len ∧ (bytes.length = len ∨ sbuf = [] ∧ restOf (some obj) = []) ∧
      restOf (s.objs i) = x ++ restOf (some obj) ∧ kindOf (s.objs i) = kindOf (some obj) ∧
      (kindOf (some obj) = some .file ∨ kindOf (some obj) = some .socket ∧ bytes.length = len) := by
  simp only [step] at hstep
  split at hstep
  · cases hstep
  · rename_i f hobj
    split at hstep
    · rename_i bytes f' hread
      cases hstep
      obtain ⟨x, hrest, hsplit⟩ := FileHandler.read_split hread
      obtain ⟨f'', hread', hcontents, -⟩ := FileHandler.read_eq { f with sbuf := s.sbuf } len
      obtain ⟨rfl, rfl⟩ := Prod.mk.inj (Except.ok.inj (hread'.symm.trans hread))
      have hx : f.rest.length - f''.rest.length = x.length := by
        rw [show f.rest = x ++ f''.rest from hrest, List.length_append, Nat.add_sub_cancel]
      refine ⟨x, _, f''.sbuf, .file f'', by rw [hx], hsplit, ?_, ?_, by rw [hobj]; exact hrest,
        by rw [hobj]; rfl, .inl rfl⟩
      · rw [List.length_take]
        exact Nat.min_le_left ..
      · rcases Nat.lt_or_ge (FileHandler.contents { f with sbuf := s.sbuf }).length len with
          hlt | hge
        · rw [List.drop_of_length_le hlt.le] at hcontents
          exact .inr (List.append_eq_nil_iff.1 hcontents)
        · exact .inl (List.length_take_of_le hge)
    · cases hstep
  · rename_i hobj
    split_ifs at hstep with hwait
    rw [FileHandler.bufferRead_eq] at hstep
    cases hstep
    have hlen : (s.sbuf.take len).length = len := List.length_take_of_le (by omega)
    exact ⟨[], _, _, .socket, rfl, by rw [List.append_nil, List.take_append_drop], hlen.le,
      .inl hlen, by rw [hobj]; rfl, by rw [hobj], .inr ⟨rfl, hlen⟩⟩

/-- **A step** that takes no bytes of others is a step of the reader that it belongs to. -/
theorem reader_step {s s' : Session ι} {a : SessionAct ι} (h : s.Tagged) (hown : s.OwnFirst a)
    (hstep : s.step a = some s') : (s.reader a.obj).step a = some (s'.reader a.obj) ∧
      ∀ j, a.obj ≠ j → s'.reader j = s.reader j := by
  by_cases hput : ∀ i len, a ≠ .read i len
  · obtain ⟨x, hsbuf, howners, hobjs, hreturned, hreader⟩ := step_of_put hput hstep
    obtain ⟨hself, hother⟩ := reader_put h hsbuf howners hobjs hreturned
    exact ⟨by rw [hself]; exact hreader .., hother⟩
  · simp only [not_forall, not_not] at hput
    obtain ⟨i, len, rfl⟩ := hput
    obtain ⟨x, bytes, sbuf, obj, rfl, hsplit, hlen, hend, hrest, hkind, hfull⟩ := step_of_read hstep
    refine ⟨?_, fun j hj => reader_took_of_ne h hsplit hlen hown hj⟩
    rw [SessionAct.obj, reader_took_self h obj hsplit hlen hend hrest hown]
    have hleft : kindOf (some obj) = some .file ∨
        kindOf (some obj) = some .socket ∧ len ≤ (s.reader i).left.length := by
      refine hfull.imp_right fun ⟨hsocket, hall⟩ => ⟨hsocket, ?_⟩
      have htook := own_took h obj hsplit hlen hown i
      rw [if_pos rfl, if_pos rfl] at htook
      rw [reader, hrest, ← List.append_assoc, htook]
      simp only [List.length_append]
      omega
    rw [Reader.step, if_pos (by rw [show (s.reader i).kind = _ from hkind]; exact hleft)]
    rw [← show (s.reader i).kind = _ from hkind]

/-! ## Runs -/

theorem Sound.step {s s' : Session ι} {a : SessionAct ι} (h : s.Sound)
    (hstep : s.step a = some s') : s'.Sound := by
  have htagged : s.owners.length = s.sbuf.length := h.tagged
  by_cases hput : ∀ i len, a ≠ .read i len
  · obtain ⟨x, hsbuf, howners, -, hreturned, -⟩ := step_of_put hput hstep
    exact ⟨by simp [Tagged, hsbuf, howners, htagged], hreturned ▸ h.returned⟩
  · simp only [not_forall, not_not] at hput
    obtain ⟨i, len, rfl⟩ := hput
    obtain ⟨x, bytes, sbuf, obj, rfl, hsplit, -⟩ := step_of_read hstep
    refine ⟨(tagged_took h.tagged i hsplit obj).1, fun r hr => ?_⟩
    rcases List.mem_append.1 hr with hr | hr
    · exact h.returned r hr
    · obtain rfl := List.mem_singleton.1 hr
      have hlen := congrArg List.length hsplit
      simp only [List.length_append] at hlen
      simp only [List.length_take, List.length_append, List.length_replicate]
      omega

/-- A step keeps to own bytes exactly when it meets the condition. -/
theorem allOwn_step {s s' : Session ι} {a : SessionAct ι} (h : s.Sound)
    (hstep : s.step a = some s') : s'.AllOwn ↔ s.AllOwn ∧ s.OwnFirst a := by
  have htagged : s.owners.length = s.sbuf.length := h.tagged
  by_cases hput : ∀ i len, a ≠ .read i len
  · obtain ⟨x, -, -, -, hreturned, -⟩ := step_of_put hput hstep
    have hown : s.OwnFirst a := by
      cases a with
      | read i len => exact absurd rfl (hput i len)
      | _ => trivial
    rw [AllOwn, hreturned, AllOwn]
    exact (and_iff_left hown).symm
  · simp only [not_forall, not_not] at hput
    obtain ⟨i, len, rfl⟩ := hput
    obtain ⟨x, bytes, sbuf, obj, rfl, hsplit, hlen, hend, -⟩ := step_of_read hstep
    have hlength := congrArg List.length hsplit
    simp only [List.length_append] at hlength
    -- what is taken holds the first `len` bytes of the buffer, and else only loaded ones
    have htake : s.owners.take bytes.length = s.owners.take len := by
      rcases hend with hn | ⟨hnil, -⟩
      · rw [hn]
      · rw [hnil, List.length_nil] at hlength
        rw [List.take_of_length_le (by omega), List.take_of_length_le (by omega)]
    have hnew : (∀ j ∈ (s.owners ++ List.replicate x.length i).take bytes.length, j = i) ↔
        ∀ j ∈ s.owners.take len, j = i := by
      rw [List.take_append, htake]
      simp only [List.mem_append, List.take_replicate]
      exact ⟨fun hall j hj => hall j (.inl hj),
        fun hall j hj => hj.elim (hall j) List.eq_of_mem_replicate⟩
    simp only [AllOwn, OwnFirst, took, List.mem_append, List.mem_singleton]
    constructor
    · exact fun hall => ⟨fun r hr => hall r (.inl hr), hnew.1 (hall _ (.inr rfl))⟩
    · rintro ⟨hall, hread⟩ r (hr | rfl)
      · exact hall r hr
      · exact hnew.2 hread

/-- What a reader has returned, when all of it is own. -/
theorem outputs_eq {s : Session ι} (h : s.Sound) (hown : s.AllOwn) (i : ι) :
    s.outputs i =
      (s.reader i).out.map fun bytes => ⟨i, bytes, List.replicate bytes.length i⟩ := by
  rw [reader, List.map_map]
  refine (List.map_id _).symm.trans (List.map_congr_left fun r hr => ?_)
  obtain ⟨hr, hreader⟩ := List.mem_filter.1 hr
  have howners : r.owners = List.replicate r.bytes.length i := by
    refine List.eq_replicate_iff.2 ⟨h.returned r hr, fun j hj => ?_⟩
    exact (hown r hr j hj).trans (of_decide_eq_true hreader)
  cases r
  simp_all

/-- A session whose buffer holds bytes of `i` only lets `i` do what its reader does. -/
theorem step_of_reader {t : Session ι} (h : t.Tagged) {a : SessionAct ι}
    (hown : ∀ j ∈ t.owners, j = a.obj) {r : Reader} (hr : (t.reader a.obj).step a = some r) :
    ∃ t', t.step a = some t' := by
  cases a with
  | newFile i blockLen blockLen_pos file =>
    cases hobj : t.objs i with
    | none => simp [step, hobj]
    | some obj => cases obj <;> simp [Reader.step, reader, SessionAct.obj, hobj, kindOf] at hr
  | newSocket i =>
    cases hobj : t.objs i with
    | none => simp [step, hobj]
    | some obj => cases obj <;> simp [Reader.step, reader, SessionAct.obj, hobj, kindOf] at hr
  | arrive i bs =>
    cases hobj : t.objs i with
    | none => simp [Reader.step, reader, SessionAct.obj, hobj, kindOf] at hr
    | some obj =>
      cases obj with
      | file f => simp [Reader.step, reader, SessionAct.obj, hobj, kindOf] at hr
      | socket => simp [step, hobj]
  | read i len =>
    cases hobj : t.objs i with
    | none => simp [Reader.step, reader, SessionAct.obj, hobj, kindOf] at hr
    | some obj =>
      cases obj with
      | file f =>
        obtain ⟨f', hread, -⟩ := FileHandler.read_eq { f with sbuf := t.sbuf } len
        simp [step, hobj, hread]
      | socket =>
        have hzip : ∀ p ∈ t.tagged, p.1 = i := fun p hp => hown _ (List.of_mem_zip hp).1
        have hall : own i t.tagged = t.sbuf := by
          rw [own_of_forall hzip, if_pos rfl, tagged_map_snd h]
        have hlen : len ≤ t.sbuf.length := by
          rw [Reader.step] at hr
          split_ifs at hr with hwait
          simpa [reader, SessionAct.obj, hobj, kindOf, restOf, hall] using hwait
        simp [step, hobj, Nat.not_lt.2 hlen, FileHandler.bufferRead_eq]

/-- What is in the buffer after a step was there before or is the object's. -/
theorem mem_owners_step {t t' : Session ι} {a : SessionAct ι} (hstep : t.step a = some t')
    (hown : ∀ j ∈ t.owners, j = a.obj) : ∀ j ∈ t'.owners, j = a.obj := by
  have happend (x : Bytes) : ∀ j ∈ t.owners ++ List.replicate x.length a.obj, j = a.obj :=
    fun j hj => (List.mem_append.1 hj).elim (hown j) List.eq_of_mem_replicate
  by_cases hput : ∀ i len, a ≠ .read i len
  · obtain ⟨x, -, howners, -⟩ := step_of_put hput hstep
    rw [howners]
    exact happend x
  · simp only [not_forall, not_not] at hput
    obtain ⟨i, len, rfl⟩ := hput
    obtain ⟨x, bytes, sbuf, obj, rfl, -⟩ := step_of_read hstep
    exact fun j hj => happend x j (List.mem_of_mem_drop hj)

/-- A run that takes own bytes only, and the actions of one object of it alone. -/
theorem exec_alone {acts : List (SessionAct ι)} (i : ι) {s s' t : Session ι} (hs : s.Sound)
    (ht : t.Sound) (hrun : Lts.exec step s acts = some s')
    (hmeets : Lts.Meets step OwnFirst s acts) (hown : ∀ j ∈ t.owners, j = i)
    (hallOwn : t.AllOwn) (hreader : t.reader i = s.reader i) :
    ∃ t', Lts.exec step t (acts.filter (·.obj = i)) = some t' ∧ t'.Sound ∧ t'.AllOwn ∧
      t'.reader i = s'.reader i := by
  induction acts generalizing s t with
  | nil =>
    obtain rfl : s = s' := by simpa using hrun
    exact ⟨t, rfl, ht, hallOwn, hreader⟩
  | cons a acts ih =>
    obtain ⟨s₁, hstep, hrest⟩ := (Lts.exec_cons_eq_some step).1 hrun
    obtain ⟨hfirst, hmeets⟩ := (Lts.meets_cons_iff step hstep).1 hmeets
    obtain ⟨hself, hother⟩ := reader_step hs.tagged hfirst hstep
    have hs₁ : s₁.Sound := hs.step hstep
    by_cases hobj : a.obj = i
    · subst hobj
      rw [← hreader] at hself
      obtain ⟨t₁, htstep⟩ := step_of_reader ht.tagged hown hself
      have htfirst : t.OwnFirst a := ownFirst_of_forall hown
      obtain ⟨htself, -⟩ := reader_step ht.tagged htfirst htstep
      obtain ⟨t', hexec, hrestOf⟩ := ih hs₁ (ht.step htstep) hrest hmeets
        (mem_owners_step htstep hown) ((allOwn_step ht htstep).2 ⟨hallOwn, htfirst⟩)
        (Option.some.inj (htself.symm.trans hself))
      refine ⟨t', ?_, hrestOf⟩
      rw [List.filter_cons_of_pos (by simp)]
      exact (Lts.exec_cons_eq_some step).2 ⟨t₁, htstep, hexec⟩
    · rw [List.filter_cons_of_neg (by simpa using hobj)]
      exact ih hs₁ ht hrest hmeets hown hallOwn (hreader.trans (hother i hobj).symm)

/-- The actions of one object, alone, take its own bytes only. -/
theorem allOwn_alone {i : ι} {acts : List (SessionAct ι)} (hobj : ∀ a ∈ acts, a.obj = i)
    {t t' : Session ι} (ht : t.Sound) (hown : ∀ j ∈ t.owners, j = i) (hallOwn : t.AllOwn)
    (hrun : Lts.exec step t acts = some t') : t'.AllOwn := by
  induction acts generalizing t with
  | nil =>
    obtain rfl : t = t' := by simpa using hrun
    exact hallOwn
  | cons a acts ih =>
    obtain ⟨rfl, hobj⟩ := List.forall_mem_cons.1 hobj
    obtain ⟨t₁, hstep, hrest⟩ := (Lts.exec_cons_eq_some step).1 hrun
    have hfirst : t.OwnFirst a := ownFirst_of_forall hown
    exact ih hobj (ht.step hstep) (mem_owners_step hstep hown)
      ((allOwn_step ht hstep).2 ⟨hallOwn, hfirst⟩) hrest

/-- **Readers of one session**: each object returns what it would return alone if and only if no
read finds bytes of another object among the first that it wants. -/
theorem readers_independent_iff {acts : List (SessionAct ι)} {s : Session ι}
    (hrun : Lts.exec step init acts = some s) :
    (∀ i, ∃ t, Lts.exec step init (acts.filter (·.obj = i)) = some t ∧ s.outputs i = t.outputs i) ↔
      Lts.Meets step OwnFirst init acts := by
  have hinit : (init : Session ι).AllOwn := by simp [AllOwn, init]
  have hempty (i : ι) : ∀ j ∈ (init : Session ι).owners, j = i := by simp [init]
  have hiff := Lts.exec_iff step (fun _ _ _ h hstep => Sound.step h hstep)
    (fun _ _ _ h hstep => allOwn_step h hstep) sound_init hrun
  have hsound : s.Sound := Lts.exec_invariant step (C := fun _ _ => True)
    (fun _ _ _ h _ hstep => Sound.step h hstep) sound_init
    (Lts.meets_of_forall step (fun _ _ => trivial) _ _) hrun
  constructor
  · intro halone
    refine (hiff.1 fun r hr => ?_).2
    obtain ⟨t, hexec, hout⟩ := halone r.reader
    have hmem : r ∈ t.outputs r.reader := hout ▸ List.mem_filter.2 ⟨hr, by simp⟩
    refine allOwn_alone (fun a ha => ?_) sound_init (hempty r.reader) hinit hexec r
      (List.mem_of_mem_filter hmem)
    exact of_decide_eq_true (List.mem_filter.1 ha).2
  · intro hmeets i
    obtain ⟨t, hexec, ht, htown, hreader⟩ :=
      exec_alone i sound_init sound_init hrun hmeets (hempty i) hinit rfl
    refine ⟨t, hexec, ?_⟩
    rw [outputs_eq hsound (hiff.2 ⟨hinit, hmeets⟩), outputs_eq ht htown, hreader]

/-- Two sockets, of which the first reads all that it has before the second begins. -/
def inTurn : List (SessionAct ℕ) :=
  [.newSocket 0, .arrive 0 [1, 2], .read 0 2, .newSocket 1, .arrive 1 [7], .read 1 1]

theorem readers_independent_inTurn : ∃ s : Session ℕ, Lts.exec step init inTurn = some s ∧
    ∀ i, ∃ t, Lts.exec step init (inTurn.filter (·.obj = i)) = some t ∧
      s.outputs i = t.outputs i := by
  have hrun : (Lts.exec step init inTurn).isSome = true := by decide +kernel
  obtain ⟨s, hs⟩ := Option.isSome_iff_exists.1 hrun
  exact ⟨s, hs, (readers_independent_iff hs).2 (by decide +kernel)⟩

/-- A file of two bytes and another of one. -/
def overlapping : List (SessionAct ℕ) :=
  [.newFile 0 4 (Nat.zero_lt_succ 3) [1, 2], .newFile 1 4 (Nat.zero_lt_succ 3) [7], .read 1 1]

/-- The read of the second file returns a byte of the first. -/
theorem readers_mixed : ∃ s t : Session ℕ, Lts.exec step init overlapping = some s ∧
    Lts.exec step init (overlapping.filter (·.obj = 1)) = some t ∧
      (s.outputs 1).map Returned.bytes = [[1]] ∧ (t.outputs 1).map Returned.bytes = [[7]] := by
  have hs : (Lts.exec step init overlapping).map (fun s => (s.outputs 1).map Returned.bytes) =
      some [[1]] := by decide +kernel
  have ht : (Lts.exec step init (overlapping.filter (·.obj = 1))).map
      (fun s => (s.outputs 1).map Returned.bytes) = some [[7]] := by decide +kernel
  obtain ⟨s, hs, hsout⟩ := Option.map_eq_some_iff.1 hs
  obtain ⟨t, ht, htout⟩ := Option.map_eq_some_iff.1 ht
  exact ⟨s, t, hs, ht, hsout, htout⟩

end Session

end Iax.Matlab
