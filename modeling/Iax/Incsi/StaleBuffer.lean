import Iax.Incsi.LogReaders

/-!
# What a record leaves to the next

`print_packets` and `get_first_bfee` read the head of every entry into one buffer and look at the
rate and the number of antennas there, however short the entry is. Behind the end of a short one
they find what earlier entries have left.

* `EntryReader.behind` is the state of the loop behind some records, `run_behind` says what it is in
  a run, and `EntryReader.result` what the reader does with the next record.
* `result_printPackets`, `result_getFirstBfee`: the results, by the record and the buffer.
* `independent_iff`: the records whose result is the same behind all records and buffers.
-/

namespace Iax.Incsi

open Bytes

variable {ω : Type}

/-! ## Behind the records -/

/-- The loop behind some records, `none` when the reader has left it in one of them. -/
def EntryReader.behind (reader : EntryReader ω) (buf : Memory) (f : CFile) :
    List Bytes → Option (Memory × CFile)
  | [] => some (buf, f)
  | r :: rs =>
    let t := reader.turnAt r.length buf f
    if t.exit = none then reader.behind t.buf t.file rs else none

/-- What the reader does with a record: what it prints or writes, and its status when it leaves
the loop. -/
def EntryReader.result (reader : EntryReader ω) (r : Bytes) (s : Memory × CFile) :
    List ω × Option ℤ :=
  let t := reader.turnAt r.length s.1 s.2
  (t.out, t.exit)

/-- A record is parsed on its own: behind any records of any two files, and with anything in the two
buffers at the beginning, the result is the same. -/
def EntryReader.Independent (reader : EntryReader ω) (r : Bytes) : Prop :=
  ∀ (buf₁ buf₂ : Memory) (rs₁ rs₂ : List Bytes) (post₁ post₂ : Bytes) (s₁ s₂ : Memory × CFile),
    (∀ r' ∈ rs₁ ++ rs₂, IsEntry r') →
    reader.behind buf₁ (CFile.fopen (logFile rs₁ ++ (logRecord r ++ post₁))) rs₁ = some s₁ →
    reader.behind buf₂ (CFile.fopen (logFile rs₂ ++ (logRecord r ++ post₂))) rs₂ = some s₂ →
    reader.result r s₁ = reader.result r s₂

section Behind

variable {reader : EntryReader ω} {head : ℕ → ℕ} (hreads : Reads reader head)

include hreads

/-- **Behind the records** of a file the reader goes on as a run from that state: what it has seen
and written before comes first. -/
theorem run_behind {rs : List Bytes} {buf : Memory} {f : CFile} {post : Bytes}
    {s : Memory × CFile} (hrs : ∀ r ∈ rs, IsEntry r) (h : f.rest = logFile rs ++ post)
    (heof : f.eof = false) (hs : reader.behind buf f rs = some s) :
    s.2.rest = post ∧ s.2.eof = false ∧
      (reader.run buf f).visits = rs.map (view head) ++ (reader.run s.1 s.2).visits ∧
      (reader.run s.1 s.2).out <:+ (reader.run buf f).out ∧
      (reader.run buf f).exit = (reader.run s.1 s.2).exit := by
  induction rs generalizing buf f with
  | nil =>
    cases hs
    exact ⟨h, heof, rfl, List.suffix_rfl, rfl⟩
  | cons r rs ih =>
    obtain ⟨hr, hle⟩ := hrs r List.mem_cons_self
    rw [logFile, List.flatMap_cons, List.append_assoc] at h
    have hword := h
    rw [logRecord, List.append_assoc] at hword
    simp only [EntryReader.behind, Option.ite_none_right_eq_some] at hs
    obtain ⟨hexit, hs⟩ := hs
    obtain ⟨hrest, heof', -⟩ := turnAt_file hreads buf h heof hexit
    obtain ⟨hend, hclear, hvisits, hout, hstatus⟩ :=
      ih (fun r' hr' => hrs r' (List.mem_cons_of_mem r hr')) hrest heof' hs
    have hrun := run_entry reader buf hr hle hword heof
    simp only [hexit] at hrun
    rw [hrun]
    refine ⟨hend, hclear, ?_, ?_, hstatus⟩
    · simp only [LogRun.cons, hvisits, turnAt_seen hreads buf h]
      rfl
    · exact hout.trans (List.suffix_append ..)

/-- A record that gives the same result with every buffer is parsed on its own, and no other. -/
theorem independent_iff_of_result {r : Bytes} {result : Memory → List ω × Option ℤ}
    (hresult : ∀ (buf : Memory) (f : CFile) (post : Bytes), f.rest = logRecord r ++ post →
      reader.result r (buf, f) = result buf) :
    reader.Independent r ↔ ∀ buf₁ buf₂, result buf₁ = result buf₂ := by
  constructor
  · intro h buf₁ buf₂
    have hfile : (CFile.fopen (logFile [] ++ (logRecord r ++ []))).rest = logRecord r ++ [] := rfl
    rw [← hresult buf₁ _ [] hfile, ← hresult buf₂ _ [] hfile]
    exact h buf₁ buf₂ [] [] [] [] _ _ (by simp) rfl rfl
  · intro h buf₁ buf₂ rs₁ rs₂ post₁ post₂ s₁ s₂ hrs hs₁ hs₂
    obtain ⟨hrs₁, hrs₂⟩ := List.forall_mem_append.1 hrs
    have hfile₁ := (run_behind hreads hrs₁ rfl rfl hs₁).1
    have hfile₂ := (run_behind hreads hrs₂ rfl rfl hs₂).1
    rw [hresult s₁.1 s₁.2 post₁ hfile₁, hresult s₂.1 s₂.2 post₂ hfile₂]
    exact h _ _

end Behind

/-! ## The head of a record -/

/-- A byte of the record, or of the buffer behind its end. -/
def byteAt (r : Bytes) (buf : Memory) (i : ℕ) : UInt8 := r.getD i (buf i)

/-- The rate that is found at a record. -/
def rateOf (r : Bytes) (buf : Memory) : ℕ :=
  (byteAt r buf 19).toNat + 256 * (byteAt r buf 20).toNat

/-- The tests of `get_first_bfee` at a record. -/
def FirstArgs.selects (args : FirstArgs) (r : Bytes) (buf : Memory) : Bool :=
  byteAt r buf 0 == bfeeCode && rateOf r buf == args.fakeRateNFlags.toNat &&
    args.nrx.all (byteAt r buf 9 == ·)

theorem byteAt_of_lt {r : Bytes} {i : ℕ} (h : i < r.length) (buf : Memory) :
    byteAt r buf i = r[i] := by
  simp [byteAt, h]

theorem byteAt_of_le {r : Bytes} {i : ℕ} (h : r.length ≤ i) (buf : Memory) :
    byteAt r buf i = buf i := by
  simp [byteAt, h]

/-- The bytes of a record do not depend on the buffer. -/
theorem byteAt_congr {r : Bytes} {i : ℕ} (h : i < r.length) (buf buf' : Memory) :
    byteAt r buf i = byteAt r buf' i := by
  rw [byteAt_of_lt h, byteAt_of_lt h]

theorem bufRate_eq (buf : Memory) : bufRate buf = (buf 19).toNat + 256 * (buf 20).toNat := rfl

/-- The buffer, once the head of a record has been read. -/
theorem write_head_apply (r : Bytes) (buf : Memory) {i : ℕ} (h : i < headSize) :
    buf.write 0 (r.take (min headSize r.length)) i = byteAt r buf i := by
  have htake : r.take (min headSize r.length) = r.take headSize := by
    rw [← List.take_take, List.take_length]
  rw [htake, Memory.write, if_pos (Nat.zero_le _), Nat.sub_zero, byteAt]
  simp [List.getD_eq_getElem?_getD, List.getElem?_take_of_lt h]

/-- What `print_packets` prints for a record. -/
theorem result_printPackets {r post : Bytes} {f : CFile} (buf : Memory)
    (h : f.rest = logRecord r ++ post) : printPackets.result r (buf, f) =
      (if byteAt r buf 0 = bfeeCode then [rateOf r buf] else [], none) := by
  rw [logRecord, List.append_assoc] at h
  have hrest := CFile.rest_advance f.eof h
  rw [length_beBytes] at hrest
  simp only [EntryReader.result, EntryReader.turnAt, printPackets,
    fread_head hrest (Nat.min_le_right headSize _), bufRate_eq]
  rw [write_head_apply r buf (by decide), write_head_apply r buf (by decide),
    write_head_apply r buf (by decide)]
  rfl

/-- The tests on the buffer are those on the record. -/
theorem found_eq_selects (args : FirstArgs) (r : Bytes) (buf : Memory) :
    args.found (buf.write 0 (r.take (min headSize r.length))) = args.selects r buf := by
  rw [FirstArgs.found, bufRate_eq, bufNrx, write_head_apply r buf (by decide),
    write_head_apply r buf (by decide), write_head_apply r buf (by decide),
    write_head_apply r buf (by decide)]
  rfl

/-- An entry that is read in two parts is in the buffer. -/
theorem read_head_rest (r : Bytes) (buf : Memory) :
    ((buf.write 0 (r.take (min headSize r.length))).write headSize
      (r.drop (min headSize r.length))).read 0 r.length = r := by
  rcases Nat.le_total r.length headSize with hle | hle
  · have hread := read_write_take (le_refl r.length) buf
    rw [List.take_length] at hread
    rw [Nat.min_eq_right hle, List.take_length, Memory.read_write_below _ _ (by omega), hread]
  · rw [Nat.min_eq_left hle]
    have hhead : ((buf.write 0 (r.take headSize)).write headSize (r.drop headSize)).read 0
        headSize = r.take headSize := by
      rw [Memory.read_write_below _ _ (by omega), read_write_take hle]
    have htail : ((buf.write 0 (r.take headSize)).write headSize (r.drop headSize)).read headSize
        (r.drop headSize).length = r.drop headSize := Memory.read_write_self ..
    obtain ⟨k, hk⟩ := Nat.exists_eq_add_of_le hle
    have hdrop : (r.drop headSize).length = k := by
      rw [List.length_drop, hk, Nat.add_sub_cancel_left]
    rw [hdrop] at htail
    rw [hk, Memory.read_add, hhead, Nat.zero_add, htail, List.take_append_drop]

/-- What `get_first_bfee` does with a record. -/
theorem result_getFirstBfee (args : FirstArgs) {r post : Bytes} {f : CFile} (buf : Memory)
    (h : f.rest = logRecord r ++ post) : (getFirstBfee args).result r (buf, f) =
      if args.selects r buf then
        if args.creatable then ([logRecord r], some 0) else ([], some 1)
      else ([], none) := by
  rw [logRecord, List.append_assoc] at h
  have hrest := CFile.rest_advance f.eof h
  rw [length_beBytes] at hrest
  have hmin := Nat.min_le_right headSize r.length
  -- what the second `fread` delivers
  have hsplit : CFile.rest { f with pos := f.pos + 2 } =
      r.take (min headSize r.length) ++ (r.drop (min headSize r.length) ++ post) := by
    rw [← List.append_assoc, List.take_append_drop]
    exact hrest
  have htail := CFile.rest_advance f.eof hsplit
  rw [List.length_take_of_le hmin] at htail
  have hdrop := CFile.fread_append htail
  rw [List.length_drop] at hdrop
  simp only [EntryReader.result, EntryReader.turnAt, getFirstBfee, fread_head hrest hmin,
    found_eq_selects]
  split_ifs
  · simp only [hdrop, read_head_rest]
    rfl
  · rfl
  · rfl

/-! ## Independence -/

/-- A beamforming record that ends before its rate does. -/
def ShortBfee (r : Bytes) : Prop := r.head? = some bfeeCode ∧ r.length < headSize

/-- What there is of the low byte of the rate and of the number of antennas is as wanted. -/
def FirstArgs.MayFind (args : FirstArgs) (r : Bytes) : Prop :=
  (∀ b, r[19]? = some b → b.toNat = args.fakeRateNFlags.toNat % 256) ∧
    ∀ b, r[9]? = some b → args.nrx.all (b == ·) = true

instance (r : Bytes) : Decidable (ShortBfee r) := by
  unfold ShortBfee
  infer_instance

/-- A record of the log begins with its code. -/
theorem byteAt_zero_eq_iff {r : Bytes} (hr : IsEntry r) (buf : Memory) :
    byteAt r buf 0 = bfeeCode ↔ r.head? = some bfeeCode := by
  obtain ⟨hpos, -⟩ := hr
  rw [byteAt_of_lt hpos, List.head?_eq_getElem?, List.getElem?_eq_getElem hpos, Option.some_inj]

/-- The rate of a record that is not short. -/
theorem rateOf_congr {r : Bytes} (h : headSize ≤ r.length) (buf buf' : Memory) :
    rateOf r buf = rateOf r buf' := by
  have hsize : 20 < headSize := by decide
  rw [rateOf, rateOf, byteAt_congr (by omega) buf buf', byteAt_congr (by omega) buf buf']

/-- With two bytes behind the end of a record that ends before its rate, there are two rates. -/
theorem rateOf_ne {r : Bytes} (h : r.length < headSize) {buf buf' : Memory}
    (hne : buf 20 ≠ buf' 20) : rateOf r buf ≠ rateOf r buf' := by
  have hle : r.length ≤ 20 := Nat.le_of_lt_succ h
  have hlow := (byteAt r buf 19).toNat_lt
  have hlow' := (byteAt r buf' 19).toNat_lt
  have hhigh : (buf 20).toNat ≠ (buf' 20).toNat := fun heq => hne (UInt8.toNat_inj.1 heq)
  rw [rateOf, rateOf, byteAt_of_le hle, byteAt_of_le hle]
  omega

/-- `print_packets` parses all records on their own but the short ones. -/
theorem independent_printPackets_iff {r : Bytes} (hr : IsEntry r) :
    printPackets.Independent r ↔ ¬ ShortBfee r := by
  rw [independent_iff_of_result reads_printPackets fun buf f post => result_printPackets buf]
  simp only [byteAt_zero_eq_iff hr]
  by_cases hcode : r.head? = some bfeeCode
  · simp only [hcode, if_true, Prod.mk.injEq, List.cons.injEq, and_true]
    constructor
    · rintro h ⟨-, hshort⟩
      exact rateOf_ne hshort (by decide) (h (fun _ => 0) fun _ => 1)
    · intro hshort buf₁ buf₂
      exact rateOf_congr (Nat.le_of_not_lt fun hlt => hshort ⟨hcode, hlt⟩) _ _
  · simp [hcode, ShortBfee]

/-- The tests at a record, by the code and the rest of it. -/
theorem selects_iff {args : FirstArgs} {r : Bytes} (hr : IsEntry r) (buf : Memory) :
    args.selects r buf = true ↔ r.head? = some bfeeCode ∧
      rateOf r buf = args.fakeRateNFlags.toNat ∧
      args.nrx.all (byteAt r buf 9 == ·) = true := by
  simp only [FirstArgs.selects, Bool.and_eq_true, beq_iff_eq, byteAt_zero_eq_iff hr, and_assoc]

/-- Two buffers, of which one makes `get_first_bfee` select a short record that may be found. -/
theorem exists_selects_ne {args : FirstArgs} {r : Bytes} (hr : IsEntry r) (hshort : ShortBfee r)
    (hmay : args.MayFind r) :
    ∃ buf₁ buf₂, args.selects r buf₁ = true ∧ args.selects r buf₂ = false := by
  obtain ⟨hcode, hlt⟩ := hshort
  have hrate := args.fakeRateNFlags.toNat_lt
  -- the bytes that the record leaves to the buffer are the wanted ones
  let low : UInt8 := UInt8.ofNat args.fakeRateNFlags.toNat
  let high : UInt8 := UInt8.ofNat (args.fakeRateNFlags.toNat / 256)
  let wanted : Memory := fun a => if a = 19 then low else if a = 20 then high else
    args.nrx.getD 0
  let other : Memory := fun a => if a = 20 then high + 1 else wanted a
  have hle : r.length ≤ 20 := Nat.le_of_lt_succ hlt
  have hlow : (byteAt r wanted 19).toNat = args.fakeRateNFlags.toNat % 256 := by
    rcases Nat.lt_or_ge 19 r.length with h | h
    · rw [byteAt_of_lt h]
      exact hmay.1 _ (List.getElem?_eq_getElem h)
    · rw [byteAt_of_le h]
      rfl
  have hnrx : args.nrx.all (byteAt r wanted 9 == ·) = true := by
    rcases Nat.lt_or_ge 9 r.length with h | h
    · rw [byteAt_of_lt h]
      exact hmay.2 _ (List.getElem?_eq_getElem h)
    · rw [byteAt_of_le h]
      change args.nrx.all (args.nrx.getD 0 == ·) = true
      cases args.nrx <;> simp
  have hfound : rateOf r wanted = args.fakeRateNFlags.toNat := by
    have hhigh : (byteAt r wanted 20).toNat = args.fakeRateNFlags.toNat / 256 := by
      rw [byteAt_of_le hle]
      change args.fakeRateNFlags.toNat / 256 % 256 = _
      omega
    rw [rateOf, hlow, hhigh]
    omega
  refine ⟨wanted, other, (selects_iff hr wanted).2 ⟨hcode, hfound, hnrx⟩, ?_⟩
  rw [Bool.eq_false_iff]
  intro hsel
  refine rateOf_ne hlt (?_ : wanted 20 ≠ other 20)
    (hfound.trans ((selects_iff hr other).1 hsel).2.1.symm)
  change high ≠ high + 1
  intro heq
  have hval : high.toNat = (high.toNat + 1) % 2 ^ 8 := congrArg UInt8.toNat heq
  omega

/-- What a record has of the wanted bytes, when one of the buffers makes `get_first_bfee` select
it. -/
theorem mayFind_of_selects {args : FirstArgs} {r : Bytes} (hr : IsEntry r) {buf : Memory}
    (hsel : args.selects r buf = true) : args.MayFind r := by
  obtain ⟨-, hrate, hnrx⟩ := (selects_iff hr buf).1 hsel
  constructor
  · intro b hb
    have hbyte : byteAt r buf 19 = b := by simp [byteAt, hb]
    have hlow := b.toNat_lt
    rw [rateOf, hbyte] at hrate
    omega
  · intro b hb
    have hbyte : byteAt r buf 9 = b := by simp [byteAt, hb]
    rwa [hbyte] at hnrx

/-- The tests at a record that is not short. -/
theorem selects_congr (args : FirstArgs) {r : Bytes} (h : headSize ≤ r.length)
    (buf buf' : Memory) : args.selects r buf = args.selects r buf' := by
  have hsize : 20 < headSize := by decide
  rw [FirstArgs.selects, FirstArgs.selects, rateOf_congr h buf buf',
    byteAt_congr (by omega) buf buf', byteAt_congr (by omega) buf buf']

/-- The result of `get_first_bfee` is the same with two buffers if and only if its tests are. -/
theorem independent_getFirstBfee_iff_selects (args : FirstArgs) (r : Bytes) :
    (getFirstBfee args).Independent r ↔
      ∀ buf₁ buf₂, args.selects r buf₁ = args.selects r buf₂ := by
  rw [independent_iff_of_result (reads_getFirstBfee args)
    fun buf f post => result_getFirstBfee args buf]
  refine forall₂_congr fun buf₁ buf₂ => ⟨fun h => ?_, fun h => by rw [h]⟩
  cases h₁ : args.selects r buf₁ <;> cases h₂ : args.selects r buf₂ <;>
    cases hc : args.creatable <;> simp_all

/-- `get_first_bfee` parses all records on their own but the short ones of which nothing that is
there differs from what is wanted. -/
theorem independent_getFirstBfee_iff (args : FirstArgs) {r : Bytes} (hr : IsEntry r) :
    (getFirstBfee args).Independent r ↔ ¬ (ShortBfee r ∧ args.MayFind r) := by
  rw [independent_getFirstBfee_iff_selects]
  constructor
  · rintro h ⟨hshort, hmay⟩
    obtain ⟨buf₁, buf₂, h₁, h₂⟩ := exists_selects_ne hr hshort hmay
    rw [h buf₁ buf₂, h₂] at h₁
    cases h₁
  · intro hnot buf₁ buf₂
    rcases Nat.lt_or_ge r.length headSize with hlt | hge
    · -- a short record that no buffer makes it select
      have hnone : ∀ buf, args.selects r buf = false := by
        intro buf
        rw [Bool.eq_false_iff]
        exact fun hsel => hnot
          ⟨⟨((selects_iff hr buf).1 hsel).1, hlt⟩, mayFind_of_selects hr hsel⟩
      rw [hnone, hnone]
    · exact selects_congr args hge buf₁ buf₂

/-- **Independence.** What `print_packets` prints for a record depends on the record alone if and
only if it is not a short beamforming record, and what `get_first_bfee` does with it if and only if
it is none or something that is there of it is not as wanted. -/
theorem independent_iff (args : FirstArgs) {r : Bytes} (hr : IsEntry r) :
    (printPackets.Independent r ↔ ¬ ShortBfee r) ∧
      ((getFirstBfee args).Independent r ↔ ¬ (ShortBfee r ∧ args.MayFind r)) :=
  ⟨independent_printPackets_iff hr, independent_getFirstBfee_iff args hr⟩

/-- A beamforming record with a head and a payload: three receive antennas, the rate 0x4101. -/
def fullBfee : Bytes :=
  0xBB :: (List.replicate 8 0 ++ 3 :: (List.replicate 9 0 ++ 0x01 :: 0x41 :: List.replicate 213 7))

/-- A beamforming record that ends behind the number of receive antennas, which is two. -/
def cutBfee : Bytes := 0xBB :: (List.replicate 8 0 ++ [2])

/-- A beamforming record of one byte is not parsed on its own, a full one and a record of another
kind are. One that is cut off is for `get_first_bfee` when another number of antennas is wanted. -/
theorem independent_iff_cut :
    ¬ printPackets.Independent [0xBB] ∧ printPackets.Independent [0xC1] ∧
      printPackets.Independent fullBfee ∧
      ¬ (getFirstBfee ⟨0x4101, none, true⟩).Independent [0xBB] ∧
      (getFirstBfee ⟨0x4101, none, true⟩).Independent fullBfee ∧
      ¬ (getFirstBfee ⟨0x4101, some 2, true⟩).Independent cutBfee ∧
      (getFirstBfee ⟨0x4101, some 3, true⟩).Independent cutBfee := by
  have hargs : IsEntry [0xBB] ∧ IsEntry [0xC1] ∧ IsEntry fullBfee ∧ IsEntry cutBfee := by
    unfold IsEntry
    decide +kernel
  obtain ⟨hone, hother, hfull, hcut⟩ := hargs
  have hfind : FirstArgs.MayFind ⟨0x4101, none, true⟩ [0xBB] := by
    refine ⟨fun _ h => ?_, fun _ h => ?_⟩ <;> cases h
  have hsame : FirstArgs.MayFind ⟨0x4101, some 2, true⟩ cutBfee := by
    refine ⟨fun b h => ?_, fun b h => ?_⟩
    · cases h
    · cases h
      rfl
  refine ⟨fun h => ?_, ?_, ?_, fun h => ?_, ?_, fun h => ?_, ?_⟩
  · exact (independent_iff ⟨0, none, true⟩ hone).1.1 h (by decide)
  · exact (independent_iff ⟨0, none, true⟩ hother).1.2 (by decide)
  · exact (independent_iff ⟨0, none, true⟩ hfull).1.2 (by decide +kernel)
  · exact (independent_iff _ hone).2.1 h ⟨by decide, hfind⟩
  · exact (independent_iff _ hfull).2.2 fun h => absurd h.1 (by decide +kernel)
  · exact (independent_iff _ hcut).2.1 h ⟨by decide, hsame⟩
  · refine (independent_iff _ hcut).2.2 fun h => ?_
    exact absurd (h.2.2 2 rfl) (by decide)

/-- A record that is none of a beamforming report, with a byte at the places of the rate. -/
def otherRecord (low high : UInt8) : Bytes := 0xC1 :: (List.replicate 18 0 ++ [low, high])

/-- **A rate from an earlier record**: behind two records that are not selected, a beamforming
record of one byte has the rate of each. -/
theorem not_independent : ¬ printPackets.Independent [0xBB] ∧
    ¬ (getFirstBfee ⟨0x4101, none, true⟩).Independent [0xBB] := by
  have hrs : ∀ r ∈ [otherRecord 0x01 0x41] ++ [otherRecord 0 0], IsEntry r := by
    unfold IsEntry
    decide
  constructor
  · intro h
    have heq := h (fun _ => 0) (fun _ => 0) [otherRecord 0x01 0x41] [otherRecord 0 0] [] [] _ _ hrs
      rfl rfl
    revert heq
    decide
  · intro h
    have heq := h (fun _ => 0) (fun _ => 0) [otherRecord 0x01 0x41] [otherRecord 0 0] [] [] _ _ hrs
      rfl rfl
    revert heq
    decide

end Iax.Incsi
