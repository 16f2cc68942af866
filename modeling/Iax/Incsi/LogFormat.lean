import Iax.Incsi.ReadBfFile
import Iax.Incsi.Receive

/-!
# The log format and its readers

A log is the records that `incsi` writes (`receive_logFile`). The three C programs and
`read_bf_file.m` each find the records in it on their own.

* `SegmentsAlike`: on the first `n` bytes of a log, every reader goes over the records that are all
  there, and over nothing else.
* `segments_iff`: when they do. The C programs do not notice that the entry behind a length word is
  cut off, and `read_bf_file` wants a byte more than an entry of one byte has.
-/

namespace Iax.Incsi

open Bytes Dvm Streams

/-! ## The log -/

/-- What `incsi` writes is a log. -/
theorem receive_logFile (env : Envelope) {msgs : List CnMessage} (s : LogLoop) (hout : s.out = [])
    (h : ∀ msg ∈ msgs, msg.len.toNat = msg.data.length ∧ dataOffset + msg.data.length ≤ bufSize) :
    ((msgs.map env.datagram).foldl LogLoop.receive s).out =
      logFile (msgs.map CnMessage.data) := by
  rw [receive_log env s h, hout, List.nil_append, logFile, List.flatMap_map]
  rfl

/-! ## Segmentation -/

section Spec

variable {ω : Type}

/-- A program has gone over the given entries and ended without an error; if nothing is cut off, it
has ended at the end of the file. -/
structure GoesOver (run : LogRun ω) (entries : List Entry) (whole : Prop) (size : ℕ) : Prop where
  stopped : run.stopped = false
  visits : run.visits = entries
  exit : run.exit = 0
  atEnd : whole → run.file.pos = size

/-- What is left of a log of which the first `n` bytes are there is segmented alike by the four
readers. `buf` is what the buffers of the C programs hold at the beginning. -/
structure SegmentsAlike (rs : List Bytes) (n : ℕ) (buf : Memory) (args : FirstArgs) : Prop where
  parseLog : GoesOver (parseLog.run buf (CFile.fopen ((logFile rs).take n)))
    ((recordsIn logRecord n rs).map (view fun l => l)) ((logFile rs).length ≤ n)
    (logFile rs).length
  printPackets : GoesOver (printPackets.run buf (CFile.fopen ((logFile rs).take n)))
    ((recordsIn logRecord n rs).map (view (min headSize))) ((logFile rs).length ≤ n)
    (logFile rs).length
  /-- `get_first_bfee` goes as far as the record at which it stops. -/
  first : ((getFirstBfee args).run buf (CFile.fopen ((logFile rs).take n))).visits <+:
    (recordsIn logRecord n rs).map (view (min headSize))
  first_all :
    ((getFirstBfee args).run buf (CFile.fopen ((logFile rs).take n))).stopped = false →
      GoesOver ((getFirstBfee args).run buf (CFile.fopen ((logFile rs).take n)))
        ((recordsIn logRecord n rs).map (view (min headSize))) ((logFile rs).length ≤ n)
        (logFile rs).length
  readBfFile : ∃ s returned,
    readBfLoop ((logFile rs).take n).length (bfInit ((logFile rs).take n)) = .ok (s, returned) ∧
      s.visits = (recordsIn logRecord n rs).map bfView ∧
      ((logFile rs).length ≤ n → s.cur = (logFile rs).length)

/-- The condition on a log and a cut: of the record at the cut there is one byte at most, the last
record before the cut has more than one byte or is followed by that byte, and no record ends
`read_bf_file` with an error. A record of beamforming feedback whose payload is shorter than its own
length field says counts as such: `read_bfee` would read behind the payload, and the program goes on
with whatever is there. -/
structure CutFits (rs : List Bytes) (n : ℕ) : Prop where
  leftover : (leftover logRecord n rs).length ≤ 1
  last : LastMet (recordsIn logRecord n rs) (Streams.leftover logRecord n rs)
  acceptable : ∀ r ∈ recordsIn logRecord n rs, Acceptable r

end Spec

instance (rs : List Bytes) (n : ℕ) : Decidable (CutFits rs n) :=
  decidable_of_iff ((leftover logRecord n rs).length ≤ 1 ∧
      LastMet (recordsIn logRecord n rs) (leftover logRecord n rs) ∧
      ∀ r ∈ recordsIn logRecord n rs, Acceptable r)
    ⟨fun ⟨h₁, h₂, h₃⟩ => ⟨h₁, h₂, h₃⟩, fun h => ⟨h.leftover, h.last, h.acceptable⟩⟩

instance (r : Bytes) : Decidable (IsEntry r) := by
  unfold IsEntry
  infer_instance

variable {rs : List Bytes} {n : ℕ}

theorem rest_fopen (rs : List Bytes) (n : ℕ) : (CFile.fopen ((logFile rs).take n)).rest =
    (recordsIn logRecord n rs).flatMap logRecord ++ leftover logRecord n rs :=
  take_flatMap logRecord n rs

/-- What is left of a record, when it is more than a byte, has the length word. -/
theorem leftover_eq (hlong : 1 < (leftover logRecord n rs).length) :
    ∃ r ∈ rs, ∃ part, leftover logRecord n rs = beBytes 2 r.length ++ part := by
  rcases leftover_cut logRecord n rs with hnil | ⟨r, hr, k, -, hcut⟩
  · rw [hnil] at hlong
    exact absurd hlong (by simp)
  · have hk : 2 ≤ k := by
      rw [hcut, List.length_take] at hlong
      omega
    refine ⟨r, hr, r.take (k - 2), ?_⟩
    rw [hcut, logRecord, List.take_append, length_beBytes,
      List.take_of_length_le (by rw [length_beBytes]; exact hk)]

variable (hrs : ∀ r ∈ rs, IsEntry r)

include hrs

theorem isEntry_recordsIn : ∀ r ∈ recordsIn logRecord n rs, IsEntry r := fun r hr =>
  hrs r ((recordsIn_isPrefix logRecord n rs).subset hr)

theorem isRecord_recordsIn : ∀ r ∈ recordsIn logRecord n rs, IsRecord r := by
  intro r hr
  obtain ⟨hpos, hle⟩ := isEntry_recordsIn hrs r hr
  have hsize : entryBufSize < 2 ^ 16 := by decide
  exact ⟨hpos, by omega⟩

/-- A program that sees what is there and does not leave its loop goes over the records. -/
theorem goesOver {ω : Type} {reader : EntryReader ω} {head : ℕ → ℕ} (hreads : Reads reader head)
    (buf : Memory) (hleft : (leftover logRecord n rs).length ≤ 1)
    (hgo : (reader.run buf (CFile.fopen ((logFile rs).take n))).stopped = false) :
    GoesOver (reader.run buf (CFile.fopen ((logFile rs).take n)))
      ((recordsIn logRecord n rs).map (view head)) ((logFile rs).length ≤ n)
      (logFile rs).length := by
  obtain ⟨-, hall⟩ := run_log hreads buf (isEntry_recordsIn hrs) hleft (rest_fopen rs n) rfl
  obtain ⟨hvisits, hexit, hpos⟩ := hall hgo
  refine ⟨hgo, hvisits, hexit, fun hwhole => ?_⟩
  rw [hpos, List.take_of_length_le hwhole]
  exact Nat.zero_add _

theorem segments_of_cutFits (buf : Memory) (args : FirstArgs) (h : CutFits rs n) :
    SegmentsAlike rs n buf args := by
  have hfile := rest_fopen rs n
  have hentries := isEntry_recordsIn (n := n) hrs
  refine ⟨?_, ?_, ?_, ?_, ?_⟩
  · exact goesOver hrs reads_parseLog buf h.leftover
      (run_not_stopped reads_parseLog (fun _ _ _ => rfl) buf hentries h.leftover hfile rfl)
  · exact goesOver hrs reads_printPackets buf h.leftover
      (run_not_stopped reads_printPackets (fun _ _ _ => rfl) buf hentries h.leftover hfile rfl)
  · exact (run_log (reads_getFirstBfee args) buf hentries h.leftover hfile rfl).1
  · exact goesOver hrs (reads_getFirstBfee args) buf h.leftover
  · obtain ⟨s, hloop, hvisits, hcur, -⟩ := readBfLoop_through (bfInit_at hfile)
      (isRecord_recordsIn hrs) (h.leftover.trans (by decide)) h.last h.acceptable
    refine ⟨s, false, hloop, hvisits, fun hwhole => ?_⟩
    have htake : (logFile rs).take n = logFile rs := List.take_of_length_le hwhole
    rw [(recordsIn_of_length_le logRecord hwhole).2] at hcur
    exact hcur.trans (congrArg List.length htake)

theorem cutFits_of_segments {buf : Memory} {args : FirstArgs} (h : SegmentsAlike rs n buf args) :
    CutFits rs n := by
  have hfile := rest_fopen rs n
  obtain ⟨s, returned, hloop, hvisits, -⟩ := h.readBfFile
  obtain ⟨hlast, hacc⟩ :=
    acceptable_of_visits (bfInit_at hfile) (isRecord_recordsIn hrs) hloop hvisits
  refine ⟨?_, hlast, hacc⟩
  by_contra hlong
  -- `parse_log` has visited the entry at the cut
  obtain ⟨r, hr, part, hpart⟩ := leftover_eq (Nat.lt_of_not_le hlong)
  rw [hpart] at hfile
  have hmore := run_log_cut reads_parseLog (fun _ _ _ => rfl) buf (isEntry_recordsIn hrs)
    (hrs r hr) hfile rfl
  rw [h.parseLog.visits, List.length_map] at hmore
  exact Nat.lt_irrefl _ hmore

/-- **The readers of a log** agree on the records before a cut if and only if the cut fits. -/
theorem segments_iff (n : ℕ) (buf : Memory) (args : FirstArgs) :
    SegmentsAlike rs n buf args ↔ CutFits rs n :=
  ⟨cutFits_of_segments hrs, segments_of_cutFits hrs buf args⟩

omit hrs

/-! ## Two logs -/

/-- The arguments of `get_first_bfee` for the rate 0x4101. -/
def firstArgs : FirstArgs where
  fakeRateNFlags := 0x4101
  nrx := none
  creatable := true

/-- A log that is cut behind the first byte of a length word. -/
theorem segments_iff_siso :
    SegmentsAlike [zeroRecord 1 1 0, [0xC1, 0x00]] 96 (fun _ => 0) firstArgs :=
  (segments_iff (by decide) 96 (fun _ => 0) firstArgs).2 (by decide +kernel)

/-- **Two logs that are not read alike**: one cut behind a length word, of which the C programs
visit the entry that is not there, and one that ends with an entry of one byte. -/
theorem segments_differ :
    ¬ SegmentsAlike [[0xC1, 0x00]] 2 (fun _ => 0) firstArgs ∧
      ¬ SegmentsAlike [[0xC1]] 3 (fun _ => 0) firstArgs := by
  constructor
  · intro h
    have hfits := cutFits_of_segments (by decide) h
    revert hfits
    decide +kernel
  · intro h
    have hfits := cutFits_of_segments (by decide) h
    revert hfits
    decide +kernel

end Iax.Incsi
