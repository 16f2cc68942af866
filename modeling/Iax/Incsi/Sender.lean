import Iax.Lib.Streams
import Iax.Tcp.Client

/-!
# The records of the 5300 listener

The receive loop of `incsi.cpp` passes each record to its `TcpClient` in two calls of `send`, the
length and the body. The reconnect thread can clear `needReconn_` between the two.

* `Phase`: where the loop is in a record, and what the connections hold of it.
* `phase_step`, `phase_exec`: the phases of every run in which no body is sent on a connection that
  was made between the two calls.
* `stream_records`: the connections then hold whole records, cut at most at the end.
* `stream_body_alone`: a connection made between the two calls begins with a body.
-/

namespace Iax.Incsi

open Bytes Tcp Streams

/-! ## The loop -/

/-- The receive loop and its client. `body` is what is left to send of the last record, `split` says
that `needReconn_` was cleared since the length of that record was passed to `send`. -/
structure Loop where
  client : Client
  body : Option Bytes
  split : Bool
  records : List Bytes

/-- The steps of the loop and of the threads. -/
inductive LoopAct
  /-- A record is received, and its length passed to `send`. -/
  | recv (data : Bytes)
  /-- The body is passed to `send`. -/
  | body
  /-- A step inside the client. -/
  | client (a : Act)
  deriving DecidableEq

namespace Loop

/-- The loop at its start. -/
def init : Loop where
  client := Client.init
  body := none
  split := false
  records := []

/-- `l2`. -/
def lenBytes (data : Bytes) : Bytes := beBytes 2 data.length

/-- A record of the stream. -/
def record (data : Bytes) : Bytes := lenBytes data ++ data

/-- A step. The length of a record is an `unsigned short`. -/
def step (s : Loop) : LoopAct → Option Loop
  | .recv data =>
    if s.body = none ∧ data.length < 2 ^ 16 then
      (s.client.step (.send (lenBytes data))).map fun client =>
        { client := client, body := some data, split := false, records := s.records ++ [data] }
    else none
  | .body => s.body.bind fun data =>
    (s.client.step (.send data)).map fun client => { s with client := client, body := none }
  | .client (.send _) => none
  | .client a => (s.client.step a).map fun client =>
    { s with client := client, split := s.split || (a = .publish && s.body.isSome) }

/-- Every `::send` takes all of its buffer or fails. -/
def AllOrNothing (s : Loop) (a : LoopAct) : Prop :=
  match s.client.sendPc, a with
  | .loaded _ buf, .client (.sysSend (some k)) => k = buf.length
  | _, _ => True

/-- The condition on a step: nothing is taken of a body when `needReconn_` was cleared between the
two calls. -/
def SentTogether (s : Loop) (a : LoopAct) : Prop :=
  match s.body, a with
  | none, .client (.sysSend (some k)) => s.split = true → k = 0
  | _, _ => True

instance (s : Loop) (a : LoopAct) : Decidable (s.AllOrNothing a) := by
  unfold AllOrNothing
  split <;> infer_instance

instance (s : Loop) (a : LoopAct) : Decidable (s.SentTogether a) := by
  unfold SentTogether
  split <;> infer_instance

/-- **What a step does.** -/
inductive Step (s : Loop) : LoopAct → Loop → Prop
  | recv {data : Bytes} : s.body = none → data.length < 2 ^ 16 → s.client.sendPc = .idle →
      Step s (.recv data)
        { client := s.client.sendCall (lenBytes data), body := some data, split := false,
          records := s.records ++ [data] }
  | body {data : Bytes} : s.body = some data → s.client.sendPc = .idle →
      Step s .body { s with client := s.client.sendCall data, body := none }
  | client {a : Act} {client : Client} : (∀ buf, a ≠ .send buf) → s.client.Step a client →
      Step s (.client a)
        { s with client := client, split := s.split || (a = .publish && s.body.isSome) }

theorem step_cases {s s' : Loop} {a : LoopAct} (h : step s a = some s') : Step s a s' := by
  cases a with
  | recv data =>
    simp only [step, Option.ite_none_right_eq_some] at h
    obtain ⟨⟨hbody, hlen⟩, h⟩ := h
    obtain ⟨client, hclient, rfl⟩ := Option.map_eq_some_iff.1 h
    cases Client.step_cases hclient with
    | send buf hpc => exact .recv hbody hlen hpc
  | body =>
    obtain ⟨data, hbody, h⟩ := Option.bind_eq_some_iff.1 h
    obtain ⟨client, hclient, rfl⟩ := Option.map_eq_some_iff.1 h
    cases Client.step_cases hclient with
    | send buf hpc => exact .body hbody hpc
  | client a =>
    have hne : ∀ buf, a ≠ .send buf := by
      rintro buf rfl
      cases h
    rw [step.eq_4 s a hne] at h
    obtain ⟨client, hclient, rfl⟩ := Option.map_eq_some_iff.1 h
    exact .client hne (Client.step_cases hclient)

/-! ## Phases -/

/-- A connection holds whole records, cut at most at the end of one that has failed. -/
def Held (records : List Bytes) (k : Sock) : Prop :=
  Whole (records.map record) k.taken ∨
    (k.last = some .failed ∧ Cut (records.map record) k.taken)

theorem Held.mono {records records' : List Bytes} {k : Sock} (h : Held records k)
    (hsub : records.Sublist records') : Held records' k :=
  h.imp (fun h => h.mono (hsub.map record)) (And.imp_right fun h => h.mono (hsub.map record))

theorem Held.failed {records : List Bytes} {k : Sock} (h : Held records k) :
    Held records ⟨k.taken, some .failed⟩ :=
  h.imp_right fun h => ⟨rfl, h.2⟩

/-- Where the loop is in the last record, and what the connections hold. -/
inductive Phase (s : Loop) : Prop
  /-- The last record is through. -/
  | through : s.body = none → s.client.sendPc.pending = [] →
      (∀ c, Held s.records (s.client.socks c)) → Phase s
  /-- Its length is being sent. -/
  | length {records : List Bytes} {data : Bytes} : s.body = some data →
      s.client.sendPc.pending = [lenBytes data] → s.records = records ++ [data] →
      (∀ c, Held records (s.client.socks c)) → Phase s
  /-- A connection has its length, and will get its body. -/
  | between {records : List Bytes} {data bs : Bytes} {c : ℕ} :
      (s.body = some data ∧ s.client.sendPc = .idle ∨
        s.body = none ∧ s.client.sendPc.pending = [data]) →
      s.client.needReconn = false → s.records = records ++ [data] → s.client.sfd = some c →
      Whole (records.map record) bs → (s.client.socks c).taken = bs ++ lenBytes data →
      (∀ c' ≠ c, Held records (s.client.socks c')) → Phase s
  /-- No connection has its length. -/
  | lost {records : List Bytes} {data : Bytes} :
      (s.body = some data ∧ s.client.sendPc.pending = [] ∧
          (s.client.needReconn = true ∨ s.client.sendPc = .failed ∨ s.split = true) ∨
        s.body = none ∧ s.client.sendPc.pending = [data] ∧ s.split = true) →
      s.records = records ++ [data] → (∀ c, Held records (s.client.socks c)) → Phase s

/-- A connection that is sent on holds whole records. -/
theorem Held.whole {s : Client} (hinv : s.Inv) {c : ℕ} {buf : Bytes} {records : List Bytes}
    (hpc : s.sendPc = .loaded c buf) (h : Held records (s.socks c)) :
    Whole (records.map record) (s.socks c).taken :=
  h.resolve_right fun hfailed => hinv.last_ne_failed hpc hfailed.1

/-! ## Steps of the loop -/

theorem phase_recv {s : Loop} (h : Phase s) {data : Bytes} (hbody : s.body = none)
    (hpc : s.client.sendPc = .idle) :
    Phase { client := s.client.sendCall (lenBytes data), body := some data, split := false,
            records := s.records ++ [data] } := by
  have hheld : ∀ c, Held s.records (s.client.socks c) := by
    cases h with
    | through _ _ hheld => exact hheld
    | length hbody' => cases hbody.symm.trans hbody'
    | between hpos =>
      rcases hpos with ⟨hbody', -⟩ | ⟨-, hpend⟩
      · cases hbody.symm.trans hbody'
      · rw [hpc] at hpend
        cases hpend
    | lost hpos =>
      rcases hpos with ⟨hbody', -⟩ | ⟨-, hpend, -⟩
      · cases hbody.symm.trans hbody'
      · rw [hpc] at hpend
        cases hpend
  rcases Bool.eq_false_or_eq_true s.client.needReconn with hneed | hneed
  · exact .lost (.inl ⟨rfl, by simp [Client.sendCall, hneed, SendPc.pending], .inl hneed⟩) rfl hheld
  · exact .length rfl (by simp [Client.sendCall, hneed, SendPc.pending]) rfl hheld

theorem phase_body {s : Loop} (h : Phase s) {data : Bytes} (hbody : s.body = some data)
    (hpc : s.client.sendPc = .idle) :
    Phase { s with client := s.client.sendCall data, body := none } := by
  have hskip : s.client.needReconn = true → (s.client.sendCall data).sendPc.pending = [] :=
    fun hneed => by simp [Client.sendCall, hneed, SendPc.pending]
  have hsend : s.client.needReconn = false → (s.client.sendCall data).sendPc.pending = [data] :=
    fun hneed => by simp [Client.sendCall, hneed, SendPc.pending]
  cases h with
  | through hbody' => cases hbody.symm.trans hbody'
  | length _ hpend =>
    rw [hpc] at hpend
    cases hpend
  | between hpos hneed hrecords hsfd hwhole htaken hheld =>
    rcases hpos with ⟨hbody', -⟩ | ⟨hbody', -⟩
    · obtain rfl := Option.some.inj (hbody.symm.trans hbody')
      exact .between (.inr ⟨rfl, hsend hneed⟩) hneed hrecords hsfd hwhole htaken hheld
    · cases hbody.symm.trans hbody'
  | lost hpos hrecords hheld =>
    rcases hpos with ⟨hbody', -, hwhy⟩ | ⟨hbody', -⟩
    · obtain rfl := Option.some.inj (hbody.symm.trans hbody')
      rcases Bool.eq_false_or_eq_true s.client.needReconn with hneed | hneed
      · refine .through rfl (hskip hneed) fun c => (hheld c).mono ?_
        rw [hrecords]
        exact List.sublist_append_left ..
      · have hsplit : s.split = true := by
          rcases hwhy with h | h | h
          · cases hneed.symm.trans h
          · cases hpc.symm.trans h
          · exact h
        exact .lost (.inr ⟨rfl, hsend hneed, hsplit⟩) hrecords hheld
    · cases hbody.symm.trans hbody'

/-! ## Steps of the client -/

/-- The end of `::send`, on the connection that it was called on. -/
theorem phase_took {s : Loop} (hinv : s.client.Inv) (h : Phase s) {c k : ℕ} {buf : Bytes}
    (hpc : s.client.sendPc = .loaded c buf) (hk : k = buf.length)
    (htogether : s.body = none → s.split = true → k = 0) :
    Phase { s with client := s.client.took c buf k } := by
  subst hk
  have hneed := hinv.busy (by rw [hpc]; exact nofun)
  have hsfd := hinv.loaded c buf hpc
  have hpend : s.client.sendPc.pending = [buf] := by rw [hpc]; rfl
  have hsock : (s.client.took c buf buf.length).socks c =
      ⟨(s.client.socks c).taken ++ buf, some .whole⟩ := by simp [Client.took]
  have hother : ∀ c' ≠ c, (s.client.took c buf buf.length).socks c' = s.client.socks c' :=
    fun c' hne => Function.update_of_ne hne ..
  cases h with
  | through _ hpend' => cases hpend.symm.trans hpend'
  | @length records data hbody hpend' hrecords hheld =>
    obtain rfl := List.singleton_injective (hpend.symm.trans hpend')
    refine .between (.inl ⟨hbody, rfl⟩) hneed hrecords hsfd ((hheld c).whole hinv hpc) ?_ ?_
    · rw [hsock]
    · intro c' hne
      rw [hother c' hne]
      exact hheld c'
  | @between records data bs c₀ hpos _ hrecords hsfd₀ hwhole htaken hheld =>
    obtain rfl : c = c₀ := Option.some.inj (hsfd.symm.trans hsfd₀)
    obtain ⟨hbody, hpend'⟩ := hpos.resolve_left fun h => by
      rw [hpc] at h
      cases h.2
    obtain rfl := List.singleton_injective (hpend.symm.trans hpend')
    refine .through hbody rfl fun c' => ?_
    rw [hrecords]
    rcases eq_or_ne c' c with rfl | hne
    · left
      rw [hsock, htaken, List.append_assoc, List.map_append]
      exact hwhole.concat (record buf)
    · rw [hother c' hne]
      exact (hheld c' hne).mono (List.sublist_append_left ..)
  | @lost records data hpos hrecords hheld =>
    obtain ⟨hbody, hpend', hsplit⟩ := hpos.resolve_left fun h => by
      cases hpend.symm.trans h.2.1
    have hnil : buf = [] := List.length_eq_zero_iff.1 (htogether hbody hsplit)
    refine .through hbody rfl fun c' => ?_
    rw [hrecords]
    rcases eq_or_ne c' c with rfl | hne
    · left
      rw [hsock, hnil, List.append_nil]
      exact ((hheld c').whole hinv hpc).mono ((List.sublist_append_left ..).map record)
    · rw [hother c' hne]
      exact (hheld c').mono (List.sublist_append_left ..)

/-- A failing `::send`. -/
theorem phase_failed {s : Loop} (hinv : s.client.Inv) (h : Phase s) {c : ℕ} {buf : Bytes}
    (hpc : s.client.sendPc = .loaded c buf) : Phase { s with client := s.client.failed c } := by
  have hsfd := hinv.loaded c buf hpc
  have hpend : s.client.sendPc.pending = [buf] := by rw [hpc]; rfl
  have hsock : (s.client.failed c).socks c = ⟨(s.client.socks c).taken, some .failed⟩ := by
    simp [Client.failed]
  have hother : ∀ c' ≠ c, (s.client.failed c).socks c' = s.client.socks c' :=
    fun c' hne => Function.update_of_ne hne ..
  have hkeep : ∀ {records : List Bytes}, (∀ c', Held records (s.client.socks c')) →
      ∀ c', Held records ((s.client.failed c).socks c') := by
    intro records hheld c'
    rcases eq_or_ne c' c with rfl | hne
    · rw [hsock]
      exact (hheld c').failed
    · rw [hother c' hne]
      exact hheld c'
  cases h with
  | through _ hpend' => cases hpend.symm.trans hpend'
  | length hbody hpend' hrecords hheld =>
    exact .lost (.inl ⟨hbody, rfl, .inr (.inl rfl)⟩) hrecords (hkeep hheld)
  | @between records data bs c₀ hpos _ hrecords hsfd₀ hwhole htaken hheld =>
    obtain rfl : c = c₀ := Option.some.inj (hsfd.symm.trans hsfd₀)
    obtain ⟨hbody, hpend'⟩ := hpos.resolve_left fun h => by
      rw [hpc] at h
      cases h.2
    refine .through hbody rfl fun c' => ?_
    rw [hrecords]
    rcases eq_or_ne c' c with rfl | hne
    · right
      rw [hsock, htaken, List.map_append]
      exact ⟨rfl, hwhole.cut (List.prefix_append (lenBytes data) data)⟩
    · rw [hother c' hne]
      exact (hheld c' hne).mono (List.sublist_append_left ..)
  | @lost records data hpos hrecords hheld =>
    obtain ⟨hbody, -⟩ := hpos.resolve_left fun h => by
      cases hpend.symm.trans h.2.1
    refine .through hbody rfl fun c' => ?_
    rw [hrecords]
    exact (hkeep hheld c').mono (List.sublist_append_left ..)

theorem phase_load {s : Loop} (h : Phase s) {c : ℕ} {buf : Bytes}
    (hpc : s.client.sendPc = .checked buf) :
    Phase { s with client := { s.client with sendPc := .loaded c buf } } := by
  have hpend : s.client.sendPc.pending = [buf] := by rw [hpc]; rfl
  cases h with
  | through _ hpend' => cases hpend.symm.trans hpend'
  | length hbody hpend' hrecords hheld =>
    exact .length hbody (hpend.symm.trans hpend') hrecords hheld
  | between hpos hneed hrecords hsfd hwhole htaken hheld =>
    obtain ⟨hbody, hpend'⟩ := hpos.resolve_left fun h => by
      rw [hpc] at h
      cases h.2
    exact .between (.inr ⟨hbody, hpend.symm.trans hpend'⟩) hneed hrecords hsfd hwhole htaken hheld
  | lost hpos hrecords hheld =>
    obtain ⟨hbody, hpend', hsplit⟩ := hpos.resolve_left fun h => by
      cases hpend.symm.trans h.2.1
    exact .lost (.inr ⟨hbody, hpend.symm.trans hpend', hsplit⟩) hrecords hheld

theorem phase_setReconn {s : Loop} (h : Phase s) (hpc : s.client.sendPc = .failed) :
    Phase { s with client := { s.client with needReconn := true, sendPc := .idle } } := by
  have hpend : s.client.sendPc.pending = [] := by rw [hpc]; rfl
  cases h with
  | through hbody _ hheld => exact .through hbody rfl hheld
  | length _ hpend' => cases hpend.symm.trans hpend'
  | between hpos =>
    rcases hpos with ⟨-, hidle⟩ | ⟨-, hpend'⟩
    · cases hpc.symm.trans hidle
    · cases hpend.symm.trans hpend'
  | lost hpos hrecords hheld =>
    rcases hpos with ⟨hbody, -⟩ | ⟨-, hpend', -⟩
    · exact .lost (.inl ⟨hbody, rfl, .inl rfl⟩) hrecords hheld
    · cases hpend.symm.trans hpend'

/-- The reconnect thread. -/
theorem phase_reconn {s : Loop} (hinv : s.client.Inv) (h : Phase s) {a : Act} {client : Client}
    (hstep : s.client.Step a client) (ha : a.isReconn = true) :
    Phase { s with client := client, split := s.split || (a = .publish && s.body.isSome) } := by
  obtain ⟨hpc, hsocks, -, hquiet, hneed⟩ := Client.reconn_frame hinv hstep ha
  cases h with
  | through hbody hpend hheld =>
    exact .through hbody (by rw [hpc, hpend]) (by rw [hsocks]; exact hheld)
  | length hbody hpend hrecords hheld =>
    exact .length hbody (by rw [hpc, hpend]) hrecords (by rw [hsocks]; exact hheld)
  | between hpos hneed₀ hrecords hsfd hwhole htaken hheld =>
    obtain ⟨hneed', hsfd'⟩ := hquiet hneed₀
    refine .between ?_ hneed' hrecords (hsfd'.trans hsfd) hwhole (by rw [hsocks]; exact htaken)
      (by rw [hsocks]; exact hheld)
    rw [hpc]
    exact hpos
  | lost hpos hrecords hheld =>
    refine .lost ?_ hrecords (by rw [hsocks]; exact hheld)
    rw [hpc]
    rcases hpos with ⟨hbody, hpend, hwhy⟩ | ⟨hbody, hpend, hsplit⟩
    · refine .inl ⟨hbody, hpend, ?_⟩
      rcases eq_or_ne a .publish with rfl | hne
      · simp [hbody]
      · rw [hneed hne]
        exact hwhy.imp_right (Or.imp_right fun h => by simp [h])
    · exact .inr ⟨hbody, hpend, by simp [hsplit]⟩

/-- **One step** that meets both conditions. -/
theorem phase_step {s s' : Loop} {a : LoopAct} (hinv : s.client.Inv) (h : Phase s)
    (hall : AllOrNothing s a) (htogether : SentTogether s a) (hstep : Step s a s') : Phase s' := by
  cases hstep with
  | recv hbody hlen hpc => exact phase_recv h hbody hpc
  | body hbody hpc => exact phase_body h hbody hpc
  | @client a client hne hclient =>
    -- the main thread does not publish, so that its steps leave `split` alone
    have hmain : a.isReconn = false → (s.split || (a = .publish && s.body.isSome)) = s.split := by
      intro ha
      have hpublish : a ≠ .publish := by
        rintro rfl
        cases ha
      simp [hpublish]
    cases hclient with
    | send buf => exact absurd rfl (hne buf)
    | load hpc hsfd =>
      rw [hmain rfl]
      exact phase_load h hpc
    | @took c buf k hpc hk hpos =>
      rw [hmain rfl]
      simp only [AllOrNothing, hpc] at hall
      refine phase_took hinv h hpc hall fun hbody hsplit => ?_
      simp only [SentTogether, hbody] at htogether
      exact htogether hsplit
    | failed hpc =>
      rw [hmain rfl]
      exact phase_failed hinv h hpc
    | setReconn hpc =>
      rw [hmain rfl]
      exact phase_setReconn h hpc
    | wake hpc hneed => exact phase_reconn hinv h (.wake hpc hneed) rfl
    | socket hpc => exact phase_reconn hinv h (.socket hpc) rfl
    | noSocket hpc => exact phase_reconn hinv h (.noSocket hpc) rfl
    | setsockopt hpc => exact phase_reconn hinv h (.setsockopt hpc) rfl
    | noSetsockopt hpc => exact phase_reconn hinv h (.noSetsockopt hpc) rfl
    | connect hpc => exact phase_reconn hinv h (.connect hpc) rfl
    | noConnect hpc => exact phase_reconn hinv h (.noConnect hpc) rfl
    | publish hpc => exact phase_reconn hinv h (.publish hpc) rfl
    | slept hpc => exact phase_reconn hinv h (.slept hpc) rfl

/-- The loop keeps the invariant of its client. -/
theorem client_inv_step {s s' : Loop} {a : LoopAct} (hinv : s.client.Inv) (hstep : Step s a s') :
    s'.client.Inv := by
  cases hstep with
  | recv _ _ hpc => exact Client.inv_step hinv (.send _ hpc)
  | body _ hpc => exact Client.inv_step hinv (.send _ hpc)
  | client _ hclient => exact Client.inv_step hinv hclient

/-- **Every run** whose steps meet both conditions. -/
theorem phase_exec {s : Loop} {acts : List LoopAct} (hrun : Lts.exec step init acts = some s)
    (hall : Lts.Meets step AllOrNothing init acts)
    (htogether : Lts.Meets step SentTogether init acts) : Phase s := by
  refine (Lts.exec_invariant step (I := fun s => s.client.Inv ∧ Phase s)
    (C := fun s a => AllOrNothing s a ∧ SentTogether s a) ?_ ⟨Client.inv_init, ?_⟩
    (hall.and step htogether) hrun).2
  · rintro s a s' ⟨hinv, h⟩ ⟨hall, htogether⟩ hs
    exact ⟨client_inv_step hinv (step_cases hs),
      phase_step hinv h hall htogether (step_cases hs)⟩
  · exact .through rfl rfl fun c => .inl (whole_nil _)

/-- What the connections hold in a phase. -/
theorem Phase.whole_or_cut {s : Loop} (h : Phase s) (c : ℕ) :
    Whole (s.records.map record) (s.client.socks c).taken ∨
      Cut (s.records.map record) (s.client.socks c).taken := by
  have hheld : ∀ {records : List Bytes}, records.Sublist s.records →
      Held records (s.client.socks c) → Whole (s.records.map record) (s.client.socks c).taken ∨
        Cut (s.records.map record) (s.client.socks c).taken :=
    fun hsub h => (h.mono hsub).imp_right And.right
  cases h with
  | through _ _ h => exact hheld (List.Sublist.refl _) (h c)
  | length _ _ hrecords h => exact hheld (hrecords ▸ List.sublist_append_left ..) (h c)
  | @between records data bs c₀ _ _ hrecords _ hwhole htaken h =>
    rcases eq_or_ne c c₀ with rfl | hne
    · right
      rw [hrecords, htaken, List.map_append]
      exact hwhole.cut (List.prefix_append (lenBytes data) data)
    · exact hheld (hrecords ▸ List.sublist_append_left ..) (h c hne)
  | lost _ hrecords h => exact hheld (hrecords ▸ List.sublist_append_left ..) (h c)

/-- The bytes on every connection are a concatenation of whole records, in the order in which they
were received, cut at most at the end. -/
def WholeRecords (s : Loop) : Prop :=
  ∀ c, (∃ records : List Bytes, records.Sublist s.records ∧
      (s.client.socks c).taken = records.flatMap record) ∨
    ∃ (records : List Bytes) (data part : Bytes), (records ++ [data]).Sublist s.records ∧
      part <+: record data ∧ (s.client.socks c).taken = records.flatMap record ++ part

/-- **Whole records.** In every run in which every `::send` is all-or-nothing and no body is taken
when `needReconn_` was cleared after the call for its length, the connections carry whole records,
cut at most at the end. -/
theorem stream_records {s : Loop} {acts : List LoopAct} (hrun : Lts.exec step init acts = some s)
    (hall : Lts.Meets step AllOrNothing init acts)
    (htogether : Lts.Meets step SentTogether init acts) : WholeRecords s := by
  intro c
  rw [← whole_map_iff, ← cut_map_iff]
  exact (phase_exec hrun hall htogether).whole_or_cut c

/-! ## Runs -/

/-- The reconnect thread makes a connection. -/
def connectActs : List LoopAct :=
  [.client .wake, .client (.socket true), .client (.setsockopt true), .client (.connect true),
    .client .publish]

/-- The rest of a call of `send` on which `::send` takes `k` bytes. -/
def takeActs (k : ℕ) : List LoopAct := [.client .load, .client (.sysSend (some k))]

theorem stream_records_two :
    ∃ s, Lts.exec step init (connectActs ++ [.recv [7, 8, 9]] ++ takeActs 2 ++ [.body] ++
        takeActs 3 ++ [.recv [5]] ++ takeActs 2) = some s ∧
      WholeRecords s ∧ (s.client.socks 0).taken = [0, 3, 7, 8, 9, 0, 1] := by
  obtain ⟨s, hs⟩ := Option.isSome_iff_exists.1 (show (Lts.exec step init (connectActs ++
    [.recv [7, 8, 9]] ++ takeActs 2 ++ [.body] ++ takeActs 3 ++ [.recv [5]] ++
      takeActs 2)).isSome by decide)
  have htaken : (Lts.exec step init (connectActs ++ [.recv [7, 8, 9]] ++ takeActs 2 ++ [.body] ++
      takeActs 3 ++ [.recv [5]] ++ takeActs 2)).map (fun s => (s.client.socks 0).taken) =
    some [0, 3, 7, 8, 9, 0, 1] := by decide
  rw [hs, Option.map_some, Option.some.injEq] at htaken
  exact ⟨s, hs, stream_records hs (by decide) (by decide), htaken⟩

/-- **A body alone.** The length of a record is passed to `send` while there is no connection, and
its body when there is one. Every `::send` takes all of its buffer. -/
theorem stream_body_alone :
    ∃ s, Lts.exec step init ([.recv [7, 8, 9]] ++ connectActs ++ [.body] ++ takeActs 3) = some s ∧
      Lts.Meets step AllOrNothing init ([.recv [7, 8, 9]] ++ connectActs ++ [.body] ++ takeActs 3) ∧
      ¬ WholeRecords s := by
  obtain ⟨s, hs⟩ := Option.isSome_iff_exists.1 (show (Lts.exec step init ([.recv [7, 8, 9]] ++
    connectActs ++ [.body] ++ takeActs 3)).isSome by decide)
  have htaken : (Lts.exec step init ([.recv [7, 8, 9]] ++ connectActs ++ [.body] ++
      takeActs 3)).map (fun s => (s.records, (s.client.socks 0).taken)) =
    some ([[7, 8, 9]], [7, 8, 9]) := by decide
  rw [hs, Option.map_some, Option.some.injEq, Prod.mk.injEq] at htaken
  obtain ⟨hrecords, htaken⟩ := htaken
  refine ⟨s, hs, by decide, fun h => ?_⟩
  rcases h 0 with ⟨records, hsub, heq⟩ | ⟨records, data, part, hsub, hpart, heq⟩
  · rw [hrecords] at hsub
    rcases List.sublist_singleton.1 hsub with rfl | rfl <;> rw [htaken] at heq <;> cases heq
  · rw [hrecords] at hsub
    have hlen := hsub.length_le
    rw [List.length_append, List.length_singleton, List.length_singleton] at hlen
    obtain rfl := List.length_eq_zero_iff.1 (show records.length = 0 by omega)
    obtain rfl := List.singleton_sublist.1 hsub |> List.mem_singleton.1
    rw [htaken, List.flatMap_nil, List.nil_append] at heq
    subst heq
    revert hpart
    decide

end Loop

end Iax.Incsi
