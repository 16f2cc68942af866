import Iax.Lib.CString

/-!
# IPv4 addresses as text

`inet_pton` of the C library reads an address from left to right, one character after the other.

* `dotted`: octets in decimal, with dots between them.
* `inetPton_eq_some_iff`: `inet_pton` accepts the text of four octets and nothing else.
-/

namespace Iax.CString

/-- A number below 256, without leading zeros. -/
def octetText (n : ℕ) : Bytes :=
  if n < 10 then [digitChar n]
  else if n < 100 then [digitChar (n / 10), digitChar (n % 10)]
  else [digitChar (n / 100), digitChar (n / 10 % 10), digitChar (n % 10)]

/-- Octets with dots between them. -/
def dotted : List UInt8 → Bytes
  | [] => []
  | [o] => octetText o.toNat
  | o :: os => octetText o.toNat ++ 46 :: dotted os

/-- What `inet_pton` has read: the finished octets, the value of the one it is at, the number of
those that have begun, and whether the last one has a digit. -/
structure PtonState where
  done : List UInt8
  cur : ℕ
  octets : ℕ
  sawDigit : Bool

/-- The loop of `inet_pton`, for one character. -/
def ptonStep (st : PtonState) (ch : UInt8) : Option PtonState :=
  if isDigit ch then
    let new := 10 * st.cur + digitVal ch
    if st.sawDigit ∧ st.cur = 0 then none
    else if 255 < new then none
    else if st.sawDigit then some { st with cur := new }
    else if 4 < st.octets + 1 then none
    else some { st with cur := new, octets := st.octets + 1, sawDigit := true }
  else if ch = 46 ∧ st.sawDigit then
    if st.octets = 4 then none
    else some { st with done := st.done ++ [UInt8.ofNat st.cur], cur := 0, sawDigit := false }
  else none

/-- `inet_pton` for `AF_INET`, the four bytes of the address. -/
def inetPton (s : Bytes) : Option (List UInt8) :=
  (s.foldlM ptonStep ⟨[], 0, 0, false⟩).bind fun st =>
    if st.octets < 4 then none else some (st.done ++ [UInt8.ofNat st.cur])

/-! ## What is accepted -/

/-- The text that has been read. -/
def PtonState.text (st : PtonState) : Bytes :=
  (st.done.flatMap fun o => octetText o.toNat ++ [46]) ++
    if st.sawDigit then octetText st.cur else []

/-- What holds while an address is read. -/
structure PtonState.Inv (st : PtonState) : Prop where
  cur_le : st.cur ≤ 255
  cur_eq : st.sawDigit = false → st.cur = 0
  octets_eq : st.octets = st.done.length + if st.sawDigit then 1 else 0
  done_le : st.done.length ≤ 3

theorem octetText_push {v d : ℕ} (hv : v ≠ 0) (hd : d < 10) (hle : 10 * v + d ≤ 255) :
    octetText (10 * v + d) = octetText v ++ [digitChar d] := by
  have hall : ∀ v < 26, ∀ d < 10, v ≠ 0 →
      octetText (10 * v + d) = octetText v ++ [digitChar d] := by decide
  exact hall v (by omega) d hd hv

theorem isDigit_of_mem_octetText {n : ℕ} (hn : n < 256) {b : UInt8} (hb : b ∈ octetText n) :
    isDigit b = true := by
  unfold octetText at hb
  split_ifs at hb with hone htwo
  · rw [List.mem_singleton] at hb
    rw [hb]
    exact isDigit_digitChar hone
  · simp only [List.mem_cons, List.not_mem_nil, or_false] at hb
    rcases hb with rfl | rfl <;> exact isDigit_digitChar (by omega)
  · simp only [List.mem_cons, List.not_mem_nil, or_false] at hb
    rcases hb with rfl | rfl | rfl <;> exact isDigit_digitChar (by omega)

/-- The text has digits and dots only. -/
theorem isDigit_or_eq_of_mem_dotted {os : List UInt8} {b : UInt8} (hb : b ∈ dotted os) :
    isDigit b = true ∨ b = 46 := by
  induction os with
  | nil => cases hb
  | cons o os ih =>
    cases os with
    | nil => exact .inl (isDigit_of_mem_octetText o.toNat_lt hb)
    | cons o' os =>
      have hmem : b ∈ octetText o.toNat ++ 46 :: dotted (o' :: os) := hb
      rw [List.mem_append, List.mem_cons] at hmem
      rcases hmem with hfirst | rfl | hrest
      · exact .inl (isDigit_of_mem_octetText o.toNat_lt hfirst)
      · exact .inr rfl
      · exact ih hrest

theorem dotted_append_singleton (os : List UInt8) (o : UInt8) :
    dotted (os ++ [o]) = (os.flatMap fun o => octetText o.toNat ++ [46]) ++ octetText o.toNat := by
  induction os with
  | nil => rfl
  | cons o' os ih =>
    have hcons : dotted (o' :: (os ++ [o])) = octetText o'.toNat ++ 46 :: dotted (os ++ [o]) := by
      cases os <;> rfl
    rw [List.cons_append, hcons, ih, List.flatMap_cons, List.append_assoc, List.append_assoc,
      List.singleton_append]

/-- One character is appended to the text. -/
theorem ptonStep_spec {st st' : PtonState} {ch : UInt8} (h : st.Inv)
    (hstep : ptonStep st ch = some st') : st'.Inv ∧ st'.text = st.text ++ [ch] := by
  obtain ⟨hcur, hzero, hoctets, hdone⟩ := h
  unfold ptonStep at hstep
  dsimp only at hstep
  split_ifs at hstep with hdigit hlead hbig hsaw hfive hdot hfour
  · -- another digit
    cases hstep
    have hpos : st.cur ≠ 0 := fun h => hlead ⟨hsaw, h⟩
    have hpush := octetText_push hpos (digitVal_lt hdigit) (Nat.not_lt.1 hbig)
    refine ⟨⟨Nat.not_lt.1 hbig, fun h => ?_, hoctets, hdone⟩, ?_⟩
    · rw [hsaw] at h
      cases h
    · simp only [PtonState.text, hsaw, if_true]
      rw [hpush, digitChar_digitVal hdigit, List.append_assoc]
  · -- the first digit
    cases hstep
    have hsaw' : st.sawDigit = false := Bool.eq_false_iff.2 hsaw
    have hlt := digitVal_lt hdigit
    have htext : octetText (digitVal ch) = [ch] := by
      rw [octetText, if_pos hlt, digitChar_digitVal hdigit]
    rw [hsaw'] at hoctets
    simp only [Bool.false_eq_true, if_false, Nat.add_zero] at hoctets
    refine ⟨⟨Nat.not_lt.1 hbig, fun h => ?_, by simp [hoctets], by dsimp only; omega⟩, ?_⟩
    · cases h
    · simp only [PtonState.text, hsaw', hzero hsaw', if_true, Bool.false_eq_true, if_false,
        Nat.mul_zero, Nat.zero_add, List.append_nil, htext]
  · -- a dot
    cases hstep
    obtain ⟨rfl, hsaw⟩ := hdot
    rw [hsaw, if_pos rfl] at hoctets
    refine ⟨⟨Nat.zero_le _, fun _ => rfl, by simp [hoctets], ?_⟩, ?_⟩
    · rw [List.length_append, List.length_singleton]
      omega
    · have hcur' : (UInt8.ofNat st.cur).toNat = st.cur := by
        rw [UInt8.toNat_ofNat', Nat.mod_eq_of_lt (by omega)]
      simp [PtonState.text, hsaw, hcur']

theorem foldlM_ptonStep_spec {st st' : PtonState} {s : Bytes} (h : st.Inv)
    (hrun : s.foldlM ptonStep st = some st') : st'.Inv ∧ st'.text = st.text ++ s := by
  induction s generalizing st with
  | nil =>
    cases hrun
    exact ⟨h, (List.append_nil _).symm⟩
  | cons ch s ih =>
    obtain ⟨st₁, hstep, hrest⟩ := Option.bind_eq_some_iff.1 hrun
    obtain ⟨hinv, htext⟩ := ptonStep_spec h hstep
    obtain ⟨hinv', htext'⟩ := ih hinv hrest
    refine ⟨hinv', ?_⟩
    rw [htext', htext, List.append_assoc, List.singleton_append]

/-- What is accepted is the text of four octets. -/
theorem dotted_of_inetPton {s : Bytes} {octets : List UInt8} (h : inetPton s = some octets) :
    octets.length = 4 ∧ s = dotted octets := by
  obtain ⟨st, hrun, hst⟩ := Option.bind_eq_some_iff.1 h
  obtain ⟨hinv, htext⟩ := foldlM_ptonStep_spec ⟨Nat.zero_le _, fun _ => rfl, rfl, Nat.zero_le _⟩ hrun
  split_ifs at hst with hfew
  cases hst
  have hoctets := hinv.octets_eq
  have hdone := hinv.done_le
  cases hsaw : st.sawDigit with
  | false =>
    rw [hsaw] at hoctets
    simp only [Bool.false_eq_true, if_false, Nat.add_zero] at hoctets
    omega
  | true =>
    rw [hsaw, if_pos rfl] at hoctets
    have hcur := hinv.cur_le
    have hcur' : (UInt8.ofNat st.cur).toNat = st.cur := by
      rw [UInt8.toNat_ofNat', Nat.mod_eq_of_lt (by omega)]
    refine ⟨by simp; omega, ?_⟩
    rw [dotted_append_singleton, hcur']
    simpa [PtonState.text, hsaw] using htext.symm

/-! ## What is rejected -/

theorem ptonStep_first (done : List UInt8) {k d : ℕ} (hk : k < 4) (hd : d < 10) :
    ptonStep ⟨done, 0, k, false⟩ (digitChar d) = some ⟨done, d, k + 1, true⟩ := by
  have hsmall : ¬ 255 < d := by omega
  have hfew : ¬ 4 < k + 1 := by omega
  simp [ptonStep, isDigit_digitChar hd, digitVal_digitChar hd, hsmall, hfew]

theorem ptonStep_next (done : List UInt8) (k : ℕ) {v d : ℕ} (hv : v ≠ 0) (hd : d < 10)
    (hle : 10 * v + d ≤ 255) :
    ptonStep ⟨done, v, k, true⟩ (digitChar d) = some ⟨done, 10 * v + d, k, true⟩ := by
  simp [ptonStep, isDigit_digitChar hd, digitVal_digitChar hd, hv, Nat.not_lt.2 hle]

/-- An octet is read to its end. -/
theorem foldlM_octetText (done : List UInt8) {k n : ℕ} (hk : k < 4) (hn : n < 256) :
    (octetText n).foldlM ptonStep ⟨done, 0, k, false⟩ = some ⟨done, n, k + 1, true⟩ := by
  have hlast : 10 * (n / 10) + n % 10 = n := Nat.div_add_mod n 10
  have hdigit : n % 10 < 10 := Nat.mod_lt _ (by omega)
  unfold octetText
  split_ifs with hone htwo
  · simp [ptonStep_first done hk hone]
  · have htens : n / 10 < 10 := by omega
    simp [ptonStep_first done hk htens,
      ptonStep_next done (k + 1) (show n / 10 ≠ 0 by omega) hdigit (by omega), hlast]
  · have hhundreds : n / 100 < 10 := by omega
    have hmiddle : 10 * (n / 100) + n / 10 % 10 = n / 10 := by omega
    simp [ptonStep_first done hk hhundreds,
      ptonStep_next done (k + 1) (show n / 100 ≠ 0 by omega)
        (show n / 10 % 10 < 10 by omega) (by omega), hmiddle,
      ptonStep_next done (k + 1) (show n / 10 ≠ 0 by omega) hdigit (by omega), hlast]

/-- A dot ends it. -/
theorem foldlM_octetText_dot (done : List UInt8) {k : ℕ} (hk : k < 3) (o : UInt8) (s : Bytes) :
    (octetText o.toNat ++ 46 :: s).foldlM ptonStep ⟨done, 0, k, false⟩ =
      s.foldlM ptonStep ⟨done ++ [o], 0, k + 1, false⟩ := by
  have hdot : isDigit 46 = false := by decide
  have hthree : k + 1 ≠ 4 := by omega
  rw [List.foldlM_append, foldlM_octetText done (by omega) o.toNat_lt]
  simp [ptonStep, hdot, hthree]

theorem inetPton_dotted {octets : List UInt8} (h : octets.length = 4) :
    inetPton (dotted octets) = some octets := by
  match octets, h with
  | [a, b, c, d], _ =>
    have htext : dotted [a, b, c, d] = octetText a.toNat ++ 46 :: (octetText b.toNat ++
        46 :: (octetText c.toNat ++ 46 :: octetText d.toNat)) := rfl
    rw [inetPton, htext, foldlM_octetText_dot _ (by omega), foldlM_octetText_dot _ (by omega),
      foldlM_octetText_dot _ (by omega), foldlM_octetText _ (by omega) d.toNat_lt]
    simp

/-- **`inet_pton`** accepts the text of four octets and nothing else. -/
theorem inetPton_eq_some_iff {s : Bytes} {octets : List UInt8} :
    inetPton s = some octets ↔ octets.length = 4 ∧ s = dotted octets := by
  refine ⟨dotted_of_inetPton, ?_⟩
  rintro ⟨hlen, rfl⟩
  exact inetPton_dotted hlen

end Iax.CString
