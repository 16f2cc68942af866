import Iax.Lib.CString
import Iax.Mvm.CsiFiles

/-!
# The address filter

The file `csi_addresses` of `mvm/debugfs.c`: a write is a list of addresses, one behind the other,
and a read shows them one on a line. A write cuts the text with `strsep`, copies 18 bytes of every
token for a debug message, and leaves the rest to `sscanf`.

* `csiAddressesWrite`, `csiAddressesRead`: the two functions, `Listed`: the texts that are lists.
* `AddrsLaw`: a list is stored, anything else is refused, and nothing is read behind the text; and
  what a read shows can be written back.
* `addrs_law_iff`: so it is, but for texts with a short token near the end, a separator behind the
  last address, or a token in which `sscanf` sees an address though it is none.
-/

namespace Iax.Mvm

/-- An address, `u8[ETH_ALEN]`. -/
abbrev EthAddr := Vector UInt8 6

/-! ## Addresses as text -/

/-- The value of a hexadecimal digit. -/
def hexVal (b : UInt8) : Option ℕ :=
  if 48 ≤ b ∧ b ≤ 57 then some (b.toNat - 48)
  else if 97 ≤ b ∧ b ≤ 102 then some (b.toNat - 87)
  else if 65 ≤ b ∧ b ≤ 70 then some (b.toNat - 55)
  else none

/-- A byte in two digits. -/
def hexByte (hi lo : UInt8) : Option UInt8 :=
  (hexVal hi).bind fun h => (hexVal lo).map fun l => UInt8.ofNat (16 * h + l)

/-- Bytes in two digits each, with colons between them. -/
def hexBytes : Bytes → Option Bytes
  | [hi, lo] => (hexByte hi lo).map fun b => [b]
  | hi :: lo :: c :: text =>
    if c = 58 then (hexByte hi lo).bind fun b => (hexBytes text).map (b :: ·) else none
  | _ => none

/-- The address that is written `xx:xx:xx:xx:xx:xx`. -/
def addrOf (text : Bytes) : Option EthAddr :=
  (hexBytes text).bind fun bs => if h : bs.length = 6 then some ⟨bs.toArray, h⟩ else none

def hexDigit (n : ℕ) : UInt8 := if n < 10 then UInt8.ofNat (48 + n) else UInt8.ofNat (87 + n)

/-- The bytes as `%pM` prints them. -/
def hexText : Bytes → Bytes
  | [] => []
  | [b] => [hexDigit (b.toNat / 16), hexDigit (b.toNat % 16)]
  | b :: bs => hexDigit (b.toNat / 16) :: hexDigit (b.toNat % 16) :: 58 :: hexText bs

/-- An address as `%pM` prints it. -/
def addrText (addr : EthAddr) : Bytes := hexText addr.toList

/-- `sscanf` with a format of six `%hhx` and the colons between them: the bytes, when it converts
all six. It converts an address in the form above; what else it converts is left open. -/
structure Sscanf where
  scan : Bytes → Option EthAddr
  scan_of_addrOf : ∀ text addr, addrOf text = some addr → scan text = some addr

/-! ## The file -/

/-- The separators `"\n "`. -/
def isSep (b : UInt8) : Bool := b == lineFeed || b == 32

/-- `strsep`: the first token, and what is left behind its separator. -/
def strsep (s : Bytes) : Bytes × Option Bytes :=
  (s.takeWhile fun b => !isSep b,
    match s.dropWhile fun b => !isSep b with
    | [] => none
    | _ :: rest => some rest)

/-- What the loop of a write leaves behind. -/
structure AddrScan where
  addrs : List EthAddr
  /-- `pos`, `none` when it is `NULL`. -/
  pos : Option Bytes
  /-- A token was refused. -/
  refused : Bool
  /-- The offsets from the buffer that were read. -/
  touched : List ℕ

/-- The loop of a write, with room for `n` more addresses; `pos` is at `off` in the buffer. `strsep`
and `sscanf` read a token and its end, `memcpy` reads 18 bytes. -/
def addrLoop (K : Sscanf) : ℕ → ℕ → Option Bytes → AddrScan
  | 0, _, pos => ⟨[], pos, false, []⟩
  | _ + 1, _, none => ⟨[], none, false, []⟩
  | n + 1, off, some s =>
    let tok := (strsep s).1
    let pos := (strsep s).2
    if tok = [] then ⟨[], pos, false, [off]⟩
    else
      let touched := List.range' off (tok.length + 1) ++ List.range' off 18
      match K.scan tok with
      | none => ⟨[], pos, true, touched⟩
      | some addr =>
        let r := addrLoop K n (off + tok.length + 1) pos
        { r with addrs := addr :: r.addrs, touched := touched ++ r.touched }

theorem length_addrLoop_le (K : Sscanf) (n off : ℕ) (pos : Option Bytes) :
    (addrLoop K n off pos).addrs.length ≤ n := by
  induction n generalizing off pos with
  | zero => exact Nat.le_refl 0
  | succ n ih =>
    cases pos with
    | none => exact Nat.zero_le _
    | some s =>
      rw [addrLoop]
      split_ifs
      · exact Nat.zero_le _
      · cases K.scan (strsep s).1 with
        | none => exact Nat.zero_le _
        | some addr => exact Nat.succ_le_succ (ih _ _)

/-- `iwl_dbgfs_csi_addresses_write`. Without any input the byte in front of the buffer is read. -/
def csiAddressesWrite (K : Sscanf) (cfg : CsiCfg) (before : UInt8) (text : CString) : Outcome :=
  let count := text.bytes.length
  if text.bytes.getLast?.getD before ≠ lineFeed then ⟨cfg, .error .einval, [count - 1], none⟩
  else
    let r := addrLoop K 20 0 (some text.bytes.dropLast)
    let touched := ((count : ℤ) - 1) :: r.touched.map (↑)
    if r.refused ∨ r.pos.isSome then ⟨cfg, .error .einval, touched, none⟩
    else
      ⟨{ cfg with
          filterAddrs := r.addrs
          numFilterAddrs_le := length_addrLoop_le K 20 0 _ }, .ok count, touched, none⟩

/-- `iwl_dbgfs_csi_addresses_read`, with its buffer of 362 bytes: `scnprintf` keeps one for the
end. -/
def csiAddressesRead (cfg : CsiCfg) : Bytes :=
  cfg.filterAddrs.foldl (fun buf addr =>
    buf ++ (addrText addr ++ [lineFeed]).take (362 - buf.length - 1)) []

/-! ## What a write should do -/

/-- The tokens of a text, without its last line feed. -/
def fields (text : Bytes) : List Bytes := text.dropLast.splitOnP isSep

/-- The text is a list of at most 20 addresses. -/
def Listed (text : Bytes) (addrs : List EthAddr) : Prop :=
  addrs.length ≤ 20 ∧ text.getLast? = some lineFeed ∧
    (text.dropLast = [] ∧ addrs = [] ∨ (fields text).map addrOf = addrs.map some)

/-- Tokens that are taken for addresses. -/
def Taken (K : Sscanf) (toks : List Bytes) : Prop := ∀ tok ∈ toks, tok ≠ [] ∧ (K.scan tok).isSome

/-- A token is reached behind these, with room for `n` addresses. -/
def Reached (K : Sscanf) (n : ℕ) (toks pre : List Bytes) : Prop :=
  ∃ tok post, toks = pre ++ tok :: post ∧ Taken K pre ∧ pre.length < n ∧ tok ≠ []

/-- The offset behind tokens and their separators. -/
def behind (toks : List Bytes) : ℕ := (toks.map fun tok => tok.length + 1).sum

/-- What a text has to meet. -/
structure AddrsOk (K : Sscanf) (text : Bytes) : Prop where
  /-- A token that is copied starts 17 bytes before the end. -/
  copied : ∀ pre, Reached K 20 (fields text) pre → behind pre + 17 ≤ text.length
  /-- There is no separator behind the last of the tokens that are taken. -/
  noTrailing : ∀ toks, fields text = toks ++ [[]] → Taken K toks → toks.length < 20 → toks = []
  /-- The tokens that are taken are addresses. -/
  exact : Taken K (fields text) → (fields text).length ≤ 20 →
    ∀ tok ∈ fields text, (addrOf tok).isSome

/-! ## The loop by tokens -/

section Loop

variable (K : Sscanf)

/-- The tokens that are left. -/
def fieldsOf : Option Bytes → List Bytes
  | none => []
  | some s => s.splitOnP isSep

theorem fieldsOf_eq_nil_iff {pos : Option Bytes} : fieldsOf pos = [] ↔ pos = none := by
  cases pos with
  | none => simp [fieldsOf]
  | some s => simp [fieldsOf]

/-- Where a text has its first separator. -/
theorem strsep_cases (s : Bytes) :
    ((strsep s).2 = none ∧ (strsep s).1 = s ∧ ∀ b ∈ s, isSep b = false) ∨
    ∃ sep rest, (strsep s).2 = some rest ∧ s = (strsep s).1 ++ sep :: rest ∧ isSep sep = true ∧
      ∀ b ∈ (strsep s).1, isSep b = false := by
  have htok : ∀ b ∈ s.takeWhile fun b => !isSep b, isSep b = false := by
    intro b hb
    simpa using List.mem_takeWhile_imp hb
  unfold strsep
  rcases takeWhile_cases (fun b => !isSep b) s with ⟨hall, hdrop⟩ | ⟨sep, rest, hdrop, hsep, hs⟩
  · rw [hall] at htok
    rw [hdrop]
    exact .inl ⟨rfl, hall, htok⟩
  · rw [hdrop]
    exact .inr ⟨sep, rest, rfl, hs, by simpa using hsep, htok⟩

theorem fieldsOf_some (s : Bytes) :
    fieldsOf (some s) = (strsep s).1 :: fieldsOf (strsep s).2 := by
  rcases strsep_cases s with ⟨hpos, htok, hs⟩ | ⟨sep, rest, hpos, hsplit, hsep, htok⟩
  · rw [hpos, htok, fieldsOf, fieldsOf, List.splitOnP_eq_singleton hs]
  · rw [hpos]
    conv_lhs => rw [hsplit]
    exact List.splitOnP_append_cons_of_forall_mem htok sep hsep rest

/-- What the loop makes of the tokens, with room for `n` addresses. -/
def accepts : ℕ → List Bytes → Option (List EthAddr)
  | _, [] => some []
  | 0, _ :: _ => none
  | n + 1, tok :: toks =>
    if tok = [] then if toks = [] then some [] else none
    else (K.scan tok).bind fun addr => (accepts n toks).map (addr :: ·)

theorem addrLoop_accepts (n off : ℕ) (pos : Option Bytes) :
    (if (addrLoop K n off pos).refused ∨ (addrLoop K n off pos).pos.isSome then none
      else some (addrLoop K n off pos).addrs) = accepts K n (fieldsOf pos) := by
  induction n generalizing off pos with
  | zero =>
    cases pos with
    | none => rfl
    | some s =>
      rw [fieldsOf_some]
      rfl
  | succ n ih =>
    cases pos with
    | none => rfl
    | some s =>
      rw [fieldsOf_some, accepts, addrLoop]
      by_cases hempty : (strsep s).1 = []
      · rw [if_pos hempty, if_pos hempty]
        cases hpos : (strsep s).2 with
        | none => simp [fieldsOf]
        | some rest => simp [fieldsOf]
      · rw [if_neg hempty, if_neg hempty]
        cases K.scan (strsep s).1 with
        | none => simp
        | some addr =>
          dsimp only
          rw [Option.bind_some, ← ih (off + (strsep s).1.length + 1)]
          split_ifs <;> rfl

/-- The tokens are those that are taken, and at most an empty one behind fewer than `n`. -/
def EndsTaken (n : ℕ) (toks taken : List Bytes) : Prop :=
  toks = taken ∨ toks = taken ++ [[]] ∧ taken.length < n

theorem accepts_of_taken {n : ℕ} {toks taken : List Bytes} {addrs : List EthAddr}
    (hends : EndsTaken n toks taken) (hlen : taken.length ≤ n) (hne : ∀ tok ∈ taken, tok ≠ [])
    (hscan : taken.map K.scan = addrs.map some) : accepts K n toks = some addrs := by
  induction taken generalizing n toks addrs with
  | nil =>
    obtain rfl : addrs = [] := by simpa using hscan
    rcases hends with rfl | ⟨rfl, hpos⟩
    · rw [accepts]
    · obtain ⟨n, rfl⟩ := Nat.exists_eq_add_of_lt hpos
      simp [accepts]
  | cons tok taken ih =>
    obtain ⟨n, rfl⟩ : ∃ m, n = m + 1 := ⟨n - 1, by rw [List.length_cons] at hlen; omega⟩
    cases addrs with
    | nil => simp at hscan
    | cons addr addrs =>
      rw [List.map_cons, List.map_cons, List.cons_eq_cons] at hscan
      obtain ⟨hfirst, hrest⟩ := hscan
      obtain ⟨htok, hne'⟩ := List.forall_mem_cons.1 hne
      have hlen' : taken.length ≤ n := Nat.le_of_succ_le_succ hlen
      obtain ⟨toks', rfl, hends'⟩ : ∃ toks', toks = tok :: toks' ∧ EndsTaken n toks' taken := by
        rcases hends with rfl | ⟨rfl, hlt⟩
        · exact ⟨taken, rfl, .inl rfl⟩
        · exact ⟨taken ++ [[]], rfl, .inr ⟨rfl, Nat.lt_of_succ_lt_succ hlt⟩⟩
      rw [accepts, if_neg htok, hfirst, Option.bind_some, ih hends' hlen' hne' hrest]
      rfl

theorem taken_of_accepts {n : ℕ} {toks : List Bytes} {addrs : List EthAddr}
    (h : accepts K n toks = some addrs) : ∃ taken, EndsTaken n toks taken ∧ taken.length ≤ n ∧
      (∀ tok ∈ taken, tok ≠ []) ∧ taken.map K.scan = addrs.map some := by
  induction n generalizing toks addrs with
  | zero =>
    cases toks with
    | nil =>
      cases h
      exact ⟨[], .inl rfl, Nat.le_refl 0, by simp, rfl⟩
    | cons tok toks => cases h
  | succ n ih =>
    cases toks with
    | nil =>
      cases h
      exact ⟨[], .inl rfl, Nat.zero_le _, by simp, rfl⟩
    | cons tok toks =>
      rw [accepts] at h
      split_ifs at h with hempty hlast
      · cases h
        rw [hempty, hlast]
        exact ⟨[], .inr ⟨rfl, Nat.succ_pos n⟩, Nat.zero_le _, by simp, rfl⟩
      · obtain ⟨addr, hscan, hrest⟩ := Option.bind_eq_some_iff.1 h
        obtain ⟨addrs', hacc, rfl⟩ := Option.map_eq_some_iff.1 hrest
        obtain ⟨taken, hends, hlen, hne, hmap⟩ := ih hacc
        refine ⟨tok :: taken, ?_, Nat.succ_le_succ hlen, List.forall_mem_cons.2 ⟨hempty, hne⟩, ?_⟩
        · rcases hends with rfl | ⟨rfl, hlt⟩
          · exact .inl rfl
          · exact .inr ⟨rfl, Nat.succ_lt_succ hlt⟩
        · rw [List.map_cons, List.map_cons, hscan, hmap]

/-! ## The bytes that are read -/

/-- What is read for a token, and after it. -/
theorem touched_of_ne_nil {n off : ℕ} {s : Bytes} (htok : (strsep s).1 ≠ []) :
    (addrLoop K (n + 1) off (some s)).touched =
      List.range' off ((strsep s).1.length + 1) ++ List.range' off 18 ++
        if (K.scan (strsep s).1).isSome then
          (addrLoop K n (off + (strsep s).1.length + 1) (strsep s).2).touched
        else [] := by
  rw [addrLoop, if_neg htok]
  cases K.scan (strsep s).1 with
  | none => simp
  | some addr => rfl

theorem behind_cons (tok : Bytes) (toks : List Bytes) :
    behind (tok :: toks) = tok.length + 1 + behind toks := by
  rw [behind, List.map_cons, List.sum_cons, behind]

/-- Every token that is reached is copied. -/
theorem mem_touched_of_reached {n off : ℕ} {pos : Option Bytes} {pre : List Bytes}
    (h : Reached K n (fieldsOf pos) pre) :
    off + behind pre + 17 ∈ (addrLoop K n off pos).touched := by
  induction pre generalizing n off pos with
  | nil =>
    obtain ⟨tok, post, hfields, -, hlen, htok⟩ := h
    obtain ⟨n, rfl⟩ := Nat.exists_eq_add_of_lt hlen
    cases pos with
    | none => cases hfields
    | some s =>
      rw [fieldsOf_some, List.nil_append, List.cons_eq_cons] at hfields
      rw [← hfields.1] at htok
      rw [List.length_nil, Nat.zero_add, touched_of_ne_nil K htok]
      simp [behind, List.mem_range'_1]
  | cons tok pre ih =>
    obtain ⟨last, post, hfields, htaken, hlen, hlast⟩ := h
    obtain ⟨n, rfl⟩ : ∃ m, n = m + 1 := ⟨n - 1, by omega⟩
    cases pos with
    | none => cases hfields
    | some s =>
      rw [fieldsOf_some, List.cons_append, List.cons_eq_cons] at hfields
      obtain ⟨rfl, hrest⟩ := hfields
      obtain ⟨⟨htok, hscan⟩, htaken'⟩ := List.forall_mem_cons.1 htaken
      have hlen' : pre.length < n := Nat.lt_of_succ_lt_succ hlen
      have hmem : off + (strsep s).1.length + 1 + behind pre + 17 ∈
          (addrLoop K n (off + (strsep s).1.length + 1) (strsep s).2).touched :=
        ih ⟨last, post, hrest, htaken', hlen', hlast⟩
      rw [touched_of_ne_nil K htok, if_pos hscan, behind_cons]
      refine List.mem_append_right _ ?_
      have hsum : off + ((strsep s).1.length + 1 + behind pre) + 17 =
          off + (strsep s).1.length + 1 + behind pre + 17 := by omega
      rwa [hsum]

/-- Nothing is read but the text with its end, and what is copied. -/
theorem touched_cases {n off o : ℕ} {s : Bytes} (ho : o ∈ (addrLoop K n off (some s)).touched) :
    o ≤ off + s.length ∨ ∃ pre, Reached K n (fieldsOf (some s)) pre ∧ o ≤ off + behind pre + 17 := by
  induction n generalizing off s with
  | zero => cases ho
  | succ n ih =>
    by_cases htok : (strsep s).1 = []
    · rw [addrLoop, if_pos htok, List.mem_singleton] at ho
      exact .inl (by omega)
    · have hle : (strsep s).1.length ≤ s.length := (List.takeWhile_sublist _).length_le
      rw [touched_of_ne_nil K htok, List.mem_append, List.mem_append, List.mem_range'_1,
        List.mem_range'_1] at ho
      rw [fieldsOf_some]
      rcases ho with (htoken | hcopy) | hrest
      · exact .inl (by omega)
      · exact .inr ⟨[], ⟨_, _, rfl, by simp [Taken], Nat.succ_pos n, htok⟩, by omega⟩
      · split_ifs at hrest with hscan
        · rcases strsep_cases s with ⟨hpos, -, -⟩ | ⟨sep, rest, hpos, hsplit, -, -⟩
          · rw [hpos] at hrest
            cases n <;> cases hrest
          · rw [hpos] at hrest
            have hlen := congrArg List.length hsplit
            rw [List.length_append, List.length_cons] at hlen
            rcases ih hrest with hin | ⟨pre, ⟨tok, post, hfields, htaken, hlt, hne⟩, hcopied⟩
            · exact .inl (by omega)
            · refine .inr ⟨(strsep s).1 :: pre, ⟨tok, post, ?_, ?_, Nat.succ_lt_succ hlt, hne⟩, ?_⟩
              · rw [hpos, hfields, List.cons_append]
              · exact List.forall_mem_cons.2 ⟨⟨htok, hscan⟩, htaken⟩
              · rw [behind_cons]
                omega
        · cases hrest

end Loop

/-! ## Writes -/

section Write

variable (K : Sscanf) (cfg : CsiCfg) {before : UInt8} {text : CString} {addrs : List EthAddr}

/-- A write of a line whose tokens are accepted. -/
theorem csiAddressesWrite_of_accepts (hlast : text.bytes.getLast?.getD before = lineFeed)
    (hacc : accepts K 20 (fields text.bytes) = some addrs) :
    ∃ h, (csiAddressesWrite K cfg before text).cfg =
        { cfg with filterAddrs := addrs, numFilterAddrs_le := h } ∧
      (csiAddressesWrite K cfg before text).result = .ok text.bytes.length := by
  have hloop := (addrLoop_accepts K 20 0 (some text.bytes.dropLast)).trans hacc
  obtain ⟨hnot, haddrs⟩ := Option.ite_none_left_eq_some.1 hloop
  cases haddrs
  rw [csiAddressesWrite]
  dsimp only
  rw [if_neg (not_not_intro hlast), if_neg hnot]
  exact ⟨_, rfl, rfl⟩

/-- A write of a line whose tokens are not. -/
theorem csiAddressesWrite_of_not_accepts (hlast : text.bytes.getLast?.getD before = lineFeed)
    (hacc : accepts K 20 (fields text.bytes) = none) :
    (csiAddressesWrite K cfg before text).cfg = cfg ∧
      (csiAddressesWrite K cfg before text).result = .error .einval := by
  have hloop := (addrLoop_accepts K 20 0 (some text.bytes.dropLast)).trans hacc
  have hrefused : (addrLoop K 20 0 (some text.bytes.dropLast)).refused = true ∨
      (addrLoop K 20 0 (some text.bytes.dropLast)).pos.isSome = true := by
    by_contra hnot
    rw [if_neg hnot] at hloop
    cases hloop
  rw [csiAddressesWrite]
  dsimp only
  rw [if_neg (not_not_intro hlast), if_pos hrefused]
  exact ⟨rfl, rfl⟩

/-- A write without a line feed at its end. -/
theorem csiAddressesWrite_of_ne_lineFeed (hlast : text.bytes.getLast?.getD before ≠ lineFeed) :
    csiAddressesWrite K cfg before text =
      ⟨cfg, .error .einval, [(text.bytes.length : ℤ) - 1], none⟩ := if_pos hlast

theorem csiAddressesWrite_touched (hlast : text.bytes.getLast?.getD before = lineFeed) :
    (csiAddressesWrite K cfg before text).touched = ((text.bytes.length : ℤ) - 1) ::
      (addrLoop K 20 0 (some text.bytes.dropLast)).touched.map (↑) := by
  rw [csiAddressesWrite]
  dsimp only
  rw [if_neg (not_not_intro hlast)]
  split_ifs <;> rfl

end Write

/-! ## Reads -/

section Read

/-- The characters of an address. -/
theorem hexDigit_ne {n : ℕ} (hn : n < 16) : hexDigit n ≠ 0 ∧ isSep (hexDigit n) = false := by
  revert n
  decide

theorem ne_of_mem_hexText {bs : Bytes} {b : UInt8} (hb : b ∈ hexText bs) :
    b ≠ 0 ∧ isSep b = false := by
  induction bs with
  | nil => cases hb
  | cons c bs ih =>
    have hc := c.toNat_lt
    have hhi := hexDigit_ne (n := c.toNat / 16) (by omega)
    have hlo := hexDigit_ne (n := c.toNat % 16) (by omega)
    cases bs with
    | nil =>
      simp only [hexText, List.mem_cons, List.not_mem_nil, or_false] at hb
      rcases hb with rfl | rfl
      · exact hhi
      · exact hlo
    | cons c' bs =>
      rw [hexText, List.mem_cons, List.mem_cons, List.mem_cons] at hb
      · rcases hb with rfl | rfl | rfl | hrest
        · exact hhi
        · exact hlo
        · decide
        · exact ih hrest
      · simp

theorem length_hexText (b : UInt8) (bs : Bytes) :
    (hexText (b :: bs)).length = 3 * bs.length + 2 := by
  induction bs generalizing b with
  | nil => rfl
  | cons c bs ih =>
    have hcons : hexText (b :: c :: bs) =
        hexDigit (b.toNat / 16) :: hexDigit (b.toNat % 16) :: 58 :: hexText (c :: bs) := rfl
    rw [hcons, List.length_cons, List.length_cons, List.length_cons, ih, List.length_cons]
    omega

theorem hexByte_hexDigit (b : UInt8) :
    hexByte (hexDigit (b.toNat / 16)) (hexDigit (b.toNat % 16)) = some b := by
  have hval : ∀ n < 16, hexVal (hexDigit n) = some n := by decide
  have hb := b.toNat_lt
  rw [hexByte, hval _ (by omega), hval _ (by omega), Option.bind_some, Option.map_some,
    Nat.div_add_mod, UInt8.ofNat_toNat]

/-- What is printed is read. -/
theorem hexBytes_hexText (b : UInt8) (bs : Bytes) :
    hexBytes (hexText (b :: bs)) = some (b :: bs) := by
  induction bs generalizing b with
  | nil =>
    rw [hexText, hexBytes, hexByte_hexDigit]
    rfl
  | cons c bs ih =>
    have hcons : hexText (b :: c :: bs) =
        hexDigit (b.toNat / 16) :: hexDigit (b.toNat % 16) :: 58 :: hexText (c :: bs) := rfl
    rw [hcons, hexBytes, if_pos rfl, hexByte_hexDigit, Option.bind_some, ih]
    rfl

theorem length_toList (addr : EthAddr) : addr.toList.length = 6 := by simp

theorem toList_eq_cons (addr : EthAddr) : ∃ b bs, addr.toList = b :: bs ∧ bs.length = 5 := by
  have hlen := length_toList addr
  cases hlist : addr.toList with
  | nil =>
    rw [hlist] at hlen
    cases hlen
  | cons b bs =>
    rw [hlist, List.length_cons] at hlen
    exact ⟨b, bs, rfl, Nat.succ.inj hlen⟩

theorem length_addrText (addr : EthAddr) : (addrText addr).length = 17 := by
  obtain ⟨b, bs, hlist, hlen⟩ := toList_eq_cons addr
  rw [addrText, hlist, length_hexText, hlen]

theorem addrOf_addrText (addr : EthAddr) : addrOf (addrText addr) = some addr := by
  obtain ⟨b, bs, hlist, -⟩ := toList_eq_cons addr
  have hbytes : hexBytes (addrText addr) = some addr.toList := by
    rw [addrText, hlist, hexBytes_hexText]
  rw [addrOf, hbytes, Option.bind_some, dif_pos (length_toList addr)]
  rfl

/-- The lines of a read. -/
def addrLines (addrs : List EthAddr) : Bytes :=
  addrs.flatMap fun addr => addrText addr ++ [lineFeed]

/-- The buffer of a read has room for all lines. -/
theorem csiAddressesRead_eq (cfg : CsiCfg) : csiAddressesRead cfg = addrLines cfg.filterAddrs := by
  have hfold : ∀ (addrs : List EthAddr) (buf : Bytes), buf.length + 18 * addrs.length ≤ 360 →
      addrs.foldl (fun buf addr =>
        buf ++ (addrText addr ++ [lineFeed]).take (362 - buf.length - 1)) buf =
        buf ++ addrLines addrs := by
    intro addrs
    induction addrs with
    | nil => simp [addrLines]
    | cons addr addrs ih =>
      intro buf hroom
      have hline : (addrText addr ++ [lineFeed]).length = 18 := by
        rw [List.length_append, length_addrText]
        rfl
      rw [List.length_cons] at hroom
      rw [List.foldl_cons, List.take_of_length_le (by omega),
        ih _ (by rw [List.length_append, hline]; omega), addrLines, addrLines, List.flatMap_cons,
        List.append_assoc]
  have hle := cfg.numFilterAddrs_le
  rw [csiAddressesRead, hfold _ [] (by rw [List.length_nil]; omega), List.nil_append]

theorem zero_notMem_csiAddressesRead (cfg : CsiCfg) : 0 ∉ csiAddressesRead cfg := by
  rw [csiAddressesRead_eq, addrLines, List.mem_flatMap]
  rintro ⟨addr, -, hmem⟩
  rw [List.mem_append, List.mem_singleton] at hmem
  rcases hmem with htext | hfeed
  · exact (ne_of_mem_hexText htext).1 rfl
  · exact absurd hfeed (by decide)

/-- What a read shows, as a string to be written. -/
def shownAddresses (cfg : CsiCfg) : CString :=
  ⟨csiAddressesRead cfg, zero_notMem_csiAddressesRead cfg⟩

theorem isSep_of_mem_addrText {addr : EthAddr} : ∀ b ∈ addrText addr, isSep b = false :=
  fun _ hb => (ne_of_mem_hexText hb).2

theorem getLast?_addrLines {addrs : List EthAddr} (h : addrs ≠ []) :
    (addrLines addrs).getLast? = some lineFeed := by
  obtain ⟨init, addr, rfl⟩ := (List.eq_nil_or_concat' addrs).resolve_left h
  simp [addrLines]

theorem fields_addrLines {addrs : List EthAddr} (h : addrs ≠ []) :
    fields (addrLines addrs) = addrs.map addrText := by
  induction addrs with
  | nil => exact absurd rfl h
  | cons addr addrs ih =>
    cases addrs with
    | nil =>
      have hlines : addrLines [addr] = addrText addr ++ [lineFeed] := by simp [addrLines]
      rw [hlines, fields, List.dropLast_concat, List.splitOnP_eq_singleton isSep_of_mem_addrText]
      rfl
    | cons addr' addrs =>
      have hlines : addrLines (addr :: addr' :: addrs) =
          addrText addr ++ lineFeed :: addrLines (addr' :: addrs) := by simp [addrLines]
      have hne : addrLines (addr' :: addrs) ≠ [] := by
        intro hnil
        have hlast := getLast?_addrLines (List.cons_ne_nil addr' addrs)
        rw [hnil] at hlast
        cases hlast
      rw [hlines, fields, List.dropLast_append_of_ne_nil (List.cons_ne_nil _ _),
        List.dropLast_cons_of_ne_nil hne,
        List.splitOnP_append_cons_of_forall_mem isSep_of_mem_addrText _ (by decide), List.map_cons]
      exact congrArg _ (ih (List.cons_ne_nil _ _))

end Read

/-! ## Lists -/

section Lists

variable {K : Sscanf} {text : Bytes} {addrs : List EthAddr}

theorem addrOf_nil : addrOf [] = none := rfl

theorem eq_nil_of_splitOnP {s : Bytes} (h : s.splitOnP isSep = [[]]) : s = [] := by
  have hsome : (strsep s).1 :: fieldsOf (strsep s).2 = [[]] := (fieldsOf_some s).symm.trans h
  rw [List.cons_eq_cons, fieldsOf_eq_nil_iff] at hsome
  rcases strsep_cases s with ⟨-, htok, -⟩ | ⟨sep, rest, hpos, -⟩
  · rw [← htok, hsome.1]
  · rw [hpos] at hsome
    cases hsome.2

theorem fields_of_dropLast_eq_nil (h : text.dropLast = []) : fields text = [[]] := by
  rw [fields, h, List.splitOnP_nil]

/-- The tokens of a list are addresses. -/
theorem exists_addrOf (h : (fields text).map addrOf = addrs.map some) {tok : Bytes}
    (htok : tok ∈ fields text) : ∃ addr, addrOf tok = some addr := by
  have hmem := List.mem_map_of_mem (f := addrOf) htok
  rw [h, List.mem_map] at hmem
  obtain ⟨addr, -, haddr⟩ := hmem
  exact ⟨addr, haddr.symm⟩

theorem nil_notMem_fields (h : (fields text).map addrOf = addrs.map some) : [] ∉ fields text := by
  intro hnil
  obtain ⟨addr, haddr⟩ := exists_addrOf h hnil
  rw [addrOf_nil] at haddr
  cases haddr

/-- A list is accepted. -/
theorem accepts_of_listed (h : Listed text addrs) : accepts K 20 (fields text) = some addrs := by
  obtain ⟨hlen, -, ⟨hempty, rfl⟩ | hmap⟩ := h
  · rw [fields, hempty]
    rfl
  · refine accepts_of_taken K (.inl rfl) ?_ (fun tok htok => ?_) ?_
    · have hsame := congrArg List.length hmap
      rw [List.length_map, List.length_map] at hsame
      omega
    · exact ne_of_mem_of_not_mem htok (nil_notMem_fields hmap)
    · rw [← hmap]
      refine List.map_congr_left fun tok htok => ?_
      obtain ⟨addr, haddr⟩ := exists_addrOf hmap htok
      rw [haddr, K.scan_of_addrOf tok addr haddr]

theorem exists_map_scan {toks : List Bytes} (h : Taken K toks) :
    ∃ addrs : List EthAddr, toks.map K.scan = addrs.map some := by
  induction toks with
  | nil => exact ⟨[], rfl⟩
  | cons tok toks ih =>
    obtain ⟨⟨-, hscan⟩, hrest⟩ := List.forall_mem_cons.1 h
    obtain ⟨addr, haddr⟩ := Option.isSome_iff_exists.1 hscan
    obtain ⟨addrs, haddrs⟩ := ih hrest
    exact ⟨addr :: addrs, by rw [List.map_cons, haddr, haddrs, List.map_cons]⟩

theorem taken_of_map_scan {toks : List Bytes} (hne : ∀ tok ∈ toks, tok ≠ [])
    (h : toks.map K.scan = addrs.map some) : Taken K toks := by
  intro tok htok
  have hmem := List.mem_map_of_mem (f := K.scan) htok
  rw [h, List.mem_map] at hmem
  obtain ⟨addr, -, haddr⟩ := hmem
  exact ⟨hne tok htok, by rw [← haddr]; rfl⟩

/-- What is accepted of a text that meets the conditions is a list. -/
theorem listed_of_accepts (hok : AddrsOk K text) (hlast : text.getLast? = some lineFeed)
    (hacc : accepts K 20 (fields text) = some addrs) : Listed text addrs := by
  obtain ⟨taken, hends, hlen, hne, hmap⟩ := taken_of_accepts K hacc
  have htaken := taken_of_map_scan hne hmap
  rcases hends with hall | ⟨htrailing, hlt⟩
  · rw [← hall] at hlen htaken hmap
    have hsame := congrArg List.length hmap
    rw [List.length_map, List.length_map] at hsame
    refine ⟨by omega, hlast, .inr ?_⟩
    rw [← hmap]
    refine List.map_congr_left fun tok htok => ?_
    obtain ⟨addr, haddr⟩ := Option.isSome_iff_exists.1 (hok.exact htaken hlen tok htok)
    rw [haddr, K.scan_of_addrOf tok addr haddr]
  · obtain rfl := hok.noTrailing taken htrailing htaken hlt
    obtain rfl : addrs = [] := by simpa using hmap.symm
    exact ⟨Nat.zero_le _, hlast, .inl ⟨eq_nil_of_splitOnP htrailing, rfl⟩⟩

end Lists

/-! ## The law -/

/-- **The law of the file**, for a text that is written. -/
structure AddrsLaw (K : Sscanf) (text : CString) : Prop where
  stores : ∀ cfg before addrs, Listed text.bytes addrs →
    ∃ h, (csiAddressesWrite K cfg before text).cfg =
        { cfg with filterAddrs := addrs, numFilterAddrs_le := h } ∧
      (csiAddressesWrite K cfg before text).result = .ok text.bytes.length
  refuses : (¬ ∃ addrs, Listed text.bytes addrs) → ∀ cfg before,
    (csiAddressesWrite K cfg before text).cfg = cfg ∧
      ∃ e, (csiAddressesWrite K cfg before text).result = .error e
  inText : ∀ cfg before, ∀ o ∈ (csiAddressesWrite K cfg before text).touched,
    0 ≤ o ∧ o ≤ text.bytes.length
  writeBack : ∀ cfg before, (csiAddressesWrite K cfg before (shownAddresses cfg)).cfg = cfg

section Law

variable (K : Sscanf) {text : CString}

/-- What a read shows leaves the filter as it is when it is written back. -/
theorem csiAddressesWrite_shownAddresses (cfg : CsiCfg) (before : UInt8) :
    (csiAddressesWrite K cfg before (shownAddresses cfg)).cfg = cfg := by
  have hbytes : (shownAddresses cfg).bytes = addrLines cfg.filterAddrs := csiAddressesRead_eq cfg
  by_cases hlast : (shownAddresses cfg).bytes.getLast?.getD before = lineFeed
  · have hacc : accepts K 20 (fields (shownAddresses cfg).bytes) = some cfg.filterAddrs := by
      rw [hbytes]
      by_cases hnil : cfg.filterAddrs = []
      · rw [hnil]
        rfl
      · refine accepts_of_listed ⟨cfg.numFilterAddrs_le, getLast?_addrLines hnil, .inr ?_⟩
        rw [fields_addrLines hnil, List.map_map]
        exact List.map_congr_left fun addr _ => addrOf_addrText addr
    obtain ⟨h, hcfg, -⟩ := csiAddressesWrite_of_accepts K cfg hlast hacc
    exact hcfg
  · rw [csiAddressesWrite_of_ne_lineFeed K cfg hlast]

theorem getD_getLast?_eq_iff {before : UInt8} (hne : text.bytes ≠ []) :
    text.bytes.getLast?.getD before = lineFeed ↔ text.bytes.getLast? = some lineFeed := by
  rw [List.getLast?_eq_getLast_of_ne_nil hne, Option.getD_some, Option.some.injEq]

theorem addrsLaw_of_ok (hne : text.bytes ≠ []) (hok : AddrsOk K text.bytes)
    (hlast : text.bytes.getLast? = some lineFeed) : AddrsLaw K text := by
  have hlast' : ∀ before, text.bytes.getLast?.getD before = lineFeed := fun before =>
    (getD_getLast?_eq_iff hne).2 hlast
  have hpos : 0 < text.bytes.length := List.length_pos_iff.2 hne
  refine ⟨fun cfg before addrs hlisted => ?_, fun hno cfg before => ?_, fun cfg before o ho => ?_,
    csiAddressesWrite_shownAddresses K⟩
  · exact csiAddressesWrite_of_accepts K cfg (hlast' before) (accepts_of_listed hlisted)
  · cases hacc : accepts K 20 (fields text.bytes) with
    | none =>
      obtain ⟨hcfg, hresult⟩ := csiAddressesWrite_of_not_accepts K cfg (hlast' before) hacc
      exact ⟨hcfg, _, hresult⟩
    | some addrs => exact absurd ⟨addrs, listed_of_accepts hok hlast hacc⟩ hno
  · rw [csiAddressesWrite_touched K cfg (hlast' before), List.mem_cons, List.mem_map] at ho
    rcases ho with rfl | ⟨o, ho, rfl⟩
    · omega
    · rcases touched_cases K ho with hin | ⟨pre, hreached, hle⟩
      · rw [List.length_dropLast] at hin
        omega
      · have hcopied := hok.copied pre hreached
        omega

theorem ok_of_addrsLaw (hne : text.bytes ≠ []) (hlaw : AddrsLaw K text)
    (hlast : text.bytes.getLast? = some lineFeed) : AddrsOk K text.bytes := by
  have hlast' : text.bytes.getLast?.getD 0 = lineFeed := (getD_getLast?_eq_iff hne).2 hlast
  -- what is accepted is a list, as it would be refused otherwise
  have hlisted : ∀ addrs, accepts K 20 (fields text.bytes) = some addrs →
      ∃ addrs', Listed text.bytes addrs' := by
    intro addrs hacc
    by_contra hno
    obtain ⟨-, -, hresult⟩ := csiAddressesWrite_of_accepts K .init hlast' hacc
    obtain ⟨-, e, he⟩ := hlaw.refuses hno .init 0
    rw [he] at hresult
    cases hresult
  refine ⟨fun pre hreached => ?_, fun toks htrailing htaken hlt => ?_,
    fun htaken hlen tok htok => ?_⟩
  · have hmem : 0 + behind pre + 17 ∈ (addrLoop K 20 0 (some text.bytes.dropLast)).touched :=
      mem_touched_of_reached K hreached
    have hread : ((0 + behind pre + 17 : ℕ) : ℤ) ∈ (csiAddressesWrite K .init 0 text).touched := by
      rw [csiAddressesWrite_touched K .init hlast']
      exact List.mem_cons_of_mem _ (List.mem_map_of_mem hmem)
    have hin := (hlaw.inText .init 0 _ hread).2
    omega
  · by_contra hne'
    obtain ⟨addrs, hmap⟩ := exists_map_scan htaken
    obtain ⟨addrs', -, -, ⟨hempty, -⟩ | haddrs⟩ := hlisted addrs
      (accepts_of_taken K (.inr ⟨htrailing, hlt⟩) hlt.le (fun tok h => (htaken tok h).1) hmap)
    · rw [fields_of_dropLast_eq_nil hempty] at htrailing
      exact hne' (List.self_eq_append_left.1 htrailing)
    · exact nil_notMem_fields haddrs (by simp [htrailing])
  · obtain ⟨addrs, hmap⟩ := exists_map_scan htaken
    have hlen' : (fields text.bytes).length ≤ 20 := hlen
    obtain ⟨addrs', -, -, ⟨hempty, -⟩ | haddrs⟩ := hlisted addrs
      (accepts_of_taken K (.inl rfl) hlen' (fun tok h => (htaken tok h).1) hmap)
    · rw [fields_of_dropLast_eq_nil hempty] at htaken
      exact absurd rfl (htaken [] (List.mem_singleton_self [])).1
    · obtain ⟨addr, haddr⟩ := exists_addrOf haddrs htok
      rw [haddr]
      rfl

/-- **The address filter** keeps its law exactly for these texts. -/
theorem addrs_law_iff (hne : text.bytes ≠ []) : AddrsLaw K text ↔
    text.bytes.getLast? ≠ some lineFeed ∨ AddrsOk K text.bytes := by
  by_cases hlast : text.bytes.getLast? = some lineFeed
  · rw [or_iff_right (not_not_intro hlast)]
    exact ⟨fun hlaw => ok_of_addrsLaw K hne hlaw hlast, fun hok => addrsLaw_of_ok K hne hok hlast⟩
  · rw [iff_true_right (.inl hlast)]
    have hwrite : ∀ cfg before, csiAddressesWrite K cfg before text =
        ⟨cfg, .error .einval, [(text.bytes.length : ℤ) - 1], none⟩ := fun cfg before =>
      csiAddressesWrite_of_ne_lineFeed K cfg (mt (getD_getLast?_eq_iff hne).1 hlast)
    have hpos : 0 < text.bytes.length := List.length_pos_iff.2 hne
    refine ⟨fun cfg before addrs hlisted => absurd hlisted.2.1 hlast, fun _ cfg before => ?_,
      fun cfg before o ho => ?_, csiAddressesWrite_shownAddresses K⟩
    · rw [hwrite]
      exact ⟨rfl, _, rfl⟩
    · rw [hwrite, List.mem_singleton] at ho
      omega

/-- An `sscanf` that converts nothing but an address. -/
def Sscanf.exact : Sscanf := ⟨addrOf, fun _ _ h => h⟩

/-- The address `02:00:00:00:00:01`. -/
def oneAddr : Bytes := [48, 50, 58, 48, 48, 58, 48, 48, 58, 48, 48, 58, 48, 48, 58, 48, 49]

/-- The address `02:00:00:00:00:02`. -/
def otherAddr : Bytes := [48, 50, 58, 48, 48, 58, 48, 48, 58, 48, 48, 58, 48, 48, 58, 48, 50]

/-- Two addresses, with a space between them. -/
theorem addrs_law_iff_two :
    AddrsLaw .exact ⟨oneAddr ++ 32 :: otherAddr ++ [lineFeed], by decide⟩ := by
  have hfields : fields (oneAddr ++ 32 :: otherAddr ++ [lineFeed]) = [oneAddr, otherAddr] := by
    decide +kernel
  refine (addrs_law_iff .exact (by decide)).2 (.inr ⟨?_, ?_, ?_⟩)
  · rintro pre ⟨tok, post, hpre, -⟩
    rw [hfields] at hpre
    match pre, hpre with
    | [], _ => decide
    | [_], hpre =>
      obtain rfl := (List.cons.inj hpre).1
      decide
    | _ :: _ :: _, hpre => simp at hpre
  · intro toks htrailing
    rw [hfields] at htrailing
    have hlast := congrArg List.getLast? htrailing
    rw [List.getLast?_append, List.getLast?_singleton, Option.some_or] at hlast
    exact absurd hlast (by decide)
  · intro _ _ tok htok
    rw [hfields] at htok
    rcases List.mem_pair.1 htok with rfl | rfl <;> decide

/-- The text `"a\n"` is read 15 bytes behind its end, and an address with a space behind it is
stored. -/
theorem addrs_not_law : ¬ AddrsLaw .exact ⟨[97, lineFeed], by decide⟩ ∧
    ¬ AddrsLaw .exact ⟨oneAddr ++ [32, lineFeed], by decide⟩ := by
  constructor
  · intro hlaw
    exact absurd (hlaw.inText .init 0 17 (by decide)).2 (by decide)
  · intro hlaw
    have hno : ¬ ∃ addrs, Listed (oneAddr ++ [32, lineFeed]) addrs := by
      rintro ⟨addrs, -, -, ⟨hnil, -⟩ | hmap⟩
      · exact absurd hnil (by decide)
      · exact nil_notMem_fields hmap (by decide)
    obtain ⟨-, e, he⟩ := hlaw.refuses hno .init 0
    have hok : (csiAddressesWrite .exact .init 0 ⟨oneAddr ++ [32, lineFeed], by decide⟩).result =
        .ok 19 := rfl
    rw [hok] at he
    cases he

end Law

end Iax.Mvm
