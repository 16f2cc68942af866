import Iax.Lib.InetPton

/-!
# The server's address

The constructor of `TcpClient` (`tcp_client.h`, of `iaxcsi` and of `incsi` alike) takes the server
from a string `host:port`. The host is copied to the start of the object, which is not initialised,
without its end, and `inet_pton` reads it back from there.

* `tcpClient`: the constructor, on the memory of the object.
* `ParsesExactly`: what it should do with a string.
* `parsesExactly_iff`: it does so when the byte after the host happens to be zero, and a number
  follows that is a port.
-/

namespace Iax.Tcp

open CString

/-- `:` -/
def colon : UInt8 := 58

/-- The host of `addr`, in front of the first colon. -/
def hostOf (addr : CString) : Bytes := addr.bytes.takeWhile (· ≠ colon)

/-- What stands behind the colon. -/
def portOf (addr : CString) : Bytes := (addr.bytes.dropWhile (· ≠ colon)).tail

/-! ## The object -/

/-- The offsets of the members: `serverIp_` is at `0`, and has 16 bytes. -/
def serverPortPos : ℕ := 16

def serverAddrPos : ℕ := 20

/-- Of `serverAddr_`: `sin_port` and `sin_addr`. -/
def sinPortPos : ℕ := 22

def sinAddrPos : ℕ := 24

/-- The server of an object: its address, and its port in network order. -/
def server (obj : Memory) : List UInt8 × ℕ :=
  (obj.read sinAddrPos 4, Bytes.beNat (obj.read sinPortPos 2))

/-- The members before `inet_pton` is called: the host and the port, and `serverAddr_` cleared, with
`AF_INET` and the port in it. -/
def prepared (obj : Memory) (host port : Bytes) : Memory :=
  let obj := obj.write 0 host
  let obj := obj.writeLe serverPortPos 4 (atoi port).toNat
  let obj := obj.write serverAddrPos (List.replicate 16 0)
  let obj := obj.writeLe serverAddrPos 2 2
  obj.write sinPortPos (Bytes.beBytes 2 (obj.readLe serverPortPos 4))

/-- The constructor. The family, which is `2`, ends the string at `serverIp_` at the latest. -/
def tcpClient (obj : Memory) (addr : CString) : Except String Memory :=
  if colon ∉ addr.bytes then .error "Invalid addr"
  else
    let obj := prepared obj (hostOf addr) (portOf addr)
    match inetPton (obj.cstring (serverAddrPos + 2) 0) with
    | none => .error "Invalid address"
    | some sinAddr => .ok (obj.write sinAddrPos sinAddr)

/-! ## What it should do -/

/-- A decimal port. -/
def IsPort (text : Bytes) (port : ℕ) : Prop :=
  text ≠ [] ∧ (∀ b ∈ text, isDigit b = true) ∧ decimal text = port ∧ 1 ≤ port ∧ port ≤ 65535

/-- The string is an IPv4 address, a colon and a port. -/
def IsServer (addr : CString) (ip : List UInt8) (port : ℕ) : Prop :=
  ∃ host text, addr.bytes = host ++ colon :: text ∧ ip.length = 4 ∧ host = dotted ip ∧
    IsPort text port

/-- **The string is parsed exactly**, and the host stays in its array, with its end. -/
structure ParsesExactly (obj : Memory) (addr : CString) : Prop where
  fits : colon ∈ addr.bytes → (hostOf addr).length ≤ 16
  terminated : colon ∈ addr.bytes → (hostOf addr).length < 16 ∧
    prepared obj (hostOf addr) (portOf addr) (hostOf addr).length = 0
  accepts : ∀ ip port, IsServer addr ip port →
    ∃ obj', tcpClient obj addr = .ok obj' ∧ server obj' = (ip, port)
  rejects : (¬ ∃ ip port, IsServer addr ip port) → ∃ e, tcpClient obj addr = .error e

/-- The byte after the host is zero before, inside the array, and after an address comes a port. -/
def HostEnds (obj : Memory) (addr : CString) : Prop :=
  (hostOf addr).length < 16 ∧ obj (hostOf addr).length = 0 ∧
    ((∃ ip, ip.length = 4 ∧ hostOf addr = dotted ip) → ∃ port, IsPort (portOf addr) port)

/-! ## The string -/

section Text

variable {addr : CString}

theorem bytes_eq (h : colon ∈ addr.bytes) : addr.bytes = hostOf addr ++ colon :: portOf addr := by
  rw [hostOf, portOf]
  rcases takeWhile_cases (· ≠ colon) addr.bytes with ⟨hall, -⟩ | ⟨b, rest, hdrop, hb, hs⟩
  · have hcolon := List.takeWhile_eq_self_iff.1 hall colon h
    simp at hcolon
  · obtain rfl : b = colon := by simpa using hb
    rw [hdrop]
    exact hs

theorem colon_notMem_dotted (os : List UInt8) : colon ∉ dotted os := by
  intro h
  rcases isDigit_or_eq_of_mem_dotted h with hdigit | hdot
  · exact absurd hdigit (by decide)
  · exact absurd hdot (by decide)

/-- The first colon is the one behind the host. -/
theorem isServer_iff {ip : List UInt8} {port : ℕ} : IsServer addr ip port ↔
    colon ∈ addr.bytes ∧ ip.length = 4 ∧ hostOf addr = dotted ip ∧ IsPort (portOf addr) port := by
  constructor
  · rintro ⟨host, text, haddr, hip, rfl, hport⟩
    have hall : ∀ b ∈ dotted ip, decide (b ≠ colon) = true := by
      intro b hb
      exact decide_eq_true (ne_of_mem_of_not_mem hb (colon_notMem_dotted ip))
    have hhost : hostOf addr = dotted ip := by
      rw [hostOf, haddr, List.takeWhile_append_of_pos hall, List.takeWhile_cons_of_neg (by simp),
        List.append_nil]
    have htext : portOf addr = text := by
      rw [portOf, haddr, List.dropWhile_append_of_pos hall, List.dropWhile_cons_of_neg (by simp),
        List.tail_cons]
    rw [haddr, hhost, htext]
    exact ⟨by simp, hip, rfl, hport⟩
  · rintro ⟨hcolon, hip, hhost, hport⟩
    exact ⟨_, _, bytes_eq hcolon, hip, hhost, hport⟩

end Text

/-! ## The members -/

section Members

variable (obj : Memory) (host port : Bytes)

/-- The bytes of `serverIp_` are those that the host was copied over. -/
theorem prepared_of_lt {a : ℕ} (ha : a < 16) : prepared obj host port a = obj.write 0 host a := by
  simp only [prepared, Memory.writeLe]
  rw [Memory.write_of_lt _ _ (by rw [sinPortPos]; omega),
    Memory.write_of_lt _ _ (by rw [serverAddrPos]; omega),
    Memory.write_of_lt _ _ (by rw [serverAddrPos]; omega),
    Memory.write_of_lt _ _ (by rw [serverPortPos]; omega)]

/-- The byte after the host is as it was. -/
theorem prepared_length (h : host.length < 16) :
    prepared obj host port host.length = obj host.length := by
  rw [prepared_of_lt obj host port h, Memory.write_of_le _ _ (by omega)]

/-- A host that ends in the array is read back. -/
theorem cstring_prepared (hhost : 0 ∉ host) (hlen : host.length < 16)
    (hend : obj host.length = 0) :
    (prepared obj host port).cstring (serverAddrPos + 2) 0 = host := by
  have hread : (prepared obj host port).read 0 host.length = host := by
    have hsame : (prepared obj host port).read 0 host.length =
        (obj.write 0 host).read 0 host.length := by
      refine List.map_congr_left fun i hi => ?_
      rw [List.mem_range] at hi
      exact prepared_of_lt obj host port (by omega)
    rw [hsame, Memory.read_write_self]
  refine Memory.cstring_eq hhost hread ?_ (by rw [serverAddrPos]; omega)
  rw [Nat.zero_add, prepared_length obj host port hlen, hend]

/-- The server after the constructor: the port is the low half of the number. -/
theorem server_write_sinAddr {ip : List UInt8} (hip : ip.length = 4) :
    server ((prepared obj host port).write sinAddrPos ip) =
      (ip, (atoi port).toNat % 65536) := by
  have haddr := Memory.read_write_self (prepared obj host port) sinAddrPos ip
  rw [hip] at haddr
  have hport : ((prepared obj host port).write sinAddrPos ip).read sinPortPos 2 =
      Bytes.beBytes 2 (atoi port).toNat := by
    rw [Memory.read_write_below _ _ (by decide), prepared, Memory.writeLe,
      Memory.readLe_write_of_disjoint _ _ (by decide),
      Memory.readLe_write_of_disjoint _ _ (by decide), Memory.readLe_writeLe,
      Nat.mod_eq_of_lt (show (atoi port).toNat < 256 ^ 4 from (atoi port).isLt)]
    have hself := Memory.read_write_self
      (((obj.write 0 host).writeLe serverPortPos 4 (atoi port).toNat).write serverAddrPos
        (List.replicate 16 0) |>.write serverAddrPos (Bytes.leBytes 2 2)) sinPortPos
      (Bytes.beBytes 2 (atoi port).toNat)
    rwa [Bytes.length_beBytes] at hself
  rw [server, haddr, hport, Bytes.beNat, Bytes.beBytes, List.reverse_reverse, Bytes.leNat_leBytes]
  rfl

end Members

/-! ## The constructor -/

section Constructor

variable (obj : Memory) {addr : CString}

theorem tcpClient_of_notMem (h : colon ∉ addr.bytes) :
    tcpClient obj addr = .error "Invalid addr" := if_pos h

theorem zero_notMem_hostOf (addr : CString) : 0 ∉ hostOf addr := fun h =>
  addr.zero_notMem ((List.takeWhile_sublist _).subset h)

/-- A host that ends in the array decides alone. -/
theorem tcpClient_of_ends (hcolon : colon ∈ addr.bytes) (hlen : (hostOf addr).length < 16)
    (hend : obj (hostOf addr).length = 0) :
    tcpClient obj addr = match inetPton (hostOf addr) with
      | none => .error "Invalid address"
      | some ip => .ok ((prepared obj (hostOf addr) (portOf addr)).write sinAddrPos ip) := by
  rw [tcpClient, if_neg (not_not_intro hcolon)]
  dsimp only
  rw [cstring_prepared obj _ _ (zero_notMem_hostOf addr) hlen hend]

theorem IsPort.atoi_eq {text : Bytes} {port : ℕ} (h : IsPort text port) :
    (atoi text).toNat % 65536 = port := by
  obtain ⟨-, hdigits, rfl, -, hle⟩ := h
  rw [atoi_of_isDigit hdigits (by omega), BitVec.toNat_ofNat]
  omega

/-- The host and the port of an object are parsed exactly, when the host ends and a port follows. -/
theorem parsesExactly_of_hostEnds (hcolon : colon ∈ addr.bytes) (h : HostEnds obj addr) :
    ParsesExactly obj addr := by
  obtain ⟨hlen, hend, hport⟩ := h
  have hclient := tcpClient_of_ends obj hcolon hlen hend
  refine ⟨fun _ => hlen.le, fun _ => ⟨hlen, ?_⟩, fun ip port hserver => ?_, fun hno => ?_⟩
  · rw [prepared_length obj _ _ hlen, hend]
  · obtain ⟨-, hip, hhost, hisPort⟩ := isServer_iff.1 hserver
    rw [inetPton_eq_some_iff.2 ⟨hip, hhost⟩] at hclient
    refine ⟨_, hclient, ?_⟩
    rw [server_write_sinAddr obj _ _ hip, hisPort.atoi_eq]
  · cases hpton : inetPton (hostOf addr) with
    | none =>
      rw [hpton] at hclient
      exact ⟨_, hclient⟩
    | some ip =>
      obtain ⟨hip, hhost⟩ := inetPton_eq_some_iff.1 hpton
      obtain ⟨port, hisPort⟩ := hport ⟨ip, hip, hhost⟩
      exact absurd ⟨ip, port, isServer_iff.2 ⟨hcolon, hip, hhost, hisPort⟩⟩ hno

theorem hostEnds_of_parsesExactly (hcolon : colon ∈ addr.bytes) (h : ParsesExactly obj addr) :
    HostEnds obj addr := by
  obtain ⟨hlen, hzero⟩ := h.terminated hcolon
  rw [prepared_length obj _ _ hlen] at hzero
  refine ⟨hlen, hzero, ?_⟩
  rintro ⟨ip, hip, hhost⟩
  by_contra hport
  have hno : ¬ ∃ ip port, IsServer addr ip port := by
    rintro ⟨ip', port, hserver⟩
    exact hport ⟨port, (isServer_iff.1 hserver).2.2.2⟩
  obtain ⟨e, he⟩ := h.rejects hno
  rw [tcpClient_of_ends obj hcolon hlen hzero, inetPton_eq_some_iff.2 ⟨hip, hhost⟩] at he
  cases he

end Constructor

/-- **The server's address** is parsed exactly when there is no colon, or the byte after the host is
zero and lies in the array, and what follows an IPv4 address is a port. -/
theorem parsesExactly_iff (obj : Memory) (addr : CString) :
    ParsesExactly obj addr ↔ colon ∉ addr.bytes ∨ HostEnds obj addr := by
  by_cases hcolon : colon ∈ addr.bytes
  · rw [or_iff_right (not_not_intro hcolon)]
    exact ⟨hostEnds_of_parsesExactly obj hcolon, parsesExactly_of_hostEnds obj hcolon⟩
  · refine iff_of_true ⟨fun h => absurd h hcolon, fun h => absurd h hcolon, ?_, ?_⟩ (.inl hcolon)
    · exact fun ip port hserver => absurd (isServer_iff.1 hserver).1 hcolon
    · exact fun _ => ⟨_, tcpClient_of_notMem obj hcolon⟩

/-- `10.0.0.1:7120` in memory that held a `9` after the host: the server is `10.0.0.19`. -/
theorem not_parsesExactly_stale :
    ¬ ParsesExactly (Memory.write (fun _ => 0) 8 [57])
      ⟨[49, 48, 46, 48, 46, 48, 46, 49, 58, 55, 49, 50, 48], by decide⟩ ∧
    (tcpClient (Memory.write (fun _ => 0) 8 [57])
      ⟨[49, 48, 46, 48, 46, 48, 46, 49, 58, 55, 49, 50, 48], by decide⟩).map server =
        .ok ([10, 0, 0, 19], 7120) := by
  constructor
  · intro h
    exact absurd (h.terminated (by decide)).2 (by decide)
  · rfl

end Iax.Tcp
