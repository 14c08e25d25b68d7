import Summer.Net.TcpServer
import Summer.Lib.MachineInt
import Mathlib.Data.List.TakeWhile

/-!
# Addresses as text

`toHostPort` writes an address, and `pub` and `sub` read one from their first argument. What stands
in front of the first colon goes to `inet_pton`, and what that refuses becomes 0.0.0.0; what stands
behind it goes to `atoi`.
-/
namespace Summer.Net

open Summer.Lib

/-! ## Reading -/

/-- The string that a `const char*` stands for. -/
def c_str (text : Name) : Name := text.takeWhile fun ch => ch ≠ Char.ofNat 0

def digit (ch : Char) : Nat := ch.toNat - '0'.toNat

/-- Up to four octets between points. `last` is the octet that is being read, if it has a digit;
one that starts with a zero has no other. -/
def readOctets : Name → List Nat → Option Nat → Option (List Nat)
  | [], octets, some last => if octets.length = 3 then some (octets ++ [last]) else none
  | [], _, none => none
  | ch :: text, octets, last =>
    if ch.isDigit = true then
      if last = some 0 ∨ 255 < last.getD 0 * 10 + digit ch then none
      else readOctets text octets (some (last.getD 0 * 10 + digit ch))
    else if ch = '.' then
      match last with
      | none => none
      | some last => if octets.length = 3 then none else readOctets text (octets ++ [last]) none
    else none

/-- `inet_pton` writes an address if it can read one. -/
def inet_pton (text : Name) (addr : InetAddress) : Option InetAddress :=
  match readOctets text [] none with
  | some [a, b, c, d] =>
    some { addr with a := .ofNat 8 a, b := .ofNat 8 b, c := .ofNat 8 c, d := .ofNat 8 d }
  | _ => none

def fromHostPort (ip : Name) (port : BitVec 16) (addr : InetAddress) : InetAddress :=
  let addr := { addr with port := port }
  (inet_pton (c_str ip) addr).getD addr

/-- What `bzero` leaves. -/
def InetAddress.zero : InetAddress := ⟨0, 0, 0, 0, 0⟩

/-- The constructor from an ip and a port. -/
def InetAddress.ofHostPort (ip : Name) (port : BitVec 16) : InetAddress :=
  fromHostPort ip port .zero

def isspace (ch : Char) : Bool := ch = ' ' || (9 ≤ ch.toNat && ch.toNat ≤ 13)

/-- The base is 10. -/
def strtol (text : Name) : Int :=
  match text.dropWhile isspace with
  | '-' :: text => max (-(Nat.ofDigitChars 10 (text.takeWhile Char.isDigit) 0 : Int)) (-2 ^ 63)
  | '+' :: text => min (Nat.ofDigitChars 10 (text.takeWhile Char.isDigit) 0) (2 ^ 63 - 1)
  | text => min (Nat.ofDigitChars 10 (text.takeWhile Char.isDigit) 0) (2 ^ 63 - 1)

def atoi (text : Name) : Int := int32 (strtol text)

/-- The address that the programs make of `argv[1]`, unless they print their usage. -/
def serverAddr (hostport : Name) : Option InetAddress :=
  match hostport.idxOf? ':' with
  | none => none
  | some pos =>
    some (.ofHostPort (hostport.take pos) (.ofInt 16 (atoi (hostport.drop (pos + 1)))))

/-! ## Dotted quads -/

/-- Numerals between points. -/
def dotted : List Nat → Name
  | [] => []
  | [n] => decimal n
  | n :: m :: ns => decimal n ++ '.' :: dotted (m :: ns)

variable {text : Name} {octets ns : List Nat} {last : Option Nat} {n : Nat}

/-- The numeral of the octet that is being read. -/
def written : Option Nat → Name
  | none => []
  | some n => decimal n

theorem digit_lt {ch : Char} (h : ch.isDigit = true) : digit ch < 10 := by
  rw [Char.isDigit_iff_toNat] at h
  simp [digit] at h ⊢
  omega

theorem digitChar_digit {ch : Char} (h : ch.isDigit = true) : (digit ch).digitChar = ch := by
  have hlt := digit_lt h
  rw [Char.isDigit_iff_toNat] at h
  apply Char.toNat_inj.mp
  rw [Nat.toNat_digitChar_of_lt_ten hlt]
  simp [digit] at h ⊢
  omega

theorem digit_digitChar {d : Nat} (hd : d < 10) : digit d.digitChar = d :=
  Nat.toNat_digitChar_sub_48_of_lt_ten hd

/-- The numeral with one more digit. -/
theorem written_digit {ch : Char} (hch : ch.isDigit = true) (hlast : last ≠ some 0) :
    decimal (last.getD 0 * 10 + digit ch) = written last ++ [ch] := by
  cases last with
  | none =>
    have hone := decimal_digit (digit_lt hch)
    rw [digitChar_digit hch] at hone
    simpa [written] using hone
  | some n =>
    have hn : 0 < n := Nat.pos_of_ne_zero fun h => hlast (congrArg some h)
    have hmore := decimal_concat hn (digit_lt hch)
    rw [digitChar_digit hch] at hmore
    simpa [written] using hmore

/-- What is read are the numerals between the points, and nothing else. -/
theorem readOctets_sound {os : List Nat} (hlast : ∀ n ∈ last, n ≤ 255)
    (h : readOctets text octets last = some os) : ∃ n ns, os = octets ++ n :: ns ∧
      os.length = 4 ∧ written last ++ text = dotted (n :: ns) ∧ ∀ m ∈ n :: ns, m ≤ 255 := by
  fun_induction readOctets text octets last with
  | case1 octets last hlen =>
    cases h
    exact ⟨last, [], rfl, by simp [hlen], by simp [written, dotted],
      by simpa using hlast last rfl⟩
  | case2 | case3 | case4 | case6 | case7 | case9 => cases h
  | case5 ch text octets last hch hbad ih =>
    rw [not_or, Nat.not_lt] at hbad
    obtain ⟨n, ns, hos, hlen, htext, hle⟩ := ih (by simpa using hbad.2) h
    refine ⟨n, ns, hos, hlen, ?_, hle⟩
    rw [← htext, written, written_digit hch hbad.1]
    simp
  | case8 text octets last hlen hdot ih =>
    obtain ⟨n, ns, rfl, hlen', htext, hle⟩ := ih (by simp) h
    refine ⟨last, n :: ns, by simp, hlen', ?_, ?_⟩
    · rw [dotted, ← htext]
      rfl
    · simpa using ⟨hlast last rfl, by simpa using hle⟩

/-- A numeral of an octet is read as a whole. -/
theorem readOctets_decimal (hn : n ≤ 255) :
    readOctets (decimal n ++ text) octets none = readOctets text octets (some n) := by
  induction n using Nat.strong_induction_on generalizing text with
  | _ n ih =>
    have hdigit : n % 10 < 10 := Nat.mod_lt _ (by decide)
    have hch : ((n % 10).digitChar).isDigit = true := by
      rw [Nat.isDigit_digitChar]
      exact decide_eq_true hdigit
    have hvalue := digit_digitChar hdigit
    by_cases hsmall : n < 10
    · have hsame : n % 10 = n := Nat.mod_eq_of_lt hsmall
      rw [hsame] at hch hvalue
      rw [decimal_digit hsmall, List.singleton_append, readOctets, if_pos hch, if_neg]
      · simp [hvalue]
      · simp [hvalue]
        omega
    · have hsplit : n = n / 10 * 10 + n % 10 := by omega
      have hnumeral : decimal n = decimal (n / 10) ++ [(n % 10).digitChar] := by
        nth_rewrite 1 [hsplit]
        exact decimal_concat (by omega) hdigit
      have hmore : (some (n / 10)).getD 0 * 10 + digit (n % 10).digitChar = n := by
        rw [hvalue, Option.getD_some]
        exact hsplit.symm
      rw [hnumeral, List.append_assoc, ih (n / 10) (by omega) (by omega), List.singleton_append,
        readOctets, if_pos hch, hmore, if_neg]
      simp
      omega

theorem readOctets_dotted (hlen : (octets ++ n :: ns).length = 4) (hle : ∀ m ∈ n :: ns, m ≤ 255) :
    readOctets (dotted (n :: ns)) octets none = some (octets ++ n :: ns) := by
  induction ns generalizing octets n with
  | nil =>
    have hthree : octets.length = 3 := by simpa using hlen
    have hread : readOctets (decimal n ++ []) octets none = readOctets [] octets (some n) :=
      readOctets_decimal (hle n (by simp))
    rw [List.append_nil] at hread
    rw [dotted, hread, readOctets, if_pos hthree]
  | cons m ns ih =>
    have hnot : octets.length ≠ 3 := by
      simp at hlen
      omega
    rw [dotted, readOctets_decimal (hle n (by simp)), readOctets, if_neg (by decide), if_pos rfl]
    simp only [hnot, if_false]
    rw [ih (by simpa using hlen) fun k hk => hle k (List.mem_cons_of_mem _ hk)]
    simp

theorem dotted_inet_ntop (addr : InetAddress) :
    dotted [addr.a.toNat, addr.b.toNat, addr.c.toNat, addr.d.toNat] = inet_ntop addr := by
  simp [dotted, inet_ntop]

theorem octet_le (n : BitVec 8) : n.toNat ≤ 255 := Nat.le_of_lt_succ n.isLt

/-- `inet_pton` accepts exactly what `inet_ntop` writes. -/
theorem inet_pton_iff {addr addr' : InetAddress} : inet_pton text addr = some addr' ↔
    addr'.port = addr.port ∧ text = inet_ntop addr' := by
  constructor
  · intro h
    rw [inet_pton] at h
    split at h
    · rename_i a b c d hread
      cases h
      obtain ⟨n, ns, hos, -, htext, hle⟩ := readOctets_sound (by simp) hread
      rw [List.nil_append] at hos
      rw [← hos] at htext hle
      simp only [List.mem_cons, List.not_mem_nil, or_false, forall_eq_or_imp, forall_eq] at hle
      refine ⟨rfl, ?_⟩
      have hmod : ∀ m ≤ 255, (BitVec.ofNat 8 m).toNat = m := fun m hm => by
        rw [BitVec.toNat_ofNat]
        omega
      rw [← dotted_inet_ntop]
      dsimp only
      rw [hmod a hle.1, hmod b hle.2.1, hmod c hle.2.2.1, hmod d hle.2.2.2]
      exact htext
    · cases h
  · rintro ⟨hport, rfl⟩
    have hread : readOctets (inet_ntop addr') [] none =
        some [addr'.a.toNat, addr'.b.toNat, addr'.c.toNat, addr'.d.toNat] := by
      rw [← dotted_inet_ntop]
      exact readOctets_dotted rfl (by simp [octet_le])
    rw [inet_pton, hread]
    simp [← hport]

/-! ## Host and port -/

variable {addr : InetAddress}

theorem mem_dotted {ch : Char} (h : ch ∈ dotted ns) : ch.isDigit = true ∨ ch = '.' := by
  fun_induction dotted ns with
  | case1 => cases h
  | case2 n => exact .inl (isDigit_of_mem_decimal h)
  | case3 n m ns ih =>
    rw [List.mem_append, List.mem_cons] at h
    rcases h with h | rfl | h
    · exact .inl (isDigit_of_mem_decimal h)
    · exact .inr rfl
    · exact ih h

/-- The characters of an address. -/
theorem mem_inet_ntop {ch : Char} (h : ch ∈ inet_ntop addr) : ch.isDigit = true ∨ ch = '.' := by
  rw [← dotted_inet_ntop] at h
  exact mem_dotted h

theorem c_str_inet_ntop (addr : InetAddress) : c_str (inet_ntop addr) = inet_ntop addr := by
  refine List.takeWhile_eq_self_iff.mpr fun ch hch => ?_
  rcases mem_inet_ntop hch with hdigit | rfl
  · apply decide_eq_true
    rintro rfl
    cases hdigit
  · rfl

theorem colon_not_mem_inet_ntop (addr : InetAddress) : ':' ∉ inet_ntop addr := by
  intro h
  rcases mem_inet_ntop h with h | h <;> cases h

/-- The array is long enough. -/
theorem toHostPort_eq (addr : InetAddress) :
    addr.toHostPort = inet_ntop addr ++ ':' :: decimal addr.port.toNat := by
  have ha := length_decimal_octet addr.a
  have hb := length_decimal_octet addr.b
  have hc := length_decimal_octet addr.c
  have hd := length_decimal_octet addr.d
  have hport : (decimal addr.port.toNat).length ≤ 5 :=
    (length_decimal_le_iff (by decide)).mpr (addr.port.isLt.trans (by decide))
  apply List.take_of_length_le
  simp only [inet_ntop, List.length_append, List.length_cons]
  omega

/-- `atoi` reads back what `%d` writes. -/
theorem atoi_decimal {n : Nat} (hn : n < 2 ^ 31) : atoi (decimal n) = n := by
  have hdigits : ∀ ch ∈ decimal n, ch.isDigit = true := fun ch hch => isDigit_of_mem_decimal hch
  have htake : (decimal n).takeWhile Char.isDigit = decimal n :=
    List.takeWhile_eq_self_iff.mpr hdigits
  have hvalue : Nat.ofDigitChars 10 (decimal n) 0 = n := Nat.ofDigitChars_ten_toDigits
  have hspace : (decimal n).dropWhile isspace = decimal n := by
    cases hd : decimal n with
    | nil => rfl
    | cons ch rest =>
      have hch := hdigits ch (by simp [hd])
      rw [Char.isDigit_iff_toNat] at hch
      have hnot : isspace ch = false := by
        have hblank : ch ≠ ' ' := by
          rintro rfl
          simp at hch
        simp [isspace, hblank] at hch ⊢
        omega
      rw [List.dropWhile_cons, hnot]
      rfl
  have hstrtol : strtol (decimal n) = n := by
    rw [strtol, hspace]
    split
    · rename_i hminus
      cases hdigits '-' (by simp [hminus])
    · rename_i hplus
      cases hdigits '+' (by simp [hplus])
    · rw [htake, hvalue]
      omega
  rw [atoi, hstrtol]
  exact int32_cast (by omega) (by omega)

/-- An ip that `inet_pton` refuses is 0.0.0.0. -/
theorem ofHostPort_iff {ip : Name} {port : BitVec 16} : InetAddress.ofHostPort ip port = addr ↔
    addr.port = port ∧ (c_str ip = inet_ntop addr ∨
      (∀ other, c_str ip ≠ inet_ntop other) ∧ addr = { InetAddress.zero with port := port }) := by
  rw [InetAddress.ofHostPort, fromHostPort]
  cases hread : inet_pton (c_str ip) { InetAddress.zero with port := port } with
  | none =>
    have hnone : ∀ other, c_str ip ≠ inet_ntop other := by
      intro other heq
      have hsome : inet_pton (c_str ip) { InetAddress.zero with port := port } =
          some { other with port := port } := inet_pton_iff.mpr ⟨rfl, heq⟩
      cases hread.symm.trans hsome
    rw [Option.getD_none]
    constructor
    · rintro rfl
      exact ⟨rfl, .inr ⟨hnone, rfl⟩⟩
    · rintro ⟨-, heq | ⟨-, rfl⟩⟩
      · exact absurd heq (hnone addr)
      · rfl
  | some addr' =>
    obtain ⟨hport, htext⟩ := inet_pton_iff.mp hread
    rw [Option.getD_some]
    constructor
    · rintro rfl
      exact ⟨hport, .inl htext⟩
    · rintro ⟨hport', heq | ⟨hnone, -⟩⟩
      · exact Option.some_inj.mp (hread.symm.trans (inet_pton_iff.mpr ⟨hport', heq⟩))
      · exact absurd htext (hnone addr')

/-- The first colon. -/
theorem idxOf?_colon {pos : Nat} : text.idxOf? ':' = some pos ↔
    ∃ ip port, text = ip ++ ':' :: port ∧ ':' ∉ ip ∧ pos = ip.length := by
  rw [List.idxOf?_eq_some_iff]
  constructor
  · rintro ⟨hpos, hcolon, hbefore⟩
    refine ⟨text.take pos, text.drop (pos + 1), ?_, fun hmem => ?_, ?_⟩
    · rw [← hcolon, ← List.drop_eq_getElem_cons hpos, List.take_append_drop]
    · obtain ⟨j, hj, heq⟩ := List.mem_take_iff_getElem.mp hmem
      exact hbefore j (by omega) heq
    · simp
      omega
  · rintro ⟨ip, port, rfl, hip, rfl⟩
    refine ⟨by simp, by simp, fun j hj heq => hip ?_⟩
    rw [List.getElem_append_left hj] at heq
    rw [← heq]
    exact List.getElem_mem hj

theorem serverAddr_iff : serverAddr text = some addr ↔ ∃ ip port, text = ip ++ ':' :: port ∧
    ':' ∉ ip ∧ InetAddress.ofHostPort ip (.ofInt 16 (atoi port)) = addr := by
  constructor
  · intro h
    rw [serverAddr] at h
    split at h
    · cases h
    · rename_i pos hpos
      obtain ⟨ip, port, rfl, hip, rfl⟩ := idxOf?_colon.mp hpos
      refine ⟨ip, port, rfl, hip, ?_⟩
      simpa using h
  · rintro ⟨ip, port, rfl, hip, rfl⟩
    have hpos := idxOf?_colon.mpr ⟨ip, port, rfl, hip, rfl⟩
    rw [serverAddr, hpos]
    simp

/-- The programs read back every address that is written, and take every argument with a colon: the
port is whatever `atoi` makes of the text behind it, and a text in front of it that is not what
`inet_ntop` writes for some address stands for 0.0.0.0. -/
theorem addresses_read_back :
    (∀ addr : InetAddress, serverAddr addr.toHostPort = some addr) ∧
    ∀ (text : Name) (addr : InetAddress), serverAddr text = some addr ↔
      ∃ ip port, text = ip ++ ':' :: port ∧ ':' ∉ ip ∧ addr.port = .ofInt 16 (atoi port) ∧
        (c_str ip = inet_ntop addr ∨
          (∀ other, c_str ip ≠ inet_ntop other) ∧
            addr = { InetAddress.zero with port := addr.port }) := by
  constructor
  · intro addr
    have hport : BitVec.ofInt 16 (atoi (decimal addr.port.toNat)) = addr.port := by
      rw [atoi_decimal (addr.port.isLt.trans (by decide)), BitVec.ofInt_natCast,
        BitVec.ofNat_toNat, BitVec.setWidth_eq]
    rw [toHostPort_eq]
    refine serverAddr_iff.mpr ⟨_, _, rfl, colon_not_mem_inet_ntop addr, ?_⟩
    exact ofHostPort_iff.mpr ⟨hport.symm, .inl (c_str_inet_ntop addr)⟩
  · intro text addr
    rw [serverAddr_iff]
    refine exists₂_congr fun ip port => and_congr_right fun _ => and_congr_right fun _ => ?_
    rw [ofHostPort_iff]
    refine and_congr_right fun hport => ?_
    rw [hport]

end Summer.Net
