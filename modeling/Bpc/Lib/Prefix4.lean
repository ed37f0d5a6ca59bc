/-
  IPv4 PREFIXES — parsing, printing and the three comparisons of an address/length pair.

  The MEANING of a prefix is a set of addresses; `contains_iff`, `subset_of_contains` and
  `overlaps_iff` relate the comparisons to it.
-/
import Bpc.Lib.SlashPath

namespace Bpc

open SlashPath

/-- An IPv4 prefix; the address may have host bits set. -/
structure Prefix4 where
  addr : Nat
  bits : Nat
  addr_lt : addr < 2 ^ 32
  bits_le : bits ≤ 32
  deriving DecidableEq

namespace Prefix4

/-! ## The set of addresses -/

/-- Number of addresses in a block of a given length. -/
def block (bits : Nat) : Nat := 2 ^ (32 - bits)

theorem block_pos (bits : Nat) : 0 < block bits := Nat.two_pow_pos _

variable {n : Nat}

/-- A shorter block consists of whole longer ones. -/
theorem block_mul {m : Nat} (hmn : m ≤ n) (hn : n ≤ 32) : block m = block n * 2 ^ (n - m) := by
  unfold block
  rw [← pow_add]
  congr 1
  omega

instance : Membership Nat Prefix4 :=
  ⟨fun p a => a < 2 ^ 32 ∧ a / block p.bits = p.addr / block p.bits⟩

variable {a : Nat} {p : Prefix4}

theorem mem_def : a ∈ p ↔ a < 2 ^ 32 ∧ a / block p.bits = p.addr / block p.bits := Iff.rfl

theorem addr_mem (p : Prefix4) : p.addr ∈ p := ⟨p.addr_lt, rfl⟩

/-! ## Operations on the pair -/

/-- `Masked`. -/
def masked (p : Prefix4) : Prefix4 where
  addr := p.addr / block p.bits * block p.bits
  bits := p.bits
  addr_lt := Nat.lt_of_le_of_lt (Nat.div_mul_le_self _ _) p.addr_lt
  bits_le := p.bits_le

/-- Do the leading `bits` bits of an address agree with the prefix? -/
def contains (p : Prefix4) (a : Nat) : Bool := a / block p.bits == p.addr / block p.bits

/-- Do the two addresses agree on the shorter of the two lengths? -/
def overlaps (p q : Prefix4) : Bool :=
  p.addr / block (min p.bits q.bits) == q.addr / block (min p.bits q.bits)

theorem mem_masked : a ∈ p.masked ↔ a ∈ p := by
  show a < 2 ^ 32 ∧ a / block p.bits = p.addr / block p.bits * block p.bits / block p.bits ↔ _
  rw [Nat.mul_div_cancel _ (block_pos _)]
  exact Iff.rfl

theorem contains_iff (ha : a < 2 ^ 32) : p.contains a = true ↔ a ∈ p := by
  rw [contains, beq_iff_eq, mem_def]
  exact ⟨fun h => ⟨ha, h⟩, fun h => h.2⟩

theorem div_block_eq {b m : Nat} (hmn : m ≤ n) (hn : n ≤ 32) (h : a / block n = b / block n) :
    a / block m = b / block m := by
  rw [block_mul hmn hn, ← Nat.div_div_eq_div_mul, ← Nat.div_div_eq_div_mul, h]

/-- A shorter prefix that contains the address of `p` contains `p`. -/
theorem subset_of_contains {g : Prefix4} (hbits : g.bits ≤ p.bits)
    (h : g.masked.contains p.addr = true) : ∀ a ∈ p, a ∈ g := by
  intro a ha
  have hg : p.addr ∈ g := mem_masked.mp ((contains_iff p.addr_lt).mp h)
  refine ⟨ha.1, ?_⟩
  calc a / block g.bits = p.addr / block g.bits := div_block_eq hbits p.bits_le ha.2
    _ = g.addr / block g.bits := hg.2

/-- **Overlap is a common address.** -/
theorem overlaps_iff {q : Prefix4} : p.overlaps q = true ↔ ∃ a, a ∈ p ∧ a ∈ q := by
  rw [overlaps, beq_iff_eq]
  constructor
  · intro h
    -- the address of the longer prefix lies in the shorter one
    rcases Nat.le_total p.bits q.bits with hle | hle
    · rw [Nat.min_eq_left hle] at h
      exact ⟨q.addr, ⟨q.addr_lt, h.symm⟩, addr_mem q⟩
    · rw [Nat.min_eq_right hle] at h
      exact ⟨p.addr, addr_mem p, ⟨p.addr_lt, h⟩⟩
  · rintro ⟨a, hp, hq⟩
    have h1 := div_block_eq (Nat.min_le_left p.bits q.bits) p.bits_le hp.2
    have h2 := div_block_eq (Nat.min_le_right p.bits q.bits) q.bits_le hq.2
    exact h1.symm.trans h2

/-! ## Text form -/

/-- A decimal number: digits only, at least one. -/
def parseDecimal (s : Str) : Option Nat :=
  if s ≠ [] ∧ s.all Char.isDigit then
    some (s.foldl (fun n c => 10 * n + (c.toNat - '0'.toNat)) 0)
  else none

/-- A single digit, or a first digit from 1 to 9. -/
def noLeadingZero (s : Str) : Bool := s.length == 1 || s.head? != some '0'

/-- One decimal octet. -/
def parseOctet (s : Str) : Option Nat :=
  match parseDecimal s with
  | some n => if s.length ≤ 3 ∧ noLeadingZero s ∧ n ≤ 255 then some n else none
  | none => none

/-- A dotted address. -/
def parseAddr (s : Str) : Option (Fin (2 ^ 32)) :=
  match (s.splitOn '.').map parseOctet with
  | [some a, some b, some c, some d] =>
    let n := ((a * 256 + b) * 256 + c) * 256 + d
    if h : n < 2 ^ 32 then some ⟨n, h⟩ else none
  | _ => none

/-- `address/length`.  An IPv6 text is not accepted. -/
def parse (s : Str) : Option Prefix4 :=
  match s.splitOn '/' with
  | [ip, len] =>
    match parseAddr ip, parseDecimal len with
    | some a, some n =>
      if h : n ≤ 32 then
        if noLeadingZero len then some ⟨a, n, a.isLt, h⟩ else none
      else none
    | _, _ => none
  | _ => none

/-- A number in decimal. -/
def decimal (n : Nat) : Str := (Nat.repr n).toList

/-- Print as `a.b.c.d/bits`. -/
def toText (p : Prefix4) : Str :=
  decimal (p.addr / 2 ^ 24) ++ ['.'] ++ decimal (p.addr / 2 ^ 16 % 256) ++ ['.'] ++
    decimal (p.addr / 2 ^ 8 % 256) ++ ['.'] ++ decimal (p.addr % 256) ++ ['/'] ++ decimal p.bits

/-! ## Reading what was printed -/

theorem parseOctet_decimal (h : n < 256) : parseOctet (decimal n) = some n :=
  (by decide +kernel : ∀ m : Fin 256, parseOctet (decimal m) = some m.val) ⟨n, h⟩

theorem parseLength_decimal (h : n ≤ 32) :
    parseDecimal (decimal n) = some n ∧ noLeadingZero (decimal n) = true :=
  (by decide +kernel : ∀ m : Fin 33,
    parseDecimal (decimal m) = some m.val ∧ noLeadingZero (decimal m) = true) ⟨n, by omega⟩

theorem isDigit_decimal (h : n < 256) : ∀ c ∈ decimal n, c.isDigit = true :=
  List.all_eq_true.mp
    ((by decide +kernel : ∀ m : Fin 256, (decimal m).all Char.isDigit = true) ⟨n, h⟩)

variable {c : Char}

theorem not_mem_decimal (h : n < 256) (hc : c.isDigit = false) :
    c ∉ decimal n := fun hmem => Bool.false_ne_true (hc.symm.trans (isDigit_decimal h c hmem))

/-- The dotted text of an address. -/
def addrText (addr : Nat) : Str :=
  decimal (addr / 2 ^ 24) ++ '.' :: (decimal (addr / 2 ^ 16 % 256) ++ '.' ::
    (decimal (addr / 2 ^ 8 % 256) ++ '.' :: decimal (addr % 256)))

theorem toText_eq (p : Prefix4) : p.toText = addrText p.addr ++ '/' :: decimal p.bits := by
  simp only [toText, addrText, List.append_assoc, List.cons_append, List.nil_append]

variable {addr : Nat}

theorem octets_lt (h : addr < 2 ^ 32) : addr / 2 ^ 24 < 256 ∧
    addr / 2 ^ 16 % 256 < 256 ∧ addr / 2 ^ 8 % 256 < 256 ∧ addr % 256 < 256 := by
  omega

theorem parseAddr_addrText (h : addr < 2 ^ 32) : parseAddr (addrText addr) = some ⟨addr, h⟩ := by
  obtain ⟨h1, h2, h3, h4⟩ := octets_lt h
  have hdot : ('.' : Char).isDigit = false := by decide
  have hsplit : (addrText addr).splitOn '.' = [decimal (addr / 2 ^ 24),
      decimal (addr / 2 ^ 16 % 256), decimal (addr / 2 ^ 8 % 256), decimal (addr % 256)] := by
    rw [addrText, List.splitOn_append_cons_self_of_not_mem (not_mem_decimal h1 hdot),
      List.splitOn_append_cons_self_of_not_mem (not_mem_decimal h2 hdot),
      List.splitOn_append_cons_self_of_not_mem (not_mem_decimal h3 hdot),
      List.splitOn_eq_singleton (not_mem_decimal h4 hdot)]
  have hsum : ((addr / 2 ^ 24 * 256 + addr / 2 ^ 16 % 256) * 256 + addr / 2 ^ 8 % 256) * 256 +
      addr % 256 = addr := by omega
  rw [parseAddr, hsplit, List.map_cons, List.map_cons, List.map_cons, List.map_cons, List.map_nil,
    parseOctet_decimal h1, parseOctet_decimal h2, parseOctet_decimal h3, parseOctet_decimal h4]
  dsimp only
  rw [dif_pos (hsum.symm ▸ h)]
  exact congrArg some (Fin.ext hsum)

theorem mem_addrText (h : addr < 2 ^ 32) (hc : c ∈ addrText addr) : c.isDigit = true ∨ c = '.' := by
  obtain ⟨h1, h2, h3, h4⟩ := octets_lt h
  simp only [addrText, List.mem_append, List.mem_cons] at hc
  rcases hc with hc | rfl | hc | rfl | hc | rfl | hc
  · exact .inl (isDigit_decimal h1 c hc)
  · exact .inr rfl
  · exact .inl (isDigit_decimal h2 c hc)
  · exact .inr rfl
  · exact .inl (isDigit_decimal h3 c hc)
  · exact .inr rfl
  · exact .inl (isDigit_decimal h4 c hc)

/-- **A printed prefix is read back.** -/
theorem parse_toText (p : Prefix4) : parse p.toText = some p := by
  have hslash : '/' ∉ addrText p.addr := by
    intro hmem
    rcases mem_addrText p.addr_lt hmem with h | h
    · exact absurd h (by decide)
    · exact absurd h (by decide)
  have hbits : p.bits < 256 := Nat.lt_of_le_of_lt p.bits_le (by decide)
  obtain ⟨hlen, hzero⟩ := parseLength_decimal p.bits_le
  have hsplit : p.toText.splitOn '/' = [addrText p.addr, decimal p.bits] := by
    rw [toText_eq, List.splitOn_append_cons_self_of_not_mem hslash,
      List.splitOn_eq_singleton (not_mem_decimal hbits (by decide))]
  rw [parse, hsplit]
  dsimp only
  rw [parseAddr_addrText p.addr_lt, hlen]
  dsimp only
  rw [dif_pos p.bits_le, if_pos hzero]

theorem mem_intercalate {sep : Char} {parts : List Str} (h : c ∈ [sep].intercalate parts) :
    (∃ t ∈ parts, c ∈ t) ∨ c = sep := by
  induction parts with
  | nil => cases h
  | cons t parts ih =>
    cases parts with
    | nil => exact .inl ⟨t, List.mem_cons_self, by simpa using h⟩
    | cons t' parts =>
      rw [List.intercalate_cons_cons, List.append_assoc] at h
      rcases List.mem_append.mp h with h | h
      · exact .inl ⟨t, List.mem_cons_self, h⟩
      rcases List.mem_cons.mp h with rfl | h
      · exact .inr rfl
      rcases ih h with ⟨u, hu, hc⟩ | hc
      · exact .inl ⟨u, List.mem_cons_of_mem _ hu, hc⟩
      · exact .inr hc

theorem mem_of_parse {s : Str} (h : parse s = some p) (hc : c ∈ s) :
    c.isDigit = true ∨ c = '.' ∨ c = '/' := by
  unfold parse at h
  split at h
  case h_2 => cases h
  rename_i ip len hsplit
  split at h
  case h_2 => cases h
  rename_i a n haddr hlen
  have hs : s = ip ++ '/' :: len := by
    have hjoin : ['/'].intercalate (s.splitOn '/') = s := List.intercalate_splitOn '/'
    rw [← hjoin, hsplit]
    simp
  subst hs
  have hdecimal : ∀ {t : Str} {m : Nat}, parseDecimal t = some m → ∀ d ∈ t, d.isDigit = true := by
    intro t m ht
    unfold parseDecimal at ht
    split at ht
    · rename_i hdigits
      exact List.all_eq_true.mp hdigits.2
    · cases ht
  rcases List.mem_append.mp hc with hc | hc
  · unfold parseAddr at haddr
    split at haddr
    case h_2 => cases haddr
    rename_i x1 x2 x3 x4 hmap
    -- every character but the dots is in a field
    have hparts : ∀ t ∈ ip.splitOn '.', ∀ d ∈ t, d.isDigit = true := by
      intro t ht d hd
      have hsome : parseOctet t ∈ [some x1, some x2, some x3, some x4] :=
        hmap ▸ List.mem_map_of_mem ht
      unfold parseOctet at hsome
      cases hdec : parseDecimal t with
      | some m => exact hdecimal hdec d hd
      | none =>
        rw [hdec] at hsome
        simp at hsome
    have hjoin : ['.'].intercalate (ip.splitOn '.') = ip := List.intercalate_splitOn '.'
    rcases mem_intercalate (hjoin.symm ▸ hc) with ⟨t, ht, hct⟩ | hdot
    · exact .inl (hparts t ht c hct)
    · exact .inr (.inl hdot)
  · rcases List.mem_cons.mp hc with rfl | hc
    · exact .inr (.inr rfl)
    · exact .inl (hdecimal hlen c hc)

example : (parse "192.168.88.0/24").map (fun p => (p.addr, p.bits)) = some (3232258048, 24) := by
  decide
example : parse "192.168.088.0/24" = none := by decide
example : parse "10.0.0.0/33" = none := by decide

end Prefix4

end Bpc
