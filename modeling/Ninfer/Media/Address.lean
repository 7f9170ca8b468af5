/-
  Which addresses remote media may come from: `private_ipv4` and `private_address` of
  `product/media_acquire/acquire.cpp`.

  Addresses are kept as the bytes of the socket structures, in network order. `Internal` says what
  the two functions are for, by the blocks of the address registries; they agree with it but for
  one block, whose constant in the source belongs to another one (`internal_iff_untested`,
  `internal_iff_not_misread`).
-/
import Ninfer.Lib.Cidr

namespace Ninfer.Media

open Lib

/-! ## Addresses as the resolver returns them -/

/-- The bytes of `in_addr`, in network order. -/
structure InAddr where
  b0 : UInt8
  b1 : UInt8
  b2 : UInt8
  b3 : UInt8

/-- The bytes `s6_addr` of `in6_addr`. -/
abbrev In6Addr := Fin 16 → UInt8

/-- A socket address: of a family that the source distinguishes, or of another one. -/
inductive SockAddr where
  | inet (address : InAddr)
  | inet6 (address : In6Addr)
  | other (family : Nat)

/-! ## The tests of the source -/

variable (a : InAddr)

def ntohl : UInt32 := UInt32.ofNat (bigEndian [a.b0, a.b1, a.b2, a.b3])

def privateIpv4 (address : InAddr) : Bool :=
  let a := ntohl address
  a >>> 24 == 0 || a >>> 24 == 10 || a >>> 24 == 127 || a >>> 16 == 0xa9fe ||
    a >>> 20 == 0xac1 || a >>> 16 == 0xc0a8 || a >>> 22 == 0x0191 ||
    a >>> 17 == 0x633f || decide (a >>> 24 ≥ 224)

namespace In6Addr

variable (a : In6Addr)

/-- `IN6_IS_ADDR_UNSPECIFIED` and its siblings. -/
def isUnspecified : Bool := decide (∀ i, a i = 0)

def isLoopback : Bool := decide (∀ i, a i = if i = 15 then 1 else 0)

def isLinkLocal : Bool := a 0 == 0xfe && a 1 &&& 0xc0 == 0x80

def isMulticast : Bool := a 0 == 0xff

def isV4Mapped : Bool :=
  decide (∀ i : Fin 10, a (i.castLE (by decide)) = 0) && a 10 == 0xff && a 11 == 0xff

/-- The four bytes that the source copies out of a mapped address. -/
def mapped : InAddr := { b0 := a 12, b1 := a 13, b2 := a 14, b3 := a 15 }

end In6Addr

def privateAddress : SockAddr → Bool
  | .inet a => privateIpv4 a
  | .inet6 a =>
    if a.isUnspecified || a.isLoopback || a.isLinkLocal || a.isMulticast || a 0 &&& 0xfe == 0xfc
    then true
    else if a.isV4Mapped then privateIpv4 a.mapped
    else false
  | .other _ => true

/-! ## What they are for -/

/-- The blocks of internal IPv4 addresses. -/
def internalBlocks : List (Cidr 32) :=
  [.dotted 0 0 0 0 8, .dotted 10 0 0 0 8, .dotted 100 64 0 0 10, .dotted 127 0 0 0 8,
    .dotted 169 254 0 0 16, .dotted 172 16 0 0 12, .dotted 192 168 0 0 16, .dotted 198 18 0 0 15,
    .dotted 224 0 0 0 3]

/-- `::`, `::1`, `fe80::/10`, `fc00::/7` and `ff00::/8`. -/
def internalBlocks6 : List (Cidr 128) :=
  [{ base := 0, len := 128 }, { base := 1, len := 128 }, { base := 0xfe80 * 2 ^ 112, len := 10 },
    { base := 0xfc00 * 2 ^ 112, len := 7 }, { base := 0xff00 * 2 ^ 112, len := 8 }]

/-- `::ffff:0:0/96`. -/
def mappedBlock : Cidr 128 := { base := 0xffff * 2 ^ 32, len := 96 }

def InAddr.value : Nat := bigEndian [a.b0, a.b1, a.b2, a.b3]

def In6Addr.value (a : In6Addr) : Nat := bigEndian (List.ofFn a)

def InAddr.Internal : Prop := ∃ c ∈ internalBlocks, c.Contains a.value

/-- An address of the host itself, of its networks, or of no single host. -/
def SockAddr.Internal : SockAddr → Prop
  | .inet a => a.Internal
  | .inet6 a =>
    (∃ c ∈ internalBlocks6, c.Contains a.value) ∨ (mappedBlock.Contains a.value ∧ a.mapped.Internal)
  | .other _ => True

/-- The blocks that the constants of `private_ipv4` stand for, in its order. -/
def testedBlocks : List (Cidr 32) :=
  [.dotted 0 0 0 0 8, .dotted 10 0 0 0 8, .dotted 127 0 0 0 8, .dotted 169 254 0 0 16,
    .dotted 172 16 0 0 12, .dotted 192 168 0 0 16, .dotted 100 64 0 0 10, .dotted 198 126 0 0 15,
    .dotted 224 0 0 0 3]

/-- In `198.18.0.0/15`, an internal block that no test finds. -/
def InAddr.Untested : Prop := (Cidr.dotted 198 18 0 0 15).Contains a.value

/-- In `198.126.0.0/15`, which is tested in its place. -/
def InAddr.Misread : Prop := (Cidr.dotted 198 126 0 0 15).Contains a.value

/-- An address of the untested block, or the mapped form of one. -/
def SockAddr.Untested : SockAddr → Prop
  | .inet a => a.Untested
  | .inet6 a => mappedBlock.Contains a.value ∧ a.mapped.Untested
  | .other _ => False

/-! ## The tests against the blocks -/

theorem InAddr.value_lt : a.value < 2 ^ 32 := by
  exact (bigEndian_lt [a.b0, a.b1, a.b2, a.b3]).trans_eq (by simp)

theorem ntohl_toNat : (ntohl a).toNat = a.value :=
  UInt32.toNat_ofNat_of_lt' a.value_lt

theorem shiftRight_toNat {k : UInt32} (hk : k.toNat < 32) :
    (ntohl a >>> k).toNat = a.value / 2 ^ k.toNat := by
  rw [UInt32.toNat_shiftRight, ntohl_toNat, Nat.mod_eq_of_lt hk, Nat.shiftRight_eq_div_pow]

theorem shiftRight_beq {k v : UInt32} (hk : k.toNat < 32) :
    (ntohl a >>> k == v) = true ↔ a.value / 2 ^ k.toNat = v.toNat := by
  rw [beq_iff_eq, ← UInt32.toNat_inj, shiftRight_toNat a hk]

/-- One shift of the source tests one block. -/
theorem shiftRight_beq_iff {k v : UInt32} {c : Cidr 32} (hk : k.toNat < 32)
    (hlen : 32 - c.len = k.toNat) (hbase : c.base / 2 ^ k.toNat = v.toNat) :
    (ntohl a >>> k == v) = true ↔ c.Contains a.value := by
  rw [shiftRight_beq a hk, Cidr.Contains, hlen, hbase]

/-- `224/3` is tested on whole bytes. -/
theorem le_shiftRight_iff :
    decide (ntohl a >>> 24 ≥ 224) = true ↔ (Cidr.dotted 224 0 0 0 3).Contains a.value := by
  have hlt := a.value_lt
  rw [decide_eq_true_iff, ge_iff_le, UInt32.le_iff_toNat_le, shiftRight_toNat a (by decide)]
  show 224 ≤ a.value / 2 ^ 24 ↔ a.value / 2 ^ 29 = 7
  omega

theorem privateIpv4_iff :
    privateIpv4 a = true ↔ ∃ c ∈ testedBlocks, c.Contains a.value := by
  unfold privateIpv4 testedBlocks
  simp only [Bool.or_eq_true, or_assoc, List.mem_cons, List.not_mem_nil, or_false,
    exists_eq_or_imp, exists_eq_left]
  rw [le_shiftRight_iff, shiftRight_beq_iff a (c := .dotted 0 0 0 0 8) (by decide) rfl rfl,
    shiftRight_beq_iff a (c := .dotted 10 0 0 0 8) (by decide) rfl rfl,
    shiftRight_beq_iff a (c := .dotted 127 0 0 0 8) (by decide) rfl rfl,
    shiftRight_beq_iff a (c := .dotted 169 254 0 0 16) (by decide) rfl rfl,
    shiftRight_beq_iff a (c := .dotted 172 16 0 0 12) (by decide) rfl rfl,
    shiftRight_beq_iff a (c := .dotted 192 168 0 0 16) (by decide) rfl rfl,
    shiftRight_beq_iff a (c := .dotted 100 64 0 0 10) (by decide) rfl rfl,
    shiftRight_beq_iff a (c := .dotted 198 126 0 0 15) (by decide) rfl rfl]

theorem mem_internalBlocks_of_tested :
    ∀ c ∈ testedBlocks, c ∈ internalBlocks ∨ c = .dotted 198 126 0 0 15 := by
  decide

theorem mem_testedBlocks_of_internal :
    ∀ c ∈ internalBlocks, c ∈ testedBlocks ∨ c = .dotted 198 18 0 0 15 := by
  decide

/-- Of the addresses that pass the tests, the internal ones are those of the untested block. -/
theorem InAddr.internal_iff_untested {a : InAddr} (h : privateIpv4 a = false) :
    a.Internal ↔ a.Untested := by
  constructor
  · rintro ⟨c, hc, ha⟩
    rcases mem_testedBlocks_of_internal c hc with hin | rfl
    · have hprivate := (privateIpv4_iff a).mpr ⟨c, hin, ha⟩
      rw [h] at hprivate
      cases hprivate
    · exact ha
  · intro ha
    exact ⟨_, by decide, ha⟩

/-- The misread block meets no internal one. -/
theorem InAddr.Misread.not_internal {a : InAddr} (h : a.Misread) : ¬ a.Internal := by
  have hvalue : a.value / 2 ^ 17 = 0x633f := h
  rintro ⟨c, hc, ha⟩
  simp only [internalBlocks, List.mem_cons, List.not_mem_nil, or_false] at hc
  rcases hc with rfl | rfl | rfl | rfl | rfl | rfl | rfl | rfl | rfl
  all_goals
    simp [Cidr.Contains, Cidr.dotted, bigEndian] at ha
    omega

/-- Of the addresses that are taken for internal ones, those of the misread block are not. -/
theorem InAddr.internal_iff_not_misread {a : InAddr} (h : privateIpv4 a = true) :
    a.Internal ↔ ¬ a.Misread := by
  refine ⟨fun ha hm => hm.not_internal ha, fun hm => ?_⟩
  obtain ⟨c, hc, ha⟩ := (privateIpv4_iff a).mp h
  rcases mem_internalBlocks_of_tested c hc with hin | rfl
  · exact ⟨c, hin, ha⟩
  · exact absurd ha hm

/-! ## The tests of IPv6 addresses -/

namespace In6Addr

variable (a : In6Addr)

/-- The first `k` bytes of an address are a prefix of `8 * k` bits. -/
theorem value_div (k : Nat) (hk : k ≤ 16) :
    a.value / 2 ^ (128 - 8 * k) = bigEndian ((List.ofFn a).take k) := by
  have hlen : ((List.ofFn a).drop k).length = 16 - k := by
    rw [List.length_drop, List.length_ofFn]
  have hpow : 2 ^ (128 - 8 * k) = 256 ^ (16 - k) := by
    rw [show 128 - 8 * k = 8 * (16 - k) by omega, Nat.pow_mul]
  rw [hpow, ← hlen]
  unfold value
  nth_rewrite 1 [← List.take_append_drop k (List.ofFn a)]
  exact bigEndian_append_div _ _

theorem isUnspecified_iff : a.isUnspecified = true ↔ a.value = 0 := by
  unfold isUnspecified value
  rw [decide_eq_true_iff, bigEndian_eq_zero, List.forall_mem_ofFn_iff]

theorem isLoopback_iff : a.isLoopback = true ↔ a.value = 1 := by
  have hlast := (a (Fin.last 15)).toNat_lt
  have hone : (a (Fin.last 15)).toNat = 1 ↔ a (Fin.last 15) = 1 := UInt8.toNat_inj (b := 1)
  have hvalue : a.value = bigEndian (List.ofFn fun i : Fin 15 => a i.castSucc) * 256 +
      (a (Fin.last 15)).toNat := by
    unfold value
    rw [List.ofFn_succ_last, bigEndian_concat]
  have hzero : bigEndian (List.ofFn fun i : Fin 15 => a i.castSucc) = 0 ↔
      ∀ i : Fin 15, a i.castSucc = 0 := by
    rw [bigEndian_eq_zero, List.forall_mem_ofFn_iff]
  have hall : (∀ i, a i = if i = 15 then 1 else 0) ↔
      (∀ i : Fin 15, a i.castSucc = 0) ∧ a (Fin.last 15) = 1 := by
    rw [Fin.forall_fin_succ']
    refine and_congr (forall_congr' fun i => ?_) .rfl
    rw [if_neg (show i.castSucc ≠ 15 from (Fin.castSucc_lt_last i).ne)]
  unfold isLoopback
  rw [decide_eq_true_iff, hall, ← hzero, ← hone, hvalue]
  omega

theorem value_div_byte : a.value / 2 ^ 120 = (a 0).toNat := by
  rw [a.value_div 1 (by decide)]
  show 0 * 256 + (a 0).toNat = _
  omega

theorem value_div_word : a.value / 2 ^ 112 = (a 0).toNat * 256 + (a 1).toNat := by
  rw [a.value_div 2 (by decide)]
  show (0 * 256 + (a 0).toNat) * 256 + (a 1).toNat = _
  omega

theorem and_beq_iff (b mask v : UInt8) :
    (b &&& mask == v) = true ↔ b.toNat &&& mask.toNat = v.toNat := by
  rw [beq_iff_eq, ← UInt8.toNat_inj, UInt8.toNat_and]

theorem isLinkLocal_iff :
    a.isLinkLocal = true ↔ a.value / 2 ^ 118 = 0xfe80 * 2 ^ 112 / 2 ^ 118 := by
  have hbits : ∀ n < 256, (n &&& 0xc0 = 0x80 ↔ n / 64 = 2) := by decide +kernel
  have h0 : (a 0).toNat = 0xfe ↔ a 0 = 0xfe := UInt8.toNat_inj (b := 0xfe)
  have h1 := (a 1).toNat_lt
  have hdiv : a.value / 2 ^ 118 = ((a 0).toNat * 256 + (a 1).toNat) / 64 := by
    rw [← a.value_div_word, Nat.div_div_eq_div_mul, show 2 ^ 112 * 64 = 2 ^ 118 by decide]
  unfold isLinkLocal
  rw [Bool.and_eq_true, and_beq_iff, beq_iff_eq, ← h0, hdiv]
  refine (and_congr_right' (hbits _ h1)).trans ?_
  omega

theorem isMulticast_iff :
    a.isMulticast = true ↔ a.value / 2 ^ 120 = 0xff00 * 2 ^ 112 / 2 ^ 120 := by
  unfold isMulticast
  rw [beq_iff_eq, ← UInt8.toNat_inj, a.value_div_byte]
  rfl

theorem isUniqueLocal_iff :
    (a 0 &&& 0xfe == 0xfc) = true ↔ a.value / 2 ^ 121 = 0xfc00 * 2 ^ 112 / 2 ^ 121 := by
  have hbits : ∀ n < 256, (n &&& 0xfe = 0xfc ↔ n / 2 = 126) := by decide +kernel
  have hdiv : a.value / 2 ^ 121 = (a 0).toNat / 2 := by
    rw [← a.value_div_byte, Nat.div_div_eq_div_mul, show 2 ^ 120 * 2 = 2 ^ 121 by decide]
  rw [and_beq_iff, hdiv]
  exact hbits _ (a 0).toNat_lt

theorem isV4Mapped_iff : a.isV4Mapped = true ↔ mappedBlock.Contains a.value := by
  have h10 : (a 10).toNat = 0xff ↔ a 10 = 0xff := UInt8.toNat_inj (b := 0xff)
  have h11 : (a 11).toNat = 0xff ↔ a 11 = 0xff := UInt8.toNat_inj (b := 0xff)
  have hlt := (a 10).toNat_lt
  have hlt' := (a 11).toNat_lt
  have hzero : bigEndian (List.ofFn fun i : Fin 10 => a (i.castLE (by decide))) = 0 ↔
      ∀ i : Fin 10, a (i.castLE (by decide)) = 0 := by
    rw [bigEndian_eq_zero, List.forall_mem_ofFn_iff]
  have hdiv : a.value / 2 ^ 32 =
      (bigEndian (List.ofFn fun i : Fin 10 => a (i.castLE (by decide))) * 256 + (a 10).toNat) *
        256 + (a 11).toNat := by
    rw [a.value_div 12 (by decide), ← bigEndian_concat, ← bigEndian_concat]
    rfl
  have hblock : mappedBlock.Contains a.value ↔ a.value / 2 ^ 32 = 0xffff := .rfl
  unfold isV4Mapped
  rw [Bool.and_eq_true, Bool.and_eq_true, decide_eq_true_iff, beq_iff_eq, beq_iff_eq, ← hzero,
    ← h10, ← h11, hblock, hdiv]
  omega

end In6Addr

theorem internalBlocks6_iff (a : In6Addr) : (∃ c ∈ internalBlocks6, c.Contains a.value) ↔
      (a.isUnspecified || a.isLoopback || a.isLinkLocal || a.isMulticast ||
        a 0 &&& 0xfe == 0xfc) = true := by
  unfold internalBlocks6
  simp only [List.mem_cons, List.not_mem_nil, or_false, exists_eq_or_imp, exists_eq_left,
    Cidr.Contains, Nat.sub_self, Nat.pow_zero, Nat.div_one]
  rw [Bool.or_eq_true, Bool.or_eq_true, Bool.or_eq_true, Bool.or_eq_true, a.isUnspecified_iff,
    a.isLoopback_iff, a.isLinkLocal_iff, a.isMulticast_iff, a.isUniqueLocal_iff, or_assoc,
    or_assoc, or_assoc]
  exact or_congr_right (or_congr_right (or_congr_right or_comm))

/-- Of the addresses that pass the tests, the internal ones are those of the untested block. -/
theorem SockAddr.internal_iff_untested {a : SockAddr} (h : privateAddress a = false) :
    a.Internal ↔ a.Untested := by
  cases a with
  | inet a => exact InAddr.internal_iff_untested h
  | inet6 a =>
    unfold privateAddress at h
    unfold SockAddr.Internal SockAddr.Untested
    dsimp only at h ⊢
    rw [internalBlocks6_iff]
    split_ifs at h with hblock hmapped
    · rw [or_iff_right hblock, InAddr.internal_iff_untested h]
    · have hnot := mt a.isV4Mapped_iff.mpr hmapped
      rw [or_iff_right hblock]
      exact iff_of_false (fun ha => hnot ha.1) fun ha => hnot ha.1
  | other family => cases h

end Ninfer.Media
