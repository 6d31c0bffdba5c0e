import GuestControl.Proofs.Binary64.Rounding
import GuestControl.Proofs.Record.Reading
import GuestControl.Proofs.Text.Numerals
import Mathlib.Algebra.Order.Field.Rat
import Mathlib.Tactic.FieldSimp

/-!
# Numbers are converted exactly or not at all

What number a value denotes does not depend on the type that it is wanted in. A
conversion to a word gives that number; a value that denotes none, or one that the word
cannot hold, is a mismatch.
-/

namespace GuestControl

open Text.Numeral (Spells natural?_eq_some)

-- ---------------------------------------------------------------------------
-- Doubles
-- ---------------------------------------------------------------------------

namespace Binary64

variable {x : Binary64} {i : Int}

def toRat? : Binary64 → Option ℚ
  | finite negative units => some (if negative then -(units / one) else units / one)
  | _ => none

theorem integer?_finite {negative : Bool} {units : Nat} :
    (finite negative units).integer? = some i ↔
      ∃ n : Nat, units = n * one ∧ i = if negative then -(n : Int) else n := by
  have hone := one_pos
  rw [integer?]
  -- Nothing here depends on how large `one` is, and nothing may compute it.
  generalize one = k at hone ⊢
  rw [Option.ite_none_right_eq_some, Option.some.injEq]
  constructor
  · rintro ⟨hwhole, rfl⟩
    exact ⟨units / k, (Nat.div_mul_cancel (Nat.dvd_of_mod_eq_zero hwhole)).symm, rfl⟩
  · rintro ⟨n, rfl, rfl⟩
    rw [Nat.mul_div_cancel n hone]
    exact ⟨Nat.mul_mod_left n k, rfl⟩

theorem div_eq_intCast {units k : Nat} (hk : 0 < k) :
    (units / k : ℚ) = i ↔ ∃ n : Nat, units = n * k ∧ i = n := by
  have hk' : (k : ℚ) ≠ 0 := Nat.cast_ne_zero.mpr hk.ne'
  rw [div_eq_iff hk']
  constructor
  · intro h
    have hint : (units : Int) = i * k := by exact_mod_cast h
    have hnonneg : 0 ≤ i := by
      have hprod : 0 ≤ i * (k : Int) := hint ▸ Int.natCast_nonneg units
      exact nonneg_of_mul_nonneg_left hprod (by exact_mod_cast hk)
    obtain ⟨n, rfl⟩ := Int.eq_ofNat_of_zero_le hnonneg
    exact ⟨n, by exact_mod_cast hint, rfl⟩
  · rintro ⟨n, rfl, rfl⟩
    push_cast
    rfl

theorem integer?_eq_some : x.integer? = some i ↔ x.toRat? = some (i : ℚ) := by
  cases x with
  | nan | infinite _ => exact ⟨nofun, nofun⟩
  | finite negative units =>
    rw [integer?_finite, toRat?, Option.some.injEq]
    cases negative with
    | false =>
      exact (div_eq_intCast one_pos).symm
    | true =>
      have hneg : -(units / one : ℚ) = i ↔ (units / one : ℚ) = ((-i : Int) : ℚ) := by
        rw [neg_eq_iff_eq_neg, Int.cast_neg]
      simp only [if_true, hneg, div_eq_intCast one_pos, neg_eq_iff_eq_neg]

end Binary64

-- ---------------------------------------------------------------------------
-- Values
-- ---------------------------------------------------------------------------

namespace Value

/-- The number that a value denotes: for text, that of the numeral which is left when
blanks are trimmed. -/
inductive Denotes : Value → ℚ → Prop
  | null : Denotes .null 0
  | int {i : Int64} : Denotes (.int i) i.toInt
  | uint {n : UInt64} : Denotes (.uint n) n.toNat
  | float {x : Binary64} {q : ℚ} : x.toRat? = some q → Denotes (.float x) q
  | string {s : String} {i : Int} : Spells (Text.trimChars s.toList) i → Denotes (.string s) i

/-- The value is text that begins with a minus sign, apart from blanks. -/
def HasMinus : Value → Prop
  | .string s => Text.Numeral.HasMinus (Text.trimChars s.toList)
  | _ => False

variable {v : Value} {p q : ℚ} {i : Int} {n : Nat}

theorem Denotes.unique (h : v.Denotes p) (h' : v.Denotes q) : p = q := by
  cases h with
  | null | int | uint =>
    cases h'
    rfl
  | float hp =>
    cases h' with
    | float hq => exact Option.some.inj (hp.symm.trans hq)
  | string hp =>
    cases h' with
    | string hq => rw [hp.unique hq]

theorem wholeBelow?_eq_some {bound : Nat} {x : Binary64} :
    wholeBelow? bound x = some i ↔ x.toRat? = some (i : ℚ) ∧ i.natAbs < bound := by
  simp [wholeBelow?, Option.filter_eq_some_iff, Binary64.integer?_eq_some]

@[simp]
theorem denotes_null : null.Denotes q ↔ q = 0 :=
  ⟨fun h => by cases h; rfl, fun h => h ▸ .null⟩

@[simp]
theorem denotes_int {i : Int64} : (int i).Denotes q ↔ q = i.toInt :=
  ⟨fun h => by cases h; rfl, fun h => h ▸ .int⟩

@[simp]
theorem denotes_uint {n : UInt64} : (uint n).Denotes q ↔ q = n.toNat :=
  ⟨fun h => by cases h; rfl, fun h => h ▸ .uint⟩

@[simp]
theorem denotes_float {x : Binary64} : (float x).Denotes q ↔ x.toRat? = some q :=
  ⟨fun h => by cases h; assumption, .float⟩

@[simp]
theorem denotes_string {s : String} :
    (string s).Denotes q ↔ ∃ i : Int, q = i ∧ Spells (Text.trimChars s.toList) i :=
  ⟨fun h => by cases h; exact ⟨_, rfl, ‹_›⟩, fun ⟨_, hq, hs⟩ => hq ▸ .string hs⟩

theorem natCast_eq_intCast : (n : ℚ) = (i : ℚ) ↔ i = n := by
  rw [← Int.cast_natCast, Int.cast_inj]
  exact eq_comm

theorem signed?_eq_some : v.signed? = some i ↔
    v.Denotes i ∧ ∀ x, v = .float x → i.natAbs < signedBound := by
  cases v with
  | null | int _ => simp [signed?, eq_comm]
  | uint n =>
    have hcast : (i : ℚ) = n.toNat ↔ i = n.toNat := by rw [eq_comm, natCast_eq_intCast]
    simp [signed?, hcast, eq_comm]
  | float x => simp [signed?, wholeBelow?_eq_some]
  | string s => simp [signed?, Text.Numeral.integer?_eq_some]
  | bool _ | guid _ | record _ | list _ => exact ⟨nofun, fun h => nomatch h.1⟩

theorem unsigned?_eq_some : v.unsigned? = some n ↔
    v.Denotes n ∧ ¬ v.HasMinus ∧ ∀ x, v = .float x → n < unsignedBound := by
  cases v with
  | null | uint _ => simp [unsigned?, HasMinus, eq_comm]
  | int i => simp [unsigned?, HasMinus, Word.nat?_eq_some, natCast_eq_intCast]
  | float x =>
    simp [unsigned?, HasMinus, Option.bind_eq_some_iff, wholeBelow?_eq_some, Word.nat?_eq_some]
  | string s => simp [unsigned?, HasMinus, natural?_eq_some, natCast_eq_intCast, and_comm]
  | bool _ | guid _ | record _ | list _ => exact ⟨nofun, fun h => nomatch h.1⟩

-- ---------------------------------------------------------------------------
-- Words
-- ---------------------------------------------------------------------------

theorem toInt64_eq_ok {w : Int64} : v.toInt64 = .ok w ↔
    v.Denotes w.toInt ∧ ∀ x, v = .float x → w.toInt.natAbs < signedBound := by
  simp [toInt64_eq, expecting_eq_ok, Option.bind_eq_some_iff, Word.int64?_eq_some, signed?_eq_some]

theorem toUInt64_eq_ok {w : UInt64} : v.toUInt64 = .ok w ↔
    v.Denotes w.toNat ∧ ¬ v.HasMinus ∧ ∀ x, v = .float x → w.toNat < unsignedBound := by
  simp [toUInt64_eq, expecting_eq_ok, Option.bind_eq_some_iff, Word.uint64?_eq_some,
    unsigned?_eq_some]

theorem toUInt32_eq_ok_iff {w : UInt32} :
    v.toUInt32 = .ok w ↔ ∃ wide, v.toUInt64 = .ok wide ∧ wide.toNat = w.toNat := by
  cases hwide : v.toUInt64 with
  | error m => simp [toUInt32, hwide, bind, Except.bind]
  | ok wide =>
    simp only [toUInt32, hwide, bind, Except.bind, expecting_eq_ok, Word.uint32?_eq_some,
      Except.ok.injEq, exists_eq_left']
    exact eq_comm

theorem toUInt32_eq_ok {w : UInt32} :
    v.toUInt32 = .ok w ↔ v.Denotes w.toNat ∧ ¬ v.HasMinus := by
  have hsmall : w.toNat < unsignedBound := lt_trans w.toNat_lt (by decide)
  rw [toUInt32_eq_ok_iff]
  constructor
  · rintro ⟨wide, hwide, hvalue⟩
    obtain ⟨hdenotes, hminus, -⟩ := toUInt64_eq_ok.mp hwide
    exact ⟨hvalue ▸ hdenotes, hminus⟩
  · rintro ⟨hdenotes, hminus⟩
    refine ⟨w.toUInt64, toUInt64_eq_ok.mpr ?_, w.toNat_toUInt64⟩
    rw [w.toNat_toUInt64]
    exact ⟨hdenotes, hminus, fun _ _ => hsmall⟩

theorem exists_toUInt32_iff :
    (∃ w, v.toUInt32 = .ok w) ↔ ∃ w, v.toUInt64 = .ok w ∧ w.toNat < 2 ^ 32 := by
  simp only [toUInt32_eq_ok_iff]
  constructor
  · rintro ⟨w, wide, hwide, hvalue⟩
    exact ⟨wide, hwide, hvalue ▸ w.toNat_lt⟩
  · rintro ⟨wide, hwide, hsmall⟩
    exact ⟨.ofNat wide.toNat, wide, hwide, (UInt32.toNat_ofNat_of_lt hsmall).symm⟩

/-- Below 2⁶³ only a minus sign tells signed words from unsigned ones, except for doubles. -/
theorem toUInt64_iff_toInt64 (hfloat : ∀ x, v ≠ .float x) (n : Nat) :
    (∃ w, v.toUInt64 = .ok w ∧ w.toNat = n ∧ n < 2 ^ 63) ↔
      ∃ w, v.toInt64 = .ok w ∧ w.toInt = n ∧ ¬ v.HasMinus := by
  have hnone {P : Prop} (x : Binary64) (hv : v = .float x) : P := absurd hv (hfloat x)
  constructor
  · rintro ⟨w, hw, rfl, hsmall⟩
    obtain ⟨hdenotes, hminus, -⟩ := toUInt64_eq_ok.mp hw
    have hvalue : (Int64.ofInt w.toNat).toInt = w.toNat :=
      Int64.toInt_ofInt_of_le (by omega) (by omega)
    refine ⟨.ofInt w.toNat, toInt64_eq_ok.mpr ⟨?_, hnone⟩, hvalue, hminus⟩
    rwa [hvalue, Int.cast_natCast]
  · rintro ⟨w, hw, hvalue, hminus⟩
    have hsmall : n < 2 ^ 63 := by
      have := w.toInt_lt
      omega
    have hword : (UInt64.ofNat n).toNat = n :=
      UInt64.toNat_ofNat_of_lt (lt_trans hsmall (by decide))
    refine ⟨.ofNat n, toUInt64_eq_ok.mpr ⟨?_, hminus, hnone⟩, hword, hsmall⟩
    rw [hword, ← Int.cast_natCast, ← hvalue]
    exact (toInt64_eq_ok.mp hw).1

structure ConvertsExactly (v : Value) : Prop where
  signed_iff : ∀ w, v.toInt64 = .ok w ↔
    v.Denotes w.toInt ∧ ∀ x, v = .float x → w.toInt.natAbs < 9200000000000000000
  unsigned_iff : ∀ w, v.toUInt64 = .ok w ↔
    v.Denotes w.toNat ∧ ¬ v.HasMinus ∧ ∀ x, v = .float x → w.toNat < 18000000000000000000
  narrow_iff : ∀ w, v.toUInt32 = .ok w ↔ v.Denotes w.toNat ∧ ¬ v.HasMinus
  signed_eq_unsigned : ∀ a b, v.toInt64 = .ok a → v.toUInt64 = .ok b → a.toInt = b.toNat
  signed_eq_narrow : ∀ a b, v.toInt64 = .ok a → v.toUInt32 = .ok b → a.toInt = b.toNat
  unsigned_eq_narrow : ∀ a b, v.toUInt64 = .ok a → v.toUInt32 = .ok b → a.toNat = b.toNat
  exists_narrow_iff : (∃ w, v.toUInt32 = .ok w) ↔ ∃ w, v.toUInt64 = .ok w ∧ w.toNat < 2 ^ 32
  both_iff : (∀ x, v ≠ .float x) → ∀ n : Nat,
    (∃ w, v.toUInt64 = .ok w ∧ w.toNat = n ∧ n < 2 ^ 63) ↔
      ∃ w, v.toInt64 = .ok w ∧ w.toInt = n ∧ ¬ v.HasMinus

/-- A word holds the very number that the value denotes. Values convert if they denote a
number in the range of the word, with two restrictions: a minus sign is only read as part
of a signed number, and the largest doubles are not read. -/
theorem numbers_exact (v : Value) : v.ConvertsExactly := by
  refine ⟨fun w => toInt64_eq_ok, fun w => toUInt64_eq_ok, fun w => toUInt32_eq_ok, ?_, ?_, ?_,
    exists_toUInt32_iff, toUInt64_iff_toInt64⟩
  · intro a b ha hb
    have hsame := (toInt64_eq_ok.mp ha).1.unique (toUInt64_eq_ok.mp hb).1
    exact natCast_eq_intCast.mp hsame.symm
  · intro a b ha hb
    have hsame := (toInt64_eq_ok.mp ha).1.unique (toUInt32_eq_ok.mp hb).1
    exact natCast_eq_intCast.mp hsame.symm
  · intro a b ha hb
    obtain ⟨wide, hwide, hvalue⟩ := toUInt32_eq_ok_iff.mp hb
    rw [← hvalue, Except.ok.inj (ha.symm.trans hwide)]

example : (string "\t+007\u00A0").toUInt32 = .ok 7 ∧ (string "-0").toInt64 = .ok 0 ∧
    (string "-0").toUInt64 = .error ⟨"unsigned integer", "string '-0'"⟩ := by decide

end Value

end GuestControl
