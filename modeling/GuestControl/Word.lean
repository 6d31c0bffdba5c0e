/-!
# Numbers of fixed width

A number becomes a word only if the word can hold it; nothing wraps. Casts take
what is beyond an end of the word to that end.
-/

namespace GuestControl.Word

def int64? (i : Int) : Option Int64 :=
  if -9223372036854775808 ≤ i ∧ i ≤ 9223372036854775807 then some (Int64.ofInt i) else none

def int32? (i : Int) : Option Int32 :=
  if -2147483648 ≤ i ∧ i ≤ 2147483647 then some (Int32.ofInt i) else none

def uint64? (n : Nat) : Option UInt64 :=
  if n < 18446744073709551616 then some (UInt64.ofNat n) else none

def uint32? (n : Nat) : Option UInt32 :=
  if n < 4294967296 then some (UInt32.ofNat n) else none

def uint16? (n : Nat) : Option UInt16 :=
  if n < 65536 then some (UInt16.ofNat n) else none

def castInt64 (i : Int) : Int64 :=
  Int64.ofInt (max (-9223372036854775808) (min i 9223372036854775807))

def castUInt64 (i : Int) : UInt64 := UInt64.ofNat (min i.toNat 18446744073709551615)

def nat? : Int → Option Nat
  | .ofNat n => some n
  | .negSucc _ => none

theorem toInt_of_int64? {i : Int} {w : Int64} (h : int64? i = some w) : w.toInt = i := by
  unfold int64? at h
  split at h
  · rename_i hb
    cases h
    exact Int64.toInt_ofInt_of_le (by omega) (by omega)
  · cases h

theorem toNat_of_uint64? {n : Nat} {w : UInt64} (h : uint64? n = some w) : w.toNat = n := by
  unfold uint64? at h
  split at h
  · rename_i hb
    cases h
    exact UInt64.toNat_ofNat_of_lt hb
  · cases h

theorem toNat_of_uint32? {n : Nat} {w : UInt32} (h : uint32? n = some w) : w.toNat = n := by
  unfold uint32? at h
  split at h
  · rename_i hb
    cases h
    exact UInt32.toNat_ofNat_of_lt hb
  · cases h

theorem toNat_of_uint16? {n : Nat} {w : UInt16} (h : uint16? n = some w) : w.toNat = n := by
  unfold uint16? at h
  split at h
  · rename_i hb
    cases h
    exact UInt16.toNat_ofNat_of_lt hb
  · cases h

theorem int64?_eq_some {i : Int} {w : Int64} : int64? i = some w ↔ w.toInt = i := by
  refine ⟨toInt_of_int64?, ?_⟩
  rintro rfl
  have hlow := w.le_toInt
  have hhigh := w.toInt_lt
  rw [int64?, if_pos ⟨by omega, by omega⟩, Int64.ofInt_toInt]

theorem uint64?_eq_some {n : Nat} {w : UInt64} : uint64? n = some w ↔ w.toNat = n := by
  refine ⟨toNat_of_uint64?, ?_⟩
  rintro rfl
  rw [uint64?, if_pos w.toNat_lt, UInt64.ofNat_toNat]

theorem uint32?_eq_some {n : Nat} {w : UInt32} : uint32? n = some w ↔ w.toNat = n := by
  refine ⟨toNat_of_uint32?, ?_⟩
  rintro rfl
  rw [uint32?, if_pos w.toNat_lt, UInt32.ofNat_toNat]

theorem uint16?_eq_some {n : Nat} {w : UInt16} : uint16? n = some w ↔ w.toNat = n := by
  refine ⟨toNat_of_uint16?, ?_⟩
  rintro rfl
  rw [uint16?, if_pos w.toNat_lt, UInt16.ofNat_toNat]

theorem nat?_eq_some {i : Int} {n : Nat} : nat? i = some n ↔ i = n := by
  cases i with
  | ofNat k =>
    exact ⟨fun h => congrArg Int.ofNat (Option.some.inj h),
      fun h => congrArg some (Int.ofNat.inj h)⟩
  | negSucc k => simp [nat?]

theorem int64?_eq_cast {i : Int} (hlow : -9223372036854775808 ≤ i)
    (hhigh : i ≤ 9223372036854775807) : int64? i = some (castInt64 i) := by
  have hwithin : max (-9223372036854775808) (min i 9223372036854775807) = i := by omega
  rw [int64?, if_pos ⟨hlow, hhigh⟩, castInt64, hwithin]

theorem uint64?_eq_cast {n : Nat} (h : n < 18446744073709551616) :
    uint64? n = some (castUInt64 n) := by
  have hwithin : min (n : Int).toNat 18446744073709551615 = n := by omega
  rw [uint64?, if_pos h, castUInt64, hwithin]

theorem exists_uint64 {P : Nat → Prop} : (∃ w : UInt64, P w.toNat) ↔ ∃ n < UInt64.size, P n := by
  constructor
  · rintro ⟨w, hw⟩
    exact ⟨w.toNat, w.toNat_lt, hw⟩
  · rintro ⟨n, hn, hP⟩
    have hword : (UInt64.ofNat n).toNat = n := UInt64.toNat_ofNat_of_lt hn
    exact ⟨.ofNat n, hword.symm ▸ hP⟩

theorem exists_uint32 {P : Nat → Prop} : (∃ w : UInt32, P w.toNat) ↔ ∃ n < UInt32.size, P n := by
  constructor
  · rintro ⟨w, hw⟩
    exact ⟨w.toNat, w.toNat_lt, hw⟩
  · rintro ⟨n, hn, hP⟩
    have hword : (UInt32.ofNat n).toNat = n := UInt32.toNat_ofNat_of_lt hn
    exact ⟨.ofNat n, hword.symm ▸ hP⟩

end GuestControl.Word
