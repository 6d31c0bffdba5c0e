/-!
# Numerals

Digits of a base, most significant first, and the texts made of them:
decimal numerals with and without sign, and hexadecimal numerals. The digits
of a number denote it (`value_digits`), and a written number reads back
as that number (`integer?_signed`).
-/

namespace GuestControl.Text.Numeral

def value {b : Nat} (ds : List (Fin b)) : Nat := ds.foldl (fun acc d => acc * b + d.val) 0

def lastDigit {b : Nat} (hb : 0 < b) (n : Nat) : Fin b := ⟨n % b, Nat.mod_lt n hb⟩

/-- The digits of `n` before the digits `acc`; `fuel` bounds their number. -/
def digitsBefore {b : Nat} (hb : 0 < b) : Nat → Nat → List (Fin b) → List (Fin b)
  | 0, _, acc => acc
  | fuel + 1, n, acc =>
    if n / b = 0 then lastDigit hb n :: acc
    else digitsBefore hb fuel (n / b) (lastDigit hb n :: acc)

/-- The digits of `n` in base `b`, without leading zeros. -/
def digits {b : Nat} (hb : 0 < b) (n : Nat) : List (Fin b) := digitsBefore hb (n + 1) n []

def decimalDigits (n : Nat) : List (Fin 10) := digits (by decide) n

def hexDigits (n : Nat) : List (Fin 16) := digits (by decide) n

-- ---------------------------------------------------------------------------
-- Characters
-- ---------------------------------------------------------------------------

def digitChar (d : Nat) : Char := Char.ofNat (if d < 10 then 48 + d else 87 + d)

def digitCapital (d : Nat) : Char := Char.ofNat (if d < 10 then 48 + d else 55 + d)

/-- The digit below `b` that a character stands for, whatever its case. -/
def digit? (b : Nat) (c : Char) : Option (Fin b) :=
  let n := c.toNat
  let d := if 48 ≤ n ∧ n ≤ 57 then n - 48
    else if 97 ≤ n ∧ n ≤ 102 then n - 87
    else if 65 ≤ n ∧ n ≤ 70 then n - 55
    else b
  if h : d < b then some ⟨d, h⟩ else none

def digits? (b : Nat) (s : List Char) : Option (List (Fin b)) := s.mapM (digit? b)

def decimalChars (n : Nat) : List Char := (decimalDigits n).map (digitChar ·.val)

def decimal (n : Nat) : String := String.ofList (decimalChars n)

def signed : Int → String
  | .ofNat n => decimal n
  | .negSucc n => "-" ++ decimal (n + 1)

/-- A hexadecimal numeral with capital letters and at least `width` digits. -/
def hexCapital (width n : Nat) : String :=
  let ds := (hexDigits n).map (digitCapital ·.val)
  String.ofList (List.replicate (width - ds.length) '0' ++ ds)

-- ---------------------------------------------------------------------------
-- Reading
-- ---------------------------------------------------------------------------

def plain? (s : List Char) : Option Nat :=
  if s.isEmpty then none else (digits? 10 s).map value

/-- A natural number: digits with an optional plus sign. -/
def natural? : List Char → Option Nat
  | '+' :: s => plain? s
  | s => plain? s

def integer? : List Char → Option Int
  | '-' :: s => (plain? s).map fun n => -(n : Int)
  | '+' :: s => (plain? s).map fun n => (n : Int)
  | s => (plain? s).map fun n => (n : Int)

-- ---------------------------------------------------------------------------
-- Laws
-- ---------------------------------------------------------------------------

theorem foldl_digit {b : Nat} (ds : List (Fin b)) (acc : Nat) :
    ds.foldl (fun acc d => acc * b + d.val) acc = acc * Nat.pow b ds.length + value ds := by
  induction ds generalizing acc with
  | nil => simp [value]
  | cons d ds ih =>
    simp only [value, List.foldl_cons, List.length_cons]
    rw [ih, ih (0 * b + d.val)]
    simp only [Nat.zero_mul, Nat.zero_add, Nat.add_mul, Nat.pow_eq, Nat.pow_succ]
    rw [Nat.mul_assoc, Nat.mul_comm b, Nat.add_assoc]

theorem value_cons {b : Nat} (d : Fin b) (ds : List (Fin b)) :
    value (d :: ds) = d.val * Nat.pow b ds.length + value ds := by
  have := foldl_digit ds (0 * b + d.val)
  simpa [value] using this

theorem value_digitsBefore {b : Nat} (hb : 1 < b) (fuel n : Nat) (acc : List (Fin b))
    (h : n < fuel) :
    value (digitsBefore (Nat.lt_of_succ_lt hb) fuel n acc) =
      n * Nat.pow b acc.length + value acc := by
  induction fuel generalizing n acc with
  | zero => omega
  | succ fuel ih =>
    unfold digitsBefore
    split
    · rename_i h0
      have hlt : n < b := by
        rcases Nat.div_eq_zero_iff.mp h0 with h | h <;> omega
      rw [value_cons]
      simp [lastDigit, Nat.mod_eq_of_lt hlt]
    · rename_i h0
      have hpos : 0 < n := by
        rcases Nat.eq_zero_or_pos n with rfl | h'
        · simp at h0
        · exact h'
      have hdiv : n / b < n := Nat.div_lt_self hpos hb
      rw [ih (n / b) _ (by omega), value_cons]
      simp only [List.length_cons, lastDigit, Nat.pow_eq, Nat.pow_succ]
      generalize b ^ acc.length = m
      have := Nat.div_add_mod n b
      calc n / b * (m * b) + (n % b * m + value acc)
          = (b * (n / b) + n % b) * m + value acc := by
            rw [Nat.add_mul, Nat.mul_comm b (n / b), Nat.mul_comm m b, Nat.mul_assoc,
              Nat.add_assoc]
        _ = n * m + value acc := by rw [this]

theorem value_digits {b : Nat} (hb : 1 < b) (n : Nat) :
    value (digits (Nat.lt_of_succ_lt hb) n) = n := by
  rw [digits, value_digitsBefore hb (n + 1) n [] (by omega)]
  simp [value]

theorem digit?_digitChar (d : Fin 16) : digit? 16 (digitChar d.val) = some d := by
  revert d; decide

theorem digit?_decimal (d : Fin 10) : digit? 10 (digitChar d.val) = some d := by
  revert d; decide

theorem digitsBefore_ne_nil {b : Nat} (hb : 0 < b) {acc : List (Fin b)} (h : acc ≠ [])
    (fuel n : Nat) : digitsBefore hb fuel n acc ≠ [] := by
  induction fuel generalizing n acc with
  | zero => exact h
  | succ fuel ih =>
    rw [digitsBefore]
    split
    · exact List.cons_ne_nil _ _
    · exact ih (List.cons_ne_nil _ _) _

theorem decimalChars_ne_nil (n : Nat) : decimalChars n ≠ [] := by
  have hdigits : decimalDigits n ≠ [] := by
    rw [decimalDigits, digits, digitsBefore]
    split
    · exact List.cons_ne_nil _ _
    · exact digitsBefore_ne_nil _ (List.cons_ne_nil _ _) _ _
  simpa [decimalChars] using hdigits

theorem isDigit_of_mem_decimalChars {n : Nat} {c : Char} (h : c ∈ decimalChars n) :
    c.isDigit = true := by
  have hdigit : ∀ d : Fin 10, (digitChar d.val).isDigit = true := by decide
  obtain ⟨d, -, rfl⟩ := List.mem_map.mp h
  exact hdigit d

theorem digits?_decimal (ds : List (Fin 10)) : digits? 10 (ds.map (digitChar ·.val)) = some ds := by
  induction ds with
  | nil => rfl
  | cons d ds ih =>
    simp only [digits?] at ih
    simp [digits?, List.mapM_cons, digit?_decimal, ih]

theorem plain?_decimalChars (n : Nat) : plain? (decimalChars n) = some n := by
  have hds : digits? 10 (decimalChars n) = some (decimalDigits n) := digits?_decimal _
  simp [plain?, decimalChars_ne_nil, hds, decimalDigits, value_digits]

theorem integer?_signed (i : Int) : integer? (signed i).toList = some i := by
  cases i with
  | ofNat n =>
    simp only [signed, decimal, String.toList_ofList]
    unfold integer?
    split
    · rename_i s h
      cases isDigit_of_mem_decimalChars (n := n) (c := '-') (h ▸ List.mem_cons_self)
    · rename_i s h
      cases isDigit_of_mem_decimalChars (n := n) (c := '+') (h ▸ List.mem_cons_self)
    · simp [plain?_decimalChars]
  | negSucc n =>
    simp [signed, decimal, integer?, plain?_decimalChars, Int.negSucc_eq]

end GuestControl.Text.Numeral
