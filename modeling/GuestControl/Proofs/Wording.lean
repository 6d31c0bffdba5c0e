import GuestControl.Proofs.Duration
import GuestControl.Proofs.Text.Hexadecimal
import GuestControl.Shell.Envelope
import Mathlib.Data.List.SplitLengths

/-!
# The words of failures

How each failure is worded, said without the functions that word it: its text is put
together from the texts of its parts, an identifier is written in groups of digits, and
a code as the 32 bits that it consists of.
-/

namespace GuestControl

open Text.Numeral (IsHex isHex_iff small digitChar_eq_small)

-- ---------------------------------------------------------------------------
-- Identifiers
-- ---------------------------------------------------------------------------

/-- The digits in small letters, in five groups with a hyphen between two of them. -/
inductive Guid.Grouped (g : Guid) : String → Prop
  | intro (groups : List (List (Fin 16))) : groups.map List.length = [8, 4, 4, 4, 12] →
      groups.flatten = g.digits →
      Grouped g (String.ofList (['-'].intercalate (groups.map (·.map small))))

theorem Guid.hyphenate_flatten (parts : List (List Char)) :
    hyphenate (parts.map List.length) parts.flatten = ['-'].intercalate parts := by
  match parts with
  | [] => rfl
  | [part] => simp [hyphenate]
  | part :: part' :: rest =>
    have ih := hyphenate_flatten (part' :: rest)
    simp only [List.map_cons, List.flatten_cons] at ih
    simp [hyphenate, ih, List.intercalate]

theorem Guid.Grouped.eq_text {g : Guid} {s : String} (h : g.Grouped s) : s = g.text := by
  obtain ⟨groups, hlengths, hdigits⟩ := h
  have hsizes : (groups.map (·.map small)).map List.length = Guid.groups := by
    simpa [Function.comp_def, Guid.groups] using hlengths
  have hchars : g.chars = (groups.map (·.map small)).flatten := by
    simp [chars, ← hdigits, digitChar_eq_small, List.map_flatten]
  rw [text, hchars, ← hsizes, hyphenate_flatten]

theorem Guid.grouped_text (g : Guid) : g.Grouped g.text := by
  have hsum : Guid.groups.sum = g.digits.length := g.length_digits.symm
  have h : g.Grouped _ := .intro (Guid.groups.splitLengths g.digits)
    (List.map_splitLengths_length g.digits Guid.groups hsum.le)
    (List.flatten_splitLengths g.digits Guid.groups hsum.ge)
  rwa [h.eq_text] at h

-- ---------------------------------------------------------------------------
-- Codes
-- ---------------------------------------------------------------------------

/-- The text writes the two's complement of a code in 32 bits, with at least so many digits. -/
def IsCode (width : Nat) (code : Int32) (s : String) : Prop :=
  IsHex width s.toList (code.toInt % 2 ^ 32).toNat

theorem toNat_toUInt32 (code : Int32) : code.toUInt32.toNat = (code.toInt % 2 ^ 32).toNat := by
  have hlt : code.toBitVec.toNat < 2 ^ 32 := code.toBitVec.isLt
  have hpow : (2 : Int) ^ 32 = (2 ^ 32 : Nat) := rfl
  rw [← Int32.toInt_toBitVec, BitVec.toInt_eq_toNat_bmod, hpow, Int.bmod_emod,
    ← Int.natCast_emod, Int.toNat_natCast, Nat.mod_eq_of_lt hlt]
  rfl

theorem isCode_iff {width : Nat} {code : Int32} {s : String} (hwidth : 0 < width) :
    IsCode width code s ↔ s = codeText width code := by
  rw [IsCode, isHex_iff hwidth, codeText, toNat_toUInt32, String.toList_inj]

example : codeText 8 unexpectedCode = "8000FFFF" ∧ codeText 1 (-2147024891) = "80070005" ∧
    codeText 8 5 = "00000005" ∧ codeText 1 0 = "0" := by decide +kernel

-- ---------------------------------------------------------------------------
-- Failures
-- ---------------------------------------------------------------------------

def Service.Status.names : List (Status × String) :=
  [(.stopped, "Stopped"), (.startPending, "StartPending"), (.stopPending, "StopPending"),
    (.running, "Running"), (.continuePending, "ContinuePending"),
    (.pausePending, "PausePending"), (.paused, "Paused")]

theorem Service.Status.mem_names (status : Status) : (status, status.name) ∈ names := by
  cases status with
  | _ => decide

inductive ServiceError.Worded : ServiceError → String → Prop
  | timeout : limit.Shown time → (target, name) ∈ Service.Status.names →
      Worded (.timeout target limit) ("timed out after " ++ time ++ " waiting for status " ++ name)
  | unknownStatus : Worded (.unknownStatus text) ("unrecognized service status '" ++ text ++ "'")
  | command : Worded (.command text) ("service control command failed: " ++ text)
  | io : Worded (.io text) ("IO error: " ++ text)

/-- What a failure says of the resource that it is about. -/
inductive Error.About : Option Guid → String → Prop
  | none : About none ""
  | some {id : Guid} : id.Grouped text → About (some id) (" for " ++ text)

inductive Error.Worded : Error → String → Prop
  | serviceUnavailable : cause.Worded text → Worded (.serviceUnavailable service cause)
      ("Virtual machine management service '" ++ service ++ "' is unavailable: " ++ text)
  | operationFailed : About resource about → IsCode 8 code hex →
      Worded (.operationFailed operation resource text code)
        ("Operation '" ++ operation ++ "' failed" ++ about ++ " (code 0x" ++ hex ++ "): " ++ text)
  | notFound {resource : Guid} : resource.Grouped text → IsCode 8 code hex →
      Worded (.notFound resource code)
        ("Resource not found: " ++ text ++ " (code 0x" ++ hex ++ ")")
  | materialization : Worded (.materialization field expected found)
      ("Cannot convert member '" ++ field ++ "' to " ++ expected ++ ": found " ++ found)

def Shell.CommandError.Worded (e : CommandError) (line : String) : Prop :=
  ∃ hex, IsCode 1 e.code hex ∧ line = e.message ++ " (0x" ++ hex ++ ")"

theorem ServiceError.worded_message (e : ServiceError) : e.Worded e.message := by
  cases e with
  | timeout target limit => exact .timeout limit.shown_text target.mem_names
  | unknownStatus | command | io => constructor

theorem Error.worded_message (e : Error) : e.Worded e.message := by
  cases e with
  | serviceUnavailable service cause => exact .serviceUnavailable cause.worded_message
  | operationFailed operation resource text code =>
    have hcode := (isCode_iff (by decide)).mpr (rfl : codeText 8 code = _)
    cases resource with
    | none => exact .operationFailed .none hcode
    | some id => exact .operationFailed (.some id.grouped_text) hcode
  | notFound resource code =>
    exact .notFound resource.grouped_text ((isCode_iff (by decide)).mpr rfl)
  | materialization => exact .materialization

theorem Shell.CommandError.worded_iff {e : CommandError} {line : String} :
    e.Worded line ↔ line = e.text := by
  constructor
  · rintro ⟨hex, hhex, rfl⟩
    rw [(isCode_iff Nat.one_pos).mp hhex, text]
  · rintro rfl
    exact ⟨_, (isCode_iff Nat.one_pos).mpr rfl, rfl⟩

end GuestControl
