import Mathlib.Data.List.Basic
import Mathlib.Algebra.GroupWithZero.Nat

/-!
# UTF-8

Bytes are decoded one after another. A decoder is between two characters or inside a sequence that
has begun. What it gives out are pieces: characters, and bytes that no character begins with, which
end where the next byte cannot go on (the maximal parts that the standard library replaces).

## Main results

* `decode_append`: a text can be cut before the first byte of a sequence and behind a whole one.
* `flatMap_bytes_decode`: the pieces are all of the bytes.
* `decode_encode`: a text is what its bytes are decoded to.
-/

namespace Argmax.Lib.Utf8

/-- A byte inside of a sequence. -/
def Inner (byte : UInt8) : Prop := 0x80 ≤ byte.toNat ∧ byte.toNat ≤ 0xBF

instance : DecidablePred Inner := fun _ => inferInstanceAs (Decidable (_ ∧ _))

/-- A sequence that has begun: its bytes, how many are to come, the range of the next one, and the
bits of the character so far. -/
structure Sequence where
  seen : List UInt8
  missing : ℕ
  low : ℕ
  high : ℕ
  bits : ℕ
  low_ge : 0x80 ≤ low := by decide
  high_le : high ≤ 0xBF := by decide
  missing_pos : 0 < missing := by decide
  missing_le : missing ≤ 3 := by decide

/-- The sequence that a byte begins. -/
def opening (byte : UInt8) : Option Sequence :=
  let b := byte.toNat
  if 0xC2 ≤ b ∧ b ≤ 0xDF then
    some { seen := [byte], missing := 1, low := 0x80, high := 0xBF, bits := b - 0xC0 }
  else if b = 0xE0 then some { seen := [byte], missing := 2, low := 0xA0, high := 0xBF, bits := 0 }
  else if b = 0xED then
    some { seen := [byte], missing := 2, low := 0x80, high := 0x9F, bits := 0xD }
  else if 0xE1 ≤ b ∧ b ≤ 0xEF then
    some { seen := [byte], missing := 2, low := 0x80, high := 0xBF, bits := b - 0xE0 }
  else if b = 0xF0 then some { seen := [byte], missing := 3, low := 0x90, high := 0xBF, bits := 0 }
  else if b = 0xF4 then some { seen := [byte], missing := 3, low := 0x80, high := 0x8F, bits := 4 }
  else if 0xF1 ≤ b ∧ b ≤ 0xF3 then
    some { seen := [byte], missing := 3, low := 0x80, high := 0xBF, bits := b - 0xF0 }
  else none

/-- A character with its bytes, or bytes of none. -/
inductive Piece where
  | char (bytes : List UInt8) (c : Char)
  | broken (bytes : List UInt8)

def Piece.bytes : Piece → List UInt8
  | .char bytes _ => bytes
  | .broken bytes => bytes

/-- What a piece reads as. A replacement stands for bytes of no character. -/
def Piece.text : Piece → Char
  | .char _ c => c
  | .broken _ => '\uFFFD'

/-- A byte between two characters. -/
def start (byte : UInt8) : List Piece × Option Sequence :=
  if byte.toNat < 0x80 then ([.char [byte] (Char.ofNat byte.toNat)], none)
  else
    match opening byte with
    | some sequence => ([], some sequence)
    | none => ([.broken [byte]], none)

/-- The sequence with one more byte. -/
def Sequence.push (sequence : Sequence) (byte : UInt8) (h : 1 < sequence.missing) : Sequence where
  seen := sequence.seen ++ [byte]
  missing := sequence.missing - 1
  low := 0x80
  high := 0xBF
  bits := sequence.bits * 64 + (byte.toNat - 0x80)
  missing_pos := by omega
  missing_le := by have := sequence.missing_le; omega

def step : Option Sequence → UInt8 → List Piece × Option Sequence
  | none, byte => start byte
  | some sequence, byte =>
    if sequence.low ≤ byte.toNat ∧ byte.toNat ≤ sequence.high then
      if h : 1 < sequence.missing then ([], some (sequence.push byte h))
      else
        ([.char (sequence.seen ++ [byte])
          (Char.ofNat (sequence.bits * 64 + (byte.toNat - 0x80)))], none)
    else (.broken sequence.seen :: (start byte).1, (start byte).2)

/-- The pieces that bytes complete, and what they leave open. -/
def run (state : Option Sequence) : List UInt8 → List Piece × Option Sequence
  | [] => ([], state)
  | byte :: bytes =>
    ((step state byte).1 ++ (run (step state byte).2 bytes).1, (run (step state byte).2 bytes).2)

/-- A sequence that is never completed is broken. -/
def unfinished : Option Sequence → List Piece
  | none => []
  | some sequence => [.broken sequence.seen]

def decode (bytes : List UInt8) : List Piece :=
  (run none bytes).1 ++ unfinished (run none bytes).2

/-- `from_utf8_lossy`. -/
def fromUtf8Lossy (bytes : List UInt8) : List Char := (decode bytes).map Piece.text

/-- The character of a piece. -/
def Piece.char? : Piece → Option Char
  | .char _ c => some c
  | .broken _ => none

/-- `from_utf8`. -/
def fromUtf8 (bytes : List UInt8) : Option (List Char) := (decode bytes).mapM Piece.char?

def encode (text : List Char) : List UInt8 := text.flatMap String.utf8EncodeChar

/-! ## Cuts -/

theorem run_append (state : Option Sequence) (bytes bytes' : List UInt8) :
    run state (bytes ++ bytes') = ((run state bytes).1 ++ (run (run state bytes).2 bytes').1,
      (run (run state bytes).2 bytes').2) := by
  induction bytes generalizing state with
  | nil => simp [run]
  | cons byte bytes ih => simp [run, ih]

variable {byte : UInt8} {bytes : List UInt8} {sequence : Sequence}

/-- The first byte of a sequence breaks off the one before it. -/
theorem step_of_not_inner (state : Option Sequence) (h : ¬Inner byte) :
    step state byte = (unfinished state ++ (start byte).1, (start byte).2) := by
  cases state with
  | none => rfl
  | some sequence =>
    have hlow := sequence.low_ge
    have hhigh := sequence.high_le
    rw [Inner] at h
    rw [step, if_neg (by omega)]
    rfl

theorem decode_append_of_closed (h : (run none bytes).2 = none) (bytes' : List UInt8) :
    decode (bytes ++ bytes') = decode bytes ++ decode bytes' := by
  simp [decode, run_append, h, unfinished]

theorem decode_append_of_not_inner (bytes : List UInt8) (h : ¬Inner byte) (bytes' : List UInt8) :
    decode (bytes ++ byte :: bytes') = decode bytes ++ decode (byte :: bytes') := by
  simp [decode, run_append, run, step_of_not_inner _ h, unfinished]

/-- **A text can be cut** behind a whole sequence and before the first byte of one. -/
theorem decode_append {bytes' : List UInt8}
    (h : (run none bytes).2 = none ∨ ∀ byte ∈ bytes'.head?, ¬Inner byte) :
    decode (bytes ++ bytes') = decode bytes ++ decode bytes' := by
  rcases h with h | h
  · exact decode_append_of_closed h bytes'
  · cases bytes' with
    | nil => simp [decode, run, unfinished]
    | cons byte bytes' => exact decode_append_of_not_inner bytes (h byte rfl) bytes'

theorem fromUtf8Lossy_append {bytes' : List UInt8}
    (h : (run none bytes).2 = none ∨ ∀ byte ∈ bytes'.head?, ¬Inner byte) :
    fromUtf8Lossy (bytes ++ bytes') = fromUtf8Lossy bytes ++ fromUtf8Lossy bytes' := by
  simp [fromUtf8Lossy, decode_append h]

/-! ## Where a text is whole -/

theorem start_of_inner (h : Inner byte) : start byte = ([.broken [byte]], none) := by
  rw [Inner] at h
  have hopening : opening byte = none := by
    rw [opening]
    repeat rw [if_neg (by omega)]
  rw [start, if_neg (by omega), hopening]

theorem run_inner (h : ∀ byte ∈ bytes, Inner byte) : (run none bytes).2 = none := by
  induction bytes with
  | nil => rfl
  | cons byte bytes ih =>
    rw [List.forall_mem_cons] at h
    simpa [run, step, start_of_inner h.1] using ih h.2

/-- Enough bytes complete a sequence or break it. -/
theorem run_some_inner (h : ∀ byte ∈ bytes, Inner byte) (hlen : sequence.missing ≤ bytes.length) :
    (run (some sequence) bytes).2 = none := by
  induction bytes generalizing sequence with
  | nil =>
    have := sequence.missing_pos
    simp only [List.length_nil] at hlen
    omega
  | cons byte bytes ih =>
    rw [List.forall_mem_cons] at h
    rw [List.length_cons] at hlen
    rw [run, step]
    split
    · split
      · exact ih h.2 (by simp only [Sequence.push]; omega)
      · exact run_inner h.2
    · rw [start_of_inner h.1]
      exact run_inner h.2

theorem run_closed_of_inner (bytes : List UInt8) (h : ¬Inner byte) {bytes' : List UInt8}
    (hinner : ∀ other ∈ bytes', Inner other)
    (hlen : ∀ sequence ∈ opening byte, sequence.missing ≤ bytes'.length) :
    (run none (bytes ++ byte :: bytes')).2 = none := by
  rw [run_append, run, step_of_not_inner _ h, start]
  split
  · exact run_inner hinner
  · cases hopening : opening byte with
    | none => exact run_inner hinner
    | some sequence => exact run_some_inner hinner (hlen sequence hopening)

/-! ## The bytes of the pieces -/

/-- The bytes of a sequence that has begun. -/
def seenOf : Option Sequence → List UInt8
  | none => []
  | some sequence => sequence.seen

theorem bytes_start (byte : UInt8) :
    (start byte).1.flatMap Piece.bytes ++ seenOf (start byte).2 = [byte] := by
  rw [start]
  split
  · rfl
  · cases h : opening byte with
    | none => rfl
    | some sequence =>
      have hseen : sequence.seen = [byte] := by
        simp only [opening] at h
        split_ifs at h <;> cases h <;> rfl
      simp [seenOf, hseen]

theorem bytes_step (state : Option Sequence) (byte : UInt8) :
    (step state byte).1.flatMap Piece.bytes ++ seenOf (step state byte).2 =
      seenOf state ++ [byte] := by
  cases state with
  | none => exact bytes_start byte
  | some sequence =>
    rw [step]
    split
    · split <;> simp [seenOf, Sequence.push, Piece.bytes]
    · have := bytes_start byte
      simp_all [seenOf, Piece.bytes]

theorem bytes_run (state : Option Sequence) (bytes : List UInt8) :
    (run state bytes).1.flatMap Piece.bytes ++ seenOf (run state bytes).2 =
      seenOf state ++ bytes := by
  induction bytes generalizing state with
  | nil => simp [run]
  | cons byte bytes ih =>
    rw [run, List.flatMap_append, List.append_assoc, ih, ← List.append_assoc, bytes_step]
    simp

/-- **Every byte is in one piece.** -/
theorem flatMap_bytes_decode (bytes : List UInt8) : (decode bytes).flatMap Piece.bytes = bytes := by
  have h := bytes_run none bytes
  rw [decode]
  cases hrun : (run none bytes).2 <;> simpa [hrun, unfinished, seenOf, Piece.bytes] using h

/-! ## Characters -/

/-- Bytes complete a sequence. -/
structure Sequence.Completes (sequence : Sequence) (bytes : List UInt8) : Prop where
  length_eq : bytes.length = sequence.missing
  head : ∀ byte ∈ bytes.head?, sequence.low ≤ byte.toNat ∧ byte.toNat ≤ sequence.high
  inner : ∀ byte ∈ bytes, Inner byte

def bitsBehind (bits : ℕ) (bytes : List UInt8) : ℕ :=
  bytes.foldl (fun bits byte => bits * 64 + (byte.toNat - 0x80)) bits

theorem Sequence.Completes.run (h : sequence.Completes bytes) :
    Utf8.run (some sequence) bytes =
      ([.char (sequence.seen ++ bytes) (Char.ofNat (bitsBehind sequence.bits bytes))], none) := by
  induction bytes generalizing sequence with
  | nil =>
    have := sequence.missing_pos
    have := h.length_eq
    simp only [List.length_nil] at this
    omega
  | cons byte bytes ih =>
    have hlen := h.length_eq
    rw [List.length_cons] at hlen
    rw [Utf8.run, step, if_pos (h.head byte rfl)]
    split
    · have hrest : (sequence.push byte ‹_›).Completes bytes := by
        refine ⟨by simp only [Sequence.push]; omega, fun other hother => ?_, fun other hother => ?_⟩
        · exact h.inner other (List.mem_cons_of_mem _ (List.mem_of_mem_head? hother))
        · exact h.inner other (List.mem_cons_of_mem _ hother)
      rw [ih hrest]
      simp [Sequence.push, bitsBehind]
    · have hnil : bytes = [] := List.eq_nil_of_length_eq_zero (by omega)
      subst hnil
      rfl

/-- A first byte: how many are to come, the bits it has, and the range of the next byte. -/
theorem opening_cases (h : opening byte = some sequence) :
    sequence.seen = [byte] ∧
      (sequence.missing = 1 ∧ 0xC2 ≤ byte.toNat ∧ byte.toNat ≤ 0xDF ∧
          sequence.bits + 0xC0 = byte.toNat ∧ sequence.low = 0x80 ∧ sequence.high = 0xBF ∨
        sequence.missing = 2 ∧ 0xE0 ≤ byte.toNat ∧ byte.toNat ≤ 0xEF ∧
          sequence.bits + 0xE0 = byte.toNat ∧
            (byte.toNat = 0xE0 ∧ sequence.low = 0xA0 ∨ byte.toNat ≠ 0xE0 ∧ sequence.low = 0x80) ∧
            (byte.toNat = 0xED ∧ sequence.high = 0x9F ∨ byte.toNat ≠ 0xED ∧ sequence.high = 0xBF) ∨
        sequence.missing = 3 ∧ 0xF0 ≤ byte.toNat ∧ byte.toNat ≤ 0xF4 ∧
          sequence.bits + 0xF0 = byte.toNat ∧
            (byte.toNat = 0xF0 ∧ sequence.low = 0x90 ∨ byte.toNat ≠ 0xF0 ∧ sequence.low = 0x80) ∧
            (byte.toNat = 0xF4 ∧ sequence.high = 0x8F ∨
              byte.toNat ≠ 0xF4 ∧ sequence.high = 0xBF)) := by
  simp only [opening] at h
  split_ifs at h <;> cases h <;> refine ⟨rfl, ?_⟩ <;> dsimp only <;> omega

theorem opening_isSome (h : 0xC2 ≤ byte.toNat ∧ byte.toNat ≤ 0xF4) :
    ∃ sequence, opening byte = some sequence := by
  rw [← Option.isSome_iff_exists]
  simp only [opening]
  split_ifs
  all_goals first | rfl | omega

theorem toNat_val_ofNat {n : ℕ} (h : n.isValidChar) : (Char.ofNat n).val.toNat = n := by
  rw [Char.ofNat, dif_pos h]
  rfl

section Encoded

variable {n : ℕ} (h : n.isValidChar)
include h

theorem encode_two (hlow : 0x80 ≤ n) (hhigh : n < 0x800) :
    String.utf8EncodeChar (Char.ofNat n) =
      [UInt8.ofNat (n / 64 % 0x20 + 0xC0), UInt8.ofNat (n % 0x40 + 0x80)] := by
  rw [String.utf8EncodeChar, toNat_val_ofNat h, if_neg (by omega), if_pos (by omega)]

theorem encode_three (hlow : 0x800 ≤ n) (hhigh : n < 0x10000) :
    String.utf8EncodeChar (Char.ofNat n) =
      [UInt8.ofNat (n / 4096 % 0x10 + 0xE0), UInt8.ofNat (n / 64 % 0x40 + 0x80),
        UInt8.ofNat (n % 0x40 + 0x80)] := by
  rw [String.utf8EncodeChar, toNat_val_ofNat h, if_neg (by omega), if_neg (by omega),
    if_pos (by omega)]

theorem encode_four (hlow : 0x10000 ≤ n) :
    String.utf8EncodeChar (Char.ofNat n) =
      [UInt8.ofNat (n / 262144 % 0x08 + 0xF0), UInt8.ofNat (n / 4096 % 0x40 + 0x80),
        UInt8.ofNat (n / 64 % 0x40 + 0x80), UInt8.ofNat (n % 0x40 + 0x80)] := by
  rw [String.utf8EncodeChar, toNat_val_ofNat h, if_neg (by omega), if_neg (by omega),
    if_neg (by omega)]

end Encoded

/-- A whole sequence is a character. -/
theorem run_cons_completes (h : opening byte = some sequence) (hbytes : sequence.Completes bytes) :
    run none (byte :: bytes) =
      ([.char (byte :: bytes) (Char.ofNat (bitsBehind sequence.bits bytes))], none) := by
  obtain ⟨hseen, hcases⟩ := opening_cases h
  rw [run, step, start, if_neg (by omega), h]
  simp [hbytes.run, hseen]

theorem toNat_ofNat {n : ℕ} (h : n < 256) : (UInt8.ofNat n).toNat = n :=
  UInt8.toNat_ofNat_of_lt' h

theorem exists_completes {a : UInt8} {n : ℕ} (ha : 0xC2 ≤ a.toNat ∧ a.toNat ≤ 0xF4)
    (h : ∀ sequence, opening a = some sequence → bytes.length = sequence.missing ∧
      (∀ byte ∈ bytes.head?, sequence.low ≤ byte.toNat ∧ byte.toNat ≤ sequence.high) ∧
        (∀ byte ∈ bytes, Inner byte) ∧ bitsBehind sequence.bits bytes = n) :
    ∃ byte sequence rest, a :: bytes = byte :: rest ∧ opening byte = some sequence ∧
      sequence.Completes rest ∧ Char.ofNat (bitsBehind sequence.bits rest) = Char.ofNat n := by
  obtain ⟨sequence, hopening⟩ := opening_isSome ha
  obtain ⟨hlen, hhead, hinner, hbits⟩ := h sequence hopening
  exact ⟨a, sequence, bytes, rfl, hopening, ⟨hlen, hhead, hinner⟩, congrArg Char.ofNat hbits⟩

/-- The bytes of a character: one byte, or a sequence that the others complete. -/
theorem encode_cases (c : Char) :
    (String.utf8EncodeChar c = [UInt8.ofNat c.toNat] ∧ c.toNat < 0x80) ∨
      ∃ byte sequence bytes, String.utf8EncodeChar c = byte :: bytes ∧
        opening byte = some sequence ∧ sequence.Completes bytes ∧
          Char.ofNat (bitsBehind sequence.bits bytes) = c := by
  have hvalid : c.toNat.isValidChar := c.valid
  have hvalid' := hvalid
  have hc : Char.ofNat c.toNat = c := Char.ofNat_toNat c
  generalize hn : c.toNat = n at hvalid hvalid' hc
  subst hc
  by_cases hone : n < 0x80
  · have hencode : String.utf8EncodeChar (Char.ofNat n) = [UInt8.ofNat n] := by
      rw [String.utf8EncodeChar, toNat_val_ofNat hvalid, if_pos (by omega)]
    exact .inl ⟨hencode, hone⟩
  right
  by_cases htwo : n < 0x800
  · rw [encode_two hvalid (by omega) htwo]
    have ha := @toNat_ofNat (n / 64 % 0x20 + 0xC0) (by omega)
    have hx := @toNat_ofNat (n % 0x40 + 0x80) (by omega)
    refine exists_completes (by omega) fun sequence hopening => ?_
    obtain ⟨-, hcases⟩ := opening_cases hopening
    simp only [List.length_cons, List.length_nil, List.head?_cons, Option.mem_def,
      Option.some.injEq, forall_eq', List.mem_cons, List.not_mem_nil, or_false, forall_eq, Inner,
      bitsBehind, List.foldl_cons, List.foldl_nil]
    omega
  by_cases hthree : n < 0x10000
  · rw [encode_three hvalid (by omega) hthree]
    have ha := @toNat_ofNat (n / 4096 % 0x10 + 0xE0) (by omega)
    have hx := @toNat_ofNat (n / 64 % 0x40 + 0x80) (by omega)
    have hy := @toNat_ofNat (n % 0x40 + 0x80) (by omega)
    refine exists_completes (by omega) fun sequence hopening => ?_
    obtain ⟨-, hcases⟩ := opening_cases hopening
    simp only [List.length_cons, List.length_nil, List.head?_cons, Option.mem_def,
      Option.some.injEq, forall_eq', List.mem_cons, List.not_mem_nil, or_false, forall_eq_or_imp,
      forall_eq, Inner, bitsBehind, List.foldl_cons, List.foldl_nil]
    omega
  · rw [encode_four hvalid (by omega)]
    have ha := @toNat_ofNat (n / 262144 % 0x08 + 0xF0) (by omega)
    have hx := @toNat_ofNat (n / 4096 % 0x40 + 0x80) (by omega)
    have hy := @toNat_ofNat (n / 64 % 0x40 + 0x80) (by omega)
    have hz := @toNat_ofNat (n % 0x40 + 0x80) (by omega)
    refine exists_completes (by omega) fun sequence hopening => ?_
    obtain ⟨-, hcases⟩ := opening_cases hopening
    simp only [List.length_cons, List.length_nil, List.head?_cons, Option.mem_def,
      Option.some.injEq, forall_eq', List.mem_cons, List.not_mem_nil, or_false, forall_eq_or_imp,
      forall_eq, Inner, bitsBehind, List.foldl_cons, List.foldl_nil]
    omega

/-- **A character is read back.** -/
theorem run_utf8EncodeChar (c : Char) :
    run none (String.utf8EncodeChar c) = ([.char (String.utf8EncodeChar c) c], none) := by
  rcases encode_cases c with ⟨hencode, hlt⟩ | ⟨byte, sequence, bytes, hencode, hopening, hbytes, hc⟩
  · rw [hencode]
    simp [run, step, start, toNat_ofNat (show c.toNat < 256 by omega), hlt]
  · rw [hencode, run_cons_completes hopening hbytes, hc]

theorem decode_encode (text : List Char) :
    decode (encode text) = text.map fun c => .char (String.utf8EncodeChar c) c := by
  induction text with
  | nil => rfl
  | cons c text ih =>
    have hrun := run_utf8EncodeChar c
    rw [encode, List.flatMap_cons, decode_append_of_closed (by rw [hrun]), ← encode, ih, decode,
      hrun]
    rfl

theorem fromUtf8Lossy_encode (text : List Char) : fromUtf8Lossy (encode text) = text := by
  simp [fromUtf8Lossy, decode_encode, Function.comp_def, Piece.text]

theorem fromUtf8_encode (text : List Char) : fromUtf8 (encode text) = some text := by
  rw [fromUtf8, decode_encode]
  induction text with
  | nil => rfl
  | cons c text ih => simp [Piece.char?, ih]

end Argmax.Lib.Utf8
