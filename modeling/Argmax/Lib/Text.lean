import Mathlib.Data.List.Infix
import Mathlib.Data.List.DropRight
import Mathlib.Algebra.GroupWithZero.Nat

/-!
# Text as the standard library of the source sees it

Texts are lists of characters. Trimming removes the characters with the Unicode
property `White_Space`, lengths count UTF-8 bytes, and a search looks for a
contiguous part.

## Main definitions

* `isWhitespace`, `trimStart`, `trimEnd`, `trim`.
* `byteLength`, `utf16Length`: the length in UTF-8 bytes and in UTF-16 units.
* `utf16Units`: the UTF-16 units.
* `containsText`: one text occurs inside another.
-/

namespace Argmax.Lib.Text

/-- The characters with the property `White_Space`. -/
def isWhitespace (c : Char) : Bool :=
  let n := c.toNat
  (9 ≤ n && n ≤ 13) || n == 0x20 || n == 0x85 || n == 0xA0 || n == 0x1680 ||
    (0x2000 ≤ n && n ≤ 0x200A) || n == 0x2028 || n == 0x2029 || n == 0x202F ||
    n == 0x205F || n == 0x3000

def trimStart (text : List Char) : List Char := text.dropWhile isWhitespace

def trimEnd (text : List Char) : List Char := text.rdropWhile isWhitespace

/-- Both ends trimmed. -/
def trim (text : List Char) : List Char := trimEnd (trimStart text)

theorem trim_eq_nil {text : List Char} : trim text = [] ↔ ∀ c ∈ text, isWhitespace c = true := by
  rw [trim, trimEnd, trimStart, List.rdropWhile_eq_nil_iff]
  constructor
  · intro h
    rw [← List.dropWhile_eq_nil_iff]
    by_contra hne
    obtain ⟨c, rest, hrest⟩ := List.exists_cons_of_ne_nil hne
    have hhead := List.dropWhile_get_zero_not isWhitespace text (by
      rw [hrest]
      simp)
    have hblank := h c (by simp [hrest])
    simp [hrest, hblank] at hhead
  · intro h c hc
    exact h c ((List.dropWhile_sublist _).subset hc)

/-- White space in front goes. -/
theorem trim_blank_append {blank : List Char} (h : ∀ c ∈ blank, isWhitespace c = true)
    (text : List Char) : trim (blank ++ text) = trim text := by
  rw [trim, trimStart, List.dropWhile_append_of_pos h]
  rfl

/-- White space at the end goes. -/
theorem trim_append_blank {blank : List Char} (h : ∀ c ∈ blank, isWhitespace c = true)
    (text : List Char) : trim (text ++ blank) = trim text := by
  rw [trim, trim, trimStart, trimStart, List.dropWhile_append]
  split
  · rename_i hempty
    rw [List.isEmpty_iff.mp hempty, List.dropWhile_eq_nil_iff.mpr h]
  · rw [trimEnd, trimEnd, List.rdropWhile, List.rdropWhile, List.reverse_append,
      List.dropWhile_append_of_pos]
    intro c hc
    exact h c (List.mem_reverse.mp hc)

/-- A text is its trimmed part with white space around it. -/
theorem exists_trim (text : List Char) : ∃ front back, text = front ++ trim text ++ back ∧
    (∀ c ∈ front, isWhitespace c = true) ∧ ∀ c ∈ back, isWhitespace c = true := by
  refine ⟨text.takeWhile isWhitespace, (trimStart text).rtakeWhile isWhitespace, ?_, ?_, ?_⟩
  · rw [trim, trimEnd, List.append_assoc, List.rdropWhile_append_rtakeWhile, trimStart,
      List.takeWhile_append_dropWhile]
  · intro c hc
    exact List.mem_takeWhile_imp hc
  · intro c hc
    exact List.mem_rtakeWhile_imp hc

theorem trimEnd_append_of_solid {core : List Char} (h : trimEnd core = core)
    (text : List Char) : trimEnd (core ++ text) = core ++ trimEnd text := by
  rw [trimEnd, List.rdropWhile] at h
  have hcore : core.reverse.dropWhile isWhitespace = core.reverse :=
    List.reverse_injective (by rw [h, List.reverse_reverse])
  rw [trimEnd, trimEnd, List.rdropWhile, List.rdropWhile, List.reverse_append,
    List.dropWhile_append, hcore]
  split
  · rename_i hempty
    simp [List.isEmpty_iff.mp hempty]
  · simp

theorem trimEnd_append_of_ne_nil {core : List Char} (h : trimEnd core = core)
    (hne : core ≠ []) (text : List Char) : trimEnd (text ++ core) = text ++ core := by
  rw [trimEnd, List.rdropWhile] at h
  have hcore : core.reverse.dropWhile isWhitespace = core.reverse :=
    List.reverse_injective (by rw [h, List.reverse_reverse])
  rw [trimEnd, List.rdropWhile, List.reverse_append, List.dropWhile_append, hcore]
  simp [hne]

/-- White space at the end goes. -/
theorem trimEnd_append_blank {blank : List Char} (h : ∀ c ∈ blank, isWhitespace c = true)
    (text : List Char) : trimEnd (text ++ blank) = trimEnd text := by
  rw [trimEnd, trimEnd, List.rdropWhile, List.rdropWhile, List.reverse_append,
    List.dropWhile_append_of_pos]
  intro c hc
  exact h c (List.mem_reverse.mp hc)

/-- What stands behind a text takes nothing of its trimmed part. -/
theorem length_trimEnd_mono {front text : List Char} (h : front <+: text) :
    (trimEnd front).length ≤ (trimEnd text).length := by
  have ⟨rest, hrest⟩ := h
  have hsolid : trimEnd (trimEnd front) = trimEnd front := List.rdropWhile_idempotent _ _
  have hfront : trimEnd front ++ front.rtakeWhile isWhitespace = front :=
    List.rdropWhile_append_rtakeWhile
  have htext : text = trimEnd front ++ (front.rtakeWhile isWhitespace ++ rest) := by
    rw [← List.append_assoc, hfront, hrest]
  have htrim := trimEnd_append_of_solid hsolid (front.rtakeWhile isWhitespace ++ rest)
  rw [← htext] at htrim
  rw [htrim, List.length_append]
  exact Nat.le_add_right _ _

theorem trimEnd_trim (text : List Char) : trimEnd (trim text) = trim text := by
  rw [trim, trimEnd, trimEnd, List.rdropWhile_idempotent]

theorem trimStart_trim (text : List Char) : trimStart (trim text) = trim text := by
  cases hcore : trim text with
  | nil => rfl
  | cons c core =>
    -- the first character is the first of the text without its leading white space
    have hprefix : trim text <+: trimStart text := List.rdropWhile_prefix _ _
    rw [hcore] at hprefix
    have ⟨rest, hrest⟩ := hprefix
    have hhead := List.head?_dropWhile_not isWhitespace text
    rw [← trimStart, ← hrest] at hhead
    have hc : isWhitespace c = false := hhead
    rw [trimStart, List.dropWhile_cons_of_neg (by simp [hc])]

@[simp] theorem trim_trim (text : List Char) : trim (trim text) = trim text := by
  rw [trim, trimStart_trim, trimEnd_trim]

/-- The length in UTF-8 bytes. -/
def byteLength (text : List Char) : ℕ := (text.map Char.utf8Size).sum

@[simp] theorem byteLength_nil : byteLength [] = 0 := rfl

@[simp] theorem byteLength_cons (c : Char) (text : List Char) :
    byteLength (c :: text) = c.utf8Size + byteLength text := by
  simp [byteLength]

@[simp] theorem byteLength_append (text text' : List Char) :
    byteLength (text ++ text') = byteLength text + byteLength text' := by
  simp [byteLength]

theorem byteLength_sublist {text text' : List Char} (h : text.Sublist text') :
    byteLength text ≤ byteLength text' := by
  induction h with
  | slnil => exact le_rfl
  | cons c h ih => exact ih.trans (by simp)
  | cons_cons c h ih => simpa using ih

theorem byteLength_toDigits (n : ℕ) :
    byteLength (Nat.toDigits 10 n) = (Nat.toDigits 10 n).length := by
  have hone : ∀ c ∈ Nat.toDigits 10 n, c.utf8Size = 1 := by
    intro c hc
    have hdigit : c.isDigit = true := Nat.isDigit_of_mem_toDigits (by decide) (by decide) hc
    simp only [Char.isDigit, Bool.and_eq_true, decide_eq_true_eq, ge_iff_le] at hdigit
    rw [Char.utf8Size, if_pos (UInt32.le_trans hdigit.2 (by decide))]
  rw [byteLength, List.map_congr_left hone]
  simp

/-- The length in UTF-16 units. -/
def utf16Length (text : List Char) : ℕ :=
  (text.map fun c => if c.toNat < 0x10000 then 1 else 2).sum

/-- The UTF-16 units. -/
def utf16Units (text : List Char) : List ℕ :=
  text.flatMap fun c =>
    if c.toNat < 0x10000 then [c.toNat]
    else [0xD800 + (c.toNat - 0x10000) / 0x400, 0xDC00 + (c.toNat - 0x10000) % 0x400]

/-- The needle occurs in the text as a contiguous part. -/
def containsText (text needle : List Char) : Bool := decide (needle <:+: text)

end Argmax.Lib.Text
