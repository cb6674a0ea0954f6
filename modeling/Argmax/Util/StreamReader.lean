import Argmax.Lib.Utf8
import Mathlib.Data.List.DropRight
import Mathlib.Data.FinEnum

/-!
# Streams of text

`util/stream_reader.rs`: bytes are read as they come and handed on as text. What may be the
beginning of a character is carried over to the next read.

## Main results

* `utf8SafeSplit_eq`: what is carried over is an incomplete sequence, or a few bytes of none.
* `Pumped.feed`: what a read keeps.
* `pump_text`: the text does not depend on the reads.
-/

namespace Argmax.Util.StreamReader

open Argmax.Lib.Utf8

def isContinuation (byte : UInt8) : Bool := byte &&& 0b1100_0000 == 0b1000_0000

/-- How long the sequence is that a byte leads, by its mask. -/
def expectedLen (byte : UInt8) : Option ℕ :=
  if byte &&& 0b1000_0000 == 0 then some 1
  else if byte &&& 0b1110_0000 == 0b1100_0000 then some 2
  else if byte &&& 0b1111_0000 == 0b1110_0000 then some 3
  else if byte &&& 0b1111_1000 == 0b1111_0000 then some 4
  else none

/-- One turn of the scan from the right. None goes on. -/
def scanByte (len : ℕ) (entry : UInt8 × ℕ) : Option ℕ :=
  let (byte, i) := entry
  if isContinuation byte then none
  else
    match expectedLen byte with
    | none => some len
    | some expected => if i + expected ≤ len then some len else some i

def utf8SafeSplit (bytes : List UInt8) : ℕ :=
  if bytes.isEmpty then 0
  else
    let len := bytes.length
    let scanFrom := len - 4
    ((bytes.zipIdx.drop scanFrom).reverse.findSome? (scanByte len)).getD
      (if 4 ≤ len then len else 0)

/-- What a read gives: bytes, none of them at the end of the stream, with the answer of the hook,
or an error. -/
inductive ReadOutcome where
  | bytes (buffer : List UInt8) (proceeds : Bool)
  | failed

/-- What is pending, and the texts that were handed on. -/
structure Pump where
  pending : List UInt8
  chunks : List (List Char)

/-- A read that the hook lets through. -/
def Pump.feed (pump : Pump) (buffer : List UInt8) : Pump :=
  let pending := pump.pending ++ buffer
  let splitAt := utf8SafeSplit pending
  if splitAt = 0 then { pump with pending := pending }
  else
    { pending := pending.drop splitAt
      chunks := pump.chunks ++ [fromUtf8Lossy (pending.take splitAt)] }

/-- The end of the stream. -/
def Pump.finish (pump : Pump) : List (List Char) :=
  let splitAt := utf8SafeSplit pump.pending
  if 0 < splitAt then pump.chunks ++ [fromUtf8Lossy (pump.pending.take splitAt)] else pump.chunks

/-- The loop, from what is pending on. A stream that has no more outcomes is at its end. -/
def pumpFrom (pump : Pump) : List ReadOutcome → List (List Char)
  | [] => pump.finish
  | .failed :: _ => pump.chunks
  | .bytes buffer proceeds :: outcomes =>
    if buffer.isEmpty then pump.finish
    else if !proceeds then pump.chunks
    else pumpFrom (pump.feed buffer) outcomes

def pumpUtf8Stream (outcomes : List ReadOutcome) : List (List Char) := pumpFrom ⟨[], []⟩ outcomes

/-! ## Bytes -/

theorem forall_byte {p : UInt8 → Prop} (h : ∀ n : Fin 256, p (UInt8.ofNat n)) (byte : UInt8) :
    p byte := by
  simpa using h ⟨byte.toNat, byte.toNat_lt⟩

theorem isContinuation_iff (byte : UInt8) : isContinuation byte = true ↔ Inner byte := by
  refine forall_byte (p := fun byte => isContinuation byte = true ↔ Inner byte) ?_ byte
  decide +kernel

theorem expectedLen_of_opening (byte : UInt8) :
    ∀ sequence ∈ opening byte, expectedLen byte = some (sequence.missing + 1) := by
  refine forall_byte (p := fun byte => ∀ sequence ∈ opening byte,
    expectedLen byte = some (sequence.missing + 1)) ?_ byte
  decide +kernel

/-- How long the sequence of a byte is. A byte that leads none stands for itself. -/
def wanted (byte : UInt8) : ℕ := (expectedLen byte).getD 1

theorem wanted_le (byte : UInt8) : 1 ≤ wanted byte ∧ wanted byte ≤ 4 := by
  simp only [wanted, expectedLen]
  split_ifs <;> simp

/-! ## The end of a stream -/

/-- A sequence that the end of a stream leaves incomplete. -/
def trailing (stream : List UInt8) : List UInt8 :=
  match (stream.rdropWhile isContinuation).getLast? with
  | none => []
  | some lead =>
    if (stream.rtakeWhile isContinuation).length + 1 < wanted lead then
      lead :: stream.rtakeWhile isContinuation
    else []

/-- The stream before that. -/
def whole (stream : List UInt8) : List UInt8 :=
  stream.take (stream.length - (trailing stream).length)

/-- Bytes that continue no sequence stand at the end of the stream. -/
def StrayEnd (stream : List UInt8) : Prop :=
  stream.rtakeWhile isContinuation ≠ [] ∧
    ∀ lead ∈ (stream.rdropWhile isContinuation).getLast?,
      wanted lead < (stream.rtakeWhile isContinuation).length + 1

instance : DecidablePred StrayEnd := fun _ => inferInstanceAs (Decidable (_ ∧ _))

section Ends

variable {front tail : List UInt8} {lead : UInt8}

theorem exists_lead (bytes : List UInt8) :
    (∀ byte ∈ bytes, isContinuation byte = true) ∨
      ∃ front lead tail, bytes = front ++ lead :: tail ∧ isContinuation lead = false ∧
        ∀ byte ∈ tail, isContinuation byte = true := by
  induction bytes using List.reverseRecOn with
  | nil => simp
  | append_singleton bytes byte ih =>
    by_cases hbyte : isContinuation byte = true
    · rcases ih with hall | ⟨front, lead, tail, rfl, hlead, htail⟩
      · left
        simpa [or_imp, forall_and, hbyte] using hall
      · refine .inr ⟨front, lead, tail ++ [byte], by simp, hlead, ?_⟩
        simpa [or_imp, forall_and, hbyte] using htail
    · exact .inr ⟨bytes, byte, [], rfl, by simpa using hbyte, by simp⟩

theorem rtakeWhile_inner (h : ∀ byte ∈ tail, isContinuation byte = true) :
    tail.rtakeWhile isContinuation = tail ∧ tail.rdropWhile isContinuation = [] := by
  have hreverse : ∀ byte ∈ tail.reverse, isContinuation byte = true :=
    fun byte hbyte => h byte (List.mem_reverse.mp hbyte)
  rw [List.rtakeWhile, List.rdropWhile, List.takeWhile_eq_self_iff.mpr hreverse,
    List.dropWhile_eq_nil_iff.mpr hreverse]
  simp

theorem rtakeWhile_lead (front : List UInt8) (hlead : isContinuation lead = false)
    (h : ∀ byte ∈ tail, isContinuation byte = true) :
    (front ++ lead :: tail).rtakeWhile isContinuation = tail ∧
      (front ++ lead :: tail).rdropWhile isContinuation = front ++ [lead] := by
  have hreverse : ∀ byte ∈ tail.reverse, isContinuation byte = true :=
    fun byte hbyte => h byte (List.mem_reverse.mp hbyte)
  rw [List.rtakeWhile, List.rdropWhile]
  simp only [List.reverse_append, List.reverse_cons, List.append_assoc,
    List.takeWhile_append_of_pos hreverse, List.dropWhile_append_of_pos hreverse]
  simp [hlead]

theorem trailing_inner (h : ∀ byte ∈ tail, isContinuation byte = true) : trailing tail = [] := by
  simp [trailing, rtakeWhile_inner h]

theorem trailing_lead (front : List UInt8) (hlead : isContinuation lead = false)
    (h : ∀ byte ∈ tail, isContinuation byte = true) :
    trailing (front ++ lead :: tail) =
      if tail.length + 1 < wanted lead then lead :: tail else [] := by
  simp [trailing, rtakeWhile_lead front hlead h]

theorem strayEnd_lead (front : List UInt8) (hlead : isContinuation lead = false)
    (h : ∀ byte ∈ tail, isContinuation byte = true) :
    StrayEnd (front ++ lead :: tail) ↔ wanted lead < tail.length + 1 := by
  have hpos := (wanted_le lead).1
  obtain ⟨htake, hdrop⟩ := rtakeWhile_lead front hlead h
  rw [StrayEnd, htake, hdrop, List.getLast?_concat]
  constructor
  · exact fun hstray => hstray.2 lead rfl
  · intro hlt
    refine ⟨fun hnil => ?_, fun other hother => ?_⟩
    · rw [hnil, List.length_nil] at hlt
      omega
    · cases hother
      exact hlt

/-- Where nothing trails, the next byte can be anything. -/
theorem closed_of_trailing {stream : List UInt8} (h : trailing stream = []) :
    (run none stream).2 = none := by
  rcases exists_lead stream with hall | ⟨front, lead, tail, rfl, hlead, htail⟩
  · exact run_inner fun byte hbyte => (isContinuation_iff byte).mp (hall byte hbyte)
  · have hlen : wanted lead ≤ tail.length + 1 := by
      by_contra hlt
      rw [trailing_lead front hlead htail, if_pos (by omega)] at h
      cases h
    refine run_closed_of_inner front ?_ (fun byte hbyte => (isContinuation_iff byte).mp
      (htail byte hbyte)) fun sequence hsequence => ?_
    · simp [← isContinuation_iff, hlead]
    · rw [wanted, expectedLen_of_opening lead sequence hsequence] at hlen
      simpa using hlen

end Ends

/-! ## The split -/

theorem scanByte_inner {len : ℕ} {entries : List (UInt8 × ℕ)}
    (h : ∀ entry ∈ entries, isContinuation entry.1 = true) :
    entries.reverse.findSome? (scanByte len) = none := by
  rw [List.findSome?_eq_none_iff]
  intro entry hentry
  rw [scanByte, if_pos (h entry (List.mem_reverse.mp hentry))]

theorem forall_zipIdx {tail : List UInt8} (h : ∀ byte ∈ tail, isContinuation byte = true) (n : ℕ) :
    ∀ entry ∈ tail.zipIdx n, isContinuation entry.1 = true :=
  fun entry hentry => h entry.1 (List.fst_mem_of_mem_zipIdx hentry)

/-- **What is carried over** is a sequence that has yet to be completed. A buffer of less than four
bytes that continue no sequence is carried over whole. -/
theorem utf8SafeSplit_eq (bytes : List UInt8) :
    utf8SafeSplit bytes =
      if (∀ byte ∈ bytes, isContinuation byte = true) ∧ bytes.length < 4 then 0
      else bytes.length - (trailing bytes).length := by
  rcases exists_lead bytes with hall | ⟨front, lead, tail, rfl, hlead, htail⟩
  · have hnone : ((bytes.zipIdx.drop (bytes.length - 4)).reverse.findSome?
        (scanByte bytes.length)) = none :=
      scanByte_inner fun entry hentry => forall_zipIdx hall 0 entry (List.mem_of_mem_drop hentry)
    rw [utf8SafeSplit, trailing_inner hall]
    dsimp only
    rw [hnone, Option.getD_none]
    by_cases hlen : 4 ≤ bytes.length
    · have hne : bytes.isEmpty = false := by
        rw [List.isEmpty_eq_false_iff, ← List.length_pos_iff]
        omega
      rw [hne, if_neg (by simp), if_pos hlen, if_neg (by omega), List.length_nil, Nat.sub_zero]
    · rw [if_neg hlen, ite_self, if_pos ⟨hall, by omega⟩]
  · have hnot : ¬∀ byte ∈ front ++ lead :: tail, isContinuation byte = true :=
      fun hall => by simp [hall lead (by simp)] at hlead
    have hlen : (front ++ lead :: tail).length = front.length + (tail.length + 1) := by simp
    have hwanted := wanted_le lead
    rw [if_neg fun h => hnot h.1, trailing_lead front hlead htail, utf8SafeSplit, if_neg (by simp),
      List.zipIdx_append, List.zipIdx_cons]
    dsimp only
    by_cases hwindow : tail.length ≤ 3
    · rw [List.drop_append_of_le_length (by simp only [List.length_zipIdx]; omega),
        List.reverse_append, List.reverse_cons, List.findSome?_append, List.findSome?_append,
        scanByte_inner (forall_zipIdx htail _), List.findSome?_singleton, scanByte]
      rw [wanted] at hwanted ⊢
      simp only [hlead, Bool.false_eq_true, if_false]
      cases hexpected : expectedLen lead with
      | none => simp
      | some expected =>
        simp only [Option.getD_some]
        by_cases hfits : tail.length + 1 < expected
        · rw [if_neg (by omega), if_pos hfits]
          simp
        · rw [if_pos (by omega), if_neg hfits]
          simp
    · -- the window has bytes of the tail only
      have hdrop : (front ++ lead :: tail).length - 4 = front.length + (1 + (tail.length - 4)) := by
        omega
      rw [List.drop_append, List.drop_eq_nil_of_le (by simp only [List.length_zipIdx]; omega),
        scanByte_inner, if_pos (by omega), if_neg (by omega)]
      · rfl
      · intro entry hentry
        rw [List.length_zipIdx, hdrop, Nat.add_sub_cancel_left, Nat.add_comm 1] at hentry
        exact forall_zipIdx htail _ entry (List.mem_of_mem_drop hentry)

/-! ## The pump -/

/-- The first byte is one that can lead a sequence. -/
def Leads (bytes : List UInt8) : Prop := ∃ byte ∈ bytes.head?, isContinuation byte = false

/-- **What a read keeps**: the texts are those of the bytes that are not pending, the stream can be
cut there, and pending is what cannot be decoded yet. -/
structure Pumped (flushed : List UInt8) (pump : Pump) : Prop where
  text : pump.chunks.flatten = fromUtf8Lossy flushed
  cut : trailing flushed = [] ∨ Leads pump.pending
  pending : trailing pump.pending = pump.pending ∨
    (∀ byte ∈ pump.pending, isContinuation byte = true) ∧ pump.pending.length < 4

/-- What trails is an incomplete sequence. -/
theorem trailing_cases (stream : List UInt8) : trailing stream = [] ∨
    ∃ lead tail, trailing stream = lead :: tail ∧ isContinuation lead = false ∧
      (∀ byte ∈ tail, isContinuation byte = true) ∧ tail.length + 1 < wanted lead := by
  rcases exists_lead stream with hall | ⟨front, lead, tail, rfl, hlead, htail⟩
  · exact .inl (trailing_inner hall)
  · rw [trailing_lead front hlead htail]
    by_cases hlen : tail.length + 1 < wanted lead
    · exact .inr ⟨lead, tail, if_pos hlen, hlead, htail, hlen⟩
    · exact .inl (if_neg hlen)

theorem length_trailing_le (stream : List UInt8) : (trailing stream).length ≤ 3 := by
  rcases trailing_cases stream with h | ⟨lead, tail, h, -, -, hlen⟩
  · simp [h]
  · have := wanted_le lead
    rw [h, List.length_cons]
    omega

theorem trailing_trailing (stream : List UInt8) : trailing (trailing stream) = trailing stream := by
  rcases trailing_cases stream with h | ⟨lead, tail, h, hlead, htail, hlen⟩
  · simp [h, trailing_inner]
  · have := trailing_lead [] hlead htail
    rw [List.nil_append, if_pos hlen] at this
    rw [h, this]

theorem whole_append_trailing (stream : List UInt8) : whole stream ++ trailing stream = stream := by
  rcases exists_lead stream with hall | ⟨front, lead, tail, rfl, hlead, htail⟩
  · simp [whole, trailing_inner hall]
  · rw [whole, trailing_lead front hlead htail]
    by_cases hlen : tail.length + 1 < wanted lead
    · simp [hlen]
    · rw [if_neg hlen, List.length_nil, Nat.sub_zero, List.take_length, List.append_nil]

/-- Bytes with a lead say themselves what trails. -/
theorem trailing_append (stream : List UInt8) {bytes : List UInt8}
    (h : ¬∀ byte ∈ bytes, isContinuation byte = true) :
    trailing (stream ++ bytes) = trailing bytes := by
  rcases exists_lead bytes with hall | ⟨front, lead, tail, rfl, hlead, htail⟩
  · exact absurd hall h
  · rw [← List.append_assoc, trailing_lead _ hlead htail, trailing_lead _ hlead htail]

/-- Behind a whole stream, bytes of no sequence are stray, and nothing trails. -/
theorem trailing_append_inner {stream bytes : List UInt8} (h : trailing stream = [])
    (hall : ∀ byte ∈ bytes, isContinuation byte = true) :
    trailing (stream ++ bytes) = [] ∧ (bytes ≠ [] → StrayEnd (stream ++ bytes)) := by
  rcases exists_lead stream with hstream | ⟨front, lead, tail, rfl, hlead, htail⟩
  · have hboth : ∀ byte ∈ stream ++ bytes, isContinuation byte = true := by
      simpa [or_imp, forall_and] using ⟨hstream, hall⟩
    refine ⟨trailing_inner hboth, fun hne => ?_⟩
    rw [StrayEnd, (rtakeWhile_inner hboth).1, (rtakeWhile_inner hboth).2]
    simp [hne]
  · have hboth : ∀ byte ∈ tail ++ bytes, isContinuation byte = true := by
      simpa [or_imp, forall_and] using ⟨htail, hall⟩
    have hlen : ¬tail.length + 1 < wanted lead := fun hlt => by
      rw [trailing_lead front hlead htail, if_pos hlt] at h
      cases h
    rw [List.append_assoc, List.cons_append, trailing_lead front hlead hboth,
      strayEnd_lead front hlead hboth, List.length_append]
    refine ⟨if_neg (by omega), fun hne => ?_⟩
    have := List.length_pos_iff.mpr hne
    omega

namespace Pumped

variable {flushed : List UInt8} {pump : Pump}

section

variable (h : Pumped flushed pump)
include h

theorem leads_append (bytes : List UInt8) :
    trailing flushed = [] ∨ Leads (pump.pending ++ bytes) := by
  refine h.cut.imp_right ?_
  rintro ⟨byte, hbyte, hlead⟩
  exact ⟨byte, by simp [Option.mem_def.mp hbyte], hlead⟩

theorem settled : utf8SafeSplit pump.pending = 0 := by
  rw [utf8SafeSplit_eq]
  split
  · rfl
  · rename_i hnot
    rw [h.pending.resolve_right hnot, Nat.sub_self]

theorem short : pump.pending.length ≤ 3 := by
  rcases h.pending with hpending | ⟨-, hlen⟩
  · exact hpending ▸ length_trailing_le pump.pending
  · omega

/-- **A read keeps it.** -/
theorem feed (buffer : List UInt8) :
    ∃ flushed', flushed' ++ (pump.feed buffer).pending = flushed ++ (pump.pending ++ buffer) ∧
      Pumped flushed' (pump.feed buffer) := by
  have hleads := h.leads_append buffer
  rw [Pump.feed, utf8SafeSplit_eq]
  generalize pump.pending ++ buffer = bytes at hleads ⊢
  have hinner : (∀ byte ∈ bytes, isContinuation byte = true) → trailing flushed = [] := by
    intro hall
    refine hleads.resolve_right ?_
    rintro ⟨byte, hbyte, hlead⟩
    simp [hall byte (List.mem_of_mem_head? hbyte)] at hlead
  by_cases hfew : (∀ byte ∈ bytes, isContinuation byte = true) ∧ bytes.length < 4
  · rw [if_pos hfew]
    exact ⟨flushed, rfl, h.text, .inl (hinner hfew.1), .inr hfew⟩
  have hsplit := whole_append_trailing bytes
  have hlen := congrArg List.length hsplit
  rw [List.length_append] at hlen
  rw [if_neg hfew, show bytes.length - (trailing bytes).length = (whole bytes).length by omega]
  have htake := @List.take_left _ (whole bytes) (trailing bytes)
  have hdrop := @List.drop_left _ (whole bytes) (trailing bytes)
  rw [hsplit] at htake hdrop
  by_cases hnil : whole bytes = []
  · rw [hnil] at hsplit
    rw [hnil]
    exact ⟨flushed, rfl, h.text, hleads, .inl hsplit⟩
  · rw [if_neg (by simpa using hnil), htake, hdrop]
    refine ⟨flushed ++ whole bytes, by simp [hsplit], ?_, ?_, .inl (trailing_trailing bytes)⟩
    · rw [fromUtf8Lossy_append, ← h.text]
      · simp
      · refine hleads.imp closed_of_trailing ?_
        rintro ⟨byte, hbyte, hlead⟩ other hother
        rw [← hsplit, List.head?_append_of_ne_nil _ hnil] at hbyte
        rw [Option.mem_unique hother hbyte, ← isContinuation_iff, hlead]
        simp
    · rcases trailing_cases bytes with hclosed | ⟨lead, tail, htail, hlead, -, -⟩
      · left
        rw [hclosed, List.append_nil] at hsplit
        rw [hsplit]
        by_cases hall : ∀ byte ∈ bytes, isContinuation byte = true
        · exact (trailing_append_inner (hinner hall) hall).1
        · rw [trailing_append flushed hall, hclosed]
      · exact .inr ⟨lead, by simp [htail], hlead⟩

/-- **Reads keep it.** -/
theorem foldl (reads : List (List UInt8)) :
    ∃ flushed', flushed' ++ (reads.foldl Pump.feed pump).pending =
        flushed ++ (pump.pending ++ reads.flatten) ∧
      Pumped flushed' (reads.foldl Pump.feed pump) := by
  induction reads generalizing flushed pump with
  | nil => exact ⟨flushed, by simp, h⟩
  | cons buffer reads ih =>
    obtain ⟨flushed', hfeed, h'⟩ := h.feed buffer
    obtain ⟨last, hlast, h''⟩ := ih h'
    refine ⟨last, ?_, h''⟩
    rw [List.foldl_cons, hlast, ← List.append_assoc, hfeed]
    simp

/-- Without stray bytes at the end, what is pending there is what trails. -/
theorem trailing_eq (hstray : ¬StrayEnd (flushed ++ pump.pending)) :
    trailing (flushed ++ pump.pending) = pump.pending := by
  by_cases hall : ∀ byte ∈ pump.pending, isContinuation byte = true
  · have hclosed : trailing flushed = [] := by
      refine h.cut.resolve_right ?_
      rintro ⟨byte, hbyte, hlead⟩
      simp [hall byte (List.mem_of_mem_head? hbyte)] at hlead
    have hinner := trailing_append_inner hclosed hall
    rw [hinner.1]
    by_contra hne
    exact hstray (hinner.2 (Ne.symm hne))
  · rw [trailing_append flushed hall]
    exact h.pending.resolve_right fun hfew => hall hfew.1

end

end Pumped

/-! ## The text -/

theorem wanted_of_ascii (byte : UInt8) :
    byte.toNat < 0x80 → isContinuation byte = false ∧ wanted byte = 1 := by
  refine forall_byte (p := fun byte => byte.toNat < 0x80 →
    isContinuation byte = false ∧ wanted byte = 1) ?_ byte
  decide +kernel

/-- The bytes of a text are whole. -/
theorem trailing_encode (text : List Char) :
    trailing (encode text) = [] ∧ ¬StrayEnd (encode text) := by
  induction text using List.reverseRecOn with
  | nil => exact ⟨rfl, by decide⟩
  | append_singleton text c =>
    rw [encode, List.flatMap_append, List.flatMap_singleton]
    rcases encode_cases c with
      ⟨hencode, hlt⟩ | ⟨byte, sequence, bytes, hencode, hopening, hbytes, -⟩
    · obtain ⟨hlead, hwanted⟩ := wanted_of_ascii (UInt8.ofNat c.toNat)
        (by rwa [toNat_ofNat (by omega)])
      rw [hencode, trailing_lead _ hlead (by simp), strayEnd_lead _ hlead (by simp), hwanted]
      simp
    · have hlead : isContinuation byte = false := by
        rw [← Bool.not_eq_true, isContinuation_iff]
        intro hinner
        have hstart := start_of_inner hinner
        rw [start, hopening] at hstart
        split at hstart <;> simp at hstart
      have hinner : ∀ other ∈ bytes, isContinuation other = true :=
        fun other hother => (isContinuation_iff other).mpr (hbytes.inner other hother)
      have hwanted : wanted byte = bytes.length + 1 := by
        rw [wanted, expectedLen_of_opening byte sequence hopening, hbytes.length_eq]
        rfl
      rw [hencode, trailing_lead _ hlead hinner, strayEnd_lead _ hlead hinner, hwanted]
      simp

theorem pumpFrom_bytes {reads : List (List UInt8)} (h : ∀ read ∈ reads, read ≠ []) (pump : Pump) :
    pumpFrom pump (reads.map fun read => .bytes read true) =
      (reads.foldl Pump.feed pump).finish := by
  induction reads generalizing pump with
  | nil => rfl
  | cons read reads ih =>
    rw [List.forall_mem_cons] at h
    rw [List.map_cons, pumpFrom, if_neg (by simpa using h.1)]
    exact ih h.2 _

/-- The text that is handed on. -/
def handedOn (reads : List (List UInt8)) : List Char :=
  (pumpUtf8Stream (reads.map fun read => .bytes read true)).flatten

/-- **The text of a stream.** However it is read, a stream that does not end in stray bytes is
handed on as the text of all its bytes but an incomplete sequence at its end, with a replacement for
what does not decode; the bytes of a text are handed on as the text; and no more than three bytes
are ever pending. -/
theorem pump_text (reads : List (List UInt8)) (h : ∀ read ∈ reads, read ≠ []) :
    (¬StrayEnd reads.flatten →
        handedOn reads = (decode (whole reads.flatten)).map Piece.text ∧
          (decode (whole reads.flatten)).flatMap Piece.bytes ++ trailing reads.flatten =
            reads.flatten) ∧
      (∀ text, reads.flatten = encode text → handedOn reads = text) ∧
        ∀ n, ((reads.take n).foldl Pump.feed ⟨[], []⟩).pending.length ≤ 3 := by
  have hstart : Pumped [] ⟨[], []⟩ := ⟨rfl, .inl rfl, .inl rfl⟩
  obtain ⟨flushed, hflushed, hend⟩ := hstart.foldl reads
  rw [List.nil_append, List.nil_append] at hflushed
  have hout : handedOn reads = fromUtf8Lossy flushed := by
    rw [handedOn, pumpUtf8Stream, pumpFrom_bytes h, Pump.finish, if_neg (by simp [hend.settled]),
      hend.text]
  have hwhole : ¬StrayEnd reads.flatten → flushed = whole reads.flatten := by
    intro hstray
    have hsplit := whole_append_trailing reads.flatten
    rw [← hflushed] at hstray hsplit ⊢
    rw [hend.trailing_eq hstray] at hsplit
    exact (List.append_cancel_right hsplit).symm
  refine ⟨fun hstray => ?_, fun text htext => ?_, fun n => ?_⟩
  · rw [hout, hwhole hstray, flatMap_bytes_decode, whole_append_trailing]
    exact ⟨rfl, rfl⟩
  · obtain ⟨htrailing, hstray⟩ := trailing_encode text
    rw [← htext] at hstray htrailing
    have hsplit := whole_append_trailing reads.flatten
    rw [htrailing, List.append_nil] at hsplit
    rw [hout, hwhole hstray, hsplit, htext, fromUtf8Lossy_encode]
  · obtain ⟨_, -, hshort⟩ := hstart.foldl (reads.take n)
    exact hshort.short

theorem pump_text_cup :
    handedOn [[0x63, 0x61, 0x66, 0xC3, 0xA9, 0xE2], [0x98, 0x95]] = ['c', 'a', 'f', 'é', '☕'] :=
  ((pump_text [[0x63, 0x61, 0x66, 0xC3, 0xA9, 0xE2], [0x98, 0x95]] (by decide)).2.1 _ (by decide))

/-- **What the end of a stream does not show.** A cup without its last byte is dropped, and a stray
byte is replaced or dropped by how the stream is read. -/
theorem unfinished_cup_dropped :
    (¬∀ reads : List (List UInt8), (∀ read ∈ reads, read ≠ []) →
      handedOn reads = fromUtf8Lossy reads.flatten) ∧
        handedOn [[0x68, 0x69, 0xE2, 0x98]] = ['h', 'i'] ∧
          handedOn [[0x61, 0x80]] = ['a', '\uFFFD'] ∧ handedOn [[0x61], [0x80]] = ['a'] := by
  refine ⟨fun h => ?_, by decide, by decide, by decide⟩
  exact absurd (h [[0x68, 0x69, 0xE2, 0x98]] (by decide)) (by decide)

end Argmax.Util.StreamReader
